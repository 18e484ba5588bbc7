import Metra.Server.Lanes
import Metra.Server.Progress

/-!
# Runs in which nothing fails

What the streams of a striped upload do when every operation comes out well: no handler
takes one of the ways that an error takes, and each one that ends has sent its answer.

* `Setup.Undeterred` — what a step finds that is not to fail;
* `Setup.Steady` — the invariant, and `Setup.Steady.smooth` — **an undeterred step of a
  steady run gets the replies that the stream reckons with**.
-/

namespace Metra.Server

open Interleave

/-- The phases of a handler that has met no error. -/
def Phase.Steady : Phase → Prop
  | .broken | .failing | .refused => False
  | .settling st | .reported st => st = .running ∨ st = .completed
  | _ => True

/-- The handler has sent its answer. -/
def Phase.Ended : Phase → Prop
  | .over | .released => True
  | _ => False

/-- What a step has to find in order not to fail: the checkpoint that is on record, no file
at the final path if it must be kept, the one there that is to be removed, and the staging file. -/
structure Setup.Undeterred (setup : Setup) (lanes : Nat) (s : Tracked Task Point State) (t : Task)
    (o : Op) : Prop where
  finds : ∀ b found, (s.point t).phase = .leased b → (s.point t).loaded = .found found →
    setup.OnRecord lanes s found
  reads : o = .readCheckpoint → ∃ found, s.shared.disk.checkpoint = some found ∧
    setup.OnRecord lanes s found
  passes : o = .finalExists → ∀ g, (s.point t).phase = .checking (g + 1) →
    s.shared.disk.final = none
  clears : o = .removeFinal → s.shared.disk.final ≠ none
  renames : o = .renameStaging → ∃ f, s.shared.disk.staging = some f

/-- What holds of the handlers when nothing fails. -/
structure Setup.Steady (setup : Setup) (lanes : Nat) (s : Tracked Task Point State) : Prop where
  others : setup.OthersIdle s
  phases : ∀ u, (s.point u).phase.Steady
  leases : ∀ lane ∈ s.shared.activeLaneWriters, 2 ≤ (s.point (.handler lane)).phase.rank
  ended : ∀ i, (s.point (.handler i)).phase.Ended ↔ ∃ ack, s.shared.acks i = some ack
  answers : ∀ i ack, s.shared.acks i = some ack →
    ack.status = .running ∨ ack.status = .completed
  inLanes : setup.InLanes lanes s

section

variable {setup : Setup} {source : List UInt8} {lanes : Nat} {s : Tracked Task Point State}
  {t : Task} {stream : LaneStream} {o : Op} {c : Choice} {r : o.Reply} {s' : State} {pt : Point}
  {ph : Phase}

/-! ## The replies -/

/-- **An undeterred step of a steady run gets the replies that the stream reckons with.** -/
theorem Setup.Steady.smooth (hsession : setup.Session source lanes) (h : setup.Steady lanes s)
    (hundeterred : setup.Undeterred lanes s t o) (hstream : setup.streams t.stream = some stream)
    (henabled : Enabled setup t (s.point t) o) : setup.Smooth s stream t o where
  acquires := by
    rintro lane rfl hmem
    have hrank := h.leases lane hmem
    generalize hpt : s.point t = pt at henabled
    cases henabled with
    | acquire hstream' =>
      have hindex := hsession.laneIndex_eq hstream'
      rw [hindex, hpt] at hrank
      exact absurd hrank (by simp [Phase.rank])
  writes := h.inLanes.fine t.stream
  reads ho := by
    obtain ⟨found, hfound, transferId, rfl⟩ := hundeterred.reads ho
    exact ⟨_, hfound, hsession.fits hstream⟩
  measures := by
    rintro rfl
    generalize s.point t = pt at henabled
    cases henabled with
    | stagingLen hstream' hsingle =>
      rw [hsession.isStriped_eq hstream'] at hsingle
      cases hsingle
  removes := hundeterred.clears
  renames := hundeterred.renames
  joins _ result hw := h.inLanes.joined _ result hw

/-! ## The phases -/

theorem steady_step (hsession : setup.Session source lanes) (hfaults : ¬ setup.faults)
    (hbase : Baseline setup s) (h : setup.Steady lanes s)
    (hpasses : o = .finalExists → ∀ g, (s.point t).phase = .checking (g + 1) →
      s.shared.disk.final = none)
    (hstream : setup.streams t.stream = some stream) (henabled : Enabled setup t (s.point t) o)
    (hexec : exec t o c s.shared = some (r, s')) :
    (advance setup stream (s.point t) o r).phase.Steady := by
  have hbefore := h.phases t
  have hgoes := hsession.goes hfaults hbase hstream henabled r
  generalize (advance setup stream (s.point t) o r).phase = ph' at hgoes
  generalize (s.point t).phase = ph at hgoes hbefore hpasses
  rcases hgoes with rfl | hgoes
  · exact hbefore
  · cases hgoes with
    | broken =>
      obtain ⟨written, hok⟩ := h.inLanes.joined _ _ (joinWriter_of_exec hexec).1
      cases hok
    | refused =>
      have hpresent := (finalExists_of_exec hexec).1
      rw [hpasses rfl _ rfl] at hpresent
      cases hpresent
    | setRefused => exact hbefore.elim
    | setFailed => exact hbefore.elim
    | setIncomplete => exact .inl rfl
    | setPlaced => exact .inr rfl
    | alreadyDone => exact .inr rfl
    | reported => exact hbefore
    | _ => trivial

/-! ## The leases -/

theorem rank_le_moved (hstream : setup.streams t.stream = some stream)
    (henabled : Enabled setup t (s.point t) o) (r : o.Reply) (i : Nat) :
    (s.point (.handler i)).phase.rank ≤
      ((moved s t (advance setup stream (s.point t) o r) s').point (.handler i)).phase.rank := by
  by_cases ht : Task.handler i = t
  · subst ht
    rw [moved_point_self]
    exact rank_le_advance henabled hstream r
  · rw [moved_point_of_ne ht]

theorem leases_step (hsession : setup.Session source lanes) (h : setup.Steady lanes s)
    (hstream : setup.streams t.stream = some stream) (henabled : Enabled setup t (s.point t) o)
    (hexec : exec t o c s.shared = some (r, s')) :
    ∀ lane ∈ s'.activeLaneWriters,
      2 ≤ ((moved s t (advance setup stream (s.point t) o r) s').point
        (.handler lane)).phase.rank := by
  intro lane hmem
  have hkept : lane ∈ s.shared.activeLaneWriters →
      2 ≤ ((moved s t (advance setup stream (s.point t) o r) s').point
        (.handler lane)).phase.rank :=
    fun hmem => Nat.le_trans (h.leases lane hmem) (rank_le_moved hstream henabled r lane)
  rcases activeLaneWriters_of_exec hexec with heq | ⟨lane', rfl⟩ | ⟨lane', rfl⟩
  · rw [heq] at hmem
    exact hkept hmem
  · simp only [exec] at hexec
    split at hexec
    · cases hexec
      exact hkept hmem
    · cases hexec
      rcases List.mem_cons.1 hmem with rfl | hmem
      · generalize hpt : s.point t = pt at henabled
        cases henabled with
        | acquire hstream' =>
          rw [hsession.laneIndex_eq hstream', moved_point_self]
          exact Nat.le_refl 2
      · exact hkept hmem
  · cases hexec
    exact hkept (List.mem_of_mem_filter hmem)

/-! ## The answers -/

/-- Sending the answer ends a handler, and nothing else does. -/
theorem ended_of_goes {ph ph' : Phase} (h : Goes t ph o r ph')
    (hsend : ∀ ack, o ≠ .sendCompleteAck ack) : ph'.Ended ↔ ph.Ended := by
  cases h with
  | sentSettled => exact absurd rfl (hsend _)
  | sentReported => exact absurd rfl (hsend _)
  | _ => exact Iff.rfl

/-- A handler answers what it has found out. -/
theorem of_sendCompleteAck {ack : QuicTransferCompleteAck}
    (h : Enabled setup t pt (.sendCompleteAck ack)) :
    ∃ i, t = .handler i ∧ ∃ st, (pt.phase = .settling st ∨ pt.phase = .reported st) ∧
      ack.status = st := by
  cases h with
  | sendSettled hack => exact ⟨_, rfl, _, .inl rfl, hack⟩
  | sendReported hack => exact ⟨_, rfl, _, .inr rfl, hack⟩

theorem ended_step (hsession : setup.Session source lanes) (hfaults : ¬ setup.faults)
    (hbase : Baseline setup s) (h : setup.Steady lanes s)
    (hstream : setup.streams t.stream = some stream) (henabled : Enabled setup t (s.point t) o)
    (hexec : exec t o .ok s.shared = some (r, s')) (i : Nat) :
    ((moved s t (advance setup stream (s.point t) o r) s').point (.handler i)).phase.Ended ↔
      ∃ ack, s'.acks i = some ack := by
  by_cases hsend : ∃ ack, o = .sendCompleteAck ack
  · obtain ⟨ack, rfl⟩ := hsend
    obtain ⟨j, rfl, st, hphase, -⟩ := of_sendCompleteAck henabled
    cases hexec
    by_cases hij : i = j
    · subst hij
      rw [moved_point_self]
      refine iff_of_true ?_ ⟨ack, Function.update_self _ _ _⟩
      generalize s.point (.handler i) = pt at henabled
      cases henabled <;> trivial
    · have hne : Task.handler i ≠ .handler j := by simpa using hij
      rw [moved_point_of_ne hne]
      simp only [Task.stream, Function.update_of_ne hij]
      exact h.ended i
  · have hacks : s'.acks = s.shared.acks := by
      rcases acks_of_exec hexec with heq | ⟨ack, ho, -⟩
      · exact heq
      · exact absurd ⟨ack, ho⟩ hsend
    rw [hacks, ← h.ended i]
    rcases hsession.goes_moved hfaults hbase hstream henabled r s' (.handler i) with
      hsame | ⟨rfl, hgoes⟩
    · rw [hsame]
    · exact ended_of_goes hgoes fun ack ho => hsend ⟨ack, ho⟩

theorem answers_step (h : setup.Steady lanes s) (henabled : Enabled setup t (s.point t) o)
    (hexec : exec t o c s.shared = some (r, s')) :
    ∀ i ack, s'.acks i = some ack → ack.status = .running ∨ ack.status = .completed := by
  intro i ack hack
  rcases acks_of_exec hexec with heq | ⟨ack', rfl, heq⟩
  · rw [heq] at hack
    exact h.answers i ack hack
  · by_cases hi : i = t.stream
    · rw [heq, hi, Function.update_self] at hack
      cases hack
      obtain ⟨j, rfl, st, hphase, rfl⟩ := of_sendCompleteAck henabled
      have hsteady := h.phases (.handler j)
      rcases hphase with hphase | hphase
      · rw [hphase] at hsteady
        exact hsteady
      · rw [hphase] at hsteady
        exact hsteady
    · rw [heq, Function.update_of_ne hi] at hack
      exact h.answers i ack hack

/-- **Undeterred steps keep a run steady.** -/
theorem Setup.Steady.step (hsession : setup.Session source lanes) (hfaults : ¬ setup.faults)
    (hbase : Baseline setup s) (h : setup.Steady lanes s)
    (hundeterred : setup.Undeterred lanes s t o) (hstream : setup.streams t.stream = some stream)
    (henabled : Enabled setup t (s.point t) o) (hexec : exec t o .ok s.shared = some (r, s')) :
    setup.Steady lanes (moved s t (advance setup stream (s.point t) o r) s') where
  others := h.others.step hstream
  phases := forall_moved (P := fun _ pt => pt.phase.Steady)
    (steady_step hsession hfaults hbase h hundeterred.passes hstream henabled hexec)
    fun u _ => h.phases u
  leases := leases_step hsession h hstream henabled hexec
  ended := ended_step hsession hfaults hbase h hstream henabled hexec
  answers := answers_step h henabled hexec
  inLanes := h.inLanes.step hsession hfaults hbase hstream henabled hexec hundeterred.finds

end

end Metra.Server
