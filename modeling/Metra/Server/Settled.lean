import Metra.Server.Lease
import Metra.Server.Progress
import Metra.Server.Striped

/-!
# A server comes to rest

A pool of streams of one transfer, of whatever clients, with every operation free to fail.

* `Setup.Owned` — every lease in the table is held by a handler;
* `server_settles` — **every run ends, and it ends with all streams handled**: no lease is left
  in the table, no writer task is running, and nobody has kept one of the locks.
-/

namespace Metra.Server

open Interleave

/-- A lease in the table is one of a handler that holds it. -/
def Setup.Owned (setup : Setup) (s : Tracked Task Point State) : Prop :=
  ∀ lane ∈ s.shared.activeLaneWriters, ∃ i stream, setup.streams i = some stream ∧
    stream.request.laneIndex = lane ∧ (s.point (.handler i)).phase.HasLease

section

variable {setup : Setup} {s : Tracked Task Point State} {t : Task} {stream : LaneStream}
  {pt : Point} {o : Op} {c : Choice} {r : o.Reply} {s' : State} {ph : Phase}

/-- A lease is given up by releasing it. -/
theorem lease_kept_of_moves (h : Moves setup stream t pt o r ph) (hpt : pt.phase.HasLease) :
    ph.HasLease ∨ o = .releaseLaneWriter stream.request.laneIndex := by
  cases h with
  | admitted => exact hpt.elim
  | released => exact .inr rfl
  | _ => exact .inl trivial

theorem lease_kept (hstream : setup.streams t.stream = some stream)
    (henabled : Enabled setup t (s.point t) o) {i : Nat}
    (hlease : (s.point (.handler i)).phase.HasLease) :
    ((moved s t (advance setup stream (s.point t) o r) s').point (.handler i)).phase.HasLease ∨
      t = .handler i ∧ o = .releaseLaneWriter stream.request.laneIndex := by
  rcases henabled.moves_moved hstream r s' (.handler i) with hsame | ⟨rfl, hmoves⟩
  · rw [hsame]
    exact .inl hlease
  · exact (lease_kept_of_moves hmoves hlease).imp_right fun ho => ⟨rfl, ho⟩

theorem Setup.Owned.step (h : setup.Owned s) (hstream : setup.streams t.stream = some stream)
    (henabled : Enabled setup t (s.point t) o) (hexec : exec t o c s.shared = some (r, s')) :
    setup.Owned (moved s t (advance setup stream (s.point t) o r) s') := by
  intro lane hlane
  rw [moved_shared] at hlane
  -- the lane was in the table before and is not released, or its lease is acquired now
  have hcases : (lane ∈ s.shared.activeLaneWriters ∧ o ≠ .releaseLaneWriter lane) ∨
      o = .tryAcquireLaneWriter lane ∧ lane ∉ s.shared.activeLaneWriters := by
    have hkept : o ≠ .releaseLaneWriter lane := by
      rintro rfl
      cases hexec
      exact absurd rfl (of_decide_eq_true (List.mem_filter.1 hlane).2)
    rcases activeLaneWriters_of_exec hexec with heq | ⟨lane', rfl⟩ | ⟨lane', rfl⟩
    · rw [heq] at hlane
      exact .inl ⟨hlane, hkept⟩
    · by_cases hbefore : lane ∈ s.shared.activeLaneWriters
      · exact .inl ⟨hbefore, hkept⟩
      · simp only [exec] at hexec
        split at hexec
        · cases hexec
          exact absurd hlane hbefore
        · cases hexec
          rcases List.mem_cons.1 hlane with rfl | hmem
          · exact .inr ⟨rfl, hbefore⟩
          · exact absurd hmem hbefore
    · cases hexec
      exact .inl ⟨(List.mem_filter.1 hlane).1, hkept⟩
  rcases hcases with ⟨hbefore, hkept⟩ | ⟨rfl, hfree⟩
  · obtain ⟨i, stream', hstream', rfl, hlease⟩ := h lane hbefore
    rcases lease_kept hstream henabled hlease with hafter | ⟨rfl, rfl⟩
    · exact ⟨i, stream', hstream', rfl, hafter⟩
    · obtain rfl := Option.some.inj (hstream'.symm.trans hstream)
      exact absurd rfl hkept
  · obtain ⟨b, hpt⟩ := of_acquire henabled
    simp only [exec, if_neg hfree] at hexec
    cases hexec
    rw [hpt] at henabled
    generalize hu : t = u at henabled
    cases henabled with
    | @acquire i _ stream' _ hstream' =>
      subst hu
      refine ⟨i, stream', hstream', rfl, ?_⟩
      rw [moved_point_self, hpt]
      trivial

theorem no_lease_of_returned {i : Nat} (h : TaskReturned setup (.handler i) pt)
    (hstream : setup.streams i = some stream) : ¬ pt.phase.HasLease := by
  rcases h with hnone | rfl | ⟨-, rfl | ⟨b, rfl⟩⟩
  · have hnone' : setup.streams i = none := hnone
    rw [hstream] at hnone'
    cases hnone'
  all_goals exact id

end

/-- Nothing of the streams is left: no lease, no running writer, and no reference to a lock. -/
structure AtRest (s : State) : Prop where
  leases : s.activeLaneWriters = []
  writers : ∀ i args, s.writers i ≠ .running args
  locks : ∀ kind t, (s.locks kind).clone t = none

section

variable {setup : Setup}
  {cfg : Config Task Op Op.Reply (Tracked Task Point State) (Except String Unit)}
  (hobedient : cfg.Obedient (protocol setup) fun t _ pt => TaskReturned setup t pt)
  (hbase : Baseline setup cfg.shared) (hothers : setup.OthersIdle cfg.shared) (hstuck : Stuck cfg)

include hobedient hbase hothers hstuck

/-- When no task can go on, every task is outside of both locks. -/
theorem outside_of_stuck (t : Task) (kind : LockKind) : (cfg.shared.point t).stage kind = .out := by
  cases hstream : setup.streams t.stream with
  | none =>
    rw [hothers t hstream]
    cases t <;> cases kind <;> rfl
  | some stream =>
    cases hpool : cfg.pool t with
    | ret a => exact (hobedient.returned hpool).outside hstream kind
    | act o k =>
      -- only a writer that was never spawned still waits
      have henabled := (hobedient.enabled hpool).2
      rcases waits_of_exec (hstuck t o k hpool) with ⟨kind', ho, -⟩ | ⟨rfl, -⟩ | ⟨rfl, -⟩
      · exact absurd ho (not_waiting_lock hobedient hbase hothers hstuck hpool kind')
      · generalize cfg.shared.point t = pt at henabled
        cases henabled
        cases kind <;> rfl
      · obtain ⟨i, resume, rfl, -⟩ := handler_of_join henabled
        obtain ⟨a, ha⟩ := returned_of_stuck hobedient hbase hothers hstuck i
        rw [ha] at hpool
        cases hpool

theorem atRest_of_stuck (howned : setup.Owned cfg.shared)
    (habsent : ∀ i, setup.streams i = none → cfg.shared.shared.writers i = .absent) :
    AtRest cfg.shared.shared where
  leases := by
    refine List.eq_nil_iff_forall_not_mem.2 fun lane hlane => ?_
    obtain ⟨i, stream, hstream, -, hlease⟩ := howned lane hlane
    obtain ⟨a, ha⟩ := returned_of_stuck hobedient hbase hothers hstuck i
    exact no_lease_of_returned (hobedient.returned ha) hstream hlease
  writers i args hw := by
    cases hstream : setup.streams i with
    | none =>
      rw [habsent i hstream] at hw
      cases hw
    | some stream => exact not_running hobedient hbase hothers hstuck hstream args hw
  locks kind t := by
    have hstage := hbase.locks.stage t kind
    rwa [outside_of_stuck hobedient hbase hothers hstuck t kind] at hstage

end

/-- What is added to the baseline: who owns the leases, and that nothing else has moved. -/
structure Setup.Kept (setup : Setup) (s : Tracked Task Point State) : Prop where
  owned : setup.Owned s
  others : setup.OthersIdle s
  absent : ∀ i, setup.streams i = none → s.shared.writers i = .absent

theorem Setup.Kept.step {setup : Setup} {s : Tracked Task Point State} {t : Task}
    {stream : LaneStream} {o : Op} {c : Choice} {r : o.Reply} {s' : State} (h : setup.Kept s)
    (hstream : setup.streams t.stream = some stream) (henabled : Enabled setup t (s.point t) o)
    (hexec : exec t o c s.shared = some (r, s')) :
    setup.Kept (moved s t (advance setup stream (s.point t) o r) s') where
  owned := h.owned.step hstream henabled hexec
  others := h.others.step hstream
  absent i hi := by
    have hne : i ≠ t.stream := by
      rintro rfl
      rw [hstream] at hi
      cases hi
    rw [moved_shared, writers_of_ne hexec hne]
    exact h.absent i hi

/-- **A server comes to rest**: whatever the streams of a transfer carry, in whatever order their
tasks take their steps and whatever fails, a run cannot go on forever, and when it has stopped all
streams have been handled and nothing of them is left. -/
theorem server_settles (ctx : Context) (transfer : TransferSummary)
    (streams : Nat → Option LaneStream) {n : Nat} (honly : ∀ i, n ≤ i → streams i = none)
    {stored : TransferSummary} (hstored : SameTransfer transfer stored) (disk : Disk) :
    (∀ f : Nat → Config Task Op Op.Reply State (Except String Unit),
      f 0 = ⟨start stored disk, program ctx streams⟩ →
      ∃ k, ∀ t c, (f k).step? machine t c ≠ some (f (k + 1))) ∧
    ∀ cfg, Config.Reaches machine (fun _ _ _ _ => True)
        ⟨start stored disk, program ctx streams⟩ cfg →
      (∀ t, cfg.step? machine t .ok = none) → AllReturned n cfg ∧ AtRest cfg.shared := by
  constructor
  · intro f hf
    refine Config.exists_stop (f := f) machine fun t (ht : t ∉ laneTasks n) => ?_
    rw [hf]
    exact returned_of_not_mem honly ht
  · intro cfg hreaches hstop
    obtain ⟨point, hto⟩ :=
      hreaches.tracked (protocol (unreliable ctx transfer streams)) startPoint
    have hkept : (unreliable ctx transfer streams).Kept ⟨start stored disk, startPoint⟩ :=
      ⟨fun lane hlane => (by cases hlane), fun _ _ => rfl, fun _ _ => rfl⟩
    obtain ⟨hobedient, hbase, h⟩ := reaches_invariant trivial
      (fun _ _ _ _ _ _ _ _ hkept hstream henabled _ hexec => hkept.step hstream henabled hexec)
      hstored hkept hto
    have hstuck : Stuck ⟨⟨cfg.shared, point⟩, cfg.pool⟩ := by
      intro t o k hpool
      have hnone := hstop t
      have hpool' : cfg.pool t = .act o k := hpool
      simp only [Config.step?, hpool'] at hnone
      exact Option.map_eq_none_iff.1 hnone
    exact ⟨fun i _ => returned_of_stuck hobedient hbase h.others hstuck i,
      atRest_of_stuck hobedient hbase h.others hstuck h.owned h.absent⟩

theorem step?_of_returned {cfg : Config Task Op Op.Reply State (Except String Unit)} {t : Task}
    {a : Except String Unit} (h : cfg.pool t = .ret a) (c : Choice) :
    cfg.step? machine t c = none := by
  simp only [Config.step?, h]

open Scenario in
/-- A single lane of two bytes, whose writer fails after the first. -/
theorem server_settles_failed :
    ∃ cfg, Config.Reaches machine (fun _ _ _ _ => True)
        (server (transfer [7, 8] true .queued) noFiles [lane [7, 8] 1 0]) cfg ∧
      decide (cfg.shared.transfer.status = .failed) = true ∧ AllReturned 1 cfg ∧
      AtRest cfg.shared := by
  have hrun : ((server (transfer [7, 8] true .queued) noFiles [lane [7, 8] 1 0]).runIf machine
      (fun _ _ _ _ => true)
      (turns [(.handler 0, 10), (.writer 0, 1)] ++ [(.writer 0, .ioPartial 1)] ++
        turns [(.writer 0, 1), (.handler 0, 8)])).any
      (fun cfg => returned cfg (.handler 0) && returned cfg (.writer 0) &&
        decide (cfg.shared.transfer.status = .failed)) = true := by
    decide +kernel
  obtain ⟨cfg, hreaches, hall⟩ := Config.reaches_of_runIf_any (fun _ _ _ _ _ => trivial) hrun
  obtain ⟨hboth, hfailed⟩ := Bool.and_eq_true_iff.1 hall
  obtain ⟨hhandler, hwriter⟩ := Bool.and_eq_true_iff.1 hboth
  have honly : ∀ i, 1 ≤ i → [lane [7, 8] 1 0][i]? = none := fun i hi =>
    List.getElem?_eq_none hi
  have hstop : ∀ t, cfg.step? machine t .ok = none := by
    intro t
    by_cases ht : t ∈ laneTasks 1
    · have hreturned : ∃ a, cfg.pool t = .ret a := by
        rcases (by simpa [laneTasks] using ht : t = .handler 0 ∨ t = .writer 0) with
          rfl | rfl
        · exact of_returned hhandler
        · exact of_returned hwriter
      obtain ⟨a, ha⟩ := hreturned
      exact step?_of_returned ha .ok
    · obtain ⟨a, ha⟩ := @returned_of_not_mem ctx (fun i => [lane [7, 8] 1 0][i]?) 1 honly t ht
      exact step?_of_returned (hreaches.returned ha) .ok
  obtain ⟨-, hrest⟩ := server_settles ctx (transfer [7, 8] true .queued)
    (fun i => [lane [7, 8] 1 0][i]?) honly (sameTransfer_refl _) noFiles
  obtain ⟨hreturned, hatRest⟩ := hrest cfg hreaches hstop
  exact ⟨cfg, hreaches, hfailed, hreturned, hatRest⟩

end Metra.Server
