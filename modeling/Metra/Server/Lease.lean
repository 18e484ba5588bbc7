import Metra.Server.Completed

/-!
# The lane writer's lease

A handler takes the lease of its lane before it looks at any file and gives it back when
it returns; the file is written by a task of its own.

* `Leased` — handlers that hold a lease, and what the table of active writers says;
* `Held` — the invariant of the runs in which no stream leaves the receive pipeline while its
  writer is still running: who can write holds a lease, or its handler does.
-/

namespace Metra.Server

open Interleave

/-- A handler holds its lane's lease. -/
def Phase.HasLease : Phase → Prop
  | .idle | .admitted _ | .released => False
  | _ => True

/-- The operations that write to the staging file or to the checkpoint file. -/
def Op.Writes : Op → Prop
  | .openStaging | .setLen .. | .writeAll .. | .persistCheckpoint _ => True
  | _ => False

/-- The task may still write: a handler that holds its lease, and a writer from the
moment that it is spawned until it ends. -/
def CanWrite (s : Tracked Task Point State) : Task → Prop
  | .handler i => (s.point (.handler i)).phase.HasLease
  | .writer i => ∃ args, s.shared.writers i = .running args

/-- The receive pipeline is left only when the writer has ended.  It is left by joining the
writer, or on a frame that does not open. -/
def JoinsWriter (s : Tracked Task Point State) (t : Task) (o : Op) (_ : Choice) : Prop :=
  ∀ resume, (s.point t).phase = .draining resume → o = .checkRunning →
    ¬ CanWrite s (.writer t.stream)

/-! ## The invariant -/

/-- Who holds a lease is in the table, and alone so for its lane. -/
structure Setup.Leased (setup : Setup) (s : Tracked Task Point State) : Prop where
  active : ∀ i stream, setup.streams i = some stream →
    (s.point (.handler i)).phase.HasLease →
    stream.request.laneIndex ∈ s.shared.activeLaneWriters
  alone : ∀ i j stream stream', setup.streams i = some stream →
    setup.streams j = some stream' →
    stream.request.laneIndex = stream'.request.laneIndex →
    (s.point (.handler i)).phase.HasLease → (s.point (.handler j)).phase.HasLease → i = j

section

variable {setup : Setup} {s : Tracked Task Point State} {t : Task} {stream : LaneStream} {o : Op}
  {c : Choice} {r : o.Reply} {s' : State} {pt : Point} {ph : Phase}

theorem Phase.MayFail.hasLease (h : ph.MayFail) : ph.HasLease := by
  cases ph <;> first | exact h | trivial

theorem Phase.MayLeave.hasLease (h : ph.MayLeave) : ph.HasLease := by
  cases ph <;> first | exact h | trivial

theorem Setup.Finalizes.hasLease (h : setup.Finalizes stream ph) : ph.HasLease := by
  cases ph <;> first | exact h | trivial

theorem Setup.MayFailAt.hasLease (h : setup.MayFailAt stream ph) : ph.HasLease := by
  rcases h with h | ⟨resume, admission, rfl, -⟩
  · exact h.hasLease
  · trivial

/-- A lease is had by acquiring it. -/
theorem hasLease_of_moves (h : Moves setup stream t pt o r ph) (hph : ph.HasLease) :
    pt.phase.HasLease ∨ pt.phase ≠ .released ∧
      ∃ lane, o = .tryAcquireLaneWriter lane ∧ lane = stream.request.laneIndex := by
  cases h with
  | admitted => exact hph.elim
  | leased => exact .inr ⟨by simp, _, rfl, rfl⟩
  | alreadyDone hph' => exact .inl hph'.hasLease
  | deciding hph' => exact .inl hph'.hasLease
  | readySingle _ hph' => exact .inl hph'.hasLease
  | abandoned hph' => exact .inl hph'.2.hasLease
  | notRunning _ hph' => exact .inl hph'.hasLease
  | failing _ hph' => exact .inl hph'.hasLease
  | released => exact hph.elim
  | _ => exact .inl trivial

theorem of_acquire {lane : Nat} (h : Enabled setup t pt (.tryAcquireLaneWriter lane)) :
    ∃ b, pt = .free (.admitted b) := by
  cases h
  exact ⟨_, rfl⟩

theorem of_release {lane : Nat} (h : Enabled setup t pt (.releaseLaneWriter lane))
    (hstream : setup.streams t.stream = some stream) :
    (∃ i, t = .handler i) ∧ lane = stream.request.laneIndex ∧ pt.phase.HasLease := by
  cases h with
  | release hstream' =>
    obtain rfl := Option.some.inj (hstream'.symm.trans hstream)
    exact ⟨⟨_, rfl⟩, rfl, trivial⟩
  | leave _ hstream' hph =>
    obtain rfl := Option.some.inj (hstream'.symm.trans hstream)
    exact ⟨⟨_, rfl⟩, rfl, hph.hasLease⟩

/-- Of a handler that holds a lease after a step. -/
theorem hasLease_step {j : Nat} (hstream : setup.streams t.stream = some stream)
    (henabled : Enabled setup t (s.point t) o) (hexec : exec t o c s.shared = some (r, s'))
    (hlease : ((moved s t (advance setup stream (s.point t) o r) s').point
      (.handler j)).phase.HasLease) :
    ((s.point (.handler j)).phase.HasLease ∧
        (t = .handler j → ∀ lane, o ≠ .releaseLaneWriter lane)) ∨
      t = .handler j ∧ o = .tryAcquireLaneWriter stream.request.laneIndex ∧
        stream.request.laneIndex ∉ s.shared.activeLaneWriters ∧
        s'.activeLaneWriters = stream.request.laneIndex :: s.shared.activeLaneWriters := by
  by_cases ht : Task.handler j = t
  · subst ht
    rw [moved_point_self] at hlease
    have hkeeps : ∀ lane, o ≠ .releaseLaneWriter lane := by
      intro lane ho
      subst ho
      exact hlease
    rcases henabled.moves hstream r with hsame | hmoves
    · rw [hsame] at hlease
      exact .inl ⟨hlease, fun _ => hkeeps⟩
    · rcases hasLease_of_moves hmoves hlease with hbefore | ⟨-, lane, rfl, rfl⟩
      · exact .inl ⟨hbefore, fun _ => hkeeps⟩
      · simp only [exec] at hexec
        split at hexec
        · -- the lane has an active writer already
          cases hexec
          obtain ⟨b, hpt⟩ := of_acquire henabled
          rw [hpt] at hlease
          exact hlease.elim
        · rename_i hfree
          cases hexec
          exact .inr ⟨rfl, rfl, hfree, rfl⟩
  · rw [moved_point_of_ne ht] at hlease
    exact .inl ⟨hlease, fun h => absurd h.symm ht⟩

theorem Setup.Leased.step (h : setup.Leased s) (hstream : setup.streams t.stream = some stream)
    (henabled : Enabled setup t (s.point t) o) (hexec : exec t o c s.shared = some (r, s')) :
    setup.Leased (moved s t (advance setup stream (s.point t) o r) s') where
  active i stream' hstream' hlease := by
    rw [moved_shared]
    rcases hasLease_step hstream henabled hexec hlease with ⟨hbefore, hkeeps⟩ | ⟨rfl, rfl, -, heq⟩
    · have hmem := h.active i stream' hstream' hbefore
      rcases activeLaneWriters_of_exec hexec with heq | ⟨lane, rfl⟩ | ⟨lane, rfl⟩
      · rw [heq]
        exact hmem
      · simp only [exec] at hexec
        split at hexec
        · cases hexec
          exact hmem
        · cases hexec
          exact List.mem_cons_of_mem _ hmem
      · -- another handler of the lane would hold the lease
        cases hexec
        refine List.mem_filter.2 ⟨hmem, ?_⟩
        rw [decide_eq_true_eq]
        intro hlane
        obtain ⟨⟨j, rfl⟩, rfl, hj⟩ := of_release henabled hstream
        obtain rfl := h.alone i j stream' stream hstream' hstream hlane hbefore hj
        exact hkeeps rfl _ rfl
    · obtain rfl := Option.some.inj (hstream'.symm.trans hstream)
      rw [heq]
      exact List.mem_cons_self
  alone i j stream' stream'' hstream' hstream'' hlane hi hj := by
    rcases hasLease_step hstream henabled hexec hi with ⟨hibefore, -⟩ | ⟨rfl, rfl, hfree, -⟩
    · rcases hasLease_step hstream henabled hexec hj with ⟨hjbefore, -⟩ | ⟨rfl, rfl, hfree, -⟩
      · exact h.alone i j stream' stream'' hstream' hstream'' hlane hibefore hjbefore
      · obtain rfl := Option.some.inj (hstream''.symm.trans hstream)
        rw [← hlane] at hfree
        exact absurd (h.active i stream' hstream' hibefore) hfree
    · obtain rfl := Option.some.inj (hstream'.symm.trans hstream)
      rcases hasLease_step hstream henabled hexec hj with ⟨hjbefore, -⟩ | ⟨hsame, -⟩
      · rw [hlane] at hfree
        exact absurd (h.active j stream'' hstream'' hjbefore) hfree
      · cases hsame
        rfl

/-- The receive pipeline is left by joining the writer, or on an error. -/
theorem of_moves_draining (h : Moves setup stream t pt o r ph) {resume : Nat}
    (hpt : pt.phase = .draining resume) : o = .joinWriter ∨ o = .checkRunning := by
  cases h with
  | received => exact .inl rfl
  | broken => exact .inl rfl
  | notRunning => exact .inr rfl
  | failing => exact .inr rfl
  | alreadyDone hph =>
    obtain rfl : _ = Phase.draining resume := hpt
    exact hph.elim
  | deciding hph =>
    obtain rfl : _ = Phase.draining resume := hpt
    exact hph.elim
  | readySingle _ hph =>
    obtain rfl : _ = Phase.draining resume := hpt
    exact hph.elim
  | abandoned hph =>
    obtain rfl : _ = Phase.draining resume := hpt
    exact hph.2.elim
  | released hph =>
    obtain rfl : _ = Phase.draining resume := hpt
    rcases hph with hph | ⟨-, hph⟩
    · cases hph
    · exact hph.elim
  | _ => cases hpt

theorem not_running_of_join {result : Except String Nat}
    (h : exec t .joinWriter c s.shared = some (result, s')) {args : WriterArgs} :
    s.shared.writers t.stream ≠ .running args := by
  intro hw
  simp only [exec, hw] at h
  cases h

/-- A writer runs while its handler receives. -/
def Setup.Joined (setup : Setup) (s : Tracked Task Point State) : Prop :=
  ∀ i stream, setup.streams i = some stream → CanWrite s (.writer i) →
    ∃ resume, (s.point (.handler i)).phase = .draining resume

/-- Who can write holds a lease, or its handler does. -/
structure Setup.Held (setup : Setup) (s : Tracked Task Point State) : Prop where
  leased : setup.Leased s
  joined : setup.Joined s

theorem joined_step (h : setup.Joined s) (hstream : setup.streams t.stream = some stream)
    (henabled : Enabled setup t (s.point t) o) (hallowed : JoinsWriter s t o c)
    (hexec : exec t o c s.shared = some (r, s')) :
    setup.Joined (moved s t (advance setup stream (s.point t) o r) s') := by
  intro i stream' hstream' hw
  obtain ⟨args, hw⟩ := hw
  rw [moved_shared] at hw
  -- the writer was running before, or is spawned by this step
  have hcases : CanWrite s (.writer i) ∨ t = .handler i ∧ o = .spawnWriter args := by
    rcases running_of_exec hexec hw with hbefore | ⟨rfl, rfl⟩
    · exact .inl ⟨args, hbefore⟩
    · refine .inr ⟨?_, rfl⟩
      revert henabled
      generalize s.point t = pt
      intro henabled
      cases henabled
      rfl
  rcases hcases with hbefore | ⟨rfl, rfl⟩
  · obtain ⟨resume, hdraining⟩ := h i stream' hstream' hbefore
    rcases henabled.moves_moved hstream r s' (.handler i) with hsame | ⟨rfl, hmoves⟩
    · exact ⟨resume, hsame.trans hdraining⟩
    · rcases of_moves_draining hmoves hdraining with rfl | rfl
      · obtain ⟨args', hrunning⟩ := hbefore
        exact absurd hrunning (not_running_of_join hexec)
      · exact absurd hbefore (hallowed resume hdraining rfl)
  · rw [moved_point_self]
    exact ⟨args.resumeOffset, rfl⟩

theorem Setup.Held.step (h : setup.Held s) (hstream : setup.streams t.stream = some stream)
    (henabled : Enabled setup t (s.point t) o) (hallowed : JoinsWriter s t o c)
    (hexec : exec t o c s.shared = some (r, s')) :
    setup.Held (moved s t (advance setup stream (s.point t) o r) s') where
  leased := h.leased.step hstream henabled hexec
  joined := joined_step h.joined hstream henabled hallowed hexec

/-- Who writes, can write. -/
theorem canWrite_of_writes (hbase : Baseline setup s)
    (hstream : setup.streams t.stream = some stream)
    (henabled : Enabled setup t (s.point t) o) (ho : o.Writes) : CanWrite s t := by
  cases t with
  | handler i =>
    show (s.point (.handler i)).phase.HasLease
    revert henabled
    generalize s.point (Task.handler i) = pt
    intro henabled
    cases henabled <;> first | exact ho.elim | trivial
  | writer i =>
    have hagrees := hbase.writers i stream hstream
    have hwriting : (s.point (.writer i)).phase ≠ .unborn ∧
        (s.point (.writer i)).phase ≠ .done := by
      revert henabled
      generalize s.point (Task.writer i) = pt
      intro henabled
      cases henabled <;> first | exact ho.elim | exact ⟨by simp, by simp⟩
    cases hw : s.shared.writers i with
    | absent => exact absurd (hagrees.unborn hw).1 hwriting.1
    | running args => exact ⟨args, hw⟩
    | finished result => exact absurd (hagrees.finished result hw).1 hwriting.2

end

theorem held_start {setup : Setup} {stored : TransferSummary} {disk : Disk} :
    setup.Held ⟨start stored disk, startPoint⟩ where
  leased := ⟨fun _ _ _ h => h.elim, fun _ _ _ _ _ _ _ h _ => h.elim⟩
  joined _ _ _ hw := by
    obtain ⟨args, hw⟩ := hw
    cases hw

/-! ## A sample -/

/-- A two-lane upload. -/
def Scenario.twoLanes : Setup :=
  unreliable ctx (transfer [7, 8] true .queued) fun i => [lane [7, 8] 2 0, lane [7, 8] 2 1][i]?

end Metra.Server
