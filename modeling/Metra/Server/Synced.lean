import Metra.Server.Lanes

/-!
# What has been synced

A lane is recorded only after the staging file was synced, so what is durable of a lane by
its writer's account is on disk.

* `Setup.frontier` — up to where a lane has been written, and `Setup.syncedTo` — up to where
  it has been synced;
* `Setup.Synced` — the invariant, kept by the steps that make the staging file only before
  anything is received.
-/

namespace Metra.Server

open Interleave

/-- Up to where a writer has written. -/
def Phase.frontier (start stop : Nat) : Phase → Nat
  | .writing args w _ _ _ => args.resumeOffset + w
  | .flushed .. | .done => stop
  | _ => start

/-- Up to where a writer has synced what it has written. -/
def Phase.syncedTo (start stop : Nat) : Phase → Nat
  | .writing args w _ d synced => if synced then args.resumeOffset + w else d
  | .flushed .. | .done => stop
  | _ => start

namespace Setup

variable (setup : Setup) (lanes : Nat) (s : Tracked Task Point State)

/-- How far a lane has been written. -/
def frontier (i : Nat) : Nat :=
  (s.point (.writer i)).phase.frontier (laneStart setup.size lanes i)
    (laneStart setup.size lanes (i + 1))

/-- How far it has been made durable. -/
def syncedTo (i : Nat) : Nat :=
  (s.point (.writer i)).phase.syncedTo (laneStart setup.size lanes i)
    (laneStart setup.size lanes (i + 1))

end Setup

/-- What the lanes have synced of the staging file is the source. -/
structure Setup.Synced (setup : Setup) (source : List UInt8) (lanes : Nat)
    (s : Tracked Task Point State) : Prop where
  short : ∀ f, s.shared.disk.staging = some f →
    (s.shared.disk.inode f).synced.length ≤ source.length
  right : ∀ f, s.shared.disk.staging = some f → ∀ i < lanes, ∀ p,
    laneStart setup.size lanes i ≤ p → p < setup.syncedTo lanes s i →
    (s.shared.disk.inode f).synced[p]? = source[p]?

section

variable {setup : Setup} {source : List UInt8} {lanes : Nat} {s : Tracked Task Point State}
  {t : Task} {stream : LaneStream} {o : Op} {r : o.Reply} {s' : State}

/-! ## How far a writer has got -/

/-- What is durable has been synced, and what has been synced was written. -/
theorem durable_le_syncedTo (hsession : setup.Session source lanes) (hbase : Baseline setup s)
    (h : setup.InLanes lanes s) {i : Nat} (hi : i < lanes) :
    setup.durable lanes s i ≤ setup.syncedTo lanes s i ∧
      setup.syncedTo lanes s i ≤ setup.frontier lanes s i := by
  obtain ⟨stream, hstream, -⟩ := hsession.sends i hi
  unfold Setup.durable Setup.syncedTo Setup.frontier
  cases hphase : (s.point (.writer i)).phase with
  | writing args w rest d synced =>
    obtain ⟨-, -, hd, -⟩ := writing_bounds hsession hbase h hstream hphase
    cases synced with
    | true => exact ⟨hd, Nat.le_refl _⟩
    | false => exact ⟨Nat.le_refl _, hd⟩
  | _ => exact ⟨Nat.le_refl _, Nat.le_refl _⟩

/-- Nothing is written past the end of the file. -/
theorem frontier_le_size (hsession : setup.Session source lanes) (hbase : Baseline setup s)
    (h : setup.InLanes lanes s) {i : Nat} (hi : i < lanes) :
    setup.frontier lanes s i ≤ setup.size := by
  obtain ⟨stream, hstream, -⟩ := hsession.sends i hi
  have hend : laneStart setup.size lanes (i + 1) ≤ setup.size := laneStart_le_size hi
  have hstart := laneStart_le_succ setup.size lanes i
  unfold Setup.frontier
  cases hphase : (s.point (.writer i)).phase with
  | writing args w rest d synced =>
    obtain ⟨-, -, -, hw⟩ := writing_bounds hsession hbase h hstream hphase
    simp only [Phase.frontier]
    omega
  | flushed | done => exact hend
  | _ => exact Nat.le_trans hstart hend

/-- Only by syncing the file does a writer get further with what is synced. -/
theorem syncedTo_step (hsession : setup.Session source lanes) (hfaults : ¬ setup.faults)
    (hbase : Baseline setup s) (h : setup.InLanes lanes s)
    (hstream : setup.streams t.stream = some stream) (henabled : Enabled setup t (s.point t) o)
    (hexec : exec t o .ok s.shared = some (r, s')) (hsync : ∀ f, o ≠ .syncData f) (i : Nat) :
    setup.syncedTo lanes (moved s t (advance setup stream (s.point t) o r) s') i ≤
      setup.syncedTo lanes s i := by
  by_cases ht : Task.writer i = t
  · subst ht
    have hstream' : setup.streams i = some stream := hstream
    have hgoes := hsession.goes hfaults hbase hstream henabled r
    unfold Setup.syncedTo
    rw [moved_point_self]
    generalize (advance setup stream (s.point (.writer i)) o r).phase = ph' at hgoes
    generalize hphase : (s.point (.writer i)).phase = ph at hgoes
    rcases hgoes with rfl | hgoes
    · exact Nat.le_refl _
    · cases hgoes with
      | @writing _ args =>
        have hw : s.shared.writers i = .running args := (awaitWriter_of_exec hexec).1
        exact Nat.le_of_eq (h.resumes i stream _ hstream' ⟨hsession.disk, .inr ⟨args, hw, rfl⟩⟩)
      | @wrote _ w d _ args chunk rest synced =>
        obtain ⟨-, -, hd, -⟩ := writing_bounds hsession hbase h hstream' hphase
        cases synced with
        | true => exact hd
        | false => exact Nat.le_refl d
      | synced => exact absurd rfl (hsync _)
      | recorded => exact Nat.le_refl _
      | stored => exact Nat.le_refl _
      | flushed =>
        obtain ⟨-, -, -, hend⟩ := writing_bounds hsession hbase h hstream' hphase
        simp only [Phase.syncedTo, ite_self]
        exact Nat.le_of_eq hend.symm
      | done => exact Nat.le_refl _
  · unfold Setup.syncedTo
    rw [moved_point_of_ne ht]

/-- Somebody counts on what a lane has written: its writer, or the checkpoint. -/
theorem countsOn_of_frontier (hsession : setup.Session source lanes) (hbase : Baseline setup s)
    (h : setup.InLanes lanes s)
    (hrecord : ∀ i < lanes, (s.point (.writer i)).phase = .done →
      ∃ found, s.shared.disk.checkpoint = some found ∧ setup.OnRecord lanes s found)
    {i : Nat} (hi : i < lanes) {p : Nat} (hle : laneStart setup.size lanes i ≤ p)
    (hlt : p < setup.frontier lanes s i) : setup.CountsOn s p := by
  obtain ⟨stream, hstream, -⟩ := hsession.sends i hi
  have hstart := hsession.rangeStart_eq hstream
  unfold Setup.frontier at hlt
  cases hphase : (s.point (.writer i)).phase with
  | writing args w rest d synced =>
    rw [hphase] at hlt
    exact .reached hstream (.written hphase (h.fine i)) (hstart ▸ hle) hlt
  | flushed args n =>
    rw [hphase] at hlt
    have hend := flushed_end hsession hbase h hstream hphase
    exact .reached hstream (.flushed hphase) (hstart ▸ hle) (hend.symm ▸ hlt)
  | done =>
    obtain ⟨found, hfound, transferId, rfl⟩ := hrecord i hi hphase
    rw [hphase] at hlt
    refine .recorded hfound (TransferCheckpoint.records_ofOffsets.2 ⟨i, hi, hle, ?_⟩)
    have hdone : setup.durable lanes s i = laneStart setup.size lanes (i + 1) := by
      rw [Setup.durable, hphase]
      rfl
    rw [Setup.ledger, hdone, durableResumeOffset_of_end_le (laneStart_le_succ _ _ _)
      (Nat.le_refl _)]
    exact hlt
  | _ =>
    rw [hphase] at hlt
    exact absurd hlt (Nat.not_lt.2 hle)

/-! ## The steps -/

/-- A writer syncs the file that it writes to. -/
theorem of_syncData {f : Nat} (h : Enabled setup t (s.point t) (.syncData f)) :
    ∃ i args w rest d synced, t = .writer i ∧
      s.point (.writer i) = .free (.writing args w rest d synced) ∧ f = args.file := by
  generalize hpt : s.point t = pt at h
  cases h with
  | sync => exact ⟨_, _, _, _, _, _, rfl, hpt, rfl⟩

/-- A step that does not sync a file leaves what is synced of it alone. -/
theorem synced_of_exec (hexec : exec t o .ok s.shared = some (r, s'))
    (hsync : ∀ f, o ≠ .syncData f) {f : Nat}
    (hold : s.shared.disk.staging = none → f ≠ s.shared.disk.nextInode) :
    (s'.disk.inode f).synced = (s.shared.disk.inode f).synced := by
  rcases inode_of_exec hexec f with heq | ⟨-, hnone, hf, -⟩ | ⟨n, -, heq⟩ | ⟨_, _, _, -, heq⟩ |
    ⟨ho, -⟩
  · rw [heq]
  · exact absurd hf (hold hnone)
  · rw [heq]
  · rw [heq]
  · exact absurd ho (hsync f)

/-- What is synced after the file was synced. -/
theorem Setup.Synced.sync (hsession : setup.Session source lanes) (hbase : Baseline setup s)
    (hin : setup.InLanes lanes s) (hstaged : setup.Staged source s)
    (hrecord : ∀ i < lanes, (s.point (.writer i)).phase = .done →
      ∃ found, s.shared.disk.checkpoint = some found ∧ setup.OnRecord lanes s found)
    (hstream : setup.streams t.stream = some stream) {g : Nat}
    (henabled : Enabled setup t (s.point t) (.syncData g)) :
    setup.Synced source lanes
      (moved s t (advance setup stream (s.point t) (.syncData g) (some ()))
        { s.shared with disk := s.shared.disk.syncData g }) := by
  obtain ⟨j, args, w, rest, d, synced, rfl, hpt, rfl⟩ := of_syncData henabled
  have hphase := congrArg Point.phase hpt
  have hsame : ∀ f, s.shared.disk.staging = some f →
      ((s.shared.disk.syncData args.file).inode f).synced = (s.shared.disk.inode f).data := by
    intro f hf
    obtain ⟨hw, -, -⟩ := running_of_writing hbase hstream hphase
    rcases hstaged.opened j stream args.file hstream (.inr ⟨args, hw, rfl⟩) with hnone | hsome
    · rw [hnone] at hf
      cases hf
    · obtain rfl := Option.some.inj (hsome.symm.trans hf)
      rw [Disk.syncData_inode, if_pos rfl]
  refine ⟨fun f hf => ?_, fun f hf i hi p hle hlt => ?_⟩
  · rw [moved_shared] at hf ⊢
    rw [hsame f hf]
    exact hstaged.short f hf
  · rw [moved_shared] at hf ⊢
    rw [hsame f hf]
    have hfrontier : p < setup.frontier lanes s i := by
      by_cases hij : i = j
      · subst hij
        rw [Setup.frontier, hphase]
        rw [Setup.syncedTo, moved_point_self, hpt] at hlt
        exact hlt
      · have hne : Task.writer i ≠ .writer j := by simpa using hij
        rw [Setup.syncedTo, moved_point_of_ne hne] at hlt
        exact Nat.lt_of_lt_of_le hlt (durable_le_syncedTo hsession hbase hin hi).2
    have hsize := Nat.lt_of_lt_of_le hfrontier (frontier_le_size hsession hbase hin hi)
    exact hstaged.right f hf p hsize (countsOn_of_frontier hsession hbase hin hrecord hi hle
      hfrontier)

/-- **What the lanes have synced stays synced**, if the staging file is made only before
anything is received. -/
theorem Setup.Synced.step (hsession : setup.Session source lanes) (hfaults : ¬ setup.faults)
    (hbase : Baseline setup s) (hin : setup.InLanes lanes s) (hstaged : setup.Staged source s)
    (hrecord : ∀ i < lanes, (s.point (.writer i)).phase = .done →
      ∃ found, s.shared.disk.checkpoint = some found ∧ setup.OnRecord lanes s found)
    (h : setup.Synced source lanes s) (hstream : setup.streams t.stream = some stream)
    (henabled : Enabled setup t (s.point t) o) (hexec : exec t o .ok s.shared = some (r, s'))
    (hmakes : o = .openStaging → s.shared.disk.staging = none →
      ∀ i < lanes, (s.point (.writer i)).phase = .unborn) :
    setup.Synced source lanes (moved s t (advance setup stream (s.point t) o r) s') := by
  by_cases hsync : ∃ g, o = .syncData g
  · obtain ⟨g, rfl⟩ := hsync
    cases hexec
    exact Setup.Synced.sync hsession hbase hin hstaged hrecord hstream henabled
  · push Not at hsync
    have hle := syncedTo_step hsession hfaults hbase hin hstream henabled hexec hsync
    refine ⟨fun f hf => ?_, fun f hf i hi p hstart hlt => ?_⟩
    · rw [moved_shared] at hf ⊢
      rcases staging_of_exec hexec hf with hbefore | ⟨rfl, hnone, rfl⟩
      · rw [synced_of_exec hexec hsync (by simp [hbefore])]
        exact h.short f hbefore
      · rw [made_empty hexec hnone hf]
        exact Nat.zero_le _
    · rw [moved_shared] at hf ⊢
      rcases staging_of_exec hexec hf with hbefore | ⟨rfl, hnone, rfl⟩
      · rw [synced_of_exec hexec hsync (by simp [hbefore])]
        exact h.right f hbefore i hi p hstart (Nat.lt_of_lt_of_le hlt (hle i))
      · have hempty := Nat.lt_of_lt_of_le hlt (hle i)
        rw [Setup.syncedTo, hmakes rfl hnone i hi] at hempty
        exact absurd hempty (Nat.not_lt.2 hstart)

end

end Metra.Server
