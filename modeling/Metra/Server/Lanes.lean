import Metra.Server.Session
import Metra.Server.Staging

/-!
# The lanes of a striped upload

How far each lane has got when nothing fails.  A lane's writer starts where the lane starts,
records in the checkpoint how much of it is durable, and ends when all of it is.

* `Setup.durable` — up to where a lane is recorded; `durable_step` — **only the storing of
  a checkpoint moves it**;
* `Setup.OnRecord` — a checkpoint that holds just that of all lanes;
* `Setup.InLanes` — the invariant of the writers.
-/

namespace Metra.Server

open Interleave

/-! ## What is durable -/

/-- Up to where a lane is durable by its writer's own account. -/
def Phase.durable (start stop : Nat) : Phase → Nat
  | .writing _ _ _ d _ => d
  | .flushed .. | .done => stop
  | _ => start

namespace Setup

variable (setup : Setup) (lanes : Nat) (s : Tracked Task Point State)

/-- Up to where lane `i` is durable. -/
def durable (i : Nat) : Nat :=
  (s.point (.writer i)).phase.durable (laneStart setup.size lanes i)
    (laneStart setup.size lanes (i + 1))

/-- All of lane `i` is durable. -/
def LaneDone (i : Nat) : Prop := setup.durable lanes s i = laneStart setup.size lanes (i + 1)

/-- What of lane `i` a checkpoint can record. -/
def ledger (i : Nat) : Nat :=
  durableResumeOffset (setup.durable lanes s i) (laneStart setup.size lanes i)
    (laneStart setup.size lanes (i + 1))

/-- The checkpoint records of every lane what is durable of it. -/
def OnRecord (found : TransferCheckpoint) : Prop :=
  ∃ transferId, found = .ofOffsets transferId setup.size lanes (setup.ledger lanes s)

end Setup

/-- A writer is within its lane, and has something to record when it waits for the
checkpoint or reads it. -/
def Point.InLane (start : Nat) (pt : Point) : Prop :=
  match pt.phase with
  | .writing args w _ d _ => start ≤ d ∧ d ≤ args.resumeOffset + w ∧
      (pt.checkpoint ≠ .out → pt.loaded = .nothing → d < args.resumeOffset + w)
  | _ => True

/-- Where the streams of a session have got. -/
structure Setup.InLanes (setup : Setup) (lanes : Nat) (s : Tracked Task Point State) : Prop where
  resumes : ∀ i stream resume, setup.streams i = some stream → setup.LiveAt s i resume →
    resume = laneStart setup.size lanes i
  writers : ∀ i, (s.point (.writer i)).InLane (laneStart setup.size lanes i)
  joined : ∀ i result, s.shared.writers i = .finished result → ∃ written, result = .ok written
  drained : ∀ i, 10 ≤ (s.point (.handler i)).phase.rank →
    (s.point (.writer i)).phase = .done
  fine : ∀ i, s.shared.writeFailed i = false

section

variable {setup : Setup} {source : List UInt8} {lanes : Nat} {s : Tracked Task Point State}
  {t : Task} {stream : LaneStream} {o : Op} {c : Choice} {r : o.Reply} {s' : State} {pt : Point}
  {ph : Phase}

/-- A writer that has not been spawned is not born. -/
theorem unborn_of_rank (hbase : Baseline setup s) {i : Nat}
    (hstream : setup.streams i = some stream) (hrank : (s.point (.handler i)).phase.rank ≤ 8) :
    (s.point (.writer i)).phase = .unborn :=
  ((hbase.writers i stream hstream).unborn ((hbase.writers i stream hstream).absent hrank)).1

/-- Where a writer of a session is in its lane. -/
theorem writing_bounds (hsession : setup.Session source lanes) (hbase : Baseline setup s)
    (h : setup.InLanes lanes s) {i : Nat} (hstream : setup.streams i = some stream)
    {args : WriterArgs} {w d : Nat} {rest : List (List UInt8)} {synced : Bool}
    (hwriting : (s.point (.writer i)).phase = .writing args w rest d synced) :
    args.resumeOffset = laneStart setup.size lanes i ∧ laneStart setup.size lanes i ≤ d ∧
      d ≤ args.resumeOffset + w ∧
      args.resumeOffset + w + rest.flatten.length = laneStart setup.size lanes (i + 1) := by
  obtain ⟨hw, hargs, front, hchunks, hfront⟩ := running_of_writing hbase hstream hwriting
  have hresume := h.resumes i stream args.resumeOffset hstream
    ⟨hsession.disk, .inr ⟨args, hw, rfl⟩⟩
  have hlane := h.writers i
  simp only [Point.InLane, hwriting] at hlane
  have hall := hsession.chunks hstream hargs (hresume ▸ laneStart_le_succ _ _ _)
  rw [hchunks, List.flatten_append, List.length_append, hfront] at hall
  exact ⟨hresume, hlane.1, hlane.2.1, by omega⟩

/-- A writer of a session that has flushed its file has written its whole lane. -/
theorem flushed_end (hsession : setup.Session source lanes) (hbase : Baseline setup s)
    (h : setup.InLanes lanes s) {i : Nat} (hstream : setup.streams i = some stream)
    {args : WriterArgs} {n : Nat} (hflushed : (s.point (.writer i)).phase = .flushed args n) :
    args.resumeOffset + n = laneStart setup.size lanes (i + 1) := by
  obtain ⟨hw, hargs, rfl⟩ := running_of_flushed hbase hstream hflushed
  have hresume := h.resumes i stream args.resumeOffset hstream
    ⟨hsession.disk, .inr ⟨args, hw, rfl⟩⟩
  exact hsession.chunks hstream hargs (hresume ▸ laneStart_le_succ _ _ _)

/-- What is durable of a lane lies in it. -/
theorem durable_mem (hsession : setup.Session source lanes) (hbase : Baseline setup s)
    (h : setup.InLanes lanes s) {i : Nat} (hi : i < lanes) :
    laneStart setup.size lanes i ≤ setup.durable lanes s i ∧
      setup.durable lanes s i ≤ laneStart setup.size lanes (i + 1) := by
  obtain ⟨stream, hstream, -⟩ := hsession.sends i hi
  have hle := laneStart_le_succ setup.size lanes i
  unfold Setup.durable
  cases hphase : (s.point (.writer i)).phase with
  | writing args w rest d synced =>
    obtain ⟨-, hstart, hd, hend⟩ := writing_bounds hsession hbase h hstream hphase
    exact ⟨hstart, by simp only [Phase.durable]; omega⟩
  | flushed => exact ⟨hle, Nat.le_refl _⟩
  | done => exact ⟨hle, Nat.le_refl _⟩
  | _ => exact ⟨Nat.le_refl _, hle⟩

theorem durableOffsets_ledger : TransferCheckpoint.DurableOffsets setup.size lanes
    (setup.ledger lanes s) where
  le i _ := (durableResumeOffset_mem (laneStart_le_succ setup.size lanes i)).1
  ge i _ := (durableResumeOffset_mem (laneStart_le_succ setup.size lanes i)).2
  fixed i _ := durableResumeOffset_idem (laneStart_le_succ setup.size lanes i)

/-- A checkpoint that is on record is complete when all lanes are done. -/
theorem Setup.OnRecord.complete_iff (hsession : setup.Session source lanes)
    (hbase : Baseline setup s) (h : setup.InLanes lanes s) {found : TransferCheckpoint}
    (hfound : setup.OnRecord lanes s found) :
    found.allLanesComplete = true ↔ ∀ i < lanes, setup.LaneDone lanes s i := by
  obtain ⟨transferId, rfl⟩ := hfound
  rw [TransferCheckpoint.allLanesComplete_ofOffsets]
  refine forall₂_congr fun i hi => ?_
  have hmem := durable_mem hsession hbase h hi
  have hend : setup.ledger lanes s i = laneStart setup.size lanes (i + 1) ↔
      laneStart setup.size lanes (i + 1) ≤ setup.durable lanes s i :=
    durableResumeOffset_eq_end_iff (hsession.start_lt hi)
  have hle : setup.ledger lanes s i ≤ laneStart setup.size lanes (i + 1) :=
    durableOffsets_ledger.ge i hi
  unfold Setup.LaneDone
  omega

/-! ## What a step does to what is durable -/

/-- The writer of lane `i` stores a checkpoint. -/
def Setup.Records (setup : Setup) (s s' : Tracked Task Point State) (lanes : Nat) (t : Task)
    (o : Op)
    (i : Nat) : Prop :=
  t = .writer i ∧ ∃ args w rest d next, (s.point t).phase = .writing args w rest d true ∧
    o = .persistCheckpoint next ∧ setup.durable lanes s' i = args.resumeOffset + w

/-- The phase of a writer that does not step. -/
theorem durable_moved_of_ne {i : Nat} (h : Task.writer i ≠ t) :
    setup.durable lanes (moved s t pt s') i = setup.durable lanes s i := by
  unfold Setup.durable
  rw [moved_point_of_ne h]

/-- **What is durable of a lane changes only when its writer stores a checkpoint.** -/
theorem durable_step (hsession : setup.Session source lanes) (hfaults : ¬ setup.faults)
    (hbase : Baseline setup s) (h : setup.InLanes lanes s)
    (hstream : setup.streams t.stream = some stream) (henabled : Enabled setup t (s.point t) o)
    (hexec : exec t o c s.shared = some (r, s')) (i : Nat) :
    setup.durable lanes (moved s t (advance setup stream (s.point t) o r) s') i =
        setup.durable lanes s i ∨
      setup.Records s (moved s t (advance setup stream (s.point t) o r) s') lanes t o i := by
  by_cases ht : Task.writer i = t
  · subst ht
    have hstream' : setup.streams i = some stream := hstream
    have hgoes := hsession.goes hfaults hbase hstream henabled r
    have hafter : setup.durable lanes
        (moved s (.writer i) (advance setup stream (s.point (.writer i)) o r) s') i =
        (advance setup stream (s.point (.writer i)) o r).phase.durable
          (laneStart setup.size lanes i) (laneStart setup.size lanes (i + 1)) := by
      rw [Setup.durable, moved_point_self]
    generalize hphase' : (advance setup stream (s.point (.writer i)) o r).phase = ph'
      at hgoes hafter
    generalize hphase : (s.point (.writer i)).phase = ph at hgoes
    have hbefore : setup.durable lanes s i = ph.durable (laneStart setup.size lanes i)
        (laneStart setup.size lanes (i + 1)) := by
      rw [Setup.durable, hphase]
    rw [hbefore]
    rcases hgoes with rfl | hgoes
    · exact .inl hafter
    · cases hgoes with
      | @writing _ args =>
        have hw : s.shared.writers i = .running args := (awaitWriter_of_exec hexec).1
        rw [hafter]
        exact .inl (h.resumes i stream _ hstream' ⟨hsession.disk, .inr ⟨args, hw, rfl⟩⟩)
      | wrote => exact .inl hafter
      | synced => exact .inl hafter
      | recorded => exact .inl hafter
      | stored => exact .inr ⟨rfl, _, _, _, _, _, hphase, rfl, hafter⟩
      | flushed =>
        rw [hafter]
        obtain ⟨-, -, -, hend⟩ := writing_bounds hsession hbase h hstream' hphase
        exact .inl hend.symm
      | done => exact .inl hafter
  · exact .inl (durable_moved_of_ne ht)

/-! ## The invariant -/

/-- A lane that is resumed starts where it starts, for its writer is not born yet. -/
theorem resumes_inLane (hsession : setup.Session source lanes) (hbase : Baseline setup s)
    (h : setup.InLanes lanes s) (hstream : setup.streams t.stream = some stream)
    (henabled : Enabled setup t (s.point t) o) (hexec : exec t o c s.shared = some (r, s'))
    (hfinds : ∀ b found, (s.point t).phase = .leased b → (s.point t).loaded = .found found →
      setup.OnRecord lanes s found) :
    ∀ i stream' resume, setup.streams i = some stream' →
      setup.LiveAt (moved s t (advance setup stream (s.point t) o r) s') i resume →
      resume = laneStart setup.size lanes i := by
  intro i stream' resume hstream' hlive
  rcases liveAt_step hstream henabled hexec hlive with hbefore |
    ⟨rfl, b, hb, ⟨found, next, hfound, -, -, hround⟩ | ⟨hsingle, -⟩⟩
  · exact h.resumes i stream' resume hstream' hbefore
  · obtain rfl := Option.some.inj (hstream'.symm.trans hstream)
    obtain ⟨transferId, rfl⟩ := hfinds b found hb hfound
    rw [hsession.laneIndex_eq hstream', TransferCheckpoint.roundLane_ofOffsets
      durableOffsets_ledger (hsession.lane hstream').1] at hround
    have hunborn : (s.point (.writer i)).phase = .unborn := by
      refine unborn_of_rank hbase hstream' ?_
      rw [hb]
      exact Nat.le_of_ble_eq_true rfl
    have hresume : setup.ledger lanes s i = resume := congrArg Prod.fst (Option.some.inj hround)
    rw [← hresume, Setup.ledger, Setup.durable, hunborn]
    exact durableResumeOffset_start (laneStart_le_succ _ _ _)
  · rw [hsession.isStriped_eq hstream] at hsingle
    cases hsingle

/-- In the same phase a writer is within its lane as before. -/
theorem Point.InLane.of_phase {start : Nat} {pt' : Point} (h : pt.InLane start)
    (hphase : pt'.phase = pt.phase)
    (hpending : pt'.checkpoint ≠ .out → pt'.loaded = .nothing →
      pt.checkpoint ≠ .out ∧ pt.loaded = .nothing) : pt'.InLane start := by
  unfold Point.InLane at h ⊢
  rw [hphase]
  split at h
  · exact ⟨h.1, h.2.1, fun hout hnothing =>
      h.2.2 (hpending hout hnothing).1 (hpending hout hnothing).2⟩
  · trivial

/-- A step of a writer that comes out well. -/
theorem writer_inLane (hsession : setup.Session source lanes)
    (h : setup.InLanes lanes s) {i : Nat} (hstream : setup.streams i = some stream)
    (henabled : Enabled setup (.writer i) (s.point (.writer i)) o)
    (hexec : exec (.writer i) o .ok s.shared = some (r, s')) :
    (advance setup stream (s.point (.writer i)) o r).InLane (laneStart setup.size lanes i) := by
  have hlane := h.writers i
  generalize hpt : s.point (.writer i) = pt at henabled hlane
  have hphase := congrArg Point.phase hpt
  cases henabled with
  | awaitWriter =>
    have hw := (awaitWriter_of_exec hexec).1
    have hresume := h.resumes i stream _ hstream ⟨hsession.disk, .inr ⟨_, hw, rfl⟩⟩
    exact ⟨Nat.le_of_eq hresume.symm, Nat.le_refl _, fun hne => absurd rfl hne⟩
  | write =>
    cases r with
    | none => exact hlane
    | some _ => exact ⟨hlane.1, Nat.le_trans hlane.2.1 (by omega), fun hne => absurd rfl hne⟩
  | sync =>
    cases hexec
    exact ⟨hlane.1, hlane.2.1, fun hne => absurd rfl hne⟩
  | loadWriting =>
    cases r with
    | none => exact hlane
    | some found => exact ⟨hlane.1, hlane.2.1, fun _ hnothing => by cases hnothing⟩
  | persistWriting =>
    cases hexec
    refine ⟨Nat.le_trans hlane.1 hlane.2.1, Nat.le_refl _, fun _ hnothing => ?_⟩
    cases hnothing
  | recordWriting =>
    exact ⟨Nat.le_trans hlane.1 hlane.2.1, Nat.le_refl _, fun hne => absurd rfl hne⟩
  | flush =>
    cases r with
    | none => exact hlane
    | some _ => trivial
  | finishOk => trivial
  | finishError => trivial
  | wantWriting _ hnew => exact ⟨hlane.1, hlane.2.1, fun _ _ => hnew⟩
  | lockFinalize => exact hlane
  | lockCheckpoint => exact hlane.of_phase rfl fun _ hnothing => ⟨by simp, hnothing⟩
  | unlockCheckpoint => exact hlane.of_phase rfl fun hne => absurd rfl hne

theorem finished_ok (hfaults : ¬ setup.faults) (h : setup.InLanes lanes s)
    (henabled : Enabled setup t (s.point t) o) (hexec : exec t o c s.shared = some (r, s')) :
    ∀ i result, s'.writers i = .finished result → ∃ written, result = .ok written := by
  intro i result hw
  rcases finished_of_exec hexec hw with hbefore | ⟨-, rfl⟩
  · exact h.joined i result hbefore
  · generalize s.point t = pt at henabled
    cases henabled with
    | finishOk => exact ⟨_, rfl⟩
    | finishError herror => exact absurd herror hfaults

/-- A handler gets past its writer by joining it. -/
theorem joins_of_goes {i : Nat} {ph ph' : Phase} (h : Goes (.handler i) ph o r ph')
    (hrank : 10 ≤ ph'.rank) : 10 ≤ ph.rank ∨ o = .joinWriter := by
  cases h with
  | received => exact .inr rfl
  | broken => exact .inr rfl
  | _ =>
    first
    | exact .inl (Nat.le_refl _)
    | simp [Phase.rank] at hrank

theorem drained_step (hsession : setup.Session source lanes) (hfaults : ¬ setup.faults)
    (hbase : Baseline setup s) (h : setup.InLanes lanes s)
    (hstream : setup.streams t.stream = some stream) (henabled : Enabled setup t (s.point t) o)
    (hexec : exec t o c s.shared = some (r, s')) (i : Nat)
    (hrank : 10 ≤ ((moved s t (advance setup stream (s.point t) o r) s').point
      (.handler i)).phase.rank) :
    ((moved s t (advance setup stream (s.point t) o r) s').point (.writer i)).phase = .done := by
  by_cases ht : Task.handler i = t
  · subst ht
    have hne : Task.writer i ≠ .handler i := by simp
    rw [moved_point_self] at hrank
    rw [moved_point_of_ne hne]
    rcases hsession.goes hfaults hbase hstream henabled r with hsame | hgoes
    · rw [hsame] at hrank
      exact h.drained i hrank
    · rcases joins_of_goes hgoes hrank with hbefore | rfl
      · exact h.drained i hbefore
      · exact ((hbase.writers i stream hstream).finished r (joinWriter_of_exec hexec).1).1
  · rw [moved_point_of_ne ht] at hrank
    have hdone := h.drained i hrank
    rcases hsession.goes_moved hfaults hbase hstream henabled r s' (.writer i) with
      hsame | ⟨rfl, hgoes⟩
    · rw [hsame]
      exact hdone
    · -- a writer that has ended does not move any more
      rw [hdone] at hgoes
      cases hgoes

/-- **A step that comes out well keeps the streams within their lanes.** -/
theorem Setup.InLanes.step (hsession : setup.Session source lanes) (hfaults : ¬ setup.faults)
    (hbase : Baseline setup s) (h : setup.InLanes lanes s)
    (hstream : setup.streams t.stream = some stream) (henabled : Enabled setup t (s.point t) o)
    (hexec : exec t o .ok s.shared = some (r, s'))
    (hfinds : ∀ b found, (s.point t).phase = .leased b → (s.point t).loaded = .found found →
      setup.OnRecord lanes s found) :
    setup.InLanes lanes (moved s t (advance setup stream (s.point t) o r) s') where
  resumes := resumes_inLane hsession hbase h hstream henabled hexec hfinds
  writers i := by
    by_cases ht : Task.writer i = t
    · subst ht
      rw [moved_point_self]
      exact writer_inLane hsession h hstream henabled hexec
    · rw [moved_point_of_ne ht]
      exact h.writers i
  joined := finished_ok hfaults h henabled hexec
  drained := drained_step hsession hfaults hbase h hstream henabled hexec
  fine := fine_of_ok hexec h.fine

/-! ## What is on record after a step -/

/-- What is durable of a lane never goes back, and never past its end. -/
theorem durable_le_step (hsession : setup.Session source lanes) (hfaults : ¬ setup.faults)
    (hbase : Baseline setup s) (h : setup.InLanes lanes s)
    (hstream : setup.streams t.stream = some stream) (henabled : Enabled setup t (s.point t) o)
    (hexec : exec t o c s.shared = some (r, s')) {i : Nat} (hi : i < lanes) :
    setup.durable lanes s i ≤
        setup.durable lanes (moved s t (advance setup stream (s.point t) o r) s') i ∧
      setup.durable lanes (moved s t (advance setup stream (s.point t) o r) s') i ≤
        laneStart setup.size lanes (i + 1) := by
  rcases durable_step hsession hfaults hbase h hstream henabled hexec i with hsame |
    ⟨rfl, args, w, rest, d, next, hphase, -, hafter⟩
  · rw [hsame]
    exact ⟨Nat.le_refl _, (durable_mem hsession hbase h hi).2⟩
  · have hstream' : setup.streams i = some stream := hstream
    obtain ⟨-, -, hd, hend⟩ := writing_bounds hsession hbase h hstream' hphase
    have hbefore : setup.durable lanes s i = d := by
      rw [Setup.durable, hphase]
      rfl
    rw [hafter, hbefore]
    exact ⟨hd, by omega⟩

/-- A lane that is done stays done. -/
theorem Setup.LaneDone.step (hsession : setup.Session source lanes) (hfaults : ¬ setup.faults)
    (hbase : Baseline setup s) (h : setup.InLanes lanes s)
    (hstream : setup.streams t.stream = some stream) (henabled : Enabled setup t (s.point t) o)
    (hexec : exec t o c s.shared = some (r, s')) {i : Nat} (hi : i < lanes)
    (hdone : setup.LaneDone lanes s i) :
    setup.LaneDone lanes (moved s t (advance setup stream (s.point t) o r) s') i := by
  obtain ⟨hle, hend⟩ := durable_le_step hsession hfaults hbase h hstream henabled hexec hi
  unfold Setup.LaneDone at hdone ⊢
  omega

/-- A checkpoint stays on record when nothing else becomes durable. -/
theorem Setup.OnRecord.of_durable {s s' : Tracked Task Point State} {found : TransferCheckpoint}
    (h : setup.OnRecord lanes s found)
    (hsame : ∀ i, setup.durable lanes s' i = setup.durable lanes s i) :
    setup.OnRecord lanes s' found := by
  have hledger : setup.ledger lanes s' = setup.ledger lanes s := by
    funext i
    rw [Setup.ledger, Setup.ledger, hsame i]
  unfold Setup.OnRecord
  rw [hledger]
  exact h

/-- What a task stores is on record, if what it has read is, or if there was nothing to be
read and nothing is durable. -/
theorem onRecord_persist (hsession : setup.Session source lanes) (hbase : Baseline setup s)
    (h : setup.InLanes lanes s) (hstream : setup.streams t.stream = some stream)
    {next : TransferCheckpoint} (henabled : Enabled setup t (s.point t) (.persistCheckpoint next))
    (hfound : ∀ found, (s.point t).loaded = .found found → setup.OnRecord lanes s found)
    (habsent : (s.point t).loaded = .absent → ∀ i < lanes,
      (s.point (.writer i)).phase = .unborn) :
    setup.OnRecord lanes
      (moved s t (advance setup stream (s.point t) (.persistCheckpoint next) (some ())) s')
        next := by
  have hhandler : ∀ j pt', t = .handler j → ∀ i,
      setup.durable lanes (moved s t pt' s') i = setup.durable lanes s i := by
    rintro j pt' rfl i
    exact durable_moved_of_ne (by simp)
  generalize hpt : s.point t = pt at henabled hfound habsent
  cases henabled with
  | persistFresh hstream' =>
    obtain rfl := Option.some.inj (hstream'.symm.trans hstream)
    refine ⟨setup.transfer.transferId, ?_⟩
    rw [TransferCheckpoint.newCheckpoint_eq, hsession.requestedLanes_eq hstream']
    refine TransferCheckpoint.ofOffsets_congr fun i hi => ?_
    rw [Setup.ledger, hhandler _ _ rfl, Setup.durable, habsent rfl i hi]
    exact (durableResumeOffset_start (laneStart_le_succ _ _ _)).symm
  | persistRounded hstream' _ _ hround =>
    obtain rfl := Option.some.inj (hstream'.symm.trans hstream)
    obtain ⟨transferId, rfl⟩ := hfound _ rfl
    rw [hsession.laneIndex_eq hstream', TransferCheckpoint.roundLane_ofOffsets
      durableOffsets_ledger (hsession.lane hstream').1] at hround
    obtain rfl := congrArg Prod.snd (Option.some.inj hround)
    exact Setup.OnRecord.of_durable ⟨transferId, rfl⟩ (hhandler _ _ rfl)
  | persistDiscarded _ hdiscards =>
    rw [hsession.disk] at hdiscards
    cases hdiscards
  | @persistWriting i w d args rest _ _ _ hadvance =>
    have hstream' : setup.streams i = some stream := hstream
    have hphase := congrArg Point.phase hpt
    obtain ⟨-, -, hd, -⟩ := writing_bounds hsession hbase h hstream' hphase
    have hi := (hsession.lane hstream').1
    obtain ⟨transferId, rfl⟩ := hfound _ rfl
    rw [(args_of_writing hsession hbase hstream' hphase).2,
      TransferCheckpoint.advanceLane_ofOffsets hi] at hadvance
    obtain rfl := Option.some.inj hadvance
    refine ⟨transferId, TransferCheckpoint.ofOffsets_congr fun j hj => ?_⟩
    by_cases hji : j = i
    · subst hji
      have hbefore : setup.durable lanes s j = d := by
        rw [Setup.durable, hphase]
        rfl
      have hmono := durableResumeOffset_mono (laneStart_le_succ setup.size lanes j) hd
      rw [Function.update_self, Setup.ledger, hbefore, Nat.max_eq_right hmono, Setup.ledger,
        Setup.durable, moved_point_self]
      rfl
    · rw [Function.update_of_ne hji, Setup.ledger, Setup.ledger,
        durable_moved_of_ne (by simpa using hji)]

end

end Metra.Server
