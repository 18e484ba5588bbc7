import Metra.Interleave.Prog
import Metra.Wire
import Metra.Checkpoint

/-!
# The checkpoint file

`load_or_init_lane_resume` and `update_checkpoint_offset` are read-modify-write
cycles over one file.  They are written once, over whatever gives access to the
file (`CheckpointIo`): the server's operations (`Server/Stream.lean`), or the
directory operations here, where a version of the file is written next to it and
renamed over it, and every single operation may fail.

* `sound_persist` — whatever fails, the file is what it was or the new version;
* `checkpoint_file_versions` — **the representation invariant of the file**, over
  every sequence of calls and every pattern of failures.
-/

namespace Metra

open Interleave

/-! ## The read-modify-write cycles -/

/-- What the cycles use of the file, while they hold the checkpoint lock. -/
structure CheckpointIo (Op : Type) (Reply : Op → Type) where
  tryExists : TryProg Op Reply String Bool
  load : TryProg Op Reply String TransferCheckpoint
  persist : TransferCheckpoint → TryProg Op Reply String Unit

section

variable {Op : Type} {Reply : Op → Type}

/-- The checkpoint that `load_or_init_lane_resume` starts from. -/
def loadOrInitCheckpoint (io : CheckpointIo Op Reply) (transferId : Uuid)
    (fileSizeBytes totalLanes : Nat) : TryProg Op Reply String TransferCheckpoint := do
  let present ← io.tryExists
  if present then io.load
  else do
    let fresh := newCheckpoint transferId fileSizeBytes totalLanes
    io.persist fresh
    pure fresh

/-- The body of `load_or_init_lane_resume`, under the lock: the resume offset and
the total. -/
def loadOrInitLaneResumeUnlocked (io : CheckpointIo Op Reply) (transferId : Uuid)
    (fileSizeBytes totalLanes laneIndex rangeStart rangeEndExclusive : Nat) :
    TryProg Op Reply String (Nat × Nat) := do
  let checkpoint ← loadOrInitCheckpoint io transferId fileSizeBytes totalLanes
  TryProg.ofExcept (checkpoint.validateLayout fileSizeBytes totalLanes rangeStart
    rangeEndExclusive laneIndex)
  match checkpoint.roundLane laneIndex with
  | none => TryProg.fail s!"missing lane {laneIndex} in checkpoint"
  | some (resume, checkpoint) => do
    io.persist checkpoint
    pure (resume, checkpoint.totalTransferred)

/-- The body of `update_checkpoint_offset`, under the lock: the total. -/
def updateCheckpointOffsetUnlocked (io : CheckpointIo Op Reply) (laneIndex newOffset : Nat) :
    TryProg Op Reply String Nat := do
  let checkpoint ← io.load
  match checkpoint.advanceLane laneIndex newOffset with
  | none => TryProg.fail s!"missing lane {laneIndex} in checkpoint"
  | some checkpoint => do
    io.persist checkpoint
    pure checkpoint.totalTransferred

end

/-! ## The directory the file is in -/

namespace CheckpointDir

/-- The operations of `load_checkpoint_unlocked` and `persist_checkpoint_unlocked`;
the temporary file of a call has a name of its own. -/
inductive FileOp
  | tryExists
  | read
  | createDirAll
  | createTmp
  | writeTmp (bytes : List UInt8)
  | flushTmp
  | syncTmp
  | renameTmp
  | syncDirectory

/-- `none` is an I/O error. -/
@[reducible] def FileOp.Reply : FileOp → Type
  | .tryExists => Option Bool
  | .read => Option (List UInt8)
  | _ => Option Unit

/-- Whether an operation succeeds; a failing write may have written some bytes. -/
inductive Outcome
  | ok
  | ioError (written : Nat)

end CheckpointDir

open CheckpointDir

/-- The checkpoint file, the temporary file of the call that runs, and every
version the checkpoint file has had, oldest first. -/
structure CheckpointDir where
  file : Option (List UInt8)
  tmp : Option (List UInt8)
  versions : List (List UInt8)

namespace CheckpointDir

/-- What the calls do to the directory; a write that fails may have written a part. -/
def exec (_ : Unit) : (o : FileOp) → Outcome → CheckpointDir → Option (o.Reply × CheckpointDir)
  | .tryExists, .ok, d => some (some d.file.isSome, d)
  | .tryExists, .ioError _, d => some (none, d)
  | .read, .ok, d => some (d.file, d)
  | .read, .ioError _, d => some (none, d)
  | .createTmp, .ok, d => some (some (), { d with tmp := some [] })
  | .writeTmp bytes, .ok, d => some (some (), { d with tmp := d.tmp.map (· ++ bytes) })
  | .writeTmp bytes, .ioError n, d =>
    some (none, { d with tmp := d.tmp.map (· ++ bytes.take n) })
  | .renameTmp, .ok, d =>
    match d.tmp with
    | none => some (none, d)
    | some bytes => some (some (), ⟨some bytes, none, d.versions ++ [bytes]⟩)
  | .createDirAll, .ok, d | .flushTmp, .ok, d | .syncTmp, .ok, d | .syncDirectory, .ok, d =>
    some (some (), d)
  | .createDirAll, .ioError _, d | .createTmp, .ioError _, d | .flushTmp, .ioError _, d
  | .syncTmp, .ioError _, d | .renameTmp, .ioError _, d | .syncDirectory, .ioError _, d =>
    some (none, d)

/-- The directory, with one task at work. -/
def machine : Machine Unit FileOp FileOp.Reply Outcome CheckpointDir := ⟨exec⟩

/-- No checkpoint yet. -/
def empty : CheckpointDir := ⟨none, none, []⟩

/-- How the paths of a call are displayed. -/
structure Paths where
  checkpoint : String
  parent : String
  tmp : String

/-- One call to the directory. -/
def perform (o : FileOp) : Prog FileOp FileOp.Reply o.Reply := Prog.perform o

/-- An operation, with the context its error gets. -/
def attempt {α : Type} (context : String) (p : Prog FileOp FileOp.Reply (Option α)) :
    TryProg FileOp FileOp.Reply String α := TryProg.orFail context p

section

variable (serde : Serde TransferCheckpoint) (paths : Paths)

/-- Read and parse the checkpoint file. -/
def loadCheckpointUnlocked : TryProg FileOp FileOp.Reply String TransferCheckpoint := do
  let bytes ← attempt s!"failed reading checkpoint file {paths.checkpoint}" (perform .read)
  TryProg.ofExcept
    (okOr s!"failed parsing checkpoint file {paths.checkpoint}" (serde.fromSlice bytes))

/-- Make a rename durable. -/
def syncDirectory : TryProg FileOp FileOp.Reply String Unit :=
  attempt s!"failed syncing directory metadata {paths.parent}" (perform .syncDirectory)

/-- Write a temporary file and rename it over the checkpoint file, so that the file is always a
whole one. -/
def persistCheckpointUnlocked (checkpoint : TransferCheckpoint) :
    TryProg FileOp FileOp.Reply String Unit := do
  let json ← TryProg.ofExcept (okOr "failed serializing checkpoint JSON" (serde.toVec checkpoint))
  attempt s!"failed creating checkpoint parent directory {paths.parent}" (perform .createDirAll)
  attempt s!"failed creating checkpoint temp file {paths.tmp}" (perform .createTmp)
  attempt s!"failed writing checkpoint temp file {paths.tmp}" (perform (.writeTmp json))
  attempt s!"failed flushing checkpoint temp file {paths.tmp}" (perform .flushTmp)
  attempt s!"failed syncing checkpoint temp file {paths.tmp}" (perform .syncTmp)
  attempt s!"failed atomically replacing checkpoint {paths.checkpoint} from {paths.tmp}"
    (perform .renameTmp)
  syncDirectory paths

/-- The calls to the checkpoint file that the operations on checkpoints are built from. -/
def io : CheckpointIo FileOp FileOp.Reply where
  tryExists := attempt "I/O error" (perform .tryExists)
  load := loadCheckpointUnlocked serde paths
  persist := persistCheckpointUnlocked serde paths

/-- A call of one of the two functions, with the arguments it does not take from
the transfer. -/
inductive Call
  | loadOrInitLaneResume (laneIndex rangeStart rangeEndExclusive : Nat)
  | updateCheckpointOffset (laneIndex newOffset : Nat)

/-- What a call returns with, if it does not fail, is dropped. -/
def Call.prog (transferId : Uuid) (fileSizeBytes totalLanes : Nat) :
    Call → TryProg FileOp FileOp.Reply String Unit
  | .loadOrInitLaneResume laneIndex rangeStart rangeEndExclusive => do
    let _ ← loadOrInitLaneResumeUnlocked (io serde paths) transferId fileSizeBytes totalLanes
      laneIndex rangeStart rangeEndExclusive
  | .updateCheckpointOffset laneIndex newOffset => do
    let _ ← updateCheckpointOffsetUnlocked (io serde paths) laneIndex newOffset

/-- The calls run one after the other, whether they succeed or fail. -/
inductive RunCalls (transferId : Uuid) (fileSizeBytes totalLanes : Nat) :
    List Call → CheckpointDir → CheckpointDir → Prop where
  | nil (d : CheckpointDir) : RunCalls transferId fileSizeBytes totalLanes [] d d
  | cons {call : Call} {calls : List Call} {d d' d'' : CheckpointDir} {r : Except String Unit}
      (h : Prog.Eval machine () (call.prog serde paths transferId fileSizeBytes totalLanes).toProg
        d r d')
      (rest : RunCalls transferId fileSizeBytes totalLanes calls d' d'') :
      RunCalls transferId fileSizeBytes totalLanes (call :: calls) d d''

end

/-! ## One version -/

section

variable {serde : Serde TransferCheckpoint} {paths : Paths} {transferId : Uuid}
  {size lanes : Nat}

/-- The versions of the file parse to `cs`, and the file is the last of them. -/
structure Holds (serde : Serde TransferCheckpoint) (cs : List TransferCheckpoint)
    (d : CheckpointDir) : Prop where
  parse : d.versions.map serde.fromSlice = cs.map some
  file : d.file = d.versions.getLast?

/-- What an operation comes to when its failure is an error. -/
theorem sound_attempt {α : Type} {P : CheckpointDir → Prop} {context : String}
    {p : Prog FileOp FileOp.Reply (Option α)} {Q : Except String α → CheckpointDir → Prop}
    (hp : Prog.Sound machine () P p fun r d =>
      match r with
      | some a => Q (.ok a) d
      | none => Q (.error context) d) :
    Prog.Sound machine () P (attempt context p).toProg Q := by
  refine Prog.Sound.bind hp fun r => ?_
  cases r with
  | some a => exact .ret fun _ h => h
  | none => exact .ret fun _ h => h

/-- **Whatever fails, the file is what it was or the new version.** -/
theorem sound_persist (hserde : serde.RoundTrips) (cs : List TransferCheckpoint)
    (c : TransferCheckpoint) :
    Prog.Sound machine () (Holds serde cs) (persistCheckpointUnlocked serde paths c).toProg
      fun r d =>
        match r with
        | .ok _ => Holds serde (cs ++ [c]) d
        | .error _ => Holds serde cs d ∨ Holds serde (cs ++ [c]) d := by
  refine Prog.Sound.tryBind (R := fun json d => serde.toVec c = some json ∧ Holds serde cs d)
    (.ret fun d hd => ?_) fun json => ?_
  · cases hjson : serde.toVec c with
    | none => exact .inl hd
    | some json => exact ⟨rfl, hd⟩
  refine Prog.Sound.tryBind (R := fun _ d => serde.toVec c = some json ∧ Holds serde cs d)
    (sound_attempt (Prog.Sound.perform ?_)) fun _ => ?_
  · rintro d (_ | n) r d' hd h <;> cases h
    · exact hd
    · exact .inl hd.2
  refine Prog.Sound.tryBind
    (R := fun _ d => serde.toVec c = some json ∧ Holds serde cs d ∧ d.tmp = some [])
    (sound_attempt (Prog.Sound.perform ?_)) fun _ => ?_
  · rintro d (_ | n) r d' hd h <;> cases h
    · exact ⟨hd.1, ⟨hd.2.parse, hd.2.file⟩, rfl⟩
    · exact .inl hd.2
  refine Prog.Sound.tryBind
    (R := fun _ d => serde.toVec c = some json ∧ Holds serde cs d ∧ d.tmp = some json)
    (sound_attempt (Prog.Sound.perform ?_)) fun _ => ?_
  · rintro d (_ | n) r d' ⟨hjson, hd, htmp⟩ h <;> cases h
    · exact ⟨hjson, ⟨hd.parse, hd.file⟩, by simp [htmp]⟩
    · exact .inl ⟨hd.parse, hd.file⟩
  -- flushing and syncing change nothing that a later failure could not have left
  refine Prog.Sound.tryBind
    (R := fun _ d => serde.toVec c = some json ∧ Holds serde cs d ∧ d.tmp = some json)
    (sound_attempt (Prog.Sound.perform ?_)) fun _ => ?_
  · rintro d (_ | n) r d' hd h <;> cases h
    · exact hd
    · exact .inl hd.2.1
  refine Prog.Sound.tryBind
    (R := fun _ d => serde.toVec c = some json ∧ Holds serde cs d ∧ d.tmp = some json)
    (sound_attempt (Prog.Sound.perform ?_)) fun _ => ?_
  · rintro d (_ | n) r d' hd h <;> cases h
    · exact hd
    · exact .inl hd.2.1
  refine Prog.Sound.tryBind (R := fun _ d => Holds serde (cs ++ [c]) d)
    (sound_attempt (Prog.Sound.perform ?_)) fun _ => ?_
  · rintro d (_ | n) r d' ⟨hjson, hd, htmp⟩ h
    · simp only [machine, exec, htmp] at h
      cases h
      refine ⟨?_, by simp⟩
      simp only [List.map_append, hd.parse, List.map_cons, List.map_nil,
        hserde.fromSlice_toVec c json hjson]
    · cases h
      exact .inl hd
  refine sound_attempt (Prog.Sound.perform ?_)
  rintro d (_ | n) r d' hd h <;> cases h
  · exact hd
  · exact .inr hd

/-! ## A call -/

/-- The versions of the file are well formed, none with a smaller offset than
another before it. -/
structure Sequence (size lanes : Nat) (cs : List TransferCheckpoint) : Prop where
  wf : ∀ c ∈ cs, c.Wf size lanes
  ordered : cs.Pairwise TransferCheckpoint.Extends

theorem Sequence.append {cs : List TransferCheckpoint} {c : TransferCheckpoint}
    (h : Sequence size lanes cs) (hc : c.Wf size lanes)
    (hext : ∀ c₀, cs.getLast? = some c₀ → c₀.Extends c) : Sequence size lanes (cs ++ [c]) := by
  refine ⟨?_, ?_⟩
  · intro c' hmem
    rcases List.mem_append.1 hmem with hmem | hmem
    · exact h.wf c' hmem
    · rw [List.mem_singleton.1 hmem]
      exact hc
  · refine List.pairwise_append.2 ⟨h.ordered, List.pairwise_singleton _ _, ?_⟩
    intro c' hmem c'' hc''
    rw [List.mem_singleton.1 hc'']
    -- an earlier version extends to the last one, and that to the new one
    obtain ⟨last, hlast⟩ : ∃ last, cs.getLast? = some last := by
      cases hl : cs.getLast? with
      | none =>
        rw [List.getLast?_eq_none_iff.1 hl] at hmem
        cases hmem
      | some last => exact ⟨last, rfl⟩
    have hsplit : cs = cs.dropLast ++ [last] := by
      rw [List.dropLast_append_getLast?]
      exact hlast
    rw [hsplit] at hmem
    rcases List.mem_append.1 hmem with hmem | hmem
    · have hpair := h.ordered
      rw [hsplit] at hpair
      exact ((List.pairwise_append.1 hpair).2.2 c' hmem last (by simp)).trans (hext last hlast)
    · rw [List.mem_singleton.1 hmem]
      exact hext last hlast

/-- The directory after some calls. -/
def Good (serde : Serde TransferCheckpoint) (size lanes : Nat) (d : CheckpointDir) : Prop :=
  ∃ cs, Holds serde cs d ∧ Sequence size lanes cs

/-- Storing a version that extends the last one. -/
theorem sound_persist_extending (hserde : serde.RoundTrips) {cs : List TransferCheckpoint}
    {c : TransferCheckpoint} (hcs : Sequence size lanes cs) (hc : c.Wf size lanes)
    (hext : ∀ c₀, cs.getLast? = some c₀ → c₀.Extends c) :
    Prog.Sound machine () (Holds serde cs) (persistCheckpointUnlocked serde paths c).toProg
      fun r d =>
        match r with
        | .ok _ => Holds serde (cs ++ [c]) d ∧ Sequence size lanes (cs ++ [c])
        | .error _ => Good serde size lanes d := by
  refine (sound_persist hserde cs c).post fun r d hd => ?_
  have hnext := hcs.append hc hext
  cases r with
  | ok _ => exact ⟨hd, hnext⟩
  | error _ =>
    rcases hd with hd | hd
    · exact ⟨cs, hd, hcs⟩
    · exact ⟨_, hd, hnext⟩

/-- Reading the file gives its last version. -/
theorem sound_load (cs : List TransferCheckpoint) :
    Prog.Sound machine () (Holds serde cs) (loadCheckpointUnlocked serde paths).toProg fun r d =>
      Holds serde cs d ∧ ∀ c, r = .ok c → cs.getLast? = some c := by
  refine Prog.Sound.tryBind
    (R := fun bytes d => Holds serde cs d ∧ d.versions.getLast? = some bytes)
    (sound_attempt (Prog.Sound.perform ?_)) fun bytes => .ret ?_
  · rintro d (_ | n) r d' hd h <;> cases h
    · cases hfile : d.file with
      | none => exact ⟨hd, by simp⟩
      | some bytes => exact ⟨hd, by rw [← hd.file, hfile]⟩
    · exact ⟨hd, by simp⟩
  · rintro d ⟨hd, hlast⟩
    refine ⟨hd, fun c hc => ?_⟩
    have hparse := congrArg List.getLast? hd.parse
    rw [List.getLast?_map, List.getLast?_map, hlast] at hparse
    cases hfrom : serde.fromSlice bytes with
    | none => simp [okOr, hfrom] at hc
    | some c' =>
      simp only [okOr, hfrom] at hc
      cases hc
      simp only [Option.map_some, hfrom] at hparse
      cases hl : cs.getLast? with
      | none => simp [hl] at hparse
      | some c'' =>
        simp only [hl, Option.map_some, Option.some.injEq] at hparse
        rw [hparse]

theorem sound_tryExists (cs : List TransferCheckpoint) :
    Prog.Sound machine () (Holds serde cs) (io serde paths).tryExists.toProg fun r d =>
      Holds serde cs d ∧ (r = .ok false → cs = []) := by
  refine sound_attempt (Prog.Sound.perform ?_)
  rintro d (_ | n) r d' hd h <;> cases h
  · refine ⟨hd, fun hnone => ?_⟩
    have hfile : d.file = none := by simpa using hnone
    have hversions : d.versions = [] := by
      rw [hd.file] at hfile
      exact List.getLast?_eq_none_iff.1 hfile
    have := hd.parse
    rw [hversions] at this
    simpa using this.symm
  · exact ⟨hd, by simp⟩

/-- The checkpoint in hand is the last version of the file. -/
def InHand (serde : Serde TransferCheckpoint) (size lanes : Nat) (c : TransferCheckpoint)
    (d : CheckpointDir) : Prop :=
  ∃ cs, Holds serde cs d ∧ Sequence size lanes cs ∧ cs.getLast? = some c

theorem InHand.good {c : TransferCheckpoint} {d : CheckpointDir}
    (h : InHand serde size lanes c d) : Good serde size lanes d := by
  obtain ⟨cs, hd, hcs, -⟩ := h
  exact ⟨cs, hd, hcs⟩

/-- Storing what the checkpoint in hand became. -/
theorem sound_persist_inHand (hserde : serde.RoundTrips) {c c' : TransferCheckpoint}
    (hnext : c.Wf size lanes → c'.Wf size lanes ∧ c.Extends c') :
    Prog.Sound machine () (InHand serde size lanes c)
      (persistCheckpointUnlocked serde paths c').toProg fun _ d => Good serde size lanes d := by
  refine .exists_pre fun cs => ?_
  refine Prog.Sound.pre (.pure_pre (φ := Sequence size lanes cs ∧ cs.getLast? = some c) ?_)
    fun d hd => hd
  rintro ⟨hcs, hlast⟩
  obtain ⟨hwf, hext⟩ := hnext (hcs.wf c (List.mem_of_getLast? hlast))
  refine (sound_persist_extending hserde hcs hwf ?_).post fun r d hd => ?_
  · intro c₀ hc₀
    rw [hlast] at hc₀
    cases hc₀
    exact hext
  · cases r with
    | ok _ => exact ⟨_, hd.1, hd.2⟩
    | error _ => exact hd

theorem sound_load_inHand (cs : List TransferCheckpoint) (hcs : Sequence size lanes cs) :
    Prog.Sound machine () (Holds serde cs) (loadCheckpointUnlocked serde paths).toProg fun r d =>
      match r with
      | .ok c => InHand serde size lanes c d
      | .error _ => Good serde size lanes d := by
  refine (sound_load cs).post fun r d hd => ?_
  cases r with
  | ok c => exact ⟨cs, hd.1, hcs, hd.2 c rfl⟩
  | error _ => exact ⟨cs, hd.1, hcs⟩

theorem sound_loadOrInitCheckpoint (hserde : serde.RoundTrips) :
    Prog.Sound machine () (Good serde size lanes)
      (loadOrInitCheckpoint (io serde paths) transferId size lanes).toProg fun r d =>
        match r with
        | .ok c => InHand serde size lanes c d
        | .error _ => Good serde size lanes d := by
  refine .exists_pre fun cs => .pure_pre fun hcs => ?_
  refine Prog.Sound.tryBind (R := fun present d =>
      Holds serde cs d ∧ (present = false → cs = []))
    ((sound_tryExists cs).post fun r d hd => ?_) fun present => ?_
  · cases r with
    | ok present => exact ⟨hd.1, fun h => hd.2 (by rw [h])⟩
    | error _ => exact ⟨cs, hd.1, hcs⟩
  refine .pure_pre fun hpresent => ?_
  cases present with
  | true => exact sound_load_inHand cs hcs
  | false =>
    have hnil := hpresent rfl
    subst hnil
    refine Prog.Sound.tryBind (R := fun _ =>
        InHand serde size lanes (newCheckpoint transferId size lanes))
      ((sound_persist_extending hserde hcs
        (TransferCheckpoint.wf_newCheckpoint transferId size lanes)
        (by simp)).post fun r d hd => ?_) fun _ => .ret fun d hd => hd
    cases r with
    | ok _ => exact ⟨_, hd.1, hd.2, by simp⟩
    | error _ => exact hd

theorem sound_loadOrInit (hserde : serde.RoundTrips) (laneIndex rangeStart rangeEnd : Nat) :
    Prog.Sound machine () (Good serde size lanes)
      (loadOrInitLaneResumeUnlocked (io serde paths) transferId size lanes laneIndex rangeStart
        rangeEnd).toProg fun _ d => Good serde size lanes d := by
  refine Prog.Sound.tryBind (R := InHand serde size lanes)
    ((sound_loadOrInitCheckpoint hserde).post fun r d hd => ?_) fun c => ?_
  · cases r <;> exact hd
  refine Prog.Sound.tryBind (R := fun _ => InHand serde size lanes c)
    (.ret fun d hd => ?_) fun _ => ?_
  · cases c.validateLayout size lanes rangeStart rangeEnd laneIndex with
    | ok _ => exact hd
    | error _ => exact hd.good
  cases hround : c.roundLane laneIndex with
  | none => exact .ret fun d hd => hd.good
  | some out =>
    obtain ⟨resume, c'⟩ := out
    refine Prog.Sound.tryBind (R := fun _ => Good serde size lanes)
      ((sound_persist_inHand hserde fun hwf => ?_).post fun r d hd => ?_)
      fun _ => .ret fun d hd => hd
    · obtain ⟨rfl, -⟩ := hwf.roundLane_eq hround
      exact ⟨hwf, TransferCheckpoint.extends_refl _⟩
    · cases r <;> exact hd

theorem sound_updateOffset (hserde : serde.RoundTrips) (laneIndex newOffset : Nat) :
    Prog.Sound machine () (Good serde size lanes)
      (updateCheckpointOffsetUnlocked (io serde paths) laneIndex newOffset).toProg
      fun _ d => Good serde size lanes d := by
  refine .exists_pre fun cs => .pure_pre fun hcs => ?_
  refine Prog.Sound.tryBind (R := InHand serde size lanes)
    ((sound_load_inHand cs hcs).post fun r d hd => ?_) fun c => ?_
  · cases r <;> exact hd
  cases hadvance : c.advanceLane laneIndex newOffset with
  | none => exact .ret fun d hd => hd.good
  | some c' =>
    refine Prog.Sound.tryBind (R := fun _ => Good serde size lanes)
      ((sound_persist_inHand hserde fun hwf => ?_).post fun r d hd => ?_)
      fun _ => .ret fun d hd => hd
    · exact ⟨hwf.advanceLane hadvance, hwf.advanceLane_extends hadvance⟩
    · cases r <;> exact hd

theorem good_of_runCalls (hserde : serde.RoundTrips) {calls : List Call} {d d' : CheckpointDir}
    (h : RunCalls serde paths transferId size lanes calls d d') (hd : Good serde size lanes d) :
    Good serde size lanes d' := by
  induction h with
  | nil d => exact hd
  | @cons call calls d d' d'' r heval _ ih =>
    refine ih ?_
    cases call with
    | loadOrInitLaneResume laneIndex rangeStart rangeEnd =>
      refine (Prog.Sound.tryBind (R := fun _ => Good serde size lanes)
        (Q := fun _ => Good serde size lanes)
        ((sound_loadOrInit hserde laneIndex rangeStart rangeEnd).post fun r d hd => ?_)
        fun _ => .ret fun d hd => hd) _ _ _ hd heval
      cases r <;> exact hd
    | updateCheckpointOffset laneIndex newOffset =>
      refine (Prog.Sound.tryBind (R := fun _ => Good serde size lanes)
        (Q := fun _ => Good serde size lanes)
        ((sound_updateOffset hserde laneIndex newOffset).post fun r d hd => ?_)
        fun _ => .ret fun d hd => hd) _ _ _ hd heval
      cases r <;> exact hd

theorem good_empty : Good serde size lanes CheckpointDir.empty :=
  ⟨[], ⟨rfl, rfl⟩, ⟨by simp, .nil⟩⟩

/-- **The representation invariant of the checkpoint file**, after every sequence of
calls and whatever failed in them: the file is the last of its versions, every
version parses to a well-formed checkpoint, no offset is smaller than in a version
before it, and the byte total and the test for completion agree. -/
theorem checkpoint_file_versions (hserde : serde.RoundTrips) (hlanes : 1 ≤ lanes)
    (hsize : size < 2 ^ 64)
    {calls : List Call} {d : CheckpointDir}
    (hrun : RunCalls serde paths transferId size lanes calls CheckpointDir.empty d) :
    d.file = d.versions.getLast? ∧
    ∃ cs : List TransferCheckpoint, d.versions.map serde.fromSlice = cs.map some ∧
      cs.Pairwise TransferCheckpoint.Extends ∧
      ∀ c ∈ cs,
        c.lanes.map (fun lane => (lane.rangeStart, lane.rangeEndExclusive)) =
          splitRanges size lanes ∧
        c.lanes.map LaneCheckpoint.laneIndex = List.range lanes ∧
        (∀ lane ∈ c.lanes, lane.rangeStart ≤ lane.offset ∧
          lane.offset ≤ lane.rangeEndExclusive ∧
          durableResumeOffset lane.offset lane.rangeStart lane.rangeEndExclusive =
            lane.offset) ∧
        c.totalTransferred ≤ size ∧
        (c.allLanesComplete = true ↔ c.totalTransferred = size) := by
  obtain ⟨cs, hd, hcs⟩ := good_of_runCalls hserde hrun good_empty
  refine ⟨hd.file, cs, hd.parse, hcs.ordered, fun c hc => ?_⟩
  have hwf := hcs.wf c hc
  exact ⟨hwf.ranges, hwf.indices,
    fun lane hlane => ⟨(hwf.offset_mem lane hlane).1, (hwf.offset_mem lane hlane).2,
      hwf.durable lane hlane⟩,
    hwf.totalTransferred_le hlanes, hwf.allLanesComplete_iff hlanes hsize⟩

end

/-! ## One call -/

namespace Sample

/-- The id of the transfer. -/
def transferId : Uuid := .nil

/-- The text that `serde_json` writes for a fresh checkpoint of three bytes in two lanes. -/
def json : List UInt8 :=
  ("\x7b\n  \"transfer_id\": \"00000000-0000-0000-0000-000000000000\",\n" ++
    "  \"file_size_bytes\": 3,\n  \"total_lanes\": 2,\n  \"lanes\": [\n" ++
    "    \x7b\n      \"lane_index\": 0,\n      \"range_start\": 0,\n" ++
    "      \"range_end_exclusive\": 2,\n      \"offset\": 0\n    \x7d,\n" ++
    "    \x7b\n      \"lane_index\": 1,\n      \"range_start\": 2,\n" ++
    "      \"range_end_exclusive\": 3,\n      \"offset\": 2\n    \x7d\n  ]\n\x7d").toUTF8.toList

/-- A serde that knows the text of a new checkpoint. -/
def serde : Serde TransferCheckpoint := .single (newCheckpoint transferId 3 2) json

/-- The files, in the current directory. -/
def paths : Paths := ⟨"f.part.meta.json", ".", ".f.part.meta.json.tmp"⟩

/-- The first open of lane 0, whose last directory sync fails. -/
theorem runCalls : RunCalls serde paths transferId 3 2 [.loadOrInitLaneResume 0 0 2]
    CheckpointDir.empty ⟨some json, none, [json, json]⟩ :=
  .cons (@Prog.eval_of_run? _ _ _ _ _ _ _ _ (List.replicate 14 .ok ++ [.ioError 0]) _ _ _ _ rfl)
    (.nil _)

end Sample

/-- Both versions that the first open of a lane stores are well formed. -/
theorem checkpoint_file_versions_sample :
    some Sample.json = [Sample.json, Sample.json].getLast? ∧
    ∃ cs : List TransferCheckpoint,
      [Sample.json, Sample.json].map Sample.serde.fromSlice = cs.map some ∧
      cs.Pairwise TransferCheckpoint.Extends ∧
      ∀ c ∈ cs,
        c.lanes.map (fun lane => (lane.rangeStart, lane.rangeEndExclusive)) = splitRanges 3 2 ∧
        c.lanes.map LaneCheckpoint.laneIndex = List.range 2 ∧
        (∀ lane ∈ c.lanes, lane.rangeStart ≤ lane.offset ∧
          lane.offset ≤ lane.rangeEndExclusive ∧
          durableResumeOffset lane.offset lane.rangeStart lane.rangeEndExclusive =
            lane.offset) ∧
        c.totalTransferred ≤ 3 ∧ (c.allLanesComplete = true ↔ c.totalTransferred = 3) :=
  checkpoint_file_versions (Serde.single_roundTrips (by decide +kernel)) (by decide) (by decide)
    Sample.runCalls

end CheckpointDir

end Metra
