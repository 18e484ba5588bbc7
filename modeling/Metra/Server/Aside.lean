import Metra.Interleave.Protocol
import Metra.Server.Stream

/-!
# The programs that leave the status alone

Only a few functions write the status of the transfer or store it, and only one answers
the client; all others, such as the handling of the checkpoint and of the payload, perform
none of these operations, whatever they are answered.
-/

namespace Metra.Server

open Interleave

/-- The operations that neither write the status of the transfer nor store it. -/
def Op.IsAside : Op → Prop
  | .markRunning .. | .setStatus .. | .storeUpsert _ => False
  | _ => True

/-- The operations that do not answer the client either. -/
def Op.IsSilent : Op → Prop
  | .markRunning .. | .setStatus .. | .storeUpsert _ | .sendOpenAck _ | .sendCompleteAck _ => False
  | _ => True

theorem Op.IsSilent.aside {o : Op} (h : o.IsSilent) : o.IsAside := by
  cases o <;> trivial

section

variable {α : Type} {ctx : Context} {kind : Op → Prop}

theorem all_perform {o : Op} (ho : kind o) : (perform o).All kind := .perform ho

theorem all_lift {o : Op} (ho : kind o) :
    (liftM (perform o) : Task.Program o.Reply).toProg.All kind :=
  .lift (all_perform ho)

theorem all_fallible {context : String} {p : Prog Op Op.Reply (Option α)} (hp : p.All kind) :
    (fallible context p).toProg.All kind :=
  .orFail hp

/-- The program neither writes the status of the transfer nor stores it. -/
abbrev Aside (p : Prog Op Op.Reply α) : Prop := p.All Op.IsAside

/-- Nor does it answer the client. -/
abbrev Silent (p : Prog Op Op.Reply α) : Prop := p.All Op.IsSilent

theorem aside_of_silent {p : Prog Op Op.Reply α} (h : Silent p) : Aside p :=
  h.mono fun _ ho => ho.aside

theorem silent_withLock {kind : LockKind} {body : Task.Program α} (hbody : Silent body.toProg) :
    Silent (withLock kind body).toProg := by
  refine .bind (all_perform trivial) fun _ => ?_
  refine .bind (all_perform trivial) fun _ => ?_
  refine .bind hbody fun _ => ?_
  exact .bind (all_perform trivial) fun _ => trivial

/-- A section of a lock keeps what its body keeps. -/
theorem keeps_withLock {Point : Type} {A : Protocol Op Op.Reply Point} {I : Point → Prop}
    (hperform : ∀ {o : Op}, o.IsAside → (perform o).Keeps A I) {kind : LockKind}
    {body : Task.Program α} (hbody : body.toProg.Keeps A I) :
    (withLock kind body).toProg.Keeps A I := by
  refine .bind (hperform trivial) fun _ => ?_
  refine .bind (hperform trivial) fun _ => ?_
  refine .bind hbody fun _ => ?_
  exact .bind (hperform trivial) fun _ => .ret _

theorem clearTransferLocks_silent (status : TransferStatus) :
    Silent (clearTransferLocks status) := by
  unfold clearTransferLocks
  split
  · exact .bind (all_perform trivial) fun _ => all_perform trivial
  · trivial

/-! ## The checkpoint -/

theorem load_silent : Silent (checkpointIo ctx).load.toProg :=
  all_fallible (all_perform trivial)

theorem persist_silent (checkpoint : TransferCheckpoint) :
    Silent ((checkpointIo ctx).persist checkpoint).toProg :=
  all_fallible (all_perform trivial)

theorem loadOrInitCheckpoint_silent (transferId : Uuid) (fileSizeBytes totalLanes : Nat) :
    Silent (loadOrInitCheckpoint (checkpointIo ctx) transferId fileSizeBytes
      totalLanes).toProg := by
  unfold loadOrInitCheckpoint
  refine .tryBind (all_fallible (all_perform trivial)) fun present => ?_
  cases present with
  | true => exact load_silent
  | false => exact .tryBind (persist_silent _) fun _ => trivial

theorem loadOrInitLaneResume_silent (transferId : Uuid)
    (fileSizeBytes totalLanes laneIndex rangeStart rangeEndExclusive : Nat) :
    Silent (loadOrInitLaneResume ctx transferId fileSizeBytes totalLanes laneIndex rangeStart
      rangeEndExclusive).toProg := by
  refine silent_withLock ?_
  unfold loadOrInitLaneResumeUnlocked
  refine .tryBind (loadOrInitCheckpoint_silent _ _ _) fun checkpoint => ?_
  refine .tryBind trivial fun _ => ?_
  split
  · trivial
  · exact .tryBind (persist_silent _) fun _ => trivial

theorem updateCheckpointOffset_silent (laneIndex newOffset : Nat) :
    Silent (updateCheckpointOffset ctx laneIndex newOffset).toProg := by
  refine silent_withLock ?_
  unfold updateCheckpointOffsetUnlocked
  refine .tryBind load_silent fun checkpoint => ?_
  split
  · trivial
  · exact .tryBind (persist_silent _) fun _ => trivial

theorem persistProgress_silent (striped : Bool) (laneIndex newOffset : Nat) :
    Silent (persistProgress ctx striped laneIndex newOffset).toProg := by
  unfold persistProgress
  refine .tryBind ?_ fun bytes => all_lift trivial
  unfold progressBytes
  split
  · exact updateCheckpointOffset_silent _ _
  · trivial

/-! ## The destination -/

theorem refusedBy_silent (refused : Bool) : Silent (refusedBy refused).toProg := by
  unfold refusedBy
  split
  · exact all_fallible (all_perform trivial)
  · trivial

theorem removeExisting_silent : Silent (removeExisting ctx).toProg := by
  unfold removeExisting
  refine .tryBind (all_fallible (all_perform trivial)) fun present => ?_
  split
  · exact all_fallible (all_perform trivial)
  · trivial

/-! ## The writer -/

theorem syncProgress_silent (args : WriterArgs) (context : String) (offset : Nat) :
    Silent (syncProgress ctx args context offset).toProg := by
  unfold syncProgress
  refine .tryBind (all_fallible (all_perform trivial)) fun _ => ?_
  exact persistProgress_silent _ _ _

theorem finishWriting_silent (args : WriterArgs) (bytesWritten lastDurableOffset : Nat) :
    Silent (finishWriting ctx args bytesWritten lastDurableOffset).toProg := by
  unfold finishWriting
  split
  · refine .tryBind (syncProgress_silent _ _ _) fun _ => ?_
    exact .tryBind (all_fallible (all_perform trivial)) fun _ => trivial
  · exact .tryBind (all_fallible (all_perform trivial)) fun _ => trivial

/-- By induction on the chunks that are still to be written. -/
theorem writerLoop_silent (args : WriterArgs) :
    ∀ (chunks : List (List UInt8)) (bytesWritten sinceUpdate lastDurableOffset : Nat),
      Silent (writerLoop ctx args chunks bytesWritten sinceUpdate lastDurableOffset).toProg := by
  intro chunks
  induction chunks with
  | nil =>
    intro bytesWritten _ lastDurableOffset
    exact finishWriting_silent _ _ _
  | cons chunk chunks ih =>
    intro bytesWritten sinceUpdate lastDurableOffset
    unfold writerLoop
    refine .tryBind (all_fallible (all_perform trivial)) fun _ => ?_
    split
    · exact .tryBind (syncProgress_silent _ _ _) fun _ => ih _ _ _
    · exact ih _ _ _

theorem writerTask_silent : Silent (writerTask ctx) := by
  unfold writerTask
  refine .bind (all_perform trivial) fun args => ?_
  refine .bind (writerLoop_silent _ _ _ _ _) fun result => ?_
  exact .bind (all_perform trivial) fun _ => trivial

/-! ## The handler -/

theorem openLane_silent (request : QuicTransferOpen) (admission : Admission)
    (transfer : TransferSummary) (discardPayload : Bool) :
    Silent (openLane ctx request admission transfer discardPayload).toProg := by
  unfold openLane
  split
  · exact .tryBind (loadOrInitLaneResume_silent _ _ _ _ _ _) fun out => trivial
  · split
    · trivial
    · unfold stagingResume
      refine .tryBind (all_fallible (all_perform trivial)) fun len => ?_
      split
      · trivial
      · trivial

theorem presizeIfStriped_silent (request : QuicTransferOpen) (admission : Admission)
    (discardPayload : Bool) :
    Silent (presizeIfStriped ctx request admission discardPayload).toProg := by
  unfold presizeIfStriped
  split
  · refine .tryBind (all_fallible (all_perform trivial)) fun file => ?_
    exact all_fallible (all_perform trivial)
  · trivial

theorem receivePayload_silent (stream : LaneStream) (admission : Admission)
    (discardPayload : Bool) (resumeOffset : Nat) :
    Silent (receivePayload ctx stream admission discardPayload resumeOffset).toProg := by
  unfold receivePayload
  split
  · trivial
  · unfold receiveToFile receiveLanePayloadToFilePipelined
    refine .tryBind (all_fallible (all_perform trivial)) fun file => ?_
    refine .tryBind (all_lift trivial) fun _ => ?_
    split
    · trivial
    · exact .tryBind (all_perform trivial) fun bytesWritten => trivial

theorem recordDiscarded_silent (request : QuicTransferOpen) (admission : Admission)
    (discardPayload : Bool) (offset : Nat) :
    Silent (recordDiscarded ctx request admission discardPayload offset).toProg := by
  unfold recordDiscarded
  split
  · exact persistProgress_silent _ _ _
  · trivial

end

end Metra.Server
