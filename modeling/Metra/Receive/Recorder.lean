import Metra.Checkpoint
import Metra.Receive.Pipeline

/-!
# The calls that a lane's writer makes

`Pipeline.lean` takes a chunk to be written, synced and recorded at once, and the disk not to
fail.  Here the writer task makes one call after the other, each of which may fail, between
any two steps of the other stages; and the lane's entry in the checkpoint is kept along with
the entries of the other lanes.

`write_all` of tokio's `File` returns when the bytes are handed over.  That they could not be
written is told by the next `write_all` or `flush`; a `sync_data` in between waits for them, and
returns well.

* `of_writerStep`, `of_readerStep`, `of_elsewhere` — what the steps leave alone;
* `Careful` — the writer reports only while none of its writes has failed;
* `Written` — the writer's side of the invariant of such runs: what is reported was synced, what
  is synced was written.
-/

namespace Metra

/-- How a call to the disk ends.  A replacement may be reported as failed after it was made, a
write may stop after some bytes, which is told at once or by a later call. -/
inductive DiskOutcome
  | ok
  | ioError
  | ioErrorAfter
  | short (written : Nat)
  | late (written : Nat)

/-- What the writer task needs besides. -/
structure RecorderArgs extends ReceiveLanePipelineArgs where
  striped : Bool
  checkpointPath : String

namespace Recorder

/-- Where the writer task stands; whether it reports for the last time. -/
inductive Phase
  | receiving
  | syncing (last : Bool)
  | persisting (last : Bool)
  | flushing
  | finished (result : Except String Nat)

end Recorder

open Recorder

/-- A run of `receive_lane_payload_to_file_pipelined`.  `landed` is how many of the bytes that
the writer has handed over are in the file, and `writeFailed` tells that some are not.
`syncedFile` is the file as it was when it was last synced, `synced` how many bytes of the lane
were in it by then, and `syncedAt` lists what `synced` was whenever an offset was reported. -/
structure Recorder where
  pipeline : Pipeline
  phase : Phase
  landed : Nat
  writeFailed : Bool
  syncedFile : List UInt8
  synced : Nat
  syncedAt : List Nat
  checkpoint : TransferCheckpoint

namespace Recorder

variable (crypto : AeadCrypto) (args : RecorderArgs)

/-- Before the first step. -/
def start (recvStream file : List UInt8) (checkpoint : TransferCheckpoint) : Recorder where
  pipeline := Pipeline.start args.toReceiveLanePipelineArgs recvStream file
  phase := .receiving
  landed := 0
  writeFailed := false
  syncedFile := file
  synced := 0
  syncedAt := []
  checkpoint := checkpoint

/-- The writer task ends; its end of the channel is closed. -/
def finish (s : Recorder) (result : Except String Nat) : Recorder :=
  { s with
    phase := .finished result
    pipeline := { s.pipeline with
      writer := { s.pipeline.writer with finished := some s.pipeline.writer.bytesWritten } } }

/-- Where the next chunk goes. -/
def offset (s : Recorder) : Nat := args.resumeOffset + s.pipeline.writer.bytesWritten

/-- The reader's next step: as in the pipeline, but that joining the writer task gives the
error it has ended with. -/
def readerStep (s : Recorder) : Option Recorder :=
  match s.pipeline.reader, s.phase with
  | .joinWriter, .finished (.error err) =>
    some { s with pipeline := { s.pipeline with reader := .returned (.error err) } }
  | _, _ =>
    (Pipeline.readerStep args.toReceiveLanePipelineArgs s.pipeline).map fun p =>
      { s with pipeline := p }

/-- The decrypt task works as in the pipeline. -/
def decryptStep (s : Recorder) : Option Recorder :=
  (Pipeline.decryptStep crypto args.toReceiveLanePipelineArgs s.pipeline).map fun p =>
    { s with pipeline := p }

/-- A chunk is handed over, and so many bytes of it get into the file. -/
def handOver (written : Nat) (chunk : List UInt8) (queue : List (List UInt8))
    (s : Recorder) : Recorder :=
  let sinceUpdate := s.pipeline.writer.sinceUpdate + chunk.length
  { s with
    phase := if sinceUpdate ≥ progressUpdateIntervalBytes then .syncing false else .receiving
    landed := s.landed + min written chunk.length
    writeFailed := written < chunk.length
    pipeline := { s.pipeline with
      writerQueue := queue
      file := Bytes.writeAt (s.offset args) (chunk.take written) s.pipeline.file
      writer := { s.pipeline.writer with
        bytesWritten := s.pipeline.writer.bytesWritten + chunk.length
        sinceUpdate := sinceUpdate } } }

/-- `file.write_all` of the next chunk is reported as failed, some bytes of it being written. -/
def refuseChunk (written : Nat) (chunk : List UInt8) (queue : List (List UInt8))
    (s : Recorder) : Recorder :=
  { s with pipeline := { s.pipeline with
      writerQueue := queue
      file := Bytes.writeAt (s.offset args) (chunk.take written) s.pipeline.file } }.finish
    (.error "failed writing transfer chunk to disk")

/-- `file.write_all` of the next chunk, which is not written if one before it has failed. -/
def writeChunk (outcome : DiskOutcome) (chunk : List UInt8) (queue : List (List UInt8))
    (s : Recorder) : Recorder :=
  if s.writeFailed then s.refuseChunk args 0 chunk queue
  else
    match outcome with
    | .ok => s.handOver args chunk.length chunk queue
    | .late written => s.handOver args written chunk queue
    | .short written => s.refuseChunk args written chunk queue
    | _ => s.refuseChunk args 0 chunk queue

/-- What a failed sync is reported with. -/
def syncContext (last : Bool) : String :=
  if last then "failed syncing transfer file before final checkpoint update"
  else "failed syncing transfer file before checkpoint update"

/-- What `persist_progress` returns and makes of the checkpoint. -/
def persistProgress (outcome : DiskOutcome) (newOffset : Nat) (checkpoint : TransferCheckpoint) :
    Except String Unit × TransferCheckpoint :=
  if args.striped then
    match outcome, checkpoint.advanceLane args.laneIndex newOffset with
    | .ioError, _ => (.error s!"failed reading checkpoint file {args.checkpointPath}", checkpoint)
    | _, none => (.error s!"missing lane {args.laneIndex} in checkpoint", checkpoint)
    | .ok, some next => (.ok (), next)
    | .ioErrorAfter, some next =>
      (.error s!"failed atomically replacing checkpoint {args.checkpointPath}", next)
    | _, some _ =>
      (.error s!"failed atomically replacing checkpoint {args.checkpointPath}", checkpoint)
  else (.ok (), checkpoint)

/-- The call of `persist_progress`. -/
def persist (outcome : DiskOutcome) (last : Bool) (s : Recorder) : Recorder :=
  let persisted := persistProgress args outcome (s.offset args) s.checkpoint
  let called := { s with
    pipeline := { s.pipeline with progress := s.pipeline.progress ++ [s.offset args] }
    syncedAt := s.syncedAt ++ [s.synced]
    checkpoint := persisted.2 }
  match persisted.1 with
  | .error err => called.finish (.error err)
  | .ok () =>
    if last then { called with phase := .flushing }
    else { called with
      phase := .receiving
      pipeline := { called.pipeline with
        writer := { called.pipeline.writer with
          sinceUpdate := 0, lastDurableOffset := s.offset args } } }

/-- The writer task's next step. -/
def writerStep (outcome : DiskOutcome) (s : Recorder) : Option Recorder :=
  match s.phase with
  | .receiving =>
    match s.pipeline.writerQueue with
    | chunk :: queue => some (s.writeChunk args outcome chunk queue)
    | [] =>
      if s.pipeline.decrypt.isFinished then
        some { s with
          phase :=
            if s.offset args > s.pipeline.writer.lastDurableOffset then .syncing true
            else .flushing }
      else none
  | .syncing last =>
    match outcome with
    | .ok =>
      some { s with
        phase := .persisting last
        syncedFile := s.pipeline.file, synced := s.landed }
    | _ => some (s.finish (.error (syncContext last)))
  | .persisting last => some (s.persist args outcome last)
  | .flushing =>
    match s.writeFailed, outcome with
    | false, .ok => some (s.finish (.ok s.pipeline.writer.bytesWritten))
    | _, _ => some (s.finish (.error "failed flushing transfer file"))
  | .finished _ => none

/-- A stage moves, or another lane is opened or advanced. -/
inductive Move
  | reader
  | decrypt
  | writer (outcome : DiskOutcome)
  | openLane (laneIndex : Nat)
  | advanceLane (laneIndex newOffset : Nat)

/-- What another lane makes of the checkpoint. -/
def elsewhere (laneIndex : Nat) (checkpoint : Option TransferCheckpoint) (s : Recorder) :
    Option Recorder :=
  if laneIndex = args.laneIndex then none else checkpoint.map fun c => { s with checkpoint := c }

/-- A step of one of the tasks, or of another lane at the checkpoint, if it can be taken. -/
def step? (s : Recorder) : Move → Option Recorder
  | .reader => readerStep args s
  | .decrypt => decryptStep crypto args s
  | .writer outcome => writerStep args outcome s
  | .openLane laneIndex =>
    elsewhere args laneIndex ((s.checkpoint.roundLane laneIndex).map Prod.snd) s
  | .advanceLane laneIndex newOffset =>
    elsewhere args laneIndex (s.checkpoint.advanceLane laneIndex newOffset) s

/-- A step, of whichever task. -/
def Next (s s' : Recorder) : Prop := ∃ move, step? crypto args s move = some s'

/-- The states that a run leads to, under any schedule. -/
def Reaches : Recorder → Recorder → Prop := Relation.ReflTransGen (Next crypto args)

/-- The writer calls `persist_progress` only while none of its writes has failed. -/
def Careful (s : Recorder) (move : Move) : Prop :=
  ∀ outcome last, move = .writer outcome → s.phase = .persisting last → s.writeFailed = false

/-- A step that keeps the condition on `persist_progress`. -/
def CarefulNext (s s' : Recorder) : Prop :=
  ∃ move, s.Careful move ∧ step? crypto args s move = some s'

/-- The states that a run leads to all of whose steps are careful. -/
def CarefullyReaches : Recorder → Recorder → Prop :=
  Relation.ReflTransGen (CarefulNext crypto args)

/-! ## What the steps leave alone -/

variable {crypto args} {s s' : Recorder}

variable (args) in
/-- A chunk is handed over if no write has failed, or it is refused. -/
theorem writeChunk_cases (s : Recorder) (outcome : DiskOutcome) (chunk : List UInt8)
    (queue : List (List UInt8)) :
    (∃ written, s.writeFailed = false ∧
        s.writeChunk args outcome chunk queue = s.handOver args written chunk queue) ∨
      ∃ written, (s.writeFailed = false ∨ written = 0) ∧
        s.writeChunk args outcome chunk queue = s.refuseChunk args written chunk queue := by
  unfold writeChunk
  cases hfailed : s.writeFailed with
  | true => exact .inr ⟨0, .inr rfl, rfl⟩
  | false =>
    cases outcome with
    | ok => exact .inl ⟨_, rfl, rfl⟩
    | late written => exact .inl ⟨written, rfl, rfl⟩
    | short written => exact .inr ⟨written, .inl rfl, rfl⟩
    | ioError | ioErrorAfter => exact .inr ⟨0, .inr rfl, rfl⟩

theorem next_of_careful (h : CarefulNext crypto args s s') : Next crypto args s s' := by
  obtain ⟨move, -, hstep⟩ := h
  exact ⟨move, hstep⟩

/-- What a step of the writer leaves alone: the reader's side; and it takes chunks off its
queue only to write them. -/
theorem of_writerStep {outcome : DiskOutcome} (hstep : writerStep args outcome s = some s') :
    (∀ r, s.phase ≠ .finished r) ∧ s'.pipeline.reader = s.pipeline.reader ∧
      s'.pipeline.decrypt = s.pipeline.decrypt ∧
      s'.pipeline.decryptQueue = s.pipeline.decryptQueue ∧
      s'.pipeline.bytesReceived = s.pipeline.bytesReceived ∧
      s'.pipeline.writer.bytesWritten + s'.pipeline.writerQueue.flatten.length ≤
        s.pipeline.writer.bytesWritten + s.pipeline.writerQueue.flatten.length := by
  unfold writerStep at hstep
  cases hphase : s.phase with
  | receiving =>
    simp only [hphase] at hstep
    refine ⟨by simp, ?_⟩
    split at hstep
    · rename_i chunk queue hqueue
      cases hstep
      rw [hqueue, List.flatten_cons, List.length_append]
      rcases writeChunk_cases args s outcome chunk queue with
        ⟨written, -, heq⟩ | ⟨written, -, heq⟩
      · rw [heq]
        refine ⟨rfl, rfl, rfl, rfl, ?_⟩
        simp only [handOver]
        omega
      · rw [heq]
        refine ⟨rfl, rfl, rfl, rfl, ?_⟩
        simp only [refuseChunk, finish]
        omega
    · split at hstep
      · cases hstep
        exact ⟨rfl, rfl, rfl, rfl, le_rfl⟩
      · cases hstep
  | syncing last =>
    simp only [hphase] at hstep
    refine ⟨by simp, ?_⟩
    split at hstep <;> cases hstep <;> exact ⟨rfl, rfl, rfl, rfl, le_rfl⟩
  | persisting last =>
    simp only [hphase] at hstep
    cases hstep
    refine ⟨by simp, ?_⟩
    unfold persist
    dsimp only
    split
    · exact ⟨rfl, rfl, rfl, rfl, le_rfl⟩
    · split <;> exact ⟨rfl, rfl, rfl, rfl, le_rfl⟩
  | flushing =>
    simp only [hphase] at hstep
    refine ⟨by simp, ?_⟩
    split at hstep <;> cases hstep <;> exact ⟨rfl, rfl, rfl, rfl, le_rfl⟩
  | finished result =>
    simp only [hphase] at hstep
    cases hstep

/-- Only `persist_progress` reports an offset and touches the checkpoint. -/
theorem of_writerStep_persist {outcome : DiskOutcome}
    (hstep : writerStep args outcome s = some s') :
    (s'.checkpoint = s.checkpoint ∧ s'.pipeline.progress = s.pipeline.progress) ∨
      ∃ last, s.phase = .persisting last ∧ s' = s.persist args outcome last := by
  unfold writerStep at hstep
  cases hphase : s.phase with
  | receiving =>
    simp only [hphase] at hstep
    left
    split at hstep
    · rename_i chunk queue hqueue
      cases hstep
      rcases writeChunk_cases args s outcome chunk queue with
        ⟨written, -, heq⟩ | ⟨written, -, heq⟩ <;> rw [heq] <;> exact ⟨rfl, rfl⟩
    · split at hstep
      · cases hstep
        exact ⟨rfl, rfl⟩
      · cases hstep
  | syncing last =>
    simp only [hphase] at hstep
    left
    split at hstep <;> cases hstep <;> exact ⟨rfl, rfl⟩
  | persisting last =>
    simp only [hphase] at hstep
    cases hstep
    exact .inr ⟨last, rfl, rfl⟩
  | flushing =>
    simp only [hphase] at hstep
    left
    split at hstep <;> cases hstep <;> exact ⟨rfl, rfl⟩
  | finished result =>
    simp only [hphase] at hstep
    cases hstep

/-- Only a writer none of whose writes has failed writes another chunk. -/
theorem writeFailed_of_writerStep {outcome : DiskOutcome}
    (hstep : writerStep args outcome s = some s') :
    s'.writeFailed = s.writeFailed ∨ s.writeFailed = false := by
  unfold writerStep at hstep
  cases hphase : s.phase with
  | receiving =>
    simp only [hphase] at hstep
    split at hstep
    · rename_i chunk queue hqueue
      cases hstep
      rcases writeChunk_cases args s outcome chunk queue with
        ⟨written, hfine, -⟩ | ⟨written, -, heq⟩
      · exact .inr hfine
      · rw [heq]
        exact .inl rfl
    · split at hstep <;> cases hstep
      exact .inl rfl
  | syncing last =>
    simp only [hphase] at hstep
    split at hstep <;> cases hstep <;> exact .inl rfl
  | persisting last =>
    simp only [hphase] at hstep
    cases hstep
    left
    unfold persist
    dsimp only
    split
    · rfl
    · split <;> rfl
  | flushing =>
    simp only [hphase] at hstep
    split at hstep <;> cases hstep <;> exact .inl rfl
  | finished result =>
    simp only [hphase] at hstep
    cases hstep

/-- The reader does not touch what the other tasks work with. -/
theorem sameWriter_readerStep {p p' : Pipeline} {readerArgs : ReceiveLanePipelineArgs}
    (h : Pipeline.readerStep readerArgs p = some p') :
    p'.decrypt = p.decrypt ∧ p'.writer = p.writer ∧ p'.progress = p.progress ∧
      p'.file = p.file := by
  unfold Pipeline.readerStep at h
  cases hreader : p.reader with
  | reading =>
    simp only [hreader] at h
    split at h
    · split at h
      · cases h
        exact ⟨rfl, rfl, rfl, rfl⟩
      · split at h <;> cases h <;> exact ⟨rfl, rfl, rfl, rfl⟩
    · cases h
      exact ⟨rfl, rfl, rfl, rfl⟩
  | sending frame =>
    simp only [hreader] at h
    split at h
    · cases h
      exact ⟨rfl, rfl, rfl, rfl⟩
    · split at h <;> cases h
      exact ⟨rfl, rfl, rfl, rfl⟩
  | joinDecrypt =>
    simp only [hreader] at h
    split at h <;> cases h <;> exact ⟨rfl, rfl, rfl, rfl⟩
  | joinWriter =>
    simp only [hreader, Option.map_eq_some_iff] at h
    obtain ⟨n, -, rfl⟩ := h
    exact ⟨rfl, rfl, rfl, rfl⟩
  | returned r => simp [hreader] at h

/-- Nor does the decrypt task touch what the writer works with. -/
theorem sameWriter_decryptStep {p p' : Pipeline} {decryptArgs : ReceiveLanePipelineArgs}
    (h : Pipeline.decryptStep crypto decryptArgs p = some p') :
    p'.writer = p.writer ∧ p'.progress = p.progress ∧ p'.file = p.file := by
  unfold Pipeline.decryptStep at h
  cases hdecrypt : p.decrypt with
  | receiving =>
    simp only [hdecrypt] at h
    split at h
    · split at h <;> cases h <;> exact ⟨rfl, rfl, rfl⟩
    · split at h <;> cases h
      exact ⟨rfl, rfl, rfl⟩
  | sending plaintext =>
    simp only [hdecrypt] at h
    split at h
    · cases h
      exact ⟨rfl, rfl, rfl⟩
    · split at h <;> cases h
      exact ⟨rfl, rfl, rfl⟩
  | finished r => simp [hdecrypt] at h

/-- What a step of the reader does to the rest of the run. -/
theorem of_readerStep (h : readerStep args s = some s') :
    ∃ p, s' = { s with pipeline := p } ∧ p.decrypt = s.pipeline.decrypt ∧
      p.writer = s.pipeline.writer ∧ p.progress = s.pipeline.progress ∧
      p.file = s.pipeline.file := by
  unfold readerStep at h
  split at h
  · cases h
    exact ⟨_, rfl, rfl, rfl, rfl, rfl⟩
  · obtain ⟨p, hp, rfl⟩ := Option.map_eq_some_iff.1 h
    exact ⟨p, rfl, sameWriter_readerStep hp⟩

/-- Other lanes leave the lane's entry alone. -/
theorem of_elsewhere {laneIndex : Nat} {next : Option TransferCheckpoint}
    (hnext : ∀ c, next = some c → ∃ new : LaneCheckpoint, new.laneIndex = laneIndex ∧
      c = s.checkpoint.putLane new)
    (h : elsewhere args laneIndex next s = some s') :
    ∃ c : TransferCheckpoint, s' = { s with checkpoint := c } ∧
      c.lane? args.laneIndex = s.checkpoint.lane? args.laneIndex := by
  unfold elsewhere at h
  split at h
  · cases h
  · rename_i hne
    obtain ⟨c, hc, rfl⟩ := Option.map_eq_some_iff.1 h
    obtain ⟨new, rfl, rfl⟩ := hnext c hc
    exact ⟨_, rfl, TransferCheckpoint.find?_putLaneIn_of_ne hne _⟩

theorem of_openLane {laneIndex : Nat} (h : step? crypto args s (.openLane laneIndex) = some s') :
    ∃ c : TransferCheckpoint, s' = { s with checkpoint := c } ∧
      c.lane? args.laneIndex = s.checkpoint.lane? args.laneIndex := by
  refine of_elsewhere ?_ h
  intro c hc
  obtain ⟨⟨r, c'⟩, hround, rfl⟩ := Option.map_eq_some_iff.1 hc
  obtain ⟨old, hold, heq⟩ := Option.map_eq_some_iff.1 hround
  cases heq
  have hindex := TransferCheckpoint.laneIndex_of_lane? hold
  exact ⟨{ old with offset := durableResumeOffset old.offset _ _ }, hindex, rfl⟩

theorem of_advanceLane {laneIndex newOffset : Nat}
    (h : step? crypto args s (.advanceLane laneIndex newOffset) = some s') :
    ∃ c : TransferCheckpoint, s' = { s with checkpoint := c } ∧
      c.lane? args.laneIndex = s.checkpoint.lane? args.laneIndex := by
  refine of_elsewhere ?_ h
  intro c hc
  obtain ⟨old, hold, rfl⟩ := Option.map_eq_some_iff.1 hc
  have hindex := TransferCheckpoint.laneIndex_of_lane? hold
  exact ⟨{ old with offset := max old.offset (durableResumeOffset newOffset _ _) }, hindex, rfl⟩

/-- A writer that has failed stays so. -/
theorem failed_next {err : String} (hnext : Next crypto args s s')
    (hfailed : s.phase = .finished (.error err)) : s'.phase = .finished (.error err) := by
  obtain ⟨move, hstep⟩ := hnext
  cases move with
  | reader =>
    obtain ⟨p, rfl, -⟩ := of_readerStep hstep
    exact hfailed
  | decrypt =>
    obtain ⟨p, hp, rfl⟩ := Option.map_eq_some_iff.1 hstep
    exact hfailed
  | writer outcome => exact absurd hfailed ((of_writerStep hstep).1 _)
  | openLane laneIndex =>
    obtain ⟨c, rfl, -⟩ := of_openLane hstep
    exact hfailed
  | advanceLane laneIndex newOffset =>
    obtain ⟨c, rfl, -⟩ := of_advanceLane hstep
    exact hfailed

/-- A write that has failed stays so. -/
theorem fine_of_next (hnext : Next crypto args s s') (hfine : s'.writeFailed = false) :
    s.writeFailed = false := by
  obtain ⟨move, hstep⟩ := hnext
  cases move with
  | reader =>
    obtain ⟨p, rfl, -⟩ := of_readerStep hstep
    exact hfine
  | decrypt =>
    obtain ⟨p, hp, rfl⟩ := Option.map_eq_some_iff.1 hstep
    exact hfine
  | writer outcome =>
    rcases writeFailed_of_writerStep hstep with heq | hbefore
    · exact heq ▸ hfine
    · exact hbefore
  | openLane laneIndex =>
    obtain ⟨c, rfl, -⟩ := of_openLane hstep
    exact hfine
  | advanceLane laneIndex newOffset =>
    obtain ⟨c, rfl, -⟩ := of_advanceLane hstep
    exact hfine

/-- A run that ends without a failed write has had none. -/
theorem carefully_of_reaches (h : Reaches crypto args s s') (hfine : s'.writeFailed = false) :
    CarefullyReaches crypto args s s' := by
  induction h with
  | refl => exact .refl
  | tail _ hnext ih =>
    have hbefore := fine_of_next hnext hfine
    obtain ⟨move, hstep⟩ := hnext
    exact (ih hbefore).tail ⟨move, fun _ _ _ _ => hbefore, hstep⟩

/-! ## What has been written, synced and reported -/

/-- The offset that was reported last. -/
def reported (args : RecorderArgs) (s : Recorder) : Nat :=
  s.pipeline.progress.getLastD args.resumeOffset

/-- Where a writer none of whose writes has failed stands with what it has written, synced and
reported. -/
def Phase.Sound (args : RecorderArgs) (s : Recorder) : Phase → Prop
  | .receiving =>
    s.pipeline.writer.bytesWritten = s.synced + s.pipeline.writer.sinceUpdate ∧
      s.pipeline.writer.lastDurableOffset = s.reported args
  | .syncing _ => s.synced < s.pipeline.writer.bytesWritten
  | .persisting _ =>
    s.synced = s.pipeline.writer.bytesWritten ∧ s.reported args < args.resumeOffset + s.synced
  | .flushing => s.synced = s.pipeline.writer.bytesWritten
  | .finished (.ok n) =>
    n = s.pipeline.writer.bytesWritten ∧ s.synced = s.pipeline.writer.bytesWritten
  | .finished (.error _) => True

/-- The writer's side of a careful run. -/
structure Written (args : RecorderArgs) (s : Recorder) : Prop where
  phase : s.writeFailed = false → s.phase.Sound args s
  reported_le : s.reported args ≤ args.resumeOffset + s.synced
  settled : (∀ last, s.phase ≠ .persisting last) → (∀ err, s.phase ≠ .finished (.error err)) →
    s.reported args = args.resumeOffset + s.synced
  synced_le : s.synced ≤ s.landed
  landed_le : s.landed ≤ s.pipeline.writer.bytesWritten
  landed : s.writeFailed = false → s.landed = s.pipeline.writer.bytesWritten
  ended : ∀ n, s.phase = .finished (.ok n) → s.writeFailed = false
  closed : s.pipeline.writer.finished = none ∨
    s.pipeline.writer.finished = some s.pipeline.writer.bytesWritten ∧ ∃ r, s.phase = .finished r
  reports : (args.resumeOffset :: s.pipeline.progress).Pairwise (· < ·)
  moments : List.Forall₂ (fun offset synced => offset ≤ args.resumeOffset + synced)
    s.pipeline.progress s.syncedAt
  length : s.landed = 0 ∨ args.resumeOffset + s.landed ≤ s.pipeline.file.length
  durable : ∀ p, args.resumeOffset ≤ p → p < args.resumeOffset + s.synced →
    s.syncedFile[p]? = s.pipeline.file[p]?

theorem written_start (recvStream file : List UInt8) (checkpoint : TransferCheckpoint) :
    Written args (start args recvStream file checkpoint) where
  phase _ := ⟨rfl, rfl⟩
  reported_le := le_rfl
  settled _ _ := rfl
  synced_le := le_rfl
  landed_le := le_rfl
  landed _ := rfl
  ended n h := by cases h
  closed := .inl rfl
  reports := List.pairwise_singleton _ _
  moments := .nil
  length := .inl rfl
  durable p hstart hstop := by
    have hnone : p < args.resumeOffset + 0 := hstop
    omega

/-- The reader and the decrypt task leave the writer's side alone. -/
theorem Written.congr (h : Written args s) {p : Pipeline} (hwriter : p.writer = s.pipeline.writer)
    (hprogress : p.progress = s.pipeline.progress) (hfile : p.file = s.pipeline.file) :
    Written args { s with pipeline := p } := by
  have hreported : reported args { s with pipeline := p } = s.reported args := by
    rw [reported, reported, hprogress]
  constructor
  · intro hfine
    have hphase := h.phase hfine
    simp only [Phase.Sound, hreported, hwriter] at hphase ⊢
    exact hphase
  · rw [hreported]
    exact h.reported_le
  · rw [hreported]
    exact h.settled
  · exact h.synced_le
  · rw [hwriter]
    exact h.landed_le
  · rw [hwriter]
    exact h.landed
  · exact h.ended
  · rw [hwriter]
    exact h.closed
  · rw [hprogress]
    exact h.reports
  · rw [hprogress]
    exact h.moments
  · rw [hfile]
    exact h.length
  · rw [hfile]
    exact h.durable

/-- In an increasing list the last entry is the largest. -/
theorem pairwise_concat {a x : Nat} {l : List Nat} (h : (a :: l).Pairwise (· < ·))
    (hx : l.getLastD a < x) : (a :: (l ++ [x])).Pairwise (· < ·) := by
  induction l generalizing a with
  | nil => simpa using hx
  | cons b l ih =>
    rw [List.getLastD_cons] at hx
    have htail := ih h.tail hx
    have hab : a < b := List.rel_of_pairwise_cons h List.mem_cons_self
    refine List.pairwise_cons.2 ⟨?_, htail⟩
    intro y hy
    rcases List.mem_cons.1 hy with rfl | hy
    · exact hab
    · exact hab.trans (List.rel_of_pairwise_cons htail hy)

/-- A writer that gives up leaves everything as it is. -/
theorem Written.fail (h : Written args s) (err : String) :
    Written args (s.finish (.error err)) where
  phase _ := trivial
  reported_le := h.reported_le
  settled _ hfine := absurd rfl (hfine err)
  synced_le := h.synced_le
  landed_le := h.landed_le
  landed := h.landed
  ended n hn := by cases hn
  closed := .inr ⟨rfl, _, rfl⟩
  reports := h.reports
  moments := h.moments
  length := h.length
  durable := h.durable

/-- What is written goes behind all that is synced. -/
theorem Written.write (h : Written args s) {bs : List UInt8}
    (hbs : s.writeFailed = false ∨ bs = []) :
    (s.landed + bs.length = 0 ∨ args.resumeOffset + (s.landed + bs.length) ≤
        (Bytes.writeAt (s.offset args) bs s.pipeline.file).length) ∧
    ∀ p, args.resumeOffset ≤ p → p < args.resumeOffset + s.synced →
      s.syncedFile[p]? = (Bytes.writeAt (s.offset args) bs s.pipeline.file)[p]? := by
  have hsynced := h.synced_le
  have hlength := h.length
  by_cases hempty : bs = []
  · subst hempty
    simpa [Bytes.writeAt] using ⟨hlength, h.durable⟩
  · have hlanded := h.landed (hbs.resolve_right hempty)
    constructor
    · right
      rw [Bytes.length_writeAt _ hempty, offset, hlanded]
      omega
    · intro p hstart hstop
      rw [h.durable p hstart hstop, Bytes.getElem?_writeAt_outside]
      · omega
      · left
        rw [offset]
        omega

/-- The writer has not ended. -/
theorem Written.open (h : Written args s) (hphase : ∀ r, s.phase ≠ .finished r) :
    s.pipeline.writer.finished = none := by
  rcases h.closed with hnone | ⟨-, r, hr⟩
  · exact hnone
  · exact absurd hr (hphase r)

theorem Written.refuseChunk (h : Written args s) {written : Nat}
    (hwritten : s.writeFailed = false ∨ written = 0) (chunk : List UInt8)
    (queue : List (List UInt8)) : Written args (s.refuseChunk args written chunk queue) := by
  have hnone : s.writeFailed = false ∨ chunk.take written = [] := by
    refine hwritten.imp_right ?_
    rintro rfl
    exact List.take_zero
  obtain ⟨hlength, hdurable⟩ := h.write hnone
  refine ⟨fun _ => trivial, h.reported_le, fun _ hfine => absurd rfl (hfine _), h.synced_le,
    h.landed_le, h.landed, nofun, .inr ⟨rfl, _, rfl⟩, h.reports, h.moments, ?_, hdurable⟩
  refine hlength.imp ?_ ?_
  · intro hzero
    exact Nat.eq_zero_of_add_eq_zero_right hzero
  · intro hle
    refine le_trans ?_ hle
    exact Nat.add_le_add_left (Nat.le_add_right _ _) _

theorem Written.handOver (h : Written args s) (hphase : s.phase = .receiving)
    (hfine : s.writeFailed = false) (written : Nat) (chunk : List UInt8)
    (queue : List (List UInt8)) : Written args (s.handOver args written chunk queue) := by
  have hreceiving := h.phase hfine
  rw [hphase] at hreceiving
  obtain ⟨hall, hlast⟩ := hreceiving
  have hreported := h.settled (by simp [hphase]) (by simp [hphase])
  have hopen : s.pipeline.writer.finished = none := h.open (by simp [hphase])
  have hlanded := h.landed hfine
  obtain ⟨hlength, hdurable⟩ := h.write
    (.inl hfine : s.writeFailed = false ∨ chunk.take written = [])
  rw [List.length_take] at hlength
  refine ⟨fun _ => ?_, h.reported_le, fun _ _ => hreported,
    h.synced_le.trans (Nat.le_add_right _ _), Nat.add_le_add h.landed_le (Nat.min_le_right _ _),
    fun hfine' => ?_, ?_, .inl hopen, h.reports, h.moments, hlength, hdurable⟩
  · simp only [Recorder.handOver]
    split
    · rename_i hfull
      show s.synced < s.pipeline.writer.bytesWritten + chunk.length
      simp only [progressUpdateIntervalBytes, resumeChunkSizeBytes] at hfull
      omega
    · refine ⟨?_, hlast⟩
      show s.pipeline.writer.bytesWritten + chunk.length =
        s.synced + (s.pipeline.writer.sinceUpdate + chunk.length)
      omega
  · -- nothing is missing of what was handed over
    have hle : ¬ written < chunk.length := of_decide_eq_false hfine'
    show s.landed + min written chunk.length = s.pipeline.writer.bytesWritten + chunk.length
    omega
  · intro n hn
    simp only [Recorder.handOver] at hn
    split at hn <;> cases hn

theorem Written.writeChunk (h : Written args s) (hphase : s.phase = .receiving)
    (outcome : DiskOutcome) (chunk : List UInt8) (queue : List (List UInt8)) :
    Written args (s.writeChunk args outcome chunk queue) := by
  rcases writeChunk_cases args s outcome chunk queue with
    ⟨written, hfine, heq⟩ | ⟨written, hwritten, heq⟩
  · rw [heq]
    exact h.handOver hphase hfine written chunk queue
  · rw [heq]
    exact h.refuseChunk hwritten chunk queue

/-- After a sync all that is written is synced. -/
theorem Written.sync (h : Written args s) {last : Bool} (hphase : s.phase = .syncing last) :
    Written args { s with
      phase := .persisting last
      syncedFile := s.pipeline.file, synced := s.landed } := by
  have hopen : s.pipeline.writer.finished = none := h.open (by simp [hphase])
  have hreported := h.settled (by simp [hphase]) (by simp [hphase])
  refine ⟨fun hfine => ?_, ?_, fun hidle _ => absurd rfl (hidle last), le_rfl, h.landed_le,
    h.landed, nofun, .inl hopen, h.reports, h.moments, h.length, fun _ _ _ => rfl⟩
  · have hlt := h.phase hfine
    rw [hphase] at hlt
    simp only [Phase.Sound] at hlt
    refine ⟨h.landed hfine, ?_⟩
    show s.reported args < args.resumeOffset + s.landed
    rw [h.landed hfine]
    omega
  · exact h.reported_le.trans (Nat.add_le_add_left h.synced_le _)

/-- What is reported was synced before, if no write has failed. -/
theorem Written.persist (h : Written args s) {last : Bool} (hphase : s.phase = .persisting last)
    (hfine : s.writeFailed = false) (outcome : DiskOutcome) :
    Written args (s.persist args outcome last) := by
  have hpersisting := h.phase hfine
  rw [hphase] at hpersisting
  obtain ⟨hsynced, hreported⟩ := hpersisting
  have hopen : s.pipeline.writer.finished = none := h.open (by simp [hphase])
  have hoffset : s.offset args = args.resumeOffset + s.synced := by rw [offset, hsynced]
  have hreports : (args.resumeOffset ::
      (s.pipeline.progress ++ [s.offset args])).Pairwise (· < ·) :=
    pairwise_concat h.reports (hreported.trans_eq hoffset.symm)
  have hmoments : List.Forall₂ (fun offset synced => offset ≤ args.resumeOffset + synced)
      (s.pipeline.progress ++ [s.offset args]) (s.syncedAt ++ [s.synced]) :=
    List.rel_append h.moments (.cons hoffset.le .nil)
  have hnow : (s.pipeline.progress ++ [s.offset args]).getLastD args.resumeOffset =
      args.resumeOffset + s.synced := List.getLastD_concat.trans hoffset
  unfold Recorder.persist
  dsimp only
  split
  · exact ⟨fun _ => trivial, hnow.le, fun _ _ => hnow, h.synced_le, h.landed_le, h.landed, nofun,
      .inr ⟨rfl, _, rfl⟩, hreports, hmoments, h.length, h.durable⟩
  · split
    · exact ⟨fun _ => hsynced, hnow.le, fun _ _ => hnow, h.synced_le, h.landed_le, h.landed, nofun,
        .inl hopen, hreports, hmoments, h.length, h.durable⟩
    · refine ⟨fun _ => ⟨hsynced.symm, ?_⟩, hnow.le, fun _ _ => hnow, h.synced_le, h.landed_le,
        h.landed, nofun, .inl hopen, hreports, hmoments, h.length, h.durable⟩
      exact hoffset.trans hnow.symm

/-- A writer that has been told that there is nothing more to come reports what is left. -/
theorem Written.drained (h : Written args s) (hphase : s.phase = .receiving) :
    Written args { s with
      phase := if s.offset args > s.pipeline.writer.lastDurableOffset then .syncing true
        else .flushing } := by
  have hopen := h.open (by simp [hphase])
  have hreported := h.settled (by simp [hphase]) (by simp [hphase])
  refine ⟨fun hfine => ?_, h.reported_le, fun _ _ => hreported, h.synced_le, h.landed_le, h.landed,
    ?_, .inl hopen, h.reports, h.moments, h.length, h.durable⟩
  · have hreceiving := h.phase hfine
    rw [hphase] at hreceiving
    obtain ⟨hwritten, hlast⟩ := hreceiving
    show Phase.Sound args _
      (if s.offset args > s.pipeline.writer.lastDurableOffset then _ else _)
    rw [hlast, hreported, offset]
    split
    · show s.synced < s.pipeline.writer.bytesWritten
      omega
    · show s.synced = s.pipeline.writer.bytesWritten
      omega
  · intro n hn
    dsimp only at hn
    split at hn <;> cases hn

/-- **A step of the writer** keeps what is reported behind what is synced. -/
theorem Written.writerStep (h : Written args s) {outcome : DiskOutcome}
    (hcareful : ∀ last, s.phase = .persisting last → s.writeFailed = false)
    (hstep : Recorder.writerStep args outcome s = some s') : Written args s' := by
  unfold Recorder.writerStep at hstep
  cases hphase : s.phase with
  | receiving =>
    simp only [hphase] at hstep
    split at hstep
    · rename_i chunk queue hqueue
      cases hstep
      exact h.writeChunk hphase outcome chunk queue
    · split at hstep
      · cases hstep
        exact h.drained hphase
      · cases hstep
  | syncing last =>
    simp only [hphase] at hstep
    split at hstep
    · cases hstep
      exact h.sync hphase
    · cases hstep
      exact h.fail _
  | persisting last =>
    simp only [hphase] at hstep
    cases hstep
    exact h.persist hphase (hcareful last hphase) outcome
  | flushing =>
    simp only [hphase] at hstep
    split at hstep
    · rename_i hfine
      cases hstep
      have hflushing := h.phase hfine
      rw [hphase] at hflushing
      exact ⟨fun _ => ⟨rfl, hflushing⟩, h.reported_le,
        fun _ _ => h.settled (by simp [hphase]) (by simp [hphase]), h.synced_le, h.landed_le,
        h.landed, fun _ _ => hfine, .inr ⟨rfl, _, rfl⟩, h.reports, h.moments, h.length, h.durable⟩
    · cases hstep
      exact h.fail _
  | finished result =>
    simp only [hphase] at hstep
    cases hstep

theorem Written.next (h : Written args s) (hnext : CarefulNext crypto args s s') :
    Written args s' := by
  obtain ⟨move, hcareful, hstep⟩ := hnext
  cases move with
  | reader =>
    obtain ⟨p, rfl, -, hwriter, hprogress, hfile⟩ := of_readerStep hstep
    exact h.congr hwriter hprogress hfile
  | decrypt =>
    obtain ⟨p, hp, rfl⟩ := Option.map_eq_some_iff.1 hstep
    obtain ⟨hwriter, hprogress, hfile⟩ := sameWriter_decryptStep hp
    exact h.congr hwriter hprogress hfile
  | writer outcome => exact h.writerStep (fun last => hcareful outcome last rfl) hstep
  | openLane laneIndex =>
    obtain ⟨c, rfl, -⟩ := of_openLane hstep
    exact ⟨h.phase, h.reported_le, h.settled, h.synced_le, h.landed_le, h.landed, h.ended,
      h.closed, h.reports, h.moments, h.length, h.durable⟩
  | advanceLane laneIndex newOffset =>
    obtain ⟨c, rfl, -⟩ := of_advanceLane hstep
    exact ⟨h.phase, h.reported_le, h.settled, h.synced_le, h.landed_le, h.landed, h.ended,
      h.closed, h.reports, h.moments, h.length, h.durable⟩

theorem written_of_reaches {recvStream file : List UInt8} {c : TransferCheckpoint}
    (h : CarefullyReaches crypto args (start args recvStream file c) s) : Written args s := by
  induction h with
  | refl => exact written_start recvStream file c
  | tail _ hnext ih => exact ih.next hnext

end Recorder

end Metra
