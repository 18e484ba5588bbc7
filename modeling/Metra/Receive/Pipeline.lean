import Mathlib.Logic.Relation
import Metra.Bytes.FileData
import Metra.Receive.Frames

/-!
# Receiving a lane's payload into the staging file

`receive_lane_payload_to_file_pipelined` runs three stages over two bounded
channels: the reader takes frames off the stream, the decrypt task opens them and
the writer task puts the plaintext into the file.  Each stage is deterministic;
the scheduler picks which of them moves next.

* `wellFounded_next`, `returned_of_stuck` — every schedule ends, and only with
  the call returned;
* `Follows` — the invariant: what has been read, opened and written are prefixes
  of one another, with what is in the channels in between;
* `pipelined_agrees` — **the pipelined path returns `Ok` exactly when the plain
  loop does**, and in every state the file differs from what it was by the
  plaintexts of a prefix of the frames, written from the resume offset on.

Writes to the file and updates of the checkpoint are taken to succeed; the writer
keeps a list of the offsets it reported.
-/

namespace Metra

/-- How many bytes are written between two records of the progress. -/
def progressUpdateIntervalBytes : Nat := resumeChunkSizeBytes

/-- What the pipeline is given for a lane. -/
structure ReceiveLanePipelineArgs where
  transferId : Uuid
  laneIndex : Nat
  resumeOffset : Nat
  expectedBytes : Nat
  payloadCodec : PayloadCodec
  receiveWritePipelineDepth : Nat

namespace Pipeline

/-- The three tasks of the pipeline. -/
inductive Stage
  | reader
  | decrypt
  | writer
  deriving DecidableEq

/-- Where the reader, which is the call itself, stands. -/
inductive Reader
  | reading
  | sending (frame : WireFrame)
  | joinDecrypt
  | joinWriter
  | returned (result : Except String Nat)

/-- Whether the reader still has its end of the channel to the decrypt task. -/
def Reader.connected : Reader → Bool
  | .reading | .sending _ => true
  | _ => false

/-- Where the decrypt task stands. -/
inductive Decrypt
  | receiving
  | sending (plaintext : List UInt8)
  | finished (result : Except String Unit)

/-- The decrypt task has ended. -/
def Decrypt.isFinished : Decrypt → Bool
  | .finished _ => true
  | _ => false

/-- The writer task's variables, and what it returned with. -/
structure Writer where
  bytesWritten : Nat
  sinceUpdate : Nat
  lastDurableOffset : Nat
  finished : Option Nat

end Pipeline

open Pipeline

/-- The three stages, the channels between them, and the file.  `progress` lists
the offsets that the writer reported to `persist_progress`. -/
structure Pipeline where
  recvStream : List UInt8
  bytesReceived : Nat
  readError : Option String
  reader : Reader
  decryptQueue : List WireFrame
  decrypt : Decrypt
  writerQueue : List (List UInt8)
  writer : Writer
  file : List UInt8
  progress : List Nat

namespace Pipeline

variable (crypto : AeadCrypto) (args : ReceiveLanePipelineArgs)

/-- Before the first step. -/
def start (recvStream file : List UInt8) : Pipeline where
  recvStream := recvStream
  bytesReceived := 0
  readError := none
  reader := .reading
  decryptQueue := []
  decrypt := .receiving
  writerQueue := []
  writer := ⟨0, 0, args.resumeOffset, none⟩
  file := file
  progress := []

/-- The capacity of the queues between the tasks. -/
def depth : Nat := normalizeReceiveWritePipelineDepth args.receiveWritePipelineDepth

/-- The error of the reader when the decrypt task is gone. -/
def closedMessage : String :=
  s!"decrypt pipeline closed unexpectedly for transfer {args.transferId} lane {args.laneIndex}"

/-- What the call returns once both tasks have ended well. -/
def result (bytesReceived bytesWritten : Nat) : Option String → Except String Nat
  | some err => .error err
  | none =>
    if bytesReceived ≠ args.expectedBytes then
      .error (s!"incomplete lane stream for transfer {args.transferId} lane {args.laneIndex}: " ++
        s!"got {bytesReceived} expected {args.expectedBytes}")
    else if bytesWritten ≠ bytesReceived then
      .error (s!"lane {args.laneIndex} writer mismatch: written {bytesWritten} != " ++
        s!"received {bytesReceived}")
    else .ok bytesWritten

theorem of_result {args : ReceiveLanePipelineArgs} {bytesReceived bytesWritten n : Nat}
    {readError : Option String} (h : result args bytesReceived bytesWritten readError = .ok n) :
    readError = none ∧ bytesReceived = args.expectedBytes ∧ bytesWritten = args.expectedBytes ∧
      n = bytesWritten := by
  unfold result at h
  split at h
  · cases h
  split at h
  · cases h
  rename_i hreceived
  split at h
  · cases h
  rename_i hwritten
  cases h
  push Not at hreceived hwritten
  exact ⟨rfl, hreceived, hwritten.trans hreceived, rfl⟩

/-- The reader's next step; `none` when it waits or has returned. -/
def readerStep (s : Pipeline) : Option Pipeline :=
  match s.reader with
  | .reading =>
    if s.bytesReceived < args.expectedBytes then
      match readWirePayloadFrame s.recvStream args.payloadCodec args.transferId
        args.laneIndex with
      | .error err => some { s with readError := some err, reader := .joinDecrypt }
      | .ok (frame, rest) =>
        let remaining := args.expectedBytes - s.bytesReceived
        if frame.plaintextLen > remaining then
          some { s with
            recvStream := rest, reader := .joinDecrypt
            readError := some (laneOverflow args.transferId args.laneIndex) }
        else some { s with recvStream := rest, reader := .sending frame }
    else some { s with reader := .joinDecrypt }
  | .sending frame =>
    if s.decrypt.isFinished then
      some { s with readError := some (closedMessage args), reader := .joinDecrypt }
    else if s.decryptQueue.length < depth args then
      some { s with
        decryptQueue := s.decryptQueue ++ [frame], reader := .reading
        bytesReceived := s.bytesReceived + frame.plaintextLen }
    else none
  | .joinDecrypt =>
    match s.decrypt with
    | .finished (.error err) => some { s with reader := .returned (.error err) }
    | .finished (.ok ()) => some { s with reader := .joinWriter }
    | _ => none
  | .joinWriter =>
    s.writer.finished.map fun bytesWritten =>
      { s with reader := .returned (result args s.bytesReceived bytesWritten s.readError) }
  | .returned _ => none

/-- The decrypt task's next step. -/
def decryptStep (s : Pipeline) : Option Pipeline :=
  match s.decrypt with
  | .receiving =>
    match s.decryptQueue with
    | frame :: queue =>
      match frame.decode crypto args.payloadCodec args.transferId args.laneIndex with
      | .error err => some { s with decryptQueue := queue, decrypt := .finished (.error err) }
      | .ok plaintext => some { s with decryptQueue := queue, decrypt := .sending plaintext }
    | [] => if s.reader.connected then none else some { s with decrypt := .finished (.ok ()) }
  | .sending plaintext =>
    if s.writer.finished.isSome then
      some { s with decrypt := .finished (.error "writer stage channel unexpectedly closed") }
    else if s.writerQueue.length < depth args then
      some { s with writerQueue := s.writerQueue ++ [plaintext], decrypt := .receiving }
    else none
  | .finished _ => none

/-- The writer task's next step. -/
def writerStep (s : Pipeline) : Option Pipeline :=
  match s.writer.finished with
  | some _ => none
  | none =>
    match s.writerQueue with
    | chunk :: queue =>
      let file := Bytes.writeAt (args.resumeOffset + s.writer.bytesWritten) chunk s.file
      let bytesWritten := s.writer.bytesWritten + chunk.length
      let sinceUpdate := s.writer.sinceUpdate + chunk.length
      if sinceUpdate ≥ progressUpdateIntervalBytes then
        some { s with
          writerQueue := queue, file := file
          progress := s.progress ++ [args.resumeOffset + bytesWritten]
          writer := ⟨bytesWritten, 0, args.resumeOffset + bytesWritten, none⟩ }
      else
        some { s with
          writerQueue := queue, file := file
          writer := ⟨bytesWritten, sinceUpdate, s.writer.lastDurableOffset, none⟩ }
    | [] =>
      if s.decrypt.isFinished then
        let finalOffset := args.resumeOffset + s.writer.bytesWritten
        some { s with
          progress :=
            if finalOffset > s.writer.lastDurableOffset then s.progress ++ [finalOffset]
            else s.progress
          writer := { s.writer with finished := some s.writer.bytesWritten } }
      else none

/-- A step of one of the tasks, if it can take one. -/
def step? : Stage → Pipeline → Option Pipeline
  | .reader => readerStep args
  | .decrypt => decryptStep crypto args
  | .writer => writerStep args

/-- Some stage moves. -/
def Next (s s' : Pipeline) : Prop := ∃ stage, step? crypto args stage s = some s'

/-- The states the stages lead to, under any schedule. -/
def Reaches : Pipeline → Pipeline → Prop := Relation.ReflTransGen (Next crypto args)

/-! ## Every schedule ends -/

/-- How much a stage still has to do. -/
def Reader.work : Reader → Nat
  | .sending _ => 8
  | .reading => 3
  | .joinDecrypt => 2
  | .joinWriter => 1
  | .returned _ => 0

/-- How many steps the decrypt task has before it at most, for the frame in hand. -/
def Decrypt.work : Decrypt → Nat
  | .sending _ => 4
  | .receiving => 1
  | .finished _ => 0

/-- How much there is to do: bytes to read, frames to open, chunks to write. -/
def work (s : Pipeline) : Nat :=
  s.recvStream.length + s.reader.work + 4 * s.decryptQueue.length + s.decrypt.work +
    2 * s.writerQueue.length + if s.writer.finished.isSome then 0 else 1

variable {crypto args}

theorem length_of_readWirePayloadFrame {stream rest : List UInt8} {frame : WireFrame}
    {payloadCodec : PayloadCodec} {transferId : Uuid} {laneIndex : Nat}
    (h : readWirePayloadFrame stream payloadCodec transferId laneIndex = .ok (frame, rest)) :
    rest.length + appPayloadFrameHeaderBytes ≤ stream.length := by
  obtain ⟨rfl, -, -, -⟩ := of_readWirePayloadFrame h
  simp only [List.length_append, FrameHeader.size]
  omega

theorem work_readerStep {s s' : Pipeline} (h : readerStep args s = some s') :
    s'.work < s.work := by
  unfold readerStep at h
  cases hreader : s.reader with
  | reading =>
    simp only [hreader] at h
    split at h
    · split at h
      · cases h
        simp [work, hreader, Reader.work]
      · rename_i frame rest hread
        have hlen := length_of_readWirePayloadFrame hread
        simp only [appPayloadFrameHeaderBytes] at hlen
        split at h <;> cases h <;> simp only [work, hreader, Reader.work] <;> omega
    · cases h
      simp [work, hreader, Reader.work]
  | sending frame =>
    simp only [hreader] at h
    split at h
    · cases h
      simp [work, hreader, Reader.work]
    · split at h
      · cases h
        simp only [work, hreader, Reader.work, List.length_append, List.length_singleton]
        omega
      · cases h
  | joinDecrypt =>
    simp only [hreader] at h
    split at h <;> cases h <;> simp [work, hreader, Reader.work]
  | joinWriter =>
    simp only [hreader, Option.map_eq_some_iff] at h
    obtain ⟨n, -, rfl⟩ := h
    simp [work, hreader, Reader.work]
  | returned r => simp [hreader] at h

theorem work_decryptStep {s s' : Pipeline} (h : decryptStep crypto args s = some s') :
    s'.work < s.work := by
  unfold decryptStep at h
  cases hdecrypt : s.decrypt with
  | receiving =>
    simp only [hdecrypt] at h
    split at h
    · rename_i frame queue hqueue
      split at h <;> cases h <;>
        simp only [work, hdecrypt, hqueue, Decrypt.work, List.length_cons] <;> omega
    · split at h
      · cases h
      · cases h
        simp only [work, hdecrypt, Decrypt.work]
        omega
  | sending plaintext =>
    simp only [hdecrypt] at h
    split at h
    · cases h
      simp only [work, hdecrypt, Decrypt.work]
      omega
    · split at h
      · cases h
        simp only [work, hdecrypt, Decrypt.work, List.length_append, List.length_singleton]
        omega
      · cases h
  | finished r => simp [hdecrypt] at h

theorem work_writerStep {s s' : Pipeline} (h : writerStep args s = some s') :
    s'.work < s.work := by
  unfold writerStep at h
  cases hfinished : s.writer.finished with
  | some n => simp [hfinished] at h
  | none =>
    simp only [hfinished] at h
    split at h
    · rename_i chunk queue hqueue
      split at h <;> cases h <;> simp [work, hqueue, hfinished]
    · split at h
      · cases h
        simp [work, hfinished]
      · cases h

/-- No schedule goes on forever. -/
theorem wellFounded_next : WellFounded fun s' s => Next crypto args s s' := by
  refine Subrelation.wf ?_ (measure work).wf
  rintro s' s ⟨stage, h⟩
  cases stage with
  | reader => exact work_readerStep h
  | decrypt => exact work_decryptStep h
  | writer => exact work_writerStep h

theorem depth_pos (args : ReceiveLanePipelineArgs) : 0 < depth args := by
  simp only [depth, normalizeReceiveWritePipelineDepth, appReceiveWritePipelineDepthMin,
    appReceiveWritePipelineDepthMax]
  omega

/-- A reader that cannot move waits for the decrypt task or the writer, or has returned. -/
theorem of_readerStep_none {s : Pipeline} (h : readerStep args s = none) :
    (∃ frame, s.reader = .sending frame ∧ s.decrypt.isFinished = false ∧
        s.decryptQueue ≠ []) ∨
      (s.reader = .joinDecrypt ∧ s.decrypt.isFinished = false) ∨
      (s.reader = .joinWriter ∧ s.writer.finished = none) ∨ ∃ r, s.reader = .returned r := by
  unfold readerStep at h
  cases hreader : s.reader with
  | reading =>
    simp only [hreader] at h
    split at h
    · split at h
      · cases h
      · split at h <;> cases h
    · cases h
  | sending frame =>
    simp only [hreader] at h
    split at h
    · cases h
    · rename_i hfinished
      split at h
      · cases h
      · rename_i hfull
        refine .inl ⟨frame, rfl, by simpa using hfinished, ?_⟩
        intro hempty
        exact hfull (by simpa [hempty] using depth_pos args)
  | joinDecrypt =>
    simp only [hreader] at h
    refine .inr (.inl ⟨rfl, ?_⟩)
    cases hdecrypt : s.decrypt with
    | finished r =>
      rcases r with e | ⟨⟩ <;> simp [hdecrypt] at h
    | receiving => rfl
    | sending plaintext => rfl
  | joinWriter =>
    simp only [hreader, Option.map_eq_none_iff] at h
    exact .inr (.inr (.inl ⟨rfl, h⟩))
  | returned r => exact .inr (.inr (.inr ⟨r, rfl⟩))

/-- A decrypt task that cannot move has ended, or waits for the reader or the writer. -/
theorem of_decryptStep_none {s : Pipeline} (h : decryptStep crypto args s = none) :
    s.decrypt.isFinished = true ∨
      (s.decrypt = .receiving ∧ s.decryptQueue = [] ∧ s.reader.connected = true) ∨
      ∃ plaintext, s.decrypt = .sending plaintext ∧ s.writer.finished = none ∧
        s.writerQueue ≠ [] := by
  unfold decryptStep at h
  cases hdecrypt : s.decrypt with
  | receiving =>
    simp only [hdecrypt] at h
    split at h
    · split at h <;> cases h
    · rename_i hqueue
      split at h
      · rename_i hconnected
        exact .inr (.inl ⟨rfl, hqueue, hconnected⟩)
      · cases h
  | sending plaintext =>
    simp only [hdecrypt] at h
    split at h
    · cases h
    · rename_i hfinished
      split at h
      · cases h
      · rename_i hfull
        refine .inr (.inr ⟨plaintext, rfl, by simpa using hfinished, ?_⟩)
        intro hempty
        exact hfull (by simpa [hempty] using depth_pos args)
  | finished r => exact .inl rfl

/-- A writer that cannot move has ended, or waits for the decrypt task. -/
theorem of_writerStep_none {s : Pipeline} (h : writerStep args s = none) :
    s.writer.finished.isSome = true ∨
      (s.writerQueue = [] ∧ s.decrypt.isFinished = false) := by
  unfold writerStep at h
  cases hfinished : s.writer.finished with
  | some n => exact .inl rfl
  | none =>
    simp only [hfinished] at h
    split at h
    · split at h <;> cases h
    · rename_i hqueue
      split at h
      · cases h
      · rename_i hrunning
        exact .inr ⟨hqueue, by simpa using hrunning⟩

/-- **No deadlock**: where no stage can move, the call has returned. -/
theorem returned_of_stuck {s : Pipeline} (h : ∀ stage, step? crypto args stage s = none) :
    ∃ r, s.reader = .returned r := by
  have hreader := of_readerStep_none (h .reader)
  have hdecrypt := of_decryptStep_none (h .decrypt)
  have hwriter := of_writerStep_none (h .writer)
  -- the decrypt task has ended: whatever it could wait for could move
  have hended : s.decrypt.isFinished = true := by
    rcases hdecrypt with hd | ⟨hd, hqueue, hconnected⟩ | ⟨plaintext, hd, hw, hqueue⟩
    · exact hd
    · rcases hreader with ⟨frame, -, -, hne⟩ | ⟨hr, -⟩ | ⟨hr, -⟩ | ⟨r, hr⟩
      · exact absurd hqueue hne
      all_goals simp [hr, Reader.connected] at hconnected
    · rcases hwriter with hfin | ⟨hempty, -⟩
      · simp [hw] at hfin
      · exact absurd hempty hqueue
  have hwritten : s.writer.finished.isSome = true := by
    rcases hwriter with hfin | ⟨-, hrunning⟩
    · exact hfin
    · simp [hended] at hrunning
  rcases hreader with ⟨frame, -, hrunning, -⟩ | ⟨-, hrunning⟩ | ⟨-, hnone⟩ | hr
  · simp [hended] at hrunning
  · simp [hended] at hrunning
  · simp [hnone] at hwritten
  · exact hr

/-! ## What the stages have done so far -/

/-- The frame the reader has read and not yet handed on. -/
def Reader.pending : Reader → List WireFrame
  | .sending frame => [frame]
  | _ => []

/-- The plaintext the decrypt task has opened and not yet handed on. -/
def Decrypt.pending : Decrypt → List (List UInt8)
  | .sending plaintext => [plaintext]
  | _ => []

/-- What became of the frames read so far: those that were opened, the one that
could not be, the plaintexts that were written, and the stream behind all of them. -/
structure Trace where
  opened : List WireFrame
  failed : List WireFrame
  written : List (List UInt8)
  rest : List UInt8

/-- The frames that the reader has taken off the stream, in their order. -/
def Trace.accepted (τ : Trace) (s : Pipeline) : List WireFrame :=
  τ.opened ++ τ.failed ++ s.decryptQueue ++ s.reader.pending

variable (crypto args)

/-- The stream behind the accepted frames does not go on as it should: there is no
further frame, or one that declares too many bytes. -/
def Blocked (accepted : Nat) (rest : List UInt8) : Prop :=
  accepted < args.expectedBytes ∧
    ∀ frame next, readWirePayloadFrame rest args.payloadCodec args.transferId args.laneIndex =
      .ok (frame, next) → args.expectedBytes - accepted < frame.plaintextLen

/-- The state `s` is what the stages have made of `stream` and `file`. -/
structure Follows (stream file : List UInt8) (s : Pipeline) (τ : Trace) : Prop where
  reads : ReadsFrames args.payloadCodec args.transferId args.laneIndex stream (τ.accepted s)
    τ.rest
  recvStream : s.reader.connected = true → s.recvStream = τ.rest ∧ s.readError = none
  opens : Opens crypto args.payloadCodec args.transferId args.laneIndex τ.opened
    (τ.written ++ s.writerQueue ++ s.decrypt.pending)
  bytesReceived : s.bytesReceived = declaredBytes (τ.opened ++ τ.failed ++ s.decryptQueue)
  bound : declaredBytes (τ.accepted s) ≤ args.expectedBytes
  failed : ∀ frame ∈ τ.failed, ∀ plaintext,
    frame.decode crypto args.payloadCodec args.transferId args.laneIndex ≠ .ok plaintext
  running : s.decrypt.isFinished = false → τ.failed = []
  ended : s.decrypt = .finished (.ok ()) →
    τ.failed = [] ∧ s.decryptQueue = [] ∧ s.reader.connected = false
  broken : ∀ err, s.decrypt = .finished (.error err) → τ.failed ≠ []
  stopped : s.reader.connected = false →
    (s.readError = none ∧ s.bytesReceived = args.expectedBytes) ∨
      (s.readError ≠ none ∧
        (τ.failed ≠ [] ∨ Blocked args (declaredBytes (τ.accepted s)) τ.rest))
  joined : s.reader = .joinWriter → s.decrypt = .finished (.ok ())
  file : s.file = Bytes.writeAt args.resumeOffset τ.written.flatten file
  bytesWritten : s.writer.bytesWritten = τ.written.flatten.length
  writerDone : ∀ n, s.writer.finished = some n →
    n = s.writer.bytesWritten ∧ s.writerQueue = [] ∧ s.decrypt.isFinished = true
  returnedOk : ∀ n, s.reader = .returned (.ok n) → n = args.expectedBytes ∧
    s.readError = none ∧ s.decrypt = .finished (.ok ()) ∧ s.writer.finished = some n
  returnedError : ∀ err, s.reader = .returned (.error err) →
    τ.failed ≠ [] ∨ s.readError ≠ none

variable {crypto args} {stream file : List UInt8} {s s' : Pipeline} {τ : Trace}

theorem follows_start (stream file : List UInt8) :
    Follows crypto args stream file (start args stream file) ⟨[], [], [], stream⟩ where
  reads := rfl
  recvStream := fun _ => ⟨rfl, rfl⟩
  opens := opens_nil.2 rfl
  bytesReceived := rfl
  bound := Nat.zero_le _
  failed := by simp
  running := fun _ => rfl
  ended := by simp [start]
  broken := by simp [start]
  stopped := by simp [start, Reader.connected]
  joined := by simp [start]
  file := by simp [start, Bytes.writeAt]
  bytesWritten := rfl
  writerDone := by simp [start]
  returnedOk := by simp [start]
  returnedError := by simp [start]

/-- A decrypt task that has ended while the reader is connected failed on a frame. -/
theorem Follows.failed_of_isFinished (h : Follows crypto args stream file s τ)
    (hfinished : s.decrypt.isFinished = true) (hconnected : s.reader.connected = true) :
    τ.failed ≠ [] := by
  cases hdecrypt : s.decrypt with
  | receiving => simp [hdecrypt, Decrypt.isFinished] at hfinished
  | sending plaintext => simp [hdecrypt, Decrypt.isFinished] at hfinished
  | finished r =>
    cases r with
    | error err => exact h.broken err hdecrypt
    | ok u =>
      have := (h.ended hdecrypt).2.2
      simp [hconnected] at this

/-- When both tasks have ended well, what was received was written. -/
theorem Follows.bytesWritten_eq (h : Follows crypto args stream file s τ) {n : Nat}
    (hdecrypt : s.decrypt = .finished (.ok ())) (hwriter : s.writer.finished = some n) :
    n = s.bytesReceived := by
  obtain ⟨hfailed, hqueue, -⟩ := h.ended hdecrypt
  obtain ⟨rfl, hwqueue, -⟩ := h.writerDone n hwriter
  have hopens := h.opens
  rw [hwqueue, hdecrypt] at hopens
  simp only [Decrypt.pending, List.append_nil] at hopens
  rw [h.bytesWritten, hopens.length, h.bytesReceived, hfailed, hqueue]
  simp

/-- While the reader is connected the decrypt task has not ended well. -/
theorem Follows.not_ended (h : Follows crypto args stream file s τ)
    (hconnected : s.reader.connected = true) : s.decrypt ≠ .finished (.ok ()) := by
  intro hd
  have := (h.ended hd).2.2
  simp [hconnected] at this

/-- The reader stops: everything but the reader is as it was. -/
theorem Follows.stops (h : Follows crypto args stream file s τ) (hreader : s.reader = .reading)
    {rest : List UInt8} {readError : Option String}
    (hwhy : readError = none ∧ s.bytesReceived = args.expectedBytes ∨
      readError ≠ none ∧ Blocked args (declaredBytes (τ.accepted s)) τ.rest) :
    Follows crypto args stream file
      { s with recvStream := rest, readError := readError, reader := .joinDecrypt } τ := by
  have hconnected : s.reader.connected = true := by rw [hreader]; rfl
  have hsame : τ.accepted { s with
      recvStream := rest, readError := readError, reader := .joinDecrypt } = τ.accepted s := by
    simp [Trace.accepted, hreader, Reader.pending]
  exact { h with
    reads := by rw [hsame]; exact h.reads
    recvStream := by simp [Reader.connected]
    bound := by rw [hsame]; exact h.bound
    ended := fun hd => absurd hd (h.not_ended hconnected)
    stopped := fun _ => by
      rw [hsame]
      rcases hwhy with hall | ⟨herr, hblocked⟩
      · exact .inl hall
      · exact .inr ⟨herr, .inr hblocked⟩
    joined := by simp
    returnedOk := by simp
    returnedError := by simp }

/-- The reader reads a frame that fits. -/
theorem Follows.reads_frame (h : Follows crypto args stream file s τ)
    (hreader : s.reader = .reading) {frame : WireFrame} {next : List UInt8}
    (hread : readWirePayloadFrame s.recvStream args.payloadCodec args.transferId args.laneIndex =
      .ok (frame, next))
    (hfits : s.bytesReceived + frame.plaintextLen ≤ args.expectedBytes) :
    Follows crypto args stream file { s with recvStream := next, reader := .sending frame }
      { τ with rest := next } := by
  have hconnected : s.reader.connected = true := by rw [hreader]; rfl
  obtain ⟨hstream, hnone⟩ := h.recvStream hconnected
  have haccepted : τ.accepted s = τ.opened ++ τ.failed ++ s.decryptQueue := by
    simp [Trace.accepted, hreader, Reader.pending]
  have hnext : ({ τ with rest := next } : Trace).accepted
      { s with recvStream := next, reader := .sending frame } = τ.accepted s ++ [frame] := by
    rw [haccepted]
    simp [Trace.accepted, Reader.pending]
  exact { h with
    reads := by
      rw [hnext]
      exact h.reads.append ⟨next, by rw [← hstream]; exact hread, rfl⟩
    recvStream := fun _ => ⟨rfl, hnone⟩
    bound := by
      rw [hnext, declaredBytes_append, haccepted, ← h.bytesReceived]
      simp only [declaredBytes_cons, declaredBytes_nil]
      omega
    ended := fun hd => absurd hd (h.not_ended hconnected)
    stopped := by simp [Reader.connected]
    joined := by simp
    returnedOk := by simp
    returnedError := by simp }

/-- The reader finds the channel closed: the frame in its hands is lost. -/
theorem Follows.loses_frame (h : Follows crypto args stream file s τ) {frame : WireFrame}
    (hreader : s.reader = .sending frame) (hfinished : s.decrypt.isFinished = true) :
    ∃ rest, Follows crypto args stream file
      { s with readError := some (closedMessage args), reader := .joinDecrypt }
      { τ with rest := rest } := by
  have hconnected : s.reader.connected = true := by rw [hreader]; rfl
  have haccepted : τ.accepted s = τ.opened ++ τ.failed ++ s.decryptQueue ++ [frame] := by
    simp [Trace.accepted, hreader, Reader.pending]
  have hbound := h.bound
  have hreads := h.reads
  rw [haccepted] at hbound hreads
  obtain ⟨mid, hleft, -⟩ := hreads.left
  have hnext : ({ τ with rest := mid } : Trace).accepted
      { s with readError := some (closedMessage args), reader := .joinDecrypt } =
      τ.opened ++ τ.failed ++ s.decryptQueue := by
    simp [Trace.accepted, Reader.pending]
  have hfailed := h.failed_of_isFinished hfinished hconnected
  exact ⟨mid, { h with
    reads := by rw [hnext]; exact hleft
    recvStream := by simp [Reader.connected]
    bound := by
      rw [hnext]
      rw [declaredBytes_append] at hbound
      omega
    ended := fun hd => absurd hd (h.not_ended hconnected)
    stopped := fun _ => .inr ⟨by simp, .inl hfailed⟩
    joined := by simp
    returnedOk := by simp
    returnedError := by simp }⟩

/-- The reader hands the frame on. -/
theorem Follows.hands_on (h : Follows crypto args stream file s τ) {frame : WireFrame}
    (hreader : s.reader = .sending frame) :
    Follows crypto args stream file { s with
      decryptQueue := s.decryptQueue ++ [frame], reader := .reading
      bytesReceived := s.bytesReceived + frame.plaintextLen } τ := by
  have hconnected : s.reader.connected = true := by rw [hreader]; rfl
  have hnext : τ.accepted { s with
      decryptQueue := s.decryptQueue ++ [frame], reader := .reading
      bytesReceived := s.bytesReceived + frame.plaintextLen } = τ.accepted s := by
    simp [Trace.accepted, hreader, Reader.pending]
  exact { h with
    reads := by rw [hnext]; exact h.reads
    recvStream := fun _ => h.recvStream hconnected
    bytesReceived := by
      show s.bytesReceived + frame.plaintextLen = _
      rw [h.bytesReceived]
      simp only [declaredBytes_append, declaredBytes_cons, declaredBytes_nil]
      omega
    bound := by rw [hnext]; exact h.bound
    ended := fun hd => absurd hd (h.not_ended hconnected)
    stopped := by simp [Reader.connected]
    joined := by simp
    returnedOk := by simp
    returnedError := by simp }

/-- The reader goes on to the next join: everything but the reader is as it was. -/
theorem Follows.joins (h : Follows crypto args stream file s τ) (hreader : s.reader = .joinDecrypt)
    {reader : Reader} (hconn : reader.connected = false) (hpending : reader.pending = [])
    (hjoined : reader = .joinWriter → s.decrypt = .finished (.ok ()))
    (hok : ∀ n, reader ≠ .returned (.ok n))
    (herr : ∀ err, reader = .returned (.error err) → τ.failed ≠ []) :
    Follows crypto args stream file { s with reader := reader } τ := by
  have hconnected : s.reader.connected = false := by rw [hreader]; rfl
  have hsame : τ.accepted { s with reader := reader } = τ.accepted s := by
    rw [Trace.accepted, Trace.accepted, hpending, hreader]
    rfl
  exact { h with
    reads := by rw [hsame]; exact h.reads
    recvStream := by simp [hconn]
    bound := by rw [hsame]; exact h.bound
    ended := fun hd => ⟨(h.ended hd).1, (h.ended hd).2.1, hconn⟩
    stopped := fun _ => by rw [hsame]; exact h.stopped hconnected
    joined := hjoined
    returnedOk := fun n hr => absurd hr (hok n)
    returnedError := fun err hr => .inl (herr err hr) }

/-- The call returns. -/
theorem Follows.returns (h : Follows crypto args stream file s τ) (hreader : s.reader = .joinWriter)
    {n : Nat} (hwriter : s.writer.finished = some n) :
    Follows crypto args stream file
      { s with reader := .returned (result args s.bytesReceived n s.readError) } τ := by
  have hconnected : s.reader.connected = false := by rw [hreader]; rfl
  have hdecrypt := h.joined hreader
  have hn := h.bytesWritten_eq hdecrypt hwriter
  have hresult : (s.readError ≠ none ∧
        ∃ err, result args s.bytesReceived n s.readError = .error err) ∨
      (s.readError = none ∧ n = args.expectedBytes ∧
        result args s.bytesReceived n s.readError = .ok n) := by
    rcases h.stopped hconnected with ⟨hnone, hall⟩ | ⟨herr, -⟩
    · refine .inr ⟨hnone, by omega, ?_⟩
      rw [hnone, result, if_neg (by omega), if_neg (by omega)]
    · refine .inl ⟨herr, ?_⟩
      cases hreadError : s.readError with
      | none => exact absurd hreadError herr
      | some err => exact ⟨err, rfl⟩
  have hsame : τ.accepted { s with
      reader := .returned (result args s.bytesReceived n s.readError) } = τ.accepted s := by
    simp [Trace.accepted, hreader, Reader.pending]
  exact { h with
    reads := by rw [hsame]; exact h.reads
    recvStream := by simp [Reader.connected]
    bound := by rw [hsame]; exact h.bound
    ended := fun hd => ⟨(h.ended hd).1, (h.ended hd).2.1, rfl⟩
    stopped := fun _ => by rw [hsame]; exact h.stopped hconnected
    joined := by simp
    returnedOk := by
      intro m hm
      simp only [Reader.returned.injEq] at hm
      rcases hresult with ⟨-, err, herr⟩ | ⟨hnone, hexp, hok⟩
      · rw [herr] at hm
        cases hm
      · rw [hok] at hm
        cases hm
        exact ⟨hexp, hnone, hdecrypt, hwriter⟩
    returnedError := by
      intro err hm
      simp only [Reader.returned.injEq] at hm
      rcases hresult with ⟨hne, -⟩ | ⟨-, -, hok⟩
      · exact .inr hne
      · rw [hok] at hm
        cases hm }

theorem Follows.reader (h : Follows crypto args stream file s τ)
    (hstep : readerStep args s = some s') : ∃ τ', Follows crypto args stream file s' τ' := by
  unfold readerStep at hstep
  cases hreader : s.reader with
  | reading =>
    obtain ⟨hstream, hnone⟩ := h.recvStream (by rw [hreader]; rfl)
    have hreceived : declaredBytes (τ.accepted s) = s.bytesReceived := by
      rw [h.bytesReceived]
      simp [Trace.accepted, hreader, Reader.pending]
    simp only [hreader] at hstep
    split at hstep
    · rename_i hlt
      split at hstep
      · rename_i err hread
        cases hstep
        refine ⟨τ, h.stops hreader (.inr ⟨by simp, by rw [hreceived]; exact hlt, ?_⟩)⟩
        intro frame next hok
        rw [← hstream, hread] at hok
        cases hok
      · rename_i frame next hread
        split at hstep
        · rename_i hover
          cases hstep
          refine ⟨τ, h.stops hreader (.inr ⟨by simp, by rw [hreceived]; exact hlt, ?_⟩)⟩
          intro frame' next' hok
          rw [← hstream, hread] at hok
          cases hok
          rw [hreceived]
          exact hover
        · rename_i hfits
          cases hstep
          exact ⟨_, h.reads_frame hreader hread (by omega)⟩
    · rename_i hall
      cases hstep
      have hbound := h.bound
      rw [hreceived] at hbound
      exact ⟨τ, h.stops hreader (.inl ⟨hnone, by omega⟩)⟩
  | sending frame =>
    simp only [hreader] at hstep
    split at hstep
    · rename_i hfinished
      cases hstep
      obtain ⟨rest, hlost⟩ := h.loses_frame hreader hfinished
      exact ⟨_, hlost⟩
    · split at hstep
      · cases hstep
        exact ⟨τ, h.hands_on hreader⟩
      · cases hstep
  | joinDecrypt =>
    simp only [hreader] at hstep
    split at hstep
    · rename_i err hdecrypt
      cases hstep
      exact ⟨τ, h.joins hreader rfl rfl (by simp) (by simp) fun _ _ => h.broken err hdecrypt⟩
    · rename_i hdecrypt
      cases hstep
      exact ⟨τ, h.joins hreader rfl rfl (fun _ => hdecrypt) (by simp) (by simp)⟩
    · cases hstep
  | joinWriter =>
    simp only [hreader, Option.map_eq_some_iff] at hstep
    obtain ⟨n, hwriter, rfl⟩ := hstep
    exact ⟨τ, h.returns hreader hwriter⟩
  | returned r => simp [hreader] at hstep

/-- While the decrypt task runs, the writer does, nothing has failed, and the call has not
returned. -/
theorem Follows.of_running (h : Follows crypto args stream file s τ)
    (hrunning : s.decrypt.isFinished = false) :
    τ.failed = [] ∧ (∀ n, s.writer.finished ≠ some n) ∧ s.reader ≠ .joinWriter ∧
      ∀ n, s.reader ≠ .returned (.ok n) := by
  have hnot : s.decrypt ≠ .finished (.ok ()) := by
    intro hd
    rw [hd] at hrunning
    cases hrunning
  refine ⟨h.running hrunning, fun n hn => ?_, fun hr => hnot (h.joined hr),
    fun n hr => hnot (h.returnedOk n hr).2.2.1⟩
  rw [(h.writerDone n hn).2.2] at hrunning
  cases hrunning

/-- The decrypt task takes a frame that does not open, and ends. -/
theorem Follows.fails_frame (h : Follows crypto args stream file s τ)
    (hdecrypt : s.decrypt = .receiving) {frame : WireFrame} {queue : List WireFrame}
    (hqueue : s.decryptQueue = frame :: queue) {err : String}
    (hdec : frame.decode crypto args.payloadCodec args.transferId args.laneIndex = .error err) :
    Follows crypto args stream file
      { s with decryptQueue := queue, decrypt := .finished (.error err) }
      { τ with failed := [frame] } := by
  obtain ⟨hfailed, hwriter, hjoin, hreturned⟩ := h.of_running (by rw [hdecrypt]; rfl)
  have hopens := h.opens
  rw [hdecrypt] at hopens
  have hsame : ({ τ with failed := [frame] } : Trace).accepted
      { s with decryptQueue := queue, decrypt := .finished (.error err) } = τ.accepted s := by
    simp [Trace.accepted, hfailed, hqueue]
  exact { h with
    reads := by rw [hsame]; exact h.reads
    opens := by simpa [Decrypt.pending] using hopens
    bytesReceived := by
      show s.bytesReceived = _
      rw [h.bytesReceived, hfailed, hqueue]
      simp
    bound := by rw [hsame]; exact h.bound
    failed := by
      intro frame' hmem plaintext hok
      rw [List.mem_singleton.1 hmem, hdec] at hok
      cases hok
    running := by simp [Decrypt.isFinished]
    ended := by simp
    broken := by simp
    stopped := fun hc => by
      rcases h.stopped hc with hall | ⟨hne, -⟩
      · exact .inl hall
      · exact .inr ⟨hne, .inl (by simp)⟩
    joined := fun hr => absurd hr hjoin
    writerDone := fun n hn => absurd hn (hwriter n)
    returnedOk := fun n hn => absurd hn (hreturned n)
    returnedError := fun _ _ => .inl (by simp) }

/-- The decrypt task takes a frame and opens it. -/
theorem Follows.opens_frame (h : Follows crypto args stream file s τ)
    (hdecrypt : s.decrypt = .receiving) {frame : WireFrame} {queue : List WireFrame}
    (hqueue : s.decryptQueue = frame :: queue) {plaintext : List UInt8}
    (hdec : frame.decode crypto args.payloadCodec args.transferId args.laneIndex =
      .ok plaintext) :
    Follows crypto args stream file
      { s with decryptQueue := queue, decrypt := .sending plaintext }
      { τ with opened := τ.opened ++ [frame] } := by
  obtain ⟨hfailed, hwriter, hjoin, hreturned⟩ := h.of_running (by rw [hdecrypt]; rfl)
  have hopens := h.opens
  rw [hdecrypt] at hopens
  have hsame : ({ τ with opened := τ.opened ++ [frame] } : Trace).accepted
      { s with decryptQueue := queue, decrypt := .sending plaintext } = τ.accepted s := by
    simp [Trace.accepted, hfailed, hqueue]
  exact { h with
    reads := by rw [hsame]; exact h.reads
    opens := by
      simp only [Opens, Decrypt.pending, List.append_nil, List.map_append, List.map_cons,
        List.map_nil, hdec] at hopens ⊢
      rw [hopens]
    bytesReceived := by
      show s.bytesReceived = _
      rw [h.bytesReceived, hfailed, hqueue]
      simp
    bound := by rw [hsame]; exact h.bound
    running := fun _ => hfailed
    ended := by simp
    broken := by simp
    stopped := fun hc => by rw [hsame]; exact h.stopped hc
    joined := fun hr => absurd hr hjoin
    writerDone := fun n hn => absurd hn (hwriter n)
    returnedOk := fun n hn => absurd hn (hreturned n) }

/-- The decrypt task goes on, or ends well, without having taken a frame. -/
theorem Follows.decrypts (h : Follows crypto args stream file s τ)
    (hrunning : s.decrypt.isFinished = false) {decrypt : Decrypt} {queue : List (List UInt8)}
    (hpending : queue ++ decrypt.pending = s.writerQueue ++ s.decrypt.pending)
    (hended : decrypt = .finished (.ok ()) → s.decryptQueue = [] ∧ s.reader.connected = false)
    (hsound : ∀ err, decrypt ≠ .finished (.error err)) :
    Follows crypto args stream file { s with writerQueue := queue, decrypt := decrypt } τ := by
  obtain ⟨hfailed, hwriter, hjoin, hreturned⟩ := h.of_running hrunning
  have hopens := h.opens
  rw [List.append_assoc, ← hpending, ← List.append_assoc] at hopens
  exact { h with
    opens := hopens
    running := fun _ => hfailed
    ended := fun hd => ⟨hfailed, hended hd⟩
    broken := fun err hd => absurd hd (hsound err)
    joined := fun hr => absurd hr hjoin
    writerDone := fun n hn => absurd hn (hwriter n)
    returnedOk := fun n hn => absurd hn (hreturned n) }

theorem Follows.decrypt (h : Follows crypto args stream file s τ)
    (hstep : decryptStep crypto args s = some s') :
    ∃ τ', Follows crypto args stream file s' τ' := by
  unfold decryptStep at hstep
  cases hdecrypt : s.decrypt with
  | receiving =>
    simp only [hdecrypt] at hstep
    split at hstep
    · rename_i frame queue hqueue
      split at hstep
      · rename_i err hdec
        cases hstep
        exact ⟨_, h.fails_frame hdecrypt hqueue hdec⟩
      · rename_i plaintext hdec
        cases hstep
        exact ⟨_, h.opens_frame hdecrypt hqueue hdec⟩
    · rename_i hqueue
      split at hstep
      · cases hstep
      · rename_i hclosed
        cases hstep
        exact ⟨τ, h.decrypts (by rw [hdecrypt]; rfl) (by rw [hdecrypt]; rfl)
          (fun _ => ⟨hqueue, by simpa using hclosed⟩) (by simp)⟩
  | sending plaintext =>
    have hrunning : s.decrypt.isFinished = false := by rw [hdecrypt]; rfl
    obtain ⟨-, hwriter, -⟩ := h.of_running hrunning
    simp only [hdecrypt] at hstep
    split at hstep
    · rename_i hsome
      obtain ⟨n, hn⟩ := Option.isSome_iff_exists.1 hsome
      exact absurd hn (hwriter n)
    · split at hstep
      · cases hstep
        exact ⟨τ, h.decrypts hrunning (by rw [hdecrypt]; simp [Decrypt.pending]) (by simp)
          (by simp)⟩
      · cases hstep
  | finished r => simp [hdecrypt] at hstep

theorem Follows.writer (h : Follows crypto args stream file s τ)
    (hstep : writerStep args s = some s') : ∃ τ', Follows crypto args stream file s' τ' := by
  unfold writerStep at hstep
  cases hfinished : s.writer.finished with
  | some n => simp [hfinished] at hstep
  | none =>
    simp only [hfinished] at hstep
    split at hstep
    · rename_i chunk queue hqueue
      -- whether the writer reports progress or not, the chunk is now in the file
      have hwrite : ∀ w progress, w.bytesWritten = s.writer.bytesWritten + chunk.length →
          w.finished = none →
          Follows crypto args stream file { s with
            writerQueue := queue, progress := progress, writer := w
            file := Bytes.writeAt (args.resumeOffset + s.writer.bytesWritten) chunk s.file }
            { τ with written := τ.written ++ [chunk] } := by
        intro w progress hbytes hw
        exact { h with
          opens := by
            have hopens := h.opens
            rw [hqueue] at hopens
            simpa using hopens
          file := by
            show Bytes.writeAt (args.resumeOffset + s.writer.bytesWritten) chunk s.file = _
            rw [h.file, h.bytesWritten, Bytes.writeAt_append]
            simp
          bytesWritten := by
            show w.bytesWritten = _
            rw [hbytes, h.bytesWritten]
            simp
          writerDone := fun n hn => by simp [hw] at hn
          returnedOk := fun n hn => by
            have := (h.returnedOk n hn).2.2.2
            simp [hfinished] at this }
      split at hstep
      · cases hstep
        exact ⟨_, hwrite _ _ rfl rfl⟩
      · cases hstep
        exact ⟨_, hwrite _ _ rfl rfl⟩
    · rename_i hqueue
      split at hstep
      · rename_i hended
        cases hstep
        exact ⟨τ, { h with
          writerDone := fun n hn => ⟨(Option.some.inj hn).symm, hqueue, hended⟩
          returnedOk := fun n hn => by
            have := (h.returnedOk n hn).2.2.2
            simp [hfinished] at this }⟩
      · cases hstep

/-- Every state the stages lead to is what they have made of the stream and the file. -/
theorem follows_of_reaches (h : Reaches crypto args (start args stream file) s) :
    ∃ τ, Follows crypto args stream file s τ := by
  induction h with
  | refl => exact ⟨_, follows_start stream file⟩
  | tail _ hnext ih =>
    obtain ⟨τ, hτ⟩ := ih
    obtain ⟨stage, hstep⟩ := hnext
    cases stage with
    | reader => exact hτ.reader hstep
    | decrypt => exact hτ.decrypt hstep
    | writer => exact hτ.writer hstep

/-! ## The two paths agree -/

/-- A call that returned `Ok` has written what the plain loop receives. -/
theorem Follows.received_of_returned (h : Follows crypto args stream file s τ) {n : Nat}
    (hreturned : s.reader = .returned (.ok n)) :
    receiveLanePayloadNoDisk crypto stream args.expectedBytes args.transferId args.laneIndex
      args.payloadCodec = .ok (n, τ.written.flatten, τ.rest) := by
  obtain ⟨hn, -, hdecrypt, hwriter⟩ := h.returnedOk n hreturned
  obtain ⟨hfailed, hqueue, -⟩ := h.ended hdecrypt
  obtain ⟨-, hwqueue, -⟩ := h.writerDone n hwriter
  have haccepted : τ.accepted s = τ.opened := by
    simp [Trace.accepted, hfailed, hqueue, hreturned, Reader.pending]
  have hreads := h.reads
  rw [haccepted] at hreads
  have hopens := h.opens
  rw [hwqueue, hdecrypt] at hopens
  simp only [Decrypt.pending, List.append_nil] at hopens
  have hbytes := h.bytesReceived
  rw [← h.bytesWritten_eq hdecrypt hwriter, hfailed, hqueue, List.append_nil,
    List.append_nil] at hbytes
  exact receiveLanePayloadNoDisk_eq_ok.2
    ⟨hn, τ.opened, τ.written, hreads, hopens, rfl, by rw [← hbytes, hn]⟩

/-- A call that returned an error stands before a stream that the plain loop rejects. -/
theorem Follows.not_received_of_returned (h : Follows crypto args stream file s τ) {err : String}
    (hreturned : s.reader = .returned (.error err)) {n : Nat} {received rest : List UInt8} :
    receiveLanePayloadNoDisk crypto stream args.expectedBytes args.transferId args.laneIndex
      args.payloadCodec ≠ .ok (n, received, rest) := by
  intro hreceived
  obtain ⟨-, frames, plaintexts, hreads, hopens, -, hsum⟩ :=
    receiveLanePayloadNoDisk_eq_ok.1 hreceived
  have hle : declaredBytes (τ.accepted s) ≤ declaredBytes frames := by
    rw [hsum]
    exact h.bound
  obtain ⟨more, rfl, hmore⟩ := h.reads.comparable hreads hle
  have hwhy : τ.failed ≠ [] ∨ Blocked args (declaredBytes (τ.accepted s)) τ.rest := by
    rcases h.returnedError err hreturned with hfailed | hreadError
    · exact .inl hfailed
    · rcases h.stopped (by rw [hreturned]; rfl) with ⟨hnone, -⟩ | ⟨-, hwhy⟩
      · exact absurd hnone hreadError
      · exact hwhy
  rcases hwhy with hfailed | ⟨hlt, hblocked⟩
  · -- the frame that did not open is among those that all open
    obtain ⟨frame, hframe⟩ := List.exists_mem_of_ne_nil _ hfailed
    have hmem : frame ∈ τ.accepted s ++ more := by simp [Trace.accepted, hframe]
    obtain ⟨plaintext, hok⟩ := hopens.decode_of_mem hmem
    exact h.failed frame hframe plaintext hok
  · -- the next frame of the stream is there and fits
    rw [declaredBytes_append] at hsum
    cases more with
    | nil =>
      simp only [declaredBytes_nil, Nat.add_zero] at hsum
      omega
    | cons frame more =>
      obtain ⟨next, hread, -⟩ := hmore
      have := hblocked frame next hread
      rw [declaredBytes_cons] at hsum
      omega

/-- **The two receive paths agree** on every stream and under every schedule: every
schedule ends with the call returned; it returns `Ok(n)` exactly when the plain
loop does, and then `n` is `expected_bytes`; and the file is always what it was,
with the plaintexts of the stream's first frames written at the resume offset, of
all the frames that make up the lane when the result is `Ok`, and never past the
lane's end. -/
theorem pipelined_agrees (crypto : AeadCrypto) (args : ReceiveLanePipelineArgs)
    (stream file : List UInt8) :
    (WellFounded fun s' s => Next crypto args s s') ∧
    ∀ s, Reaches crypto args (start args stream file) s →
      ((∀ s', ¬ Next crypto args s s') → ∃ r, s.reader = .returned r) ∧
      (∀ r, s.reader = .returned r → ∀ n, r = .ok n ↔
        n = args.expectedBytes ∧ ∃ received rest,
          receiveLanePayloadNoDisk crypto stream args.expectedBytes args.transferId
            args.laneIndex args.payloadCodec = .ok (n, received, rest)) ∧
      (∀ p < file.length,
        p < args.resumeOffset ∨ args.resumeOffset + args.expectedBytes ≤ p →
        s.file[p]? = file[p]?) ∧
      s.file.length ≤ max file.length (args.resumeOffset + args.expectedBytes) ∧
      ∃ frames plaintexts rest,
        ReadsFrames args.payloadCodec args.transferId args.laneIndex stream frames rest ∧
        Opens crypto args.payloadCodec args.transferId args.laneIndex frames plaintexts ∧
        s.file = Bytes.writeAt args.resumeOffset plaintexts.flatten file ∧
        ∀ n, s.reader = .returned (.ok n) →
          receiveLanePayloadNoDisk crypto stream args.expectedBytes args.transferId
            args.laneIndex args.payloadCodec = .ok (n, plaintexts.flatten, rest) := by
  refine ⟨wellFounded_next, fun s hreaches => ?_⟩
  obtain ⟨τ, h⟩ := follows_of_reaches hreaches
  -- the frames whose plaintexts are in the file
  have hopens : Opens crypto args.payloadCodec args.transferId args.laneIndex
      (τ.opened.take τ.written.length) τ.written := by
    have := h.opens
    rw [List.append_assoc] at this
    exact this.take
  have haccepted : τ.accepted s = τ.opened.take τ.written.length ++
      (τ.opened.drop τ.written.length ++ τ.failed ++ s.decryptQueue ++ s.reader.pending) := by
    simp only [← List.append_assoc, List.take_append_drop]
    rfl
  have hlen : τ.written.flatten.length ≤ args.expectedBytes := by
    have hbound := h.bound
    rw [haccepted, declaredBytes_append] at hbound
    rw [hopens.length]
    omega
  refine ⟨?_, ?_, ?_, ?_, ?_⟩
  · intro hstuck
    refine @returned_of_stuck crypto args s fun stage => ?_
    cases hstep : step? crypto args stage s with
    | none => rfl
    | some s' => exact absurd ⟨stage, hstep⟩ (hstuck s')
  · intro r hr n
    constructor
    · rintro rfl
      exact ⟨(h.returnedOk n hr).1, _, _, h.received_of_returned hr⟩
    · rintro ⟨rfl, received, rest, hreceived⟩
      cases r with
      | ok m => rw [(h.returnedOk m hr).1]
      | error err => exact absurd hreceived (h.not_received_of_returned hr)
  · intro p hp hout
    rw [h.file]
    exact Bytes.getElem?_writeAt_outside hp (by omega)
  · rw [h.file]
    exact Bytes.length_writeAt_le (by omega) (by omega)
  · by_cases hreturned : ∃ n, s.reader = .returned (.ok n)
    · obtain ⟨n, hn⟩ := hreturned
      have hreceived := h.received_of_returned hn
      obtain ⟨-, frames, plaintexts, hreads, hall, hflat, -⟩ :=
        receiveLanePayloadNoDisk_eq_ok.1 hreceived
      refine ⟨frames, plaintexts, τ.rest, hreads, hall, by rw [h.file, hflat], ?_⟩
      intro m hm
      rw [hn] at hm
      cases hm
      rw [hreceived, hflat]
    · have hreads := h.reads
      rw [haccepted] at hreads
      obtain ⟨mid, hleft, -⟩ := hreads.left
      exact ⟨_, τ.written, mid, hleft, hopens, h.file, fun n hn => absurd ⟨n, hn⟩ hreturned⟩

end Pipeline

end Metra
