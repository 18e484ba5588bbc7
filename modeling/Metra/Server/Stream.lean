import Metra.CheckpointFile
import Metra.Receive.Lane
import Metra.Receive.Pipeline
import Metra.Server.State

/-!
# The tasks of a lane stream

`handle_quic_stream` and everything it calls, as programs over the operations of
`State.lean`: opening the lane, receiving its payload, recording the progress,
finalizing the transfer, and marking it as failed when the stream fails.

* The reader and the decrypt stage only turn the byte stream into chunks
  (`Receive/Lane.lean`); the writer is a task of its own, since it goes on when
  the stream fails on a frame that does not open.
* What arrives on the stream may depend on the resume offset that the server has
  acknowledged.
* Metrics, log messages and the time stamps are left out.
-/

namespace Metra.Server

open Interleave

/-- What a stream works with: the ciphers, and its paths as they are displayed. -/
structure Context where
  crypto : AeadCrypto
  tenantDir : String
  staging : String
  final : String
  checkpoint : String
  store : String

/-- The open message of a stream, and the bytes that follow it once the server has
acknowledged a resume offset. -/
structure LaneStream where
  request : QuicTransferOpen
  incoming : Nat → List UInt8

/-- The programs of the server's tasks. -/
abbrev Task.Program (α : Type) : Type := TryProg Op Op.Reply String α

/-- One operation of the server. -/
def perform (o : Op) : Prog Op Op.Reply o.Reply := Prog.perform o

/-- An operation, with the context its error gets. -/
def fallible {α : Type} (context : String) (p : Prog Op Op.Reply (Option α)) : Task.Program α :=
  TryProg.orFail context p

/-! ## Admission -/

/-- What the server works out from an open message alone. -/
structure Admission where
  totalLanes : Nat
  rangeStart : Nat
  rangeEndExclusive : Nat
  striped : Bool
  payloadCodec : PayloadCodec
  receiveWritePipelineDepth : Nat

/-- The number of lanes of an open message; none counts as one. -/
def requestedLanes (request : QuicTransferOpen) : Nat := max request.totalLanes 1

/-- Where the range of an open message ends; 0 stands for the end of the file. -/
def requestedEnd (request : QuicTransferOpen) : Nat :=
  if request.rangeEndExclusive = 0 then request.fileSizeBytes else request.rangeEndExclusive

/-- A stream of several lanes, or of a part of the file, works with the checkpoint. -/
def isStriped (request : QuicTransferOpen) : Bool :=
  requestedLanes request > 1 || request.rangeStart != 0 ||
    requestedEnd request != request.fileSizeBytes

/-- What the handler checks of the open message itself, before it looks at the transfer. -/
def admitRequest (request : QuicTransferOpen) : Except String Admission :=
  if requestedLanes request > transferLanesMax then
    .error s!"total_lanes {requestedLanes request} exceeds max {transferLanesMax}"
  else if request.laneIndex ≥ requestedLanes request then
    .error s!"invalid lane index {request.laneIndex} of {requestedLanes request}"
  else if request.rangeStart ≥ requestedEnd request ∨
      requestedEnd request > request.fileSizeBytes then
    .error (s!"invalid range {request.rangeStart}..{requestedEnd request} for file size " ++
      s!"{request.fileSizeBytes}")
  else
    match PayloadCodec.fromWire request.payloadCodec with
    | none =>
      .error (s!"unsupported payload codec '{request.payloadCodec}' for transfer " ++
        s!"{request.transferId} lane {request.laneIndex}")
    | some payloadCodec => .ok
      { totalLanes := requestedLanes request
        rangeStart := request.rangeStart
        rangeEndExclusive := requestedEnd request
        striped := isStriped request
        payloadCodec := payloadCodec
        receiveWritePipelineDepth :=
          normalizeReceiveWritePipelineDepth request.receiveWritePipelineDepth }

/-- The checks of an open message against the transfer it names. -/
def matchTransfer (request : QuicTransferOpen) (transfer : TransferSummary) :
    Except String Unit :=
  if request.transferId ≠ transfer.transferId then
    .error s!"unknown transfer_id {request.transferId}"
  else if request.fileSizeBytes ≠ transfer.fileSizeBytes then
    .error (s!"file_size mismatch: open={request.fileSizeBytes} " ++
      s!"transfer={transfer.fileSizeBytes}")
  else if request.resumeChunkSizeBytes ≠ transfer.resumeChunkSizeBytes then
    .error (s!"resume_chunk_size mismatch: open={request.resumeChunkSizeBytes} " ++
      s!"transfer={transfer.resumeChunkSizeBytes}")
  else if !isValidStorageIdSegment transfer.tenantId then
    .error s!"transfer has invalid tenant_id '{transfer.tenantId}'"
  else if !isValidStorageIdSegment transfer.userId then
    .error s!"transfer has invalid user_id '{transfer.userId}'"
  else .ok ()

/-- Destinations whose payload is dropped. -/
def isNullSinkUri (uri : String) : Bool :=
  "null://".isPrefixOf uri || "memory://".isPrefixOf uri || "mem://".isPrefixOf uri

/-! ## Locks and leases -/

/-- Look the lock up, wait for it, and release it whatever `body` comes to. -/
def withLock {α : Type} (kind : LockKind) (body : Task.Program α) : Task.Program α :=
  (do perform (.lockFor kind)
      perform (.lock kind)
      let result ← body.toProg
      perform (.unlock kind)
      pure result : Prog Op Op.Reply (Except String α))

/-- `LaneWriterLeaseGuard`: `body` runs with the lane's lease, or not at all. -/
def withLaneWriterLease (transferId : Uuid) (laneIndex : Nat) (body : Task.Program Unit) :
    Task.Program Unit :=
  Prog.bind (perform (.tryAcquireLaneWriter laneIndex)) fun
    | false =>
      TryProg.fail s!"lane {laneIndex} for transfer {transferId} already has an active writer"
    | true =>
      (do let result ← body.toProg
          perform (.releaseLaneWriter laneIndex)
          pure result : Prog Op Op.Reply (Except String Unit))

section

variable (ctx : Context)

/-! ## The checkpoint -/

/-- Read the checkpoint file, in the section of its lock. -/
def loadCheckpointUnlocked : Task.Program TransferCheckpoint :=
  fallible s!"failed reading checkpoint file {ctx.checkpoint}" (perform .readCheckpoint)

/-- The calls to the checkpoint file, each of which may fail. -/
def checkpointIo : CheckpointIo Op Op.Reply where
  tryExists := fallible "I/O error" (perform .checkpointExists)
  load := loadCheckpointUnlocked ctx
  persist checkpoint :=
    fallible s!"failed atomically replacing checkpoint {ctx.checkpoint}"
      (perform (.persistCheckpoint checkpoint))

/-- Under the checkpoint lock: the checkpoint is loaded or made, and the lane's resume offset found.
-/
def loadOrInitLaneResume (transferId : Uuid)
    (fileSizeBytes totalLanes laneIndex rangeStart rangeEndExclusive : Nat) :
    Task.Program (Nat × Nat) :=
  withLock .checkpoint (loadOrInitLaneResumeUnlocked (checkpointIo ctx) transferId fileSizeBytes
    totalLanes laneIndex rangeStart rangeEndExclusive)

/-- Under the checkpoint lock: a lane's offset is put forward; gives the new total. -/
def updateCheckpointOffset (laneIndex newOffset : Nat) : Task.Program Nat :=
  withLock .checkpoint (updateCheckpointOffsetUnlocked (checkpointIo ctx) laneIndex newOffset)

/-- Read the checkpoint under its lock. -/
def loadCheckpoint : Task.Program TransferCheckpoint :=
  withLock .checkpoint (loadCheckpointUnlocked ctx)

/-! ## Status and progress -/

/-- Put the transfer as it is in memory into the store. -/
def persistTransferSummary : Task.Program Unit := do
  let snapshot ← perform .readTransfer
  fallible s!"failed upserting transfer in {ctx.store}" (perform (.storeUpsert snapshot))

/-- The locks are cleared when the status is terminal. -/
def clearTransferLocks (status : TransferStatus) : Prog Op Op.Reply Unit :=
  if status.terminal then do
    perform (.clearLock .finalize)
    perform (.clearLock .checkpoint)
  else pure ()

/-- Set the status and the bytes in memory, store them, and drop the locks of a transfer that has
ended. -/
def setTransferStatus (status : TransferStatus) (bytesTransferred : Nat) :
    Task.Program Unit := do
  perform (.setStatus status bytesTransferred)
  persistTransferSummary ctx
  clearTransferLocks status

/-- What a stream that fails does to its transfer: `Running` becomes `Failed`. -/
def failRunningTransfer : Task.Program Unit := do
  let running ← perform .checkRunning
  match running with
  | none => pure ()
  | some bytesTransferred => setTransferStatus ctx .failed bytesTransferred

/-- The offset that `persist_progress` reports. -/
def progressBytes (striped : Bool) (laneIndex newOffset : Nat) : Task.Program Nat :=
  if striped then updateCheckpointOffset ctx laneIndex newOffset else pure newOffset

/-- A writer reports an offset: into the checkpoint when the stream is striped, and as the bytes in
memory. -/
def persistProgress (striped : Bool) (laneIndex newOffset : Nat) : Task.Program Unit := do
  let bytes ← progressBytes ctx striped laneIndex newOffset
  perform (.recordProgress bytes)

/-! ## Finalization -/

/-- How a stream ends, for its complete ack. -/
structure FinalizeResult where
  status : TransferStatus
  bytesTransferred : Nat
  message : String

/-- Set the status and report it. -/
def finishWith (status : TransferStatus) (bytesTransferred : Nat) (message : String) :
    Task.Program FinalizeResult := do
  setTransferStatus ctx status bytesTransferred
  pure ⟨status, bytesTransferred, message⟩

/-- `$refused && fs::try_exists(final_path)`. -/
def refusedBy (refused : Bool) : Task.Program Bool :=
  if refused then fallible "I/O error" (perform .finalExists) else pure false

/-- A file at the final path makes way. -/
def removeExisting : Task.Program Unit := do
  let present ← fallible "I/O error" (perform .finalExists)
  if present then
    fallible s!"failed removing existing file {ctx.final}" (perform .removeFinal)
  else pure ()

/-- Move the staging file over the final path. -/
def moveIntoPlace (bytesTransferred : Nat) : Task.Program FinalizeResult := do
  removeExisting ctx
  fallible s!"failed moving staging file {ctx.staging} to {ctx.final}" (perform .renameStaging)
  finishWith ctx .completed bytesTransferred s!"transfer finalized at {ctx.final}"

/-- The staging file goes to the final path, unless a file is there that must be kept; then the
status is set. -/
def finalizeTransferOnDisk : Task.Program FinalizeResult := do
  let (overwrite, immutableDestination, bytesTransferred) ← perform .readPolicy
  let immutableFound ← refusedBy immutableDestination
  if immutableFound then
    finishWith ctx .failed bytesTransferred
      s!"immutable destination rejected existing file {ctx.final}"
  else do
    let found ← refusedBy (!overwrite)
    if found then
      finishWith ctx .failed bytesTransferred
        s!"destination exists and overwrite is disabled: {ctx.final}"
    else moveIntoPlace ctx bytesTransferred

/-- A single lane has ended with fewer bytes than the file has. -/
def incompleteStream (bytesReceived fileSize : Nat) : Task.Program FinalizeResult :=
  finishWith ctx .failed (min bytesReceived fileSize)
    s!"incomplete stream: received {bytesReceived} bytes, expected {fileSize}"

/-- A single lane finalizes when it has received the whole file. -/
def finalizeSingleLaneTransfer (bytesReceived : Nat) : Task.Program FinalizeResult := do
  let fileSize ← perform (.recordReceived bytesReceived)
  if bytesReceived ≠ fileSize then incompleteStream ctx bytesReceived fileSize
  else finalizeTransferOnDisk ctx

/-- The same for a destination that keeps nothing. -/
def finalizeSingleLaneTransferMemory (bytesReceived : Nat) : Task.Program FinalizeResult := do
  let fileSize ← perform (.recordReceived bytesReceived)
  if bytesReceived ≠ fileSize then incompleteStream ctx bytesReceived fileSize
  else
    finishWith ctx .completed (min bytesReceived fileSize)
      "transfer finalized in null sink mode"

/-- Once the last lane is complete. -/
def finalizeComplete (discardPayload : Bool) (total : Nat) : Task.Program FinalizeResult :=
  if discardPayload then finishWith ctx .completed total "transfer finalized in null sink mode"
  else finalizeTransferOnDisk ctx

/-- The guarded section of `finalize_if_ready`.  That the checkpoint file cannot be
removed is only logged. -/
def finalizeIfReadyUnlocked (discardPayload : Bool) : Task.Program FinalizeResult := do
  let (alreadyDone, bytesTransferred) ← perform .checkFinalized
  if alreadyDone then pure ⟨.completed, bytesTransferred, "transfer already finalized"⟩
  else do
    let checkpoint ← loadCheckpoint ctx
    if !checkpoint.allLanesComplete then
      finishWith ctx .running checkpoint.totalTransferred
        "lane complete; waiting for remaining lanes"
    else do
      let finalized ← finalizeComplete ctx discardPayload checkpoint.totalTransferred
      let _ ← perform .removeCheckpoint
      pure finalized

/-- A lane of several finalizes, under the finalize lock, when it finds all lanes complete. -/
def finalizeIfReady (discardPayload : Bool) : Task.Program FinalizeResult :=
  withLock .finalize (finalizeIfReadyUnlocked ctx discardPayload)

/-! ## Receiving -/

/-- The writer has written enough, or all there is: it syncs the file and reports. -/
def syncProgress (args : WriterArgs) (context : String) (offset : Nat) : Task.Program Unit := do
  fallible context (perform (.syncData args.file))
  persistProgress ctx args.striped args.laneIndex offset

/-- The end of the writer task. -/
def finishWriting (args : WriterArgs) (bytesWritten lastDurableOffset : Nat) :
    Task.Program Nat := do
  if args.resumeOffset + bytesWritten > lastDurableOffset then
    syncProgress ctx args "failed syncing transfer file before final checkpoint update"
      (args.resumeOffset + bytesWritten)
  else pure ()
  fallible "failed flushing transfer file" (perform (.flush args.file))
  pure bytesWritten

/-- The loop of the writer task over the chunks to come. -/
def writerLoop (args : WriterArgs) :
    (chunks : List (List UInt8)) → (bytesWritten sinceUpdate lastDurableOffset : Nat) →
      Task.Program Nat
  | [], bytesWritten, _, lastDurableOffset => finishWriting ctx args bytesWritten lastDurableOffset
  | chunk :: chunks, bytesWritten, sinceUpdate, lastDurableOffset => do
    fallible "failed writing transfer chunk to disk"
      (perform (.writeAll args.file (args.resumeOffset + bytesWritten) chunk))
    if sinceUpdate + chunk.length ≥ progressUpdateIntervalBytes then do
      syncProgress ctx args "failed syncing transfer file before checkpoint update"
        (args.resumeOffset + (bytesWritten + chunk.length))
      writerLoop args chunks (bytesWritten + chunk.length) 0
        (args.resumeOffset + (bytesWritten + chunk.length))
    else
      writerLoop args chunks (bytesWritten + chunk.length) (sinceUpdate + chunk.length)
        lastDurableOffset

/-- The writer task of a stream, from the moment it is spawned. -/
def writerTask : Prog Op Op.Reply (Except String Unit) := do
  let args ← perform .awaitWriter
  let result ← (writerLoop ctx args args.chunks 0 0 args.resumeOffset).toProg
  perform (.finishWriter result)
  pure (.ok ())

/-- What the stream comes to when the server accepts it at a resume offset. -/
def LaneStream.receipt (stream : LaneStream) (admission : Admission) (resumeOffset : Nat) :
    LaneReceipt :=
  receiveLane ctx.crypto admission.payloadCodec stream.request.transferId
    stream.request.laneIndex (admission.rangeEndExclusive - resumeOffset)
    (stream.incoming resumeOffset)

/-- What the receive pipeline is given for an admitted stream. -/
def pipelineArgs (request : QuicTransferOpen) (admission : Admission) (resumeOffset : Nat) :
    ReceiveLanePipelineArgs where
  transferId := request.transferId
  laneIndex := request.laneIndex
  resumeOffset := resumeOffset
  expectedBytes := admission.rangeEndExclusive - resumeOffset
  payloadCodec := admission.payloadCodec
  receiveWritePipelineDepth := admission.receiveWritePipelineDepth

/-- What the writer task returned with, error or not. -/
def joinWriter : Task.Program Nat := perform .joinWriter

/-- A frame that does not open ends the call at once; the writer goes on. -/
def receiveLanePayloadToFilePipelined (args : ReceiveLanePipelineArgs) (striped : Bool)
    (file : Nat) (receipt : LaneReceipt) : Task.Program Nat := do
  perform (.spawnWriter ⟨file, striped, args.laneIndex, args.resumeOffset, receipt.chunks⟩)
  match receipt.decodeError with
  | some err => TryProg.fail err
  | none => do
    let bytesWritten ← joinWriter
    TryProg.ofExcept (Pipeline.result args receipt.bytesReceived bytesWritten receipt.readError)

/-- Open the staging file and receive the lane into it. -/
def receiveToFile (stream : LaneStream) (admission : Admission) (resumeOffset : Nat) :
    Task.Program Nat := do
  let file ← fallible s!"failed opening staging file {ctx.staging}" (perform .openStaging)
  receiveLanePayloadToFilePipelined (pipelineArgs stream.request admission resumeOffset)
    admission.striped file (stream.receipt ctx admission resumeOffset)

/-- Receive the lane: into the staging file, or into nothing. -/
def receivePayload (stream : LaneStream) (admission : Admission) (discardPayload : Bool)
    (resumeOffset : Nat) : Task.Program Nat :=
  if discardPayload then
    TryProg.ofExcept ((receiveLanePayloadNoDisk ctx.crypto (stream.incoming resumeOffset)
      (admission.rangeEndExclusive - resumeOffset) stream.request.transferId
      stream.request.laneIndex admission.payloadCodec).map Prod.fst)
  else receiveToFile ctx stream admission resumeOffset

/-! ## The stream handler -/

/-- The striped staging file is made as long as the source. -/
def presizeStaging (fileSizeBytes : Nat) : Task.Program Unit := do
  let file ← fallible s!"failed opening staging file {ctx.staging}" (perform .openStaging)
  fallible "failed pre-sizing striped staging file" (perform (.setLen file fileSizeBytes))

/-- Where a single-lane stream resumes: at the end of the staging file. -/
def stagingResume (transferFileSize : Nat) : Task.Program (Nat × Nat) := do
  let len ← fallible "failed reading staging file metadata" (perform .stagingLen)
  if len.getD 0 > transferFileSize then
    TryProg.fail
      s!"staging file larger than expected size: {len.getD 0} > {transferFileSize}"
  else pure (len.getD 0, len.getD 0)

/-- The resume offset, and the bytes transferred to start from. -/
def openLane (request : QuicTransferOpen) (admission : Admission) (transfer : TransferSummary)
    (discardPayload : Bool) : Task.Program (Nat × Nat) :=
  if admission.striped then do
    let (laneResume, totalTransferred) ← loadOrInitLaneResume ctx transfer.transferId
      transfer.fileSizeBytes admission.totalLanes request.laneIndex admission.rangeStart
      admission.rangeEndExclusive
    pure (laneResume, min totalTransferred transfer.fileSizeBytes)
  else if discardPayload then
    pure (min transfer.bytesTransferred transfer.fileSizeBytes,
      min transfer.bytesTransferred transfer.fileSizeBytes)
  else stagingResume transfer.fileSizeBytes

/-- The transfer is marked as running, if it is still the one that the open message was matched
with. -/
def markRunning (transfer : TransferSummary) (bytesTransferredNow : Nat) : Task.Program Unit := do
  let unchanged ← perform
    (.markRunning transfer.fileSizeBytes transfer.resumeChunkSizeBytes bytesTransferredNow)
  if unchanged then pure ()
  else TryProg.fail "transfer metadata changed while opening stream"

/-- Without a file the progress of a striped lane is recorded only at its end. -/
def recordDiscarded (request : QuicTransferOpen) (admission : Admission) (discardPayload : Bool)
    (offset : Nat) : Task.Program Unit :=
  if admission.striped && discardPayload then persistProgress ctx true request.laneIndex offset
  else pure ()

/-- How a stream that has received its lane finalizes. -/
def finalizeStream (admission : Admission) (discardPayload : Bool) (bytesReceived : Nat) :
    Task.Program FinalizeResult :=
  if admission.striped then finalizeIfReady ctx discardPayload
  else if discardPayload then finalizeSingleLaneTransferMemory ctx bytesReceived
  else finalizeSingleLaneTransfer ctx bytesReceived

/-- The staging file of a striped stream gets the size of the file. -/
def presizeIfStriped (request : QuicTransferOpen) (admission : Admission)
    (discardPayload : Bool) : Task.Program Unit :=
  if admission.striped && !discardPayload then presizeStaging ctx request.fileSizeBytes
  else pure ()

/-- The part of the stream whose failure fails the transfer. -/
def streamBody (stream : LaneStream) (admission : Admission) (discardPayload : Bool)
    (resumeOffset : Nat) : Task.Program Unit := do
  presizeIfStriped ctx stream.request admission discardPayload
  fallible "connection lost" (perform (.sendOpenAck
    { ok := true, resumeOffsetBytes := resumeOffset, message := "transfer stream accepted"
      payloadCodec := admission.payloadCodec.asWire
      receiveWritePipelineDepth := admission.receiveWritePipelineDepth }))
  let streamBytesWritten ← receivePayload ctx stream admission discardPayload resumeOffset
  recordDiscarded ctx stream.request admission discardPayload (resumeOffset + streamBytesWritten)
  let complete ← finalizeStream ctx admission discardPayload (resumeOffset + streamBytesWritten)
  fallible "connection lost" (perform (.sendCompleteAck
    { ok := complete.status == .completed, status := complete.status
      bytesReceived := complete.bytesTransferred, message := complete.message }))

/-- An error of `body` fails the transfer; that this may fail as well is only logged. -/
def failingTransfer (body : Task.Program Unit) : Task.Program Unit :=
  Prog.bind body.toProg fun
    | .ok () => Prog.ret (.ok ())
    | .error err => Prog.bind (failRunningTransfer ctx).toProg fun _ => Prog.ret (.error err)

/-- `handle_quic_stream` once the lane's lease is acquired. -/
def leasedStream (stream : LaneStream) (admission : Admission) (transfer : TransferSummary) :
    Task.Program Unit := do
  fallible s!"failed creating tenant directory {ctx.tenantDir}" (perform .createTenantDir)
  let (resumeOffset, bytesTransferredNow) ← openLane ctx stream.request admission transfer
    (isNullSinkUri transfer.destinationUri)
  markRunning transfer bytesTransferredNow
  persistTransferSummary ctx
  failingTransfer ctx
    (streamBody ctx stream admission (isNullSinkUri transfer.destinationUri) resumeOffset)

/-- **What the server does with a stream**: the open message is checked, the lane is leased, and for
as long as the lease is held the stream runs. -/
def handleQuicStream (stream : LaneStream) : Task.Program Unit := do
  let admission ← TryProg.ofExcept (admitRequest stream.request)
  let transfer ← perform .readTransfer
  TryProg.ofExcept (matchTransfer stream.request transfer)
  withLaneWriterLease transfer.transferId stream.request.laneIndex
    (leasedStream ctx stream admission transfer)

/-- The programs of a pool of streams. -/
def program (streams : Nat → Option LaneStream) : Task → Prog Op Op.Reply (Except String Unit)
  | .handler i =>
    (streams i).elim (pure (.ok ())) fun stream => (handleQuicStream ctx stream).toProg
  | .writer i => (streams i).elim (pure (.ok ())) fun _ => writerTask ctx

end

end Metra.Server
