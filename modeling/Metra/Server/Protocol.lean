import Metra.Interleave.Protocol
import Metra.Server.Stream

/-!
# The protocol of a lane stream

How far a stream's tasks have got, as far as it matters to the others: the phase
of the task, where it stands with respect to the two locks, and what it has read
of the checkpoint file while it holds the checkpoint lock.

* `Enabled` lists the operations a task may perform at a point, and `advance`
  says where the reply takes it; `Conforms.lean` shows that the programs of
  `Stream.lean` keep to this.
* `Setup.faults` is what separates runs in which anything may fail from those in
  which nothing does: the operations that follow upon a failure are enabled only
  under it.
-/

namespace Metra.Server

open Interleave

/-- Where a task stands with respect to a lock. -/
inductive Stage
  | out
  | wanted
  | inside
  deriving DecidableEq

/-- What a task has read of the checkpoint file since it is inside the lock, or
has itself stored there. -/
inductive Loaded
  | nothing
  | absent
  | present
  | found (c : TransferCheckpoint)

/-- How far a task has got. -/
inductive Phase
  | idle
  | admitted (bytes : Nat)
  | leased (bytes : Nat)
  /-- The resume offset is known. -/
  | resumed (resume : Nat)
  /-- The transfer has been marked as running. -/
  | opened (resume : Nat)
  | presizing (resume file : Nat)
  | presized (resume : Nat)
  /-- The client has been sent the resume offset. -/
  | accepted (resume : Nat)
  | receiving (resume file : Nat)
  | draining (resume : Nat)
  /-- The writer task has ended well. -/
  | received (resume written : Nat)
  | broken
  /-- The transfer was not completed when the guarded section was entered. -/
  | deciding
  | incomplete
  /-- All bytes are there: the transfer is going to be finalized. -/
  | ready
  /-- So many checks that the destination does not exist are left. -/
  | checking (guards : Nat)
  /-- There is a file to be removed. -/
  | clearing
  | vacant
  | placed
  | refused
  /-- The status has been set, and is being stored. -/
  | settling (status : TransferStatus)
  | reported (status : TransferStatus)
  | failing
  | over
  | released
  /-- The phases of the writer task. -/
  | unborn
  | writing (args : WriterArgs) (written : Nat) (rest : List (List UInt8)) (durable : Nat)
      (synced : Bool)
  /-- All is written and recorded, and the file has been flushed. -/
  | flushed (args : WriterArgs) (written : Nat)
  | done

/-- Where a task stands: in its own work, at the two locks, and with the checkpoint it has read. -/
structure Point where
  phase : Phase
  finalize : Stage
  checkpoint : Stage
  loaded : Loaded

namespace Point

/-- Outside of both locks. -/
abbrev free (ph : Phase) : Point := ⟨ph, .out, .out, .nothing⟩

/-- In the guarded section of `finalize_if_ready`. -/
abbrev guarded (ph : Phase) : Point := ⟨ph, .inside, .out, .nothing⟩

/-- Where the task stands at a lock. -/
def stage (pt : Point) : LockKind → Stage
  | .finalize => pt.finalize
  | .checkpoint => pt.checkpoint

/-- Go on to a phase. -/
def goto (pt : Point) (ph : Phase) : Point := { pt with phase := ph }

end Point

/-- What does not change during a run. -/
structure Setup where
  ctx : Context
  transfer : TransferSummary
  streams : Nat → Option LaneStream
  faults : Prop

namespace Setup

variable (setup : Setup)

/-- The size of the file. -/
def size : Nat := setup.transfer.fileSizeBytes

/-- The payload is dropped. -/
def discards : Bool := isNullSinkUri setup.transfer.destinationUri

/-- What was there before must not be removed or replaced. -/
def keepsExisting : Bool := setup.transfer.immutableDestination || !setup.transfer.overwrite

/-- The number of checks before the destination may be touched. -/
def guards : Nat := setup.transfer.immutableDestination.toNat + (!setup.transfer.overwrite).toNat

theorem guards_pos_iff : 0 < setup.guards ↔ setup.keepsExisting = true := by
  unfold guards keepsExisting
  cases setup.transfer.immutableDestination <;> cases setup.transfer.overwrite <;> decide

end Setup

/-- The phases in which an error makes the transfer fail. -/
def Phase.MayFail : Phase → Prop
  | .opened _ | .presizing .. | .presized _ | .accepted _ | .receiving .. | .received .. | .broken
  | .deciding | .checking _ | .clearing | .vacant | .settling _ | .reported _ => True
  | _ => False

/-- The phases in which an error ends the stream without further ado. -/
def Phase.MayLeave : Phase → Prop
  | .leased _ | .resumed _ | .opened _ | .settling .failed | .over => True
  | _ => False

/-- The phases in which a task may leave the guarded section. -/
def Setup.MayUnlock (setup : Setup) : Phase → Prop
  | .settling _ | .reported _ => True
  | ph => setup.faults ∧ ph.MayFail

/-- Where leaving the guarded section takes a task: one that was cut short in it is
left with an error. -/
def Phase.leaveGuarded : Phase → Phase
  | .settling st => .settling st
  | .reported st => .reported st
  | _ => .broken

/-- All bytes of the stream's lane were received. -/
def Setup.ReceivedAll (setup : Setup) (stream : LaneStream) (resume written : Nat) : Prop :=
  ∃ admission, admitRequest stream.request = .ok admission ∧ resume ≤ admission.rangeEndExclusive ∧
    Pipeline.result (pipelineArgs stream.request admission resume)
      (stream.receipt setup.ctx admission resume).bytesReceived written
      (stream.receipt setup.ctx admission resume).readError = .ok written

/-- The point at which a stream goes on to finalize the transfer. -/
def Setup.Finalizes (setup : Setup) (stream : LaneStream) : Phase → Prop
  | .accepted resume => setup.discards = true ∧ resume ≤ requestedEnd stream.request
  | .received resume written => setup.discards = false ∧ setup.ReceivedAll stream resume written
  | _ => False

/-- What the writer of a stream is spawned with. -/
def Setup.IsWriterArgs (setup : Setup) (stream : LaneStream) (args : WriterArgs) : Prop :=
  ∃ admission, admitRequest stream.request = .ok admission ∧ args =
    ⟨args.file, isStriped stream.request, stream.request.laneIndex, args.resumeOffset,
      (stream.receipt setup.ctx admission args.resumeOffset).chunks⟩

/-- The operations that a task may perform at a point. -/
inductive Enabled (setup : Setup) : Task → Point → Op → Prop
  -- opening the lane
  | readTransfer {i : Nat} : Enabled setup (.handler i) (.free .idle) .readTransfer
  | acquire {i b : Nat} {stream : LaneStream} {admission : Admission}
      (hstream : setup.streams i = some stream)
      (hrequest : admitRequest stream.request = .ok admission)
      (hsize : stream.request.fileSizeBytes = setup.size) :
      Enabled setup (.handler i) (.free (.admitted b))
        (.tryAcquireLaneWriter stream.request.laneIndex)
  | createTenantDir {i b : Nat} : Enabled setup (.handler i) (.free (.leased b)) .createTenantDir
  | checkpointExists {i b : Nat} :
      Enabled setup (.handler i) ⟨.leased b, .out, .inside, .nothing⟩ .checkpointExists
  | loadExisting {i b : Nat} :
      Enabled setup (.handler i) ⟨.leased b, .out, .inside, .present⟩ .readCheckpoint
  | persistFresh {i b : Nat} {stream : LaneStream} (hstream : setup.streams i = some stream)
      (hstriped : isStriped stream.request = true) :
      Enabled setup (.handler i) ⟨.leased b, .out, .inside, .absent⟩
        (.persistCheckpoint (newCheckpoint setup.transfer.transferId setup.size
          (requestedLanes stream.request)))
  | persistRounded {i b r : Nat} {stream : LaneStream} {c c' : TransferCheckpoint}
      (hstream : setup.streams i = some stream) (hstriped : isStriped stream.request = true)
      (hlayout : c.validateLayout setup.size (requestedLanes stream.request)
        stream.request.rangeStart (requestedEnd stream.request) stream.request.laneIndex = .ok ())
      (hround : c.roundLane stream.request.laneIndex = some (r, c')) :
      Enabled setup (.handler i) ⟨.leased b, .out, .inside, .found c⟩ (.persistCheckpoint c')
  | stagingLen {i b : Nat} {stream : LaneStream} (hstream : setup.streams i = some stream)
      (hstriped : isStriped stream.request = false) (hdisk : setup.discards = false) :
      Enabled setup (.handler i) (.free (.leased b)) .stagingLen
  | markRunning {i resume m n b : Nat} :
      Enabled setup (.handler i) (.free (.resumed resume)) (.markRunning m n b)
  | markRunningDiscard {i b m n b' : Nat} {stream : LaneStream}
      (hstream : setup.streams i = some stream) (hstriped : isStriped stream.request = false)
      (hdiscards : setup.discards = true) :
      Enabled setup (.handler i) (.free (.leased b)) (.markRunning m n b')
  | snapshotOpened {i resume : Nat} :
      Enabled setup (.handler i) (.free (.opened resume)) .readTransfer
  | upsertOpened {i resume : Nat} {summary : TransferSummary}
      (hsame : SameTransfer setup.transfer summary) :
      Enabled setup (.handler i) (.free (.opened resume)) (.storeUpsert summary)
  -- receiving
  | presizeOpen {i resume : Nat} {stream : LaneStream} (hstream : setup.streams i = some stream)
      (hstriped : isStriped stream.request = true) (hdisk : setup.discards = false) :
      Enabled setup (.handler i) (.free (.opened resume)) .openStaging
  | presize {i resume file : Nat} :
      Enabled setup (.handler i) (.free (.presizing resume file)) (.setLen file setup.size)
  | acceptPresized {i resume : Nat} {ack : QuicTransferOpenAck} :
      Enabled setup (.handler i) (.free (.presized resume)) (.sendOpenAck ack)
  | accept {i resume : Nat} {stream : LaneStream} {ack : QuicTransferOpenAck}
      (hstream : setup.streams i = some stream)
      (hplain : isStriped stream.request = false ∨ setup.discards = true) :
      Enabled setup (.handler i) (.free (.opened resume)) (.sendOpenAck ack)
  | openStaging {i resume : Nat} (hdisk : setup.discards = false) :
      Enabled setup (.handler i) (.free (.accepted resume)) .openStaging
  | spawn {i resume : Nat} {stream : LaneStream} {args : WriterArgs}
      (hstream : setup.streams i = some stream) (hargs : setup.IsWriterArgs stream args)
      (hresume : args.resumeOffset = resume) :
      Enabled setup (.handler i) (.free (.receiving resume args.file)) (.spawnWriter args)
  | join {i resume : Nat} : Enabled setup (.handler i) (.free (.draining resume)) .joinWriter
  | loadDiscarded {i resume : Nat} :
      Enabled setup (.handler i) ⟨.accepted resume, .out, .inside, .nothing⟩ .readCheckpoint
  | persistDiscarded {i resume offset : Nat} {stream : LaneStream} {c c' : TransferCheckpoint}
      (hstream : setup.streams i = some stream) (hdiscards : setup.discards = true)
      (hadvance : c.advanceLane stream.request.laneIndex offset = some c') :
      Enabled setup (.handler i) ⟨.accepted resume, .out, .inside, .found c⟩
        (.persistCheckpoint c')
  | recordDiscarded {i resume b : Nat} :
      Enabled setup (.handler i) (.free (.accepted resume)) (.recordProgress b)
  -- finalizing
  | checkFinalized {i : Nat} {ph : Phase} {stream : LaneStream}
      (hstream : setup.streams i = some stream) (hph : setup.Finalizes stream ph) :
      Enabled setup (.handler i) (.guarded ph) .checkFinalized
  | loadDeciding {i : Nat} :
      Enabled setup (.handler i) ⟨.deciding, .inside, .inside, .nothing⟩ .readCheckpoint
  | setIncomplete {i b : Nat} :
      Enabled setup (.handler i) (.guarded .incomplete) (.setStatus .running b)
  | recordReceived {i : Nat} {ph : Phase} {stream : LaneStream}
      (hstream : setup.streams i = some stream) (hstriped : isStriped stream.request = false)
      (hph : setup.Finalizes stream ph) :
      Enabled setup (.handler i) (.free ph) (.recordReceived setup.size)
  | completeDiscarded {i b : Nat} {f : Stage} (hdiscards : setup.discards = true) :
      Enabled setup (.handler i) ⟨.ready, f, .out, .nothing⟩ (.setStatus .completed b)
  | readPolicy {i : Nat} {f : Stage} (hdisk : setup.discards = false) :
      Enabled setup (.handler i) ⟨.ready, f, .out, .nothing⟩ .readPolicy
  | finalExists {i g : Nat} {f : Stage} :
      Enabled setup (.handler i) ⟨.checking g, f, .out, .nothing⟩ .finalExists
  | removeFinal {i : Nat} {f : Stage} :
      Enabled setup (.handler i) ⟨.clearing, f, .out, .nothing⟩ .removeFinal
  | rename {i : Nat} {f : Stage} :
      Enabled setup (.handler i) ⟨.vacant, f, .out, .nothing⟩ .renameStaging
  | complete {i b : Nat} {f : Stage} :
      Enabled setup (.handler i) ⟨.placed, f, .out, .nothing⟩ (.setStatus .completed b)
  | refuse {i b : Nat} {f : Stage} :
      Enabled setup (.handler i) ⟨.refused, f, .out, .nothing⟩ (.setStatus .failed b)
  | snapshotSettling {i : Nat} {st : TransferStatus} {f : Stage} :
      Enabled setup (.handler i) ⟨.settling st, f, .out, .nothing⟩ .readTransfer
  | upsertSettling {i : Nat} {st : TransferStatus} {f : Stage} {summary : TransferSummary}
      (hsame : SameTransfer setup.transfer summary) :
      Enabled setup (.handler i) ⟨.settling st, f, .out, .nothing⟩ (.storeUpsert summary)
  | clearLock {i : Nat} {st : TransferStatus} {f : Stage} {kind : LockKind}
      (hterminal : st.terminal = true) :
      Enabled setup (.handler i) ⟨.settling st, f, .out, .nothing⟩ (.clearLock kind)
  | removeCheckpoint {i : Nat} {st : TransferStatus} (hterminal : st.terminal = true) :
      Enabled setup (.handler i) (.guarded (.settling st)) .removeCheckpoint
  | sendSettled {i : Nat} {st : TransferStatus} {ack : QuicTransferCompleteAck}
      (hack : ack.status = st) :
      Enabled setup (.handler i) (.free (.settling st)) (.sendCompleteAck ack)
  | sendReported {i : Nat} {st : TransferStatus} {ack : QuicTransferCompleteAck}
      (hack : ack.status = st) :
      Enabled setup (.handler i) (.free (.reported st)) (.sendCompleteAck ack)
  -- the end
  | checkRunning {i : Nat} {ph : Phase} (hfaults : setup.faults) (hph : ph.MayFail) :
      Enabled setup (.handler i) (.free ph) .checkRunning
  | checkRunningDraining {i resume : Nat} {stream : LaneStream} {admission : Admission}
      (hfaults : setup.faults) (hstream : setup.streams i = some stream)
      (hrequest : admitRequest stream.request = .ok admission)
      (hdecode : (stream.receipt setup.ctx admission resume).decodeError ≠ none) :
      Enabled setup (.handler i) (.free (.draining resume)) .checkRunning
  | fail {i b : Nat} : Enabled setup (.handler i) (.free .failing) (.setStatus .failed b)
  | release {i : Nat} {stream : LaneStream} (hstream : setup.streams i = some stream) :
      Enabled setup (.handler i) (.free .over) (.releaseLaneWriter stream.request.laneIndex)
  | leave {i : Nat} {ph : Phase} {stream : LaneStream} (hfaults : setup.faults)
      (hstream : setup.streams i = some stream) (hph : ph.MayLeave) :
      Enabled setup (.handler i) (.free ph) (.releaseLaneWriter stream.request.laneIndex)
  -- the writer
  | awaitWriter {i : Nat} : Enabled setup (.writer i) (.free .unborn) .awaitWriter
  | write {i w d : Nat} {args : WriterArgs} {chunk : List UInt8} {rest : List (List UInt8)}
      {synced : Bool} :
      Enabled setup (.writer i) (.free (.writing args w (chunk :: rest) d synced))
        (.writeAll args.file (args.resumeOffset + w) chunk)
  | sync {i w d : Nat} {args : WriterArgs} {rest : List (List UInt8)} {synced : Bool} :
      Enabled setup (.writer i) (.free (.writing args w rest d synced)) (.syncData args.file)
  | loadWriting {i w d : Nat} {args : WriterArgs} {rest : List (List UInt8)} {synced : Bool} :
      Enabled setup (.writer i) ⟨.writing args w rest d synced, .out, .inside, .nothing⟩
        .readCheckpoint
  | persistWriting {i w d : Nat} {args : WriterArgs} {rest : List (List UInt8)}
      {c c' : TransferCheckpoint} (hstriped : args.striped = true)
      (hadvance : c.advanceLane args.laneIndex (args.resumeOffset + w) = some c') :
      Enabled setup (.writer i) ⟨.writing args w rest d true, .out, .inside, .found c⟩
        (.persistCheckpoint c')
  | recordWriting {i w d b : Nat} {args : WriterArgs} {rest : List (List UInt8)}
      (hdurable : args.striped = true → d = args.resumeOffset + w) :
      Enabled setup (.writer i) (.free (.writing args w rest d true)) (.recordProgress b)
  | flush {i w : Nat} {args : WriterArgs} {synced : Bool} :
      Enabled setup (.writer i) (.free (.writing args w [] (args.resumeOffset + w) synced))
        (.flush args.file)
  | finishOk {i w : Nat} {args : WriterArgs} :
      Enabled setup (.writer i) (.free (.flushed args w)) (.finishWriter (.ok w))
  | finishError {i w d : Nat} {args : WriterArgs} {rest : List (List UInt8)} {synced : Bool}
      {err : String} (hfaults : setup.faults) :
      Enabled setup (.writer i) (.free (.writing args w rest d synced))
        (.finishWriter (.error err))
  -- the locks
  | wantResume {i b : Nat} {stream : LaneStream} (hstream : setup.streams i = some stream)
      (hstriped : isStriped stream.request = true) :
      Enabled setup (.handler i) (.free (.leased b)) (.lockFor .checkpoint)
  | wantDiscarded {i resume : Nat} {stream : LaneStream}
      (hstream : setup.streams i = some stream) (hstriped : isStriped stream.request = true)
      (hdiscards : setup.discards = true) :
      Enabled setup (.handler i) (.free (.accepted resume)) (.lockFor .checkpoint)
  | wantDeciding {i : Nat} :
      Enabled setup (.handler i) (.guarded .deciding) (.lockFor .checkpoint)
  | wantWriting {i w d : Nat} {args : WriterArgs} {rest : List (List UInt8)}
      (hstriped : args.striped = true) (hnew : d < args.resumeOffset + w) :
      Enabled setup (.writer i) (.free (.writing args w rest d true)) (.lockFor .checkpoint)
  | wantFinalize {i : Nat} {ph : Phase} {stream : LaneStream}
      (hstream : setup.streams i = some stream) (hstriped : isStriped stream.request = true)
      (hph : setup.Finalizes stream ph) :
      Enabled setup (.handler i) (.free ph) (.lockFor .finalize)
  | lockFinalize {t : Task} {ph : Phase} :
      Enabled setup t ⟨ph, .wanted, .out, .nothing⟩ (.lock .finalize)
  | lockCheckpoint {t : Task} {ph : Phase} {f : Stage} :
      Enabled setup t ⟨ph, f, .wanted, .nothing⟩ (.lock .checkpoint)
  | unlockCheckpoint {t : Task} {ph : Phase} {f : Stage} {loaded : Loaded} :
      Enabled setup t ⟨ph, f, .inside, loaded⟩ (.unlock .checkpoint)
  | unlockFinalize {i : Nat} {ph : Phase} (hph : setup.MayUnlock ph) :
      Enabled setup (.handler i) (.guarded ph) (.unlock .finalize)

/-! ## Where the replies take a task -/

/-- The phase after reading the checkpoint that decides on the finalization. -/
def decided (c : TransferCheckpoint) : Phase :=
  if c.allLanesComplete then .ready else .incomplete

/-- After a checkpoint was read. -/
def Point.loadedCheckpoint (pt : Point) (c : TransferCheckpoint) : Point :=
  match pt.phase with
  | .deciding => pt.goto (decided c)
  | _ => { pt with loaded := .found c }

/-- After a checkpoint was stored. -/
def Point.storedCheckpoint (stream : LaneStream) (pt : Point) (c : TransferCheckpoint) : Point :=
  match pt.phase, pt.loaded with
  | .leased _, .found _ =>
    match c.lane? stream.request.laneIndex with
    | some lane => ⟨.resumed lane.offset, pt.finalize, pt.checkpoint, .found c⟩
    | none => { pt with loaded := .found c }
  | .writing args w rest _ synced, _ =>
    ⟨.writing args w rest (args.resumeOffset + w) synced, pt.finalize, pt.checkpoint, .found c⟩
  | _, _ => { pt with loaded := .found c }

/-- After the staging file was opened. -/
def Point.openedStaging (pt : Point) (file : Nat) : Point :=
  match pt.phase with
  | .opened resume => pt.goto (.presizing resume file)
  | .accepted resume => pt.goto (.receiving resume file)
  | _ => pt

/-- After the final path was looked at. -/
def Point.sawFinal (pt : Point) (present : Bool) : Point :=
  match pt.phase with
  | .checking 0 => pt.goto (if present then .clearing else .vacant)
  | .checking (g + 1) => pt.goto (if present then .refused else .checking g)
  | _ => pt

/-- Where the answer to an operation leads. -/
def advance (setup : Setup) (stream : LaneStream) (pt : Point) : (o : Op) → o.Reply → Point
  | .readTransfer, transfer =>
    match pt.phase with
    | .idle => pt.goto (.admitted transfer.bytesTransferred)
    | _ => pt
  | .tryAcquireLaneWriter _, acquired =>
    match pt.phase, acquired with
    | .admitted b, true => pt.goto (.leased b)
    | _, _ => pt
  | .checkpointExists, some present =>
    { pt with loaded := if present then .present else .absent }
  | .readCheckpoint, some c => pt.loadedCheckpoint c
  | .persistCheckpoint c, some () => pt.storedCheckpoint stream c
  | .persistCheckpoint _, none => { pt with loaded := .nothing }
  | .stagingLen, some len =>
    if len.getD 0 ≤ setup.size then pt.goto (.resumed (len.getD 0)) else pt
  | .markRunning .., true =>
    match pt.phase with
    | .resumed resume => pt.goto (.opened resume)
    | .leased b => pt.goto (.opened (min b setup.size))
    | _ => pt
  | .openStaging, some file => pt.openedStaging file
  | .setLen .., some () =>
    match pt.phase with
    | .presizing resume _ => pt.goto (.presized resume)
    | _ => pt
  | .sendOpenAck _, some () =>
    match pt.phase with
    | .presized resume | .opened resume => pt.goto (.accepted resume)
    | _ => pt
  | .spawnWriter args, () => pt.goto (.draining args.resumeOffset)
  | .joinWriter, .ok written =>
    match pt.phase with
    | .draining resume => pt.goto (.received resume written)
    | _ => pt
  | .joinWriter, .error _ => pt.goto .broken
  | .checkFinalized, reply =>
    if reply.1 then pt.goto (.reported .completed) else pt.goto .deciding
  | .recordReceived _, _ => pt.goto .ready
  | .readPolicy, _ => pt.goto (.checking setup.guards)
  | .finalExists, some present => pt.sawFinal present
  | .removeFinal, some () => pt.goto .vacant
  | .renameStaging, some () => pt.goto .placed
  | .setStatus status _, () => pt.goto (.settling status)
  | .removeCheckpoint, _ =>
    match pt.phase with
    | .settling status => pt.goto (.reported status)
    | _ => pt
  | .sendCompleteAck _, some () => pt.goto .over
  | .checkRunning, none => pt.goto .over
  | .checkRunning, some _ => pt.goto .failing
  | .releaseLaneWriter _, () => pt.goto .released
  | .awaitWriter, args => pt.goto (.writing args 0 args.chunks args.resumeOffset false)
  | .writeAll .., some () =>
    match pt.phase with
    | .writing args w (chunk :: rest) d _ =>
      pt.goto (.writing args (w + chunk.length) rest d false)
    | _ => pt
  | .syncData _, some () =>
    match pt.phase with
    | .writing args w rest d _ => pt.goto (.writing args w rest d true)
    | _ => pt
  | .flush _, some () =>
    match pt.phase with
    | .writing args w _ _ _ => pt.goto (.flushed args w)
    | _ => pt
  | .recordProgress _, () =>
    match pt.phase with
    | .writing args w rest _ synced =>
      pt.goto (.writing args w rest (args.resumeOffset + w) synced)
    | _ => pt
  | .finishWriter _, () => pt.goto .done
  | .lockFor .finalize, () => { pt with finalize := .wanted }
  | .lockFor .checkpoint, () => { pt with checkpoint := .wanted }
  | .lock .finalize, () => { pt with finalize := .inside }
  | .lock .checkpoint, () => { pt with checkpoint := .inside }
  | .unlock .finalize, () => { pt with phase := pt.phase.leaveGuarded, finalize := .out }
  | .unlock .checkpoint, () => { pt with checkpoint := .out, loaded := .nothing }
  | _, _ => pt

/-! ## The replies that a task has to reckon with -/

/-- A checkpoint in which the stream finds its lane. -/
def Setup.Fits (setup : Setup) (stream : LaneStream) (c : TransferCheckpoint) : Prop :=
  c.validateLayout setup.size (requestedLanes stream.request) stream.request.rangeStart
    (requestedEnd stream.request) stream.request.laneIndex = .ok ()

/-- The number of bytes the writer is handed. -/
def Setup.chunkBytes (setup : Setup) (stream : LaneStream) (resume : Nat) : Nat :=
  match admitRequest stream.request with
  | .ok admission => ((stream.receipt setup.ctx admission resume).chunks.flatten).length
  | .error _ => 0

/-- What is known of an answer from what never changes: the transfer, apart from its status and
bytes. -/
def Possible (setup : Setup) (stream : LaneStream) (pt : Point) : (o : Op) → o.Reply → Prop
  | .readTransfer, transfer => SameTransfer setup.transfer transfer
  | .markRunning fileSizeBytes resumeChunkSizeBytes _, unchanged =>
    unchanged = true ∨ fileSizeBytes ≠ setup.transfer.fileSizeBytes ∨
      resumeChunkSizeBytes ≠ setup.transfer.resumeChunkSizeBytes
  | .readPolicy, (overwrite, immutableDestination, _) =>
    overwrite = setup.transfer.overwrite ∧
      immutableDestination = setup.transfer.immutableDestination
  | .recordReceived _, fileSize => fileSize = setup.size
  | .tryAcquireLaneWriter _, acquired => acquired = true ∨ setup.faults
  | .readCheckpoint, found =>
    setup.faults ∨ ∃ c, found = some c ∧ setup.Fits stream c
  | .checkpointExists, present | .finalExists, present => present ≠ none ∨ setup.faults
  | .stagingLen, len => (∃ n, len = some n ∧ n.getD 0 ≤ setup.size) ∨ setup.faults
  | .openStaging, file => file ≠ none ∨ setup.faults
  | .storeUpsert _, r | .createTenantDir, r | .persistCheckpoint _, r | .setLen .., r
  | .writeAll .., r | .syncData _, r | .flush _, r | .removeFinal, r | .renameStaging, r
  | .sendOpenAck _, r | .sendCompleteAck _, r => r ≠ none ∨ setup.faults
  | .awaitWriter, args => setup.IsWriterArgs stream args
  | .joinWriter, result =>
    (∀ written resume, pt.phase = .draining resume → result = .ok written →
      written = setup.chunkBytes stream resume) ∧ ((∃ written, result = .ok written) ∨ setup.faults)
  | _, _ => True

/-- The protocol of the tasks of a stream. -/
def protocol (setup : Setup) (t : Task) : Protocol Op Op.Reply Point where
  enabled pt o := (∃ stream, setup.streams t.stream = some stream) ∧ Enabled setup t pt o
  possible pt o r := ∀ stream, setup.streams t.stream = some stream → Possible setup stream pt o r
  advance pt o r :=
    match setup.streams t.stream with
    | some stream => advance setup stream pt o r
    | none => pt

/-- Where the tasks start. -/
def startPoint : Task → Point
  | .handler _ => .free .idle
  | .writer _ => .free .unborn

end Metra.Server
