import Metra.Interleave.Prog
import Metra.Interleave.NamedLock
import Metra.Bytes.FileData
import Metra.Checkpoint

/-!
# The server's state of one transfer

Everything the lane streams of a transfer share: its summary in memory and in the
transfer store, the lane writer leases, the two named locks, the files on disk,
and the writer tasks.  An operation (`Op`) is one step of the source during which
no other task of the process can intervene: a block under the guard of the
transfer map, one call of the file system, one look-up or acquisition of a lock.

* The staging, final and checkpoint path each name a file or nothing.  Renaming
  moves a name; an open handle keeps the file (`Disk`).
* The checkpoint file is replaced as a whole: `CheckpointFile.lean` shows that
  this is what its temporary file and rename come to.
* A write reaches the file when it is made; `synced` is what a `sync_data` has
  made durable.
* `write_all` returns when the bytes are handed over.  That they could not be written is
  said by the next write or flush of the same open file, but not by a `sync_data`
  (`writeFailed`).
* A directory at the final path counts as a file that cannot be removed or replaced.
-/

namespace Metra.Server

open Interleave

/-- The two per-transfer locks that `AppState` keeps by transfer id. -/
inductive LockKind
  | finalize
  | checkpoint
  deriving DecidableEq

/-- The tasks of stream `i`: `handle_quic_stream`, and the writer it spawns. -/
inductive Task
  | handler (i : Nat)
  | writer (i : Nat)
  deriving DecidableEq

/-- The stream that a task works for. -/
def Task.stream : Task → Nat
  | .handler i | .writer i => i

/-! ## Files -/

/-- A file: its content, and what of it has been made durable. -/
structure Inode where
  data : List UInt8
  synced : List UInt8
  deriving DecidableEq

/-- A successful rename of the staging file to the final path: who did it, and
what the file was at that moment. -/
structure Placement where
  task : Task
  file : Nat
  inode : Inode

/-- The files of the transfer; they are numbered in the order they are made.
`versions` are the versions the checkpoint file has had since it was last
missing, oldest first. -/
structure Disk where
  inode : Nat → Inode
  nextInode : Nat
  staging : Option Nat
  final : Option Nat
  versions : List TransferCheckpoint
  placements : List Placement

namespace Disk

/-- What the checkpoint file holds. -/
def checkpoint (d : Disk) : Option TransferCheckpoint := d.versions.getLast?

/-- The content of the file at the final path. -/
def finalContent (d : Disk) : Option (List UInt8) := d.final.map fun f => (d.inode f).data

/-- Open the staging file for writing, creating it if there is none. -/
def openStaging (d : Disk) : Nat × Disk :=
  match d.staging with
  | some f => (f, d)
  | none => (d.nextInode, { d with
      inode := Function.update d.inode d.nextInode ⟨[], []⟩
      nextInode := d.nextInode + 1
      staging := some d.nextInode })

/-- Change the content of a file. -/
def modify (d : Disk) (f : Nat) (change : List UInt8 → List UInt8) : Disk :=
  { d with inode := Function.update d.inode f ⟨change (d.inode f).data, (d.inode f).synced⟩ }

/-- All that is in the file becomes durable. -/
def syncData (d : Disk) (f : Nat) : Disk :=
  { d with inode := Function.update d.inode f ⟨(d.inode f).data, (d.inode f).data⟩ }

/-- The checkpoint file gets a new version. -/
def persistCheckpoint (d : Disk) (c : TransferCheckpoint) : Disk :=
  { d with versions := d.versions ++ [c] }

/-- Move the staging file to the final path, over whatever is there. -/
def renameStaging (d : Disk) (t : Task) : Option Disk :=
  d.staging.map fun f => { d with
    staging := none, final := some f
    placements := d.placements ++ [⟨t, f, d.inode f⟩] }

theorem openStaging_inode (d : Disk) (f : Nat) :
    d.openStaging.2.inode f =
      if d.staging = none ∧ f = d.nextInode then ⟨[], []⟩ else d.inode f := by
  unfold openStaging
  cases hstaging : d.staging with
  | some g => simp
  | none =>
    by_cases hf : f = d.nextInode
    · simp [hf]
    · simp [hf]

/-- The staging path names the file that was opened. -/
theorem openStaging_staging (d : Disk) : d.openStaging.2.staging = some d.openStaging.1 := by
  unfold openStaging
  cases hstaging : d.staging with
  | none => rfl
  | some f => exact hstaging

theorem modify_inode (d : Disk) (f g : Nat) (change : List UInt8 → List UInt8) :
    (d.modify f change).inode g =
      if g = f then ⟨change (d.inode f).data, (d.inode f).synced⟩ else d.inode g := by
  by_cases hg : g = f
  · simp [modify, hg]
  · simp [modify, hg]

theorem syncData_inode (d : Disk) (f g : Nat) :
    (d.syncData f).inode g = if g = f then ⟨(d.inode f).data, (d.inode f).data⟩ else d.inode g := by
  by_cases hg : g = f
  · simp [syncData, hg]
  · simp [syncData, hg]

end Disk

/-! ## The state -/

/-- What the writer task of a stream gets: the open staging file, and the chunks
that come out of the decrypt stage. -/
structure WriterArgs where
  file : Nat
  striped : Bool
  laneIndex : Nat
  resumeOffset : Nat
  chunks : List (List UInt8)

/-- The writer of a stream: not yet spawned, at work, or ended. -/
inductive WriterTask
  | absent
  | running (args : WriterArgs)
  | finished (result : Except String Nat)

/-- `t'` is `t` with another status and byte count. -/
def SameTransfer (t t' : TransferSummary) : Prop :=
  t' = { t with status := t'.status, bytesTransferred := t'.bytesTransferred }

/-- `writeFailed` says of a stream that a write of its writer has failed after it was answered;
the writer ends with the error once it is told, so that the flag is never cleared. -/
structure State where
  transfer : TransferSummary
  stored : TransferSummary
  activeLaneWriters : List Nat
  locks : LockKind → NamedLock Task
  disk : Disk
  writers : Nat → WriterTask
  writeFailed : Nat → Bool
  acks : Nat → Option QuicTransferCompleteAck

/-! ## The operations -/

/-- What the tasks do to the state, one step at a time. -/
inductive Op
  | readTransfer
  | markRunning (fileSizeBytes resumeChunkSizeBytes bytesTransferredNow : Nat)
  | checkFinalized
  | checkRunning
  | readPolicy
  | recordProgress (bytes : Nat)
  | recordReceived (bytesReceived : Nat)
  | setStatus (status : TransferStatus) (bytesTransferred : Nat)
  | storeUpsert (summary : TransferSummary)
  | tryAcquireLaneWriter (laneIndex : Nat)
  | releaseLaneWriter (laneIndex : Nat)
  | lockFor (kind : LockKind)
  | lock (kind : LockKind)
  | unlock (kind : LockKind)
  | clearLock (kind : LockKind)
  | createTenantDir
  | checkpointExists
  | readCheckpoint
  | persistCheckpoint (checkpoint : TransferCheckpoint)
  | removeCheckpoint
  | stagingLen
  | openStaging
  | setLen (file len : Nat)
  | writeAll (file offset : Nat) (buffer : List UInt8)
  | syncData (file : Nat)
  | flush (file : Nat)
  | finalExists
  | removeFinal
  | renameStaging
  | sendOpenAck (ack : QuicTransferOpenAck)
  | sendCompleteAck (ack : QuicTransferCompleteAck)
  | spawnWriter (args : WriterArgs)
  | awaitWriter
  | finishWriter (result : Except String Nat)
  | joinWriter

/-- What an operation is answered with; the `none` of an `Option` is an error, but
for `checkRunning`, where it says that the transfer is not running. -/
@[reducible] def Op.Reply : Op → Type
  | .readTransfer => TransferSummary
  | .markRunning .. | .tryAcquireLaneWriter _ => Bool
  | .checkFinalized => Bool × Nat
  | .checkRunning => Option Nat
  | .readPolicy => Bool × Bool × Nat
  | .recordReceived _ => Nat
  | .recordProgress _ | .setStatus .. | .releaseLaneWriter _ | .lockFor _ | .lock _ | .unlock _
  | .clearLock _ | .spawnWriter _ | .finishWriter _ => Unit
  | .checkpointExists | .finalExists => Option Bool
  | .readCheckpoint => Option TransferCheckpoint
  | .stagingLen => Option (Option Nat)
  | .openStaging => Option Nat
  | .storeUpsert _ | .createTenantDir | .persistCheckpoint _ | .removeCheckpoint | .setLen ..
  | .writeAll .. | .syncData _ | .flush _ | .removeFinal | .renameStaging | .sendOpenAck _
  | .sendCompleteAck _ => Option Unit
  | .awaitWriter => WriterArgs
  | .joinWriter => Except String Nat

/-- How an operation ends that can fail: a replacement may be reported as failed
after it was made, a write may stop after some bytes, and be answered before it does. -/
inductive Choice
  | ok
  | ioError
  | ioErrorAfter
  | ioPartial (written : Nat)
  | ioLate (written : Nat)
  deriving DecidableEq

/-- The outcome of an operation that may fail and then changes nothing. -/
def attempt {α σ : Type} (c : Choice) (done : Option (α × σ)) (s : σ) : Option α × σ :=
  match c, done with
  | .ok, some (a, s') => (some a, s')
  | _, _ => (none, s)

/-- The outcome of replacing something as a whole. -/
def replace {σ : Type} (c : Choice) (s' s : σ) : Option Unit × σ :=
  match c with
  | .ok => (some (), s')
  | .ioErrorAfter => (none, s')
  | _ => (none, s)

namespace State

/-- Put back the disk with the outcome of a call. -/
def withDisk (s : State) (out : Option Unit × Disk) : Option Unit × State :=
  (out.1, { s with disk := out.2 })

/-- The bytes in memory never exceed the size of the file. -/
def setBytesTransferred (s : State) (bytes : Nat) : State :=
  { s with transfer :=
      { s.transfer with bytesTransferred := min bytes s.transfer.fileSizeBytes } }

/-- Change one of the two locks. -/
def updateLock (s : State) (kind : LockKind) (l : NamedLock Task) : State :=
  { s with locks := Function.update s.locks kind l }

/-- Change the writer of a stream. -/
def setWriter (s : State) (i : Nat) (w : WriterTask) : State :=
  { s with writers := Function.update s.writers i w }

/-- The file after the first bytes of a chunk were written to it. -/
def written (s : State) (f offset : Nat) (bytes : List UInt8) : State :=
  { s with disk := s.disk.modify f (Bytes.writeAt offset bytes) }

/-- `file.write_all` of a chunk by the writer of stream `i`. -/
def writeAll (s : State) (i f offset : Nat) (buffer : List UInt8) (c : Choice) :
    Option Unit × State :=
  if s.writeFailed i then (none, s)
  else
    match c with
    | .ok => (some (), s.written f offset buffer)
    | .ioPartial n => (none, s.written f offset (buffer.take n))
    | .ioLate n =>
      (some (), { s.written f offset (buffer.take n) with
        writeFailed := Function.update s.writeFailed i true })
    | _ => (none, s)

end State

open State in
/-- **What an operation does**, when it can be done: only taking a lock, and the writer and its
handler, wait for others. -/
def exec (t : Task) : (o : Op) → Choice → State → Option (o.Reply × State)
  | .readTransfer, _, s => some (s.transfer, s)
  | .markRunning fileSizeBytes resumeChunkSizeBytes bytes, _, s =>
    if s.transfer.fileSizeBytes ≠ fileSizeBytes ∨
        s.transfer.resumeChunkSizeBytes ≠ resumeChunkSizeBytes then some (false, s)
    else some (true, { s with transfer :=
      { s.transfer with bytesTransferred := bytes, status := .running } })
  | .checkFinalized, _, s =>
    some ((decide (s.transfer.status = .completed), s.transfer.bytesTransferred), s)
  | .checkRunning, _, s =>
    some (if s.transfer.status ≠ .running then none else some s.transfer.bytesTransferred, s)
  | .readPolicy, _, s =>
    some ((s.transfer.overwrite, s.transfer.immutableDestination, s.transfer.bytesTransferred), s)
  | .recordProgress bytes, _, s => some ((), s.setBytesTransferred bytes)
  | .recordReceived bytes, _, s =>
    some (s.transfer.fileSizeBytes, s.setBytesTransferred bytes)
  | .setStatus status bytes, _, s =>
    some ((), { s with transfer := { s.transfer with
      status := status, bytesTransferred := min bytes s.transfer.fileSizeBytes } })
  | .storeUpsert summary, c, s => some (replace c { s with stored := summary } s)
  | .tryAcquireLaneWriter lane, _, s =>
    if lane ∈ s.activeLaneWriters then some (false, s)
    else some (true, { s with activeLaneWriters := lane :: s.activeLaneWriters })
  | .releaseLaneWriter lane, _, s =>
    some ((), { s with activeLaneWriters := s.activeLaneWriters.filter (· ≠ lane) })
  | .lockFor kind, _, s => some ((), s.updateLock kind ((s.locks kind).lookup t))
  | .lock kind, _, s => ((s.locks kind).lock t).map fun l => ((), s.updateLock kind l)
  | .unlock kind, _, s => some ((), s.updateLock kind ((s.locks kind).unlock t))
  | .clearLock kind, _, s => some ((), s.updateLock kind (s.locks kind).clear)
  | .createTenantDir, c, s => some (attempt c (some ((), s)) s)
  | .checkpointExists, c, s => some (attempt c (some (s.disk.checkpoint.isSome, s)) s)
  | .readCheckpoint, c, s => some (attempt c (s.disk.checkpoint.map fun found => (found, s)) s)
  | .persistCheckpoint checkpoint, c, s =>
    some (s.withDisk (replace c (s.disk.persistCheckpoint checkpoint) s.disk))
  | .removeCheckpoint, c, s =>
    some (s.withDisk (attempt c
      (s.disk.checkpoint.map fun _ => ((), { s.disk with versions := [] })) s.disk))
  | .stagingLen, c, s =>
    some (attempt c
      (some (s.disk.staging.map fun f => (s.disk.inode f).data.length, s)) s)
  | .openStaging, c, s =>
    some (attempt c
      (some (s.disk.openStaging.1, { s with disk := s.disk.openStaging.2 })) s)
  | .setLen f len, c, s =>
    some (s.withDisk (attempt c (some ((), s.disk.modify f (Bytes.setLen len))) s.disk))
  | .writeAll f offset buffer, c, s => some (s.writeAll t.stream f offset buffer c)
  | .syncData f, c, s => some (s.withDisk (attempt c (some ((), s.disk.syncData f)) s.disk))
  | .flush _, c, s =>
    some (attempt c (if s.writeFailed t.stream then none else some ((), s)) s)
  | .finalExists, c, s => some (attempt c (some (s.disk.final.isSome, s)) s)
  | .removeFinal, c, s =>
    some (s.withDisk (attempt c
      (s.disk.final.map fun _ => ((), { s.disk with final := none })) s.disk))
  | .renameStaging, c, s =>
    some (s.withDisk (attempt c ((s.disk.renameStaging t).map fun d => ((), d)) s.disk))
  | .sendOpenAck _, c, s => some (attempt c (some ((), s)) s)
  | .sendCompleteAck ack, c, s =>
    some (attempt c
      (some ((), { s with acks := Function.update s.acks t.stream (some ack) })) s)
  | .spawnWriter args, _, s => some ((), s.setWriter t.stream (.running args))
  | .awaitWriter, _, s =>
    match s.writers t.stream with
    | .running args => some (args, s)
    | _ => none
  | .finishWriter result, _, s => some ((), s.setWriter t.stream (.finished result))
  | .joinWriter, _, s =>
    match s.writers t.stream with
    | .finished result => some (result, s)
    | _ => none

/-- The server of one transfer. -/
def machine : Machine Task Op Op.Reply Choice State := ⟨exec⟩

/-- A server that has just been started, with what it finds stored and on disk. -/
def start (stored : TransferSummary) (disk : Disk) : State where
  transfer := stored
  stored := stored
  activeLaneWriters := []
  locks := fun _ => NamedLock.empty
  disk := disk
  writers := fun _ => .absent
  writeFailed := fun _ => false
  acks := fun _ => none

end Metra.Server
