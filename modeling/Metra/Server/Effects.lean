import Metra.Server.State

/-!
# What an operation can change

For each part of the state, which operations change it and how; every other
operation leaves it alone.  The invariants of the following modules are about a
few parts each, so these are all that their proofs need to know of `exec`.
-/

namespace Metra.Server

open Interleave

/-- An operation that may fail either fails and changes nothing, or is done. -/
theorem attempt_eq {α σ : Type} (c : Choice) (done : Option (α × σ)) (s : σ) :
    attempt c done s = (none, s) ∨
      ∃ a s', done = some (a, s') ∧ attempt c done s = (some a, s') := by
  cases c <;> rcases done with _ | ⟨a, s'⟩ <;> simp [attempt]

/-- What is reported as done was done. -/
theorem of_attempt_some {α σ : Type} {c : Choice} {done : Option (α × σ)} {s s' : σ} {a : α}
    (h : attempt c done s = (some a, s')) : done = some (a, s') := by
  rcases attempt_eq c done s with heq | ⟨b, s'', hdone, heq⟩
  · rw [heq] at h
    cases h
  · rw [heq] at h
    cases h
    exact hdone

/-- What fails changes nothing. -/
theorem of_attempt_none {α σ : Type} {c : Choice} {done : Option (α × σ)} {s s' : σ}
    (h : attempt c done s = (none, s')) : s' = s := by
  rcases attempt_eq c done s with heq | ⟨b, s'', -, heq⟩
  · rw [heq] at h
    cases h
    rfl
  · rw [heq] at h
    cases h

/-- A replacement is made or not, and is made if it is reported as made. -/
theorem replace_eq {σ : Type} (c : Choice) (s s' : σ) :
    replace c s' s = (none, s) ∨ ∃ r, replace c s' s = (r, s') := by
  cases c <;> simp [replace]

variable {t : Task} {o : Op} {c : Choice} {s s' : State} {r : o.Reply}

/-- What is done to the disk leaves the rest as it is. -/
theorem of_withDisk {out : Option Unit × Disk} {reply : Option Unit}
    (h : s.withDisk out = (reply, s')) :
    out = (reply, s'.disk) ∧ s' = { s with disk := out.2 } := by
  cases h
  exact ⟨rfl, rfl⟩

/-! ## The effects -/

theorem written_nil (s : State) (f offset : Nat) : s.written f offset [] = s := by
  have hself : Bytes.writeAt offset [] = (id : List UInt8 → List UInt8) := by
    funext d
    simp [Bytes.writeAt]
  simp [State.written, hself, Disk.modify]

/-- A write is made in full if it is answered and has not failed thereafter, another one in part
or not at all.  None is made once a write has failed. -/
theorem writeAll_of_exec {f offset : Nat} {buffer : List UInt8} {r : Option Unit}
    (h : exec t (.writeAll f offset buffer) c s = some (r, s')) :
    ∃ n, s' = { s.written f offset (buffer.take n) with writeFailed := s'.writeFailed } ∧
      (r = some () → s'.writeFailed t.stream = false → n = buffer.length) ∧
      (s.writeFailed t.stream = true → n = 0 ∧ r = none) ∧
      (s'.writeFailed = s.writeFailed ∨
        s'.writeFailed = Function.update s.writeFailed t.stream true) := by
  have hnone : s = { s.written f offset (buffer.take 0) with writeFailed := s.writeFailed } := by
    rw [List.take_zero, written_nil]
  by_cases hfine : s.writeFailed t.stream = true
  · simp only [exec, State.writeAll, hfine, if_true] at h
    cases h
    exact ⟨0, hnone, nofun, fun _ => ⟨rfl, rfl⟩, .inl rfl⟩
  · simp only [exec, State.writeAll, hfine, if_false, Bool.false_eq_true] at h
    cases c with
    | ok =>
      cases h
      refine ⟨buffer.length, ?_, fun _ _ => rfl, fun hfailed => absurd hfailed hfine, .inl rfl⟩
      rw [List.take_length]
    | ioPartial n =>
      cases h
      exact ⟨n, rfl, nofun, fun hfailed => absurd hfailed hfine, .inl rfl⟩
    | ioLate n =>
      cases h
      refine ⟨n, rfl, fun _ hlate => ?_, fun hfailed => absurd hfailed hfine, .inr rfl⟩
      simp at hlate
    | ioError =>
      cases h
      exact ⟨0, hnone, nofun, fun _ => ⟨rfl, rfl⟩, .inl rfl⟩
    | ioErrorAfter =>
      cases h
      exact ⟨0, hnone, nofun, fun _ => ⟨rfl, rfl⟩, .inl rfl⟩

/-- The operations on a lock. -/
def Op.IsOnLock (o : Op) (kind : LockKind) : Prop :=
  o = .lockFor kind ∨ o = .lock kind ∨ o = .unlock kind ∨ o = .clearLock kind

/-- What an operation makes of the state. -/
inductive Effect (t : Task) (s : State) : Op → State → Prop
  | none (o : Op) : Effect t s o s
  | markRunning {m n b : Nat} (hsize : s.transfer.fileSizeBytes = m) :
      Effect t s (.markRunning m n b)
        { s with transfer := { s.transfer with bytesTransferred := b, status := .running } }
  | recordProgress (b : Nat) : Effect t s (.recordProgress b) (s.setBytesTransferred b)
  | recordReceived (b : Nat) : Effect t s (.recordReceived b) (s.setBytesTransferred b)
  | setStatus (status : TransferStatus) (b : Nat) :
      Effect t s (.setStatus status b) { s with transfer := { s.transfer with
        status := status, bytesTransferred := min b s.transfer.fileSizeBytes } }
  | storeUpsert (summary : TransferSummary) :
      Effect t s (.storeUpsert summary) { s with stored := summary }
  | tryAcquireLaneWriter (lane : Nat) :
      Effect t s (.tryAcquireLaneWriter lane)
        { s with activeLaneWriters := lane :: s.activeLaneWriters }
  | releaseLaneWriter (lane : Nat) :
      Effect t s (.releaseLaneWriter lane)
        { s with activeLaneWriters := s.activeLaneWriters.filter (· ≠ lane) }
  | updateLock {o : Op} {kind : LockKind} (l : NamedLock Task) (ho : o.IsOnLock kind) :
      Effect t s o (s.updateLock kind l)
  | persistCheckpoint (checkpoint : TransferCheckpoint) :
      Effect t s (.persistCheckpoint checkpoint)
        { s with disk := s.disk.persistCheckpoint checkpoint }
  | removeCheckpoint :
      Effect t s .removeCheckpoint { s with disk := { s.disk with versions := [] } }
  | openStaging (hnone : s.disk.staging = none) :
      Effect t s .openStaging { s with disk := s.disk.openStaging.2 }
  | setLen (f len : Nat) :
      Effect t s (.setLen f len) { s with disk := s.disk.modify f (Bytes.setLen len) }
  | writeAll (f offset : Nat) (buffer : List UInt8) (n : Nat) (failed : Nat → Bool) :
      Effect t s (.writeAll f offset buffer)
        { s.written f offset (buffer.take n) with writeFailed := failed }
  | syncData (f : Nat) : Effect t s (.syncData f) { s with disk := s.disk.syncData f }
  | removeFinal : Effect t s .removeFinal { s with disk := { s.disk with final := none } }
  | renameStaging {f : Nat} (hf : s.disk.staging = some f) :
      Effect t s .renameStaging { s with disk := { s.disk with
        staging := none, final := some f
        placements := s.disk.placements ++ [⟨t, f, s.disk.inode f⟩] } }
  | sendCompleteAck (ack : QuicTransferCompleteAck) :
      Effect t s (.sendCompleteAck ack)
        { s with acks := Function.update s.acks t.stream (some ack) }
  | spawnWriter (args : WriterArgs) :
      Effect t s (.spawnWriter args) (s.setWriter t.stream (.running args))
  | finishWriter (result : Except String Nat) :
      Effect t s (.finishWriter result) (s.setWriter t.stream (.finished result))

/-- What is tried and would change nothing changes nothing. -/
theorem effect_of_attempt {α : Type} {done : Option (α × State)} {reply : Option α}
    (hdone : ∀ a s'', done = some (a, s'') → s'' = s) (h : attempt c done s = (reply, s')) :
    Effect t s o s' := by
  have hsame : s' = s := by
    cases reply with
    | none => exact of_attempt_none h
    | some a => exact hdone a s' (of_attempt_some h)
  rw [hsame]
  exact .none o

/-- What is tried on the disk is done or not. -/
theorem effect_of_withDisk {done : Option (Unit × Disk)} {reply : Option Unit}
    (hdone : ∀ d, done = some ((), d) → Effect t s o { s with disk := d })
    (h : s.withDisk (attempt c done s.disk) = (reply, s')) : Effect t s o s' := by
  obtain ⟨hout, hs'⟩ := of_withDisk h
  cases reply with
  | none =>
    rw [hs', hout, of_attempt_none hout]
    exact .none o
  | some u =>
    rw [hs', hout]
    exact hdone _ (of_attempt_some hout)

/-- **Every operation has one of these effects.** -/
theorem effect_of_exec (h : exec t o c s = some (r, s')) : Effect t s o s' := by
  cases o with
  | readTransfer | checkFinalized | checkRunning | readPolicy =>
    cases h
    exact .none _
  | markRunning m n b =>
    simp only [exec] at h
    split at h
    · cases h
      exact .none _
    · rename_i hmatch
      cases h
      exact .markRunning (not_not.1 (not_or.1 hmatch).1)
  | recordProgress b =>
    cases h
    exact .recordProgress b
  | recordReceived b =>
    cases h
    exact .recordReceived b
  | setStatus status b =>
    cases h
    exact .setStatus status b
  | storeUpsert summary =>
    have h := Option.some.inj h
    rcases replace_eq c s { s with stored := summary } with heq | ⟨reply, heq⟩
    · rw [heq] at h
      cases h
      exact .none _
    · rw [heq] at h
      cases h
      exact .storeUpsert summary
  | tryAcquireLaneWriter lane =>
    simp only [exec] at h
    split at h
    · cases h
      exact .none _
    · cases h
      exact .tryAcquireLaneWriter lane
  | releaseLaneWriter lane =>
    cases h
    exact .releaseLaneWriter lane
  | lockFor kind =>
    cases h
    exact .updateLock _ (.inl rfl)
  | lock kind =>
    obtain ⟨l, -, heq⟩ := Option.map_eq_some_iff.1 h
    cases heq
    exact .updateLock l (.inr (.inl rfl))
  | unlock kind =>
    cases h
    exact .updateLock _ (.inr (.inr (.inl rfl)))
  | clearLock kind =>
    cases h
    exact .updateLock _ (.inr (.inr (.inr rfl)))
  | createTenantDir | checkpointExists | stagingLen | finalExists | sendOpenAck ack =>
    refine effect_of_attempt ?_ (Option.some.inj h)
    intro a s'' hdone
    cases hdone
    rfl
  | flush f =>
    refine effect_of_attempt ?_ (Option.some.inj h)
    intro a s'' hdone
    split at hdone
    · cases hdone
    · cases hdone
      rfl
  | readCheckpoint =>
    refine effect_of_attempt ?_ (Option.some.inj h)
    intro a s'' hdone
    obtain ⟨found, -, hpair⟩ := Option.map_eq_some_iff.1 hdone
    cases hpair
    rfl
  | persistCheckpoint checkpoint =>
    obtain ⟨hout, hs'⟩ := of_withDisk (Option.some.inj h)
    rcases replace_eq c s.disk (s.disk.persistCheckpoint checkpoint) with heq | ⟨reply, heq⟩
    · rw [hs', heq]
      exact .none _
    · rw [hs', heq]
      exact .persistCheckpoint checkpoint
  | removeCheckpoint =>
    refine effect_of_withDisk ?_ (Option.some.inj h)
    intro d hdone
    obtain ⟨found, -, hpair⟩ := Option.map_eq_some_iff.1 hdone
    cases hpair
    exact .removeCheckpoint
  | openStaging =>
    rcases attempt_eq c (some (s.disk.openStaging.1, { s with disk := s.disk.openStaging.2 })) s
      with heq | ⟨f, s'', hdone, heq⟩
    · simp only [exec, heq] at h
      cases h
      exact .none _
    · simp only [exec, heq] at h
      cases h
      cases hdone
      cases hstaging : s.disk.staging with
      | none => exact .openStaging hstaging
      | some f =>
        have hsame : s.disk.openStaging.2 = s.disk := by
          rw [Disk.openStaging, hstaging]
        rw [hsame]
        exact .none _
  | setLen f len =>
    refine effect_of_withDisk ?_ (Option.some.inj h)
    intro d hdone
    cases hdone
    exact .setLen f len
  | writeAll f offset buffer =>
    obtain ⟨n, hs', -⟩ := writeAll_of_exec h
    rw [hs']
    exact .writeAll f offset buffer n _
  | syncData f =>
    refine effect_of_withDisk ?_ (Option.some.inj h)
    intro d hdone
    cases hdone
    exact .syncData f
  | removeFinal =>
    refine effect_of_withDisk ?_ (Option.some.inj h)
    intro d hdone
    obtain ⟨f, -, hpair⟩ := Option.map_eq_some_iff.1 hdone
    cases hpair
    exact .removeFinal
  | renameStaging =>
    refine effect_of_withDisk ?_ (Option.some.inj h)
    intro d hdone
    obtain ⟨d', hrename, hpair⟩ := Option.map_eq_some_iff.1 hdone
    cases hpair
    obtain ⟨f, hf, rfl⟩ := Option.map_eq_some_iff.1 hrename
    exact .renameStaging hf
  | sendCompleteAck ack =>
    rcases attempt_eq c
      (some ((), { s with acks := Function.update s.acks t.stream (some ack) })) s with
      heq | ⟨u, s'', hdone, heq⟩
    · simp only [exec, heq] at h
      cases h
      exact .none _
    · simp only [exec, heq] at h
      cases h
      cases hdone
      exact .sendCompleteAck ack
  | spawnWriter args =>
    cases h
    exact .spawnWriter args
  | awaitWriter | joinWriter =>
    simp only [exec] at h
    split at h
    · cases h
      exact .none _
    · cases h
  | finishWriter result =>
    cases h
    exact .finishWriter result

/-! ## The transfer -/

/-- Only marking the transfer as running and setting its status change the status. -/
theorem status_of_exec (h : exec t o c s = some (r, s')) :
    s'.transfer.status = s.transfer.status ∨
      (∃ m n b, o = .markRunning m n b ∧ s'.transfer.status = .running) ∨
      ∃ status b, o = .setStatus status b ∧ s'.transfer.status = status := by
  cases effect_of_exec h with
  | markRunning => exact .inr (.inl ⟨_, _, _, rfl, rfl⟩)
  | setStatus status b => exact .inr (.inr ⟨status, b, rfl, rfl⟩)
  | _ => exact .inl rfl

/-- The steps that change the transfer. -/
theorem transfer_of_exec (h : exec t o c s = some (r, s')) :
    s'.transfer = s.transfer ∨
      (∃ m n b, o = .markRunning m n b ∧ s.transfer.fileSizeBytes = m ∧
        s'.transfer = { s.transfer with bytesTransferred := b, status := .running }) ∨
      (∃ b, (o = .recordProgress b ∨ o = .recordReceived b) ∧ s'.transfer =
        { s.transfer with bytesTransferred := min b s.transfer.fileSizeBytes }) ∨
      ∃ status b, o = .setStatus status b ∧ s'.transfer =
        { s.transfer with
          status := status, bytesTransferred := min b s.transfer.fileSizeBytes } := by
  cases effect_of_exec h with
  | markRunning hsize => exact .inr (.inl ⟨_, _, _, rfl, hsize, rfl⟩)
  | recordProgress b => exact .inr (.inr (.inl ⟨b, .inl rfl, rfl⟩))
  | recordReceived b => exact .inr (.inr (.inl ⟨b, .inr rfl, rfl⟩))
  | setStatus status b => exact .inr (.inr (.inr ⟨status, b, rfl, rfl⟩))
  | _ => exact .inl rfl

/-- Nothing but the status and the byte count ever changes. -/
theorem sameTransfer_of_exec {transfer : TransferSummary} (h : exec t o c s = some (r, s'))
    (hsame : SameTransfer transfer s.transfer) : SameTransfer transfer s'.transfer := by
  rw [SameTransfer] at hsame ⊢
  rcases transfer_of_exec h with heq | ⟨m, n, b, -, -, heq⟩ | ⟨b, -, heq⟩ | ⟨status, b, -, heq⟩
  all_goals
    rw [heq, hsame]

theorem stored_of_exec (h : exec t o c s = some (r, s')) :
    s'.stored = s.stored ∨ ∃ summary, o = .storeUpsert summary ∧ s'.stored = summary := by
  cases effect_of_exec h with
  | storeUpsert summary => exact .inr ⟨summary, rfl, rfl⟩
  | _ => exact .inl rfl

/-! ## The tasks -/

theorem locks_of_exec (h : exec t o c s = some (r, s')) (ho : ∀ kind, ¬ o.IsOnLock kind) :
    s'.locks = s.locks := by
  cases effect_of_exec h with
  | updateLock l honLock => exact absurd honLock (ho _)
  | _ => rfl

theorem activeLaneWriters_of_exec (h : exec t o c s = some (r, s')) :
    s'.activeLaneWriters = s.activeLaneWriters ∨
      (∃ lane, o = .tryAcquireLaneWriter lane) ∨ ∃ lane, o = .releaseLaneWriter lane := by
  cases effect_of_exec h with
  | tryAcquireLaneWriter lane => exact .inr (.inl ⟨lane, rfl⟩)
  | releaseLaneWriter lane => exact .inr (.inr ⟨lane, rfl⟩)
  | _ => exact .inl rfl

theorem writers_of_exec (h : exec t o c s = some (r, s')) :
    s'.writers = s.writers ∨
      (∃ args, o = .spawnWriter args ∧
        s'.writers = Function.update s.writers t.stream (.running args)) ∨
      ∃ result, o = .finishWriter result ∧
        s'.writers = Function.update s.writers t.stream (.finished result) := by
  cases effect_of_exec h with
  | spawnWriter args => exact .inr (.inl ⟨args, rfl, rfl⟩)
  | finishWriter result => exact .inr (.inr ⟨result, rfl, rfl⟩)
  | _ => exact .inl rfl

/-- A task changes the writer of its own stream only. -/
theorem writers_of_ne {i : Nat} (h : exec t o c s = some (r, s')) (hi : i ≠ t.stream) :
    s'.writers i = s.writers i := by
  rcases writers_of_exec h with heq | ⟨args, -, heq⟩ | ⟨result, -, heq⟩
  · rw [heq]
  · rw [heq, Function.update_of_ne hi]
  · rw [heq, Function.update_of_ne hi]

/-- A writer that is running was running before, or is spawned. -/
theorem running_of_exec {i : Nat} {args : WriterArgs} (h : exec t o c s = some (r, s'))
    (hw : s'.writers i = .running args) :
    s.writers i = .running args ∨ i = t.stream ∧ o = .spawnWriter args := by
  by_cases hi : i = t.stream
  · rcases writers_of_exec h with heq | ⟨args', rfl, heq⟩ | ⟨result, -, heq⟩
    · rw [heq] at hw
      exact .inl hw
    · rw [heq, hi, Function.update_self] at hw
      cases hw
      exact .inr ⟨hi, rfl⟩
    · rw [heq, hi, Function.update_self] at hw
      cases hw
  · rw [writers_of_ne h hi] at hw
    exact .inl hw

/-- A writer that has ended had ended before, or ends. -/
theorem finished_of_exec {i : Nat} {result : Except String Nat}
    (h : exec t o c s = some (r, s')) (hw : s'.writers i = .finished result) :
    s.writers i = .finished result ∨ i = t.stream ∧ o = .finishWriter result := by
  by_cases hi : i = t.stream
  · rcases writers_of_exec h with heq | ⟨args, -, heq⟩ | ⟨result', rfl, heq⟩
    · rw [heq] at hw
      exact .inl hw
    · rw [heq, hi, Function.update_self] at hw
      cases hw
    · rw [heq, hi, Function.update_self] at hw
      cases hw
      exact .inr ⟨hi, rfl⟩
  · rw [writers_of_ne h hi] at hw
    exact .inl hw

/-- A writer that starts has been spawned. -/
theorem awaitWriter_of_exec {args : WriterArgs} (h : exec t .awaitWriter c s = some (args, s')) :
    s.writers t.stream = .running args ∧ s' = s := by
  simp only [exec] at h
  split at h
  · rename_i heq
    cases h
    exact ⟨heq, rfl⟩
  · cases h

/-- A writer that is joined has ended. -/
theorem joinWriter_of_exec {result : Except String Nat}
    (h : exec t .joinWriter c s = some (result, s')) :
    s.writers t.stream = .finished result ∧ s' = s := by
  simp only [exec] at h
  split at h
  · rename_i heq
    cases h
    exact ⟨heq, rfl⟩
  · cases h

theorem acks_of_exec (h : exec t o c s = some (r, s')) :
    s'.acks = s.acks ∨ ∃ ack, o = .sendCompleteAck ack ∧
      s'.acks = Function.update s.acks t.stream (some ack) := by
  cases effect_of_exec h with
  | sendCompleteAck ack => exact .inr ⟨ack, rfl, rfl⟩
  | _ => exact .inl rfl

/-- Only a write fails late, and the writer's flag is not taken back. -/
theorem writeFailed_of_exec (h : exec t o c s = some (r, s')) :
    s'.writeFailed = s.writeFailed ∨ (∃ f offset buffer, o = .writeAll f offset buffer) ∧
      s'.writeFailed = Function.update s.writeFailed t.stream true := by
  cases o with
  | writeAll f offset buffer =>
    obtain ⟨-, -, -, -, hsame | hlate⟩ := writeAll_of_exec h
    · exact .inl hsame
    · exact .inr ⟨⟨f, offset, buffer, rfl⟩, hlate⟩
  | _ =>
    left
    cases effect_of_exec h <;> rfl

/-- A writer none of whose writes has failed had none before. -/
theorem fine_of_exec (h : exec t o c s = some (r, s')) {i : Nat}
    (hfine : s'.writeFailed i = false) : s.writeFailed i = false := by
  rcases writeFailed_of_exec h with heq | ⟨-, heq⟩
  · rwa [heq] at hfine
  · rw [heq] at hfine
    by_cases hi : i = t.stream
    · subst hi
      simp at hfine
    · rwa [Function.update_of_ne hi] at hfine

/-- The file that is flushed holds all that was written to it. -/
theorem flush_of_exec {f : Nat} (h : exec t (.flush f) c s = some (some (), s')) :
    s.writeFailed t.stream = false ∧ s' = s := by
  have hdone := of_attempt_some (Option.some.inj h)
  split at hdone
  · cases hdone
  · rename_i hfine
    cases hdone
    exact ⟨by simpa using hfine, rfl⟩

/-- Nothing fails late where every step comes out well. -/
theorem fine_of_ok (h : exec t o .ok s = some (r, s')) (hfine : ∀ i, s.writeFailed i = false) :
    ∀ i, s'.writeFailed i = false := by
  rcases writeFailed_of_exec h with heq | ⟨⟨f, offset, buffer, rfl⟩, -⟩
  · rw [heq]
    exact hfine
  · simp only [exec, State.writeAll, hfine, if_false, Bool.false_eq_true] at h
    cases h
    exact hfine

/-! ## The files -/

/-- The names of the files are what they were. -/
def Disk.SameNames (d d' : Disk) : Prop :=
  d'.staging = d.staging ∧ d'.final = d.final ∧ d'.placements = d.placements ∧
    d'.nextInode = d.nextInode

/-- The names change only by making the staging file, by removing the final one and by
renaming. -/
theorem names_of_exec (h : exec t o c s = some (r, s')) :
    s.disk.SameNames s'.disk ∨
      (o = .openStaging ∧ s.disk.staging = none ∧ s'.disk.staging = some s.disk.nextInode ∧
        s'.disk.nextInode = s.disk.nextInode + 1 ∧ s'.disk.final = s.disk.final ∧
        s'.disk.placements = s.disk.placements) ∨
      (o = .removeFinal ∧ s'.disk.final = none ∧ s'.disk.staging = s.disk.staging ∧
        s'.disk.nextInode = s.disk.nextInode ∧ s'.disk.placements = s.disk.placements) ∨
      ∃ f, o = .renameStaging ∧ s.disk.staging = some f ∧ s'.disk.staging = none ∧
        s'.disk.final = some f ∧ s'.disk.nextInode = s.disk.nextInode ∧
        s'.disk.placements = s.disk.placements ++ [⟨t, f, s.disk.inode f⟩] := by
  cases effect_of_exec h with
  | openStaging hnone =>
    have heq : s.disk.openStaging.2 = { s.disk with
        staging := some s.disk.nextInode, nextInode := s.disk.nextInode + 1
        inode := Function.update s.disk.inode s.disk.nextInode ⟨[], []⟩ } := by
      rw [Disk.openStaging, hnone]
    rw [heq]
    exact .inr (.inl ⟨rfl, hnone, rfl, rfl, rfl, rfl⟩)
  | removeFinal => exact .inr (.inr (.inl ⟨rfl, rfl, rfl, rfl, rfl⟩))
  | renameStaging hf => exact .inr (.inr (.inr ⟨_, rfl, hf, rfl, rfl, rfl, rfl⟩))
  | _ => exact .inl ⟨rfl, rfl, rfl, rfl⟩

/-- What looking at the final path tells. -/
theorem finalExists_of_exec {present : Bool}
    (h : exec t .finalExists c s = some (some present, s')) :
    present = s.disk.final.isSome ∧ s' = s := by
  have hdone := of_attempt_some (Option.some.inj h)
  cases hdone
  exact ⟨rfl, rfl⟩

/-- What reading the checkpoint gives is what the file holds. -/
theorem readCheckpoint_of_exec {found : TransferCheckpoint}
    (h : exec t .readCheckpoint c s = some (some found, s')) :
    s.disk.checkpoint = some found ∧ s' = s := by
  obtain ⟨found', hfound, hpair⟩ :=
    Option.map_eq_some_iff.1 (of_attempt_some (Option.some.inj h))
  cases hpair
  exact ⟨hfound, rfl⟩

theorem checkpointExists_of_exec {present : Option Bool}
    (h : exec t .checkpointExists c s = some (present, s')) :
    s' = s ∧ ∀ b, present = some b → b = s.disk.checkpoint.isSome := by
  cases present with
  | none => exact ⟨of_attempt_none (Option.some.inj h), by simp⟩
  | some b =>
    have hdone := of_attempt_some (Option.some.inj h)
    cases hdone
    exact ⟨rfl, by simp⟩

theorem readCheckpoint_none_of_exec
    (h : exec t .readCheckpoint c s = some (none, s')) : s' = s :=
  of_attempt_none (Option.some.inj h)

theorem stagingLen_of_exec {len : Option (Option Nat)}
    (h : exec t .stagingLen c s = some (len, s')) :
    s' = s ∧ ∀ n, len = some n →
      n = s.disk.staging.map fun f => (s.disk.inode f).data.length := by
  cases len with
  | none => exact ⟨of_attempt_none (Option.some.inj h), by simp⟩
  | some n =>
    have hdone := of_attempt_some (Option.some.inj h)
    cases hdone
    refine ⟨rfl, ?_⟩
    rintro n hn
    cases hn
    rfl

theorem createTenantDir_of_exec {made : Option Unit}
    (h : exec t .createTenantDir c s = some (made, s')) : s' = s := by
  cases made with
  | none => exact of_attempt_none (Option.some.inj h)
  | some u =>
    have hdone := of_attempt_some (Option.some.inj h)
    cases hdone
    rfl

theorem removeFinal_of_exec (h : exec t .removeFinal c s = some (some (), s')) :
    s'.disk.final = none := by
  obtain ⟨hout, -⟩ := of_withDisk (Option.some.inj h)
  obtain ⟨f, -, hpair⟩ := Option.map_eq_some_iff.1 (of_attempt_some hout)
  exact (congrArg (fun out => out.2.final) hpair).symm

/-- A renaming that is reported as made was made, and another one was not. -/
theorem renameStaging_of_exec {r : Option Unit} (h : exec t .renameStaging c s = some (r, s')) :
    (r = none ∧ s' = s) ∨ r = some () ∧ ∃ f, s.disk.staging = some f ∧ s' = { s with
      disk := { s.disk with
        staging := none, final := some f
        placements := s.disk.placements ++ [⟨t, f, s.disk.inode f⟩] } } := by
  obtain ⟨hout, hs'⟩ := of_withDisk (Option.some.inj h)
  cases r with
  | none => exact .inl ⟨rfl, by rw [hs', hout, of_attempt_none hout]⟩
  | some u =>
    obtain ⟨d, hrename, hpair⟩ := Option.map_eq_some_iff.1 (of_attempt_some hout)
    obtain ⟨f, hf, rfl⟩ := Option.map_eq_some_iff.1 hrename
    refine .inr ⟨rfl, f, hf, ?_⟩
    rw [hs', hout, ← congrArg Prod.snd hpair]

/-- Opening the staging file makes it if there is none. -/
theorem openStaging_of_exec {r : Option Nat} (h : exec t .openStaging c s = some (r, s')) :
    (r = none ∧ s' = s) ∨
      r = some s.disk.openStaging.1 ∧ s' = { s with disk := s.disk.openStaging.2 } := by
  cases r with
  | none => exact .inl ⟨rfl, of_attempt_none (Option.some.inj h)⟩
  | some f =>
    have hdone := of_attempt_some (Option.some.inj h)
    cases hdone
    exact .inr ⟨rfl, rfl⟩

theorem versions_of_exec (h : exec t o c s = some (r, s')) :
    s'.disk.versions = s.disk.versions ∨
      (∃ checkpoint, o = .persistCheckpoint checkpoint ∧
        s'.disk.versions = s.disk.versions ++ [checkpoint]) ∨
      (o = .removeCheckpoint ∧ s'.disk.versions = []) := by
  cases effect_of_exec h with
  | persistCheckpoint checkpoint => exact .inr (.inl ⟨checkpoint, rfl, rfl⟩)
  | removeCheckpoint => exact .inr (.inr ⟨rfl, rfl⟩)
  | openStaging hnone =>
    left
    simp only [Disk.openStaging, hnone]
  | _ => exact .inl rfl

/-- A file changes only by being made, being set to a length, being written to and
being synced. -/
theorem inode_of_exec (h : exec t o c s = some (r, s')) (f : Nat) :
    s'.disk.inode f = s.disk.inode f ∨
      (o = .openStaging ∧ s.disk.staging = none ∧ f = s.disk.nextInode ∧
        s'.disk.inode f = ⟨[], []⟩) ∨
      (∃ n, o = .setLen f n ∧ s'.disk.inode f =
        ⟨Bytes.setLen n (s.disk.inode f).data, (s.disk.inode f).synced⟩) ∨
      (∃ offset buffer n, o = .writeAll f offset buffer ∧ s'.disk.inode f =
        ⟨Bytes.writeAt offset (buffer.take n) (s.disk.inode f).data,
          (s.disk.inode f).synced⟩) ∨
      (o = .syncData f ∧
        s'.disk.inode f = ⟨(s.disk.inode f).data, (s.disk.inode f).data⟩) := by
  cases effect_of_exec h with
  | openStaging hnone =>
    rw [Disk.openStaging_inode]
    split
    · rename_i hnew
      exact .inr (.inl ⟨rfl, hnone, hnew.2, rfl⟩)
    · exact .inl rfl
  | setLen g len =>
    rw [Disk.modify_inode]
    split
    · rename_i hf
      subst hf
      exact .inr (.inr (.inl ⟨len, rfl, rfl⟩))
    · exact .inl rfl
  | writeAll g offset buffer n failed =>
    have hinode := s.disk.modify_inode g f (Bytes.writeAt offset (buffer.take n))
    by_cases hf : f = g
    · subst hf
      rw [if_pos rfl] at hinode
      exact .inr (.inr (.inr (.inl ⟨offset, buffer, n, rfl, hinode⟩)))
    · rw [if_neg hf] at hinode
      exact .inl hinode
  | syncData g =>
    rw [Disk.syncData_inode]
    split
    · rename_i hf
      subst hf
      exact .inr (.inr (.inr (.inr ⟨rfl, rfl⟩)))
    · exact .inl rfl
  | _ => exact .inl rfl

end Metra.Server
