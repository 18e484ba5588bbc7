import Metra.Server.Aside
import Metra.Server.Completed
import Metra.Server.Updates

/-!
# The byte count of the transfer

Every lane works out a total under the checkpoint lock and publishes it to the transfer after
it has released the lock.  Who finalizes the transfer on disk copies the count that it finds
there, whatever it has read in the checkpoint.

* `bytes_accounted` — the count never exceeds the file size; and in runs in which a finalizer
  copies the count only while it is the total the finalizer knows of, and in which no smaller
  total is published once the transfer is completed, a completed transfer has all its bytes;
* `completed_short` — a lane finalizes the transfer before another one has published the
  total of the last offset.
-/

namespace Metra.Server

open Interleave

/-! ## What a task knows of the count -/

/-- What a task has read of the transfer, and the count that it would complete it with. -/
structure Account where
  snapshot : Option TransferSummary
  whole : Option Nat

/-- A task stores what it has read, and completes the transfer with the count that it has
last read in a complete checkpoint, received, or copied. -/
def accounting : Protocol Op Op.Reply Account where
  enabled acc o :=
    match o with
    | .markRunning fileSizeBytes _ bytes => bytes ≤ fileSizeBytes
    | .storeUpsert summary => acc.snapshot = some summary
    | .setStatus .completed bytes => acc.whole = some bytes
    | _ => True
  possible _ _ _ := True
  advance acc o r :=
    match o, r with
    | .readTransfer, transfer => { acc with snapshot := some transfer }
    | .readCheckpoint, some c =>
      if c.allLanesComplete then { acc with whole := some c.totalTransferred } else acc
    | .recordReceived _, fileSize => { acc with whole := some fileSize }
    | .readPolicy, policy => { acc with whole := some policy.2.2 }
    | _, _ => acc

section

variable {α : Type} {ctx : Context} {acc : Account}

/-- The program keeps to the protocol from wherever it starts. -/
abbrev Accounts (p : Prog Op Op.Reply α) : Prop := p.Keeps accounting fun _ => True

theorem accounts_of_aside {p : Prog Op Op.Reply α} (h : Aside p) : Accounts p := by
  refine .of_all ?_ h
  intro o acc ho _
  refine ⟨?_, fun _ => trivial⟩
  cases o <;> trivial

theorem accounts_of_silent {p : Prog Op Op.Reply α} (h : Silent p) : Accounts p :=
  accounts_of_aside (aside_of_silent h)

/-! ## The status -/

theorem persistTransferSummary_accounts : Accounts (persistTransferSummary ctx).toProg := by
  intro acc _
  unfold persistTransferSummary
  refine Prog.Obeys.liftBind trivial fun snapshot _ => ?_
  refine Prog.Obeys.orFail (Prog.Obeys.perform rfl fun r _ => ?_)
  cases r <;> trivial

theorem setTransferStatus_accounts {status : TransferStatus} {bytes : Nat}
    (hset : accounting.enabled acc (.setStatus status bytes)) :
    (setTransferStatus ctx status bytes).toProg.Obeys accounting (fun _ _ => True) acc := by
  unfold setTransferStatus
  refine Prog.Obeys.liftBind hset fun _ _ => ?_
  refine Prog.Keeps.tryBind persistTransferSummary_accounts (fun _ => ?_) _ trivial
  exact .lift (accounts_of_silent (clearTransferLocks_silent status))

theorem finishWith_accounts {status : TransferStatus} {bytes : Nat} {message : String}
    (hset : accounting.enabled acc (.setStatus status bytes)) :
    (finishWith ctx status bytes message).toProg.Obeys accounting (fun _ _ => True) acc := by
  unfold finishWith
  exact Prog.Obeys.tryBind (setTransferStatus_accounts hset) (fun _ _ _ => trivial)
    fun _ _ _ => trivial

theorem failRunningTransfer_accounts : Accounts (failRunningTransfer ctx).toProg := by
  unfold failRunningTransfer
  refine .tryBind (accounts_of_aside (all_lift trivial)) fun running => ?_
  cases running with
  | none => exact .ret _
  | some bytes => exact fun acc _ => setTransferStatus_accounts trivial

/-! ## Finalization -/

/-- Looking at the final path makes no difference to the account. -/
theorem finalExists_accounts {context : String} :
    (fallible context (perform .finalExists)).toProg.Keeps accounting (· = acc) := by
  intro acc' h
  refine Prog.Obeys.orFail (Prog.Obeys.perform trivial fun r _ => ?_)
  cases r <;> exact h

theorem refusedBy_accounts (refused : Bool) :
    (refusedBy refused).toProg.Keeps accounting (· = acc) := by
  unfold refusedBy
  split
  · exact finalExists_accounts
  · exact .ret _

theorem removeExisting_accounts : (removeExisting ctx).toProg.Keeps accounting (· = acc) := by
  unfold removeExisting
  refine .tryBind finalExists_accounts fun present => ?_
  split
  · intro acc' h
    refine Prog.Obeys.orFail (Prog.Obeys.perform trivial fun r _ => ?_)
    cases r <;> exact h
  · exact .ret _

theorem moveIntoPlace_accounts {bytes : Nat} (hwhole : acc.whole = some bytes) :
    (moveIntoPlace ctx bytes).toProg.Obeys accounting (fun _ _ => True) acc := by
  unfold moveIntoPlace
  refine Prog.Obeys.tryBind (removeExisting_accounts acc rfl) ?_ fun _ _ _ => trivial
  rintro _ _ rfl
  refine Prog.Obeys.tryBind (Q := fun _ acc' => acc'.whole = some bytes)
    (Prog.Obeys.orFail (Prog.Obeys.perform trivial fun r _ => by cases r <;> exact hwhole)) ?_
    fun _ _ _ => trivial
  exact fun _ _ hwhole' => finishWith_accounts hwhole'

theorem finalizeTransferOnDisk_accounts : Accounts (finalizeTransferOnDisk ctx).toProg := by
  intro acc _
  unfold finalizeTransferOnDisk
  refine Prog.Obeys.liftBind trivial ?_
  rintro ⟨overwrite, immutableDestination, bytes⟩ -
  refine Prog.Obeys.tryBind (refusedBy_accounts _ _ rfl) ?_ fun _ _ _ => trivial
  rintro immutableFound _ rfl
  split
  · exact finishWith_accounts trivial
  · refine Prog.Obeys.tryBind (refusedBy_accounts _ _ rfl) ?_ fun _ _ _ => trivial
    rintro found _ rfl
    split
    · exact finishWith_accounts trivial
    · exact moveIntoPlace_accounts rfl

/-- Who has read a complete checkpoint knows its total. -/
theorem loadCheckpoint_accounts :
    (loadCheckpoint ctx).toProg.Obeys accounting
      (fun r acc => ∀ c, r = .ok c → c.allLanesComplete = true →
        acc.whole = some c.totalTransferred) acc := by
  unfold loadCheckpoint withLock
  refine Prog.Obeys.bind (Prog.Obeys.perform (Q := fun _ _ => True) trivial fun _ _ => trivial)
    fun _ _ _ => ?_
  refine Prog.Obeys.bind (Prog.Obeys.perform (Q := fun _ _ => True) trivial fun _ _ => trivial)
    fun _ _ _ => ?_
  refine Prog.Obeys.bind
    (Q := fun r acc => ∀ c, r = .ok c → c.allLanesComplete = true →
      acc.whole = some c.totalTransferred) ?_ fun r acc hr => ?_
  · refine Prog.Obeys.orFail (Prog.Obeys.perform trivial fun r _ => ?_)
    cases r with
    | none =>
      intro c hc
      cases hc
    | some found =>
      intro c hc hcomplete
      cases hc
      simp [accounting, hcomplete]
  · exact Prog.Obeys.bind (f := fun _ => Prog.ret r) (Prog.Obeys.perform trivial fun _ _ => hr)
      fun _ _ h => h

theorem finalizeIfReady_accounts (discardPayload : Bool) :
    Accounts (finalizeIfReady ctx discardPayload).toProg := by
  refine keeps_withLock (fun ho => accounts_of_aside (all_perform ho)) ?_
  unfold finalizeIfReadyUnlocked
  refine .tryBind (accounts_of_aside (all_lift trivial)) ?_
  rintro ⟨alreadyDone, bytesTransferred⟩
  show Accounts (TryProg.toProg (if alreadyDone = true then _ else _))
  split
  · exact .ret _
  · intro acc _
    refine Prog.Obeys.tryBind loadCheckpoint_accounts ?_ fun _ _ _ => trivial
    intro checkpoint acc' hcheckpoint
    split
    · exact finishWith_accounts trivial
    · rename_i hcomplete
      have hwhole := hcheckpoint checkpoint rfl (by simpa using hcomplete)
      refine Prog.Obeys.tryBind (Q := fun _ _ => True) ?_ ?_ fun _ _ _ => trivial
      · unfold finalizeComplete
        split
        · exact finishWith_accounts hwhole
        · exact finalizeTransferOnDisk_accounts _ trivial
      · intro finalized acc'' _
        exact Prog.Obeys.liftBind trivial fun _ _ => trivial

theorem finalizeSingleLaneTransfer_accounts (bytesReceived : Nat) :
    Accounts (finalizeSingleLaneTransfer ctx bytesReceived).toProg := by
  unfold finalizeSingleLaneTransfer
  refine .tryBind (accounts_of_aside (all_lift trivial)) fun fileSize => ?_
  split
  · exact fun acc _ => finishWith_accounts trivial
  · exact finalizeTransferOnDisk_accounts

theorem finalizeSingleLaneTransferMemory_accounts (bytesReceived : Nat) :
    Accounts (finalizeSingleLaneTransferMemory ctx bytesReceived).toProg := by
  intro acc _
  unfold finalizeSingleLaneTransferMemory
  refine Prog.Obeys.liftBind trivial fun fileSize _ => ?_
  split
  · exact finishWith_accounts trivial
  · rename_i heq
    obtain rfl : bytesReceived = fileSize := not_not.1 heq
    refine finishWith_accounts ?_
    show some bytesReceived = some (min bytesReceived bytesReceived)
    rw [min_self]

theorem finalizeStream_accounts (admission : Admission) (discardPayload : Bool)
    (bytesReceived : Nat) :
    Accounts (finalizeStream ctx admission discardPayload bytesReceived).toProg := by
  unfold finalizeStream
  split
  · exact finalizeIfReady_accounts _
  · split
    · exact finalizeSingleLaneTransferMemory_accounts _
    · exact finalizeSingleLaneTransfer_accounts _

/-! ## The handler -/

theorem streamBody_accounts (stream : LaneStream) (admission : Admission)
    (discardPayload : Bool) (resumeOffset : Nat) :
    Accounts (streamBody ctx stream admission discardPayload resumeOffset).toProg := by
  unfold streamBody
  refine .tryBind (accounts_of_silent (presizeIfStriped_silent _ _ _)) fun _ => ?_
  refine .tryBind (accounts_of_aside (all_fallible (all_perform trivial))) fun _ => ?_
  refine .tryBind (accounts_of_silent (receivePayload_silent _ _ _ _)) fun bytesWritten => ?_
  refine .tryBind (accounts_of_silent (recordDiscarded_silent _ _ _ _)) fun _ => ?_
  refine .tryBind (finalizeStream_accounts _ _ _) fun complete => ?_
  exact accounts_of_aside (all_fallible (all_perform trivial))

theorem failingTransfer_accounts {body : Task.Program Unit} (hbody : Accounts body.toProg) :
    Accounts (failingTransfer ctx body).toProg := by
  refine .bind hbody fun result => ?_
  cases result with
  | ok _ => exact .ret _
  | error err => exact .bind failRunningTransfer_accounts fun _ => .ret _

/-- A stream does not start with more bytes than the file has. -/
theorem openLane_le (request : QuicTransferOpen) (admission : Admission)
    (transfer : TransferSummary) (discardPayload : Bool) :
    (openLane ctx request admission transfer discardPayload).toProg.Obeys accounting
      (fun r _ => ∀ out, r = .ok out → out.2 ≤ transfer.fileSizeBytes) acc := by
  unfold openLane
  split
  · refine Prog.Obeys.tryBind
      (accounts_of_silent (loadOrInitLaneResume_silent _ _ _ _ _ _) acc trivial) ?_ ?_
    · rintro ⟨laneResume, totalTransferred⟩ _ _ out hout
      cases hout
      exact Nat.min_le_right _ _
    · intro e _ _ out hout
      cases hout
  · split
    · intro out hout
      cases hout
      exact Nat.min_le_right _ _
    · unfold stagingResume
      refine Prog.Obeys.tryBind (Q := fun _ _ => True)
        (accounts_of_aside (all_fallible (@all_perform Op.IsAside .stagingLen trivial)) acc trivial)
        ?_ ?_
      · intro len _ _
        split
        · intro out hout
          cases hout
        · rename_i hle
          intro out hout
          cases hout
          exact not_lt.1 hle
      · intro e _ _ out hout
        cases hout

theorem leasedStream_accounts (stream : LaneStream) (admission : Admission)
    (transfer : TransferSummary) :
    Accounts (leasedStream ctx stream admission transfer).toProg := by
  unfold leasedStream
  refine .tryBind (accounts_of_aside (all_fallible (all_perform trivial))) fun _ => ?_
  intro acc _
  refine Prog.Obeys.tryBind (openLane_le _ _ _ _) ?_ fun _ _ _ => trivial
  rintro ⟨resumeOffset, bytesTransferredNow⟩ acc' hle
  refine Prog.Obeys.tryBind (Q := fun _ _ => True) ?_ ?_ fun _ _ _ => trivial
  · unfold markRunning
    refine Prog.Obeys.liftBind (hle _ rfl) fun unchanged _ => ?_
    cases unchanged with
    | true => trivial
    | false => trivial
  · intro _ acc'' _
    exact Prog.Keeps.tryBind persistTransferSummary_accounts
      (fun _ => failingTransfer_accounts (streamBody_accounts _ _ _ _)) _ trivial

theorem handleQuicStream_accounts (stream : LaneStream) :
    Accounts (handleQuicStream ctx stream).toProg := by
  unfold handleQuicStream
  refine .tryBind (.ret _) fun admission => ?_
  refine .tryBind (accounts_of_aside (all_lift trivial)) fun transfer => ?_
  refine .tryBind (.ret _) fun _ => ?_
  refine .bind (accounts_of_aside (all_perform trivial)) fun acquired => ?_
  cases acquired with
  | false => exact .ret _
  | true =>
    refine .bind (leasedStream_accounts _ _ _) fun result => ?_
    exact .bind (accounts_of_aside (all_perform trivial)) fun _ => .ret _

theorem program_accounts (streams : Nat → Option LaneStream) (t : Task) :
    Accounts (program ctx streams t) := by
  cases t with
  | handler i =>
    show Accounts ((streams i).elim _ _)
    cases streams i with
    | none => exact .ret _
    | some stream => exact handleQuicStream_accounts stream
  | writer i =>
    show Accounts ((streams i).elim _ _)
    cases streams i with
    | none => exact .ret _
    | some stream => exact accounts_of_silent writerTask_silent

end

/-! ## The count -/

/-- The count does not exceed the file size, and reaches it when the transfer is completed. -/
def Balanced (transfer : TransferSummary) : Prop :=
  transfer.bytesTransferred ≤ transfer.fileSizeBytes ∧
    (transfer.status = .completed → transfer.bytesTransferred = transfer.fileSizeBytes)

/-- The steps that publish in order: a finalizer copies the count while it is the total that
it knows of, and once the transfer is completed no smaller total is published. -/
structure Setup.PublishesInOrder (setup : Setup) (s : Tracked Task (Point × Account) State)
    (t : Task) (o : Op) (_ : Choice) : Prop where
  copied : o = .readPolicy → (s.point t).2.whole = some s.shared.transfer.bytesTransferred
  late : ∀ bytes, o = .recordProgress bytes → s.shared.transfer.status = .completed →
    setup.size ≤ bytes

/-- What is known of the counts that are in memory, stored, and in the hands of the tasks. -/
structure Setup.Accounted (setup : Setup) (s : Tracked Task (Point × Account) State) : Prop where
  transfer : Balanced s.shared.transfer
  stored : Balanced s.shared.stored
  snapshot : ∀ u summary, (s.point u).2.snapshot = some summary → Balanced summary
  whole : ∀ u bytes, (s.point u).2.whole = some bytes → bytes = setup.size

section

variable {setup : Setup}

/-- A complete checkpoint has all the bytes. -/
theorem Setup.Counts.total {c : TransferCheckpoint} (h : setup.Counts c)
    (hlimit : setup.size < 2 ^ 64) (hcomplete : c.allLanesComplete = true) :
    c.totalTransferred = setup.size := by
  obtain ⟨lanes, hpos, hwf⟩ := h
  exact (hwf.allLanesComplete_iff hpos hlimit).1 hcomplete

variable {s : Tracked Task (Point × Account) State} {t : Task} {o : Op} {c : Choice}
  {r : o.Reply} {s' : State}

/-- No step takes the count out of balance. -/
theorem balanced_step (h : setup.Accounted s)
    (hsame : SameTransfer setup.transfer s.shared.transfer)
    (henabled : Enabled setup t (s.point t).1 o)
    (haccount : accounting.enabled (s.point t).2 o)
    (hallowed : setup.PublishesInOrder s t o c) (hexec : exec t o c s.shared = some (r, s')) :
    Balanced s'.transfer := by
  have hsize : s.shared.transfer.fileSizeBytes = setup.size := by
    rw [hsame]
    rfl
  rcases transfer_of_exec hexec with heq | ⟨m, n, b, rfl, hm, heq⟩ | ⟨b, ho, heq⟩ |
    ⟨status, b, rfl, heq⟩
  · rw [heq]
    exact h.transfer
  · rw [heq]
    refine ⟨?_, fun hstatus => by cases hstatus⟩
    show b ≤ s.shared.transfer.fileSizeBytes
    rw [hm]
    exact haccount
  · rw [heq]
    refine ⟨Nat.min_le_right _ _, fun hstatus => ?_⟩
    refine Nat.min_eq_right ?_
    rcases ho with rfl | rfl
    · rw [hsize]
      exact hallowed.late b rfl hstatus
    · -- only the whole file is recorded as received
      revert henabled
      generalize (s.point t).1 = pt
      intro henabled
      cases henabled with
      | recordReceived => exact hsize.le
  · rw [heq]
    refine ⟨Nat.min_le_right _ _, fun hstatus => ?_⟩
    obtain rfl : status = .completed := hstatus
    rw [h.whole t b haccount, ← hsize]
    exact Nat.min_self _

/-- What a task knows of the count is right. -/
theorem whole_step (h : setup.Accounted s) (hlimit : setup.size < 2 ^ 64)
    (hsame : SameTransfer setup.transfer s.shared.transfer)
    (hcounts : ∀ found ∈ s.shared.disk.versions, setup.Counts found)
    (hallowed : setup.PublishesInOrder s t o c) (hexec : exec t o c s.shared = some (r, s'))
    {bytes : Nat} (hwhole : (accounting.advance (s.point t).2 o r).whole = some bytes) :
    bytes = setup.size := by
  have hsize : s.shared.transfer.fileSizeBytes = setup.size := by
    rw [hsame]
    rfl
  cases o with
  | readCheckpoint =>
    cases r with
    | none => exact h.whole t bytes hwhole
    | some found =>
      by_cases hcomplete : found.allLanesComplete = true
      · have hfound := (readCheckpoint_of_exec hexec).1
        simp only [accounting, hcomplete, if_true, Option.some.injEq] at hwhole
        rw [← hwhole]
        exact (hcounts found (List.mem_of_getLast? hfound)).total hlimit hcomplete
      · simp only [accounting, hcomplete] at hwhole
        exact h.whole t bytes hwhole
  | recordReceived b =>
    cases hexec
    cases hwhole
    exact hsize
  | readPolicy =>
    have hcopied := hallowed.copied rfl
    cases hexec
    cases hwhole
    exact h.whole t _ hcopied
  | _ => exact h.whole t bytes hwhole

theorem snapshot_step (h : setup.Accounted s) (hexec : exec t o c s.shared = some (r, s'))
    {summary : TransferSummary}
    (hsnapshot : (accounting.advance (s.point t).2 o r).snapshot = some summary) :
    Balanced summary := by
  cases o with
  | readTransfer =>
    cases hexec
    cases hsnapshot
    exact h.transfer
  | readCheckpoint =>
    refine h.snapshot t summary ?_
    cases r with
    | none => exact hsnapshot
    | some found =>
      simp only [accounting] at hsnapshot
      split at hsnapshot
      · exact hsnapshot
      · exact hsnapshot
  | _ => exact h.snapshot t summary hsnapshot

/-- What is stored was read. -/
theorem stored_step (h : setup.Accounted s) (haccount : accounting.enabled (s.point t).2 o)
    (hexec : exec t o c s.shared = some (r, s')) : Balanced s'.stored := by
  rcases stored_of_exec hexec with heq | ⟨summary, rfl, heq⟩
  · rw [heq]
    exact h.stored
  · rw [heq]
    exact h.snapshot t summary haccount

theorem accounted_step (h : setup.Accounted s) (hlimit : setup.size < 2 ^ 64)
    (hbase : Baseline setup s.fst ∧ Stored setup.Counts s.fst)
    (henabled : Enabled setup t (s.point t).1 o)
    (haccount : accounting.enabled (s.point t).2 o)
    (hallowed : setup.PublishesInOrder s t o c) (hexec : exec t o c s.shared = some (r, s')) :
    setup.Accounted (s.next (fun t => (protocol setup t).both accounting) t o r s') := by
  obtain ⟨hbase, hcounts⟩ := hbase
  have hpoint : ∀ u, u ≠ t →
      (s.next (fun t => (protocol setup t).both accounting) t o r s').point u = s.point u :=
    fun u hu => Function.update_of_ne hu _ _
  have hself : ((s.next (fun t => (protocol setup t).both accounting) t o r s').point t).2 =
      accounting.advance (s.point t).2 o r := by
    simp [Tracked.next, Protocol.both]
  refine ⟨balanced_step h hbase.transfer henabled haccount hallowed hexec,
    stored_step h haccount hexec, fun u summary hu => ?_, fun u bytes hu => ?_⟩
  · by_cases hut : u = t
    · subst hut
      rw [hself] at hu
      exact snapshot_step h hexec hu
    · rw [hpoint u hut] at hu
      exact h.snapshot u summary hu
  · by_cases hut : u = t
    · subst hut
      rw [hself] at hu
      exact whole_step h hlimit hbase.transfer hcounts.versions hallowed hexec hu
    · rw [hpoint u hut] at hu
      exact h.whole u bytes hu

end

/-! ## Runs -/

/-- Whatever the order of the steps, the count does not exceed the file size. -/
theorem bytes_le_fileSize (ctx : Context) (streams : Nat → Option LaneStream)
    {stored : TransferSummary} {disk : Disk}
    (hstored : stored.bytesTransferred ≤ stored.fileSizeBytes)
    {cfg : Config Task Op Op.Reply (Tracked Task Account State) (Except String Unit)}
    (hreaches : Config.Reaches (machine.track fun _ => accounting) (fun _ _ _ _ => True)
      ⟨⟨start stored disk, fun _ => ⟨none, none⟩⟩, program ctx streams⟩ cfg) :
    cfg.shared.shared.transfer.bytesTransferred ≤ cfg.shared.shared.transfer.fileSizeBytes := by
  have hInv : Invariant machine (fun _ : Task => accounting) (fun _ _ _ _ => True)
      fun s => s.shared.transfer.bytesTransferred ≤ s.shared.transfer.fileSizeBytes := by
    intro s t o c r s' hle henabled _ hexec
    refine ⟨trivial, ?_⟩
    show s'.transfer.bytesTransferred ≤ s'.transfer.fileSizeBytes
    rcases transfer_of_exec hexec with heq | ⟨m, n, b, rfl, hm, heq⟩ | ⟨b, -, heq⟩ |
      ⟨status, b, -, heq⟩
    · rw [heq]
      exact hle
    · rw [heq]
      show b ≤ s.shared.transfer.fileSizeBytes
      rw [hm]
      exact henabled
    · rw [heq]
      exact Nat.min_le_right _ _
    · rw [heq]
      exact Nat.min_le_right _ _
  have hobedient : Config.Obedient (fun _ => accounting) (fun _ _ _ => True)
      (⟨⟨start stored disk, fun _ => ⟨none, none⟩⟩, program ctx streams⟩ :
        Config Task Op Op.Reply (Tracked Task Account State) (Except String Unit)) :=
    fun t => program_accounts streams t _ trivial
  exact (hInv.reaches hobedient hstored hreaches).2

/-- The configuration in which a server and its streams start. -/
def accountingStart (setup : Setup) (stored : TransferSummary) (disk : Disk) :
    Config Task Op Op.Reply (Tracked Task (Point × Account) State) (Except String Unit) :=
  ⟨⟨start stored disk, fun t => (startPoint t, ⟨none, none⟩)⟩, program setup.ctx setup.streams⟩

/-- The runs that publish in order. -/
abbrev PublishedTo (setup : Setup)
    (cfg cfg' : Config Task Op Op.Reply (Tracked Task (Point × Account) State)
      (Except String Unit)) : Prop :=
  Config.Reaches (machine.track fun t => (protocol setup t).both accounting)
    setup.PublishesInOrder cfg cfg'

/-- What a server may find of a transfer when it starts: a transfer that has been created, with
nothing or some checkpoint for a file of that size at its place, or what is left of a run of
an earlier server. -/
inductive Reloaded (ctx : Context) (transfer : TransferSummary) : TransferSummary → Disk → Prop
  | created {disk : Disk} (hqueued : transfer.status = .queued)
      (hbytes : transfer.bytesTransferred = 0)
      (hversions : ∀ found ∈ disk.versions,
        ∃ lanes, 0 < lanes ∧ found.Wf transfer.fileSizeBytes lanes) :
      Reloaded ctx transfer transfer disk
  | restarted {streams : Nat → Option LaneStream} {stored : TransferSummary} {disk disk' : Disk}
      {cfg : Config Task Op Op.Reply (Tracked Task (Point × Account) State) (Except String Unit)}
      (h : Reloaded ctx transfer stored disk)
      (hreaches : PublishedTo (unreliable ctx transfer streams)
        (accountingStart (unreliable ctx transfer streams) stored disk) cfg)
      (hversions : ∀ found ∈ disk'.versions, found ∈ cfg.shared.shared.disk.versions) :
      Reloaded ctx transfer cfg.shared.shared.stored disk'

/-- What a run leads to, from a start with balanced counts. -/
theorem accounted_of_reaches {ctx : Context} {transfer stored : TransferSummary}
    {streams : Nat → Option LaneStream} {disk : Disk}
    {cfg : Config Task Op Op.Reply (Tracked Task (Point × Account) State) (Except String Unit)}
    (hlimit : transfer.fileSizeBytes < 2 ^ 64) (hsame : SameTransfer transfer stored)
    (hbalanced : Balanced stored)
    (hversions : ∀ found ∈ disk.versions, (unreliable ctx transfer streams).Counts found)
    (hreaches : PublishedTo (unreliable ctx transfer streams)
      (accountingStart (unreliable ctx transfer streams) stored disk) cfg) :
    (Baseline (unreliable ctx transfer streams) cfg.shared.fst ∧
        Stored (unreliable ctx transfer streams).Counts cfg.shared.fst) ∧
      (unreliable ctx transfer streams).Accounted cfg.shared := by
  have hInv : Invariant machine
      (fun t => (protocol (unreliable ctx transfer streams) t).both accounting)
      (unreliable ctx transfer streams).PublishesInOrder
      fun s => (Baseline (unreliable ctx transfer streams) s.fst ∧
          Stored (unreliable ctx transfer streams).Counts s.fst) ∧
        (unreliable ctx transfer streams).Accounted s := by
    refine Invariant.both (counts_invariant trivial) (fun _ _ _ _ _ => trivial) ?_
    intro s t o c r s' hbase hacc henabled haccount hallowed hexec
    exact ⟨trivial, accounted_step hacc hlimit hbase henabled.2 haccount hallowed hexec⟩
  have hobedient : (accountingStart (unreliable ctx transfer streams) stored disk).Obedient
      (fun t => (protocol (unreliable ctx transfer streams) t).both accounting)
      (fun t _ pt => TaskReturned (unreliable ctx transfer streams) t pt.1 ∧ True) :=
    fun t => (program_obeys (unreliable ctx transfer streams) (fun h => absurd trivial h) t).both
      (program_accounts streams t _ trivial)
  have hstart : Stored (unreliable ctx transfer streams).Counts ⟨start stored disk, startPoint⟩ :=
    ⟨hversions, fun u found hfound => by cases u <;> cases hfound⟩
  refine (hInv.reaches hobedient ⟨⟨baseline_start disk hsame, hstart⟩, ?_⟩ hreaches).2
  refine ⟨hbalanced, hbalanced, fun u summary hu => ?_, fun u bytes hu => ?_⟩
  · cases hu
  · cases hu

/-- A server finds balanced counts. -/
theorem Reloaded.balanced {ctx : Context} {transfer stored : TransferSummary} {disk : Disk}
    (hlimit : transfer.fileSizeBytes < 2 ^ 64) (h : Reloaded ctx transfer stored disk) :
    SameTransfer transfer stored ∧ Balanced stored ∧
      ∀ found ∈ disk.versions, ∃ lanes, 0 < lanes ∧ found.Wf transfer.fileSizeBytes lanes := by
  induction h with
  | created hqueued hbytes hversions =>
    refine ⟨rfl, ⟨?_, fun hcompleted => ?_⟩, hversions⟩
    · rw [hbytes]
      exact Nat.zero_le _
    · rw [hqueued] at hcompleted
      cases hcompleted
  | restarted _ hreaches hversions ih =>
    obtain ⟨hsame, hbalanced, hwf⟩ := ih
    obtain ⟨⟨hbase, hcounts⟩, hacc⟩ := accounted_of_reaches hlimit hsame hbalanced hwf hreaches
    exact ⟨hbase.stored, hacc.stored, fun found hfound =>
      hcounts.versions found (hversions found hfound)⟩

/-- **The count never exceeds the file size, and is the file size when the transfer is
completed**, in runs that publish in order. -/
theorem bytes_accounted (ctx : Context) (transfer : TransferSummary)
    (hlimit : transfer.fileSizeBytes < 2 ^ 64) (streams : Nat → Option LaneStream)
    {stored : TransferSummary} {disk : Disk} (hfound : Reloaded ctx transfer stored disk)
    {cfg : Config Task Op Op.Reply (Tracked Task (Point × Account) State) (Except String Unit)}
    (hreaches : PublishedTo (unreliable ctx transfer streams)
      (accountingStart (unreliable ctx transfer streams) stored disk) cfg) :
    cfg.shared.shared.transfer.bytesTransferred ≤ cfg.shared.shared.transfer.fileSizeBytes ∧
      (cfg.shared.shared.transfer.status = .completed →
        cfg.shared.shared.transfer.bytesTransferred =
          cfg.shared.shared.transfer.fileSizeBytes) := by
  obtain ⟨hsame, hbalanced, hwf⟩ := hfound.balanced hlimit
  exact (accounted_of_reaches hlimit hsame hbalanced hwf hreaches).2.transfer

/-! ## Samples -/

open Scenario in
/-- Of two lanes the second has stored the last offset and not published the total yet, when
the first one finds the checkpoint complete: **the transfer is completed with one byte of
two**. -/
theorem completed_short :
    ∃ cfg, Config.Reaches machine (fun _ _ _ _ => True)
        (server (transfer [7, 8] true .queued) noFiles [lane [7, 8] 2 0, lane [7, 8] 2 1]) cfg ∧
      cfg.shared.transfer.status = .completed ∧
      cfg.shared.transfer.bytesTransferred = 1 ∧ cfg.shared.transfer.fileSizeBytes = 2 := by
  have hrun : ((server (transfer [7, 8] true .queued) noFiles
      [lane [7, 8] 2 0, lane [7, 8] 2 1]).runIf machine (fun _ _ _ _ => true)
        (turns [(.handler 0, 17), (.handler 1, 17), (.writer 0, 11), (.writer 1, 8),
          (.handler 0, 12)])).any
      (fun cfg => decide (cfg.shared.transfer.status = .completed ∧
        cfg.shared.transfer.bytesTransferred = 1 ∧
        cfg.shared.transfer.fileSizeBytes = 2)) = true := by
    decide +kernel
  obtain ⟨cfg, hto, hcfg⟩ := Config.reaches_of_runIf_any (fun _ _ _ _ _ => trivial) hrun
  exact ⟨cfg, hto, of_decide_eq_true hcfg⟩

namespace Scenario

/-- The steps that publish in order. -/
def publishesInOrder (size : Nat) (s : Tracked Task (Point × Account) State) (t : Task) (o : Op)
    (_ : Choice) : Bool :=
  match o with
  | .readPolicy => decide ((s.point t).2.whole = some s.shared.transfer.bytesTransferred)
  | .recordProgress bytes =>
    decide (s.shared.transfer.status ≠ .completed ∨ size ≤ bytes)
  | _ => true

theorem publishesInOrder_of_test {setup : Setup} {s : Tracked Task (Point × Account) State}
    {t : Task} {o : Op} {c : Choice} (h : publishesInOrder setup.size s t o c = true) :
    setup.PublishesInOrder s t o c := by
  refine ⟨fun ho => ?_, fun bytes ho hcompleted => ?_⟩
  · subst ho
    exact of_decide_eq_true h
  · subst ho
    exact (of_decide_eq_true h).resolve_left fun hne => hne hcompleted

/-- Two lanes of a transfer that has been created. -/
def twoQueued : Setup :=
  unreliable ctx (transfer [7, 8] true .queued) fun i => [lane [7, 8] 2 0, lane [7, 8] 2 1][i]?

end Scenario

open Scenario in
/-- Two lanes, received one after the other. -/
theorem bytes_accounted_sample :
    ∃ cfg, PublishedTo twoQueued
        (accountingStart twoQueued (transfer [7, 8] true .queued) noFiles) cfg ∧
      cfg.shared.shared.transfer.status = .completed ∧
      cfg.shared.shared.transfer.bytesTransferred =
        cfg.shared.shared.transfer.fileSizeBytes := by
  have hrun : ((accountingStart twoQueued (transfer [7, 8] true .queued) noFiles).runIf
      (machine.track fun t => (protocol twoQueued t).both accounting)
      (publishesInOrder twoQueued.size)
      (turns [(.handler 0, 17), (.handler 1, 17), (.writer 0, 11), (.writer 1, 11),
        (.handler 1, 12)])).any
      (fun cfg => decide (cfg.shared.shared.transfer.status = .completed)) = true := by
    decide +kernel
  obtain ⟨cfg, hto, hcfg⟩ :=
    Config.reaches_of_runIf_any (fun _ _ _ _ h => publishesInOrder_of_test h) hrun
  have hcompleted := of_decide_eq_true hcfg
  have hfound : Reloaded ctx (transfer [7, 8] true .queued) (transfer [7, 8] true .queued)
      noFiles := by
    refine .created rfl rfl ?_
    intro found hfound
    cases hfound
  exact ⟨cfg, hto, hcompleted, (bytes_accounted _ _ (by decide) _ hfound hto).2 hcompleted⟩

end Metra.Server
