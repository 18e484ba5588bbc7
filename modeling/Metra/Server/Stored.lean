import Metra.Server.Aside
import Metra.Server.Completed

/-!
# Whether the transfer store follows memory

A task that writes the status of the transfer reads the transfer back afterwards, and stores
what it read.  Between these steps the other tasks go on, so two tasks may store in the
opposite order of what they read.

* `stored_follows` — in a run in which a status is stored only while it is the one in memory,
  or while another task is about to store that one, the store agrees with memory whenever
  nobody is about to store anything;
* `stored_outdated` — a stream is opened and stores `Running` late, after another has stored
  `Failed`; no task is left to make up for it.
-/

namespace Metra.Server

open Interleave

/-! ## The persisting of a task -/

/-- How far a task has got with persisting the status that it has written. -/
inductive Persist
  | quiet
  /-- The status is written, and not read back yet. -/
  | due
  | snapped (summary : TransferSummary)

/-- Nothing is stored but what was read back, and everything that is written. -/
def persisting : Protocol Op Op.Reply Persist where
  enabled pt o :=
    match pt with
    | .quiet => ∀ summary, o ≠ .storeUpsert summary
    | .due => o = .readTransfer
    | .snapped summary => o = .storeUpsert summary
  possible _ _ _ := True
  advance pt o r :=
    match pt, o, r with
    | .quiet, .markRunning .., true => .due
    | .quiet, .setStatus .., _ => .due
    | .due, .readTransfer, snapshot => .snapped snapshot
    | .snapped _, .storeUpsert _, _ => .quiet
    | pt, _, _ => pt

section

variable {α : Type} {ctx : Context}

/-! ## The tasks persist what they write -/

/-- The program leaves nothing unpersisted. -/
abbrev Persists (p : Prog Op Op.Reply α) : Prop := p.Keeps persisting (· = .quiet)

theorem persists_of_aside {p : Prog Op Op.Reply α} (h : Aside p) : Persists p := by
  refine .of_all ?_ h
  rintro o _ ho rfl
  refine ⟨fun summary heq => ?_, fun r => ?_⟩
  · subst heq
    exact ho
  · cases o <;> first | rfl | exact ho.elim

theorem persists_of_silent {p : Prog Op Op.Reply α} (h : Silent p) : Persists p :=
  persists_of_aside (aside_of_silent h)

theorem persistTransferSummary_persists :
    (persistTransferSummary ctx).toProg.Obeys persisting (fun _ pt => pt = .quiet) .due := by
  unfold persistTransferSummary
  refine Prog.Obeys.liftBind rfl fun snapshot _ => ?_
  refine Prog.Obeys.orFail (Prog.Obeys.perform rfl fun r _ => ?_)
  cases r <;> rfl

theorem setTransferStatus_persists (status : TransferStatus) (bytes : Nat) :
    Persists (setTransferStatus ctx status bytes).toProg := by
  rintro _ rfl
  unfold setTransferStatus
  refine Prog.Obeys.liftBind (by rintro _ ⟨⟩) fun _ _ => ?_
  refine Prog.Obeys.tryBind persistTransferSummary_persists ?_ fun _ _ h => h
  intro _ pt hpt
  exact Prog.Obeys.lift (persists_of_silent (clearTransferLocks_silent status) pt hpt)

theorem finishWith_persists (status : TransferStatus) (bytes : Nat) (message : String) :
    Persists (finishWith ctx status bytes message).toProg := by
  unfold finishWith
  exact .tryBind (setTransferStatus_persists _ _) fun _ => .ret _

theorem failRunningTransfer_persists : Persists (failRunningTransfer ctx).toProg := by
  unfold failRunningTransfer
  refine .tryBind (persists_of_aside (all_lift trivial)) fun running => ?_
  cases running with
  | none => exact .ret _
  | some bytes => exact setTransferStatus_persists _ _

/-! ### Finalization -/

theorem finalizeTransferOnDisk_persists : Persists (finalizeTransferOnDisk ctx).toProg := by
  unfold finalizeTransferOnDisk
  refine .tryBind (persists_of_aside (all_lift trivial)) fun policy => ?_
  refine .tryBind (persists_of_silent (refusedBy_silent _)) fun immutableFound => ?_
  split
  · exact finishWith_persists _ _ _
  · refine .tryBind (persists_of_silent (refusedBy_silent _)) fun found => ?_
    split
    · exact finishWith_persists _ _ _
    · refine .tryBind (persists_of_silent removeExisting_silent) fun _ => ?_
      refine .tryBind (persists_of_aside (all_fallible (all_perform trivial))) fun _ => ?_
      exact finishWith_persists _ _ _

theorem finalizeIfReady_persists (discardPayload : Bool) :
    Persists (finalizeIfReady ctx discardPayload).toProg := by
  refine keeps_withLock (fun ho => persists_of_aside (all_perform ho)) ?_
  unfold finalizeIfReadyUnlocked
  refine .tryBind (persists_of_aside (all_lift trivial)) ?_
  rintro ⟨alreadyDone, bytesTransferred⟩
  show Persists (TryProg.toProg (if alreadyDone = true then _ else _))
  split
  · exact .ret _
  · refine .tryBind (persists_of_silent (silent_withLock load_silent)) fun checkpoint => ?_
    split
    · exact finishWith_persists _ _ _
    · refine .tryBind ?_ fun finalized => ?_
      · unfold finalizeComplete
        split
        · exact finishWith_persists _ _ _
        · exact finalizeTransferOnDisk_persists
      · exact .tryBind (persists_of_aside (all_lift trivial)) fun _ => .ret _

theorem finalizeStream_persists (admission : Admission) (discardPayload : Bool)
    (bytesReceived : Nat) :
    Persists (finalizeStream ctx admission discardPayload bytesReceived).toProg := by
  unfold finalizeStream finalizeSingleLaneTransferMemory finalizeSingleLaneTransfer
  split
  · exact finalizeIfReady_persists _
  · split
    · refine .tryBind (persists_of_aside (all_lift trivial)) fun fileSize => ?_
      split
      · exact finishWith_persists _ _ _
      · exact finishWith_persists _ _ _
    · refine .tryBind (persists_of_aside (all_lift trivial)) fun fileSize => ?_
      split
      · exact finishWith_persists _ _ _
      · exact finalizeTransferOnDisk_persists

/-! ### The handler -/

theorem streamBody_persists (stream : LaneStream) (admission : Admission)
    (discardPayload : Bool) (resumeOffset : Nat) :
    Persists (streamBody ctx stream admission discardPayload resumeOffset).toProg := by
  unfold streamBody
  refine .tryBind (persists_of_silent (presizeIfStriped_silent _ _ _)) fun _ => ?_
  refine .tryBind (persists_of_aside (all_fallible (all_perform trivial))) fun _ => ?_
  refine .tryBind (persists_of_silent (receivePayload_silent _ _ _ _)) fun bytesWritten => ?_
  refine .tryBind (persists_of_silent (recordDiscarded_silent _ _ _ _)) fun _ => ?_
  refine .tryBind (finalizeStream_persists _ _ _) fun complete => ?_
  exact persists_of_aside (all_fallible (all_perform trivial))

theorem failingTransfer_persists {body : Task.Program Unit} (hbody : Persists body.toProg) :
    Persists (failingTransfer ctx body).toProg := by
  refine .bind hbody fun result => ?_
  cases result with
  | ok _ => exact .ret _
  | error err => exact .bind failRunningTransfer_persists fun _ => .ret _

/-- Marking the transfer as running writes the status, unless it fails. -/
theorem markRunning_persists (transfer : TransferSummary) (bytes : Nat) :
    (markRunning transfer bytes).toProg.Obeys persisting
      (fun r pt =>
        match r with
        | .ok () => pt = .due
        | .error _ => pt = .quiet) .quiet := by
  unfold markRunning
  refine Prog.Obeys.liftBind (by rintro _ ⟨⟩) fun unchanged _ => ?_
  cases unchanged with
  | true => rfl
  | false => rfl

theorem leasedStream_persists (stream : LaneStream) (admission : Admission)
    (transfer : TransferSummary) :
    Persists (leasedStream ctx stream admission transfer).toProg := by
  unfold leasedStream
  refine .tryBind (persists_of_aside (all_fallible (all_perform trivial))) fun _ => ?_
  refine .tryBind (persists_of_silent (openLane_silent _ _ _ _)) ?_
  rintro ⟨resumeOffset, bytesTransferredNow⟩ _ rfl
  refine Prog.Obeys.tryBind (markRunning_persists _ _) ?_ fun _ _ h => h
  rintro ⟨⟩ _ rfl
  refine Prog.Obeys.tryBind persistTransferSummary_persists ?_ fun _ _ h => h
  intro _ pt hpt
  exact failingTransfer_persists (streamBody_persists _ _ _ _) pt hpt

theorem handleQuicStream_persists (stream : LaneStream) :
    Persists (handleQuicStream ctx stream).toProg := by
  unfold handleQuicStream
  refine .tryBind (.ret _) fun admission => ?_
  refine .tryBind (persists_of_aside (all_lift trivial)) fun transfer => ?_
  refine .tryBind (.ret _) fun _ => ?_
  refine .bind (persists_of_aside (all_perform trivial)) fun acquired => ?_
  cases acquired with
  | false => exact .ret _
  | true =>
    refine .bind (leasedStream_persists _ _ _) fun result => ?_
    exact .bind (persists_of_aside (all_perform trivial)) fun _ => .ret _

theorem program_persists (streams : Nat → Option LaneStream) (t : Task) :
    Persists (program ctx streams t) := by
  cases t with
  | handler i =>
    show Persists ((streams i).elim _ _)
    cases streams i with
    | none => exact .ret _
    | some stream => exact handleQuicStream_persists stream
  | writer i =>
    show Persists ((streams i).elim _ _)
    cases streams i with
    | none => exact .ret _
    | some stream => exact persists_of_silent writerTask_silent

end

/-! ## The store and memory -/

/-- The task is going to store the status that is in memory. -/
def Upcoming (s : Tracked Task Persist State) (u : Task) : Prop :=
  match s.point u with
  | .quiet => False
  | .due => True
  | .snapped summary => summary.status = s.shared.transfer.status

/-- The steps that store in order: what is stored has the status that is in memory, unless
another task is going to store that. -/
structure StoresInOrder (s : Tracked Task Persist State) (t : Task) (o : Op) (c : Choice) :
    Prop where
  succeeds : ∀ summary, o = .storeUpsert summary → c = .ok
  current : ∀ summary, o = .storeUpsert summary →
    summary.status = s.shared.transfer.status ∨ ∃ u, u ≠ t ∧ Upcoming s u

/-- The store has the status that is in memory, or somebody is going to store it. -/
def StoreFollows (s : Tracked Task Persist State) : Prop :=
  s.shared.stored.status = s.shared.transfer.status ∨ ∃ u, Upcoming s u

section

variable {s : Tracked Task Persist State} {t u : Task} {o : Op} {c : Choice} {r : o.Reply}
  {s' : State}

/-- A task that changes the status is going to store it. -/
theorem due_of_status_ne (h : exec t o c s.shared = some (r, s'))
    (hne : s'.transfer.status ≠ s.shared.transfer.status) :
    persisting.advance .quiet o r = .due := by
  rcases status_of_exec h with heq | ⟨m, n, b, rfl, -⟩ | ⟨status, b, rfl, -⟩
  · exact absurd heq hne
  · cases r with
    | true => rfl
    | false =>
      simp only [exec] at h
      split at h
      · cases h
        exact absurd rfl hne
      · cases h
  · rfl

theorem upcoming_next_of_ne (hu : u ≠ t) (h : Upcoming s u)
    (hsame : s'.transfer.status = s.shared.transfer.status) :
    Upcoming (s.next (fun _ => persisting) t o r s') u := by
  simpa [Upcoming, Tracked.next, Function.update_of_ne hu, hsame] using h

/-- What stores nothing and writes no status leaves what the others are going to do. -/
theorem storeFollows_of_same (hInv : StoreFollows s) (ht : ¬ Upcoming s t)
    (hstored : s'.stored = s.shared.stored)
    (hsame : s'.transfer.status = s.shared.transfer.status) :
    StoreFollows (s.next (fun _ => persisting) t o r s') := by
  rcases hInv with heq | ⟨u, hu⟩
  · left
    show s'.stored.status = s'.transfer.status
    rw [hstored, hsame, heq]
  · right
    have hne : u ≠ t := by
      rintro rfl
      exact ht hu
    exact ⟨u, upcoming_next_of_ne hne hu hsame⟩

/-- By cases on how far the task has got. -/
theorem storeFollows_step (hInv : StoreFollows s) (henabled : persisting.enabled (s.point t) o)
    (hallowed : StoresInOrder s t o c) (hexec : exec t o c s.shared = some (r, s')) :
    StoreFollows (s.next (fun _ => persisting) t o r s') := by
  cases hpoint : s.point t with
  | quiet =>
    rw [hpoint] at henabled
    have hstored : s'.stored = s.shared.stored := by
      rcases stored_of_exec hexec with heq | ⟨summary, ho, -⟩
      · exact heq
      · exact absurd ho (henabled summary)
    by_cases hsame : s'.transfer.status = s.shared.transfer.status
    · refine storeFollows_of_same hInv ?_ hstored hsame
      simp [Upcoming, hpoint]
    · right
      refine ⟨t, ?_⟩
      simp [Upcoming, Tracked.next, hpoint, due_of_status_ne hexec hsame]
  | due =>
    rw [hpoint] at henabled
    obtain rfl : o = .readTransfer := henabled
    cases hexec
    right
    refine ⟨t, ?_⟩
    simp [Upcoming, Tracked.next, hpoint, persisting]
  | snapped summary =>
    rw [hpoint] at henabled
    obtain rfl : o = .storeUpsert summary := henabled
    obtain rfl := hallowed.succeeds summary rfl
    cases hexec
    rcases hallowed.current summary rfl with heq | ⟨u, hne, hu⟩
    · exact .inl heq
    · exact .inr ⟨u, upcoming_next_of_ne hne hu rfl⟩

end

theorem storeFollows_invariant :
    Invariant machine (fun _ => persisting) StoresInOrder StoreFollows :=
  fun _ _ _ _ _ _ hInv henabled hallowed hexec =>
    ⟨trivial, storeFollows_step hInv henabled hallowed hexec⟩

/-- The configuration in which a server and its streams start. -/
def persistingStart (ctx : Context) (transfer : TransferSummary)
    (streams : Nat → Option LaneStream) (disk : Disk) :
    Config Task Op Op.Reply (Tracked Task Persist State) (Except String Unit) :=
  ⟨⟨start transfer disk, fun _ => .quiet⟩, program ctx streams⟩

/-- **The store has the status that is in memory** whenever nobody is about to store
anything, in runs that store in order. -/
theorem stored_follows (ctx : Context) (transfer : TransferSummary)
    (streams : Nat → Option LaneStream) (disk : Disk)
    {cfg : Config Task Op Op.Reply (Tracked Task Persist State) (Except String Unit)}
    (h : Config.Reaches (machine.track fun _ => persisting) StoresInOrder
      (persistingStart ctx transfer streams disk) cfg)
    (hquiet : ∀ t, cfg.shared.point t = .quiet) :
    cfg.shared.shared.stored.status = cfg.shared.shared.transfer.status := by
  have hstart : (persistingStart ctx transfer streams disk).Obedient (fun _ => persisting)
      (fun _ _ pt => pt = .quiet) := fun t => program_persists streams t _ rfl
  rcases (storeFollows_invariant.reaches hstart (.inl rfl) h).2 with hsame | ⟨u, hu⟩
  · exact hsame
  · rw [Upcoming, hquiet u] at hu
    exact hu.elim

/-! ## Samples -/

/-- Nothing is to be stored. -/
def Persist.isQuiet : Persist → Bool
  | .quiet => true
  | _ => false

theorem Persist.eq_quiet {pt : Persist} (h : pt.isQuiet = true) : pt = .quiet := by
  cases pt with
  | quiet => rfl
  | due => cases h
  | snapped summary => cases h

section

variable {ctx : Context} {transfer : TransferSummary} {disk : Disk} {l : List LaneStream}
  {allowed : Tracked Task Persist State → Task → Op → Choice → Prop}
  {cfg : Config Task Op Op.Reply (Tracked Task Persist State) (Except String Unit)}

/-- Where there is no stream, nothing is persisted. -/
theorem quiet_of_no_stream
    (h : Config.Reaches (machine.track fun _ => persisting) allowed
      (persistingStart ctx transfer (fun i => l[i]?) disk) cfg) {t : Task}
    (ht : l.length ≤ t.stream) : cfg.shared.point t = .quiet := by
  have htrue : Invariant machine (fun _ => persisting) allowed fun _ => True :=
    fun _ _ _ _ _ _ _ _ _ _ => ⟨trivial, trivial⟩
  have hstart : (persistingStart ctx transfer (fun i => l[i]?) disk).Obedient
      (fun _ => persisting) (fun _ _ pt => pt = .quiet) :=
    fun t => program_persists _ t _ rfl
  have hret : (persistingStart ctx transfer (fun i => l[i]?) disk).pool t = .ret (.ok ()) := by
    cases t with
    | handler i =>
      have hnone : l[i]? = none := List.getElem?_eq_none ht
      show (l[i]?).elim _ _ = _
      rw [hnone]
      rfl
    | writer i =>
      have hnone : l[i]? = none := List.getElem?_eq_none ht
      show (l[i]?).elim _ _ = _
      rw [hnone]
      rfl
  exact (htrue.reaches hstart trivial h).1.returned (h.returned hret)

/-- All tasks are quiet, once those of the streams are. -/
theorem quiet_of_streams
    (h : Config.Reaches (machine.track fun _ => persisting) allowed
      (persistingStart ctx transfer (fun i => l[i]?) disk) cfg)
    (hquiet : ((List.range l.length).all fun i =>
      (cfg.shared.point (.handler i)).isQuiet && (cfg.shared.point (.writer i)).isQuiet) = true) :
    ∀ t, cfg.shared.point t = .quiet := by
  intro t
  by_cases ht : l.length ≤ t.stream
  · exact quiet_of_no_stream h ht
  · have hi := List.all_eq_true.1 hquiet t.stream (List.mem_range.2 (not_le.1 ht))
    obtain ⟨hhandler, hwriter⟩ := Bool.and_eq_true_iff.1 hi
    cases t with
    | handler i => exact Persist.eq_quiet hhandler
    | writer i => exact Persist.eq_quiet hwriter

end

namespace Scenario

/-- What is stored has the status that is in memory. -/
def storesCurrent (s : Tracked Task Persist State) (_ : Task) (o : Op) (c : Choice) : Bool :=
  match o, c with
  | .storeUpsert summary, .ok => decide (summary.status = s.shared.transfer.status)
  | .storeUpsert _, _ => false
  | _, _ => true

/-- What is stored gets stored. -/
def storesWell (_ : Tracked Task Persist State) (_ : Task) (o : Op) (c : Choice) : Bool :=
  match o, c with
  | .storeUpsert _, .ok => true
  | .storeUpsert _, _ => false
  | _, _ => true

theorem succeeds_of_storesWell {s : Tracked Task Persist State} {t : Task} {o : Op} {c : Choice}
    (h : storesWell s t o c = true) : ∀ summary, o = .storeUpsert summary → c = .ok := by
  intro summary ho
  subst ho
  cases c with
  | ok => rfl
  | _ => cases h

theorem storesInOrder_of_storesCurrent {s : Tracked Task Persist State} {t : Task} {o : Op}
    {c : Choice} (h : storesCurrent s t o c = true) : StoresInOrder s t o c := by
  refine ⟨?_, ?_⟩
  · intro summary ho
    subst ho
    cases c with
    | ok => rfl
    | _ => cases h
  · intro summary ho
    subst ho
    cases c with
    | ok => exact .inl (of_decide_eq_true h)
    | _ => cases h

/-- The first lane is opened and reads back that the transfer is running; the second fails,
and stores that; then the first stores what it read, and fails as well. -/
def storesLate : List (Task × Choice) :=
  turns [(.handler 0, 11), (.handler 1, 14)] ++ [(.handler 1, .ioError)] ++
    turns [(.handler 1, 7), (.handler 0, 3)] ++ [(.handler 0, .ioError)] ++ turns [(.handler 0, 2)]

/-- The start of a server with the streams of two lanes. -/
def twoPersisting : Config Task Op Op.Reply (Tracked Task Persist State) (Except String Unit) :=
  persistingStart ctx (transfer [7, 8] true .queued)
    (fun i => [lane [7, 8] 2 0, lane [7, 8] 2 1][i]?) noFiles

end Scenario

open Scenario in
/-- **The store is left with a status that the transfer no longer has**: it says `Running`
where the transfer has failed, and nobody is going to store anything. -/
theorem stored_outdated :
    ∃ cfg, Config.Reaches (machine.track fun _ => persisting)
        (fun _ _ o c => ∀ summary, o = .storeUpsert summary → c = .ok) twoPersisting cfg ∧
      (∀ t, cfg.shared.point t = .quiet) ∧
      cfg.shared.shared.transfer.status = .failed ∧
      cfg.shared.shared.stored.status = .running := by
  have hrun : (twoPersisting.runIf (machine.track fun _ => persisting) storesWell storesLate).any
      (fun cfg => ((List.range 2).all fun i =>
          (cfg.shared.point (.handler i)).isQuiet && (cfg.shared.point (.writer i)).isQuiet) &&
        decide (cfg.shared.shared.transfer.status = .failed ∧
          cfg.shared.shared.stored.status = .running)) = true := by
    decide +kernel
  obtain ⟨cfg, hto, hcfg⟩ :=
    Config.reaches_of_runIf_any (fun _ _ _ _ h => succeeds_of_storesWell h) hrun
  obtain ⟨hquiet, hstatus⟩ := Bool.and_eq_true_iff.1 hcfg
  obtain ⟨hfailed, hrunning⟩ := of_decide_eq_true hstatus
  exact ⟨cfg, hto, quiet_of_streams hto hquiet, hfailed, hrunning⟩

open Scenario in
/-- A lane that is opened stores that the transfer is running. -/
theorem stored_follows_sample :
    ∃ cfg, Config.Reaches (machine.track fun _ => persisting) StoresInOrder twoPersisting cfg ∧
      cfg.shared.shared.stored.status = .running ∧
      cfg.shared.shared.stored.status = cfg.shared.shared.transfer.status := by
  have hrun : (twoPersisting.runIf (machine.track fun _ => persisting) storesCurrent
      (turns [(.handler 0, 12)])).any
      (fun cfg => ((List.range 2).all fun i =>
          (cfg.shared.point (.handler i)).isQuiet && (cfg.shared.point (.writer i)).isQuiet) &&
        decide (cfg.shared.shared.stored.status = .running)) = true := by
    decide +kernel
  obtain ⟨cfg, hto, hcfg⟩ :=
    Config.reaches_of_runIf_any (fun _ _ _ _ h => storesInOrder_of_storesCurrent h) hrun
  obtain ⟨hquiet, hstored⟩ := Bool.and_eq_true_iff.1 hcfg
  exact ⟨cfg, hto, of_decide_eq_true hstored,
    stored_follows _ _ _ _ hto (quiet_of_streams hto hquiet)⟩

end Metra.Server
