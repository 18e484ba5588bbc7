import Metra.Server.Accepted

/-!
# A stream that waits for the checkpoint lock

Before its open ack a stream waits for others at one place only, the checkpoint lock, and only
when it is striped.  What it does from there on is a program of its own, which may be run from
whatever the others leave until the lock is free.

* `unanswered` — the machine that never sends an open ack;
* `fromLock` — what is left of a stream at the lock;
* `of_waits`, `goes_fromLock` — **that is where a stream waits**, after it has passed the checks
  of its open message and acquired its lease, and nowhere else.
-/

namespace Metra.Server

open Interleave

/-- The machine that never sends an open ack. -/
def unanswered : Machine Task Op Op.Reply Choice State :=
  machine.restrict fun
    | .sendOpenAck _, .ok => false
    | _, _ => true

section

variable (ctx : Context) (stream : LaneStream) (admission : Admission)
  (transfer : TransferSummary)

/-- `handle_quic_stream` from where its lane is opened. -/
def openedStream (opened : Nat × Nat) : Task.Program Unit := do
  markRunning transfer opened.2
  persistTransferSummary ctx
  failingTransfer ctx
    (streamBody ctx stream admission (isNullSinkUri transfer.destinationUri) opened.1)

/-- `load_or_init_lane_resume` from its lock on, for the lane of the stream. -/
def lockedLane : Task.Program (Nat × Nat) := do
  let (laneResume, totalTransferred) ← locked .checkpoint
    (loadOrInitLaneResumeUnlocked (checkpointIo ctx) transfer.transferId transfer.fileSizeBytes
      admission.totalLanes stream.request.laneIndex admission.rangeStart
      admission.rangeEndExclusive)
  pure (laneResume, min totalTransferred transfer.fileSizeBytes)

/-- `handle_quic_stream` from the checkpoint lock on. -/
def fromLock : Task.Program Unit :=
  (do let result ← (lockedLane ctx stream admission transfer >>=
        openedStream ctx stream admission transfer).toProg
      perform (.releaseLaneWriter stream.request.laneIndex)
      pure result : Prog Op Op.Reply (Except String Unit))

end

/-! ## Where nothing is waited for -/

/-- The operation does not wait for the checkpoint lock. -/
def Op.GoesOn : Op → Prop
  | .lock .checkpoint => False
  | _ => True

section

variable {ctx : Context} {t : Task} {s s' : State} {stream : LaneStream} {admission : Admission}
  {α : Type}

theorem not_lock_of_goesOn {p : Prog Op Op.Reply α} (h : p.All Op.GoesOn) :
    p.All (· ≠ .lock .checkpoint) :=
  h.mono fun _ ho heq => by
    subst heq
    exact ho

theorem loadOrInitLaneResumeUnlocked_goesOn (transferId : Uuid)
    (fileSizeBytes totalLanes laneIndex rangeStart rangeEndExclusive : Nat) :
    (loadOrInitLaneResumeUnlocked (checkpointIo ctx) transferId fileSizeBytes totalLanes laneIndex
      rangeStart rangeEndExclusive).toProg.All Op.GoesOn := by
  have hpersist : ∀ c, ((checkpointIo ctx).persist c).toProg.All Op.GoesOn :=
    fun _ => all_fallible (all_perform trivial)
  have hload : (checkpointIo ctx).load.toProg.All Op.GoesOn :=
    all_fallible (all_perform trivial)
  unfold loadOrInitLaneResumeUnlocked
  refine .tryBind ?_ fun checkpoint => ?_
  · unfold loadOrInitCheckpoint
    refine .tryBind (all_fallible (all_perform trivial)) fun present => ?_
    cases present with
    | true => exact hload
    | false => exact .tryBind (hpersist _) fun _ => trivial
  · refine .tryBind trivial fun _ => ?_
    split
    · trivial
    · exact .tryBind (hpersist _) fun _ => trivial

theorem markRunning_goesOn (transfer : TransferSummary) (bytes : Nat) :
    (markRunning transfer bytes).toProg.All Op.GoesOn := by
  unfold markRunning
  refine .tryBind (all_lift trivial) fun unchanged => ?_
  split
  · trivial
  · trivial

theorem persistTransferSummary_goesOn : (persistTransferSummary ctx).toProg.All Op.GoesOn :=
  .tryBind (all_lift trivial) fun _ => all_fallible (all_perform trivial)

theorem presizeIfStriped_goesOn (request : QuicTransferOpen) (admission : Admission)
    (discardPayload : Bool) :
    (presizeIfStriped ctx request admission discardPayload).toProg.All Op.GoesOn := by
  unfold presizeIfStriped
  split
  · exact .tryBind (all_fallible (all_perform trivial)) fun _ => all_fallible (all_perform trivial)
  · trivial

theorem failRunningTransfer_goesOn : (failRunningTransfer ctx).toProg.All Op.GoesOn := by
  unfold failRunningTransfer
  refine .tryBind (all_lift trivial) fun running => ?_
  cases running with
  | none => trivial
  | some bytes =>
    refine .tryBind (all_lift trivial) fun _ => ?_
    refine .tryBind persistTransferSummary_goesOn fun _ => ?_
    refine .lift ?_
    unfold clearTransferLocks
    split
    · exact .bind (all_perform trivial) fun _ => all_perform trivial
    · trivial

/-- A stream whose open ack is never sent comes to no lock once its lane is opened. -/
theorem goes_openedStream {transfer : TransferSummary} {opened : Nat × Nat}
    {k : Unit → Prog Op Op.Reply (Except String Unit)} :
    ¬ Prog.Goes unanswered t (openedStream ctx stream admission transfer opened).toProg s
      (.act (.lock .checkpoint) k) s' := by
  intro h
  unfold openedStream at h
  obtain ⟨_, s₁, -, h⟩ := h.trySkip (not_lock_of_goesOn (markRunning_goesOn _ _))
  obtain ⟨_, s₂, -, h⟩ := h.trySkip (not_lock_of_goesOn persistTransferSummary_goesOn)
  unfold failingTransfer at h
  rcases Prog.Goes.of_bind h with ⟨o, k', hbody, heq⟩ | ⟨r, s₃, -, hthen⟩
  · cases heq
    unfold streamBody at hbody
    obtain ⟨_, s₃, -, hbody⟩ :=
      hbody.trySkip (not_lock_of_goesOn (presizeIfStriped_goesOn _ _ _))
    obtain ⟨_, s₄, hack, -⟩ :=
      hbody.trySkip (not_lock_of_goesOn (all_fallible (all_perform trivial)))
    rcases hack.of_orFail with ⟨_, -, hsent⟩ | ⟨he, -⟩
    · obtain ⟨c, hexec⟩ := hsent.of_perform
      cases c <;> cases hexec
    · cases he
  · cases r with
    | ok _ => cases hthen
    | error e =>
      obtain ⟨_, s₄, -, h⟩ := Prog.Goes.skip (not_lock_of_goesOn failRunningTransfer_goesOn) hthen
      cases h

/-! ## Where the lock is waited for -/

theorem openLane_striped (transfer : TransferSummary) (hstriped : admission.striped = true)
    (discardPayload : Bool) :
    openLane ctx stream.request admission transfer discardPayload =
      Prog.bind (perform (.lockFor .checkpoint)) fun _ =>
        (lockedLane ctx stream admission transfer).toProg := by
  unfold openLane
  rw [if_pos hstriped]
  rfl

theorem lockedLane_other (transfer : TransferSummary) :
    (lockedLane ctx stream admission transfer).toProg.All Op.IsOther :=
  .tryBind ((other_of_silent (loadOrInitLaneResume_silent _ _ _ _ _ _)).2 ())
    fun _ => trivial

/-- The stream is at the lock, or has yet to look it up: what is left is `lockedLane`. -/
theorem goes_openLane {transfer : TransferSummary} {discardPayload : Bool}
    {k : Unit → Prog Op Op.Reply (Except String (Nat × Nat))}
    (h : Prog.Goes unanswered t
      (openLane ctx stream.request admission transfer discardPayload).toProg s
      (.act (.lock .checkpoint) k) s') :
    admission.striped = true ∧
      s' = s.updateLock .checkpoint ((s.locks .checkpoint).lookup t) ∧
      .act (.lock .checkpoint) k = (lockedLane ctx stream admission transfer).toProg := by
  cases hstriped : admission.striped with
  | false =>
    have hfree : (openLane ctx stream.request admission transfer
        discardPayload).toProg.All Op.GoesOn := by
      unfold openLane
      rw [hstriped, if_neg Bool.false_ne_true]
      split
      · trivial
      · unfold stagingResume
        refine .tryBind (all_fallible (all_perform trivial)) fun _ => ?_
        split
        · trivial
        · trivial
    exact (Prog.Goes.kind hfree h).elim
  | true =>
    rw [openLane_striped _ hstriped] at h
    obtain ⟨_, s₁, hlookup, h⟩ := Prog.Goes.skip
      (not_lock_of_goesOn (all_perform (o := .lockFor .checkpoint) trivial)) h
    obtain ⟨c, hlookup⟩ := hlookup.of_perform
    cases hlookup
    refine ⟨rfl, ?_⟩
    rcases Prog.Goes.of_bind (f := TryProg.andThen _) h with ⟨o, k₁, hsection, heq⟩ | ⟨r, _, -, hr⟩
    · cases heq
      cases hsection with
      | refl => exact ⟨rfl, rfl⟩
      | act _ hrest =>
        refine (Prog.Goes.kind (show Prog.All Op.GoesOn _ from ?_) hrest).elim
        refine .bind (p := .ret _) trivial fun _ => ?_
        refine .bind (loadOrInitLaneResumeUnlocked_goesOn _ _ _ _ _ _) fun _ => ?_
        exact .bind (all_perform trivial) fun _ => trivial
    · cases r <;> cases hr

/-- **Where a stream waits.** -/
theorem of_waits {k : Unit → Prog Op Op.Reply (Except String Unit)}
    (h : Prog.Goes unanswered t (handleQuicStream ctx stream).toProg s
      (.act (.lock .checkpoint) k) s') :
    ∃ admission, admitRequest stream.request = .ok admission ∧
      matchTransfer stream.request s.transfer = .ok () ∧
      stream.request.laneIndex ∉ s.activeLaneWriters ∧ admission.striped = true ∧
      s' = (s.lease stream.request.laneIndex).updateLock .checkpoint
        ((s.locks .checkpoint).lookup t) ∧
      .act (.lock .checkpoint) k = (fromLock ctx stream admission s.transfer).toProg := by
  unfold handleQuicStream at h
  have hchecks : ∀ {β : Type} (r : Except String β),
      (TryProg.ofExcept r : Task.Program β).toProg.All (· ≠ .lock .checkpoint) := fun _ => trivial
  obtain ⟨admission, s₁, hrequest, hthen₁⟩ := h.trySkip (hchecks _)
  obtain ⟨hadmitted, rfl⟩ := hrequest.of_ret
  obtain ⟨transfer, s₂, hread, hthen₂⟩ :=
    hthen₁.trySkip (not_lock_of_goesOn (all_lift (o := .readTransfer) trivial))
  obtain ⟨_, heq, hread⟩ := hread.of_lift
  cases heq
  obtain ⟨c, hread⟩ := hread.of_perform
  cases hread
  obtain ⟨_, s₃, hmatch, hthen₃⟩ := hthen₂.trySkip (hchecks _)
  obtain ⟨hmatched, rfl⟩ := hmatch.of_ret
  unfold withLaneWriterLease at hthen₃
  obtain ⟨acquired, s₄, hlease, hthen₄⟩ := Prog.Goes.skip (not_lock_of_goesOn
    (all_perform (o := .tryAcquireLaneWriter stream.request.laneIndex) trivial)) hthen₃
  obtain ⟨c, hlease⟩ := hlease.of_perform
  rcases leased_of_exec (t := t) (c := c) hlease with ⟨rfl, -, -⟩ | ⟨rfl, hfree, rfl⟩
  · cases hthen₄
  refine ⟨admission, hadmitted.symm, hmatched.symm, hfree, ?_⟩
  rcases Prog.Goes.of_bind hthen₄ with ⟨o, k₁, hbody, heq⟩ | ⟨r, s₅, -, hthen⟩
  · cases heq
    unfold leasedStream at hbody
    obtain ⟨_, s₅, htenant, hthen₅⟩ :=
      hbody.trySkip (not_lock_of_goesOn (all_fallible (all_perform trivial)))
    rcases htenant.of_orFail with ⟨_, -, hmade⟩ | ⟨he, -⟩
    swap
    · cases he
    obtain ⟨c', hmade⟩ := hmade.of_perform
    obtain rfl := createTenantDir_of_exec (t := t) hmade
    rcases Prog.Goes.of_bind (f := TryProg.andThen _) hthen₅ with
      ⟨o, k₂, hopen, heq⟩ | ⟨r, s₆, -, hthen⟩
    · cases heq
      obtain ⟨hstriped, rfl, hrest⟩ := goes_openLane hopen
      cases hrest
      exact ⟨hstriped, rfl, rfl⟩
    · cases r with
      | error e => cases hthen
      | ok opened => exact absurd hthen goes_openedStream
  · obtain ⟨_, s₆, -, h⟩ := Prog.Goes.skip (not_lock_of_goesOn
      (all_perform (o := .releaseLaneWriter stream.request.laneIndex) trivial)) hthen
    cases h

/-- And a striped stream that passes the checks gets there. -/
theorem goes_fromLock (ctx : Context) (t : Task)
    (hrequest : admitRequest stream.request = .ok admission)
    (hmatch : matchTransfer stream.request s.transfer = .ok ())
    (hfree : stream.request.laneIndex ∉ s.activeLaneWriters) (hstriped : admission.striped = true) :
    Prog.Goes unanswered t (handleQuicStream ctx stream).toProg s
      (fromLock ctx stream admission s.transfer).toProg
      ((s.lease stream.request.laneIndex).updateLock .checkpoint
        ((s.locks .checkpoint).lookup t)) := by
  have hlease : Prog.Eval unanswered t
      (perform (.tryAcquireLaneWriter stream.request.laneIndex)) s true
      (s.lease stream.request.laneIndex) := by
    refine .perform (c := .ok) ?_
    show exec t (.tryAcquireLaneWriter stream.request.laneIndex) .ok s = _
    simp only [exec, if_neg hfree]
    rfl
  have hopen : Prog.Goes unanswered t (openLane ctx stream.request admission s.transfer
      (isNullSinkUri s.transfer.destinationUri)).toProg (s.lease stream.request.laneIndex)
      (lockedLane ctx stream admission s.transfer).toProg
      ((s.lease stream.request.laneIndex).updateLock .checkpoint
        ((s.locks .checkpoint).lookup t)) := by
    rw [openLane_striped _ hstriped]
    exact .right (.perform (c := .ok) rfl) (.refl _ _)
  exact .tryRight (.ofExcept hrequest s) (.tryRight (.lift (.perform (c := .ok) rfl))
    (.tryRight (.ofExcept hmatch s) (.right hlease (.left
      (.tryRight (.orFail (.perform (c := .ok) rfl)) (.left hopen))))))

end

end Metra.Server
