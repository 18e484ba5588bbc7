import Metra.Server.Completed
import Metra.Server.Waiting

/-!
# What a rejected open leaves behind

The checks of an open message are interleaved with effects: a checkpoint that is missing is
made and stored for the lane count of the message before the layout is compared, and once
the checks are passed the status is written before the open ack is sent.

* `rejected_open_harmless_iff` — a stream that fails before its open ack leaves the transfer as
  it was if, and only if, it is refused by what the server has before it; a stream that has to
  wait for the checkpoint lock is judged by what is there when it gets it;
* `rejected_open_locks_out` — an open with a lane count of its own is rejected, and those with
  the right lane count are from then on.
-/

namespace Metra.Server

open Interleave

/-- The checkpoint lock is held, so that a striped stream has to wait for it. -/
def MustWait (t : Task) (s : State) : Prop :=
  (((s.locks .checkpoint).lookup t).lock t).isSome = false

/-- What the others leave while a stream waits: the same transfer, and the lock is free for the
stream, which has looked it up. -/
structure Awaited (t : Task) (s later : State) : Prop where
  same : SameTransfer s.transfer later.transfer
  turn : ((later.locks .checkpoint).lock t).isSome = true

/-- What a striped stream finds once it has the checkpoint lock looked up and its turn has come:
`later` when it has to wait. -/
def State.atLock (t : Task) (s later : State) : State :=
  if (((s.locks .checkpoint).lookup t).lock t).isSome = true then
    s.updateLock .checkpoint ((s.locks .checkpoint).lookup t)
  else later

/-- The lane is not opened: the checkpoint that is there does not fit, or the staging file is
too long. -/
inductive LaneRefused (t : Task) (request : QuicTransferOpen) (admission : Admission)
    (s later : State) : Prop
  | layout {found : TransferCheckpoint} {err : String} (hstriped : admission.striped = true)
      (hfound : (s.atLock t later).disk.checkpoint = some found)
      (h : found.validateLayout s.transfer.fileSizeBytes admission.totalLanes admission.rangeStart
        admission.rangeEndExclusive request.laneIndex = .error err)
  | staging (hplain : admission.striped = false)
      (hdisk : isNullSinkUri s.transfer.destinationUri = false)
      (h : s.transfer.fileSizeBytes < s.disk.stagedBytes)

/-- The open message is refused by what the server has before it. -/
inductive RefusedByCheck (t : Task) (request : QuicTransferOpen) (s later : State) : Prop
  | request {err : String} (h : admitRequest request = .error err)
  | transfer {err : String} (h : matchTransfer request s.transfer = .error err)
  | leased (h : request.laneIndex ∈ s.activeLaneWriters)
  | lane {admission : Admission} (hrequest : admitRequest request = .ok admission)
      (h : LaneRefused t request admission s later)

/-- The transfer in memory, its stored row, its checkpoint file and its staging file are as
before. -/
structure Untouched (s s' : State) : Prop where
  transfer : s'.transfer = s.transfer
  stored : s'.stored = s.stored
  checkpoint : s'.disk.checkpoint = s.disk.checkpoint
  staging : s'.disk.stagingContent = s.disk.stagingContent

/-- Every open that would have been accepted still is. -/
def StillAccepts (ctx : Context) (s s' : State) : Prop :=
  ∀ u stream, (∃ ack, Accepts ctx u s stream ack) → ∃ ack, Accepts ctx u s' stream ack

/-- What an open that fails before its open ack leaves is what it found.  A stream that comes
to the checkpoint lock while it is held has touched nothing, and goes on, with its lease, from
what the others leave. -/
structure RejectedHarmlessly (ctx : Context) (t : Task) (s later : State)
    (stream : LaneStream) : Prop where
  atOnce : ∀ err s', Prog.Eval unanswered t (handleQuicStream ctx stream).toProg s (.error err) s' →
    Untouched s s' ∧ StillAccepts ctx s s'
  waiting : ∀ k s₁, Prog.Goes unanswered t (handleQuicStream ctx stream).toProg s
      (.act (.lock .checkpoint) k) s₁ → (s₁.locks .checkpoint).lock t = none →
    Untouched s s₁ ∧ ∀ err s', Prog.Eval unanswered t (.act (.lock .checkpoint) k)
        (later.lease stream.request.laneIndex) (.error err) s' →
      Untouched later s' ∧ StillAccepts ctx later s'

section

variable {ctx : Context} {t : Task} {s s' later : State} {stream : LaneStream}
  {admission : Admission} {transfer : TransferSummary}

theorem atLock_of_mustWait (h : MustWait t s) : s.atLock t later = later :=
  if_neg (by rw [h]; exact Bool.false_ne_true)

theorem atLock_of_free (h : (((s.locks .checkpoint).lookup t).lock t).isSome = true) :
    s.atLock t later = s.updateLock .checkpoint ((s.locks .checkpoint).lookup t) :=
  if_pos h

/-! ## Refused by a check -/

/-- Nothing changed but the leases, of which there are no more, and the checkpoint lock, which is
free for those it was free for. -/
structure LeftAsFound (s s' : State) : Prop where
  transfer : s'.transfer = s.transfer
  stored : s'.stored = s.stored
  activeLaneWriters : s'.activeLaneWriters ⊆ s.activeLaneWriters
  disk : s'.disk = s.disk
  lock : ∀ u, (((s'.locks .checkpoint).lookup u).lock u).isSome =
    (((s.locks .checkpoint).lookup u).lock u).isSome

theorem LeftAsFound.refl (s : State) : LeftAsFound s s :=
  ⟨rfl, rfl, List.Subset.refl _, rfl, fun _ => rfl⟩

theorem LeftAsFound.untouched (h : LeftAsFound s s') : Untouched s s' :=
  ⟨h.transfer, h.stored, by rw [h.disk], by rw [h.disk]⟩

theorem LeftAsFound.acceptable (h : LeftAsFound s s') {u : Task} {request : QuicTransferOpen}
    (ha : Acceptable u request s) : Acceptable u request s' := by
  obtain ⟨admission, hrequest, hmatch, hfree, hopen⟩ := ha
  refine ⟨admission, hrequest, ?_, fun hmem => hfree (h.activeLaneWriters hmem), ?_, ?_, ?_⟩
  · rw [h.transfer]
    exact hmatch
  · rw [h.lock]
    exact hopen.lock
  · simp only [State.checkpointFor, h.disk, h.transfer]
    exact hopen.layout
  · rw [h.transfer, h.disk]
    exact hopen.staged

theorem LeftAsFound.stillAccepts (h : LeftAsFound s s') : StillAccepts ctx s s' :=
  fun _ _ ha => accepts_iff.2 (h.acceptable (accepts_iff.1 ha))

theorem leftAsFound_unlock {l : NamedLock Task} (hlock : (s.locks .checkpoint).lock t = some l) :
    LeftAsFound s (s.updateLock .checkpoint (l.unlock t)) := by
  refine ⟨rfl, rfl, List.Subset.refl _, rfl, fun u => ?_⟩
  rw [updateLock_locks_self]
  exact NamedLock.lock_isSome_of_unlocked hlock u

theorem leftAsFound_lookup :
    LeftAsFound s (s.updateLock .checkpoint ((s.locks .checkpoint).lookup t)) := by
  refine ⟨rfl, rfl, List.Subset.refl _, rfl, fun u => ?_⟩
  rw [updateLock_locks_self]
  exact NamedLock.lock_isSome_of_lookup u

theorem LeftAsFound.trans {s'' : State} (h : LeftAsFound s s') (h' : LeftAsFound s' s'') :
    LeftAsFound s s'' :=
  ⟨h'.transfer.trans h.transfer, h'.stored.trans h.stored,
    List.Subset.trans h'.activeLaneWriters h.activeLaneWriters, h'.disk.trans h.disk,
    fun u => (h'.lock u).trans (h.lock u)⟩

/-- The lease that was acquired on the way is released. -/
theorem LeftAsFound.release {lane : Nat} (h : LeftAsFound (s.lease lane) s') : LeftAsFound s
    { s' with activeLaneWriters := s'.activeLaneWriters.filter (· ≠ lane) } where
  transfer := h.transfer
  stored := h.stored
  activeLaneWriters other hmem := by
    obtain ⟨hmem, hne⟩ := List.mem_filter.1 hmem
    rcases List.mem_cons.1 (h.activeLaneWriters hmem) with heq | hbefore
    · exact absurd heq (of_decide_eq_true hne)
    · exact hbefore
  disk := h.disk
  lock := h.lock

/-- A striped lane that the checkpoint does not fit is not opened. -/
theorem leftAsFound_lockedLane {found : TransferCheckpoint} {err : String}
    {r : Except String (Nat × Nat)} (hfound : s.disk.checkpoint = some found)
    (hlayout : found.validateLayout transfer.fileSizeBytes admission.totalLanes
      admission.rangeStart admission.rangeEndExclusive stream.request.laneIndex = .error err)
    (h : Prog.Eval machine t (lockedLane ctx stream admission transfer).toProg s r s') :
    (∃ e, r = .error e) ∧ LeftAsFound s s' := by
  have hsection : ∀ r' s₁, Prog.Eval machine t (locked .checkpoint
      (loadOrInitLaneResumeUnlocked (checkpointIo ctx) transfer.transferId transfer.fileSizeBytes
        admission.totalLanes stream.request.laneIndex admission.rangeStart
        admission.rangeEndExclusive)).toProg s r' s₁ →
      (∃ e, r' = .error e) ∧ LeftAsFound s s₁ := by
    intro r' s₁ heval
    obtain ⟨l, s₂, hlock, hbody, rfl⟩ := of_locked heval
    obtain ⟨herror, rfl⟩ :=
      refused_of_layout (s := s.updateLock .checkpoint l) hfound hlayout hbody
    rw [updateLock_updateLock, updateLock_locks_self]
    exact ⟨herror, leftAsFound_unlock hlock⟩
  unfold lockedLane at h
  rcases h.tryBind_cases with ⟨e, rfl, heval⟩ | ⟨_, s₁, heval, -⟩
  · exact ⟨⟨e, rfl⟩, (hsection _ _ heval).2⟩
  · obtain ⟨⟨e, he⟩, -⟩ := hsection _ _ heval
    cases he

/-- Nor is the staging file of a single lane that is too long. -/
theorem leftAsFound_stagingResume {r : Except String (Nat × Nat)} {fileSize : Nat}
    (hlong : fileSize < s.disk.stagedBytes)
    (h : Prog.Eval machine t (stagingResume fileSize).toProg s r s') :
    (∃ e, r = .error e) ∧ LeftAsFound s s' := by
  unfold stagingResume at h
  rcases h.tryBind_cases with ⟨e, rfl, hlen⟩ | ⟨len, s₁, hlen, hrest⟩
  · rcases hlen.of_orFail with ⟨_, he, -⟩ | ⟨-, hnone⟩
    · cases he
    · obtain ⟨c, hexec⟩ := hnone.of_perform
      obtain ⟨rfl, -⟩ := stagingLen_of_exec (t := t) hexec
      exact ⟨⟨e, rfl⟩, .refl _⟩
  · rcases hlen.of_orFail with ⟨n, hn, hsome⟩ | ⟨he, -⟩
    swap
    · cases he
    cases hn
    obtain ⟨c, hexec⟩ := hsome.of_perform
    obtain ⟨rfl, hfound⟩ := stagingLen_of_exec (t := t) hexec
    have hstaged : len.getD 0 = s₁.disk.stagedBytes := by
      rw [hfound _ rfl]
      rfl
    rw [hstaged, if_pos hlong] at hrest
    obtain ⟨rfl, rfl⟩ := hrest.of_ret
    exact ⟨⟨_, rfl⟩, .refl _⟩

/-- A lane that is refused is not opened. -/
theorem leftAsFound_openLane {lane : Nat} {r : Except String (Nat × Nat)}
    (hrefused : LaneRefused t stream.request admission s later)
    (h : Prog.Eval machine t (openLane ctx stream.request admission s.transfer
      (isNullSinkUri s.transfer.destinationUri)).toProg (s.lease lane) r s') :
    (∃ e, r = .error e) ∧ LeftAsFound (s.lease lane) s' := by
  cases hrefused with
  | layout hstriped hfound herr =>
    rw [openLane_striped _ hstriped] at h
    obtain ⟨_, s₁, hlookup, hlocked⟩ := Prog.Eval.of_bind h
    obtain ⟨c, hlookup⟩ := hlookup.of_perform
    cases hlookup
    -- it did not have to wait, or it would not have come here
    have hgot : (((s.locks .checkpoint).lookup t).lock t).isSome = true := by
      unfold lockedLane at hlocked
      rcases hlocked.tryBind_cases with ⟨_, _, hsection⟩ | ⟨_, _, hsection, -⟩
      all_goals
        obtain ⟨l, s₂, hlock, -⟩ := of_locked hsection
        rw [updateLock_locks_self] at hlock
        exact Option.isSome_iff_exists.2 ⟨l, hlock⟩
    rw [atLock_of_free hgot] at hfound
    have hleft := leftAsFound_lockedLane (s := (s.lease lane).updateLock .checkpoint
      ((s.locks .checkpoint).lookup t)) hfound herr hlocked
    exact ⟨hleft.1, .trans (leftAsFound_lookup (s := s.lease lane) (t := t)) hleft.2⟩
  | staging hplain hdisk hlong =>
    unfold openLane at h
    rw [hplain, if_neg Bool.false_ne_true, hdisk, if_neg Bool.false_ne_true] at h
    exact leftAsFound_stagingResume hlong h

/-- What a stream that cannot open its lane leaves, while it has its lease. -/
theorem leftAsFound_leasedStream {lane : Nat} {r : Except String Unit}
    (hrefused : LaneRefused t stream.request admission s later)
    (h : Prog.Eval machine t (leasedStream ctx stream admission s.transfer).toProg (s.lease lane)
      r s') : LeftAsFound (s.lease lane) s' := by
  unfold leasedStream at h
  rcases h.tryBind_cases with ⟨_, -, hdir⟩ | ⟨_, s₁, hdir, hthen⟩
  · rcases hdir.of_orFail with ⟨_, he, -⟩ | ⟨-, hnone⟩
    · cases he
    · obtain ⟨c, hexec⟩ := hnone.of_perform
      obtain rfl := createTenantDir_of_exec (t := t) hexec
      exact .refl _
  · rcases hdir.of_orFail with ⟨_, -, hmade⟩ | ⟨he, -⟩
    swap
    · cases he
    obtain ⟨c, hexec⟩ := hmade.of_perform
    obtain rfl := createTenantDir_of_exec (t := t) hexec
    rcases hthen.tryBind_cases with ⟨_, -, hopen⟩ | ⟨_, s₂, hopen, -⟩
    · exact (leftAsFound_openLane hrefused hopen).2
    · obtain ⟨⟨e, he⟩, -⟩ := leftAsFound_openLane hrefused hopen
      cases he

/-- A stream that a check refuses without its having to wait leaves all as it was. -/
theorem leftAsFound_of_refused {r : Except String Unit}
    (hrefused : RefusedByCheck t stream.request s later)
    (h : Prog.Eval machine t (handleQuicStream ctx stream).toProg s r s') : LeftAsFound s s' := by
  unfold handleQuicStream at h
  rcases h.tryBind_cases with ⟨_, -, hrequest⟩ | ⟨admission, s₁, hrequest, hthen₁⟩
  · obtain ⟨-, rfl⟩ := hrequest.of_ret
    exact .refl _
  obtain ⟨hadmitted, rfl⟩ := hrequest.of_ret
  rcases hthen₁.tryBind_cases with ⟨_, -, hread⟩ | ⟨transfer, s₂, hread, hthen₂⟩
  · obtain ⟨_, he, -⟩ := hread.of_lift
    cases he
  obtain ⟨_, hok, hperform⟩ := hread.of_lift
  cases hok
  obtain ⟨c, hexec⟩ := hperform.of_perform
  cases hexec
  rcases hthen₂.tryBind_cases with ⟨_, -, hmatch⟩ | ⟨_, s₃, hmatch, hthen₃⟩
  · obtain ⟨-, rfl⟩ := hmatch.of_ret
    exact .refl _
  obtain ⟨hmatched, rfl⟩ := hmatch.of_ret
  unfold withLaneWriterLease at hthen₃
  obtain ⟨acquired, s₄, hlease, hthen₄⟩ := Prog.Eval.of_bind hthen₃
  obtain ⟨c', hacquire⟩ := hlease.of_perform
  rcases leased_of_exec (t := t) (c := c') hacquire with ⟨rfl, -, rfl⟩ | ⟨rfl, hfree, rfl⟩
  · obtain ⟨-, rfl⟩ := Prog.Eval.of_ret hthen₄
    exact .refl _
  obtain ⟨result, s₅, hbody, hthen₅⟩ := Prog.Eval.of_bind hthen₄
  obtain ⟨_, s₆, hrelease, hthen₆⟩ := Prog.Eval.of_bind hthen₅
  obtain ⟨-, rfl⟩ := hthen₆.of_ret
  obtain ⟨c₂, hreleased⟩ := hrelease.of_perform
  cases hreleased
  cases hrefused with
  | request herr =>
    rw [herr] at hadmitted
    cases hadmitted
  | transfer herr =>
    rw [herr] at hmatched
    cases hmatched
  | leased hmem => exact absurd hmem hfree
  | lane hrequest' hlane =>
    rw [hrequest'] at hadmitted
    cases hadmitted
    exact .release (leftAsFound_leasedStream hlane hbody)

/-- Nor does one that finds, once it has waited, that its lane does not fit. -/
theorem leftAsFound_fromLock {found : TransferCheckpoint} {err : String}
    {r : Except String Unit} (hfound : s.disk.checkpoint = some found)
    (hlayout : found.validateLayout transfer.fileSizeBytes admission.totalLanes
      admission.rangeStart admission.rangeEndExclusive stream.request.laneIndex = .error err)
    (h : Prog.Eval machine t (fromLock ctx stream admission transfer).toProg
      (s.lease stream.request.laneIndex) r s') : LeftAsFound s s' := by
  obtain ⟨result, s₁, hbody, hthen⟩ := Prog.Eval.of_bind h
  obtain ⟨_, s₂, hrelease, hret⟩ := Prog.Eval.of_bind hthen
  obtain ⟨-, rfl⟩ := hret.of_ret
  obtain ⟨c, hreleased⟩ := hrelease.of_perform
  cases hreleased
  refine .release ?_
  rcases Prog.Eval.tryBind_cases hbody with ⟨_, -, hlane⟩ | ⟨_, s₃, hlane, -⟩
  · exact (leftAsFound_lockedLane (s := s.lease stream.request.laneIndex) hfound hlayout hlane).2
  · obtain ⟨⟨e, he⟩, -⟩ := leftAsFound_lockedLane (s := s.lease stream.request.laneIndex)
      hfound hlayout hlane
    cases he

/-! ## Not refused by a check -/

theorem eval_unanswered {α : Type} {p : Prog Op Op.Reply α} {a : α}
    (h : Prog.Eval machine t p s a s') (hp : p.All Op.IsOther) :
    Prog.Eval unanswered t p s a s' := by
  refine h.restrict hp ?_
  intro o c ho
  cases o <;> first | rfl | cases ho

theorem eval_failRunningTransfer (ctx : Context) (h : s.transfer.status = .running) :
    ∃ s', Prog.Eval machine t (failRunningTransfer ctx).toProg s (.ok ()) s' ∧
      s'.transfer.status = .failed := by
  have hrunning : machine.exec t .checkRunning .ok s =
      some (some s.transfer.bytesTransferred, s) := by
    show some (if s.transfer.status ≠ .running then none else some s.transfer.bytesTransferred,
      s) = _
    rw [if_neg (not_not.2 h)]
  refine ⟨_, .tryBind (.lift (.perform hrunning)) (.tryBind (.lift (.perform (c := .ok) rfl))
    (.tryBind (eval_persistTransferSummary ctx) (.lift (.bind (.perform (c := .ok) rfl)
      (.perform (c := .ok) rfl))))), rfl⟩

/-- Once its lane is opened, a stream can fail with the status written. -/
theorem disturbed_openedStream (ctx : Context) (t : Task) (stream : LaneStream)
    (admission : Admission) (hsame : SameTransfer transfer s.transfer) (opened : Nat × Nat) :
    ∃ err s', Prog.Eval unanswered t (openedStream ctx stream admission transfer opened).toProg s
      (.error err) s' ∧ s'.transfer.status ≠ s.transfer.status := by
  have hrunning := eval_unanswered (eval_markRunning (t := t) hsame opened.2)
    (markRunning_other _ _)
  by_cases hstatus : s.transfer.status = .running
  · -- the ack cannot be sent, and the transfer is marked as failed
    have hstored := eval_unanswered (eval_persistTransferSummary ctx (t := t) (s := { s with
      transfer := { s.transfer with bytesTransferred := opened.2, status := .running } }))
      persistTransferSummary_other
    obtain ⟨d, hpresized⟩ := eval_presizeIfStriped ctx (t := t) (s := { s with
      transfer := { s.transfer with bytesTransferred := opened.2, status := .running }
      stored := { s.transfer with bytesTransferred := opened.2, status := .running } })
      stream.request admission (isNullSinkUri transfer.destinationUri)
    have hbody : Prog.Eval unanswered t (streamBody ctx stream admission
        (isNullSinkUri transfer.destinationUri) opened.1).toProg _ (.error "connection lost") _ :=
      .tryBind (eval_unanswered hpresized (other_of_silent (presizeIfStriped_silent _ _ _)))
        (.tryBind_error (.orFail_none (.perform (c := .ioError) rfl)))
    obtain ⟨s₃, hfail, hfailed⟩ := eval_failRunningTransfer (t := t) ctx (s := { s with
      transfer := { s.transfer with bytesTransferred := opened.2, status := .running }
      stored := { s.transfer with bytesTransferred := opened.2, status := .running }
      disk := d }) rfl
    refine ⟨_, _, .tryBind hrunning (.tryBind hstored (.bind hbody
      (.bind (eval_unanswered hfail failRunningTransfer_other) (.ret _ _)))), ?_⟩
    rw [hfailed, hstatus]
    exact nofun
  · -- the row cannot be stored, and the transfer stays marked as running
    have hfails : Prog.Eval unanswered t (persistTransferSummary ctx).toProg
        { s with transfer := { s.transfer with bytesTransferred := opened.2, status := .running } }
        (.error _) _ :=
      .tryBind (.lift (.perform (c := .ok) rfl)) (.orFail_none (.perform (c := .ioError) rfl))
    exact ⟨_, _, .tryBind hrunning (.tryBind_error hfails), fun h => hstatus h.symm⟩

/-- A striped stream that has the lock, and that no checkpoint refuses, can fail with the
checkpoint made or the status written. -/
theorem disturbed_fromLock (ctx : Context) (stream : LaneStream)
    (hturn : ((s.locks .checkpoint).lock t).isSome = true)
    (hsame : SameTransfer transfer s.transfer)
    (hfits : ∀ found, s.disk.checkpoint = some found →
      found.validateLayout transfer.fileSizeBytes admission.totalLanes admission.rangeStart
        admission.rangeEndExclusive stream.request.laneIndex = .ok ()) :
    ∃ err s', Prog.Eval unanswered t (fromLock ctx stream admission transfer).toProg
      (s.lease stream.request.laneIndex) (.error err) s' ∧ ¬ Untouched s s' := by
  obtain ⟨l, hl⟩ := Option.isSome_iff_exists.1 hturn
  have hreleased : ∀ {err s₁}, Prog.Eval unanswered t
      (lockedLane ctx stream admission transfer >>=
        openedStream ctx stream admission transfer).toProg (s.lease stream.request.laneIndex)
        (.error err) s₁ →
      Prog.Eval unanswered t (fromLock ctx stream admission transfer).toProg
        (s.lease stream.request.laneIndex) (.error err)
        { s₁ with
          activeLaneWriters := s₁.activeLaneWriters.filter (· ≠ stream.request.laneIndex) } :=
    fun h => .bind h (.bind (.perform (c := .ok) rfl) (.ret _ _))
  have hlane : ∀ {r s₁}, Prog.Eval machine t (lockedLane ctx stream admission transfer).toProg
      (s.lease stream.request.laneIndex) r s₁ → Prog.Eval unanswered t
        (lockedLane ctx stream admission transfer).toProg (s.lease stream.request.laneIndex) r s₁ :=
    fun h => eval_unanswered h (lockedLane_other _)
  cases hfound : s.disk.checkpoint with
  | none =>
    have hexists : Prog.Eval machine t (checkpointIo ctx).tryExists.toProg
        ((s.lease stream.request.laneIndex).updateLock .checkpoint l) (.ok false)
        ((s.lease stream.request.laneIndex).updateLock .checkpoint l) := by
      refine .orFail (.perform (c := .ok) ?_)
      show some (some s.disk.checkpoint.isSome, _) = _
      rw [hfound]
      rfl
    have hload : Prog.Eval machine t (loadOrInitLaneResumeUnlocked (checkpointIo ctx)
        transfer.transferId transfer.fileSizeBytes admission.totalLanes stream.request.laneIndex
        admission.rangeStart admission.rangeEndExclusive).toProg
        ((s.lease stream.request.laneIndex).updateLock .checkpoint l) (.error _) _ :=
      .tryBind_error (.tryBind hexists
        (.tryBind_error (.orFail_none (.perform (c := .ioErrorAfter) rfl))))
    refine ⟨_, _, hreleased (.tryBind_error
      (hlane (.tryBind_error (eval_locked (s := s.lease _) hl hload)))), fun h => ?_⟩
    have hmade := h.checkpoint
    rw [hfound] at hmade
    exact absurd (hmade.symm.trans List.getLast?_concat) nofun
  | some found =>
    have hmade : found = s.disk.checkpoint.getD (newCheckpoint transfer.transferId
        transfer.fileSizeBytes admission.totalLanes) := by
      rw [hfound, Option.getD_some]
    obtain ⟨resume, total, d, hbody⟩ := eval_loadOrInitLaneResumeUnlocked ctx (t := t)
      (s := (s.lease stream.request.laneIndex).updateLock .checkpoint l) hmade
      (hfits found hfound)
    obtain ⟨s₁, hopened, htransfer⟩ : ∃ s₁, Prog.Eval machine t
        (lockedLane ctx stream admission transfer).toProg (s.lease stream.request.laneIndex)
        (.ok (resume, min total transfer.fileSizeBytes)) s₁ ∧ s₁.transfer = s.transfer :=
      ⟨_, .tryBind (eval_locked (s := s.lease _) hl hbody) (.ret _ _), rfl⟩
    rw [← htransfer] at hsame
    obtain ⟨err, s', heval, hstatus⟩ := disturbed_openedStream ctx t stream admission hsame
      (resume, min total transfer.fileSizeBytes)
    refine ⟨err, _, hreleased (.tryBind (hlane hopened) heval), fun h => hstatus ?_⟩
    rw [htransfer]
    exact congrArg TransferSummary.status h.transfer

/-- A single lane that no check refuses can fail with the status written. -/
theorem disturbed_of_plain (ctx : Context) (t : Task)
    (hrequest : admitRequest stream.request = .ok admission)
    (hmatch : matchTransfer stream.request s.transfer = .ok ())
    (hfree : stream.request.laneIndex ∉ s.activeLaneWriters) (hplain : admission.striped = false)
    (hfits : isNullSinkUri s.transfer.destinationUri = false →
      s.disk.stagedBytes ≤ s.transfer.fileSizeBytes) :
    ∃ err s', Prog.Eval unanswered t (handleQuicStream ctx stream).toProg s (.error err) s' ∧
      ¬ Untouched s s' := by
  have hopenable : Openable t stream.request admission (s.lease stream.request.laneIndex) :=
    ⟨by simp [hplain], by simp [hplain], fun _ => hfits⟩
  obtain ⟨resume, bytes, s₁, hopen, htransfer, -⟩ := hopenable.eval ctx
  have hsame : SameTransfer s.transfer s₁.transfer := by
    rw [htransfer]
    rfl
  obtain ⟨err, s', heval, hstatus⟩ := disturbed_openedStream ctx t stream admission hsame
    (resume, bytes)
  have hleased : Prog.Eval unanswered t (leasedStream ctx stream admission s.transfer).toProg
      (s.lease stream.request.laneIndex) (.error err) s' :=
    .tryBind (.orFail (.perform (c := .ok) rfl)) (.tryBind
      (eval_unanswered hopen (other_of_silent (openLane_silent _ _ _ _))) heval)
  refine ⟨err, _, .tryBind (.ofExcept hrequest s) (.tryBind (.lift (.perform (c := .ok) rfl))
    (.tryBind (.ofExcept hmatch s)
      (.bind (eval_unanswered (eval_tryAcquireLaneWriter hfree) (all_perform trivial))
        (.bind hleased (.bind (.perform (c := .ok) rfl) (.ret _ _)))))), fun h => hstatus ?_⟩
  rw [htransfer]
  exact congrArg TransferSummary.status h.transfer

end

/-- **A rejected open is harmless when a check refuses it** by what the server has before it,
and only then. -/
theorem rejected_open_harmless_iff (ctx : Context) (t : Task) (s later : State)
    (stream : LaneStream) (hlater : MustWait t s → Awaited t s later) :
    RejectedHarmlessly ctx t s later stream ↔ RefusedByCheck t stream.request s later := by
  constructor
  · intro hharmless
    cases hrequest : admitRequest stream.request with
    | error err => exact .request hrequest
    | ok admission =>
      cases hmatch : matchTransfer stream.request s.transfer with
      | error err => exact .transfer hmatch
      | ok _ =>
        by_cases hfree : stream.request.laneIndex ∈ s.activeLaneWriters
        · exact .leased hfree
        by_contra hpassed
        have hlane : ¬ LaneRefused t stream.request admission s later :=
          fun h => hpassed (.lane hrequest h)
        cases hstriped : admission.striped with
        | false =>
          obtain ⟨err, s', heval, htouched⟩ := disturbed_of_plain ctx t hrequest hmatch
            hfree hstriped fun hdisk => Nat.le_of_not_lt fun hlong =>
              hlane (.staging hstriped hdisk hlong)
          exact htouched (hharmless.atOnce err s' heval).1
        | true =>
          have hfits : ∀ found, (s.atLock t later).disk.checkpoint = some found →
              found.validateLayout s.transfer.fileSizeBytes admission.totalLanes
                admission.rangeStart admission.rangeEndExclusive stream.request.laneIndex =
                  .ok () := by
            intro found hfound
            cases hlayout : found.validateLayout s.transfer.fileSizeBytes admission.totalLanes
                admission.rangeStart admission.rangeEndExclusive stream.request.laneIndex with
            | ok _ => rfl
            | error err => exact absurd (.layout hstriped hfound hlayout) hlane
          have hgoes := goes_fromLock ctx t hrequest hmatch hfree hstriped
          cases hgot : (((s.locks .checkpoint).lookup t).lock t).isSome with
          | true =>
            rw [atLock_of_free hgot] at hfits
            have hturn : (((s.updateLock .checkpoint ((s.locks .checkpoint).lookup t)).locks
                .checkpoint).lock t).isSome = true := by
              rw [updateLock_locks_self, hgot]
            obtain ⟨err, s', heval, htouched⟩ := disturbed_fromLock ctx stream hturn rfl hfits
            refine htouched ?_
            have hsame := (hharmless.atOnce err s' (hgoes.eval heval)).1
            exact ⟨hsame.transfer, hsame.stored, hsame.checkpoint, hsame.staging⟩
          | false =>
            rw [atLock_of_mustWait hgot] at hfits
            obtain ⟨hsame, hturn⟩ := hlater hgot
            obtain ⟨err, s', heval, htouched⟩ := disturbed_fromLock ctx stream hturn hsame hfits
            have hheld : ((((s.lease stream.request.laneIndex).updateLock .checkpoint
                ((s.locks .checkpoint).lookup t)).locks .checkpoint).lock t) = none := by
              rw [updateLock_locks_self]
              exact Option.isSome_eq_false_iff.1 hgot |> Option.isNone_iff_eq_none.1
            exact htouched ((hharmless.waiting _ _ hgoes hheld).2 err s' heval).1
  · intro hrefused
    refine ⟨fun err s' heval => ?_, fun k s₁ hgoes hheld => ?_⟩
    · have hleft := leftAsFound_of_refused hrefused heval.of_restrict
      exact ⟨hleft.untouched, hleft.stillAccepts⟩
    · obtain ⟨admission, hrequest, hmatch, hfree, hstriped, rfl, hrest⟩ := of_waits hgoes
      refine ⟨⟨rfl, rfl, rfl, rfl⟩, fun err s' heval => ?_⟩
      rw [updateLock_locks_self] at hheld
      have hwait : MustWait t s := by rw [MustWait, hheld, Option.isSome_none]
      rw [hrest] at heval
      cases hrefused with
      | request herr =>
        rw [herr] at hrequest
        cases hrequest
      | transfer herr =>
        rw [herr] at hmatch
        cases hmatch
      | leased hmem => exact absurd hmem hfree
      | lane hrequest' hlane =>
        rw [hrequest'] at hrequest
        cases hrequest
        cases hlane with
        | layout _ hfound hlayout =>
          rw [atLock_of_mustWait hwait] at hfound
          have hleft := leftAsFound_fromLock hfound hlayout heval.of_restrict
          exact ⟨hleft.untouched, hleft.stillAccepts⟩
        | staging hplain =>
          rw [hplain] at hstriped
          cases hstriped

namespace Scenario

/-- A server with a transfer of three bytes that nothing was received of. -/
def queuedThree : State := start (transfer [7, 8, 9] true .queued) noFiles

/-- An open for two lanes, the first of which has the range of the whole file. -/
def wide : LaneStream where
  request := { (lane [7, 8, 9] 2 0).request with rangeEndExclusive := 3 }
  incoming _ := []

end Scenario

open Scenario in
/-- The range of an open is not that of its lane.  It is rejected, but only after the checkpoint
was made for its lane count, and the lanes of a transfer in three lanes are rejected from then
on. -/
theorem rejected_open_locks_out : ∃ err s', Prog.Eval unanswered (.handler 0)
      (handleQuicStream ctx wide).toProg queuedThree (.error err) s' ∧
    s'.disk.checkpoint ≠ queuedThree.disk.checkpoint ∧
    (∃ ack, Accepts ctx (.handler 1) queuedThree (lane [7, 8, 9] 3 0) ack) ∧
    ¬ ∃ ack, Accepts ctx (.handler 1) s' (lane [7, 8, 9] 3 0) ack := by
  have hrun : (Prog.run? unanswered (.handler 0) (List.replicate 9 .ok)
      (handleQuicStream ctx wide).toProg queuedThree).any (fun out => !out.1.isOk &&
        decide (out.2.disk.checkpoint = some (newCheckpoint Metra.Sample.transferId 3 2))) =
          true := by
    decide +kernel
  obtain ⟨⟨r, s'⟩, heq, hout⟩ := (Option.any_eq_true _ _).1 hrun
  obtain ⟨herror, hfile⟩ := Bool.and_eq_true_iff.1 hout
  have hmade : s'.disk.checkpoint = some (newCheckpoint Metra.Sample.transferId 3 2) :=
    of_decide_eq_true hfile
  cases r with
  | ok _ => cases herror
  | error err =>
    refine ⟨err, s', Prog.eval_of_run? heq, ?_, ?_, ?_⟩
    · rw [hmade]
      exact Option.some_ne_none _
    · exact accepts_iff.2 ⟨_, rfl, rfl, List.not_mem_nil, fun _ => rfl, fun _ => rfl, by decide⟩
    · rintro ⟨ack, haccepts⟩
      obtain ⟨admission, hrequest, -, -, hopen⟩ := haccepts.acceptable
      cases hrequest
      have hlayout := hopen.layout rfl
      rw [State.checkpointFor, hmade] at hlayout
      obtain ⟨-, htotal, -⟩ := TransferCheckpoint.of_validateLayout hlayout
      cases htotal

namespace Scenario

/-- Another stream is in the section of the checkpoint lock. -/
def occupied : State :=
  { queuedThree with
    locks := Function.update queuedThree.locks .checkpoint ⟨some 0, 1,
      fun _ => some (.handler 1), fun u => if u = .handler 1 then some 0 else none⟩ }

/-- It has made the checkpoint for two lanes and left the section. -/
def vacated : State :=
  { queuedThree with
    disk := queuedThree.disk.persistCheckpoint (newCheckpoint Metra.Sample.transferId 3 2)
    locks := Function.update queuedThree.locks .checkpoint ⟨some 0, 1, fun _ => none,
      fun u => if u = .handler 0 then some 0 else none⟩ }

end Scenario

open Scenario in
/-- The lane of a transfer in three lanes waits, and finds a checkpoint for two. -/
theorem rejected_open_harmless_iff_sample :
    MustWait (.handler 0) occupied ∧ Awaited (.handler 0) occupied vacated ∧
      RejectedHarmlessly ctx (.handler 0) occupied vacated (lane [7, 8, 9] 3 0) := by
  have hlater : Awaited (.handler 0) occupied vacated := ⟨rfl, rfl⟩
  refine ⟨rfl, hlater, (rejected_open_harmless_iff _ _ _ _ _ fun _ => hlater).2 ?_⟩
  have hfound : (occupied.atLock (.handler 0) vacated).disk.checkpoint =
      some (newCheckpoint Metra.Sample.transferId 3 2) := rfl
  exact .lane rfl (.layout rfl hfound rfl)

end Metra.Server
