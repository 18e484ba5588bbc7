import Metra.Interleave.Solo
import Metra.Server.Effects
import Metra.Server.OpenAck

/-!
# Which opens are accepted

A stream that runs alone gets to its open ack if, and only if, its open message passes all
checks, the lane is free and the checkpoint lock can be had; and the resume offset that it
then sends is read off the state it started from.

* `Acceptable` — the checks;
* `accepts_iff` — they decide whether the stream can get to its open ack.
-/

namespace Metra.Server

open Interleave

/-- Alone, the handler of the stream can get to where it sends its open ack. -/
def Accepts (ctx : Context) (t : Task) (s : State) (stream : LaneStream)
    (ack : QuicTransferOpenAck) : Prop :=
  ∃ k s', Prog.Goes machine t (handleQuicStream ctx stream).toProg s (.act (.sendOpenAck ack) k) s'

/-- The checkpoint that a lane is opened from. -/
def State.checkpointFor (s : State) (totalLanes : Nat) : TransferCheckpoint :=
  s.disk.checkpoint.getD
    (newCheckpoint s.transfer.transferId s.transfer.fileSizeBytes totalLanes)

/-- What a stream has received before, by the length of the staging file. -/
def Disk.stagedBytes (d : Disk) : Nat := (d.staging.map fun f => (d.inode f).data.length).getD 0

/-- The content of the staging file. -/
def Disk.stagingContent (d : Disk) : Option (List UInt8) := d.staging.map fun f => (d.inode f).data

/-- The lane can be opened: a striped lane fits the checkpoint, whose lock can be had, and the
staging file of a single lane is not longer than the file. -/
structure Openable (t : Task) (request : QuicTransferOpen) (admission : Admission) (s : State) :
    Prop where
  lock : admission.striped = true → (((s.locks .checkpoint).lookup t).lock t).isSome = true
  layout : admission.striped = true →
    (s.checkpointFor admission.totalLanes).validateLayout s.transfer.fileSizeBytes
      admission.totalLanes admission.rangeStart admission.rangeEndExclusive request.laneIndex =
        .ok ()
  staged : admission.striped = false → isNullSinkUri s.transfer.destinationUri = false →
    s.disk.stagedBytes ≤ s.transfer.fileSizeBytes

/-- The open message passes all checks. -/
def Acceptable (t : Task) (request : QuicTransferOpen) (s : State) : Prop :=
  ∃ admission, admitRequest request = .ok admission ∧
    matchTransfer request s.transfer = .ok () ∧ request.laneIndex ∉ s.activeLaneWriters ∧
    Openable t request admission s

section

variable {ctx : Context} {t : Task} {s s' : State} {α : Type}

/-! ## Runs of the parts -/

@[simp] theorem updateLock_locks_self (kind : LockKind) (l : NamedLock Task) :
    (s.updateLock kind l).locks kind = l := Function.update_self _ _ _

@[simp] theorem updateLock_updateLock (kind : LockKind) (l l' : NamedLock Task) :
    (s.updateLock kind l).updateLock kind l' = s.updateLock kind l' := by
  simp only [State.updateLock, Function.update_idem]

/-- The section of a lock that is looked up already. -/
def locked (kind : LockKind) (body : Task.Program α) : Task.Program α :=
  (do perform (.lock kind)
      let result ← body.toProg
      perform (.unlock kind)
      pure result : Prog Op Op.Reply (Except String α))

theorem of_locked {kind : LockKind} {body : Task.Program α} {r : Except String α}
    (h : Prog.Eval machine t (locked kind body).toProg s r s') :
    ∃ l s₁, (s.locks kind).lock t = some l ∧
      Prog.Eval machine t body.toProg (s.updateLock kind l) r s₁ ∧
      s' = s₁.updateLock kind ((s₁.locks kind).unlock t) := by
  obtain ⟨_, s₁, hlock, h⟩ := Prog.Eval.of_bind h
  obtain ⟨r', s₂, hbody, h⟩ := Prog.Eval.of_bind h
  obtain ⟨_, s₃, hunlock, h⟩ := Prog.Eval.of_bind h
  obtain ⟨rfl, rfl⟩ := h.of_ret
  obtain ⟨c₁, hlock⟩ := hlock.of_perform
  obtain ⟨c₂, hunlock⟩ := hunlock.of_perform
  cases hunlock
  obtain ⟨l, hl, heq⟩ := Option.map_eq_some_iff.1 hlock
  cases heq
  exact ⟨l, s₂, hl, hbody, rfl⟩

theorem eval_locked {kind : LockKind} {body : Task.Program α} {r : Except String α}
    {l : NamedLock Task} {s₁ : State} (hlock : (s.locks kind).lock t = some l)
    (hbody : Prog.Eval machine t body.toProg (s.updateLock kind l) r s₁) :
    Prog.Eval machine t (locked kind body).toProg s r
      (s₁.updateLock kind ((s₁.locks kind).unlock t)) := by
  have hentered : machine.exec t (.lock kind) .ok s = some ((), s.updateLock kind l) := by
    show ((s.locks kind).lock t).map _ = _
    rw [hlock, Option.map_some]
  exact .bind (.perform hentered) (.bind hbody (.bind (.perform (c := .ok) rfl) (.ret _ _)))

/-- A section of a lock alone. -/
theorem of_withLock {kind : LockKind} {body : Task.Program α} {r : Except String α}
    (h : Prog.Eval machine t (withLock kind body).toProg s r s') :
    ∃ l s₁, ((s.locks kind).lookup t).lock t = some l ∧
      Prog.Eval machine t body.toProg (s.updateLock kind l) r s₁ ∧
      s' = s₁.updateLock kind ((s₁.locks kind).unlock t) := by
  obtain ⟨_, s₁, hlookup, hsection⟩ := Prog.Eval.of_bind h
  obtain ⟨c, hlookup⟩ := hlookup.of_perform
  cases hlookup
  obtain ⟨l, s₂, hlock, hbody, hs'⟩ := of_locked hsection
  rw [updateLock_locks_self] at hlock
  rw [updateLock_updateLock] at hbody
  exact ⟨l, s₂, hlock, hbody, hs'⟩

theorem eval_withLock {kind : LockKind} {body : Task.Program α} {r : Except String α}
    {l : NamedLock Task} {s₁ : State} (hlock : ((s.locks kind).lookup t).lock t = some l)
    (hbody : Prog.Eval machine t body.toProg (s.updateLock kind l) r s₁) :
    Prog.Eval machine t (withLock kind body).toProg s r
      (s₁.updateLock kind ((s₁.locks kind).unlock t)) := by
  have hlookup : machine.exec t (.lockFor kind) .ok s =
      some ((), s.updateLock kind ((s.locks kind).lookup t)) := rfl
  refine .bind (.perform hlookup) (eval_locked (l := l) ?_ ?_)
  · rw [updateLock_locks_self, hlock]
  · rw [updateLock_updateLock]
    exact hbody

/-! ## Opening the lane -/

/-- What the checkpoint is loaded or made from: a file that is found is left as it is. -/
theorem of_loadOrInitCheckpoint {transferId : Uuid} {fileSizeBytes totalLanes : Nat}
    {r : Except String TransferCheckpoint}
    (h : Prog.Eval machine t
      (loadOrInitCheckpoint (checkpointIo ctx) transferId fileSizeBytes totalLanes).toProg s r s') :
    (∀ c, r = .ok c →
      c = s.disk.checkpoint.getD (newCheckpoint transferId fileSizeBytes totalLanes)) ∧
      (s.disk.checkpoint.isSome = true → s' = s) := by
  unfold loadOrInitCheckpoint at h
  rcases h.tryBind_cases with ⟨e, rfl, hexists⟩ | ⟨present, s₁, hexists, h⟩
  · rcases hexists.of_orFail with ⟨a, ha, -⟩ | ⟨-, hnone⟩
    · cases ha
    · obtain ⟨c, hexec⟩ := hnone.of_perform
      obtain ⟨rfl, -⟩ := checkpointExists_of_exec (t := t) hexec
      exact ⟨by simp, fun _ => rfl⟩
  · rcases hexists.of_orFail with ⟨b, hb, hsome⟩ | ⟨he, -⟩
    swap
    · cases he
    cases hb
    obtain ⟨c, hexec⟩ := hsome.of_perform
    obtain ⟨rfl, hpresent⟩ := checkpointExists_of_exec (t := t) hexec
    obtain rfl := hpresent _ rfl
    cases hfound : s₁.disk.checkpoint with
    | some found =>
      rw [hfound] at h
      rcases Prog.Eval.of_orFail h with ⟨c', rfl, hload⟩ | ⟨rfl, hnone⟩
      · obtain ⟨c₁, hread⟩ := hload.of_perform
        obtain ⟨hsame, rfl⟩ := readCheckpoint_of_exec (t := t) hread
        rw [hfound] at hsame
        cases hsame
        exact ⟨by simp, fun _ => rfl⟩
      · obtain ⟨c₁, hread⟩ := hnone.of_perform
        refine ⟨by simp, fun _ => ?_⟩
        exact readCheckpoint_none_of_exec (t := t) hread
    | none =>
      rw [hfound] at h
      rcases Prog.Eval.tryBind_cases h with ⟨e, rfl, -⟩ | ⟨_, s₂, -, h⟩
      · exact ⟨by simp, by simp⟩
      · obtain ⟨rfl, -⟩ := h.of_ret
        exact ⟨by simp, by simp⟩

/-- The lane is opened from the checkpoint that is found, or from a new one. -/
theorem of_loadOrInitLaneResumeUnlocked {transferId : Uuid}
    {fileSizeBytes totalLanes laneIndex rangeStart rangeEnd resume total : Nat}
    (h : Prog.Eval machine t (loadOrInitLaneResumeUnlocked (checkpointIo ctx) transferId
      fileSizeBytes totalLanes laneIndex rangeStart rangeEnd).toProg s (.ok (resume, total)) s') :
    ∃ c c', c = s.disk.checkpoint.getD (newCheckpoint transferId fileSizeBytes totalLanes) ∧
      c.validateLayout fileSizeBytes totalLanes rangeStart rangeEnd laneIndex = .ok () ∧
      c.roundLane laneIndex = some (resume, c') := by
  unfold loadOrInitLaneResumeUnlocked at h
  obtain ⟨c, s₁, hload, h⟩ := h.of_tryBind
  obtain ⟨_, s₂, hlayout, h⟩ := h.of_tryBind
  obtain ⟨hlayout, -⟩ := hlayout.of_ret
  have hfrom := (of_loadOrInitCheckpoint hload).1 c rfl
  refine ⟨c, ?_⟩
  split at h
  · cases h.of_ret.1
  · rename_i r c' hround
    obtain ⟨_, s₃, -, h⟩ := h.of_tryBind
    obtain ⟨heq, -⟩ := h.of_ret
    cases heq
    exact ⟨c', hfrom, hlayout.symm, hround⟩

/-- A checkpoint that is found and does not fit is left as it is. -/
theorem refused_of_layout {transferId : Uuid} {c : TransferCheckpoint} {err : String}
    {fileSizeBytes totalLanes laneIndex rangeStart rangeEnd : Nat}
    {r : Except String (Nat × Nat)} (hfound : s.disk.checkpoint = some c)
    (hlayout : c.validateLayout fileSizeBytes totalLanes rangeStart rangeEnd laneIndex = .error err)
    (h : Prog.Eval machine t (loadOrInitLaneResumeUnlocked (checkpointIo ctx) transferId
      fileSizeBytes totalLanes laneIndex rangeStart rangeEnd).toProg s r s') :
    (∃ e, r = .error e) ∧ s' = s := by
  unfold loadOrInitLaneResumeUnlocked at h
  rcases h.tryBind_cases with ⟨e, rfl, hload⟩ | ⟨c', s₁, hload, hrest⟩
  · exact ⟨⟨e, rfl⟩, (of_loadOrInitCheckpoint hload).2 (by simp [hfound])⟩
  · obtain ⟨hfrom, hsame⟩ := of_loadOrInitCheckpoint hload
    obtain rfl := hsame (by simp [hfound])
    have hc := hfrom c' rfl
    rw [hfound, Option.getD_some] at hc
    subst hc
    rcases hrest.tryBind_cases with ⟨e, rfl, hcheck⟩ | ⟨_, s₂, hcheck, -⟩
    · obtain ⟨-, rfl⟩ := hcheck.of_ret
      exact ⟨⟨e, rfl⟩, rfl⟩
    · rw [hlayout] at hcheck
      cases hcheck.of_ret.1

variable (ctx) in
/-- A checkpoint that fits is loaded or made, and the lane's rounded offset stored. -/
theorem eval_loadOrInitLaneResumeUnlocked {transferId : Uuid}
    {fileSizeBytes totalLanes laneIndex rangeStart rangeEnd : Nat} {c : TransferCheckpoint}
    (hfrom : c = s.disk.checkpoint.getD (newCheckpoint transferId fileSizeBytes totalLanes))
    (hlayout : c.validateLayout fileSizeBytes totalLanes rangeStart rangeEnd laneIndex = .ok ()) :
    ∃ resume total d, Prog.Eval machine t (loadOrInitLaneResumeUnlocked (checkpointIo ctx)
      transferId fileSizeBytes totalLanes laneIndex rangeStart rangeEnd).toProg s
        (.ok (resume, total)) { s with disk := d } := by
  obtain ⟨-, -, lane, hlane, -, -⟩ := TransferCheckpoint.of_validateLayout hlayout
  obtain ⟨⟨resume, c'⟩, hround⟩ : ∃ out, c.roundLane laneIndex = some out := by
    rw [TransferCheckpoint.roundLane, hlane]
    exact ⟨_, rfl⟩
  -- the checkpoint is there, or is made
  obtain ⟨d, hload⟩ : ∃ d, Prog.Eval machine t
      (loadOrInitCheckpoint (checkpointIo ctx) transferId fileSizeBytes totalLanes).toProg s (.ok c)
        { s with disk := d } := by
    have hexists : Prog.Eval machine t (checkpointIo ctx).tryExists.toProg s
        (.ok s.disk.checkpoint.isSome) s :=
      .orFail (.perform (c := .ok) rfl)
    unfold loadOrInitCheckpoint
    cases hfound : s.disk.checkpoint with
    | some found =>
      rw [hfound, Option.getD_some] at hfrom
      subst hfrom
      rw [hfound] at hexists
      refine ⟨s.disk, .tryBind hexists (.orFail (.perform (c := .ok) ?_))⟩
      show some (attempt .ok (s.disk.checkpoint.map fun found => (found, s)) s) = _
      rw [hfound]
      rfl
    | none =>
      rw [hfound, Option.getD_none] at hfrom
      subst hfrom
      rw [hfound] at hexists
      refine ⟨s.disk.persistCheckpoint (newCheckpoint transferId fileSizeBytes totalLanes),
        .tryBind hexists (.tryBind (.orFail (.perform (c := .ok) rfl)) (.ret _ _))⟩
  refine ⟨resume, c'.totalTransferred, d.persistCheckpoint c', ?_⟩
  refine .tryBind hload (.tryBind (.ofExcept hlayout _) ?_)
  rw [hround]
  exact .tryBind (.orFail (.perform (c := .ok) rfl)) (.ret _ _)

/-- A lane that was opened could be, and where it resumes. -/
theorem of_openLane {request : QuicTransferOpen} {admission : Admission} {resume bytes : Nat}
    (h : Prog.Eval machine t (openLane ctx request admission s.transfer
      (isNullSinkUri s.transfer.destinationUri)).toProg s (.ok (resume, bytes)) s') :
    Openable t request admission s ∧
      (admission.striped = true → ∃ c',
        (s.checkpointFor admission.totalLanes).roundLane request.laneIndex = some (resume, c')) ∧
      (admission.striped = false → isNullSinkUri s.transfer.destinationUri = false →
        resume = s.disk.stagedBytes) := by
  unfold openLane at h
  cases hs : admission.striped with
  | true =>
    rw [hs, if_pos rfl] at h
    obtain ⟨⟨laneResume, total⟩, s₁, hload, hrest⟩ := h.of_tryBind
    cases hrest.of_ret.1
    obtain ⟨l, s₂, hlock, hbody, -⟩ := of_withLock hload
    obtain ⟨c, c', rfl, hlayout, hround⟩ := of_loadOrInitLaneResumeUnlocked hbody
    exact ⟨⟨fun _ => by rw [hlock, Option.isSome_some], fun _ => hlayout, by simp [hs]⟩,
      fun _ => ⟨c', hround⟩, by simp⟩
  | false =>
    rw [hs, if_neg Bool.false_ne_true] at h
    cases hd : isNullSinkUri s.transfer.destinationUri with
    | true => exact ⟨⟨by simp [hs], by simp [hs], by simp [hd]⟩, by simp, by simp⟩
    | false =>
      rw [hd, if_neg Bool.false_ne_true] at h
      unfold stagingResume at h
      obtain ⟨len, s₁, hlen, hrest⟩ := h.of_tryBind
      rcases hlen.of_orFail with ⟨n, heq, hsome⟩ | ⟨he, -⟩
      swap
      · cases he
      cases heq
      obtain ⟨c, hexec⟩ := hsome.of_perform
      obtain ⟨rfl, hfound⟩ := stagingLen_of_exec (t := t) hexec
      have hstaged : len.getD 0 = s₁.disk.stagedBytes := by
        rw [hfound _ rfl]
        rfl
      split at hrest
      · cases hrest.of_ret.1
      · rename_i hfits
        cases hrest.of_ret.1
        rw [hstaged] at hfits
        exact ⟨⟨by simp [hs], by simp [hs], fun _ _ => Nat.le_of_not_lt hfits⟩, by simp,
          fun _ _ => hstaged⟩

variable (ctx) in
/-- A lane that can be opened. -/
theorem Openable.eval {request : QuicTransferOpen} {admission : Admission}
    (h : Openable t request admission s) :
    ∃ resume bytes s₁, Prog.Eval machine t (openLane ctx request admission s.transfer
      (isNullSinkUri s.transfer.destinationUri)).toProg s (.ok (resume, bytes)) s₁ ∧
      s₁.transfer = s.transfer ∧ s₁.stored = s.stored := by
  unfold openLane
  cases hs : admission.striped with
  | true =>
    obtain ⟨l, hl⟩ := Option.isSome_iff_exists.1 (h.lock hs)
    obtain ⟨resume, total, d, hbody⟩ := eval_loadOrInitLaneResumeUnlocked ctx (t := t)
      (s := s.updateLock .checkpoint l) rfl (h.layout hs)
    exact ⟨_, _, _, .tryBind (eval_withLock hl hbody) (.ret _ _), rfl, rfl⟩
  | false =>
    cases hd : isNullSinkUri s.transfer.destinationUri with
    | true => exact ⟨_, _, s, .ret _ _, rfl, rfl⟩
    | false =>
      refine ⟨s.disk.stagedBytes, s.disk.stagedBytes, s, ?_, rfl, rfl⟩
      refine .tryBind (.orFail (.perform (c := .ok) rfl)) ?_
      show Prog.Eval machine t (if s.disk.stagedBytes > s.transfer.fileSizeBytes then
        TryProg.fail _ else pure (s.disk.stagedBytes, s.disk.stagedBytes) :
          Task.Program (Nat × Nat)).toProg s _ s
      rw [if_neg (Nat.not_lt.2 (h.staged hs hd))]
      exact .ret _ _

/-! ## Up to the open ack -/

theorem not_ack_of_other {p : Prog Op Op.Reply α} (h : p.All Op.IsOther)
    (ack : QuicTransferOpenAck) : p.All (· ≠ .sendOpenAck ack) :=
  h.mono fun _ ho heq => by
    subst heq
    exact ho

theorem leased_of_exec {c : Choice} {lane : Nat} {acquired : Bool}
    (h : exec t (.tryAcquireLaneWriter lane) c s = some (acquired, s')) :
    acquired = false ∧ lane ∈ s.activeLaneWriters ∧ s' = s ∨
      acquired = true ∧ lane ∉ s.activeLaneWriters ∧
        s' = { s with activeLaneWriters := lane :: s.activeLaneWriters } := by
  simp only [exec] at h
  split at h
  · rename_i hmem
    cases h
    exact .inl ⟨rfl, hmem, rfl⟩
  · rename_i hfree
    cases h
    exact .inr ⟨rfl, hfree, rfl⟩

/-- The state in which a stream has acquired its lease. -/
def State.lease (s : State) (lane : Nat) : State :=
  { s with activeLaneWriters := lane :: s.activeLaneWriters }

/-- After the open ack no other one is sent. -/
theorem goes_streamBody {stream : LaneStream} {admission : Admission} {discardPayload : Bool}
    {resume : Nat} {ack : QuicTransferOpenAck} {k : Option Unit → Prog Op Op.Reply _}
    (h : Prog.Goes machine t (streamBody ctx stream admission discardPayload resume).toProg s
      (.act (.sendOpenAck ack) k) s') : ack.resumeOffsetBytes = resume := by
  unfold streamBody at h
  obtain ⟨_, s₁, -, h⟩ := h.trySkip
    (not_ack_of_other (other_of_silent (presizeIfStriped_silent _ _ _)) ack)
  rcases Prog.Goes.of_bind (f := TryProg.andThen _) h with ⟨o, k', hfirst, heq⟩ | ⟨r, s₂, -, hthen⟩
  · cases heq
    rcases Prog.Goes.of_bind hfirst with ⟨o', k'', hsend, heq'⟩ | ⟨r, s₂, -, hthen⟩
    · cases heq'
      cases hsend with
      | refl => rfl
      | act _ hrest => cases hrest
    · split at hthen <;> cases hthen
  · cases r with
    | error e => cases hthen
    | ok _ =>
      exfalso
      obtain ⟨_, s₃, -, h⟩ := hthen.trySkip
        (not_ack_of_other (other_of_silent (receivePayload_silent _ _ _ _)) ack)
      obtain ⟨_, s₄, -, h⟩ := h.trySkip
        (not_ack_of_other (other_of_silent (recordDiscarded_silent _ _ _ _)) ack)
      obtain ⟨_, s₅, -, h⟩ := h.trySkip (not_ack_of_other (finalizeStream_other _ _ _) ack)
      have hother : ∀ complete, (fallible "connection lost"
          (perform (.sendCompleteAck complete))).toProg.All Op.IsOther :=
        fun _ => all_fallible (all_perform trivial)
      exact Prog.Goes.kind (hother _) h

/-- **A stream that gets to its open ack has passed all checks**, and has opened its lane. -/
theorem of_accepts {stream : LaneStream} {ack : QuicTransferOpenAck}
    (h : Accepts ctx t s stream ack) :
    ∃ admission bytes s₁, admitRequest stream.request = .ok admission ∧
      matchTransfer stream.request s.transfer = .ok () ∧
      stream.request.laneIndex ∉ s.activeLaneWriters ∧
      Prog.Eval machine t (openLane ctx stream.request admission s.transfer
        (isNullSinkUri s.transfer.destinationUri)).toProg (s.lease stream.request.laneIndex)
          (.ok (ack.resumeOffsetBytes, bytes)) s₁ := by
  obtain ⟨k, s', hgoes⟩ := h
  unfold handleQuicStream at hgoes
  have hchecks : ∀ {β : Type} (r : Except String β),
      (TryProg.ofExcept r : Task.Program β).toProg.All (· ≠ .sendOpenAck ack) := fun _ => trivial
  obtain ⟨admission, s₁, hrequest, hthen₁⟩ := hgoes.trySkip (hchecks _)
  obtain ⟨hadmitted, rfl⟩ := hrequest.of_ret
  obtain ⟨transfer, s₂, hread, hthen₂⟩ := hthen₁.trySkip
    (not_ack_of_other (all_lift (o := .readTransfer) trivial) ack)
  obtain ⟨_, heq, hread⟩ := hread.of_lift
  cases heq
  obtain ⟨c, hread⟩ := hread.of_perform
  cases hread
  obtain ⟨_, s₃, hmatch, hthen₃⟩ := hthen₂.trySkip (hchecks _)
  obtain ⟨hmatched, rfl⟩ := hmatch.of_ret
  unfold withLaneWriterLease at hthen₃
  obtain ⟨acquired, s₄, hlease, hthen₄⟩ := Prog.Goes.skip (not_ack_of_other
    (all_perform (o := .tryAcquireLaneWriter stream.request.laneIndex) trivial) ack) hthen₃
  obtain ⟨c, hlease⟩ := hlease.of_perform
  rcases leased_of_exec (t := t) (c := c) hlease with ⟨rfl, -, -⟩ | ⟨rfl, hfree, rfl⟩
  · cases hthen₄
  refine ⟨admission, ?_⟩
  rcases Prog.Goes.of_bind hthen₄ with ⟨o, k', hbody, heq⟩ | ⟨r, s₅, -, hthen⟩
  · cases heq
    unfold leasedStream at hbody
    obtain ⟨_, s₅, htenant, h⟩ := hbody.trySkip
      (not_ack_of_other (all_fallible (all_perform trivial)) ack)
    rcases htenant.of_orFail with ⟨_, -, hmade⟩ | ⟨he, -⟩
    swap
    · cases he
    obtain ⟨c', hmade⟩ := hmade.of_perform
    obtain rfl := createTenantDir_of_exec (t := t) hmade
    obtain ⟨⟨resume, bytes⟩, s₆, hopen, h⟩ := h.trySkip
      (not_ack_of_other (other_of_silent (openLane_silent _ _ _ _)) ack)
    obtain ⟨_, s₇, -, h⟩ := h.trySkip (not_ack_of_other (markRunning_other _ _) ack)
    obtain ⟨_, s₈, -, h⟩ := h.trySkip (not_ack_of_other persistTransferSummary_other ack)
    unfold failingTransfer at h
    rcases Prog.Goes.of_bind h with ⟨o', k'', hstream, heq'⟩ | ⟨r, s₉, -, hthen⟩
    · cases heq'
      obtain rfl := goes_streamBody hstream
      exact ⟨bytes, s₆, hadmitted.symm, hmatched.symm, hfree, hopen⟩
    · exfalso
      cases r with
      | ok _ => cases hthen
      | error e =>
        obtain ⟨_, s₁₀, -, h⟩ := Prog.Goes.skip
          (not_ack_of_other failRunningTransfer_other ack) hthen
        cases h
  · exfalso
    obtain ⟨_, s₆, -, h⟩ := Prog.Goes.skip (not_ack_of_other
      (all_perform (o := .releaseLaneWriter stream.request.laneIndex) trivial) ack) hthen
    cases h

/-- The checks do not look at the leases. -/
theorem openable_lease {request : QuicTransferOpen} {admission : Admission} {lane : Nat} :
    Openable t request admission (s.lease lane) ↔ Openable t request admission s :=
  ⟨fun h => ⟨h.lock, h.layout, h.staged⟩, fun h => ⟨h.lock, h.layout, h.staged⟩⟩

theorem eval_markRunning {transfer : TransferSummary} (hsame : SameTransfer transfer s.transfer)
    (bytes : Nat) : Prog.Eval machine t (markRunning transfer bytes).toProg s (.ok ())
      { s with transfer := { s.transfer with bytesTransferred := bytes, status := .running } } := by
  have hsize : s.transfer.fileSizeBytes = transfer.fileSizeBytes := by rw [hsame]
  have hchunk : s.transfer.resumeChunkSizeBytes = transfer.resumeChunkSizeBytes := by rw [hsame]
  refine .tryBind (.lift (.perform (c := .ok) (r := true) ?_)) (.ret _ _)
  simp [machine, exec, hsize, hchunk]

variable (ctx) in
theorem eval_persistTransferSummary :
    Prog.Eval machine t (persistTransferSummary ctx).toProg s (.ok ())
      { s with stored := s.transfer } :=
  .tryBind (.lift (.perform (c := .ok) rfl)) (.orFail (.perform (c := .ok) rfl))

variable (ctx) in
theorem eval_presizeIfStriped (request : QuicTransferOpen) (admission : Admission)
    (discardPayload : Bool) :
    ∃ d, Prog.Eval machine t (presizeIfStriped ctx request admission discardPayload).toProg s
      (.ok ()) { s with disk := d } := by
  unfold presizeIfStriped
  split
  · exact ⟨_, .tryBind (.orFail (.perform (c := .ok) rfl)) (.orFail (.perform (c := .ok) rfl))⟩
  · exact ⟨s.disk, .ret _ _⟩

theorem eval_tryAcquireLaneWriter {lane : Nat} (h : lane ∉ s.activeLaneWriters) :
    Prog.Eval machine t (perform (.tryAcquireLaneWriter lane)) s true (s.lease lane) := by
  refine .perform (c := .ok) ?_
  show exec t (.tryAcquireLaneWriter lane) .ok s = _
  simp only [exec, if_neg h]
  rfl

theorem Accepts.acceptable {stream : LaneStream} {ack : QuicTransferOpenAck}
    (h : Accepts ctx t s stream ack) : Acceptable t stream.request s := by
  obtain ⟨admission, bytes, s₁, hrequest, hmatch, hfree, hopen⟩ := of_accepts h
  exact ⟨admission, hrequest, hmatch, hfree, openable_lease.1 (of_openLane hopen).1⟩

theorem Acceptable.accepts {stream : LaneStream} (h : Acceptable t stream.request s) :
    ∃ ack, Accepts ctx t s stream ack := by
  obtain ⟨admission, hrequest, hmatch, hfree, hopenable⟩ := h
  obtain ⟨resume, bytes, s₁, hopen, htransfer, -⟩ :=
    (openable_lease.2 hopenable : Openable t _ _ (s.lease stream.request.laneIndex)).eval ctx
  have hsame : SameTransfer s.transfer s₁.transfer := by
    rw [htransfer]
    rfl
  have hrunning := eval_markRunning (t := t) hsame bytes
  have hstored := eval_persistTransferSummary ctx (t := t) (s :=
    { s₁ with transfer := { s₁.transfer with bytesTransferred := bytes, status := .running } })
  obtain ⟨d, hpresized⟩ := eval_presizeIfStriped ctx (t := t)
    (s := { s₁ with
      transfer := { s₁.transfer with bytesTransferred := bytes, status := .running }
      stored := { s₁.transfer with bytesTransferred := bytes, status := .running } })
    stream.request admission (isNullSinkUri s.transfer.destinationUri)
  obtain ⟨k, hleased⟩ : ∃ k, Prog.Goes machine t (leasedStream ctx stream admission
      s.transfer).toProg (s.lease stream.request.laneIndex) (.act (.sendOpenAck
        ⟨true, resume, "transfer stream accepted", admission.payloadCodec.asWire,
          admission.receiveWritePipelineDepth⟩) k) _ :=
    ⟨_, .tryRight (.orFail (.perform (c := .ok) rfl)) (.tryRight hopen
      (.tryRight hrunning (.tryRight hstored (.left (.tryRight hpresized (.refl _ _))))))⟩
  exact ⟨_, _, _, .tryRight (.ofExcept hrequest s) (.tryRight (.lift (.perform (c := .ok) rfl))
    (.tryRight (.ofExcept hmatch s) (.right (eval_tryAcquireLaneWriter hfree) (.left hleased))))⟩

/-- **Which opens are accepted**: those that pass the checks. -/
theorem accepts_iff {stream : LaneStream} :
    (∃ ack, Accepts ctx t s stream ack) ↔ Acceptable t stream.request s :=
  ⟨fun ⟨_, h⟩ => h.acceptable, Acceptable.accepts⟩

end

end Metra.Server
