import Metra.Server.Protocol

/-!
# The tasks keep to their protocol

Each program of `Stream.lean` performs only what `Protocol.lean` enables,
whatever it is answered: one lemma for each function, and `program_obeys` for the
tasks as wholes.
-/

namespace Metra.Server

open Interleave

/-! ## What the checks establish -/

theorem of_admitRequest {request : QuicTransferOpen} {admission : Admission}
    (h : admitRequest request = .ok admission) :
    admission.totalLanes = requestedLanes request ∧
      admission.rangeStart = request.rangeStart ∧
      admission.rangeEndExclusive = requestedEnd request ∧
      admission.striped = isStriped request ∧
      request.laneIndex < requestedLanes request ∧
      request.rangeStart < requestedEnd request ∧
      requestedEnd request ≤ request.fileSizeBytes := by
  unfold admitRequest at h
  split at h
  · cases h
  split at h
  · cases h
  rename_i hlane
  split at h
  · cases h
  rename_i hrange
  split at h
  · cases h
  cases h
  push Not at hlane hrange
  exact ⟨rfl, rfl, rfl, rfl, hlane, hrange.1, hrange.2⟩

theorem fromWire_of_admitRequest {request : QuicTransferOpen} {admission : Admission}
    (h : admitRequest request = .ok admission) :
    PayloadCodec.fromWire request.payloadCodec = some admission.payloadCodec := by
  unfold admitRequest at h
  split at h
  · cases h
  split at h
  · cases h
  split at h
  · cases h
  split at h
  · cases h
  rename_i hcodec
  cases h
  exact hcodec

theorem of_matchTransfer {request : QuicTransferOpen} {transfer : TransferSummary}
    (h : matchTransfer request transfer = .ok ()) :
    request.transferId = transfer.transferId ∧
      request.fileSizeBytes = transfer.fileSizeBytes := by
  unfold matchTransfer at h
  split at h
  · cases h
  rename_i hid
  split at h
  · cases h
  rename_i hsize
  push Not at hid hsize
  exact ⟨hid, hsize⟩

/-- An unstriped lane ends at the end of the file. -/
theorem requestedEnd_of_not_striped {request : QuicTransferOpen}
    (h : isStriped request = false) : requestedEnd request = request.fileSizeBytes := by
  simp only [isStriped, Bool.or_eq_false_iff, bne_eq_false_iff_eq] at h
  exact h.2

/-! ## Rules -/

section

variable {setup : Setup} {t : Task} {i : Nat} {stream : LaneStream} {pt : Point} {α β : Type}

theorem advance_of_stream {o : Op} {r : o.Reply} (hstream : setup.streams t.stream = some stream) :
    (protocol setup t).advance pt o r = advance setup stream pt o r := by
  simp [protocol, hstream]

/-- One operation. -/
theorem obeys_perform {o : Op} {Q : o.Reply → Point → Prop}
    (hstream : setup.streams t.stream = some stream) (ho : Enabled setup t pt o)
    (hQ : ∀ r, Possible setup stream pt o r → Q r (advance setup stream pt o r)) :
    (perform o).Obeys (protocol setup t) Q pt := by
  refine Prog.Obeys.perform ⟨⟨stream, hstream⟩, ho⟩ fun r hr => ?_
  rw [advance_of_stream hstream]
  exact hQ r (hr stream hstream)

/-- One operation in a program that may fail. -/
theorem obeys_lift {o : Op} {f : o.Reply → Task.Program β} {R : Except String β → Point → Prop}
    (hstream : setup.streams t.stream = some stream) (ho : Enabled setup t pt o)
    (hf : ∀ r, Possible setup stream pt o r →
      (f r).toProg.Obeys (protocol setup t) R (advance setup stream pt o r)) :
    ((liftM (perform o) : Task.Program o.Reply) >>= f).toProg.Obeys (protocol setup t) R pt := by
  refine Prog.Obeys.liftBind ⟨⟨stream, hstream⟩, ho⟩ fun r hr => ?_
  rw [advance_of_stream hstream]
  exact hf r (hr stream hstream)

/-- What is to hold of the result of a program that may fail: something of its value, and
something else of its error. -/
def Fallibly (Q : α → Point → Prop) (E : String → Point → Prop) : Except String α → Point → Prop
  | .ok a, pt => Q a pt
  | .error e, pt => E e pt

/-- An operation that may fail, and what follows it. -/
theorem obeys_fallible {context : String} {p : Prog Op Op.Reply (Option α)}
    {f : α → Task.Program β} {R : Except String β → Point → Prop}
    (hp : p.Obeys (protocol setup t) (fun r pt' =>
      match r with
      | some a => (f a).toProg.Obeys (protocol setup t) R pt'
      | none => R (.error context) pt') pt) :
    (fallible context p >>= f).toProg.Obeys (protocol setup t) R pt := by
  refine Prog.Obeys.tryBind
    (Q := Fallibly (fun a pt' => (f a).toProg.Obeys (protocol setup t) R pt')
      fun e pt' => R (.error e) pt')
    (Prog.Obeys.orFail (hp.mono fun r pt' h => ?_)) (fun _ _ h => h) fun _ _ h => h
  cases r with
  | some a => exact h
  | none => exact h

/-- A critical section of the checkpoint lock. -/
theorem obeys_withLock_checkpoint {ph : Phase} {f : Stage} {body : Task.Program α}
    {R : Except String α → Point → Prop} (hstream : setup.streams t.stream = some stream)
    (hwant : Enabled setup t ⟨ph, f, .out, .nothing⟩ (.lockFor .checkpoint))
    (hbody : body.toProg.Obeys (protocol setup t) (fun r pt => ∃ ph' loaded,
      pt = ⟨ph', f, .inside, loaded⟩ ∧ R r ⟨ph', f, .out, .nothing⟩) ⟨ph, f, .inside, .nothing⟩) :
    (withLock .checkpoint body).toProg.Obeys (protocol setup t) R ⟨ph, f, .out, .nothing⟩ := by
  refine Prog.Obeys.bind (obeys_perform hstream hwant fun _ _ => rfl) ?_
  rintro ⟨⟩ _ rfl
  refine Prog.Obeys.bind (obeys_perform hstream .lockCheckpoint fun _ _ => rfl) ?_
  rintro ⟨⟩ _ rfl
  refine Prog.Obeys.bind hbody ?_
  rintro r _ ⟨ph', loaded, rfl, hR⟩
  exact Prog.Obeys.bind (f := fun _ => Prog.ret r)
    (obeys_perform hstream .unlockCheckpoint fun _ _ => rfl) fun _ _ h => h ▸ hR

/-- The guarded section of `finalize_if_ready`. -/
theorem obeys_withLock_finalize {ph : Phase} {body : Task.Program α}
    {R : Except String α → Point → Prop} (hstream : setup.streams i = some stream)
    (hwant : Enabled setup (.handler i) (.free ph) (.lockFor .finalize))
    (hbody : body.toProg.Obeys (protocol setup (.handler i))
      (fun r pt => ∃ ph', pt = .guarded ph' ∧ setup.MayUnlock ph' ∧ R r (.free ph'.leaveGuarded))
      (.guarded ph)) :
    (withLock .finalize body).toProg.Obeys (protocol setup (.handler i)) R (.free ph) := by
  refine Prog.Obeys.bind (obeys_perform hstream hwant fun _ _ => rfl) ?_
  rintro ⟨⟩ _ rfl
  refine Prog.Obeys.bind (obeys_perform hstream .lockFinalize fun _ _ => rfl) ?_
  rintro ⟨⟩ _ rfl
  refine Prog.Obeys.bind hbody ?_
  rintro r _ ⟨ph', rfl, hph', hR⟩
  exact Prog.Obeys.bind (f := fun _ => Prog.ret r)
    (obeys_perform hstream (.unlockFinalize hph') fun _ _ => rfl) fun _ _ h => h ▸ hR

end

/-! ## Errors -/

/-- Nothing fails on a stream by itself: the open message fits the transfer, and the
payload is all there. -/
structure Setup.Regular (setup : Setup) (stream : LaneStream) : Prop where
  disk : setup.discards = false
  admitted : ∃ admission, admitRequest stream.request = .ok admission ∧
    ∀ resume ≤ admission.rangeEndExclusive,
      (stream.receipt setup.ctx admission resume).decodeError = none ∧
        setup.ReceivedAll stream resume (setup.chunkBytes stream resume)
  matched : ∀ transfer, SameTransfer setup.transfer transfer →
    matchTransfer stream.request transfer = .ok ()
  fits : setup.Fits stream
    (newCheckpoint setup.transfer.transferId setup.size (requestedLanes stream.request))

/-- Where an error may strike that fails the transfer. -/
def FailsAt (setup : Setup) (f : Stage) (pt : Point) : Prop :=
  setup.faults ∧ ∃ ph, pt = ⟨ph, f, .out, .nothing⟩ ∧ ph.MayFail

/-- Where an error may strike that ends the stream at once. -/
def LeavesAt (setup : Setup) (pt : Point) : Prop :=
  setup.faults ∧ ∃ ph, pt = .free ph ∧ ph.MayLeave

section

variable {setup : Setup} {t : Task} {i : Nat} {stream : LaneStream} {pt : Point}

theorem FailsAt.enabled (h : FailsAt setup .out pt) :
    Enabled setup (.handler i) pt .checkRunning := by
  obtain ⟨hfaults, ph, rfl, hph⟩ := h
  exact .checkRunning hfaults hph

theorem LeavesAt.enabled (h : LeavesAt setup pt) (hstream : setup.streams i = some stream) :
    Enabled setup (.handler i) pt (.releaseLaneWriter stream.request.laneIndex) := by
  obtain ⟨hfaults, ph, rfl, hph⟩ := h
  exact .leave hfaults hstream hph

/-! ## The status -/

theorem persistTransferSummary_obeys (hstream : setup.streams t.stream = some stream)
    (hread : Enabled setup t pt .readTransfer)
    (hstay : ∀ r, advance setup stream pt .readTransfer r = pt)
    (hupsert : ∀ summary, SameTransfer setup.transfer summary →
      Enabled setup t pt (.storeUpsert summary)) :
    (persistTransferSummary setup.ctx).toProg.Obeys (protocol setup t)
      (fun r pt' => pt' = pt ∧ (r = .ok () ∨ setup.faults)) pt := by
  unfold persistTransferSummary
  refine obeys_lift hstream hread fun summary hsame => ?_
  rw [hstay summary]
  refine Prog.Obeys.orFail (obeys_perform hstream (hupsert summary hsame) fun r hr => ?_)
  cases r with
  | some _ => exact ⟨rfl, .inl rfl⟩
  | none => exact ⟨rfl, .inr (hr.resolve_left fun h => h rfl)⟩

theorem setTransferStatus_obeys {st : TransferStatus} {b : Nat} {f : Stage}
    (hstream : setup.streams i = some stream)
    (hset : Enabled setup (.handler i) pt (.setStatus st b))
    (hnext : pt.goto (.settling st) = ⟨.settling st, f, .out, .nothing⟩) :
    (setTransferStatus setup.ctx st b).toProg.Obeys (protocol setup (.handler i))
      (fun r pt' => pt' = ⟨.settling st, f, .out, .nothing⟩ ∧ (r = .ok () ∨ setup.faults)) pt := by
  unfold setTransferStatus
  refine obeys_lift hstream hset fun _ _ => ?_
  show Prog.Obeys _ _ _ (pt.goto (.settling st))
  rw [hnext]
  refine Prog.Obeys.tryBind (persistTransferSummary_obeys hstream .snapshotSettling
    (fun _ => rfl) fun _ hsame => .upsertSettling hsame) ?_ ?_
  · rintro ⟨⟩ _ ⟨rfl, -⟩
    refine Prog.Obeys.lift ?_
    unfold clearTransferLocks
    split
    · rename_i hterminal
      refine Prog.Obeys.bind (obeys_perform hstream (.clearLock hterminal) fun _ _ => rfl) ?_
      rintro ⟨⟩ _ rfl
      exact obeys_perform hstream (.clearLock hterminal) fun _ _ => ⟨rfl, .inl rfl⟩
    · exact ⟨rfl, .inl rfl⟩
  · rintro e _ ⟨rfl, h⟩
    exact ⟨rfl, .inr (h.resolve_left (by simp))⟩

theorem failRunningTransfer_obeys (hstream : setup.streams i = some stream)
    (hcheck : Enabled setup (.handler i) pt .checkRunning) :
    (failRunningTransfer setup.ctx).toProg.Obeys (protocol setup (.handler i))
      (fun _ pt' => LeavesAt setup pt') pt := by
  have hfaults : setup.faults := by
    cases hcheck with
    | checkRunning hfaults _ => exact hfaults
    | checkRunningDraining hfaults _ _ _ => exact hfaults
  have hfree : ∀ ph, pt.goto ph = .free ph := by
    intro ph
    cases hcheck <;> rfl
  unfold failRunningTransfer
  refine obeys_lift hstream hcheck fun r _ => ?_
  cases r with
  | none => exact ⟨hfaults, .over, hfree _, trivial⟩
  | some b =>
    show Prog.Obeys _ _ _ (pt.goto .failing)
    rw [hfree]
    refine (setTransferStatus_obeys (f := .out) hstream .fail rfl).mono ?_
    rintro r _ ⟨rfl, -⟩
    exact ⟨hfaults, _, rfl, trivial⟩

theorem finishWith_obeys {st : TransferStatus} {b : Nat} {f : Stage} {message : String}
    (hstream : setup.streams i = some stream)
    (hset : Enabled setup (.handler i) pt (.setStatus st b))
    (hnext : pt.goto (.settling st) = ⟨.settling st, f, .out, .nothing⟩) :
    (finishWith setup.ctx st b message).toProg.Obeys (protocol setup (.handler i))
      (fun r pt' =>
        match r with
        | .ok result => result.status = st ∧ pt' = ⟨.settling st, f, .out, .nothing⟩
        | .error _ => FailsAt setup f pt') pt := by
  unfold finishWith
  refine Prog.Obeys.tryBind (setTransferStatus_obeys hstream hset hnext) ?_ ?_
  · rintro ⟨⟩ _ ⟨rfl, -⟩
    exact ⟨rfl, rfl⟩
  · rintro e _ ⟨rfl, h⟩
    exact ⟨h.resolve_left (by simp), _, rfl, trivial⟩

/-! ## Finalization -/

/-- What a finalization ends with: the status it reports has been set. -/
def Settles (setup : Setup) (f : Stage) (r : Except String FinalizeResult) (pt : Point) : Prop :=
  match r with
  | .ok result => result.status.terminal = true ∧
      pt = ⟨.settling result.status, f, .out, .nothing⟩
  | .error _ => FailsAt setup f pt

theorem finishWith_settles {st : TransferStatus} {b : Nat} {f : Stage} {message : String}
    (hterminal : st.terminal = true) (hstream : setup.streams i = some stream)
    (hset : Enabled setup (.handler i) pt (.setStatus st b))
    (hnext : pt.goto (.settling st) = ⟨.settling st, f, .out, .nothing⟩) :
    (finishWith setup.ctx st b message).toProg.Obeys (protocol setup (.handler i))
      (Settles setup f) pt := by
  refine (finishWith_obeys hstream hset hnext).mono ?_
  rintro (_ | result) pt' h
  · exact h
  · obtain ⟨rfl, rfl⟩ := h
    exact ⟨hterminal, rfl⟩

theorem refusedBy_obeys {g : Nat} {f : Stage} (refused : Bool)
    (hstream : setup.streams i = some stream) :
    (refusedBy refused).toProg.Obeys (protocol setup (.handler i))
      (fun r pt =>
        match r with
        | .ok found => pt = ⟨if found then .refused else .checking g, f, .out, .nothing⟩
        | .error _ => FailsAt setup f pt) ⟨.checking (refused.toNat + g), f, .out, .nothing⟩ := by
  cases refused with
  | false => simp only [refusedBy, Bool.toNat_false, Nat.zero_add]; rfl
  | true =>
    rw [Bool.toNat_true, Nat.add_comm 1 g]
    refine Prog.Obeys.orFail (obeys_perform hstream .finalExists fun r hr => ?_)
    cases r with
    | some present => rfl
    | none => exact ⟨hr.resolve_left fun h => h rfl, _, rfl, trivial⟩

theorem removeExisting_obeys {f : Stage} (hstream : setup.streams i = some stream) :
    (removeExisting setup.ctx).toProg.Obeys (protocol setup (.handler i))
      (fun r pt =>
        match r with
        | .ok _ => pt = ⟨.vacant, f, .out, .nothing⟩
        | .error _ => FailsAt setup f pt) ⟨.checking 0, f, .out, .nothing⟩ := by
  unfold removeExisting
  refine obeys_fallible (obeys_perform hstream .finalExists fun r hr => ?_)
  cases r with
  | none => exact ⟨hr.resolve_left fun h => h rfl, _, rfl, trivial⟩
  | some present =>
    cases present with
    | false => rfl
    | true =>
      refine Prog.Obeys.orFail (obeys_perform hstream .removeFinal fun r hr => ?_)
      cases r with
      | some _ => rfl
      | none => exact ⟨hr.resolve_left fun h => h rfl, _, rfl, trivial⟩

theorem moveIntoPlace_obeys {b : Nat} {f : Stage} (hstream : setup.streams i = some stream) :
    (moveIntoPlace setup.ctx b).toProg.Obeys (protocol setup (.handler i))
      (Settles setup f) ⟨.checking 0, f, .out, .nothing⟩ := by
  unfold moveIntoPlace
  refine Prog.Obeys.tryBind (removeExisting_obeys hstream) ?_ fun _ _ h => h
  rintro ⟨⟩ _ rfl
  refine obeys_fallible (obeys_perform hstream .rename fun r hr => ?_)
  cases r with
  | none => exact ⟨hr.resolve_left fun h => h rfl, _, rfl, trivial⟩
  | some _ => exact finishWith_settles rfl hstream .complete rfl

theorem finalizeTransferOnDisk_obeys {f : Stage} (hdisk : setup.discards = false)
    (hstream : setup.streams i = some stream) :
    (finalizeTransferOnDisk setup.ctx).toProg.Obeys (protocol setup (.handler i))
      (Settles setup f) ⟨.ready, f, .out, .nothing⟩ := by
  unfold finalizeTransferOnDisk
  refine obeys_lift hstream (.readPolicy hdisk) ?_
  rintro ⟨overwrite, immutableDestination, b⟩ ⟨rfl, rfl⟩
  refine Prog.Obeys.tryBind (refusedBy_obeys _ hstream) (fun found pt hpt => ?_) fun _ _ h => h
  cases found with
  | true =>
    subst hpt
    exact finishWith_settles rfl hstream .refuse rfl
  | false =>
    subst hpt
    refine Prog.Obeys.tryBind (refusedBy_obeys (g := 0) _ hstream) (fun found pt hpt => ?_)
      fun _ _ h => h
    cases found with
    | true =>
      subst hpt
      exact finishWith_settles rfl hstream .refuse rfl
    | false =>
      subst hpt
      exact moveIntoPlace_obeys hstream

theorem finalizeComplete_obeys {b : Nat} {f : Stage} (hstream : setup.streams i = some stream) :
    (finalizeComplete setup.ctx setup.discards b).toProg.Obeys (protocol setup (.handler i))
      (Settles setup f) ⟨.ready, f, .out, .nothing⟩ := by
  unfold finalizeComplete
  split
  · rename_i hdiscards
    exact finishWith_settles rfl hstream (.completeDiscarded hdiscards) rfl
  · rename_i hdisk
    exact finalizeTransferOnDisk_obeys (by simpa using hdisk) hstream

theorem loadCheckpoint_obeys (hstream : setup.streams i = some stream) :
    (loadCheckpoint setup.ctx).toProg.Obeys (protocol setup (.handler i))
      (fun r pt =>
        match r with
        | .ok c => pt = .guarded (decided c)
        | .error _ => FailsAt setup .inside pt) (.guarded .deciding) := by
  refine obeys_withLock_checkpoint hstream .wantDeciding ?_
  refine Prog.Obeys.orFail (obeys_perform hstream .loadDeciding fun r hr => ?_)
  cases r with
  | some c => exact ⟨_, _, rfl, rfl⟩
  | none =>
    refine ⟨_, _, rfl, hr.resolve_right ?_, _, rfl, trivial⟩
    rintro ⟨c, h, -⟩
    cases h

/-- What the guarded section ends with. -/
def Guarded (setup : Setup) (r : Except String FinalizeResult) (ph : Phase) : Prop :=
  match r with
  | .ok result => ph = .settling result.status ∨ ph = .reported result.status
  | .error _ => setup.faults ∧ ph.MayFail

theorem Guarded.mayUnlock {r : Except String FinalizeResult} {ph : Phase}
    (h : Guarded setup r ph) : setup.MayUnlock ph := by
  cases r with
  | error e => cases ph <;> trivial
  | ok result =>
    obtain rfl | rfl := h
    · trivial
    · trivial

theorem Guarded.leave {r : Except String FinalizeResult} {ph : Phase}
    (h : Guarded setup r ph) : Guarded setup r ph.leaveGuarded := by
  cases r with
  | error e =>
    refine ⟨h.1, ?_⟩
    cases ph <;> trivial
  | ok result =>
    obtain rfl | rfl := h
    · exact .inl rfl
    · exact .inr rfl

theorem finalizeIfReadyUnlocked_obeys {ph : Phase} (hstream : setup.streams i = some stream)
    (hph : setup.Finalizes stream ph) :
    (finalizeIfReadyUnlocked setup.ctx setup.discards).toProg.Obeys (protocol setup (.handler i))
      (fun r pt => ∃ ph', pt = .guarded ph' ∧ Guarded setup r ph') (.guarded ph) := by
  unfold finalizeIfReadyUnlocked
  refine obeys_lift hstream (.checkFinalized hstream hph) ?_
  rintro ⟨alreadyDone, b⟩ -
  cases alreadyDone with
  | true => exact ⟨_, rfl, .inr rfl⟩
  | false =>
    refine Prog.Obeys.tryBind (loadCheckpoint_obeys hstream) (fun c pt hpt => ?_) ?_
    · subst hpt
      cases hc : c.allLanesComplete with
      | false =>
        have hdecided : decided c = .incomplete := by simp [decided, hc]
        rw [hdecided]
        refine (finishWith_obeys (f := .inside) hstream .setIncomplete rfl).mono ?_
        rintro (_ | result) pt' h
        · obtain ⟨hfaults, ph', rfl, hph'⟩ := h
          exact ⟨_, rfl, hfaults, hph'⟩
        · obtain ⟨hst, rfl⟩ := h
          exact ⟨_, rfl, .inl (by rw [hst])⟩
      | true =>
        have hdecided : decided c = .ready := by simp [decided, hc]
        rw [hdecided]
        refine Prog.Obeys.tryBind (finalizeComplete_obeys hstream) ?_ ?_
        · rintro result _ ⟨hterminal, rfl⟩
          refine obeys_lift hstream (.removeCheckpoint hterminal) fun _ _ => ?_
          exact ⟨_, rfl, .inr rfl⟩
        · rintro e _ ⟨hfaults, ph', rfl, hph'⟩
          exact ⟨_, rfl, hfaults, hph'⟩
    · rintro e _ ⟨hfaults, ph', rfl, hph'⟩
      exact ⟨_, rfl, hfaults, hph'⟩

/-- What the finalization of a stream ends with. -/
def Finalized (setup : Setup) (r : Except String FinalizeResult) (pt : Point) : Prop :=
  ∃ ph, pt = .free ph ∧ Guarded setup r ph

theorem finalizeIfReady_obeys {ph : Phase} (hstream : setup.streams i = some stream)
    (hstriped : isStriped stream.request = true) (hph : setup.Finalizes stream ph) :
    (finalizeIfReady setup.ctx setup.discards).toProg.Obeys (protocol setup (.handler i))
      (Finalized setup) (.free ph) := by
  refine obeys_withLock_finalize hstream (.wantFinalize hstream hstriped hph) ?_
  refine (finalizeIfReadyUnlocked_obeys hstream hph).mono ?_
  rintro r _ ⟨ph', rfl, h⟩
  exact ⟨_, rfl, h.mayUnlock, _, rfl, h.leave⟩

theorem Settles.finalized {r : Except String FinalizeResult} (h : Settles setup .out r pt) :
    Finalized setup r pt := by
  cases r with
  | ok result =>
    obtain ⟨-, rfl⟩ := h
    exact ⟨_, rfl, .inl rfl⟩
  | error e =>
    obtain ⟨hfaults, ph, rfl, hph⟩ := h
    exact ⟨_, rfl, hfaults, hph⟩

/-- Both finalizations of a single lane: the bytes received are those of the file. -/
theorem finalizeSingleLane_obeys {ph : Phase} {k : Nat → Task.Program FinalizeResult}
    (hstream : setup.streams i = some stream) (hstriped : isStriped stream.request = false)
    (hph : setup.Finalizes stream ph)
    (hk : (k setup.size).toProg.Obeys (protocol setup (.handler i)) (Settles setup .out)
      (.free .ready)) :
    (do let fileSize ← perform (.recordReceived setup.size)
        if setup.size ≠ fileSize then incompleteStream setup.ctx setup.size fileSize
        else k fileSize : Task.Program FinalizeResult).toProg.Obeys (protocol setup (.handler i))
      (Finalized setup) (.free ph) := by
  refine obeys_lift hstream (.recordReceived hstream hstriped hph) ?_
  rintro _ rfl
  simp only [ne_eq, not_true_eq_false, ↓reduceIte]
  exact hk.mono fun _ _ h => h.finalized

theorem finalizeStream_obeys {ph : Phase} {admission : Admission} {bytesReceived : Nat}
    (hstream : setup.streams i = some stream)
    (hrequest : admitRequest stream.request = .ok admission)
    (hph : setup.Finalizes stream ph)
    (hbytes : isStriped stream.request = false → bytesReceived = setup.size) :
    (finalizeStream setup.ctx admission setup.discards bytesReceived).toProg.Obeys
      (protocol setup (.handler i)) (Finalized setup) (.free ph) := by
  obtain ⟨-, -, -, hstriped, -⟩ := of_admitRequest hrequest
  unfold finalizeStream
  rw [hstriped]
  cases hs : isStriped stream.request with
  | true => exact finalizeIfReady_obeys hstream hs hph
  | false =>
    rw [hbytes hs]
    cases hdiscards : setup.discards with
    | true =>
      exact finalizeSingleLane_obeys
        (k := fun fileSize => finishWith setup.ctx .completed (min setup.size fileSize)
          "transfer finalized in null sink mode") hstream hs hph
        (finishWith_settles rfl hstream (.completeDiscarded hdiscards) rfl)
    | false =>
      exact finalizeSingleLane_obeys (k := fun _ => finalizeTransferOnDisk setup.ctx) hstream hs
        hph (finalizeTransferOnDisk_obeys hdiscards hstream)

/-! ## The writer -/

/-- Where the writer stands after it has written `w` bytes, of which those before
`d` are recorded. -/
abbrev writingPoint (args : WriterArgs) (w : Nat) (rest : List (List UInt8)) (d : Nat)
    (synced : Bool) : Point := .free (.writing args w rest d synced)

theorem updateCheckpointOffset_obeys {args : WriterArgs} {w d : Nat} {rest : List (List UInt8)}
    (hstream : setup.streams i = some stream) (hargs : setup.IsWriterArgs stream args)
    (hstriped : args.striped = true) (hnew : d < args.resumeOffset + w) :
    (updateCheckpointOffset setup.ctx args.laneIndex (args.resumeOffset + w)).toProg.Obeys
      (protocol setup (.writer i))
      (fun r pt =>
        match r with
        | .ok _ => pt = writingPoint args w rest (args.resumeOffset + w) true
        | .error _ => setup.faults ∧ pt = writingPoint args w rest d true)
      (writingPoint args w rest d true) := by
  refine obeys_withLock_checkpoint hstream (.wantWriting hstriped hnew) ?_
  unfold updateCheckpointOffsetUnlocked
  refine obeys_fallible (obeys_perform hstream .loadWriting fun r hr => ?_)
  cases r with
  | none =>
    refine ⟨_, _, rfl, hr.resolve_right ?_, rfl⟩
    rintro ⟨c, h, -⟩
    cases h
  | some c =>
    show Prog.Obeys _ _ _ (⟨.writing args w rest d true, .out, .inside, .found c⟩ : Point)
    cases hadvance : c.advanceLane args.laneIndex (args.resumeOffset + w) with
    | none =>
      refine ⟨_, _, rfl, hr.resolve_right ?_, rfl⟩
      rintro ⟨c', hc, hfits⟩
      cases hc
      obtain ⟨-, -, lane, hlane, -⟩ := TransferCheckpoint.of_validateLayout hfits
      obtain ⟨admission, -, heq⟩ := hargs
      rw [heq] at hadvance
      simp [TransferCheckpoint.advanceLane, hlane] at hadvance
    | some c' =>
      refine obeys_fallible (obeys_perform hstream (.persistWriting hstriped hadvance)
        fun r hr => ?_)
      cases r with
      | some _ => exact ⟨_, _, rfl, rfl⟩
      | none => exact ⟨_, _, rfl, hr.resolve_left fun h => h rfl, rfl⟩

theorem syncProgress_obeys {args : WriterArgs} {w d : Nat} {rest : List (List UInt8)}
    {synced : Bool} {context : String} (hstream : setup.streams i = some stream)
    (hargs : setup.IsWriterArgs stream args) (hnew : d < args.resumeOffset + w) :
    (syncProgress setup.ctx args context (args.resumeOffset + w)).toProg.Obeys
      (protocol setup (.writer i))
      (fun r pt =>
        match r with
        | .ok _ => pt = writingPoint args w rest (args.resumeOffset + w) true
        | .error _ => setup.faults ∧ ∃ synced', pt = writingPoint args w rest d synced')
      (writingPoint args w rest d synced) := by
  unfold syncProgress
  refine obeys_fallible (obeys_perform hstream .sync fun r hr => ?_)
  cases r with
  | none => exact ⟨hr.resolve_left fun h => h rfl, _, rfl⟩
  | some _ =>
    show Prog.Obeys _ _ _ (writingPoint args w rest d true)
    unfold persistProgress progressBytes
    cases hstriped : args.striped with
    | false =>
      refine obeys_lift hstream (.recordWriting fun h => ?_) fun _ _ => rfl
      rw [hstriped] at h
      cases h
    | true =>
      refine Prog.Obeys.tryBind (updateCheckpointOffset_obeys hstream hargs hstriped hnew) ?_ ?_
      · rintro b _ rfl
        exact Prog.Obeys.lift
          (obeys_perform hstream (.recordWriting fun _ => rfl) fun _ _ => rfl)
      · rintro e _ ⟨hfaults, rfl⟩
        exact ⟨hfaults, _, rfl⟩

/-- What the writer returns with it may report. -/
def Reports (setup : Setup) (i : Nat) (r : Except String Nat) (pt : Point) : Prop :=
  Enabled setup (.writer i) pt (.finishWriter r) ∧ ∃ ph, pt = .free ph

theorem finishWriting_obeys {args : WriterArgs} {w d : Nat} {synced : Bool}
    (hstream : setup.streams i = some stream) (hargs : setup.IsWriterArgs stream args)
    (hd : d ≤ args.resumeOffset + w) :
    (finishWriting setup.ctx args w d).toProg.Obeys (protocol setup (.writer i))
      (Reports setup i) (writingPoint args w [] d synced) := by
  have hflush : ∀ synced', (do
      fallible "failed flushing transfer file" (perform (.flush args.file))
      pure w : Task.Program Nat).toProg.Obeys (protocol setup (.writer i)) (Reports setup i)
        (writingPoint args w [] (args.resumeOffset + w) synced') := by
    intro synced'
    refine obeys_fallible (obeys_perform hstream .flush fun r hr => ?_)
    cases r with
    | some _ => exact ⟨.finishOk, _, rfl⟩
    | none => exact ⟨.finishError (hr.resolve_left fun h => h rfl), _, rfl⟩
  unfold finishWriting
  split
  · rename_i hnew
    refine Prog.Obeys.tryBind (syncProgress_obeys hstream hargs hnew) ?_ ?_
    · rintro ⟨⟩ _ rfl
      exact hflush true
    · rintro e _ ⟨hfaults, synced', rfl⟩
      exact ⟨.finishError hfaults, _, rfl⟩
  · rename_i hle
    obtain rfl : d = args.resumeOffset + w := by omega
    exact hflush synced

/-- By induction on the chunks that are still to be written. -/
theorem writerLoop_obeys {args : WriterArgs} (hstream : setup.streams i = some stream)
    (hargs : setup.IsWriterArgs stream args) :
    ∀ (chunks : List (List UInt8)) (w sinceUpdate d : Nat) (synced : Bool),
      d + sinceUpdate = args.resumeOffset + w →
      (writerLoop setup.ctx args chunks w sinceUpdate d).toProg.Obeys (protocol setup (.writer i))
        (Reports setup i) (writingPoint args w chunks d synced) := by
  intro chunks
  induction chunks with
  | nil =>
    intro w sinceUpdate d synced hd
    exact finishWriting_obeys hstream hargs (by omega)
  | cons chunk chunks ih =>
    intro w sinceUpdate d synced hd
    unfold writerLoop
    refine obeys_fallible (obeys_perform hstream .write fun r hr => ?_)
    cases r with
    | none => exact ⟨.finishError (hr.resolve_left fun h => h rfl), _, rfl⟩
    | some _ =>
      show Prog.Obeys _ _ _ (writingPoint args (w + chunk.length) chunks d false)
      split
      · rename_i hdue
        have hnew : d < args.resumeOffset + (w + chunk.length) := by
          simp only [progressUpdateIntervalBytes, resumeChunkSizeBytes] at hdue
          omega
        refine Prog.Obeys.tryBind (syncProgress_obeys hstream hargs hnew) ?_ ?_
        · rintro ⟨⟩ _ rfl
          exact ih _ _ _ _ rfl
        · rintro e _ ⟨hfaults, synced', rfl⟩
          exact ⟨.finishError hfaults, _, rfl⟩
      · exact ih _ _ _ _ (by omega)

theorem writerTask_obeys (hstream : setup.streams i = some stream) :
    (writerTask setup.ctx).Obeys (protocol setup (.writer i)) (fun _ pt => pt = .free .done)
      (.free .unborn) := by
  refine Prog.Obeys.bind
    (Q := fun args pt => setup.IsWriterArgs stream args ∧
      pt = writingPoint args 0 args.chunks args.resumeOffset false)
    (obeys_perform hstream .awaitWriter fun args hargs => ⟨hargs, rfl⟩) ?_
  rintro args _ ⟨hargs, rfl⟩
  refine Prog.Obeys.bind (writerLoop_obeys hstream hargs _ _ _ _ _ rfl) ?_
  rintro r _ ⟨henabled, ph, rfl⟩
  refine Prog.Obeys.bind (obeys_perform hstream henabled fun _ _ => rfl) ?_
  rintro ⟨⟩ _ rfl
  rfl

/-! ## Receiving -/

theorem Setup.ReceivedAll.add_eq {resume written : Nat}
    (h : setup.ReceivedAll stream resume written) :
    resume + written = requestedEnd stream.request := by
  obtain ⟨admission, hrequest, hresume, hresult⟩ := h
  obtain ⟨-, -, hend, -⟩ := of_admitRequest hrequest
  obtain ⟨-, -, hwritten, -⟩ := Pipeline.of_result hresult
  simp only [pipelineArgs] at hwritten
  omega

theorem presizeIfStriped_obeys {admission : Admission} {resume : Nat}
    (hstream : setup.streams i = some stream)
    (hrequest : admitRequest stream.request = .ok admission)
    (hsize : stream.request.fileSizeBytes = setup.size) :
    (presizeIfStriped setup.ctx stream.request admission setup.discards).toProg.Obeys
      (protocol setup (.handler i))
      (fun r pt =>
        match r with
        | .ok _ => pt = .free (.presized resume) ∨
            pt = .free (.opened resume) ∧ (isStriped stream.request = false ∨ setup.discards = true)
        | .error _ => FailsAt setup .out pt) (.free (.opened resume)) := by
  obtain ⟨-, -, -, hstriped, -⟩ := of_admitRequest hrequest
  unfold presizeIfStriped
  rw [hstriped]
  split
  · rename_i h
    simp only [Bool.and_eq_true, Bool.not_eq_true'] at h
    unfold presizeStaging
    refine obeys_fallible (obeys_perform hstream (.presizeOpen hstream h.1 h.2) fun r hr => ?_)
    cases r with
    | none => exact ⟨hr.resolve_left fun h => h rfl, _, rfl, trivial⟩
    | some file =>
      rw [hsize]
      refine Prog.Obeys.orFail (obeys_perform hstream .presize fun r hr => ?_)
      cases r with
      | none => exact ⟨hr.resolve_left fun h => h rfl, _, rfl, trivial⟩
      | some _ => exact .inl rfl
  · rename_i h
    refine .inr ⟨rfl, ?_⟩
    simpa [Bool.and_eq_true, Decidable.or_iff_not_imp_left] using h

/-- Where the stream may go on to finalize the transfer, having received `written`
bytes, or may fail. -/
def Received (setup : Setup) (stream : LaneStream) (i resume : Nat) (r : Except String Nat)
    (pt : Point) : Prop :=
  match r with
  | .ok written => resume + written = requestedEnd stream.request ∧
      ∃ ph, pt = .free ph ∧ setup.Finalizes stream ph ∧
        (setup.discards = true → ph = .accepted resume)
  | .error _ => Enabled setup (.handler i) pt .checkRunning

theorem receiveToFile_obeys {admission : Admission} {resume : Nat}
    (hregular : ¬ setup.faults → setup.Regular stream)
    (hstream : setup.streams i = some stream)
    (hrequest : admitRequest stream.request = .ok admission)
    (hresume : resume ≤ admission.rangeEndExclusive) (hdisk : setup.discards = false) :
    (receiveToFile setup.ctx stream admission resume).toProg.Obeys (protocol setup (.handler i))
      (Received setup stream i resume) (.free (.accepted resume)) := by
  obtain ⟨-, -, -, hstriped, -⟩ := of_admitRequest hrequest
  -- without faults the payload is all there
  have hwhole : ¬ setup.faults → (stream.receipt setup.ctx admission resume).decodeError = none ∧
      setup.ReceivedAll stream resume (setup.chunkBytes stream resume) := by
    intro h
    obtain ⟨admission', hrequest', hall⟩ := (hregular h).admitted
    rw [hrequest] at hrequest'
    cases hrequest'
    exact hall resume hresume
  unfold receiveToFile
  refine obeys_fallible (obeys_perform hstream (.openStaging hdisk) fun r hr => ?_)
  cases r with
  | none => exact .checkRunning (hr.resolve_left fun h => h rfl) trivial
  | some file =>
    unfold receiveLanePayloadToFilePipelined
    rw [hstriped]
    have hargs : setup.IsWriterArgs stream ⟨file, isStriped stream.request,
        stream.request.laneIndex, resume, (stream.receipt setup.ctx admission resume).chunks⟩ :=
      ⟨admission, hrequest, rfl⟩
    refine obeys_lift hstream (.spawn hstream hargs rfl) fun _ _ => ?_
    show Prog.Obeys _ _ _ (Point.free (.draining resume))
    cases hdecode : (stream.receipt setup.ctx admission resume).decodeError with
    | some err =>
      have hfaults : setup.faults := by
        by_contra h
        rw [(hwhole h).1] at hdecode
        cases hdecode
      exact .checkRunningDraining hfaults hstream hrequest (by rw [hdecode]; simp)
    | none =>
      refine Prog.Obeys.tryBind
        (Q := fun r pt =>
          match r with
          | .ok n => pt = .free (.received resume n) ∧ n = setup.chunkBytes stream resume
          | .error _ => Enabled setup (.handler i) pt .checkRunning)
        (obeys_perform hstream .join fun r hr => ?_) ?_ fun _ _ h => h
      · cases r with
        | ok n => exact ⟨rfl, hr.1 n resume rfl rfl⟩
        | error e =>
          refine .checkRunning (hr.2.resolve_left ?_) trivial
          rintro ⟨n, h⟩
          cases h
      · rintro n _ ⟨rfl, hn⟩
        cases hresult : Pipeline.result (pipelineArgs stream.request admission resume)
            (stream.receipt setup.ctx admission resume).bytesReceived n
            (stream.receipt setup.ctx admission resume).readError with
        | error e =>
          refine Enabled.checkRunning ?_ trivial
          by_contra h
          obtain ⟨admission', hrequest', -, hresult'⟩ := (hwhole h).2
          rw [hrequest] at hrequest'
          cases hrequest'
          rw [← hn, hresult] at hresult'
          cases hresult'
        | ok m =>
          obtain ⟨-, -, -, rfl⟩ := Pipeline.of_result hresult
          have hall : setup.ReceivedAll stream resume m := ⟨admission, hrequest, hresume, hresult⟩
          refine ⟨hall.add_eq, _, rfl, ⟨hdisk, hall⟩, ?_⟩
          rw [hdisk]
          simp

theorem receivePayload_obeys {admission : Admission} {resume : Nat}
    (hregular : ¬ setup.faults → setup.Regular stream)
    (hstream : setup.streams i = some stream)
    (hrequest : admitRequest stream.request = .ok admission)
    (hresume : resume ≤ admission.rangeEndExclusive) :
    (receivePayload setup.ctx stream admission setup.discards resume).toProg.Obeys
      (protocol setup (.handler i)) (Received setup stream i resume)
      (.free (.accepted resume)) := by
  unfold receivePayload
  cases hdiscards : setup.discards with
  | false => exact receiveToFile_obeys hregular hstream hrequest hresume hdiscards
  | true =>
    have hfaults : setup.faults := by
      by_contra h
      rw [(hregular h).disk] at hdiscards
      cases hdiscards
    obtain ⟨-, -, hend, -⟩ := of_admitRequest hrequest
    show Prog.Obeys _ _ (Prog.ret _) _
    cases hreceive : receiveLanePayloadNoDisk setup.ctx.crypto (stream.incoming resume)
        (admission.rangeEndExclusive - resume) stream.request.transferId
        stream.request.laneIndex admission.payloadCodec with
    | error e => exact Enabled.checkRunning hfaults trivial
    | ok out =>
      obtain ⟨n, received, rest⟩ := out
      obtain ⟨rfl, -⟩ := receiveLanePayloadNoDisk_eq_ok.1 hreceive
      refine ⟨by omega, _, rfl, ⟨hdiscards, ?_⟩, fun _ => rfl⟩
      rw [← hend]
      exact hresume

theorem recordDiscarded_obeys {admission : Admission} {resume offset : Nat} {ph : Phase}
    (hregular : ¬ setup.faults → setup.Regular stream) (hstream : setup.streams i = some stream)
    (hrequest : admitRequest stream.request = .ok admission)
    (hph : setup.discards = true → ph = .accepted resume) :
    (recordDiscarded setup.ctx stream.request admission setup.discards offset).toProg.Obeys
      (protocol setup (.handler i))
      (fun r pt =>
        match r with
        | .ok _ => pt = .free ph
        | .error _ => FailsAt setup .out pt) (.free ph) := by
  obtain ⟨-, -, -, hstriped, -⟩ := of_admitRequest hrequest
  unfold recordDiscarded
  rw [hstriped]
  split
  · rename_i h
    rw [Bool.and_eq_true] at h
    obtain rfl := hph h.2
    have hfaults : setup.faults := by
      by_contra hno
      have := (hregular hno).disk
      rw [h.2] at this
      cases this
    show Prog.Obeys _ _ (TryProg.toProg (updateCheckpointOffset setup.ctx
      stream.request.laneIndex offset >>= fun bytes =>
        liftM (perform (.recordProgress bytes)))) _
    refine Prog.Obeys.tryBind
      (Q := fun r pt =>
        match r with
        | .ok _ => pt = .free (.accepted resume)
        | .error _ => FailsAt setup .out pt)
      (obeys_withLock_checkpoint hstream (.wantDiscarded hstream h.1 h.2) ?_) ?_
      fun _ _ h => h
    · unfold updateCheckpointOffsetUnlocked
      refine obeys_fallible (obeys_perform hstream .loadDiscarded fun r _ => ?_)
      cases r with
      | none => exact ⟨_, _, rfl, hfaults, _, rfl, trivial⟩
      | some c =>
        show Prog.Obeys _ _ _ (⟨.accepted resume, .out, .inside, .found c⟩ : Point)
        cases hadvance : c.advanceLane stream.request.laneIndex offset with
        | none => exact ⟨_, _, rfl, hfaults, _, rfl, trivial⟩
        | some c' =>
          refine obeys_fallible
            (obeys_perform hstream (.persistDiscarded hstream h.2 hadvance) fun r _ => ?_)
          cases r with
          | some _ => exact ⟨_, _, rfl, rfl⟩
          | none => exact ⟨_, _, rfl, hfaults, _, rfl, trivial⟩
    · rintro b _ rfl
      exact Prog.Obeys.lift (obeys_perform hstream .recordDiscarded fun _ _ => rfl)
  · exact rfl

/-! ## The handler -/

theorem streamBody_obeys {admission : Admission} {resume : Nat}
    (hregular : ¬ setup.faults → setup.Regular stream) (hstream : setup.streams i = some stream)
    (hrequest : admitRequest stream.request = .ok admission)
    (hsize : stream.request.fileSizeBytes = setup.size)
    (hresume : resume ≤ admission.rangeEndExclusive) :
    (streamBody setup.ctx stream admission setup.discards resume).toProg.Obeys
      (protocol setup (.handler i))
      (fun r pt =>
        match r with
        | .ok _ => pt = .free .over
        | .error _ => Enabled setup (.handler i) pt .checkRunning) (.free (.opened resume)) := by
  unfold streamBody
  refine Prog.Obeys.tryBind (presizeIfStriped_obeys hstream hrequest hsize) ?_
    fun _ _ h => h.enabled
  intro _ pt hpt
  refine Prog.Obeys.tryBind
    (Q := fun r pt =>
      match r with
      | .ok _ => pt = .free (.accepted resume)
      | .error _ => FailsAt setup .out pt) ?_ ?_ fun _ _ h => h.enabled
  · rcases hpt with rfl | ⟨rfl, hplain⟩
    · refine Prog.Obeys.orFail (obeys_perform hstream .acceptPresized fun r hr => ?_)
      cases r with
      | some _ => rfl
      | none => exact ⟨hr.resolve_left fun h => h rfl, _, rfl, trivial⟩
    · refine Prog.Obeys.orFail (obeys_perform hstream (.accept hstream hplain) fun r hr => ?_)
      cases r with
      | some _ => rfl
      | none => exact ⟨hr.resolve_left fun h => h rfl, _, rfl, trivial⟩
  rintro ⟨⟩ _ rfl
  refine Prog.Obeys.tryBind (receivePayload_obeys hregular hstream hrequest hresume) ?_
    fun _ _ h => h
  rintro written _ ⟨hall, ph, rfl, hph, hdiscard⟩
  refine Prog.Obeys.tryBind (recordDiscarded_obeys hregular hstream hrequest hdiscard) ?_
    fun _ _ h => h.enabled
  rintro ⟨⟩ _ rfl
  have hbytes : isStriped stream.request = false → resume + written = setup.size := by
    intro hs
    rw [hall, requestedEnd_of_not_striped hs, hsize]
  refine Prog.Obeys.tryBind (finalizeStream_obeys hstream hrequest hph hbytes) ?_ ?_
  · rintro result _ ⟨ph', rfl, rfl | rfl⟩
    · refine Prog.Obeys.orFail (obeys_perform hstream (.sendSettled rfl) fun r hr => ?_)
      cases r with
      | some _ => rfl
      | none => exact .checkRunning (hr.resolve_left fun h => h rfl) trivial
    · refine Prog.Obeys.orFail (obeys_perform hstream (.sendReported rfl) fun r hr => ?_)
      cases r with
      | some _ => rfl
      | none => exact .checkRunning (hr.resolve_left fun h => h rfl) trivial
  · rintro e _ ⟨ph', rfl, hfaults, hph'⟩
    exact .checkRunning hfaults hph'

theorem failingTransfer_obeys {body : Task.Program Unit} (hstream : setup.streams i = some stream)
    (hbody : body.toProg.Obeys (protocol setup (.handler i))
      (fun r pt =>
        match r with
        | .ok _ => pt = .free .over
        | .error _ => Enabled setup (.handler i) pt .checkRunning) pt) :
    (failingTransfer setup.ctx body).toProg.Obeys (protocol setup (.handler i))
      (fun _ pt => Enabled setup (.handler i) pt
        (.releaseLaneWriter stream.request.laneIndex) ∧ ∃ ph, pt = .free ph) pt := by
  refine Prog.Obeys.bind hbody ?_
  rintro (e | ⟨⟨⟩⟩) pt' h
  · refine Prog.Obeys.bind (failRunningTransfer_obeys hstream h) fun _ pt'' hleave => ?_
    obtain ⟨-, ph, rfl, -⟩ := id hleave
    exact ⟨hleave.enabled hstream, _, rfl⟩
  · obtain rfl : pt' = .free .over := h
    exact ⟨.release hstream, _, rfl⟩

/-- Where the stream may be marked as running, to resume at an offset. -/
def Opening (setup : Setup) (stream : LaneStream) (resume : Nat) (pt : Point) : Prop :=
  pt = .free (.resumed resume) ∨ ∃ b, pt = .free (.leased b) ∧
    isStriped stream.request = false ∧ setup.discards = true ∧ resume = min b setup.size

theorem loadOrInitLaneResume_obeys {b : Nat} {admission : Admission}
    (hregular : ¬ setup.faults → setup.Regular stream) (hstream : setup.streams i = some stream)
    (hrequest : admitRequest stream.request = .ok admission)
    (hstriped : isStriped stream.request = true) :
    (loadOrInitLaneResume setup.ctx setup.transfer.transferId setup.size admission.totalLanes
        stream.request.laneIndex admission.rangeStart admission.rangeEndExclusive).toProg.Obeys
      (protocol setup (.handler i))
      (fun r pt =>
        match r with
        | .ok out => pt = .free (.resumed out.1) ∧ out.1 ≤ admission.rangeEndExclusive
        | .error _ => LeavesAt setup pt) (.free (.leased b)) := by
  obtain ⟨htotal, hstart, hend, -, -, hlt, -⟩ := of_admitRequest hrequest
  rw [htotal, hstart, hend]
  refine obeys_withLock_checkpoint hstream (.wantResume hstream hstriped) ?_
  unfold loadOrInitLaneResumeUnlocked
  refine Prog.Obeys.tryBind
    (Q := fun r pt =>
      match r with
      | .ok c => pt = ⟨.leased b, .out, .inside, .found c⟩ ∧ (setup.faults ∨ setup.Fits stream c)
      | .error _ => setup.faults ∧ ∃ loaded, pt = ⟨.leased b, .out, .inside, loaded⟩) ?_ ?_ ?_
  · unfold loadOrInitCheckpoint
    refine obeys_fallible (obeys_perform hstream .checkpointExists fun r hr => ?_)
    cases r with
    | none => exact ⟨hr.resolve_left fun h => h rfl, _, rfl⟩
    | some present =>
      cases present with
      | true =>
        refine Prog.Obeys.orFail (obeys_perform hstream .loadExisting fun r hr => ?_)
        cases r with
        | some c =>
          refine ⟨rfl, hr.imp_right ?_⟩
          rintro ⟨c', h, hfits⟩
          cases h
          exact hfits
        | none =>
          refine ⟨hr.resolve_right ?_, _, rfl⟩
          rintro ⟨c, h, -⟩
          cases h
      | false =>
        refine obeys_fallible (obeys_perform hstream (.persistFresh hstream hstriped)
          fun r hr => ?_)
        cases r with
        | some _ => exact ⟨rfl, Classical.or_iff_not_imp_left.2 fun h => (hregular h).fits⟩
        | none => exact ⟨hr.resolve_left fun h => h rfl, _, rfl⟩
  · rintro c _ ⟨rfl, hfits⟩
    refine Prog.Obeys.tryBind
      (Q := fun r pt => pt = ⟨.leased b, .out, .inside, .found c⟩ ∧
        match r with
        | .ok _ => setup.Fits stream c
        | .error _ => setup.faults) ?_ ?_ ?_
    · refine ⟨rfl, ?_⟩
      cases hlayout : c.validateLayout setup.size (requestedLanes stream.request)
          stream.request.rangeStart (requestedEnd stream.request) stream.request.laneIndex with
      | ok _ => exact hlayout
      | error e =>
        refine hfits.resolve_right fun h => ?_
        rw [Setup.Fits, hlayout] at h
        cases h
    · rintro ⟨⟩ _ ⟨rfl, hlayout⟩
      obtain ⟨-, -, lane, hlane, hlaneStart, hlaneEnd⟩ :=
        TransferCheckpoint.of_validateLayout hlayout
      cases hround : c.roundLane stream.request.laneIndex with
      | none => simp [TransferCheckpoint.roundLane, hlane] at hround
      | some out =>
        obtain ⟨r, c'⟩ := out
        obtain ⟨lane', hlane', hoffset⟩ := TransferCheckpoint.lane?_of_roundLane hround
        have hr : r ≤ requestedEnd stream.request := by
          simp only [TransferCheckpoint.roundLane, hlane, Option.map_some, Option.some.injEq,
            Prod.mk.injEq] at hround
          rw [← hround.1, hlaneStart, hlaneEnd]
          exact (durableResumeOffset_mem (Nat.le_of_lt hlt)).2
        refine obeys_fallible
          (obeys_perform hstream (.persistRounded hstream hstriped hlayout hround)
            fun stored hstored => ?_)
        cases stored with
        | none =>
          exact ⟨_, _, rfl, hstored.resolve_left fun h => h rfl, _, rfl, trivial⟩
        | some _ =>
          refine ⟨.resumed r, .found c', ?_, rfl, hr⟩
          simp [advance, Point.storedCheckpoint, hlane', hoffset]
    · rintro e _ ⟨rfl, hfaults⟩
      exact ⟨_, _, rfl, hfaults, _, rfl, trivial⟩
  · rintro e _ ⟨hfaults, loaded, rfl⟩
    exact ⟨_, _, rfl, hfaults, _, rfl, trivial⟩

theorem stagingResume_obeys {b : Nat} (hstream : setup.streams i = some stream)
    (hstriped : isStriped stream.request = false) (hdisk : setup.discards = false) :
    (stagingResume setup.size).toProg.Obeys (protocol setup (.handler i))
      (fun r pt =>
        match r with
        | .ok out => pt = .free (.resumed out.1) ∧ out.1 ≤ setup.size
        | .error _ => LeavesAt setup pt) (.free (.leased b)) := by
  unfold stagingResume
  refine obeys_fallible (obeys_perform hstream (.stagingLen hstream hstriped hdisk) fun r hr => ?_)
  cases r with
  | none =>
    refine ⟨hr.resolve_left ?_, _, rfl, trivial⟩
    rintro ⟨n, h, -⟩
    cases h
  | some len =>
    by_cases hlen : len.getD 0 ≤ setup.size
    · simp only [advance, hlen, ↓reduceIte, Nat.not_lt.2 hlen]
      exact ⟨rfl, hlen⟩
    · simp only [advance, hlen, ↓reduceIte, Nat.lt_of_not_le hlen]
      refine ⟨hr.resolve_left ?_, _, rfl, trivial⟩
      rintro ⟨n, h, hn⟩
      cases h
      exact hlen hn

theorem openLane_obeys {admission : Admission} {transfer : TransferSummary}
    (hregular : ¬ setup.faults → setup.Regular stream) (hstream : setup.streams i = some stream)
    (hrequest : admitRequest stream.request = .ok admission)
    (hsame : SameTransfer setup.transfer transfer)
    (hsize : stream.request.fileSizeBytes = setup.size) :
    (openLane setup.ctx stream.request admission transfer setup.discards).toProg.Obeys
      (protocol setup (.handler i))
      (fun r pt =>
        match r with
        | .ok out => Opening setup stream out.1 pt ∧ out.1 ≤ admission.rangeEndExclusive
        | .error _ => LeavesAt setup pt) (.free (.leased transfer.bytesTransferred)) := by
  obtain ⟨-, -, hend, hstriped, -⟩ := of_admitRequest hrequest
  have hid : transfer.transferId = setup.transfer.transferId := by rw [hsame]
  have hlen : transfer.fileSizeBytes = setup.size := by rw [hsame]; rfl
  unfold openLane
  rw [hstriped, hid, hlen]
  cases hs : isStriped stream.request with
  | true =>
    refine Prog.Obeys.tryBind (loadOrInitLaneResume_obeys hregular hstream hrequest hs) ?_
      fun _ _ h => h
    rintro ⟨r, total⟩ _ ⟨rfl, hr⟩
    exact ⟨.inl rfl, hr⟩
  | false =>
    have hwhole : admission.rangeEndExclusive = setup.size := by
      rw [hend, requestedEnd_of_not_striped hs, hsize]
    cases hdiscards : setup.discards with
    | true => exact ⟨.inr ⟨_, rfl, hs, hdiscards, rfl⟩, by simp [hwhole]⟩
    | false =>
      refine (stagingResume_obeys hstream hs hdiscards).mono ?_
      rintro (_ | out) pt h
      · exact h
      · exact ⟨.inl h.1, by rw [hwhole]; exact h.2⟩

theorem markRunning_obeys {transfer : TransferSummary} {resume b : Nat}
    (hstream : setup.streams i = some stream) (hsame : SameTransfer setup.transfer transfer)
    (hopening : Opening setup stream resume pt) :
    (markRunning transfer b).toProg.Obeys (protocol setup (.handler i))
      (fun r pt => r = .ok () ∧ pt = .free (.opened resume)) pt := by
  have hmeta : transfer.fileSizeBytes = setup.transfer.fileSizeBytes ∧
      transfer.resumeChunkSizeBytes = setup.transfer.resumeChunkSizeBytes := by
    rw [hsame]
    exact ⟨rfl, rfl⟩
  have henabled : Enabled setup (.handler i) pt
      (.markRunning transfer.fileSizeBytes transfer.resumeChunkSizeBytes b) := by
    rcases hopening with rfl | ⟨b', rfl, hs, hdiscards, -⟩
    · exact .markRunning
    · exact .markRunningDiscard hstream hs hdiscards
  unfold markRunning
  refine obeys_lift hstream henabled fun unchanged hunchanged => ?_
  have htrue : unchanged = true := by
    rcases hunchanged with h | h | h
    · exact h
    · exact absurd hmeta.1 h
    · exact absurd hmeta.2 h
  subst htrue
  refine ⟨rfl, ?_⟩
  rcases hopening with rfl | ⟨b', rfl, -, -, rfl⟩ <;> rfl

theorem leasedStream_obeys {admission : Admission} {transfer : TransferSummary}
    (hregular : ¬ setup.faults → setup.Regular stream) (hstream : setup.streams i = some stream)
    (hrequest : admitRequest stream.request = .ok admission)
    (hsame : SameTransfer setup.transfer transfer)
    (hsize : stream.request.fileSizeBytes = setup.size) :
    (leasedStream setup.ctx stream admission transfer).toProg.Obeys (protocol setup (.handler i))
      (fun _ pt => Enabled setup (.handler i) pt
        (.releaseLaneWriter stream.request.laneIndex) ∧ ∃ ph, pt = .free ph)
      (.free (.leased transfer.bytesTransferred)) := by
  have hleave : ∀ {pt}, LeavesAt setup pt → Enabled setup (.handler i) pt
      (.releaseLaneWriter stream.request.laneIndex) ∧ ∃ ph, pt = .free ph := by
    intro pt h
    obtain ⟨-, ph, rfl, -⟩ := id h
    exact ⟨h.enabled hstream, _, rfl⟩
  have hdiscards : isNullSinkUri transfer.destinationUri = setup.discards := by
    rw [hsame]
    rfl
  unfold leasedStream
  rw [hdiscards]
  refine obeys_fallible (obeys_perform hstream .createTenantDir fun r hr => ?_)
  cases r with
  | none => exact hleave ⟨hr.resolve_left fun h => h rfl, _, rfl, trivial⟩
  | some _ =>
    refine Prog.Obeys.tryBind (openLane_obeys hregular hstream hrequest hsame hsize) ?_
      fun _ _ h => hleave h
    rintro ⟨resume, b⟩ pt ⟨hopening, hresume⟩
    refine Prog.Obeys.tryBind (markRunning_obeys hstream hsame hopening) ?_
      fun _ _ h => by cases h.1
    rintro ⟨⟩ _ ⟨-, rfl⟩
    refine Prog.Obeys.tryBind (persistTransferSummary_obeys hstream .snapshotOpened
      (fun _ => rfl) fun _ h => .upsertOpened h) ?_ ?_
    · rintro ⟨⟩ _ ⟨rfl, -⟩
      exact failingTransfer_obeys hstream (streamBody_obeys hregular hstream hrequest hsize hresume)
    · rintro e _ ⟨rfl, h⟩
      exact hleave ⟨h.resolve_left (by simp), _, rfl, trivial⟩

/-- Where the handler of a stream may have returned. -/
def Returned (setup : Setup) (pt : Point) : Prop :=
  pt = .free .released ∨
    setup.faults ∧ (pt = .free .idle ∨ ∃ b, pt = .free (.admitted b))

theorem handleQuicStream_obeys (hregular : ¬ setup.faults → setup.Regular stream)
    (hstream : setup.streams i = some stream) :
    (handleQuicStream setup.ctx stream).toProg.Obeys (protocol setup (.handler i))
      (fun _ pt => Returned setup pt) (.free .idle) := by
  unfold handleQuicStream
  refine Prog.Obeys.tryBind
    (Q := Fallibly
      (fun admission pt => pt = .free .idle ∧ admitRequest stream.request = .ok admission)
      fun _ pt => pt = .free .idle ∧ setup.faults) ?_ ?_ ?_
  · cases hrequest : admitRequest stream.request with
    | ok admission => exact ⟨rfl, rfl⟩
    | error e =>
      refine ⟨rfl, ?_⟩
      by_contra h
      obtain ⟨admission, hrequest', -⟩ := (hregular h).admitted
      rw [hrequest] at hrequest'
      cases hrequest'
  · rintro admission _ ⟨rfl, hrequest⟩
    refine obeys_lift hstream .readTransfer fun transfer hsame => ?_
    show Prog.Obeys _ _ _ (Point.free (.admitted transfer.bytesTransferred))
    refine Prog.Obeys.tryBind
      (Q := Fallibly
        (fun _ pt => pt = .free (.admitted transfer.bytesTransferred) ∧
          matchTransfer stream.request transfer = .ok ())
        fun _ pt => pt = .free (.admitted transfer.bytesTransferred) ∧ setup.faults) ?_ ?_ ?_
    · cases hmatch : matchTransfer stream.request transfer with
      | ok _ => exact ⟨rfl, rfl⟩
      | error e =>
        refine ⟨rfl, ?_⟩
        by_contra h
        rw [(hregular h).matched transfer hsame] at hmatch
        cases hmatch
    · rintro ⟨⟩ _ ⟨rfl, hmatch⟩
      have hsize : stream.request.fileSizeBytes = setup.size := by
        rw [(of_matchTransfer hmatch).2, hsame]
        rfl
      refine Prog.Obeys.bind
        (Q := fun acquired pt =>
          if acquired then pt = .free (.leased transfer.bytesTransferred)
          else setup.faults ∧ pt = .free (.admitted transfer.bytesTransferred))
        (obeys_perform hstream (.acquire hstream hrequest hsize) fun acquired hacquired => ?_)
        fun acquired pt hpt => ?_
      · cases acquired with
        | true => rfl
        | false => exact ⟨hacquired.resolve_left (by simp), rfl⟩
      · cases acquired with
        | false =>
          obtain ⟨hfaults, rfl⟩ := hpt
          exact .inr ⟨hfaults, .inr ⟨_, rfl⟩⟩
        | true =>
          obtain rfl := hpt
          refine Prog.Obeys.bind (leasedStream_obeys hregular hstream hrequest hsame hsize) ?_
          rintro r _ ⟨hrelease, ph, rfl⟩
          exact Prog.Obeys.bind (f := fun _ => Prog.ret r)
            (obeys_perform hstream hrelease fun _ _ => rfl) fun _ _ h => h ▸ .inl rfl
    · rintro e _ ⟨rfl, hfaults⟩
      exact .inr ⟨hfaults, .inr ⟨_, rfl⟩⟩
  · rintro e _ ⟨rfl, hfaults⟩
    exact .inr ⟨hfaults, .inl rfl⟩

end

/-- Where a task of a pool of streams may have returned. -/
def TaskReturned (setup : Setup) (t : Task) (pt : Point) : Prop :=
  setup.streams t.stream = none ∨
    match t with
    | .handler _ => Returned setup pt
    | .writer _ => pt = .free .done

/-- **The tasks of a pool of streams keep to their protocol.** -/
theorem program_obeys (setup : Setup)
    (hregular : ¬ setup.faults → ∀ i stream, setup.streams i = some stream → setup.Regular stream)
    (t : Task) :
    (program setup.ctx setup.streams t).Obeys (protocol setup t)
      (fun _ pt => TaskReturned setup t pt) (startPoint t) := by
  cases t with
  | handler i =>
    cases hstream : setup.streams i with
    | none =>
      simp only [program, hstream]
      exact .inl hstream
    | some stream =>
      simp only [program, hstream]
      exact (handleQuicStream_obeys (fun h => hregular h i stream hstream) hstream).mono
        fun _ _ h => .inr h
  | writer i =>
    cases hstream : setup.streams i with
    | none =>
      simp only [program, hstream]
      exact .inl hstream
    | some stream =>
      simp only [program, hstream]
      exact (writerTask_obeys hstream).mono fun _ _ h => .inr h

end Metra.Server
