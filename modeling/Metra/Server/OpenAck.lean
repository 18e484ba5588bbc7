import Metra.Server.Aside
import Metra.Server.Conforms

/-!
# What a stream is accepted with

The resume offset of an open ack comes from the checkpoint, from the length of
the staging file or from the byte count of the transfer, and whatever these are it
lies in the range of the lane.

* `openLane_within` — the resume offset, from whichever source;
* `handleQuicStream_acks` — **every open ack that is sent is usable**, whatever the
  operations before it are answered;
* `resume_add_received` — what is received ends at the end of the range.
-/

namespace Metra.Server

open Interleave

/-- An ack that goes with its open message. -/
structure UsableAck (request : QuicTransferOpen) (ack : QuicTransferOpenAck) : Prop where
  ok : ack.ok = true
  payloadCodec : ∃ codec, PayloadCodec.fromWire request.payloadCodec = some codec ∧
    ack.payloadCodec = codec.asWire
  rangeStart_le : request.rangeStart ≤ ack.resumeOffsetBytes
  le_rangeEnd : ack.resumeOffsetBytes ≤ requestedEnd request
  rangeEnd_le : requestedEnd request ≤ request.fileSizeBytes

/-- The open acks are usable. -/
def Op.Acks (request : QuicTransferOpen) : Op → Prop
  | .sendOpenAck ack => UsableAck request ack
  | _ => True

/-- The operations other than sending an open ack. -/
def Op.IsOther : Op → Prop
  | .sendOpenAck _ => False
  | _ => True

theorem Op.IsSilent.other {o : Op} (h : o.IsSilent) : o.IsOther := by
  cases o <;> trivial

theorem Op.IsOther.acks {request : QuicTransferOpen} {o : Op} (h : o.IsOther) :
    o.Acks request := by
  cases o <;> trivial

section

variable {α : Type} {ctx : Context} {request : QuicTransferOpen}

theorem other_of_silent {p : Prog Op Op.Reply α} (h : Silent p) : p.All Op.IsOther :=
  h.mono fun _ ho => ho.other

theorem acks_of_other {p : Prog Op Op.Reply α} (h : p.All Op.IsOther) :
    p.All (Op.Acks request) :=
  h.mono fun _ ho => ho.acks

/-! ## The functions that write the status -/

theorem persistTransferSummary_other :
    (persistTransferSummary ctx).toProg.All Op.IsOther := by
  unfold persistTransferSummary
  refine .tryBind (all_lift trivial) fun snapshot => ?_
  exact all_fallible (all_perform trivial)

theorem setTransferStatus_other (status : TransferStatus) (bytes : Nat) :
    (setTransferStatus ctx status bytes).toProg.All Op.IsOther := by
  unfold setTransferStatus
  refine .tryBind (all_lift trivial) fun _ => ?_
  refine .tryBind persistTransferSummary_other fun _ => ?_
  exact .lift (other_of_silent (clearTransferLocks_silent status))

theorem finishWith_other (status : TransferStatus) (bytes : Nat) (message : String) :
    (finishWith ctx status bytes message).toProg.All Op.IsOther := by
  unfold finishWith
  exact .tryBind (setTransferStatus_other status bytes) fun _ => trivial

theorem failRunningTransfer_other : (failRunningTransfer ctx).toProg.All Op.IsOther := by
  unfold failRunningTransfer
  refine .tryBind (all_lift trivial) fun running => ?_
  cases running with
  | none => trivial
  | some bytes => exact setTransferStatus_other .failed bytes

theorem finalizeTransferOnDisk_other :
    (finalizeTransferOnDisk ctx).toProg.All Op.IsOther := by
  unfold finalizeTransferOnDisk
  refine .tryBind (all_lift trivial) fun policy => ?_
  refine .tryBind (other_of_silent (refusedBy_silent _)) fun immutableFound => ?_
  split
  · exact finishWith_other _ _ _
  refine .tryBind (other_of_silent (refusedBy_silent _)) fun found => ?_
  split
  · exact finishWith_other _ _ _
  unfold moveIntoPlace
  refine .tryBind (other_of_silent removeExisting_silent) fun _ => ?_
  refine .tryBind (all_fallible (all_perform trivial)) fun _ => ?_
  exact finishWith_other _ _ _

theorem finalizeIfReady_other (discardPayload : Bool) :
    (finalizeIfReady ctx discardPayload).toProg.All Op.IsOther := by
  unfold finalizeIfReady withLock
  refine .bind (all_perform trivial) fun _ => .bind (all_perform trivial) fun _ => ?_
  refine .bind ?_ fun _ => .bind (all_perform trivial) fun _ => trivial
  unfold finalizeIfReadyUnlocked
  refine .tryBind (all_lift trivial) fun (alreadyDone, bytes) => ?_
  show (if alreadyDone then _ else _ : Task.Program FinalizeResult).toProg.All _
  split
  · trivial
  refine .tryBind (other_of_silent (silent_withLock load_silent)) fun checkpoint => ?_
  split
  · exact finishWith_other _ _ _
  refine .tryBind ?_ fun finalized => .tryBind (all_lift trivial) fun _ => trivial
  unfold finalizeComplete
  split
  · exact finishWith_other _ _ _
  · exact finalizeTransferOnDisk_other

theorem finalizeStream_other (admission : Admission) (discardPayload : Bool) (bytes : Nat) :
    (finalizeStream ctx admission discardPayload bytes).toProg.All Op.IsOther := by
  unfold finalizeStream
  split
  · exact finalizeIfReady_other discardPayload
  split
  · unfold finalizeSingleLaneTransferMemory
    refine .tryBind (all_lift trivial) fun fileSize => ?_
    split
    · exact finishWith_other _ _ _
    · exact finishWith_other _ _ _
  · unfold finalizeSingleLaneTransfer
    refine .tryBind (all_lift trivial) fun fileSize => ?_
    split
    · exact finishWith_other _ _ _
    · exact finalizeTransferOnDisk_other

/-! ## The resume offset -/

theorem mayReturn_withLock {kind : LockKind} {body : Task.Program α} {r : Except String α}
    (h : (withLock kind body).toProg.MayReturn r) : body.toProg.MayReturn r := by
  obtain ⟨_, -, h⟩ := Prog.MayReturn.of_bind h
  obtain ⟨_, -, h⟩ := Prog.MayReturn.of_bind h
  obtain ⟨result, hresult, h⟩ := Prog.MayReturn.of_bind h
  obtain ⟨_, -, h⟩ := Prog.MayReturn.of_bind h
  cases h.of_ret
  exact hresult

/-- The range of an accepted request lies in the file. -/
theorem rangeEnd_le_of_admitRequest {admission : Admission}
    (h : admitRequest request = .ok admission) : requestedEnd request ≤ request.fileSizeBytes := by
  obtain ⟨-, -, -, -, -, -, hle⟩ := of_admitRequest h
  exact hle

/-- **From the checkpoint**: the lane has the range that was asked for, and its offset is
clamped to that. -/
theorem loadOrInitLaneResume_within {transferId : Uuid}
    {fileSizeBytes totalLanes laneIndex rangeStart rangeEnd resume total : Nat}
    (hrange : rangeStart ≤ rangeEnd)
    (h : (loadOrInitLaneResume ctx transferId fileSizeBytes totalLanes laneIndex rangeStart
      rangeEnd).toProg.MayReturn (.ok (resume, total))) :
    rangeStart ≤ resume ∧ resume ≤ rangeEnd := by
  have h := mayReturn_withLock h
  unfold loadOrInitLaneResumeUnlocked at h
  obtain ⟨c, -, h⟩ := h.of_tryBind
  obtain ⟨_, hlayout, h⟩ := h.of_tryBind
  obtain ⟨-, -, lane, hlane, hstart, hend⟩ :=
    TransferCheckpoint.of_validateLayout hlayout.of_ret.symm
  rw [TransferCheckpoint.roundLane, hlane] at h
  obtain ⟨_, -, h⟩ := h.of_tryBind
  cases h.of_ret
  subst hstart hend
  exact durableResumeOffset_mem hrange

/-- **The resume offset lies in the range**, from whichever source it comes. -/
theorem openLane_within {admission : Admission} {transfer : TransferSummary}
    {discardPayload : Bool} {resume total : Nat} (hrequest : admitRequest request = .ok admission)
    (hsize : request.fileSizeBytes = transfer.fileSizeBytes)
    (h : (openLane ctx request admission transfer discardPayload).toProg.MayReturn
      (.ok (resume, total))) :
    request.rangeStart ≤ resume ∧ resume ≤ requestedEnd request := by
  obtain ⟨-, hstart, hend, hstriped, -, hlt, -⟩ := of_admitRequest hrequest
  unfold openLane at h
  split at h
  · obtain ⟨⟨laneResume, totalTransferred⟩, hload, h⟩ := h.of_tryBind
    cases h.of_ret
    rw [hstart, hend] at hload
    exact loadOrInitLaneResume_within hlt.le hload
  -- a stream that is not striped asks for the whole file
  rename_i hplain
  rw [hstriped, isStriped] at hplain
  simp only [Bool.not_eq_true, Bool.or_eq_false_iff, bne_eq_false_iff_eq] at hplain
  obtain ⟨⟨-, hzero⟩, hwhole⟩ := hplain
  rw [hzero, hwhole, hsize]
  refine ⟨Nat.zero_le resume, ?_⟩
  split at h
  · cases h.of_ret
    exact Nat.min_le_right _ _
  · unfold stagingResume at h
    obtain ⟨len, -, h⟩ := h.of_tryBind
    split at h
    · cases h.of_ret
    · rename_i hfits
      cases h.of_ret
      exact Nat.le_of_not_lt hfits

/-! ## The acks -/

theorem markRunning_other (transfer : TransferSummary) (bytes : Nat) :
    (markRunning transfer bytes).toProg.All Op.IsOther := by
  unfold markRunning
  refine .tryBind (all_lift trivial) fun unchanged => ?_
  split
  · trivial
  · trivial

theorem streamBody_acks {stream : LaneStream} {admission : Admission} {discardPayload : Bool}
    {resume : Nat} (hrequest : admitRequest stream.request = .ok admission)
    (hstart : stream.request.rangeStart ≤ resume) (hend : resume ≤ requestedEnd stream.request) :
    (streamBody ctx stream admission discardPayload resume).toProg.All
      (Op.Acks stream.request) := by
  unfold streamBody
  refine .tryBind (acks_of_other (other_of_silent (presizeIfStriped_silent _ _ _))) fun _ => ?_
  refine .tryBind (all_fallible (all_perform ?_)) fun _ => ?_
  · exact ⟨rfl, ⟨admission.payloadCodec, fromWire_of_admitRequest hrequest, rfl⟩, hstart, hend,
      rangeEnd_le_of_admitRequest hrequest⟩
  refine .tryBind (acks_of_other (other_of_silent (receivePayload_silent _ _ _ _)))
    fun written => ?_
  refine .tryBind (acks_of_other (other_of_silent (recordDiscarded_silent _ _ _ _))) fun _ => ?_
  refine .tryBind (acks_of_other (finalizeStream_other _ _ _)) fun complete => ?_
  exact all_fallible (all_perform trivial)

/-- **Every open ack that is sent is usable**, whatever the operations are answered. -/
theorem handleQuicStream_acks (stream : LaneStream) :
    (handleQuicStream ctx stream).toProg.All (Op.Acks stream.request) := by
  unfold handleQuicStream
  refine .tryBindReturned trivial fun admission hrequest => ?_
  have hrequest := hrequest.of_ret.symm
  refine .tryBind (all_lift trivial) fun transfer => ?_
  refine .tryBindReturned trivial fun _ hmatch => ?_
  obtain ⟨-, hsize⟩ := of_matchTransfer hmatch.of_ret.symm
  refine .bind (all_perform trivial) fun acquired => ?_
  cases acquired with
  | false => trivial
  | true =>
    refine .bind ?_ fun _ => .bind (all_perform trivial) fun _ => trivial
    unfold leasedStream
    refine .tryBind (all_fallible (all_perform trivial)) fun _ => ?_
    refine .tryBindReturned (acks_of_other (other_of_silent (openLane_silent _ _ _ _)))
      fun (resume, total) hopen => ?_
    obtain ⟨hstart, hend⟩ := openLane_within hrequest hsize hopen
    refine .tryBind (acks_of_other (markRunning_other _ _)) fun _ => ?_
    refine .tryBind (acks_of_other persistTransferSummary_other) fun _ => ?_
    refine .bind (streamBody_acks hrequest hstart hend) fun r => ?_
    cases r with
    | ok _ => trivial
    | error err => exact .bind (acks_of_other failRunningTransfer_other) fun _ => trivial

/-! ## What is received -/

/-- **What is received ends where the range ends.** -/
theorem resume_add_received {stream : LaneStream} {admission : Admission} {discardPayload : Bool}
    {resume written : Nat} (hrequest : admitRequest stream.request = .ok admission)
    (hend : resume ≤ requestedEnd stream.request)
    (h : (receivePayload ctx stream admission discardPayload resume).toProg.MayReturn
      (.ok written)) : resume + written = requestedEnd stream.request := by
  obtain ⟨-, -, hadmission, -⟩ := of_admitRequest hrequest
  have hall : written = admission.rangeEndExclusive - resume := by
    unfold receivePayload at h
    split at h
    · have hreceived := h.of_ret.symm
      cases hloop : receiveLanePayloadNoDisk ctx.crypto (stream.incoming resume)
          (admission.rangeEndExclusive - resume) stream.request.transferId
          stream.request.laneIndex admission.payloadCodec with
      | error err =>
        rw [hloop] at hreceived
        cases hreceived
      | ok out =>
        rw [hloop] at hreceived
        cases hreceived
        exact (receiveLanePayloadNoDisk_eq_ok.1 hloop).1
    · unfold receiveToFile receiveLanePayloadToFilePipelined at h
      obtain ⟨file, -, h⟩ := h.of_tryBind
      obtain ⟨_, -, h⟩ := h.of_tryBind
      split at h
      · cases h.of_ret
      · obtain ⟨bytesWritten, -, h⟩ := h.of_tryBind
        obtain ⟨-, -, hwritten, rfl⟩ := Pipeline.of_result h.of_ret.symm
        exact hwritten
  omega

end

end Metra.Server
