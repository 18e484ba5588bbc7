import Metra.Server.Accepted
import Metra.Server.Replacement

/-!
# A refused finalization

The destination exists and may not be replaced, so that the finalization comes to the status
failed.  The data is complete, and to be kept for another attempt.

* `refused_resumable_iff` — after a refusal the lanes are opened again at their ends, **if the
  transfer is not striped**;
* `refused_starts_over` — of a striped transfer the checkpoint is removed as after a success,
  and its lanes are opened again at their beginnings.
-/

namespace Metra.Server

open Interleave

/-- All data of the transfer is there, and its destination policy refuses to finalize it. -/
structure RefusedByPolicy (admission : Admission) (bytesReceived : Nat) (s : State) : Prop where
  disk : isNullSinkUri s.transfer.destinationUri = false
  found : s.disk.final.isSome = true
  policy : s.transfer.immutableDestination = true ∨ s.transfer.overwrite = false
  received : admission.striped = false →
    bytesReceived = s.transfer.fileSizeBytes ∧ s.disk.stagedBytes = s.transfer.fileSizeBytes
  complete : admission.striped = true → s.transfer.status ≠ .completed ∧
    ∃ checkpoint, s.disk.checkpoint = some checkpoint ∧ checkpoint.allLanesComplete = true

/-- A lane of the transfer in `s` is opened again in a later state, when nothing stands in its
way. -/
structure Reopened (admission : Admission) (s : State) (u : Task) (request : QuicTransferOpen)
    (again : Admission) (later : State) : Prop where
  admitted : admitRequest request = .ok again
  striped : again.striped = admission.striped
  transfer : matchTransfer request s.transfer = .ok ()
  layout : again.striped = true → (s.checkpointFor again.totalLanes).validateLayout
    s.transfer.fileSizeBytes again.totalLanes again.rangeStart again.rangeEndExclusive
      request.laneIndex = .ok ()
  free : request.laneIndex ∉ later.activeLaneWriters
  lock : again.striped = true → (((later.locks .checkpoint).lookup u).lock u).isSome = true

/-- The files are unchanged, and each lane that is opened again later is accepted, at the end
of its range. -/
structure Resumable (ctx : Context) (admission : Admission) (s s' : State) : Prop where
  staging : s'.disk.stagingContent = s.disk.stagingContent
  final : s'.disk.finalContent = s.disk.finalContent
  checkpoint : s'.disk.checkpoint = s.disk.checkpoint
  resumes : ∀ u stream again later, later.disk = s'.disk → later.transfer = s'.transfer →
    Reopened admission s u stream.request again later →
    (∃ ack, Accepts ctx u later stream ack) ∧ ∀ ack, Accepts ctx u later stream ack →
      ack.resumeOffsetBytes = again.rangeEndExclusive

section

variable {ctx : Context} {t : Task} {s s' : State} {admission : Admission} {bytesReceived : Nat}
  {r : Except String FinalizeResult} {result : FinalizeResult}

/-! ## The refusal -/

theorem disk_of_finishWith {status : TransferStatus} {bytes : Nat} {message : String}
    (h : Prog.Eval machine t (finishWith ctx status bytes message).toProg s r s') :
    s'.disk = s.disk :=
  (finishWith_onStatus status bytes message).eval (f := State.disk)
    (fun _ _ _ _ _ ho hexec => disk_of_exec ho hexec) h

theorem sameTransfer_of_eval {α : Type} {p : Prog Op Op.Reply α} {a : α}
    (h : Prog.Eval machine t p s a s') {transfer : TransferSummary}
    (hsame : SameTransfer transfer s.transfer) : SameTransfer transfer s'.transfer := by
  induction h with
  | ret a s => exact hsame
  | act hexec _ ih => exact ih (sameTransfer_of_exec hexec hsame)

/-- What exists at the final path is found, unless that cannot be told. -/
theorem of_refusedBy {refused found : Bool} (hfinal : s.disk.final.isSome = true)
    (h : Prog.Eval machine t (refusedBy refused).toProg s (.ok found) s') :
    found = refused ∧ s' = s := by
  unfold refusedBy at h
  split at h
  · rename_i hrefused
    rcases h.of_orFail with ⟨b, hb, hsome⟩ | ⟨he, -⟩
    swap
    · cases he
    cases hb
    obtain ⟨c, hexec⟩ := hsome.of_perform
    obtain ⟨hfound, rfl⟩ := finalExists_of_exec (t := t) hexec
    rw [hfound, hfinal, hrefused]
    exact ⟨rfl, rfl⟩
  · rename_i hallowed
    obtain ⟨hb, rfl⟩ := h.of_ret
    cases hb
    exact ⟨(Bool.eq_false_of_not_eq_true hallowed).symm, rfl⟩

/-- A refused finalization leaves the files alone. -/
theorem disk_of_refused (hfinal : s.disk.final.isSome = true)
    (hpolicy : s.transfer.immutableDestination = true ∨ s.transfer.overwrite = false)
    (h : Prog.Eval machine t (finalizeTransferOnDisk ctx).toProg s (.ok result) s') :
    s'.disk = s.disk := by
  unfold finalizeTransferOnDisk at h
  obtain ⟨⟨overwrite, immutable, bytes⟩, s₁, hread, hthen⟩ := h.of_tryBind
  obtain ⟨_, hok, hread⟩ := hread.of_lift
  cases hok
  obtain ⟨c, hexec⟩ := hread.of_perform
  cases hexec
  obtain ⟨immutableFound, s₂, himmutable, hthen₂⟩ := hthen.of_tryBind
  obtain ⟨rfl, rfl⟩ := of_refusedBy hfinal himmutable
  cases himm : s₂.transfer.immutableDestination with
  | true =>
    rw [himm, if_pos rfl] at hthen₂
    exact disk_of_finishWith hthen₂
  | false =>
    rw [himm, if_neg Bool.false_ne_true] at hthen₂
    obtain ⟨found, s₃, hfound, hthen₃⟩ := Prog.Eval.of_tryBind hthen₂
    obtain ⟨rfl, rfl⟩ := of_refusedBy hfinal hfound
    have hkeep : s₃.transfer.overwrite = false := hpolicy.resolve_left (by simp [himm])
    rw [hkeep, Bool.not_false, if_pos rfl] at hthen₃
    exact disk_of_finishWith hthen₃

/-! ## A single lane -/

/-- The complete data of a single lane is neither renamed nor changed. -/
theorem disk_of_single (hrefused : RefusedByPolicy admission bytesReceived s)
    (hplain : admission.striped = false)
    (h : Prog.Eval machine t (finalizeStream ctx admission false bytesReceived).toProg s
      (.ok result) s') : s'.disk = s.disk := by
  unfold finalizeStream at h
  rw [hplain, if_neg Bool.false_ne_true, if_neg Bool.false_ne_true] at h
  obtain ⟨fileSize, s₁, hreceived, hthen⟩ := h.of_tryBind
  obtain ⟨_, hok, hperform⟩ := hreceived.of_lift
  cases hok
  obtain ⟨c, hexec⟩ := hperform.of_perform
  cases hexec
  rw [(hrefused.received hplain).1, if_neg (not_not.2 rfl)] at hthen
  exact disk_of_refused (s := s.setBytesTransferred s.transfer.fileSizeBytes) hrefused.found
    hrefused.policy hthen

theorem matchTransfer_congr {request : QuicTransferOpen} {transfer transfer' : TransferSummary}
    (h : SameTransfer transfer transfer') :
    matchTransfer request transfer' = matchTransfer request transfer := by
  rw [h]
  rfl

/-- The range of an open that is not striped is the whole file. -/
theorem rangeEnd_of_plain {request : QuicTransferOpen} {transfer : TransferSummary}
    (hrequest : admitRequest request = .ok admission) (hplain : admission.striped = false)
    (hmatch : matchTransfer request transfer = .ok ()) :
    admission.rangeEndExclusive = transfer.fileSizeBytes := by
  obtain ⟨-, -, hend, hstriped, -, -, -⟩ := of_admitRequest hrequest
  rw [hplain] at hstriped
  rw [hend, requestedEnd_of_not_striped hstriped.symm]
  exact (of_matchTransfer hmatch).2

/-- A single lane that is complete is opened again at its end. -/
theorem resumable_of_single (hrefused : RefusedByPolicy admission bytesReceived s)
    (hplain : admission.striped = false)
    (h : Prog.Eval machine t (finalizeStream ctx admission false bytesReceived).toProg s
      (.ok result) s') : Resumable ctx admission s s' := by
  have hdisk := disk_of_single hrefused hplain h
  have hsame : SameTransfer s.transfer s'.transfer := sameTransfer_of_eval h rfl
  refine ⟨by rw [hdisk], by rw [hdisk], by rw [hdisk], ?_⟩
  intro u stream again later hfiles htransfer hagain
  have hsame' : SameTransfer s.transfer later.transfer := by
    rw [htransfer]
    exact hsame
  have hplain' : again.striped = false := hagain.striped.trans hplain
  have hsize : later.transfer.fileSizeBytes = s.transfer.fileSizeBytes := by rw [hsame']
  have hsink : isNullSinkUri later.transfer.destinationUri = false := by
    rw [hsame']
    exact hrefused.disk
  have hstaged : later.disk.stagedBytes = s.transfer.fileSizeBytes := by
    rw [hfiles, hdisk]
    exact (hrefused.received hplain).2
  constructor
  · refine accepts_iff.2 ⟨again, hagain.admitted, ?_, hagain.free, by simp [hplain'],
      by simp [hplain'], fun _ _ => ?_⟩
    · rw [matchTransfer_congr hsame']
      exact hagain.transfer
    · rw [hstaged, hsize]
  · intro ack haccepts
    obtain ⟨admission', bytes, s₁, hrequest, -, -, hopen⟩ := of_accepts haccepts
    rw [hagain.admitted] at hrequest
    cases hrequest
    have hresume := (of_openLane (s := later.lease stream.request.laneIndex) hopen).2.2 hplain'
      hsink
    rw [hresume, rangeEnd_of_plain hagain.admitted hplain' hagain.transfer]
    exact hstaged

/-! ## Several lanes -/

theorem of_loadCheckpoint {loaded : TransferCheckpoint}
    (h : Prog.Eval machine t (loadCheckpoint ctx).toProg s (.ok loaded) s') :
    s.disk.checkpoint = some loaded ∧ s'.disk = s.disk ∧ s'.transfer = s.transfer := by
  obtain ⟨l, s₁, -, hbody, rfl⟩ := of_withLock h
  rcases hbody.of_orFail with ⟨found, hok, hread⟩ | ⟨he, -⟩
  swap
  · cases he
  cases hok
  obtain ⟨c, hexec⟩ := hread.of_perform
  obtain ⟨hfound, rfl⟩ := readCheckpoint_of_exec (t := t) hexec
  exact ⟨hfound, rfl, rfl⟩

/-- A run in which the checkpoint is removed. -/
theorem removed_of_striped (hrefused : RefusedByPolicy admission bytesReceived s)
    (hstriped : admission.striped = true)
    (h : Prog.Eval machine t (finalizeStream ctx admission false bytesReceived).toProg s
      (.ok result) s') :
    ∃ s'', Prog.Eval machine t (finalizeStream ctx admission false bytesReceived).toProg s
      (.ok result) s'' ∧ s''.disk.checkpoint = none := by
  obtain ⟨hopen, checkpoint, hfound, hcomplete⟩ := hrefused.complete hstriped
  unfold finalizeStream at h ⊢
  rw [if_pos hstriped] at h ⊢
  obtain ⟨l, s₁, hlock, hbody, -⟩ := of_withLock h
  suffices hremoved : ∃ s₂, Prog.Eval machine t (finalizeIfReadyUnlocked ctx false).toProg
      (s.updateLock .finalize l) (.ok result) s₂ ∧ s₂.disk.checkpoint = none by
    obtain ⟨s₂, heval, hnone⟩ := hremoved
    exact ⟨_, eval_withLock hlock heval, hnone⟩
  unfold finalizeIfReadyUnlocked at hbody ⊢
  -- the run, taken apart
  obtain ⟨_, s₂, hcheck, hthen₂⟩ := hbody.of_tryBind
  obtain ⟨_, hok, hperform⟩ := hcheck.of_lift
  cases hok
  obtain ⟨c, hexec⟩ := hperform.of_perform
  cases hexec
  have hpending : ¬ decide ((s.updateLock .finalize l).transfer.status = .completed) = true := by
    rw [decide_eq_true_iff]
    exact hopen
  dsimp only at hthen₂
  rw [if_neg hpending] at hthen₂
  obtain ⟨loaded, s₃, hload, hthen₃⟩ := Prog.Eval.of_tryBind hthen₂
  obtain ⟨hloaded, hdisk₃, htransfer₃⟩ := of_loadCheckpoint hload
  obtain rfl : checkpoint = loaded := Option.some.inj (hfound.symm.trans hloaded)
  rw [hcomplete, if_neg (by simp)] at hthen₃
  obtain ⟨finalized, s₄, hfinalized, hthen₄⟩ := Prog.Eval.of_tryBind hthen₃
  have hdisk₄ : s₄.disk = s₃.disk := disk_of_refused (by rw [hdisk₃]; exact hrefused.found)
    (by rw [htransfer₃]; exact hrefused.policy) hfinalized
  obtain ⟨_, s₅, -, hthen₅⟩ := hthen₄.of_tryBind
  cases hthen₅.of_ret.1
  -- and put together with the checkpoint removed
  have hremove : machine.exec t .removeCheckpoint .ok s₄ =
      some (some (), { s₄ with disk := { s₄.disk with versions := [] } }) := by
    show some (s₄.withDisk (attempt .ok (s₄.disk.checkpoint.map _) s₄.disk)) = _
    rw [hdisk₄, hdisk₃]
    show some (s₄.withDisk (attempt .ok (s.disk.checkpoint.map _) s.disk)) = _
    rw [hfound]
    rfl
  refine ⟨{ s₄ with disk := { s₄.disk with versions := [] } },
    .tryBind (.lift (.perform (c := .ok) rfl)) ?_, rfl⟩
  dsimp only
  rw [if_neg hpending]
  refine .tryBind hload ?_
  rw [hcomplete, if_neg (by simp)]
  exact .tryBind hfinalized (.tryBind (.lift (.perform hremove)) (.ret _ _))

end

/-- **After a refusal the upload can be resumed** without sending a byte again, unless it is
striped. -/
theorem refused_resumable_iff (ctx : Context) (t : Task) (s : State) (admission : Admission)
    (bytesReceived : Nat) (hrefused : RefusedByPolicy admission bytesReceived s)
    (hruns : ∃ result s', Prog.Eval machine t
      (finalizeStream ctx admission false bytesReceived).toProg s (.ok result) s') :
    (∀ result s', Prog.Eval machine t
      (finalizeStream ctx admission false bytesReceived).toProg s (.ok result) s' →
        Resumable ctx admission s s') ↔ admission.striped = false := by
  constructor
  · intro hall
    by_contra hstriped
    rw [Bool.not_eq_false] at hstriped
    obtain ⟨result, s', heval⟩ := hruns
    obtain ⟨s'', heval', hremoved⟩ := removed_of_striped hrefused hstriped heval
    obtain ⟨-, checkpoint, hfound, -⟩ := hrefused.complete hstriped
    have hkept := (hall _ _ heval').checkpoint
    rw [hremoved, hfound] at hkept
    cases hkept
  · intro hplain result s' heval
    exact resumable_of_single hrefused hplain heval

namespace Scenario

/-- A file with the bytes of the transfer, completely staged, and another one at its
destination, which may not be overwritten. -/
def refusing (versions : List TransferCheckpoint) : State :=
  start (transfer [7, 8] false .running)
    ⟨fun f => if f = 0 then ⟨[7, 8], [7, 8]⟩ else ⟨[1], [1]⟩, 2, some 0, some 1, versions, []⟩

/-- The checkpoint of two complete lanes. -/
def bothComplete : TransferCheckpoint :=
  ⟨Metra.Sample.transferId, 2, 2, [⟨0, 0, 1, 1⟩, ⟨1, 1, 2, 2⟩]⟩

/-- What the server makes of the open message of the first of two lanes. -/
def firstOfTwo : Admission := ⟨2, 0, 1, true, .rawV1, 4⟩

/-- And of that of a single lane. -/
def onlyLane : Admission := ⟨1, 0, 2, false, .rawV1, 4⟩

end Scenario

open Scenario in
/-- Both lanes are complete, and the finalization is refused.  The first lane is accepted again,
at the beginning of its range. -/
theorem refused_starts_over : RefusedByPolicy firstOfTwo 1 (refusing [bothComplete]) ∧
    ∃ result s', Prog.Eval machine (.handler 0) (finalizeStream ctx firstOfTwo false 1).toProg
        (refusing [bothComplete]) (.ok result) s' ∧
      result.status = .failed ∧ s'.disk.checkpoint = none ∧
      ∃ later ack, later.disk = s'.disk ∧ later.transfer = s'.transfer ∧
        Reopened firstOfTwo (refusing [bothComplete]) (.handler 1) (lane [7, 8] 2 0).request
          firstOfTwo later ∧
        Accepts ctx (.handler 1) later (lane [7, 8] 2 0) ack ∧
        ack.resumeOffsetBytes = 0 ∧ firstOfTwo.rangeEndExclusive = 1 := by
  have hrun : (Prog.run? machine (.handler 0) (List.replicate 16 .ok)
      (finalizeStream ctx firstOfTwo false 1).toProg (refusing [bothComplete])).any (fun out =>
        out.1.toOption.any (fun result => decide (result.status = .failed)) &&
          decide (out.2.disk.checkpoint = none)) = true := by
    decide +kernel
  obtain ⟨⟨r, s'⟩, heq, hout⟩ := (Option.any_eq_true _ _).1 hrun
  obtain ⟨hfailed, hfile⟩ := Bool.and_eq_true_iff.1 hout
  have heval := Prog.eval_of_run? heq
  have hremoved : s'.disk.checkpoint = none := of_decide_eq_true hfile
  cases r with
  | error err => cases hfailed
  | ok result =>
    have hsame : SameTransfer (transfer [7, 8] false .running) s'.transfer :=
      sameTransfer_of_eval heval rfl
    have hsize : s'.transfer.fileSizeBytes = 2 := by
      rw [hsame]
      rfl
    have hfresh : (start s'.transfer s'.disk).checkpointFor 2 =
        newCheckpoint s'.transfer.transferId 2 2 := by
      show s'.disk.checkpoint.getD (newCheckpoint _ s'.transfer.fileSizeBytes 2) = _
      rw [hremoved, hsize]
      rfl
    have hlayout : ((start s'.transfer s'.disk).checkpointFor 2).validateLayout
        s'.transfer.fileSizeBytes 2 0 1 0 = .ok () := by
      rw [hfresh, hsize]
      rfl
    obtain ⟨ack, haccepts⟩ : ∃ ack, Accepts ctx (.handler 1) (start s'.transfer s'.disk)
        (lane [7, 8] 2 0) ack := by
      refine accepts_iff.2 ⟨firstOfTwo, rfl, ?_, List.not_mem_nil, fun _ => rfl, fun _ => hlayout,
        fun h => by cases h⟩
      show matchTransfer _ s'.transfer = _
      rw [matchTransfer_congr hsame]
      rfl
    have hrefused : RefusedByPolicy firstOfTwo 1 (refusing [bothComplete]) :=
      ⟨by decide +kernel, rfl, .inr rfl, by simp [firstOfTwo], fun _ => ⟨by decide, _, rfl, rfl⟩⟩
    refine ⟨hrefused, result, s', heval, of_decide_eq_true hfailed, hremoved,
      start s'.transfer s'.disk, ack, rfl, rfl,
      ⟨rfl, rfl, rfl, fun _ => rfl, List.not_mem_nil, fun _ => rfl⟩, haccepts, ?_, rfl⟩
    obtain ⟨admission, bytes, s₁, hrequest, -, -, hopen⟩ := of_accepts haccepts
    cases hrequest
    obtain ⟨c, hround⟩ := (of_openLane (s := (start s'.transfer s'.disk).lease 0) hopen).2.1 rfl
    have hround : (newCheckpoint s'.transfer.transferId 2 2).roundLane 0 = _ := hfresh ▸ hround
    exact (congrArg Prod.fst (Option.some.inj hround)).symm

open Scenario in
/-- A single lane. -/
theorem refused_resumable_iff_sample :
    RefusedByPolicy onlyLane 2 (refusing []) ∧
      ∀ result s', Prog.Eval machine (.handler 0)
        (finalizeStream ctx onlyLane false 2).toProg (refusing []) (.ok result) s' →
          Resumable ctx onlyLane (refusing []) s' := by
  have hrefused : RefusedByPolicy onlyLane 2 (refusing []) :=
    ⟨by decide +kernel, rfl, .inr rfl, fun _ => ⟨rfl, rfl⟩, fun h => by cases h⟩
  have hrun : (Prog.run? machine (.handler 0) (List.replicate 8 .ok) (finalizeStream ctx
      onlyLane false 2).toProg (refusing [])).any (fun out => out.1.isOk) =
        true := by
    decide +kernel
  obtain ⟨⟨r, s'⟩, heq, hout⟩ := (Option.any_eq_true _ _).1 hrun
  cases r with
  | error err => cases hout
  | ok result =>
    exact ⟨hrefused,
      (refused_resumable_iff _ _ _ _ _ hrefused ⟨result, s', Prog.eval_of_run? heq⟩).2 rfl⟩

end Metra.Server
