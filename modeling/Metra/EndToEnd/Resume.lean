import Metra.EndToEnd.Session
import Metra.Server.Resumed

/-!
# An interrupted upload is resumed

What is left of uploads over a single lane, each cut off or stopped by whatever has failed, and
one more upload of the same source in which nothing fails.

* `soleLane_of_uploads` — the stream of a plan of one lane;
* `upload_resumes` — **the file is delivered, and the client reports it**, and the server writes
  only what it had not staged.
-/

namespace Metra.EndToEnd

open Client Interleave

section

variable {ctx : Server.Context} {transfer stored : TransferSummary} {args : TransferArgs}
  {tuning : RuntimeTuning} {opens : List QuicTransferOpen} {source : PayloadSource}
  {data : List UInt8} {streams : Nat → Option Server.LaneStream}

/-- **The lane of a plan of one lane** is the only stream of the server. -/
theorem soleLane_of_uploads (hcrypto : ctx.crypto.OpensSealed) (haccepted : Accepted transfer)
    (hkept : Server.isNullSinkUri transfer.destinationUri = false)
    (hplan : planOpens transfer args.lanes args.ioChunkBytes args.runtimeProfile
      args.fileReadPipelineDepth = .ok (tuning, opens))
    (hone : opens.length = 1) (hholds : Holds source data)
    (hlen : data.length = transfer.fileSizeBytes)
    (huploads : Uploads ctx.crypto source tuning opens streams) :
    (Server.reliable ctx transfer streams).SoleLane data where
  size := hlen.symm
  nonempty := by
    rw [hlen]
    exact (of_accepted haccepted).1
  disk := hkept
  opens := hcrypto
  tenantId := (of_accepted haccepted).2.1
  userId := (of_accepted haccepted).2.2
  sends := by
    have hmax : data.length ≤ u64Max := hlen ▸ size_le_of_accepted haccepted
    have hsends := sendsLane_of_uploads hplan huploads hholds hlen hmax (hone ▸ Nat.one_pos)
    rw [hone] at hsends
    exact hsends
  only i hi := by
    have hopened := huploads.opened i
    rwa [List.getElem?_eq_none (hone ▸ hi), Option.map_eq_none_iff] at hopened

/-- **An interrupted upload is resumed.**  Whatever uploads of a source over a single lane have
left, cut off anywhere and stopped by whatever has failed: when the source is sent again and
nothing fails, the client goes on behind the open ack; the server writes from where the staging
file ended; a run stops, and only when the lane has returned; then the final file is the
source, and the client that has got its answer reports `Completed`, and as many bytes as the
file has. -/
theorem upload_resumes (hcrypto : ctx.crypto.OpensSealed) (haccepted : Accepted transfer)
    (hkept : Server.isNullSinkUri transfer.destinationUri = false)
    (hplan : planOpens transfer args.lanes args.ioChunkBytes args.runtimeProfile
      args.fileReadPipelineDepth = .ok (tuning, opens))
    (hone : opens.length = 1) (hholds : Holds source data)
    (hlen : data.length = transfer.fileSizeBytes)
    (huploads : Uploads ctx.crypto source tuning opens streams)
    {disk : Server.Disk} (hdisk : Server.Interrupted ctx transfer data disk)
    (hstored : Server.SameTransfer transfer stored)
    (hvacant : (transfer.immutableDestination || !transfer.overwrite) = true →
      disk.final = none) :
    (∀ cfg, Config.Reaches Server.machine (fun _ _ _ c => c = .ok)
        ⟨Server.start stored disk, Server.program ctx streams⟩ cfg →
      OpensAccepted tuning streams cfg ∧
      (∀ writer, cfg.shared.writers 0 = .running writer →
        writer.resumeOffset = disk.stagedBytes) ∧
      ((∀ t, cfg.step? Server.machine t .ok = none) → Server.AllReturned 1 cfg) ∧
      (Server.AllReturned 1 cfg →
        cfg.shared.disk.finalContent = some data ∧
        ∀ {F : Type} (ops : FloatOps F) (calls : TransferCalls),
          Answers ctx.crypto source tuning transfer opens args cfg.shared.acks calls →
          ∃ report, sendTransferWithSource ops args calls = .ok report ∧
            report.finalStatus = "Completed" ∧
            report.resumedFromBytes + report.bytesStreamedThisSession =
              transfer.fileSizeBytes)) ∧
    ∀ f : Nat → Config Server.Task Server.Op Server.Op.Reply Server.State (Except String Unit),
      f 0 = ⟨Server.start stored disk, Server.program ctx streams⟩ →
      ∃ n, ∀ t c, (f n).step? Server.machine t c ≠ some (f (n + 1)) := by
  have hsole := soleLane_of_uploads hcrypto haccepted hkept hplan hone hholds hlen huploads
  obtain ⟨hruns, hstops⟩ := Server.resumed_delivers hsole hstored hdisk.resumable hvacant
  refine ⟨fun cfg hreaches => ?_, hstops⟩
  obtain ⟨hwrites, hstuck, hdelivers⟩ := hruns cfg hreaches
  refine ⟨opensAccepted_of_reaches hplan huploads hreaches, hwrites, hstuck, fun hreturned => ?_⟩
  obtain ⟨-, hcontent, ack, hack, hcompleted⟩ := hdelivers hreturned
  refine ⟨hcontent, fun ops calls hanswers => ?_⟩
  refine report_of_acks ops hplan (size_le_of_accepted haccepted) (fun i hi => ?_)
    ⟨0, hone ▸ Nat.one_pos, ack, hack, hcompleted⟩ hanswers
  obtain rfl : i = 0 := by omega
  exact ⟨ack, hack, .inr hcompleted⟩

end

namespace ResumeSample

/-- Two zeros are sent over one lane. -/
def args : TransferArgs := ⟨"generated://zeros/2", false, 2, 1, none, some 1⟩

/-- The open message of the only lane. -/
def lane : QuicTransferOpen := laneOpen SessionSample.transfer SessionSample.tuning 1 ((0, 2), 0)

/-- The stream of the lane, all writes of which succeed. -/
def stream : Server.LaneStream where
  request := lane
  incoming resume := (sendGeneratedLane Sample.crypto
    (sendArgs .generatedZeros SessionSample.tuning lane resume .nil) fun _ => .done 0).2

theorem planned : planOpens SessionSample.transfer args.lanes args.ioChunkBytes
    args.runtimeProfile args.fileReadPipelineDepth = .ok (SessionSample.tuning, [lane]) := rfl

/-- The client whose lane has been told to go on from `resume`, and has got this ack. -/
def calls (resume : Nat) (ack : QuicTransferCompleteAck) : TransferCalls where
  status := .ok SessionSample.transfer
  fileLen := .ok 2
  protocolVersion := .ok quicProtocolVersion
  quicAddr := .ok ()
  connection := .ok ()
  joined := [.ok ⟨2 - resume, resume, ⟨ack, 0⟩⟩]
  elapsedMs := 5

theorem uploads : Uploads Server.Scenario.ctx.crypto .generatedZeros SessionSample.tuning [lane]
    fun i => [stream][i]? where
  opened i := by
    rcases i with _ | i
    · rfl
    · rfl
  sends i s hs resume hle := by
    obtain rfl := List.mem_singleton.1 (List.mem_of_getElem? hs)
    refine ⟨.nil, fun _ => .done 0, 2 - resume, ?_⟩
    have hle' : resume ≤ 2 := hle
    obtain rfl | rfl | rfl : resume = 0 ∨ resume = 1 ∨ resume = 2 := by omega
    · rfl
    · rfl
    · rfl
  nothing i s hs resume hlt := by
    obtain rfl := List.mem_singleton.1 (List.mem_of_getElem? hs)
    exact SessionSample.sends_nothing _ hlt

theorem answers {ack : QuicTransferCompleteAck} {answer : Nat → Option QuicTransferCompleteAck}
    (hanswer : answer 0 = some ack) :
    Answers Server.Scenario.ctx.crypto .generatedZeros SessionSample.tuning SessionSample.transfer
      [lane] args answer (calls 1 ack) where
  prepared := rfl
  lanes := by
    refine ⟨[⟨1, 1, ⟨ack, 0⟩⟩], ?_, .refl _, ?_⟩
    · refine .cons ⟨{ TransferSample.calls 1 1 with completeAck := .ok ⟨ack, 0⟩ }, rfl, ?_⟩ .nil
      intro openAck heq _
      cases heq
      exact ⟨.nil, fun _ => .done 0, rfl⟩
    · intro i result hget
      match i, hget with
      | 0, rfl => exact hanswer

end ResumeSample

open ResumeSample in
/-- The writer of one server has failed after the first of two zeros.  The second zero is sent
to the next one, and reported. -/
theorem upload_resumes_zeros :
    ∃ disk cfg calls report,
      Server.Interrupted Server.Scenario.ctx SessionSample.transfer [0, 0] disk ∧
      disk.stagedBytes = 1 ∧
      Config.Reaches Server.machine (fun _ _ _ c => c = .ok)
        (Server.Scenario.server SessionSample.transfer disk [stream]) cfg ∧
      cfg.shared.disk.finalContent = some [0, 0] ∧
      sendTransferWithSource exactOps args calls = .ok report ∧
      report.finalStatus = "Completed" := by
  have hrun : ((Server.Scenario.server SessionSample.transfer Server.Scenario.noFiles
      [stream]).runIf Server.machine (fun _ _ _ _ => true)
      (Server.Scenario.turns [(.handler 0, 10), (.writer 0, 1)] ++
        [(.writer 0, .ioPartial 1)])).any
      (fun cfg => decide (cfg.shared.disk.stagedBytes = 1) &&
        ((Server.Scenario.server SessionSample.transfer cfg.shared.disk [stream]).runIf
          Server.machine (fun _ _ _ c => decide (c = .ok))
          (Server.Scenario.turns [(.handler 0, 10), (.writer 0, 6), (.handler 0, 12)])).any
          (fun cfg' => Server.Scenario.returned cfg' (.handler 0) &&
            (cfg'.shared.acks 0).isSome)) = true := by
    decide +kernel
  obtain ⟨cut, hto, hnext⟩ := Config.reaches_of_runIf_any (fun _ _ _ _ _ => trivial) hrun
  obtain ⟨hstaged, hnext⟩ := Bool.and_eq_true_iff.1 hnext
  obtain ⟨cfg, hto', hended⟩ :=
    Config.reaches_of_runIf_any (fun _ _ _ _ h => of_decide_eq_true h) hnext
  obtain ⟨hreturned, hacked⟩ := Bool.and_eq_true_iff.1 hended
  have hholds : Holds .generatedZeros [0, 0] := rfl
  have hkept : Server.isNullSinkUri SessionSample.transfer.destinationUri = false := by
    decide +kernel
  have hsole : (Server.reliable Server.Scenario.ctx SessionSample.transfer
      fun i => [stream][i]?).SoleLane [0, 0] :=
    soleLane_of_uploads Sample.crypto_opensSealed SessionSample.accepted hkept planned rfl hholds
      rfl uploads
  have hfresh : Server.Scenario.noFiles.Fresh := ⟨rfl, rfl, rfl, fun f hf => by cases hf⟩
  have hinterrupted : Server.Interrupted Server.Scenario.ctx SessionSample.transfer [0, 0]
      cut.shared.disk :=
    .stopped (.fresh hfresh) (Server.sameTransfer_refl _)
      ⟨hsole.size, hsole.disk, hsole.opens, hsole.honest.streams⟩ hsole.singleLane hto
  obtain ⟨-, -, -, hdelivered⟩ := (upload_resumes Sample.crypto_opensSealed
    SessionSample.accepted hkept planned rfl hholds rfl uploads hinterrupted
    (Server.sameTransfer_refl _) fun hkeeps => absurd hkeeps (by decide)).1 cfg hto'
  have hall : Server.AllReturned 1 cfg := by
    intro i hi
    obtain rfl : i = 0 := by omega
    exact Server.of_returned hreturned
  obtain ⟨hcontent, hreports⟩ := hdelivered hall
  obtain ⟨ack, hack⟩ := Option.isSome_iff_exists.1 hacked
  obtain ⟨report, hreport, hstatus, -⟩ := hreports exactOps (calls 1 ack) (answers hack)
  exact ⟨_, cfg, _, report, hinterrupted, of_decide_eq_true hstaged, hto', hcontent, hreport,
    hstatus⟩

end Metra.EndToEnd
