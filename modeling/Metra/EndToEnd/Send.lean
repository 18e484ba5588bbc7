import Metra.Client.Send
import Metra.EndToEnd.Resume

/-!
# A file is sent

From the call to the file at its destination: `send_transfer` has the server create a transfer, and
the lanes of the transfer deliver the file.

* `runs_of_plan` — the lanes of any plan, be it one lane or several, deliver the source;
* `sent_file_delivered` — **the file is delivered, and `send_transfer` reports it**.
-/

namespace Metra.EndToEnd

open Client Interleave

section

variable {ctx : Server.Context} {transfer : TransferSummary} {args : TransferArgs}
  {tuning : RuntimeTuning} {opens : List QuicTransferOpen} {source : PayloadSource}
  {data : List UInt8} {streams : Nat → Option Server.LaneStream} {disk : Server.Disk}

/-- The source is there, and the lanes have been told so. -/
structure Told (data : List UInt8) (lanes : Nat) (s : Server.State) : Prop where
  content : s.disk.finalContent = some data
  acks : ∀ i < lanes, ∃ ack, s.acks i = some ack ∧
    (ack.status = .running ∨ ack.status = .completed)
  completed : ∃ i < lanes, ∃ ack, s.acks i = some ack ∧ ack.status = .completed

/-- **The lanes of a plan deliver the source**, be it one lane or several. -/
theorem runs_of_plan (hcrypto : ctx.crypto.OpensSealed) (haccepted : Accepted transfer)
    (hkept : Server.isNullSinkUri transfer.destinationUri = false)
    (hstatus : transfer.status ≠ .completed)
    (hplan : planOpens transfer args.lanes args.ioChunkBytes args.runtimeProfile
      args.fileReadPipelineDepth = .ok (tuning, opens))
    (hlimit : opens.length ≤ transferLanesMax) (hholds : Holds source data)
    (hlen : data.length = transfer.fileSizeBytes)
    (huploads : Uploads ctx.crypto source tuning opens streams) (hfresh : disk.Fresh)
    (hvacant : (transfer.immutableDestination || !transfer.overwrite) = true →
      disk.final = none) :
    (∀ cfg, Config.Reaches Server.machine (fun _ _ _ c => c = .ok)
        ⟨Server.start transfer disk, Server.program ctx streams⟩ cfg →
      ((∀ t, cfg.step? Server.machine t .ok = none) → Server.AllReturned opens.length cfg) ∧
      (Server.AllReturned opens.length cfg → Told data opens.length cfg.shared)) ∧
    ∀ f : Nat → Config Server.Task Server.Op Server.Op.Reply Server.State (Except String Unit),
      f 0 = ⟨Server.start transfer disk, Server.program ctx streams⟩ →
      ∃ n, ∀ t c, (f n).step? Server.machine t c ≠ some (f (n + 1)) := by
  have hpos : 0 < opens.length := by
    rw [length_opens hplan]
    exact (normalizedLaneCount_mem (of_accepted haccepted).1).1
  by_cases hone : opens.length = 1
  · have hsole := soleLane_of_uploads hcrypto haccepted hkept hplan hone hholds hlen huploads
    obtain ⟨hruns, hstops⟩ := Server.resumed_delivers hsole (Server.sameTransfer_refl transfer)
      (hfresh.resumable transfer data) hvacant
    refine ⟨fun cfg hreaches => ?_, hstops⟩
    obtain ⟨-, hstuck, hdelivers⟩ := hruns cfg hreaches
    rw [hone]
    refine ⟨hstuck, fun hreturned => ?_⟩
    obtain ⟨-, hcontent, ack, hack, hcompleted⟩ := hdelivers hreturned
    refine ⟨hcontent, fun i hi => ?_, 0, Nat.one_pos, ack, hack, hcompleted⟩
    obtain rfl : i = 0 := by omega
    exact ⟨ack, hack, .inr hcompleted⟩
  · have hsession := session_of_uploads hplan hcrypto haccepted hkept (by omega) hlimit huploads
      hholds hlen
    refine ⟨fun cfg hreaches => ⟨?_, fun hreturned => ?_⟩, fun f hf => ?_⟩
    · exact allReturned_of_stuck hsession hstatus hfresh hvacant hreaches
    · have hdelivered :=
        deliveredOnce_of_returned hsession hstatus hfresh hvacant hreaches hreturned
      exact ⟨hdelivered.content, hdelivered.acks, hdelivered.completed⟩
    · refine Config.exists_stop (f := f) Server.machine fun t
        (ht : t ∉ Server.laneTasks opens.length) => ?_
      rw [hf]
      exact Server.returned_of_not_mem hsession.only ht

end

/-- **A file is delivered, and `send_transfer` reports it.**  When the call has had a transfer
created for a file, its request was a valid one, of the size of the file.  Over any number of lanes
that the server takes, in whatever order its tasks take their steps, none of which fails, if there
is no file at the final path that must be kept: the client goes on behind every open ack; a run
stops, and only when all lanes have returned; then the file is at its destination, and the call that
has got the answers of its lanes, and can update the policy, reports `Completed`, and as many bytes
as the file has. -/
theorem sent_file_delivered {F : Type} [LinearOrder F] (ops : FloatOps F)
    {laneReports : Serde (TuneLanesReport F)} {lanePolicies : Serde LanePolicyStore}
    {runtimeReports : Serde (TuneRuntimeReport F)} {runtimePolicies : Serde RuntimePolicyStore}
    {env : Environment} {defaults : ClientDefaults F} {args : SendArgs} {calls : SendCalls F}
    {transferId : Uuid} {lanes : Nat} {profile : Option RuntimeProfile}
    (hsetup : sendSetup ops laneReports lanePolicies runtimeReports runtimePolicies env defaults
      args calls = .ok (transferId, lanes, profile))
    (hnew : args.transferId = none) {data : List UInt8}
    (hfile : calls.metadata = .ok data.length) {contents : Nat → List UInt8}
    (hcontents : ∀ laneIndex, contents laneIndex = data) {ctx : Server.Context}
    (hcrypto : ctx.crypto.OpensSealed) :
    ∃ request : CreateTransferRequest, request.validate = .ok () ∧
      request.fileSizeBytes = data.length ∧ calls.createTransfer request = .ok transferId ∧
      ∀ (tuning : RuntimeTuning) (opens : List QuicTransferOpen)
        (streams : Nat → Option Server.LaneStream) (disk : Server.Disk),
        Server.isNullSinkUri request.destinationUri = false →
        planOpens (request.summary transferId) lanes args.ioChunkBytes profile
          args.fileReadPipelineDepth = .ok (tuning, opens) →
        opens.length ≤ transferLanesMax → Uploads ctx.crypto (.file contents) tuning opens streams →
        disk.Fresh →
        ((request.immutableDestination || !request.overwrite) = true → disk.final = none) →
        (∀ cfg, Config.Reaches Server.machine (fun _ _ _ c => c = .ok)
            ⟨Server.start (request.summary transferId) disk, Server.program ctx streams⟩ cfg →
          OpensAccepted tuning streams cfg ∧
          ((∀ t, cfg.step? Server.machine t .ok = none) → Server.AllReturned opens.length cfg) ∧
          (Server.AllReturned opens.length cfg →
            cfg.shared.disk.finalContent = some data ∧
            (Answers ctx.crypto (.file contents) tuning (request.summary transferId) opens
                (sendTransferArgs args lanes profile) cfg.shared.acks (calls.send transferId) →
              calls.policyUpdate = .ok () →
              ∃ report, sendTransfer ops laneReports lanePolicies runtimeReports runtimePolicies
                  env defaults args calls = .ok report ∧
                report.finalStatus = "Completed" ∧
                report.resumedFromBytes + report.bytesStreamedThisSession = data.length))) ∧
        ∀ f : Nat → Config Server.Task Server.Op Server.Op.Reply Server.State (Except String Unit),
          f 0 = ⟨Server.start (request.summary transferId) disk, Server.program ctx streams⟩ →
          ∃ n, ∀ t c, (f n).step? Server.machine t c ≠ some (f (n + 1)) := by
  obtain ⟨size, destinationUri, hsize, -, hvalid, hcreated⟩ := created_of_sendSetup hsetup hnew
  obtain rfl : data.length = size := Except.ok.inj (hfile.symm.trans hsize)
  refine ⟨sendRequest defaults args data.length destinationUri, hvalid, rfl, hcreated, ?_⟩
  intro tuning opens streams disk hkept hplan hlimit huploads hfresh hvacant
  have haccepted : Accepted
      ((sendRequest defaults args data.length destinationUri).summary transferId) :=
    ⟨_, transferId, hvalid, Server.sameTransfer_refl _⟩
  have hqueued : ((sendRequest defaults args data.length destinationUri).summary
      transferId).status ≠ .completed := by
    intro h
    cases h
  obtain ⟨hruns, hstops⟩ := @runs_of_plan ctx _ (sendTransferArgs args lanes profile) tuning opens
    (.file contents) data streams disk hcrypto haccepted hkept hqueued hplan hlimit hcontents rfl
    huploads hfresh hvacant
  refine ⟨fun cfg hreaches => ?_, hstops⟩
  obtain ⟨hstuck, htold⟩ := hruns cfg hreaches
  have hopens := opensAccepted_of_reaches hplan huploads hreaches
  refine ⟨hopens, hstuck, fun hreturned => ⟨(htold hreturned).content, fun hanswers hupdate => ?_⟩⟩
  obtain ⟨report, hreport, hstatus, hsum⟩ := report_of_acks ops hplan
    (size_le_of_accepted haccepted) (htold hreturned).acks (htold hreturned).completed hanswers
  exact ⟨report, sendTransfer_of_sent hsetup hreport hupdate, hstatus, hsum⟩

namespace SentSample

/-- A file of one byte. -/
def args : SendArgs :=
  { SendSample.args with
    ioChunkBytes := 2
    lanes := 1
    fileReadPipelineDepth := some 1 }

/-- The request for a file of one byte. -/
def request : CreateTransferRequest :=
  sendRequest SendSample.defaults args 1 "file:///a.bin".toList

/-- The transfer that it creates. -/
def transfer : TransferSummary := request.summary .nil

/-- There are no policy files, the server creates a transfer for the request, and the lane has got
this ack. -/
def calls (ack : QuicTransferCompleteAck) : SendCalls ℚ :=
  { SendSample.calls with
    metadata := .ok 1
    createTransfer := fun payload => if payload = request then .ok .nil else .error "not expected"
    lanePolicy := (PolicyDisk.start none).named LoadSample.path
    runtimePolicy := (PolicyDisk.start none).named RuntimeSample.path
    send := fun _ =>
      { BenchSample.calls .completed with
        status := .ok transfer
        fileLen := .ok 1
        joined := [.ok ⟨1, 0, ⟨ack, 0⟩⟩] } }

/-- The file. -/
def source : PayloadSource := .file fun _ => [7]

/-- The open message of its only lane. -/
def lane : QuicTransferOpen := laneOpen transfer SessionSample.tuning 1 ((0, 1), 0)

/-- What the send pipeline is given behind an open ack. -/
def laneArgs (resume : Nat) : SendLaneArgs :=
  sendArgs source SessionSample.tuning lane resume .nil

/-- The byte is read, sealed and written, and both tasks end. -/
def schedule : List (SendPipeline.Stage × Outcome) :=
  [(.reader, .done 0)] ++ SendPipeline.SendSample.turn 1 ++
    [(.reader, .done 0), (.encrypt, .done 0), (.consumer, .done 0), (.consumer, .done 0),
      (.consumer, .done 0)]

/-- The pipeline when the byte has been sent. -/
def sent : Option SendPipeline :=
  SendPipeline.run Sample.crypto (laneArgs 0) schedule (SendPipeline.start (laneArgs 0))

/-- The stream of the lane: there is the frame of the byte, or nothing is left. -/
def stream : Server.LaneStream where
  request := lane
  incoming resume := if resume = 0 then (sent.map SendPipeline.sent).getD [] else []

theorem planned : planOpens transfer 1 args.ioChunkBytes (some .throughput)
    args.fileReadPipelineDepth = .ok (SessionSample.tuning, [lane]) := rfl

/-- The byte is sent. -/
theorem fileLane_sent : FileLane Sample.crypto (laneArgs 0) (.ok 1) (stream.incoming 0) := by
  have hrun : ∃ s, sent = some s ∧ s.consumer = .returned (.ok 1) := ⟨_, rfl, rfl⟩
  obtain ⟨s, hs, hreturned⟩ := hrun
  refine ⟨.ok 1, ?_, rfl⟩
  rw [SendPipeline.Returns, if_neg (by decide)]
  refine ⟨s, SendPipeline.reaches_of_run hs, hreturned, ?_⟩
  show s.sent = (sent.map SendPipeline.sent).getD []
  rw [hs]
  rfl

theorem uploads : Uploads Server.Scenario.ctx.crypto source SessionSample.tuning [lane]
    fun i => [stream][i]? where
  opened i := by
    rcases i with _ | i
    · rfl
    · rfl
  sends i s hs resume hle := by
    obtain rfl := List.mem_singleton.1 (List.mem_of_getElem? hs)
    refine ⟨.nil, ?_⟩
    have hle' : resume ≤ 1 := hle
    obtain rfl | rfl : resume = 0 ∨ resume = 1 := by omega
    · exact ⟨1, fileLane_sent⟩
    · exact ⟨0, .ok 0, ⟨rfl, rfl⟩, rfl⟩
  nothing i s hs resume hlt := by
    obtain rfl := List.mem_singleton.1 (List.mem_of_getElem? hs)
    exact if_neg (by omega)

theorem request_of_created {ack : QuicTransferCompleteAck} {payload : CreateTransferRequest}
    {transferId : Uuid} (h : (calls ack).createTransfer payload = .ok transferId) :
    payload = request := by
  by_contra hne
  have herror : (calls ack).createTransfer payload = .error "not expected" := if_neg hne
  rw [herror] at h
  cases h

theorem setup (ack : QuicTransferCompleteAck) :
    sendSetup exactOps LoadSample.noReports (LoadSample.store LoadSample.entry)
      RuntimeSample.noReports (RuntimeSample.store RuntimeSample.entry) SendSample.env
      SendSample.defaults args (calls ack) = .ok (.nil, 1, some .throughput) := by
  have hready : (sendSetup exactOps LoadSample.noReports (LoadSample.store LoadSample.entry)
      RuntimeSample.noReports (RuntimeSample.store RuntimeSample.entry) SendSample.env
      SendSample.defaults args (calls ⟨true, .completed, 1, ""⟩)).toOption =
        some (.nil, 1, some .throughput) := by
    decide +kernel
  exact RuntimeSample.of_toOption hready

theorem answers {ack : QuicTransferCompleteAck} {answer : Nat → Option QuicTransferCompleteAck}
    (hanswer : answer 0 = some ack) :
    Answers Server.Scenario.ctx.crypto source SessionSample.tuning transfer [lane]
      (sendTransferArgs args 1 (some .throughput)) answer ((calls ack).send .nil) where
  prepared := rfl
  lanes := by
    refine ⟨[⟨1, 0, ⟨ack, 0⟩⟩], ?_, .refl _, ?_⟩
    · refine .cons ⟨{ TransferSample.calls 0 1 with completeAck := .ok ⟨ack, 0⟩ }, rfl, ?_⟩ .nil
      intro openAck heq _
      cases heq
      exact ⟨.nil, _, fileLane_sent⟩
    · intro i result hget
      match i, hget with
      | 0, rfl => exact hanswer

end SentSample

open SentSample in
/-- A byte is delivered and reported. -/
theorem sent_file_delivered_byte :
    ∃ cfg calls report, Config.Reaches Server.machine (fun _ _ _ c => c = .ok)
        (Server.Scenario.server transfer Server.Scenario.noFiles [stream]) cfg ∧
      cfg.shared.disk.finalContent = some [7] ∧
      sendTransfer exactOps LoadSample.noReports (LoadSample.store LoadSample.entry)
        RuntimeSample.noReports (RuntimeSample.store RuntimeSample.entry) SendSample.env
        SendSample.defaults args calls = .ok report ∧
      report.finalStatus = "Completed" := by
  have hrun : ((Server.Scenario.server transfer Server.Scenario.noFiles [stream]).runIf
      Server.machine (fun _ _ _ c => decide (c = .ok))
      (Server.Scenario.turns [(.handler 0, 10), (.writer 0, 6), (.handler 0, 12)])).any
      (fun cfg => Server.Scenario.returned cfg (.handler 0) && (cfg.shared.acks 0).isSome) =
        true := by
    decide +kernel
  obtain ⟨cfg, hreaches, hended⟩ :=
    Config.reaches_of_runIf_any (fun _ _ _ _ h => of_decide_eq_true h) hrun
  obtain ⟨hreturned, hacked⟩ := Bool.and_eq_true_iff.1 hended
  obtain ⟨ack, hack⟩ := Option.isSome_iff_exists.1 hacked
  have hall : Server.AllReturned 1 cfg := by
    intro i hi
    obtain rfl : i = 0 := by omega
    exact Server.of_returned hreturned
  have hcontents : ∀ laneIndex, (fun _ => [7] : Nat → List UInt8) laneIndex = [7] := fun _ => rfl
  have hcrypto : Server.Scenario.ctx.crypto.OpensSealed := Sample.crypto_opensSealed
  obtain ⟨payload, -, -, hcreated, hdelivers⟩ :=
    sent_file_delivered exactOps (setup ack) rfl rfl hcontents hcrypto
  obtain rfl := request_of_created hcreated
  obtain ⟨hruns, -⟩ := hdelivers _ _ _ Server.Scenario.noFiles (by decide +kernel) planned
    (by decide) uploads ⟨rfl, rfl, rfl, fun f hf => by cases hf⟩ fun _ => rfl
  obtain ⟨hcontent, hreports⟩ := (hruns cfg hreaches).2.2 hall
  obtain ⟨report, hreport, hstatus, -⟩ := hreports (answers hack) rfl
  exact ⟨cfg, _, report, hreaches, hcontent, hreport, hstatus⟩

end Metra.EndToEnd
