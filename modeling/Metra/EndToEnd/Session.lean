import Mathlib.Data.Set.List
import Metra.Client.SendReport
import Metra.EndToEnd.Lane
import Metra.Server.Striped

/-!
# An upload from end to end

`send_transfer_with_source` on one side and the tasks of the server on the other, when nothing
fails: the streams are those that the lanes of the client's plan send, and the acks that the
client gets are those that the server sends.

* `Uploads` — each lane of the plan is opened once, and sent from whatever offset the server
  acknowledges;
* `session_of_uploads` — such streams make up a session of the server;
* `upload_completes` — **the file is delivered, and the client reports it**.
-/

namespace Metra.EndToEnd

open Client Interleave

/-! ## The streams of a plan -/

/-- The bytes that the source stands for, in every lane that is opened. -/
def Holds (source : PayloadSource) (data : List UInt8) : Prop :=
  match source with
  | .file contents => ∀ laneIndex, contents laneIndex = data
  | .generatedZeros => data = List.replicate data.length 0

/-- The streams that the client makes of the lanes of its plan when nothing fails: behind the
open message the sender sends all that is left from the offset that the server acknowledges, and
nothing is left behind the end of the lane. -/
structure Uploads (crypto : AeadCrypto) (source : PayloadSource) (tuning : RuntimeTuning)
    (opens : List QuicTransferOpen) (streams : Nat → Option Server.LaneStream) : Prop where
  opened : ∀ i, (streams i).map Server.LaneStream.request = opens[i]?
  sends : ∀ i stream, streams i = some stream →
    ∀ resume ≤ stream.request.rangeEndExclusive, ∃ binding,
      SendsAll crypto source (sendArgs source tuning stream.request resume binding)
        (stream.incoming resume)
  nothing : ∀ i stream, streams i = some stream →
    ∀ resume, stream.request.rangeEndExclusive < resume → stream.incoming resume = []

section

variable {crypto : AeadCrypto} {source : PayloadSource} {tuning : RuntimeTuning}
  {data sent : List UInt8} {lane : QuicTransferOpen} {resume : Nat} {binding : Uuid}

/-- What a lane sends is a part of the source. -/
theorem slice_content (hholds : Holds source data) (hend : lane.rangeEndExclusive ≤ data.length) :
    Bytes.slice (content source (sendArgs source tuning lane resume binding)) resume
      lane.rangeEndExclusive = Bytes.slice data resume lane.rangeEndExclusive := by
  cases source with
  | file contents =>
    have hsame : contents lane.laneIndex = data := hholds lane.laneIndex
    simp only [content, sendArgs, PayloadSource.contents, hsame]
  | generatedZeros =>
    have hzeros : data = List.replicate data.length 0 := hholds
    rw [hzeros]
    simp only [content, sendArgs, Bytes.slice, List.drop_replicate, List.take_replicate]
    congr 1
    omega

/-- The frames of the rest of a lane are on the stream when it was sent. -/
theorem chunks_of_sendsAll (hholds : Holds source data)
    (hend : lane.rangeEndExclusive ≤ data.length) (hmax : data.length ≤ u64Max)
    (h : SendsAll crypto source (sendArgs source tuning lane resume binding) sent) :
    ∃ chunks : List (List UInt8 × Nonce),
      chunks.flatMap Prod.fst = Bytes.slice data resume lane.rangeEndExclusive ∧
      (∀ chunk ∈ chunks, 0 < chunk.1.length ∧ chunk.1.length ≤ appPayloadMaxPlaintextBytes) ∧
      encodePayloadFrames crypto tuning.payloadCodec
        (laneCodec crypto tuning.payloadCodec lane.transferId lane.laneIndex) chunks =
        .ok sent := by
  obtain ⟨chunks, -, hslice, hframes⟩ := sentOf_of_sendsAll (hend.trans hmax) h
  refine ⟨_, ?_, bounds_of_encodePayloadFrames hframes, hframes⟩
  rw [List.flatMap_def, map_fst_numbered, hslice]
  exact slice_content hholds hend

end

/-! ## The session of a plan -/

section

variable {ctx : Server.Context} {transfer : TransferSummary} {lanes ioChunkBytes : Nat}
  {runtimeProfile : Option RuntimeProfile} {fileReadPipelineDepth : Option Nat}
  {tuning : RuntimeTuning} {opens : List QuicTransferOpen} {source : PayloadSource}
  {data : List UInt8} {streams : Nat → Option Server.LaneStream}
  (hplan : planOpens transfer lanes ioChunkBytes runtimeProfile fileReadPipelineDepth =
    .ok (tuning, opens))

include hplan

theorem length_opens : opens.length = normalizedLaneCount lanes transfer.fileSizeBytes := by
  obtain ⟨-, -, -, hopens⟩ := of_planOpens hplan
  rw [hopens, List.length_map, List.length_zipIdx, Client.splitRanges_eq, Metra.splitRanges_eq,
    List.length_map, List.length_range]

/-- The open message of each lane. -/
theorem getElem?_opens {i : Nat} (hi : i < opens.length) :
    opens[i]? = some (laneOpen transfer tuning opens.length
      ((laneStart transfer.fileSizeBytes opens.length i,
        laneStart transfer.fileSizeBytes opens.length (i + 1)), i)) := by
  obtain ⟨-, -, -, hopens⟩ := of_planOpens hplan
  rw [length_opens hplan] at hi ⊢
  rw [hopens, List.getElem?_map, List.getElem?_zipIdx, Client.splitRanges_eq,
    getElem?_splitRanges hi]
  simp

theorem sendsLane_of_uploads (huploads : Uploads ctx.crypto source tuning opens streams)
    (hholds : Holds source data) (hlen : data.length = transfer.fileSizeBytes)
    (hmax : data.length ≤ u64Max) {i : Nat} (hi : i < opens.length) :
    ∃ stream, streams i = some stream ∧
      stream.SendsLane ctx.crypto transfer data opens.length i := by
  have hopened := huploads.opened i
  rw [getElem?_opens hplan hi, Option.map_eq_some_iff] at hopened
  obtain ⟨stream, hstream, hrequest⟩ := hopened
  have hend : stream.request.rangeEndExclusive ≤ data.length := by
    rw [hrequest, hlen]
    exact laneStart_le_size hi
  refine ⟨stream, hstream, by rw [hrequest]; rfl, by rw [hrequest]; rfl, by rw [hrequest]; rfl,
    by rw [hrequest]; rfl, by rw [hrequest]; rfl, ?_, tuning.payloadCodec, ?_, fun resume => ?_⟩
  · rw [Client.splitRanges_eq, getElem?_splitRanges hi, hrequest]
    rfl
  · rw [hrequest]
    exact PayloadCodec.fromWire_asWire tuning.payloadCodec
  · by_cases hle : resume ≤ stream.request.rangeEndExclusive
    · obtain ⟨binding, hsends⟩ := huploads.sends i stream hstream resume hle
      obtain ⟨chunks, hslice, hchunks, hframes⟩ := chunks_of_sendsAll hholds hend hmax hsends
      exact ⟨chunks, _, hslice, hchunks, hframes, rfl⟩
    · refine ⟨[], [], ?_, by simp, rfl, huploads.nothing i stream hstream resume (by omega)⟩
      rw [Bytes.slice, Nat.sub_eq_zero_of_le (by omega), List.take_zero]
      rfl

omit hplan in
theorem size_le_of_accepted (haccepted : Accepted transfer) : transfer.fileSizeBytes ≤ u64Max := by
  obtain ⟨payload, id, hvalid, hsame⟩ := haccepted
  have hsize : transfer.fileSizeBytes = payload.fileSizeBytes :=
    congrArg TransferSummary.fileSizeBytes hsame
  obtain ⟨-, -, -, -, hle, -⟩ := CreateTransferRequest.of_validate hvalid
  rw [hsize]
  exact hle.trans (by decide)

/-- **The lanes of a plan make up a session of the server.** -/
theorem session_of_uploads (hcrypto : ctx.crypto.OpensSealed) (haccepted : Accepted transfer)
    (hdisk : Server.isNullSinkUri transfer.destinationUri = false)
    (hstriped : 2 ≤ opens.length) (hlimit : opens.length ≤ transferLanesMax)
    (huploads : Uploads ctx.crypto source tuning opens streams) (hholds : Holds source data)
    (hlen : data.length = transfer.fileSizeBytes) :
    (Server.reliable ctx transfer streams).Session data opens.length where
  size := hlen.symm
  disk := hdisk
  opens := hcrypto
  tenantId := (of_accepted haccepted).2.1
  userId := (of_accepted haccepted).2.2
  striped := hstriped
  le_max := hlimit
  le_size := by
    rw [length_opens hplan, hlen]
    exact (normalizedLaneCount_mem (of_accepted haccepted).1).2
  sends i hi := by
    have hmax : data.length ≤ u64Max := hlen ▸ size_le_of_accepted haccepted
    exact sendsLane_of_uploads hplan huploads hholds hlen hmax hi
  only i hi := by
    have hopened := huploads.opened i
    rwa [List.getElem?_eq_none hi, Option.map_eq_none_iff] at hopened

end

/-! ## The upload -/

/-- The calls of `send_transfer_with_source` when every lane has got its answer: each has ended
well, in whatever order they are joined, with the completion ack that the server has sent it. -/
structure Answers (crypto : AeadCrypto) (source : PayloadSource) (tuning : RuntimeTuning)
    (transfer : TransferSummary) (opens : List QuicTransferOpen) (args : TransferArgs)
    (acks : Nat → Option QuicTransferCompleteAck) (calls : TransferCalls) : Prop where
  prepared : prepareTransfer args calls = .ok (tuning, transfer)
  lanes : ∃ results : List LaneTransferResult,
    List.Forall₂ (LaneEnds crypto source tuning) opens (results.map .ok) ∧
      calls.joined.Perm (results.map .ok) ∧
      ∀ i result, results[i]? = some result →
        acks i = some result.completeAck.toQuicTransferCompleteAck

section

variable {crypto : AeadCrypto} {transfer : TransferSummary} {args : TransferArgs}
  {tuning : RuntimeTuning} {opens : List QuicTransferOpen} {source : PayloadSource}
  {calls : TransferCalls}

/-- What was resumed and what was streamed by lanes that have all ended well. -/
theorem sum_of_ends {results : List LaneTransferResult}
    (hplan : planOpens transfer args.lanes args.ioChunkBytes args.runtimeProfile
      args.fileReadPipelineDepth = .ok (tuning, opens))
    (hsize : transfer.fileSizeBytes ≤ u64Max)
    (hends : List.Forall₂ (LaneEnds crypto source tuning) opens (results.map .ok)) :
    (results.map LaneTransferResult.bytesStreamed).sum +
      (results.map LaneTransferResult.resumedFromBytes).sum = transfer.fileSizeBytes := by
  obtain ⟨-, -, -, hopens⟩ := of_planOpens hplan
  have hmax : ∀ lane ∈ opens, lane.rangeEndExclusive ≤ u64Max := by
    intro lane hlane
    rw [hopens] at hlane
    obtain ⟨i, hi, rfl⟩ := mem_opens.1 hlane
    exact (laneStart_le_size hi).trans hsize
  have hlanes : 0 < normalizedLaneCount args.lanes transfer.fileSizeBytes := by
    simp only [normalizedLaneCount]
    omega
  obtain ⟨-, -, hsum⟩ := sum_covered_le hends hmax
  have hcovered := hsum fun result hmem => by
    obtain ⟨laneResult, -, rfl⟩ := List.mem_map.1 hmem
    exact ⟨laneResult, rfl⟩
  rw [hopens, sum_opens transfer hlanes, List.map_map] at hcovered
  rw [← List.sum_map_add]
  exact hcovered

/-- Lanes that have all ended well are joined as such. -/
theorem exists_joined {joined : List (Except Stop LaneTransferResult)}
    {results : List LaneTransferResult} (h : joined.Perm (results.map .ok)) :
    ∃ results' : List LaneTransferResult, joined = results'.map .ok ∧ results'.Perm results := by
  have hrange : joined ∈
      Set.range (List.map (Except.ok (ε := Stop) (α := LaneTransferResult))) := by
    rw [Set.range_list_map]
    intro result hmem
    obtain ⟨laneResult, -, hresult⟩ := List.mem_map.1 (h.mem_iff.1 hmem)
    exact ⟨laneResult, hresult⟩
  obtain ⟨results', rfl⟩ := hrange
  exact ⟨results', rfl, (List.map_perm_map_iff fun _ _ heq => Except.ok.inj heq).1 h⟩

/-- **The client reports a file that was delivered**: every lane has been told that the transfer
goes on or is completed, and one that it is completed. -/
theorem report_of_acks {F : Type} (ops : FloatOps F)
    (hplan : planOpens transfer args.lanes args.ioChunkBytes args.runtimeProfile
      args.fileReadPipelineDepth = .ok (tuning, opens))
    (hsize : transfer.fileSizeBytes ≤ u64Max) {acks : Nat → Option QuicTransferCompleteAck}
    (htold : ∀ i < opens.length, ∃ ack, acks i = some ack ∧
      (ack.status = .running ∨ ack.status = .completed))
    (hcompleted : ∃ i < opens.length, ∃ ack, acks i = some ack ∧ ack.status = .completed)
    (hanswers : Answers crypto source tuning transfer opens args acks calls) :
    ∃ report, sendTransferWithSource ops args calls = .ok report ∧
      report.finalStatus = "Completed" ∧
      report.resumedFromBytes + report.bytesStreamedThisSession = transfer.fileSizeBytes := by
  obtain ⟨results, hends, hperm, hacks⟩ := hanswers.lanes
  have hlen : results.length = opens.length := by
    rw [hends.length_eq, List.length_map]
  obtain ⟨results', hjoined, hsame⟩ := exists_joined hperm
  have hsum := sum_of_ends hplan hsize hends
  have hstreamed := (hsame.map LaneTransferResult.bytesStreamed).sum_eq
  have hresumed := (hsame.map LaneTransferResult.resumedFromBytes).sum_eq
  -- one lane was told that the transfer is completed, and none that it has failed
  have hstatus : ∀ result ∈ results, result.completeAck.status ≠ .failed := by
    intro result hmem hfailed
    obtain ⟨i, hi, hget⟩ := List.mem_iff_getElem.1 hmem
    obtain ⟨ack, hack, hends⟩ := htold i (hlen ▸ hi)
    rw [hacks i result (by rw [List.getElem?_eq_getElem hi, hget]), Option.some.injEq] at hack
    subst hack
    rw [hfailed] at hends
    simp at hends
  obtain ⟨i, hi, ack, hack, hcompleted⟩ := hcompleted
  have hi' : i < results.length := hlen ▸ hi
  have hget : results[i]? = some results[i] := List.getElem?_eq_getElem hi'
  rw [hacks i _ hget, Option.some.injEq] at hack
  subst hack
  have hanswered : Answered args calls (results'.map LaneTransferResult.completeAck) := by
    refine ⟨⟨_, hanswers.prepared⟩, results', hjoined, ?_, by omega, by omega, rfl⟩
    rintro rfl
    rw [List.nil_perm] at hsame
    rw [hsame] at hlen
    simp only [List.length_nil] at hlen
    omega
  obtain ⟨report, hreport, hiff⟩ := @report_of_answered F ops _ _ _ hanswered
  refine ⟨report, hreport, hiff.2 ⟨⟨_, ?_, hcompleted⟩, ?_⟩, ?_⟩
  · exact List.mem_map_of_mem (hsame.mem_iff.2 (List.mem_of_getElem? hget))
  · intro ack hmem
    obtain ⟨result, hresult, rfl⟩ := List.mem_map.1 hmem
    exact hstatus result (hsame.mem_iff.1 hresult)
  · obtain ⟨prepared, hprepared, hrest⟩ := of_bind_ok hreport
    obtain ⟨⟨streamed, resumed, ack⟩, hjoin, hrest⟩ := of_bind_ok hrest
    have hprovided : ∀ result ∈ calls.joined, Provided result := by
      rw [hjoined]
      intro result hmem stop heq
      obtain ⟨laneResult, -, rfl⟩ := List.mem_map.1 hmem
      cases heq
    have hcovered : (calls.joined.map covered).sum = transfer.fileSizeBytes := by
      rw [hjoined, List.map_map, ← hsum, ← hstreamed, ← hresumed, ← List.sum_map_add]
      rfl
    obtain ⟨-, hsums⟩ := @joinLanes_spec calls.joined 0 0 none hprovided (by omega)
    obtain ⟨-, htotal⟩ := hsums streamed resumed ack hjoin
    cases hrest
    show resumed + streamed = transfer.fileSizeBytes
    omega

end

section

variable {ctx : Server.Context} {transfer : TransferSummary}
  {streams : Nat → Option Server.LaneStream} {data : List UInt8} {lanes : Nat}
  {disk : Server.Disk}
  {cfg : Config Server.Task Server.Op Server.Op.Reply Server.State (Except String Unit)}

/-- **When all lanes have returned, the file is delivered.** -/
theorem deliveredOnce_of_returned
    (hsession : (Server.reliable ctx transfer streams).Session data lanes)
    (hstatus : transfer.status ≠ .completed) (hfresh : disk.Fresh)
    (hvacant : (transfer.immutableDestination || !transfer.overwrite) = true →
      disk.final = none)
    (hreaches : Config.Reaches Server.machine (fun _ _ _ c => c = .ok)
      ⟨Server.start transfer disk, Server.program ctx streams⟩ cfg)
    (hreturned : Server.AllReturned lanes cfg) :
    Server.DeliveredOnce data lanes cfg.shared := by
  obtain ⟨point, hobedient, hflawless⟩ :=
    Server.flawless_of_reaches hsession hstatus hfresh hvacant hreaches
  refine hflawless.deliveredOnce hsession fun i hi => ?_
  obtain ⟨a, ha⟩ := hreturned i hi
  obtain ⟨stream, hstream, -⟩ := hsession.sends i hi
  rcases hobedient.returned ha with hnone | hreleased | ⟨hfaults, -⟩
  · have hnone' : streams i = none := hnone
    rw [show streams i = some stream from hstream] at hnone'
    cases hnone'
  · exact congrArg Server.Point.phase hreleased
  · exact hfaults.elim

/-- A run of a session stops only when all lanes have returned. -/
theorem allReturned_of_stuck
    (hsession : (Server.reliable ctx transfer streams).Session data lanes)
    (hstatus : transfer.status ≠ .completed) (hfresh : disk.Fresh)
    (hvacant : (transfer.immutableDestination || !transfer.overwrite) = true →
      disk.final = none)
    (hreaches : Config.Reaches Server.machine (fun _ _ _ c => c = .ok)
      ⟨Server.start transfer disk, Server.program ctx streams⟩ cfg)
    (hstuck : ∀ t, cfg.step? Server.machine t .ok = none) : Server.AllReturned lanes cfg := by
  obtain ⟨point, hobedient, hflawless⟩ :=
    Server.flawless_of_reaches hsession hstatus hfresh hvacant hreaches
  intro i _
  refine Server.returned_of_stuck hobedient hflawless.base hflawless.steady.others ?_ i
  intro t o k hpool
  have hnone := hstuck t
  have hpool' : cfg.pool t = .act o k := hpool
  simp only [Config.step?, hpool'] at hnone
  exact Option.map_eq_none_iff.1 hnone

end

/-- The open acks that the server is about to send are such that the client goes on. -/
def OpensAccepted (tuning : RuntimeTuning) (streams : Nat → Option Server.LaneStream)
    (cfg : Config Server.Task Server.Op Server.Op.Reply Server.State (Except String Unit)) : Prop :=
  ∀ i stream ack k, streams i = some stream →
    cfg.pool (.handler i) = .act (.sendOpenAck ack) k →
    checkOpenAck stream.request tuning.payloadCodec ack = .ok ()

/-- **The client goes on behind every open ack** that the server sends for a lane of its plan. -/
theorem opensAccepted_of_reaches {ctx : Server.Context} {transfer : TransferSummary}
    {lanes ioChunkBytes : Nat} {runtimeProfile : Option RuntimeProfile}
    {fileReadPipelineDepth : Option Nat} {tuning : RuntimeTuning} {opens : List QuicTransferOpen}
    (hplan : planOpens transfer lanes ioChunkBytes runtimeProfile fileReadPipelineDepth =
      .ok (tuning, opens))
    {source : PayloadSource} {streams : Nat → Option Server.LaneStream}
    (huploads : Uploads ctx.crypto source tuning opens streams)
    {allowed : Server.State → Server.Task → Server.Op → Server.Choice → Prop}
    {start : Server.State}
    {cfg : Config Server.Task Server.Op Server.Op.Reply Server.State (Except String Unit)}
    (hreaches : Config.Reaches Server.machine allowed ⟨start, Server.program ctx streams⟩ cfg) :
    OpensAccepted tuning streams cfg := by
  intro i stream ack k hstream hpool
  have hkind : (cfg.pool (.handler i)).All (Server.Op.Acks stream.request) := by
    refine hreaches.all ?_
    simp only [Server.program, hstream]
    exact Server.handleQuicStream_acks stream
  rw [hpool] at hkind
  have hopened := huploads.opened i
  rw [hstream, Option.map_some] at hopened
  exact checkOpenAck_of_usable hplan (List.mem_of_getElem? hopened.symm) hkind.1

/-- **The file is delivered, and the client reports it.**  For every plan of several lanes for a
transfer that the server has accepted, sent from a file that does not change or from zeros, in
whatever order the tasks of the server take their steps, none of which fails, if there is no
file at the final path that must be kept: the client goes on behind every open ack; a run stops,
and only when all lanes have returned; then the final file is the source, and the client whose
lanes have got their answers reports `Completed`, and as many bytes as the file has. -/
theorem upload_completes {ctx : Server.Context} (hcrypto : ctx.crypto.OpensSealed)
    {transfer : TransferSummary} (haccepted : Accepted transfer)
    (hkept : Server.isNullSinkUri transfer.destinationUri = false)
    (hstatus : transfer.status ≠ .completed) {args : TransferArgs} {tuning : RuntimeTuning}
    {opens : List QuicTransferOpen}
    (hplan : planOpens transfer args.lanes args.ioChunkBytes args.runtimeProfile
      args.fileReadPipelineDepth = .ok (tuning, opens))
    (hstriped : 2 ≤ opens.length) (hlimit : opens.length ≤ transferLanesMax)
    {source : PayloadSource} {data : List UInt8} (hholds : Holds source data)
    (hlen : data.length = transfer.fileSizeBytes) {streams : Nat → Option Server.LaneStream}
    (huploads : Uploads ctx.crypto source tuning opens streams)
    {disk : Server.Disk} (hfresh : disk.Fresh)
    (hvacant : (transfer.immutableDestination || !transfer.overwrite) = true →
      disk.final = none) :
    (∀ cfg, Config.Reaches Server.machine (fun _ _ _ c => c = .ok)
        ⟨Server.start transfer disk, Server.program ctx streams⟩ cfg →
      OpensAccepted tuning streams cfg ∧
      ((∀ t, cfg.step? Server.machine t .ok = none) → Server.AllReturned opens.length cfg) ∧
      (Server.AllReturned opens.length cfg →
        cfg.shared.disk.finalContent = some data ∧
        ∀ {F : Type} (ops : FloatOps F) (calls : TransferCalls),
          Answers ctx.crypto source tuning transfer opens args cfg.shared.acks calls →
          ∃ report, sendTransferWithSource ops args calls = .ok report ∧
            report.finalStatus = "Completed" ∧
            report.resumedFromBytes + report.bytesStreamedThisSession =
              transfer.fileSizeBytes)) ∧
    ∀ f : Nat → Config Server.Task Server.Op Server.Op.Reply Server.State (Except String Unit),
      f 0 = ⟨Server.start transfer disk, Server.program ctx streams⟩ →
      ∃ n, ∀ t c, (f n).step? Server.machine t c ≠ some (f (n + 1)) := by
  have hsession := session_of_uploads hplan hcrypto haccepted hkept hstriped hlimit huploads
    hholds hlen
  refine ⟨fun cfg hreaches => ⟨?_, ?_, fun hreturned => ?_⟩, fun f hf => ?_⟩
  · exact opensAccepted_of_reaches hplan huploads hreaches
  · exact allReturned_of_stuck hsession hstatus hfresh hvacant hreaches
  · have hdelivered := deliveredOnce_of_returned hsession hstatus hfresh hvacant hreaches hreturned
    refine ⟨hdelivered.content, fun ops calls hanswers => ?_⟩
    exact report_of_acks ops hplan (size_le_of_accepted haccepted) hdelivered.acks
      hdelivered.completed hanswers
  · refine Config.exists_stop (f := f) Server.machine fun t
      (ht : t ∉ Server.laneTasks opens.length) => ?_
    rw [hf]
    exact Server.returned_of_not_mem hsession.only ht

namespace SessionSample

/-- Two zeros are sent over two lanes. -/
def transfer : TransferSummary := Server.Scenario.transfer [0, 0] true .queued

/-- Two bytes of zeros over two lanes. -/
def args : TransferArgs := ⟨"generated://zeros/2", false, 2, 2, none, some 1⟩

/-- Chunks of 2 bytes. -/
def tuning : RuntimeTuning where
  payloadCodec := .aeadV1
  effectiveIoChunkBytes := 2
  fileReadPipelineDepth := 1
  sendTransformPipelineDepth := 1
  receiveWritePipelineDepth := 1

/-- The open messages of the lanes. -/
def lane (i : Nat) : QuicTransferOpen := laneOpen transfer tuning 2 ((i, i + 1), i)

/-- The stream of a lane, all writes of which succeed. -/
def stream (i : Nat) : Server.LaneStream where
  request := lane i
  incoming resume := (sendGeneratedLane Sample.crypto
    (sendArgs .generatedZeros tuning (lane i) resume .nil) fun _ => .done 0).2

/-- What the server receives. -/
def streams : List Server.LaneStream := [stream 0, stream 1]

theorem planned : planOpens transfer args.lanes args.ioChunkBytes args.runtimeProfile
    args.fileReadPipelineDepth = .ok (tuning, [lane 0, lane 1]) := rfl

/-- The client whose lanes have got these acks. -/
def calls (acks : Nat → QuicTransferCompleteAck) : TransferCalls where
  status := .ok transfer
  fileLen := .ok 2
  protocolVersion := .ok quicProtocolVersion
  quicAddr := .ok ()
  connection := .ok ()
  joined := [.ok ⟨1, 0, ⟨acks 1, 0⟩⟩, .ok ⟨1, 0, ⟨acks 0, 0⟩⟩]
  elapsedMs := 5

theorem accepted : Accepted transfer :=
  ⟨{ PlanSample.request with fileSizeBytes := 2 }, .nil, by decide +kernel, rfl⟩

/-- Behind the end of its range a lane sends nothing. -/
theorem sends_nothing (args : SendLaneArgs) (hbehind : args.rangeEndExclusive < args.resumeOffset) :
    (sendGeneratedLane Sample.crypto args fun _ => .done 0).2 = [] := by
  rw [sendGeneratedLane, checkedSub, if_neg (Nat.not_le.2 hbehind)]

theorem uploads : Uploads Server.Scenario.ctx.crypto .generatedZeros tuning [lane 0, lane 1]
    fun i => streams[i]? where
  opened i := by
    rcases i with _ | _ | i
    · rfl
    · rfl
    · rfl
  sends i s hs resume hle := by
    refine ⟨.nil, fun _ => .done 0, s.request.rangeEndExclusive - resume, ?_⟩
    rcases i with _ | _ | i
    · obtain rfl := Option.some.inj hs
      have hle' : resume ≤ 1 := hle
      obtain rfl | rfl : resume = 0 ∨ resume = 1 := by omega
      · rfl
      · rfl
    · obtain rfl := Option.some.inj hs
      have hle' : resume ≤ 2 := hle
      obtain rfl | rfl | rfl : resume = 0 ∨ resume = 1 ∨ resume = 2 := by omega
      · rfl
      · rfl
      · rfl
    · cases hs
  nothing i s hs resume hlt := by
    rcases i with _ | _ | i
    · obtain rfl := Option.some.inj hs
      exact sends_nothing _ hlt
    · obtain rfl := Option.some.inj hs
      exact sends_nothing _ hlt
    · cases hs

theorem answers {acks : Nat → QuicTransferCompleteAck}
    {answer : Nat → Option QuicTransferCompleteAck} (hfirst : answer 0 = some (acks 0))
    (hsecond : answer 1 = some (acks 1)) :
    Answers Server.Scenario.ctx.crypto .generatedZeros tuning transfer [lane 0, lane 1] args answer
      (calls acks) where
  prepared := rfl
  lanes := by
    refine ⟨[⟨1, 0, ⟨acks 0, 0⟩⟩, ⟨1, 0, ⟨acks 1, 0⟩⟩], ?_, .swap _ _ [], ?_⟩
    · refine .cons ⟨{ TransferSample.calls 0 1 with completeAck := .ok ⟨acks 0, 0⟩ }, rfl, ?_⟩
        (.cons ⟨{ TransferSample.calls 1 1 with completeAck := .ok ⟨acks 1, 0⟩ }, rfl, ?_⟩ .nil)
      · intro openAck heq _
        cases heq
        exact ⟨.nil, fun _ => .done 0, rfl⟩
      · intro openAck heq _
        cases heq
        exact ⟨.nil, fun _ => .done 0, rfl⟩
    · intro i result hget
      match i, hget with
      | 0, rfl => exact hfirst
      | 1, rfl => exact hsecond

end SessionSample

/-- A file of one byte is at the final path. -/
def SessionSample.occupied : Server.Disk :=
  { Server.Scenario.noFiles with
    inode := fun _ => ⟨[1], [1]⟩
    nextInode := 1
    final := some 0 }

open SessionSample in
/-- Two zeros are delivered over an older file, and reported. -/
theorem upload_completes_zeros :
    ∃ cfg calls report, Config.Reaches Server.machine (fun _ _ _ c => c = .ok)
        (Server.Scenario.server transfer occupied streams) cfg ∧
      cfg.shared.disk.finalContent = some [0, 0] ∧
      sendTransferWithSource exactOps args calls = .ok report ∧
      report.finalStatus = "Completed" := by
  have hrun : ((Server.Scenario.server transfer occupied streams).runIf
      Server.machine (fun _ _ _ c => decide (c = .ok))
      (Server.Scenario.turns [(.handler 0, 17), (.handler 1, 17), (.writer 0, 11),
        (.handler 0, 14), (.writer 1, 11), (.handler 1, 21)])).any
      (fun cfg => (Server.Scenario.returned cfg (.handler 0) && (cfg.shared.acks 0).isSome) &&
        (Server.Scenario.returned cfg (.handler 1) && (cfg.shared.acks 1).isSome)) = true := by
    decide +kernel
  obtain ⟨cfg, hreaches, hended⟩ :=
    Config.reaches_of_runIf_any (fun _ _ _ _ h => of_decide_eq_true h) hrun
  simp only [Bool.and_eq_true] at hended
  obtain ⟨⟨hfirst, hanswer⟩, hsecond, hanswer'⟩ := hended
  have hall : Server.AllReturned 2 cfg := by
    intro i hi
    match i, hi with
    | 0, _ => exact Server.of_returned hfirst
    | 1, _ => exact Server.of_returned hsecond
  have hholds : Holds .generatedZeros [0, 0] := rfl
  have hfresh : occupied.Fresh := by
    refine ⟨rfl, rfl, rfl, fun f hf => ?_⟩
    cases hf
    exact Nat.zero_lt_one
  have hvacant : (transfer.immutableDestination || !transfer.overwrite) = true →
      occupied.final = none := fun hkeeps => by cases hkeeps
  have hupload := upload_completes Sample.crypto_opensSealed accepted (by decide +kernel)
    (by decide) planned (Nat.le_refl 2) (by decide) hholds rfl uploads hfresh hvacant
  obtain ⟨hcontent, hreports⟩ := (hupload.1 cfg hreaches).2.2 hall
  obtain ⟨first, hfirst⟩ := Option.isSome_iff_exists.1 hanswer
  obtain ⟨second, hsecond⟩ := Option.isSome_iff_exists.1 hanswer'
  obtain ⟨report, hreport, hstatus, -⟩ := hreports exactOps
    (calls fun i => if i = 0 then first else second) (answers hfirst hsecond)
  exact ⟨cfg, _, report, hreaches, hcontent, hreport, hstatus⟩

end Metra.EndToEnd
