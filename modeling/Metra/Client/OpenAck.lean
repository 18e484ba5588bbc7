import Metra.Client.Plan
import Metra.Server.Completed
import Metra.Server.OpenAck

/-!
# The ack that a lane starts from

`send_lane` checks the open ack before it sends any payload.

* `checkOpenAck_of_usable` — it accepts every usable ack to an open message of the plan;
* `open_ack_usable` — **whatever the server finds**, an ack that it is about to send is
  usable, and nothing that is computed from its offset overflows.
-/

namespace Metra.Client

open Interleave

/-- The checks of `send_lane` on the ack to its open message. -/
def checkOpenAck (lane : QuicTransferOpen) (payloadCodec : PayloadCodec)
    (openAck : QuicTransferOpenAck) : Except String Unit :=
  if !openAck.ok then
    .error s!"server rejected transfer open for lane {lane.laneIndex}: {openAck.message}"
  else if openAck.resumeOffsetBytes < lane.rangeStart ∨
      openAck.resumeOffsetBytes > lane.rangeEndExclusive then
    .error (s!"invalid resume offset {openAck.resumeOffsetBytes} for lane {lane.laneIndex} " ++
      s!"range {lane.rangeStart}..{lane.rangeEndExclusive}")
  else
    match PayloadCodec.fromWire openAck.payloadCodec with
    | none => .error s!"server returned unsupported payload codec '{openAck.payloadCodec}'"
    | some acknowledgedCodec =>
      if acknowledgedCodec ≠ payloadCodec then
        .error (s!"server payload codec mismatch: requested={payloadCodec.asWire} " ++
          s!"acknowledged={acknowledgedCodec.asWire}")
      else .ok ()

section

variable {transfer : TransferSummary} {lanes ioChunkBytes : Nat}
  {runtimeProfile : Option RuntimeProfile} {fileReadPipelineDepth : Option Nat}
  {tuning : RuntimeTuning} {opens : List QuicTransferOpen} {request : QuicTransferOpen}
  {ack : QuicTransferOpenAck}

/-- The server takes the end of a lane of the plan for what it is. -/
theorem requestedEnd_of_mem_plan (h : planOpens transfer lanes ioChunkBytes runtimeProfile
      fileReadPipelineDepth = .ok (tuning, opens)) (hmem : request ∈ opens) :
    Server.requestedEnd request = request.rangeEndExclusive ∧
      request.payloadCodec = tuning.payloadCodec.asWire := by
  obtain ⟨-, -, -, rfl⟩ := of_planOpens h
  obtain ⟨i, hi, rfl⟩ := mem_opens.1 hmem
  refine ⟨?_, rfl⟩
  rcases Nat.eq_zero_or_pos transfer.fileSizeBytes with hzero | hpos
  · -- the only lane of an empty file ends at 0
    have hend : laneStart transfer.fileSizeBytes
        (normalizedLaneCount lanes transfer.fileSizeBytes) (i + 1) = 0 := by
      have hle := @laneStart_le_size transfer.fileSizeBytes _ (i + 1) hi
      rw [hzero] at hle ⊢
      exact Nat.le_zero.1 hle
    rw [Server.requestedEnd]
    split
    · exact hzero.trans hend.symm
    · rfl
  · exact requestedEnd_laneOpen hi (normalizedLaneCount_mem hpos).2

/-- **The client accepts every usable ack** to an open message of its plan. -/
theorem checkOpenAck_of_usable (h : planOpens transfer lanes ioChunkBytes runtimeProfile
      fileReadPipelineDepth = .ok (tuning, opens)) (hmem : request ∈ opens)
    (hack : Server.UsableAck request ack) :
    checkOpenAck request tuning.payloadCodec ack = .ok () := by
  obtain ⟨hend, hcodec⟩ := requestedEnd_of_mem_plan h hmem
  obtain ⟨codec, hrequested, hacknowledged⟩ := hack.payloadCodec
  rw [hcodec, PayloadCodec.fromWire_asWire] at hrequested
  cases hrequested
  have hstart := hack.rangeStart_le
  have hle := hack.le_rangeEnd
  rw [hend] at hle
  have hfits : ¬ (ack.resumeOffsetBytes < request.rangeStart ∨
      ack.resumeOffsetBytes > request.rangeEndExclusive) := by omega
  rw [checkOpenAck, hack.ok, hacknowledged, PayloadCodec.fromWire_asWire, if_neg (by simp),
    if_neg hfits]
  exact if_neg fun hne => hne rfl

end

/-- **Every open ack is usable**, whatever the server has stored and finds on disk: its offset
lies in the range of the lane, what is received from there ends where the range ends, the
offsets of the lane are clamped to the range that was asked for, and the client goes on. -/
theorem open_ack_usable {ctx : Server.Context} {streams : Nat → Option Server.LaneStream}
    {s : Server.State} {cfg : Config Server.Task Server.Op Server.Op.Reply Server.State
      (Except String Unit)} {i : Nat} {stream : Server.LaneStream} {ack : QuicTransferOpenAck}
    {k : Option Unit → Prog Server.Op Server.Op.Reply (Except String Unit)}
    (h : Config.Reaches Server.machine (fun _ _ _ _ => True) ⟨s, Server.program ctx streams⟩ cfg)
    (hstream : streams i = some stream)
    (hpool : cfg.pool (.handler i) = .act (.sendOpenAck ack) k) :
    Server.UsableAck stream.request ack ∧
    (∀ admission, Server.admitRequest stream.request = .ok admission →
      (stream.receipt ctx admission ack.resumeOffsetBytes).chunks.flatten.length ≤
          admission.rangeEndExclusive - ack.resumeOffsetBytes ∧
        ∀ discardPayload written,
          (Server.receivePayload ctx stream admission discardPayload
            ack.resumeOffsetBytes).toProg.MayReturn (.ok written) →
          ack.resumeOffsetBytes + written = Server.requestedEnd stream.request) ∧
    (∀ c c' : TransferCheckpoint, ∀ fileSizeBytes totalLanes,
      c.validateLayout fileSizeBytes totalLanes stream.request.rangeStart
        (Server.requestedEnd stream.request) stream.request.laneIndex = .ok () →
      Relation.ReflTransGen TransferCheckpoint.Touches c c' →
      ∃ lane, c'.lane? stream.request.laneIndex = some lane ∧
        lane.rangeStart = stream.request.rangeStart ∧
        lane.rangeEndExclusive = Server.requestedEnd stream.request ∧
        lane.rangeStart ≤ lane.rangeEndExclusive) ∧
    ∀ transfer lanes ioChunkBytes runtimeProfile fileReadPipelineDepth tuning opens,
      planOpens transfer lanes ioChunkBytes runtimeProfile fileReadPipelineDepth =
        .ok (tuning, opens) → stream.request ∈ opens →
      checkOpenAck stream.request tuning.payloadCodec ack = .ok () := by
  have hkind : (cfg.pool (.handler i)).All (Server.Op.Acks stream.request) := by
    refine h.all ?_
    simp only [Server.program, hstream]
    exact Server.handleQuicStream_acks stream
  rw [hpool] at hkind
  have hack : Server.UsableAck stream.request ack := hkind.1
  refine ⟨hack, ?_, ?_, ?_⟩
  · intro admission hrequest
    refine ⟨length_receiveLane_le _, ?_⟩
    intro discardPayload written hwritten
    exact Server.resume_add_received hrequest hack.le_rangeEnd hwritten
  · intro c c' fileSizeBytes totalLanes hlayout htouched
    have hle := hack.rangeStart_le.trans hack.le_rangeEnd
    obtain ⟨lane, hlane, hstart, hend⟩ :=
      TransferCheckpoint.range_of_touched (TransferCheckpoint.of_validateLayout hlayout).2.2
        htouched
    exact ⟨lane, hlane, hstart, hend, by omega⟩
  · intro transfer lanes ioChunkBytes runtimeProfile depth tuning opens hplan hmem
    exact checkOpenAck_of_usable hplan hmem hack

/-! ## Samples -/

/-- The operation sends an open ack. -/
def sendsOpenAck : Server.Op → Bool
  | .sendOpenAck _ => true
  | _ => false

open Server.Scenario in
/-- The second of two lanes is about to be accepted. -/
theorem open_ack_usable_second :
    ∃ cfg ack k, Config.Reaches Server.machine (fun _ _ _ _ => True)
        (server (transfer [7, 8] true .queued) noFiles [lane [7, 8] 2 0, lane [7, 8] 2 1]) cfg ∧
      cfg.pool (.handler 1) = .act (.sendOpenAck ack) k ∧
      Server.UsableAck (lane [7, 8] 2 1).request ack := by
  have hrun : ((server (transfer [7, 8] true .queued) noFiles
      [lane [7, 8] 2 0, lane [7, 8] 2 1]).runIf Server.machine (fun _ _ _ _ => true)
        (turns [(.handler 1, 14)])).any (Config.nextIs sendsOpenAck (.handler 1)) = true := by
    decide +kernel
  obtain ⟨cfg, hto, hnext⟩ :=
    Config.reaches_of_runIf_any (fun _ _ _ _ _ => trivial) hrun
  obtain ⟨o, k, hpool, ho⟩ := Config.of_nextIs hnext
  obtain ⟨ack, rfl⟩ : ∃ ack, o = .sendOpenAck ack := by
    cases o <;> first | exact ⟨_, rfl⟩ | cases ho
  exact ⟨cfg, ack, k, hto, hpool, (open_ack_usable hto rfl hpool).1⟩

end Metra.Client
