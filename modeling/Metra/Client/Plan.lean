import Metra.Api
import Metra.Receive.Upload
import Metra.Server.Stream

/-!
# The client's plan of an upload

How `send_transfer_with_source` divides a transfer among lanes, the open message it
sends for each, and the chunks that it makes frames of.

* `resolveRuntimeTuning`, `normalizedLaneCount` and `planOpens` — the plan;
* `ReadsChunks` and `generatedChunks` — what becomes of a lane's bytes, read from a file
  with reads of any length that a read may have, or generated;
* `plan_admissible_iff` — the server accepts the whole plan **exactly when it has no more
  lanes than the server's limit, and no generated chunk is too long for a frame**.
-/

namespace Metra.Client

/-! ## Tuning -/

/-- The chunk size where none is given. -/
def defaultIoChunkBytes : Nat := 8 * 1024 * 1024

/-- How many chunks are read ahead where nothing else is said. -/
def defaultFileReadPipelineDepth : Nat := 4

/-- The depth that is asked of the server where nothing else is said. -/
def appReceiveWritePipelineDepthDefault : Nat := 4

/-- The profiles that a transfer may be sent with. -/
inductive RuntimeProfile
  | balanced
  | throughput
  | lowCpu
  deriving DecidableEq

/-- What a profile stands for. -/
structure RuntimePreset where
  ioChunkBytes : Nat
  fileReadPipelineDepth : Nat
  sendTransformPipelineDepth : Nat
  receiveWritePipelineDepth : Nat
  payloadCodec : PayloadCodec

/-- The presets of the profiles. -/
def runtimePreset : RuntimeProfile → RuntimePreset
  | .balanced => ⟨defaultIoChunkBytes, 4, 4, 4, .aeadV1⟩
  | .throughput => ⟨32 * 1024 * 1024, 10, 12, 8, .aeadV1⟩
  | .lowCpu => ⟨4 * 1024 * 1024, 2, 2, 2, .rawV1⟩

/-- How a transfer is sent: the codec, the chunk size and the depths of the queues. -/
structure RuntimeTuning where
  payloadCodec : PayloadCodec
  effectiveIoChunkBytes : Nat
  fileReadPipelineDepth : Nat
  sendTransformPipelineDepth : Nat
  receiveWritePipelineDepth : Nat

/-- A requested chunk size other than the default one goes before the preset. -/
def effectiveIoChunkBytes (preset : Option RuntimePreset) (requested : Nat) : Nat :=
  match preset with
  | some preset => if requested = defaultIoChunkBytes then preset.ioChunkBytes else requested
  | none => requested

/-- The tuning of a transfer: what was asked for, else what the profile has, else the defaults. -/
def resolveRuntimeTuning (runtimeProfile : Option RuntimeProfile) (requestedIoChunkBytes : Nat)
    (requestedFileReadPipelineDepth : Option Nat) : Except String RuntimeTuning :=
  if requestedIoChunkBytes = 0 then .error "io_chunk_bytes must be > 0"
  else if requestedFileReadPipelineDepth = some 0 then
    .error "file_read_pipeline_depth must be > 0"
  else
    let preset := runtimeProfile.map runtimePreset
    let fileReadPipelineDepth := requestedFileReadPipelineDepth.getD
      ((preset.map RuntimePreset.fileReadPipelineDepth).getD defaultFileReadPipelineDepth)
    .ok
      { payloadCodec := (preset.map RuntimePreset.payloadCodec).getD .aeadV1
        effectiveIoChunkBytes := effectiveIoChunkBytes preset requestedIoChunkBytes
        fileReadPipelineDepth := fileReadPipelineDepth
        sendTransformPipelineDepth :=
          if requestedFileReadPipelineDepth.isSome then fileReadPipelineDepth
          else (preset.map RuntimePreset.sendTransformPipelineDepth).getD fileReadPipelineDepth
        receiveWritePipelineDepth :=
          normalizeReceiveWritePipelineDepth
            (if requestedFileReadPipelineDepth.isSome then fileReadPipelineDepth
            else (preset.map RuntimePreset.receiveWritePipelineDepth).getD
              appReceiveWritePipelineDepthDefault) }

/-! ## Lanes -/

/-- The greatest lane count that goes into an open message. -/
def u32Max : Nat := 2 ^ 32 - 1

/-- `u32::try_from(file_size_bytes).unwrap_or(u32::MAX)` bounds the lanes. -/
def normalizedLaneCount (lanes fileSizeBytes : Nat) : Nat :=
  let upper := max (if fileSizeBytes ≤ u32Max then fileSizeBytes else u32Max) 1
  min (max lanes 1) upper

/-- The open message of `send_lane`. -/
def laneOpen (transfer : TransferSummary) (tuning : RuntimeTuning) (lanes : Nat)
    (lane : (Nat × Nat) × Nat) : QuicTransferOpen where
  transferId := transfer.transferId
  fileSizeBytes := transfer.fileSizeBytes
  fileName := transfer.fileName
  resumeChunkSizeBytes := transfer.resumeChunkSizeBytes
  laneIndex := lane.2
  totalLanes := lanes
  rangeStart := lane.1.1
  rangeEndExclusive := lane.1.2
  payloadCodec := tuning.payloadCodec.asWire
  receiveWritePipelineDepth := tuning.receiveWritePipelineDepth

/-- What `send_transfer_with_source` makes of its arguments and of the transfer, before it
opens any stream. -/
def planOpens (transfer : TransferSummary) (lanes ioChunkBytes : Nat)
    (runtimeProfile : Option RuntimeProfile) (fileReadPipelineDepth : Option Nat) :
    Except String (RuntimeTuning × List QuicTransferOpen) :=
  if lanes = 0 then .error "lanes must be > 0"
  else do
    let tuning ← resolveRuntimeTuning runtimeProfile ioChunkBytes fileReadPipelineDepth
    let lanes := normalizedLaneCount lanes transfer.fileSizeBytes
    return (tuning,
      (splitRanges transfer.fileSizeBytes lanes).zipIdx.map (laneOpen transfer tuning lanes))

/-! ## Chunks -/

/-- Where the bytes come from: for each lane what it finds in the file, or zeros. -/
inductive PayloadSource
  | file (contents : Nat → List UInt8)
  | generatedZeros

/-- However long the buffer, a `read` of a file gives no more. -/
def fileReadMaxBytes : Nat := 2 * 1024 * 1024

/-- The chunks that the reader of a file lane hands on: what each `read` into a buffer of
the chunk size, or of what is left of it, gives, until all is read or reading fails. -/
inductive ReadsChunks (ioChunkBytes : Nat) : List UInt8 → List (List UInt8) → Prop
  | stop (bytes : List UInt8) : ReadsChunks ioChunkBytes bytes []
  | read {chunk bytes : List UInt8} {chunks : List (List UInt8)} (hpos : 0 < chunk.length)
      (hle : chunk.length ≤ min ioChunkBytes fileReadMaxBytes)
      (rest : ReadsChunks ioChunkBytes bytes chunks) :
      ReadsChunks ioChunkBytes (chunk ++ bytes) (chunk :: chunks)

/-- The chunks of a generated lane, with `fuel` turns of the loop. -/
def generatedChunks (ioChunkBytes : Nat) : (fuel remaining : Nat) → List (List UInt8)
  | 0, _ => []
  | fuel + 1, remaining =>
    if remaining > 0 then
      List.replicate (min remaining ioChunkBytes) 0 ::
        generatedChunks ioChunkBytes fuel (remaining - min remaining ioChunkBytes)
    else []

/-- The chunks that the sender of a lane makes frames of, from `resume` on. -/
def LaneChunks (source : PayloadSource) (ioChunkBytes laneIndex resume rangeEndExclusive : Nat)
    (chunks : List (List UInt8)) : Prop :=
  match source with
  | .file contents =>
    ReadsChunks ioChunkBytes (Bytes.slice (contents laneIndex) resume rangeEndExclusive) chunks
  | .generatedZeros =>
    chunks = generatedChunks ioChunkBytes (rangeEndExclusive - resume) (rangeEndExclusive - resume)

/-! ## What the server makes of the plan -/

/-- A transfer that the server has accepted, whatever has become of it. -/
def Accepted (transfer : TransferSummary) : Prop :=
  ∃ payload : CreateTransferRequest, ∃ id, payload.validate = .ok () ∧
    Server.SameTransfer (payload.summary id) transfer

/-- The server admits the open message, with a fresh checkpoint if it is one of several. -/
structure Admits (transfer : TransferSummary) (request : QuicTransferOpen) : Prop where
  admitted : ∃ admission, Server.admitRequest request = .ok admission
  matching : Server.matchTransfer request transfer = .ok ()
  layout : Server.isStriped request = true →
    (newCheckpoint transfer.transferId transfer.fileSizeBytes
      (Server.requestedLanes request)).validateLayout transfer.fileSizeBytes
        (Server.requestedLanes request) request.rangeStart (Server.requestedEnd request)
        request.laneIndex = .ok ()

/-- Every frame of the lane, wherever it resumes, is one that `encode_payload_frame`
accepts. -/
def FramesAccepted (crypto : AeadCrypto) (source : PayloadSource) (tuning : RuntimeTuning)
    (request : QuicTransferOpen) : Prop :=
  ∀ (resume : Nat) (chunks : List (List UInt8)),
    request.rangeStart ≤ resume → resume ≤ request.rangeEndExclusive →
    LaneChunks source tuning.effectiveIoChunkBytes request.laneIndex resume
      request.rangeEndExclusive chunks →
    ∀ chunk ∈ chunks, ∀ nonce, ∃ frame,
      encodePayloadFrame crypto tuning.payloadCodec chunk nonce
        (laneCodec crypto tuning.payloadCodec request.transferId request.laneIndex) = .ok frame

/-- The server and the frame codec accept all of the plan. -/
def PlanAdmissible (crypto : AeadCrypto) (source : PayloadSource) (transfer : TransferSummary)
    (tuning : RuntimeTuning) (opens : List QuicTransferOpen) : Prop :=
  ∀ request ∈ opens, Admits transfer request ∧ FramesAccepted crypto source tuning request

section

variable {crypto : AeadCrypto} {transfer : TransferSummary} {lanes ioChunkBytes size : Nat}
  {runtimeProfile : Option RuntimeProfile} {fileReadPipelineDepth : Option Nat}
  {tuning : RuntimeTuning} {opens : List QuicTransferOpen}

theorem of_planOpens (h : planOpens transfer lanes ioChunkBytes runtimeProfile
      fileReadPipelineDepth = .ok (tuning, opens)) :
    0 < lanes ∧ 0 < ioChunkBytes ∧
      tuning.effectiveIoChunkBytes =
        effectiveIoChunkBytes (runtimeProfile.map runtimePreset) ioChunkBytes ∧
      opens = (splitRanges transfer.fileSizeBytes
        (normalizedLaneCount lanes transfer.fileSizeBytes)).zipIdx.map
          (laneOpen transfer tuning (normalizedLaneCount lanes transfer.fileSizeBytes)) := by
  unfold planOpens resolveRuntimeTuning at h
  split at h
  · cases h
  rename_i hlanes
  split at h
  · cases h
  rename_i hchunk
  split at h
  · cases h
  cases h
  exact ⟨by omega, by omega, rfl, rfl⟩

/-- The presets' chunks fit a frame, so that it is the requested size that matters. -/
theorem effectiveIoChunkBytes_le_iff (hpos : 0 < ioChunkBytes) :
    (effectiveIoChunkBytes (runtimeProfile.map runtimePreset) ioChunkBytes ≤
      appPayloadMaxPlaintextBytes ↔ ioChunkBytes ≤ appPayloadMaxPlaintextBytes) ∧
    0 < effectiveIoChunkBytes (runtimeProfile.map runtimePreset) ioChunkBytes := by
  unfold effectiveIoChunkBytes
  split
  · rename_i preset hpreset
    obtain ⟨profile, -, rfl⟩ := Option.map_eq_some_iff.1 hpreset
    split
    · rename_i heq
      subst heq
      cases profile <;> decide
    · exact ⟨Iff.rfl, hpos⟩
  · exact ⟨Iff.rfl, hpos⟩

theorem normalizedLaneCount_mem (hsize : 0 < size) :
    0 < normalizedLaneCount lanes size ∧ normalizedLaneCount lanes size ≤ size := by
  by_cases h : size ≤ u32Max
  · simp only [normalizedLaneCount, if_pos h]
    omega
  · simp only [normalizedLaneCount, if_neg h]
    have : 0 < u32Max := by decide
    omega

theorem normalizedLaneCount_le_iff (hlanes : 0 < lanes) (hsize : 0 < size) :
    normalizedLaneCount lanes size ≤ transferLanesMax ↔ min lanes size ≤ transferLanesMax := by
  have hmax : transferLanesMax < u32Max := by decide
  by_cases h : size ≤ u32Max
  · simp only [normalizedLaneCount, if_pos h]
    omega
  · simp only [normalizedLaneCount, if_neg h]
    omega

/-- The open messages of the plan, lane by lane. -/
theorem mem_opens {request : QuicTransferOpen} :
    request ∈ (splitRanges size lanes).zipIdx.map (laneOpen transfer tuning lanes) ↔
      ∃ i < lanes, request = laneOpen transfer tuning lanes
        ((laneStart size lanes i, laneStart size lanes (i + 1)), i) := by
  rw [Client.splitRanges_eq]
  constructor
  · intro h
    obtain ⟨⟨range, i⟩, hmem, rfl⟩ := List.mem_map.1 h
    have hget := List.mem_zipIdx_iff_getElem?.1 hmem
    have hi : i < lanes := by
      by_contra hge
      rw [List.getElem?_eq_none (by simpa using hge)] at hget
      cases hget
    rw [getElem?_splitRanges hi] at hget
    exact ⟨i, hi, by rw [Option.some.inj hget]⟩
  · rintro ⟨i, hi, rfl⟩
    exact List.mem_map_of_mem (List.mem_zipIdx_iff_getElem?.2 (getElem?_splitRanges hi))

/-! ## Admission -/

theorem of_accepted (haccepted : Accepted transfer) :
    0 < transfer.fileSizeBytes ∧ isValidStorageIdSegment transfer.tenantId = true ∧
      isValidStorageIdSegment transfer.userId = true := by
  obtain ⟨payload, id, hvalid, hsame⟩ := haccepted
  obtain ⟨htenant, huser, -, hpos, -, -⟩ := CreateTransferRequest.of_validate hvalid
  have hsize : transfer.fileSizeBytes = payload.fileSizeBytes :=
    congrArg TransferSummary.fileSizeBytes hsame
  have htenantId : transfer.tenantId = payload.tenantId := congrArg TransferSummary.tenantId hsame
  have huserId : transfer.userId = payload.userId := congrArg TransferSummary.userId hsame
  rw [hsize, htenantId, huserId]
  exact ⟨hpos, htenant, huser⟩

section Lane

variable {i : Nat} (hi : i < lanes) (hlanes : lanes ≤ transfer.fileSizeBytes)

include hi hlanes

/-- A lane is not empty, so that its end is not taken for a missing one. -/
theorem requestedEnd_laneOpen :
    Server.requestedEnd (laneOpen transfer tuning lanes
      ((laneStart transfer.fileSizeBytes lanes i, laneStart transfer.fileSizeBytes lanes (i + 1)),
        i)) = laneStart transfer.fileSizeBytes lanes (i + 1) := by
  have hlt := laneStart_lt_succ hlanes hi
  exact if_neg (by show ¬ laneStart transfer.fileSizeBytes lanes (i + 1) = 0; omega)

/-- **The open messages are admitted** when there are no more of them than the server's
limit. -/
theorem admits_laneOpen (haccepted : Accepted transfer) (hmax : lanes ≤ transferLanesMax) :
    Admits transfer (laneOpen transfer tuning lanes
      ((laneStart transfer.fileSizeBytes lanes i, laneStart transfer.fileSizeBytes lanes (i + 1)),
        i)) := by
  have hlt := laneStart_lt_succ hlanes hi
  have hle : laneStart transfer.fileSizeBytes lanes (i + 1) ≤ transfer.fileSizeBytes :=
    laneStart_le_size (by omega)
  set request := laneOpen transfer tuning lanes
    ((laneStart transfer.fileSizeBytes lanes i, laneStart transfer.fileSizeBytes lanes (i + 1)), i)
    with hrequest
  have hend : Server.requestedEnd request = laneStart transfer.fileSizeBytes lanes (i + 1) :=
    requestedEnd_laneOpen hi hlanes
  have htotal : Server.requestedLanes request = lanes := by
    show max lanes 1 = lanes
    omega
  have hindex : request.laneIndex = i := rfl
  have hstart : request.rangeStart = laneStart transfer.fileSizeBytes lanes i := rfl
  have hsize : request.fileSizeBytes = transfer.fileSizeBytes := rfl
  have hcodec : PayloadCodec.fromWire request.payloadCodec = some tuning.payloadCodec :=
    PayloadCodec.fromWire_asWire tuning.payloadCodec
  refine ⟨?_, ?_, ?_⟩
  · rw [Server.admitRequest, if_neg (by omega), if_neg (by omega), if_neg (by omega), hcodec]
    exact ⟨_, rfl⟩
  · obtain ⟨-, htenant, huser⟩ := of_accepted haccepted
    simp [Server.matchTransfer, hrequest, laneOpen, htenant, huser]
  · intro _
    rw [htotal, hend, TransferCheckpoint.newCheckpoint_eq]
    exact TransferCheckpoint.validateLayout_ofOffsets hi

end Lane

/-- More lanes than the limit are not admitted. -/
theorem not_admits_laneOpen (hmax : transferLanesMax < lanes) {lane : (Nat × Nat) × Nat} :
    ¬ Admits transfer (laneOpen transfer tuning lanes lane) := by
  rintro ⟨⟨admission, hadmitted⟩, -, -⟩
  rw [Server.admitRequest, if_pos] at hadmitted
  · cases hadmitted
  · show max lanes 1 > transferLanesMax
    omega

/-! ## Frames -/

/-- No chunk is empty, and none is longer than a read may give. -/
theorem ReadsChunks.length {bytes : List UInt8} {chunks : List (List UInt8)}
    (h : ReadsChunks ioChunkBytes bytes chunks) :
    ∀ chunk ∈ chunks, 0 < chunk.length ∧ chunk.length ≤ min ioChunkBytes fileReadMaxBytes := by
  induction h with
  | stop bytes => intro chunk hmem; cases hmem
  | read hpos hle rest ih =>
    intro chunk hmem
    rcases List.mem_cons.1 hmem with rfl | hmem
    · exact ⟨hpos, hle⟩
    · exact ih chunk hmem

theorem length_generatedChunks (hio : 0 < ioChunkBytes) {fuel remaining : Nat} :
    ∀ chunk ∈ generatedChunks ioChunkBytes fuel remaining,
      0 < chunk.length ∧ chunk.length ≤ min ioChunkBytes remaining := by
  induction fuel generalizing remaining with
  | zero => intro chunk hmem; cases hmem
  | succ fuel ih =>
    intro chunk hmem
    rw [generatedChunks] at hmem
    split at hmem
    · rcases List.mem_cons.1 hmem with rfl | hmem
      · rw [List.length_replicate]
        omega
      · obtain ⟨hpos, hle⟩ := ih chunk hmem
        exact ⟨hpos, by omega⟩
    · cases hmem

/-- Only a chunk that is not empty and fits is made a frame of. -/
theorem of_encodePayloadFrame {payloadCodec : PayloadCodec} {lane : Option AeadLaneCodec}
    {chunk frame : List UInt8} {nonce : Nonce}
    (hframe : encodePayloadFrame crypto payloadCodec chunk nonce lane = .ok frame) :
    0 < chunk.length ∧ chunk.length ≤ appPayloadMaxPlaintextBytes := by
  simp only [encodePayloadFrame, bind, Except.bind] at hframe
  split at hframe
  · cases hframe
  unfold encodePayloadFrameHeader at hframe
  by_contra hbad
  by_cases hzero : chunk.length = 0
  · simp [hzero] at hframe
  · rw [if_neg hzero, if_pos (by omega)] at hframe
    cases hframe

/-- A chunk is made a frame of exactly when it is not empty and fits. -/
theorem encodePayloadFrame_ok_iff (hcrypto : crypto.OpensSealed) {payloadCodec : PayloadCodec}
    {transferId : Uuid} {laneIndex : Nat} {chunk : List UInt8} {nonce : Nonce} :
    (∃ frame, encodePayloadFrame crypto payloadCodec chunk nonce
        (laneCodec crypto payloadCodec transferId laneIndex) = .ok frame) ↔
      0 < chunk.length ∧ chunk.length ≤ appPayloadMaxPlaintextBytes := by
  constructor
  · rintro ⟨frame, hframe⟩
    exact of_encodePayloadFrame hframe
  · rintro ⟨hpos, hmax⟩
    obtain ⟨wirePayload, hframe, -⟩ :=
      encodePayloadFrame_spec payloadCodec transferId laneIndex hcrypto nonce hpos hmax
    exact ⟨_, hframe⟩

/-- The frames of a file lane are always accepted: no read is longer than fits. -/
theorem framesAccepted_file (hcrypto : crypto.OpensSealed) (contents : Nat → List UInt8)
    (request : QuicTransferOpen) : FramesAccepted crypto (.file contents) tuning request := by
  intro resume chunks _ _ hread chunk hmem nonce
  obtain ⟨hpos, hle⟩ := ReadsChunks.length hread chunk hmem
  have hread : fileReadMaxBytes ≤ appPayloadMaxPlaintextBytes := by decide
  exact (encodePayloadFrame_ok_iff hcrypto).2 ⟨hpos, by omega⟩

/-- **The frames of a generated lane are accepted exactly when its chunks fit**: the chunk size
does, or the whole lane does. -/
theorem framesAccepted_generated_iff (hcrypto : crypto.OpensSealed) {request : QuicTransferOpen}
    (hio : 0 < tuning.effectiveIoChunkBytes) :
    FramesAccepted crypto .generatedZeros tuning request ↔
      tuning.effectiveIoChunkBytes ≤ appPayloadMaxPlaintextBytes ∨
        request.rangeEndExclusive - request.rangeStart ≤ appPayloadMaxPlaintextBytes := by
  constructor
  · intro h
    by_contra hlong
    obtain ⟨hchunk, hlane⟩ := not_or.1 hlong
    -- the first chunk of the lane, from its start
    obtain ⟨fuel, hfuel⟩ :=
      Nat.exists_eq_succ_of_ne_zero (n := request.rangeEndExclusive - request.rangeStart) (by omega)
    have hframe := h request.rangeStart _ le_rfl (by omega) rfl
      (List.replicate (min (request.rangeEndExclusive - request.rangeStart)
        tuning.effectiveIoChunkBytes) 0)
      (by
        rw [hfuel, generatedChunks, if_pos (Nat.succ_pos fuel)]
        exact List.mem_cons_self)
      ⟨List.replicate 12 0, rfl⟩
    have hle := ((encodePayloadFrame_ok_iff hcrypto).1 hframe).2
    rw [List.length_replicate] at hle
    omega
  · intro hfits resume chunks hstart hresume hchunks chunk hmem nonce
    subst hchunks
    have hlength := length_generatedChunks hio chunk hmem
    exact (encodePayloadFrame_ok_iff hcrypto).2 (by omega)

/-- No lane is longer than the first. -/
theorem laneLen_le_first {i : Nat} :
    laneStart size lanes (i + 1) - laneStart size lanes i ≤ laneStart size lanes 1 := by
  have hfirst := laneStart_succ size lanes 0
  have hlane := laneStart_succ size lanes i
  rw [laneStart_zero, Nat.zero_add] at hfirst
  split at hlane <;> split at hfirst <;> omega

/-! ## The plan -/

/-- **The server accepts the client's plan exactly when** the lanes, at most one for each
byte, are no more than its limit, and no generated chunk is too long for a frame: the requested
chunk size is not, or the first lane, the longest, is not. -/
theorem plan_admissible_iff (hcrypto : crypto.OpensSealed) (haccepted : Accepted transfer)
    (hplan : planOpens transfer lanes ioChunkBytes runtimeProfile fileReadPipelineDepth =
      .ok (tuning, opens)) (source : PayloadSource) :
    PlanAdmissible crypto source transfer tuning opens ↔
      min lanes transfer.fileSizeBytes ≤ transferLanesMax ∧
        (source = .generatedZeros → ioChunkBytes ≤ appPayloadMaxPlaintextBytes ∨
          laneStart transfer.fileSizeBytes (normalizedLaneCount lanes transfer.fileSizeBytes) 1 ≤
            appPayloadMaxPlaintextBytes) := by
  obtain ⟨hlanes, hio, htuning, rfl⟩ := of_planOpens hplan
  obtain ⟨hsize, -, -⟩ := of_accepted haccepted
  have hcount : 0 < normalizedLaneCount lanes transfer.fileSizeBytes ∧
      normalizedLaneCount lanes transfer.fileSizeBytes ≤ transfer.fileSizeBytes :=
    normalizedLaneCount_mem hsize
  have hchunk : (tuning.effectiveIoChunkBytes ≤ appPayloadMaxPlaintextBytes ↔
      ioChunkBytes ≤ appPayloadMaxPlaintextBytes) ∧ 0 < tuning.effectiveIoChunkBytes := by
    rw [htuning]
    exact effectiveIoChunkBytes_le_iff hio
  rw [← normalizedLaneCount_le_iff hlanes hsize, ← hchunk.1]
  generalize normalizedLaneCount lanes transfer.fileSizeBytes = count at *
  have hframes : ∀ i, FramesAccepted crypto .generatedZeros tuning
      (laneOpen transfer tuning count ((laneStart transfer.fileSizeBytes count i,
        laneStart transfer.fileSizeBytes count (i + 1)), i)) ↔ _ :=
    fun i => framesAccepted_generated_iff hcrypto hchunk.2
  constructor
  · intro h
    obtain ⟨hadmits, haccepts⟩ := h _ (mem_opens.2 ⟨0, hcount.1, rfl⟩)
    refine ⟨?_, fun hsource => ?_⟩
    · by_contra hmax
      exact not_admits_laneOpen (by omega) hadmits
    · rw [hsource] at haccepts
      have := (hframes 0).1 haccepts
      simpa [laneOpen] using this
  · rintro ⟨hmax, hfits⟩ request hmem
    obtain ⟨i, hi, rfl⟩ := mem_opens.1 hmem
    refine ⟨admits_laneOpen hi hcount.2 haccepted hmax, ?_⟩
    cases source with
    | file contents => exact framesAccepted_file hcrypto contents _
    | generatedZeros =>
      exact (hframes i).2 ((hfits rfl).imp_right fun h => le_trans laneLen_le_first h)

end

namespace PlanSample

/-- A request for 100 bytes. -/
def request : CreateTransferRequest where
  tenantId := "t"
  userId := "u"
  sourceUri := "file:///a.bin"
  destinationUri := "file:///a.bin"
  fileName := "a.bin"
  fileSizeBytes := 100
  resumeChunkSizeBytes := resumeChunkSizeBytes
  overwrite := true
  immutableDestination := false

/-- The transfer that it creates. -/
def transfer : TransferSummary := request.summary .nil

theorem accepted : Accepted transfer := ⟨request, _, by decide +kernel, rfl⟩

/-- The same for 66 MiB. -/
def largeRequest : CreateTransferRequest := { request with fileSizeBytes := 66 * 1024 * 1024 }

/-- The transfer of a large file. -/
def large : TransferSummary := largeRequest.summary .nil

end PlanSample

open PlanSample in
/-- A file of a hundred bytes over four lanes. -/
theorem plan_admissible_sample :
    ∃ tuning opens,
      planOpens transfer 4 defaultIoChunkBytes none none = .ok (tuning, opens) ∧
      PlanAdmissible Sample.crypto (.file fun _ => List.replicate 100 7) transfer tuning opens := by
  have hplan : planOpens transfer 4 defaultIoChunkBytes none none = .ok (_, _) := rfl
  exact ⟨_, _, hplan, (plan_admissible_iff Sample.crypto_opensSealed accepted hplan _).2
    ⟨by decide, nofun⟩⟩

open PlanSample in
/-- The same file over a hundred lanes, one for each byte: the server takes none of
them, since it limits the lanes to sixty-four. -/
theorem plan_refused :
    Accepted transfer ∧ ∃ tuning opens,
      planOpens transfer 100 defaultIoChunkBytes none none = .ok (tuning, opens) ∧
      (∃ request ∈ opens,
        Server.admitRequest request = .error "total_lanes 100 exceeds max 64") ∧
      ¬ PlanAdmissible Sample.crypto (.file fun _ => List.replicate 100 7) transfer tuning
        opens := by
  have hplan : planOpens transfer 100 defaultIoChunkBytes none none = .ok (_, _) := rfl
  refine ⟨accepted, _, _, hplan, ?_, fun h => ?_⟩
  · refine ⟨_, mem_opens.2 ⟨0, by decide, rfl⟩, ?_⟩
    rw [Server.admitRequest, if_pos (by decide)]
    exact congrArg Except.error (by decide +kernel)
  · have hfirst := h _ (mem_opens.2 ⟨0, by decide, rfl⟩)
    exact not_admits_laneOpen (by decide) hfirst.1

open PlanSample in
/-- Generated zeros in one lane, with chunks of 65 MiB: the first of them is no frame. -/
theorem generated_refused :
    Accepted large ∧ ∃ tuning opens,
      planOpens large 1 (65 * 1024 * 1024) none none = .ok (tuning, opens) ∧
      ¬ PlanAdmissible Sample.crypto .generatedZeros large tuning opens := by
  have hplan : planOpens large 1 (65 * 1024 * 1024) none none = .ok (_, _) := rfl
  refine ⟨⟨largeRequest, _, by decide +kernel, rfl⟩, _, _, hplan, fun h => ?_⟩
  obtain ⟨-, hframes⟩ := h _ (mem_opens.2 ⟨0, by decide, rfl⟩)
  have hfits := (framesAccepted_generated_iff Sample.crypto_opensSealed (by decide)).1 hframes
  exact absurd hfits (by decide)

end Metra.Client
