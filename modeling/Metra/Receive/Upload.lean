import Metra.Receive.Frames

/-!
# A whole upload stream

What a client puts on a lane stream, the open message and then the frames of its
chunks, and what the server takes off it.

* `readUpload_writeUpload` — **round trip**: the server reads exactly the open
  message and exactly the bytes, and leaves whatever follows; and a header it
  accepts is the encoding of what it takes it for.
-/

namespace Metra

section

variable (serde : Serde QuicTransferOpen) (crypto : AeadCrypto)

/-- The client's side: the open message and one frame for each chunk. -/
def Client.writeUpload (openMessage : QuicTransferOpen) (payloadCodec : PayloadCodec)
    (chunks : List (List UInt8 × Nonce)) : Except String (List UInt8) := do
  let control ← Client.writeJsonFrame serde openMessage
  let payload ← encodePayloadFrames crypto payloadCodec
    (laneCodec crypto payloadCodec openMessage.transferId openMessage.laneIndex) chunks
  return control ++ payload

/-- The server's side: the open message, the bytes of the lane, and what is left. -/
def readUpload (payloadCodec : PayloadCodec) (expectedBytes : Nat) (recvStream : List UInt8) :
    Except String (QuicTransferOpen × List UInt8 × List UInt8) := do
  let (openMessage, recvStream) ← readJsonFrame serde recvStream
  let (_, received, recvStream) ← receiveLanePayloadNoDisk crypto recvStream expectedBytes
    openMessage.transferId openMessage.laneIndex payloadCodec
  return (openMessage, received, recvStream)

variable {serde crypto}

/-- **Round trip of an upload stream**, and of the frame headers. -/
theorem readUpload_writeUpload (hserde : serde.RoundTrips) (hcrypto : crypto.OpensSealed)
    (payloadCodec : PayloadCodec) {openMessage : QuicTransferOpen} {json : List UInt8}
    (hjson : serde.toVec openMessage = some json)
    (hfits : json.length ≤ quicControlFrameMaxBytes)
    {bytes : List UInt8} {chunks : List (List UInt8 × Nonce)}
    (hsplit : chunks.flatMap Prod.fst = bytes)
    (hchunks : ∀ chunk ∈ chunks,
      1 ≤ chunk.1.length ∧ chunk.1.length ≤ appPayloadMaxPlaintextBytes) :
    (∃ stream, Client.writeUpload serde crypto openMessage payloadCodec chunks = .ok stream ∧
      ∀ suffix, readUpload serde crypto payloadCodec bytes.length (stream ++ suffix) =
        .ok (openMessage, bytes, suffix)) ∧
    ∀ header len nonce, decodePayloadFrameHeader header = .ok (len, nonce) →
      encodePayloadFrameHeader len nonce = .ok header := by
  refine ⟨?_, ?_⟩
  · obtain ⟨payload, hpayload⟩ := encodePayloadFrames_ok payloadCodec openMessage.transferId
      openMessage.laneIndex hcrypto chunks hchunks
    refine ⟨Bytes.toBeBytes 4 json.length ++ json ++ payload, ?_, fun suffix => ?_⟩
    · simp only [Client.writeUpload, Client.writeJsonFrame, writeJsonFrame_eq hjson hfits,
        hpayload, bind, Except.bind]
      rfl
    · have hcontrol := readJsonFrame_writeJsonFrame hserde hjson hfits (payload ++ suffix)
      have hreceive := receiveLanePayloadNoDisk_encodePayloadFrames hcrypto hchunks hpayload suffix
      rw [hsplit] at hreceive
      rw [List.append_assoc _ payload suffix]
      simp only [readUpload, hcontrol, hreceive, bind, Except.bind]
      rfl
  · intro header len nonce h
    obtain ⟨hpos, hmax, rfl⟩ := of_decodePayloadFrameHeader h
    exact encodePayloadFrameHeader_eq nonce hpos hmax

end

/-! ## One upload -/

namespace Sample

/-- The id of the transfer. -/
def transferId : Uuid := .nil

/-- A lane of 3 bytes. -/
def openMessage : QuicTransferOpen where
  transferId := transferId
  fileSizeBytes := 3
  fileName := "a.bin"
  resumeChunkSizeBytes := 1048576
  laneIndex := 0
  totalLanes := 1
  rangeStart := 0
  rangeEndExclusive := 3
  payloadCodec := "aead-chacha20poly1305-v1"
  receiveWritePipelineDepth := 4

/-- The text that `serde_json` writes for `openMessage`. -/
def openJson : List UInt8 :=
  ("\x7b\"transfer_id\":\"00000000-0000-0000-0000-000000000000\",\"file_size_bytes\":3," ++
    "\"file_name\":\"a.bin\",\"resume_chunk_size_bytes\":1048576,\"lane_index\":0," ++
    "\"total_lanes\":1,\"range_start\":0,\"range_end_exclusive\":3," ++
    "\"payload_codec\":\"aead-chacha20poly1305-v1\",\"receive_write_pipeline_depth\":4\x7d"
    ).toUTF8.toList

/-- A cipher that adds a tag of zeros and takes it off again. -/
def crypto : AeadCrypto where
  blake3 bytes := bytes
  encrypt _ _ _ msg := some (msg ++ List.replicate appPayloadAeadTagBytes 0)
  decrypt _ _ _ msg :=
    if appPayloadAeadTagBytes ≤ msg.length then
      some (msg.take (msg.length - appPayloadAeadTagBytes))
    else none

theorem crypto_opensSealed : crypto.OpensSealed := by
  intro key nonce aad msg _
  refine ⟨msg ++ List.replicate appPayloadAeadTagBytes 0, rfl, by simp, ?_⟩
  simp [crypto]

/-- A nonce that is used once. -/
def nonce : Nonce := ⟨List.replicate 12 7, rfl⟩

end Sample

open Sample in
/-- Three bytes in two sealed frames. -/
theorem readUpload_writeUpload_sample :
    (∃ stream, Client.writeUpload (.single openMessage openJson) crypto openMessage .aeadV1
        [([1, 2], nonce), ([3], nonce)] = .ok stream ∧
      ∀ suffix, readUpload (.single openMessage openJson) crypto .aeadV1 3 (stream ++ suffix) =
        .ok (openMessage, [1, 2, 3], suffix)) ∧
    ∀ header len nonce, decodePayloadFrameHeader header = .ok (len, nonce) →
      encodePayloadFrameHeader len nonce = .ok header :=
  readUpload_writeUpload (Serde.single_roundTrips (by decide +kernel)) crypto_opensSealed .aeadV1
    (Serde.single_toVec openMessage openJson) (by decide +kernel) rfl (by decide)

end Metra
