import Mathlib.Data.List.Basic
import Metra.Bytes.Words

/-!
# The shared protocol crate

The constants, messages and payload frames of `metra-proto`, which the client
and the server have in common.

* A control message is a length-prefixed JSON frame (`Wire.lean`); a payload
  frame is a 16-byte header (plaintext length, nonce) followed by the payload,
  which the AEAD codec makes 16 bytes longer than the plaintext.
* `encodePayloadFrame` and `decodePayloadFrame` are the two ends of a frame;
  `decodePayloadFrameHeader` accepts exactly the headers that
  `encodePayloadFrameHeader` writes.

The cipher and the hash that derives a lane's key are not part of the
repository: they are the fields of `AeadCrypto`.  A `u32`, `u64` or `usize` is a
natural number.
-/

namespace Metra

/-! ## Constants -/

/-- Offsets are recorded in whole chunks of a MiB, the only size that v1 takes. -/
def resumeChunkSizeBytes : Nat := 1048576

/-- The longest file of a transfer, 8 TiB. -/
def transferFileSizeMaxBytes : Nat := 8 * 1024 * 1024 * 1024 * 1024

/-- The most lanes that an open message may ask for. -/
def transferLanesMax : Nat := 64

/-- The most bytes of a tenant id or a user id. -/
def storageIdSegmentMaxLen : Nat := 64

/-- The longest JSON frame: an open message or an ack. -/
def quicControlFrameMaxBytes : Nat := 64 * 1024

/-- The codec that sends the payload as it is, by its name in open messages and acks. -/
def appPayloadCodecRawV1 : String := "raw-v1"

/-- The codec that seals each frame, by its name in open messages and acks. -/
def appPayloadCodecAeadV1 : String := "aead-chacha20poly1305-v1"

/-- A frame header: the length of the plaintext in 4 bytes, the nonce in 12. -/
def appPayloadFrameHeaderBytes : Nat := 16

/-- What sealing adds to a plaintext. -/
def appPayloadAeadTagBytes : Nat := 16

/-- The longest plaintext that a frame may carry. -/
def appPayloadMaxPlaintextBytes : Nat := 64 * 1024 * 1024

/-- The least depth of the queues in the receive pipeline. -/
def appReceiveWritePipelineDepthMin : Nat := 1

/-- Their greatest depth. -/
def appReceiveWritePipelineDepthMax : Nat := 32

/-! ## Messages -/

/-- A transfer id: sixteen bytes. -/
structure Uuid where
  bytes : List UInt8
  size : bytes.length = 16
  deriving DecidableEq

/-- The id with only zero bytes. -/
def Uuid.nil : Uuid := ⟨List.replicate 16 0, rfl⟩

/-- A digit from 0 to f. -/
def hexDigit (n : Nat) : Char := if n < 10 then Char.ofNat (48 + n) else Char.ofNat (87 + n)

/-- Two digits for each byte. -/
def hexText (bytes : List UInt8) : List Char :=
  bytes.flatMap fun b => [hexDigit (b.toNat / 16), hexDigit (b.toNat % 16)]

/-- The hyphenated form an id is displayed in. -/
instance : ToString Uuid where
  toString id := "-".intercalate
    ([(0, 4), (4, 2), (6, 2), (8, 2), (10, 6)].map fun group =>
      String.ofList (hexText ((id.bytes.drop group.1).take group.2)))

/-- Where a transfer stands. -/
inductive TransferStatus
  | queued
  | running
  | completed
  | failed
  deriving DecidableEq, Repr

/-- Whether a status ends a transfer (`matches!(status, Completed | Failed)`). -/
def TransferStatus.terminal : TransferStatus → Bool
  | .completed | .failed => true
  | .queued | .running => false

/-- A transfer as the server keeps it and stores it.  The source URI and the two
timestamps, which nothing decides on, are left out. -/
structure TransferSummary where
  transferId : Uuid
  tenantId : String
  userId : String
  destinationUri : String
  fileName : String
  fileSizeBytes : Nat
  overwrite : Bool
  immutableDestination : Bool
  status : TransferStatus
  resumeChunkSizeBytes : Nat
  bytesTransferred : Nat
  deriving DecidableEq

/-- The first message of a lane stream. -/
structure QuicTransferOpen where
  transferId : Uuid
  fileSizeBytes : Nat
  fileName : String
  resumeChunkSizeBytes : Nat
  laneIndex : Nat
  totalLanes : Nat
  rangeStart : Nat
  rangeEndExclusive : Nat
  payloadCodec : String
  receiveWritePipelineDepth : Nat
  deriving DecidableEq

/-- The server's answer to an open it accepts. -/
structure QuicTransferOpenAck where
  ok : Bool
  resumeOffsetBytes : Nat
  message : String
  payloadCodec : String
  receiveWritePipelineDepth : Nat
  deriving DecidableEq

/-- The server's last message on a lane stream. -/
structure QuicTransferCompleteAck where
  ok : Bool
  status : TransferStatus
  bytesReceived : Nat
  message : String
  deriving DecidableEq

/-- An id that may stand in a path: letters, digits, `-` and `_`, and not too many. -/
def isValidStorageIdSegment (value : String) : Bool :=
  !value.isEmpty && value.utf8ByteSize ≤ storageIdSegmentMaxLen &&
    value.toList.all fun c => c.isAlphanum || c == '-' || c == '_'

/-- The characters that `str::trim` removes. -/
def isWhitespace (c : Char) : Bool :=
  (0x09 ≤ c.toNat && c.toNat ≤ 0x0d) || c.toNat == 0x20 || c.toNat == 0x85 || c.toNat == 0xa0 ||
    c.toNat == 0x1680 || (0x2000 ≤ c.toNat && c.toNat ≤ 0x200a) || c.toNat == 0x2028 ||
    c.toNat == 0x2029 || c.toNat == 0x202f || c.toNat == 0x205f || c.toNat == 0x3000

/-- `value.trim().is_empty()`. -/
def isBlank (value : String) : Bool := value.toList.all isWhitespace

/-- What a client asks for when it creates a transfer. -/
structure CreateTransferRequest where
  tenantId : String
  userId : String
  sourceUri : String
  destinationUri : String
  fileName : String
  fileSizeBytes : Nat
  resumeChunkSizeBytes : Nat
  overwrite : Bool
  immutableDestination : Bool
  deriving DecidableEq

/-- The checks of a request, in the order in which the first error is reported. -/
def CreateTransferRequest.validate (request : CreateTransferRequest) : Except String Unit :=
  if !isValidStorageIdSegment request.tenantId then
    .error s!"tenant_id must match [a-zA-Z0-9_-] and be 1..={storageIdSegmentMaxLen} chars"
  else if !isValidStorageIdSegment request.userId then
    .error s!"user_id must match [a-zA-Z0-9_-] and be 1..={storageIdSegmentMaxLen} chars"
  else if isBlank request.sourceUri then .error "source_uri must not be empty"
  else if isBlank request.destinationUri then .error "destination_uri must not be empty"
  else if isBlank request.fileName then .error "file_name must not be empty"
  else if request.fileSizeBytes = 0 then .error "file_size_bytes must be > 0"
  else if request.fileSizeBytes > transferFileSizeMaxBytes then
    .error s!"file_size_bytes must be <= {transferFileSizeMaxBytes}"
  else if request.resumeChunkSizeBytes ≠ Metra.resumeChunkSizeBytes then
    .error (s!"resume_chunk_size_bytes must be exactly {Metra.resumeChunkSizeBytes} bytes " ++
      "(1 MiB) in v1")
  else .ok ()

/-- A requested depth, moved between the least and the greatest. -/
def normalizeReceiveWritePipelineDepth (depth : Nat) : Nat :=
  min (max depth appReceiveWritePipelineDepthMin) appReceiveWritePipelineDepthMax

/-! ## Payload codecs -/

/-- How the payload of a frame goes over the wire. -/
inductive PayloadCodec
  | rawV1
  | aeadV1
  deriving DecidableEq, Repr

/-- The name that stands in messages. -/
def PayloadCodec.asWire : PayloadCodec → String
  | .rawV1 => appPayloadCodecRawV1
  | .aeadV1 => appPayloadCodecAeadV1

/-- The codec of a name, if there is one. -/
def PayloadCodec.fromWire (value : String) : Option PayloadCodec :=
  if value = appPayloadCodecRawV1 then some .rawV1
  else if value = appPayloadCodecAeadV1 then some .aeadV1
  else none

theorem PayloadCodec.fromWire_asWire (codec : PayloadCodec) :
    PayloadCodec.fromWire codec.asWire = some codec := by
  cases codec <;> decide

/-- A frame nonce: twelve bytes. -/
structure Nonce where
  bytes : List UInt8
  size : bytes.length = 12
  deriving DecidableEq

/-- The hash and the cipher that the protocol takes from other crates: `blake3`,
and ChaCha20-Poly1305 with a key, a nonce and associated data. -/
structure AeadCrypto where
  blake3 : List UInt8 → List UInt8
  encrypt : (key : List UInt8) → Nonce → (aad msg : List UInt8) → Option (List UInt8)
  decrypt : (key : List UInt8) → Nonce → (aad msg : List UInt8) → Option (List UInt8)

/-- What the protocol relies on: a plaintext that fits a frame can be sealed, the
ciphertext is one tag longer, and opening it under the same key, nonce and
associated data gives the plaintext back. -/
def AeadCrypto.OpensSealed (crypto : AeadCrypto) : Prop :=
  ∀ key nonce aad msg, msg.length ≤ appPayloadMaxPlaintextBytes →
    ∃ ciphertext, crypto.encrypt key nonce aad msg = some ciphertext ∧
      ciphertext.length = msg.length + appPayloadAeadTagBytes ∧
      crypto.decrypt key nonce aad ciphertext = some msg

/-- The AEAD state of one lane of one transfer. -/
structure AeadLaneCodec where
  transferId : Uuid
  laneIndex : Nat
  key : List UInt8

variable (crypto : AeadCrypto)

/-- The key of a lane is derived from the transfer and the lane alone. -/
def AeadLaneCodec.new (transferId : Uuid) (laneIndex : Nat) : AeadLaneCodec where
  transferId := transferId
  laneIndex := laneIndex
  key := crypto.blake3
    ("metra-app-aead-v1".toUTF8.toList ++ transferId.bytes ++ Bytes.toBeBytes 4 laneIndex)

/-- The data that is authenticated with each frame: the transfer and the lane. -/
def AeadLaneCodec.aad (lane : AeadLaneCodec) : List UInt8 :=
  lane.transferId.bytes ++ Bytes.toBeBytes 4 lane.laneIndex

/-- Encrypt a plaintext under the key of the lane. -/
def AeadLaneCodec.seal (lane : AeadLaneCodec) (nonce : Nonce) (plaintext : List UInt8) :
    Except String (List UInt8) :=
  match crypto.encrypt lane.key nonce lane.aad plaintext with
  | some ciphertext => .ok ciphertext
  | none => .error "app-level AEAD encryption failed"

/-- Decrypt, and fail when the tag does not match. -/
def AeadLaneCodec.openSealed (lane : AeadLaneCodec) (nonce : Nonce) (ciphertext : List UInt8) :
    Except String (List UInt8) :=
  match crypto.decrypt lane.key nonce lane.aad ciphertext with
  | some plaintext => .ok plaintext
  | none => .error "app-level AEAD decryption failed"

/-! ## Payload frames -/

/-- How many bytes follow a header that announces so many bytes of plaintext. -/
def appPayloadWireLen (codec : PayloadCodec) (plaintextLen : Nat) : Except String Nat :=
  if plaintextLen = 0 then .error "plaintext frame length must be > 0"
  else if plaintextLen > appPayloadMaxPlaintextBytes then
    .error s!"plaintext frame length {plaintextLen} exceeds max {appPayloadMaxPlaintextBytes}"
  else
    match codec with
    | .rawV1 => .ok plaintextLen
    | .aeadV1 => .ok (plaintextLen + appPayloadAeadTagBytes)

/-- A frame header: sixteen bytes. -/
@[ext] structure FrameHeader where
  bytes : List UInt8
  size : bytes.length = appPayloadFrameHeaderBytes
  deriving DecidableEq

/-- The header layout: the length in four little-endian bytes, then the nonce. -/
def FrameHeader.ofParts (payloadLen : Nat) (nonce : Nonce) : FrameHeader where
  bytes := Bytes.toLeBytes 4 payloadLen ++ nonce.bytes
  size := by simp [nonce.size, appPayloadFrameHeaderBytes]

/-- The header of a frame with so many bytes of plaintext. -/
def encodePayloadFrameHeader (plaintextLen : Nat) (nonce : Nonce) : Except String FrameHeader :=
  if plaintextLen = 0 then .error "plaintext frame length must be > 0"
  else if plaintextLen > appPayloadMaxPlaintextBytes then
    .error s!"plaintext frame length {plaintextLen} exceeds max {appPayloadMaxPlaintextBytes}"
  else .ok (.ofParts plaintextLen nonce)

/-- The last twelve bytes of a header. -/
def FrameHeader.nonce (header : FrameHeader) : Nonce where
  bytes := header.bytes.drop 4
  size := by simp [header.size, appPayloadFrameHeaderBytes]

/-- The plaintext length and the nonce of a header, when the length is a possible one. -/
def decodePayloadFrameHeader (header : FrameHeader) : Except String (Nat × Nonce) :=
  let plaintextLen := Bytes.ofLeBytes (header.bytes.take 4)
  if plaintextLen = 0 then .error "payload frame plaintext length must be > 0"
  else if plaintextLen > appPayloadMaxPlaintextBytes then
    .error
      s!"payload frame plaintext length {plaintextLen} exceeds max {appPayloadMaxPlaintextBytes}"
  else .ok (plaintextLen, header.nonce)

/-- The payload of a frame on the wire: as it is, or sealed. -/
def sealPayload (codec : PayloadCodec) (plaintext : List UInt8) (nonce : Nonce)
    (aeadCodec : Option AeadLaneCodec) : Except String (List UInt8) :=
  match codec with
  | .rawV1 => .ok plaintext
  | .aeadV1 =>
    match aeadCodec with
    | none => .error "missing AEAD codec"
    | some lane => lane.seal crypto nonce plaintext

/-- A frame: its header, and the payload sealed as the codec has it. -/
def encodePayloadFrame (codec : PayloadCodec) (plaintext : List UInt8) (nonce : Nonce)
    (aeadCodec : Option AeadLaneCodec) : Except String (List UInt8) := do
  let wirePayload ← sealPayload crypto codec plaintext nonce aeadCodec
  let header ← encodePayloadFrameHeader plaintext.length nonce
  return header.bytes ++ wirePayload

/-- The plaintext of a frame's payload. -/
def openPayload (codec : PayloadCodec) (nonce : Nonce) (wirePayload : List UInt8)
    (aeadCodec : Option AeadLaneCodec) : Except String (List UInt8) :=
  match codec with
  | .rawV1 => .ok wirePayload
  | .aeadV1 =>
    match aeadCodec with
    | none => .error "missing AEAD codec"
    | some lane => lane.openSealed crypto nonce wirePayload

/-- The plaintext of a frame whose payload has come, when its length is the announced one. -/
def decodePayloadFrame (codec : PayloadCodec) (plaintextLen : Nat) (nonce : Nonce)
    (wirePayload : List UInt8) (aeadCodec : Option AeadLaneCodec) :
    Except String (List UInt8) := do
  let expectedWireLen ← appPayloadWireLen codec plaintextLen
  if wirePayload.length ≠ expectedWireLen then
    .error
      s!"wire payload length mismatch: got {wirePayload.length} expected {expectedWireLen}"
  else
    let plaintext ← openPayload crypto codec nonce wirePayload aeadCodec
    if plaintext.length ≠ plaintextLen then
      .error s!"decoded plaintext length mismatch: got {plaintext.length} expected {plaintextLen}"
    else .ok plaintext

/-- The codec state a lane stream works with: none for raw payloads. -/
def laneCodec (codec : PayloadCodec) (transferId : Uuid) (laneIndex : Nat) :
    Option AeadLaneCodec :=
  match codec with
  | .rawV1 => none
  | .aeadV1 => some (AeadLaneCodec.new crypto transferId laneIndex)

end Metra
