import Metra.Wire

/-!
# Receiving a lane's payload, frame by frame

* `readWirePayloadFrame` reads one frame off a stream without opening it;
* `receiveLanePayloadNoDisk` is the plain loop: read a frame, open it, count its
  bytes, until `expected_bytes` have arrived;
* `encodePayloadFrames` is what the other side sends for a list of chunks.

The server has two textually equal copies of `read_wire_payload_frame`; they are
one definition here.  The loop drops the plaintext it has counted; here it is
returned next to the count, so that one can say what was received.
-/

namespace Metra

/-- A frame as it was read: the declared plaintext length, the nonce and the
payload still on its wire form. -/
structure WireFrame where
  plaintextLen : Nat
  nonce : Nonce
  wirePayload : List UInt8
  deriving DecidableEq

/-- Take a frame header off the stream. -/
def readHeader (recvStream : List UInt8) : Option (FrameHeader × List UInt8) :=
  if h : appPayloadFrameHeaderBytes ≤ recvStream.length then
    some (⟨recvStream.take appPayloadFrameHeaderBytes, by rw [List.length_take]; omega⟩,
      recvStream.drop appPayloadFrameHeaderBytes)
  else none

theorem readHeader_append (header : FrameHeader) (rest : List UInt8) :
    readHeader (header.bytes ++ rest) = some (header, rest) := by
  have hlen : appPayloadFrameHeaderBytes ≤ (header.bytes ++ rest).length := by
    rw [List.length_append, header.size]
    exact Nat.le_add_right _ _
  obtain ⟨bytes, size⟩ := header
  simp only [readHeader, dif_pos hlen]
  simp [← size]

theorem readHeader_eq_some {stream rest : List UInt8} {header : FrameHeader}
    (h : readHeader stream = some (header, rest)) : stream = header.bytes ++ rest := by
  unfold readHeader at h
  split at h
  · cases h
    exact (List.take_append_drop _ stream).symm
  · cases h

/-- Take a frame off the stream, with its payload as it came over the wire. -/
def readWirePayloadFrame (recvStream : List UInt8) (payloadCodec : PayloadCodec)
    (transferId : Uuid) (laneIndex : Nat) : Except String (WireFrame × List UInt8) := do
  let (header, recvStream) ←
    okOr s!"failed reading payload frame header for transfer {transferId} lane {laneIndex}"
      (readHeader recvStream)
  let (plaintextLen, nonce) ←
    withContext s!"invalid payload frame header for transfer {transferId} lane {laneIndex}"
      (decodePayloadFrameHeader header)
  let wireLen ←
    withContext s!"invalid payload frame length for transfer {transferId} lane {laneIndex}"
      (appPayloadWireLen payloadCodec plaintextLen)
  let (wirePayload, recvStream) ←
    okOr s!"failed reading payload frame body for transfer {transferId} lane {laneIndex}"
      (Bytes.readExact wireLen recvStream)
  return (⟨plaintextLen, nonce, wirePayload⟩, recvStream)

variable (crypto : AeadCrypto)

/-- Open a frame that was read (`decode_payload_frame(..).with_context(..)`). -/
def WireFrame.decode (frame : WireFrame) (payloadCodec : PayloadCodec) (transferId : Uuid)
    (laneIndex : Nat) : Except String (List UInt8) :=
  withContext s!"failed decoding payload frame for transfer {transferId} lane {laneIndex}"
    (decodePayloadFrame crypto payloadCodec frame.plaintextLen frame.nonce frame.wirePayload
      (laneCodec crypto payloadCodec transferId laneIndex))

/-- The error of a lane that sends more than its range. -/
def laneOverflow (transferId : Uuid) (laneIndex : Nat) : String :=
  s!"received lane payload overflow for transfer {transferId} lane {laneIndex}"

/-- The `while stream_bytes_written < expected_bytes` loop, with the number of
bytes written so far.  Every turn writes at least one byte, so `expectedBytes`
turns are enough (`receiveLanePayloadNoDisk_eq_ok`). -/
def receiveLoop (expectedBytes : Nat) (transferId : Uuid) (laneIndex : Nat)
    (payloadCodec : PayloadCodec) :
    (fuel streamBytesWritten : Nat) → List UInt8 → Except String (Nat × List UInt8 × List UInt8)
  | 0, streamBytesWritten, recvStream => .ok (streamBytesWritten, [], recvStream)
  | fuel + 1, streamBytesWritten, recvStream =>
    if streamBytesWritten < expectedBytes then do
      let (frame, recvStream) ←
        readWirePayloadFrame recvStream payloadCodec transferId laneIndex
      let remaining := expectedBytes - streamBytesWritten
      if frame.plaintextLen > remaining then .error (laneOverflow transferId laneIndex)
      else
        let plaintext ← frame.decode crypto payloadCodec transferId laneIndex
        let (n, received, recvStream) ←
          receiveLoop expectedBytes transferId laneIndex payloadCodec fuel
            (streamBytesWritten + plaintext.length) recvStream
        return (n, plaintext ++ received, recvStream)
    else .ok (streamBytesWritten, [], recvStream)

/-- The count of bytes received, the bytes, and what is left of the stream. -/
def receiveLanePayloadNoDisk (recvStream : List UInt8) (expectedBytes : Nat) (transferId : Uuid)
    (laneIndex : Nat) (payloadCodec : PayloadCodec) :
    Except String (Nat × List UInt8 × List UInt8) := do
  let (streamBytesWritten, received, recvStream) ←
    receiveLoop crypto expectedBytes transferId laneIndex payloadCodec expectedBytes 0 recvStream
  if streamBytesWritten ≠ expectedBytes then
    .error (s!"incomplete lane stream for transfer {transferId} lane {laneIndex}: " ++
      s!"got {streamBytesWritten} expected {expectedBytes}")
  else return (streamBytesWritten, received, recvStream)

/-- The frames of a list of chunks, each with its nonce, one behind the other. -/
def encodePayloadFrames (payloadCodec : PayloadCodec) (aeadCodec : Option AeadLaneCodec) :
    List (List UInt8 × Nonce) → Except String (List UInt8)
  | [] => .ok []
  | (chunk, nonce) :: rest => do
    let frame ← encodePayloadFrame crypto payloadCodec chunk nonce aeadCodec
    let frames ← encodePayloadFrames payloadCodec aeadCodec rest
    return frame ++ frames

/-! ## Headers -/

/-- What an encoded header holds, decoding gives back. -/
theorem decodePayloadFrameHeader_ofParts {len : Nat} (nonce : Nonce) (hpos : 0 < len)
    (hmax : len ≤ appPayloadMaxPlaintextBytes) :
    decodePayloadFrameHeader (.ofParts len nonce) = .ok (len, nonce) := by
  have htake : (FrameHeader.ofParts len nonce).bytes.take 4 = Bytes.toLeBytes 4 len := by
    simp [FrameHeader.ofParts]
  have hlen : Bytes.ofLeBytes (Bytes.toLeBytes 4 len) = len := by
    refine Bytes.ofLeBytes_toLeBytes ?_
    simp only [appPayloadMaxPlaintextBytes] at hmax
    omega
  have hnonce : (FrameHeader.ofParts len nonce).nonce = nonce := by
    obtain ⟨bytes, size⟩ := nonce
    simp [FrameHeader.ofParts, FrameHeader.nonce]
  have h0 : ¬ len = 0 := by omega
  have hbig : ¬ len > appPayloadMaxPlaintextBytes := by omega
  simp only [decodePayloadFrameHeader, htake, hlen, if_neg h0, if_neg hbig, hnonce]

theorem encodePayloadFrameHeader_eq {len : Nat} (nonce : Nonce) (hpos : 0 < len)
    (hmax : len ≤ appPayloadMaxPlaintextBytes) :
    encodePayloadFrameHeader len nonce = .ok (.ofParts len nonce) := by
  have h0 : ¬ len = 0 := by omega
  have hbig : ¬ len > appPayloadMaxPlaintextBytes := by omega
  rw [encodePayloadFrameHeader, if_neg h0, if_neg hbig]

/-- A header is the length and the nonce it holds, in their places. -/
theorem FrameHeader.eq_ofParts (header : FrameHeader) :
    header = .ofParts (Bytes.ofLeBytes (header.bytes.take 4)) header.nonce := by
  obtain ⟨bytes, size⟩ := header
  have hfour : (bytes.take 4).length = 4 := by
    rw [List.length_take, size]
    rfl
  have hround := Bytes.toLeBytes_ofLeBytes (bytes.take 4)
  rw [hfour] at hround
  simp only [FrameHeader.ofParts, FrameHeader.nonce, FrameHeader.mk.injEq]
  rw [hround, List.take_append_drop]

/-- An accepted header holds a length in bounds and is the header of what it holds. -/
theorem of_decodePayloadFrameHeader {header : FrameHeader} {len : Nat} {nonce : Nonce}
    (h : decodePayloadFrameHeader header = .ok (len, nonce)) :
    0 < len ∧ len ≤ appPayloadMaxPlaintextBytes ∧ header = .ofParts len nonce := by
  have heq := header.eq_ofParts
  simp only [decodePayloadFrameHeader] at h
  split at h
  · cases h
  rename_i h0
  split at h
  · cases h
  rename_i hbig
  cases h
  exact ⟨by omega, by omega, heq⟩

/-! ## Frames -/

variable {crypto} {payloadCodec : PayloadCodec} {transferId : Uuid} {laneIndex : Nat}

/-- The length of a payload on the wire, for a plaintext in bounds. -/
theorem appPayloadWireLen_eq (payloadCodec : PayloadCodec) {len : Nat} (hpos : 0 < len)
    (hmax : len ≤ appPayloadMaxPlaintextBytes) :
    appPayloadWireLen payloadCodec len =
      .ok (match payloadCodec with
        | .rawV1 => len
        | .aeadV1 => len + appPayloadAeadTagBytes) := by
  have h0 : ¬ len = 0 := by omega
  have hbig : ¬ len > appPayloadMaxPlaintextBytes := by omega
  unfold appPayloadWireLen
  rw [if_neg h0, if_neg hbig]
  cases payloadCodec <;> rfl

/-- A frame whose plaintext is in bounds is a header and a payload of the length
that the header stands for, and the payload opens to the plaintext. -/
theorem encodePayloadFrame_spec (payloadCodec : PayloadCodec) (transferId : Uuid)
    (laneIndex : Nat) (hcrypto : crypto.OpensSealed) {chunk : List UInt8} (nonce : Nonce)
    (hpos : 0 < chunk.length) (hmax : chunk.length ≤ appPayloadMaxPlaintextBytes) :
    ∃ wirePayload, encodePayloadFrame crypto payloadCodec chunk nonce
          (laneCodec crypto payloadCodec transferId laneIndex) =
        .ok ((FrameHeader.ofParts chunk.length nonce).bytes ++ wirePayload) ∧
      appPayloadWireLen payloadCodec chunk.length = .ok wirePayload.length ∧
      decodePayloadFrame crypto payloadCodec chunk.length nonce wirePayload
          (laneCodec crypto payloadCodec transferId laneIndex) = .ok chunk := by
  have hwire := appPayloadWireLen_eq payloadCodec hpos hmax
  cases payloadCodec with
  | rawV1 =>
    refine ⟨chunk, ?_, hwire, ?_⟩
    · simp only [encodePayloadFrame, sealPayload, bind, Except.bind,
        encodePayloadFrameHeader_eq nonce hpos hmax]
      rfl
    · simp [decodePayloadFrame, hwire, bind, Except.bind, openPayload]
  | aeadV1 =>
    set lane := AeadLaneCodec.new crypto transferId laneIndex with hlane
    obtain ⟨ciphertext, hseal, hlen, hopen⟩ := hcrypto lane.key nonce lane.aad chunk hmax
    refine ⟨ciphertext, ?_, by rw [hwire, hlen], ?_⟩
    · simp only [encodePayloadFrame, sealPayload, laneCodec, ← hlane, AeadLaneCodec.seal, hseal,
        bind, Except.bind, encodePayloadFrameHeader_eq nonce hpos hmax]
      rfl
    · simp [decodePayloadFrame, hwire, hlen, laneCodec, ← hlane, openPayload, bind, Except.bind,
        AeadLaneCodec.openSealed, hopen]

/-- Reading a frame whose header holds a length in bounds, when its payload has
the length that the header stands for. -/
theorem readWirePayloadFrame_append {len : Nat} {nonce : Nonce} {wirePayload : List UInt8}
    (hpos : 0 < len) (hmax : len ≤ appPayloadMaxPlaintextBytes)
    (hwire : appPayloadWireLen payloadCodec len = .ok wirePayload.length) (rest : List UInt8) :
    readWirePayloadFrame ((FrameHeader.ofParts len nonce).bytes ++ wirePayload ++ rest)
        payloadCodec transferId laneIndex = .ok (⟨len, nonce, wirePayload⟩, rest) := by
  rw [readWirePayloadFrame, List.append_assoc, readHeader_append]
  simp only [okOr, withContext, bind, Except.bind,
    decodePayloadFrameHeader_ofParts nonce hpos hmax, hwire]
  rw [Bytes.readExact_append rfl]
  rfl

/-- A frame that was read stood on the stream, header and payload. -/
theorem of_readWirePayloadFrame {stream rest : List UInt8} {frame : WireFrame}
    (h : readWirePayloadFrame stream payloadCodec transferId laneIndex = .ok (frame, rest)) :
    stream = (FrameHeader.ofParts frame.plaintextLen frame.nonce).bytes ++ frame.wirePayload ++
        rest ∧
      0 < frame.plaintextLen ∧ frame.plaintextLen ≤ appPayloadMaxPlaintextBytes ∧
      appPayloadWireLen payloadCodec frame.plaintextLen = .ok frame.wirePayload.length := by
  simp only [readWirePayloadFrame, bind, Except.bind, okOr, withContext] at h
  cases hread : readHeader stream with
  | none => simp [hread] at h
  | some out =>
    obtain ⟨header, afterHeader⟩ := out
    simp only [hread] at h
    cases hdec : decodePayloadFrameHeader header with
    | error e => simp [hdec] at h
    | ok parts =>
      obtain ⟨len, nonce⟩ := parts
      simp only [hdec] at h
      cases hwire : appPayloadWireLen payloadCodec len with
      | error e => simp [hwire] at h
      | ok wireLen =>
        simp only [hwire] at h
        cases hbody : Bytes.readExact wireLen afterHeader with
        | none => simp [hbody] at h
        | some out =>
          obtain ⟨wirePayload, rest'⟩ := out
          simp only [hbody] at h
          cases h
          obtain ⟨hpos, hmax, rfl⟩ := of_decodePayloadFrameHeader hdec
          obtain ⟨rfl, hlen⟩ := Bytes.readExact_eq_some hbody
          refine ⟨?_, hpos, hmax, by rw [hwire, hlen]⟩
          rw [readHeader_eq_some hread, List.append_assoc]

/-- An opened frame has the length its header declared. -/
theorem WireFrame.length_decode {frame : WireFrame} {plaintext : List UInt8}
    (h : frame.decode crypto payloadCodec transferId laneIndex = .ok plaintext) :
    plaintext.length = frame.plaintextLen := by
  simp only [WireFrame.decode, decodePayloadFrame, bind, Except.bind] at h
  cases hwire : appPayloadWireLen payloadCodec frame.plaintextLen with
  | error e => simp [hwire, withContext] at h
  | ok wireLen =>
    simp only [hwire] at h
    split at h
    · simp [withContext] at h
    · cases hopen : openPayload crypto payloadCodec frame.nonce frame.wirePayload
        (laneCodec crypto payloadCodec transferId laneIndex) with
      | error e => simp [hopen, withContext] at h
      | ok opened =>
        simp only [hopen] at h
        split at h
        · simp [withContext] at h
        · rename_i hlen
          simp only [withContext] at h
          cases h
          exact Decidable.not_not.1 hlen

/-! ## The loop -/

/-- Reading `frames` one after the other off a stream leaves `rest`. -/
def ReadsFrames (payloadCodec : PayloadCodec) (transferId : Uuid) (laneIndex : Nat) :
    List UInt8 → List WireFrame → List UInt8 → Prop
  | stream, [], rest => stream = rest
  | stream, frame :: frames, rest => ∃ next,
      readWirePayloadFrame stream payloadCodec transferId laneIndex = .ok (frame, next) ∧
        ReadsFrames payloadCodec transferId laneIndex next frames rest

/-- The number of plaintext bytes that frames declare. -/
def declaredBytes (frames : List WireFrame) : Nat := (frames.map WireFrame.plaintextLen).sum

@[simp] theorem declaredBytes_nil : declaredBytes [] = 0 := rfl

@[simp] theorem declaredBytes_cons (frame : WireFrame) (frames : List WireFrame) :
    declaredBytes (frame :: frames) = frame.plaintextLen + declaredBytes frames := by
  simp [declaredBytes]

@[simp] theorem declaredBytes_append (frames frames' : List WireFrame) :
    declaredBytes (frames ++ frames') = declaredBytes frames + declaredBytes frames' := by
  simp [declaredBytes]

theorem ReadsFrames.append {stream mid rest : List UInt8} {frames frames' : List WireFrame}
    (h : ReadsFrames payloadCodec transferId laneIndex stream frames mid)
    (h' : ReadsFrames payloadCodec transferId laneIndex mid frames' rest) :
    ReadsFrames payloadCodec transferId laneIndex stream (frames ++ frames') rest := by
  induction frames generalizing stream with
  | nil =>
    cases h
    exact h'
  | cons frame frames ih =>
    obtain ⟨next, hread, hrest⟩ := h
    exact ⟨next, hread, ih hrest⟩

/-- The frames before some others can be read first. -/
theorem ReadsFrames.left {stream rest : List UInt8} {frames frames' : List WireFrame}
    (h : ReadsFrames payloadCodec transferId laneIndex stream (frames ++ frames') rest) :
    ∃ mid, ReadsFrames payloadCodec transferId laneIndex stream frames mid ∧
      ReadsFrames payloadCodec transferId laneIndex mid frames' rest := by
  induction frames generalizing stream with
  | nil => exact ⟨stream, rfl, h⟩
  | cons frame frames ih =>
    obtain ⟨next, hread, hrest⟩ := h
    obtain ⟨mid, hleft, hright⟩ := ih hrest
    exact ⟨mid, ⟨next, hread, hleft⟩, hright⟩

theorem ReadsFrames.pos {stream rest : List UInt8} {frame : WireFrame} {frames : List WireFrame}
    (h : ReadsFrames payloadCodec transferId laneIndex stream (frame :: frames) rest) :
    0 < frame.plaintextLen := by
  obtain ⟨next, hread, -⟩ := h
  exact (of_readWirePayloadFrame hread).2.1

/-- A stream is read in one way: the run of frames that declares no more bytes is the
beginning of the other, which goes on from where it stopped. -/
theorem ReadsFrames.comparable {stream rest rest' : List UInt8}
    {frames frames' : List WireFrame}
    (h : ReadsFrames payloadCodec transferId laneIndex stream frames rest)
    (h' : ReadsFrames payloadCodec transferId laneIndex stream frames' rest')
    (hle : declaredBytes frames ≤ declaredBytes frames') :
    ∃ more, frames' = frames ++ more ∧
      ReadsFrames payloadCodec transferId laneIndex rest more rest' := by
  induction frames generalizing stream frames' with
  | nil =>
    cases h
    exact ⟨frames', rfl, h'⟩
  | cons frame frames ih =>
    obtain ⟨next, hread, hrest⟩ := h
    cases frames' with
    | nil =>
      have := (of_readWirePayloadFrame hread).2.1
      simp only [declaredBytes_cons, declaredBytes_nil] at hle
      omega
    | cons frame' frames' =>
      obtain ⟨next', hread', hrest'⟩ := h'
      rw [hread] at hread'
      cases hread'
      have hle' : declaredBytes frames ≤ declaredBytes frames' := by
        simpa using hle
      obtain ⟨more, rfl, hmore⟩ := ih hrest hrest' hle'
      exact ⟨more, rfl, hmore⟩

/-- The plaintexts of frames, all of which open. -/
def Opens (crypto : AeadCrypto) (payloadCodec : PayloadCodec) (transferId : Uuid)
    (laneIndex : Nat) (frames : List WireFrame) (plaintexts : List (List UInt8)) : Prop :=
  frames.map (WireFrame.decode crypto · payloadCodec transferId laneIndex) =
    plaintexts.map .ok

@[simp] theorem opens_nil {plaintexts : List (List UInt8)} :
    Opens crypto payloadCodec transferId laneIndex [] plaintexts ↔ plaintexts = [] := by
  simp [Opens, eq_comm]

theorem opens_cons {frame : WireFrame} {frames : List WireFrame}
    {plaintexts : List (List UInt8)} :
    Opens crypto payloadCodec transferId laneIndex (frame :: frames) plaintexts ↔
      ∃ plaintext rest, plaintexts = plaintext :: rest ∧
        frame.decode crypto payloadCodec transferId laneIndex = .ok plaintext ∧
        Opens crypto payloadCodec transferId laneIndex frames rest := by
  cases plaintexts with
  | nil => simp [Opens]
  | cons p ps =>
    simp only [Opens, List.map_cons, List.cons.injEq]
    constructor
    · rintro ⟨hdec, hrest⟩
      exact ⟨p, ps, ⟨rfl, rfl⟩, hdec, hrest⟩
    · rintro ⟨p', ps', ⟨rfl, rfl⟩, hdec, hrest⟩
      exact ⟨hdec, hrest⟩

theorem Opens.length {frames : List WireFrame} {plaintexts : List (List UInt8)}
    (h : Opens crypto payloadCodec transferId laneIndex frames plaintexts) :
    plaintexts.flatten.length = declaredBytes frames := by
  induction frames generalizing plaintexts with
  | nil => simp [opens_nil.1 h]
  | cons frame frames ih =>
    obtain ⟨p, ps, rfl, hdec, hrest⟩ := opens_cons.1 h
    have hlen := WireFrame.length_decode hdec
    rw [List.flatten_cons, List.length_append, hlen, ih hrest, declaredBytes_cons]

theorem Opens.decode_of_mem {frames : List WireFrame} {plaintexts : List (List UInt8)}
    (h : Opens crypto payloadCodec transferId laneIndex frames plaintexts) {frame : WireFrame}
    (hmem : frame ∈ frames) :
    ∃ plaintext, frame.decode crypto payloadCodec transferId laneIndex = .ok plaintext := by
  have hmap : frame.decode crypto payloadCodec transferId laneIndex ∈ plaintexts.map .ok := by
    rw [← h]
    exact List.mem_map_of_mem hmem
  obtain ⟨plaintext, -, heq⟩ := List.mem_map.1 hmap
  exact ⟨plaintext, heq.symm⟩

/-- The frames behind the first of the plaintexts. -/
theorem Opens.take {frames : List WireFrame} {first more : List (List UInt8)}
    (h : Opens crypto payloadCodec transferId laneIndex frames (first ++ more)) :
    Opens crypto payloadCodec transferId laneIndex (frames.take first.length) first := by
  rw [Opens, List.map_take, h, List.map_append, List.take_left' (by simp)]

/-- Frames that declare exactly the missing bytes, and all open, are received. -/
theorem receiveLoop_of_readsFrames {expectedBytes fuel written : Nat}
    {stream rest : List UInt8} {frames : List WireFrame} {plaintexts : List (List UInt8)}
    (hreads : ReadsFrames payloadCodec transferId laneIndex stream frames rest)
    (hopens : Opens crypto payloadCodec transferId laneIndex frames plaintexts)
    (hsum : written + declaredBytes frames = expectedBytes)
    (hfuel : expectedBytes ≤ written + fuel) :
    receiveLoop crypto expectedBytes transferId laneIndex payloadCodec fuel written stream =
      .ok (expectedBytes, plaintexts.flatten, rest) := by
  induction frames generalizing fuel written stream plaintexts with
  | nil =>
    have hall : written = expectedBytes := by simpa using hsum
    subst hall
    cases hreads
    cases opens_nil.1 hopens
    cases fuel <;> simp [receiveLoop]
  | cons frame frames ih =>
    have hpos := hreads.pos
    obtain ⟨next, hread, hnext⟩ := hreads
    obtain ⟨p, ps, rfl, hdec, hrest⟩ := opens_cons.1 hopens
    have hlen := WireFrame.length_decode hdec
    rw [declaredBytes_cons] at hsum
    obtain ⟨fuel, rfl⟩ : ∃ k, fuel = k + 1 := ⟨fuel - 1, by omega⟩
    have hlt : written < expectedBytes := by omega
    have hfits : ¬ frame.plaintextLen > expectedBytes - written := by omega
    have hsum' : written + p.length + declaredBytes frames = expectedBytes := by omega
    have hfuel' : expectedBytes ≤ written + p.length + fuel := by omega
    have hloop := ih hnext hrest hsum' hfuel'
    simp only [receiveLoop, if_pos hlt, hread, bind, Except.bind, if_neg hfits, hdec, hloop]
    rfl

/-- What the loop receives are frames that declare exactly the missing bytes, and
all open. -/
theorem readsFrames_of_receiveLoop {expectedBytes fuel written n : Nat}
    {stream received rest : List UInt8} (hle : written ≤ expectedBytes)
    (hfuel : expectedBytes ≤ written + fuel)
    (h : receiveLoop crypto expectedBytes transferId laneIndex payloadCodec fuel written stream =
      .ok (n, received, rest)) :
    n = expectedBytes ∧ ∃ frames plaintexts,
      ReadsFrames payloadCodec transferId laneIndex stream frames rest ∧
      Opens crypto payloadCodec transferId laneIndex frames plaintexts ∧
      received = plaintexts.flatten ∧ written + declaredBytes frames = expectedBytes := by
  induction fuel generalizing written stream n received rest with
  | zero =>
    cases h
    have hall : written = expectedBytes := by omega
    exact ⟨hall, [], [], rfl, opens_nil.2 rfl, rfl, hall⟩
  | succ fuel ih =>
    simp only [receiveLoop, bind, Except.bind] at h
    split at h
    · cases hread : readWirePayloadFrame stream payloadCodec transferId laneIndex with
      | error e => simp [hread] at h
      | ok out =>
        obtain ⟨frame, next⟩ := out
        simp only [hread] at h
        split at h
        · cases h
        cases hdec : frame.decode crypto payloadCodec transferId laneIndex with
        | error e => simp [hdec] at h
        | ok plaintext =>
          simp only [hdec] at h
          cases hloop : receiveLoop crypto expectedBytes transferId laneIndex payloadCodec fuel
              (written + plaintext.length) next with
          | error e => simp [hloop] at h
          | ok out =>
            obtain ⟨n', received', rest'⟩ := out
            simp only [hloop] at h
            cases h
            have hlen := WireFrame.length_decode hdec
            have hpos := (of_readWirePayloadFrame hread).2.1
            obtain ⟨hn, frames, plaintexts, hreads, hopens, rfl, hsum⟩ :=
              ih (by omega) (by omega) hloop
            refine ⟨hn, frame :: frames, plaintext :: plaintexts, ⟨next, hread, hreads⟩,
              opens_cons.2 ⟨_, _, rfl, hdec, hopens⟩, rfl, ?_⟩
            rw [declaredBytes_cons]
            omega
    · cases h
      have hall : written = expectedBytes := by omega
      exact ⟨hall, [], [], rfl, opens_nil.2 rfl, rfl, hall⟩

/-- **What the plain loop accepts**: exactly the streams that begin with frames
which declare the expected bytes and all open. -/
theorem receiveLanePayloadNoDisk_eq_ok {expectedBytes n : Nat}
    {stream received rest : List UInt8} :
    receiveLanePayloadNoDisk crypto stream expectedBytes transferId laneIndex payloadCodec =
        .ok (n, received, rest) ↔
      n = expectedBytes ∧ ∃ frames plaintexts,
        ReadsFrames payloadCodec transferId laneIndex stream frames rest ∧
        Opens crypto payloadCodec transferId laneIndex frames plaintexts ∧
        received = plaintexts.flatten ∧ declaredBytes frames = expectedBytes := by
  constructor
  · intro h
    simp only [receiveLanePayloadNoDisk, bind, Except.bind] at h
    cases hloop : receiveLoop crypto expectedBytes transferId laneIndex payloadCodec
        expectedBytes 0 stream with
    | error e => simp [hloop] at h
    | ok out =>
      obtain ⟨n', received', rest'⟩ := out
      simp only [hloop] at h
      split at h
      · cases h
      · cases h
        have := readsFrames_of_receiveLoop (Nat.zero_le _) (by omega) hloop
        simpa only [Nat.zero_add] using this
  · rintro ⟨rfl, frames, plaintexts, hreads, hopens, rfl, hsum⟩
    have hsum' : 0 + declaredBytes frames = n := by omega
    have hfuel : n ≤ 0 + n := by omega
    have hloop := receiveLoop_of_readsFrames hreads hopens hsum' hfuel
    simp only [receiveLanePayloadNoDisk, hloop, bind, Except.bind]
    rw [if_neg (not_not_intro rfl)]
    rfl

/-- The frames of a list of chunks are read, and open to the chunks. -/
theorem readsFrames_encodePayloadFrames (hcrypto : crypto.OpensSealed) (rest : List UInt8) :
    ∀ (chunks : List (List UInt8 × Nonce)) (payload : List UInt8),
      (∀ chunk ∈ chunks, 0 < chunk.1.length ∧ chunk.1.length ≤ appPayloadMaxPlaintextBytes) →
      encodePayloadFrames crypto payloadCodec (laneCodec crypto payloadCodec transferId laneIndex)
        chunks = .ok payload →
      ∃ frames, ReadsFrames payloadCodec transferId laneIndex (payload ++ rest) frames rest ∧
        Opens crypto payloadCodec transferId laneIndex frames (chunks.map Prod.fst) := by
  intro chunks
  induction chunks with
  | nil =>
    rintro payload _ hencode
    cases hencode
    exact ⟨[], rfl, opens_nil.2 rfl⟩
  | cons head chunks ih =>
    obtain ⟨chunk, nonce⟩ := head
    rintro payload hchunks hencode
    have hpos : 0 < chunk.length := (hchunks (chunk, nonce) (by simp)).1
    have hmax : chunk.length ≤ appPayloadMaxPlaintextBytes := (hchunks (chunk, nonce) (by simp)).2
    obtain ⟨wirePayload, hframe, hwire, hdecode⟩ :=
      encodePayloadFrame_spec payloadCodec transferId laneIndex hcrypto nonce hpos hmax
    simp only [encodePayloadFrames, hframe, bind, Except.bind] at hencode
    cases htail : encodePayloadFrames crypto payloadCodec
        (laneCodec crypto payloadCodec transferId laneIndex) chunks with
    | error e => simp [htail] at hencode
    | ok tail =>
      simp only [htail] at hencode
      cases hencode
      obtain ⟨frames, hreads, hopens⟩ :=
        ih tail (fun c hc => hchunks c (List.mem_cons_of_mem _ hc)) htail
      have hread : readWirePayloadFrame
          ((FrameHeader.ofParts chunk.length nonce).bytes ++ wirePayload ++ tail ++ rest)
          payloadCodec transferId laneIndex =
          .ok (⟨chunk.length, nonce, wirePayload⟩, tail ++ rest) := by
        rw [List.append_assoc _ tail rest]
        exact readWirePayloadFrame_append hpos hmax hwire (tail ++ rest)
      refine ⟨⟨chunk.length, nonce, wirePayload⟩ :: frames, ⟨tail ++ rest, hread, hreads⟩,
        opens_cons.2 ⟨chunk, _, rfl, ?_, hopens⟩⟩
      simp only [WireFrame.decode, hdecode, withContext]

/-- A list of chunks in bounds can be encoded. -/
theorem encodePayloadFrames_ok (payloadCodec : PayloadCodec) (transferId : Uuid)
    (laneIndex : Nat) (hcrypto : crypto.OpensSealed) :
    ∀ frames : List (List UInt8 × Nonce),
      (∀ frame ∈ frames, 0 < frame.1.length ∧ frame.1.length ≤ appPayloadMaxPlaintextBytes) →
      ∃ payload, encodePayloadFrames crypto payloadCodec
        (laneCodec crypto payloadCodec transferId laneIndex) frames = .ok payload := by
  intro frames
  induction frames with
  | nil => exact fun _ => ⟨[], rfl⟩
  | cons frame frames ih =>
    obtain ⟨chunk, nonce⟩ := frame
    intro hframes
    have hpos : 0 < chunk.length := (hframes (chunk, nonce) (by simp)).1
    have hmax : chunk.length ≤ appPayloadMaxPlaintextBytes := (hframes (chunk, nonce) (by simp)).2
    obtain ⟨wirePayload, hframe, -, -⟩ :=
      encodePayloadFrame_spec payloadCodec transferId laneIndex hcrypto nonce hpos hmax
    obtain ⟨tail, htail⟩ := ih fun f hf => hframes f (List.mem_cons_of_mem _ hf)
    exact ⟨_, by simp only [encodePayloadFrames, hframe, htail, bind, Except.bind]; rfl⟩

/-- **Round trip of a lane's payload**: what was sent is received, all of it and
no more. -/
theorem receiveLanePayloadNoDisk_encodePayloadFrames (hcrypto : crypto.OpensSealed)
    {chunks : List (List UInt8 × Nonce)} {payload : List UInt8}
    (hchunks : ∀ chunk ∈ chunks,
      0 < chunk.1.length ∧ chunk.1.length ≤ appPayloadMaxPlaintextBytes)
    (hencode : encodePayloadFrames crypto payloadCodec
      (laneCodec crypto payloadCodec transferId laneIndex) chunks = .ok payload)
    (rest : List UInt8) :
    receiveLanePayloadNoDisk crypto (payload ++ rest) (chunks.flatMap Prod.fst).length transferId
        laneIndex payloadCodec =
      .ok ((chunks.flatMap Prod.fst).length, chunks.flatMap Prod.fst, rest) := by
  obtain ⟨frames, hreads, hopens⟩ :=
    readsFrames_encodePayloadFrames hcrypto rest chunks payload hchunks hencode
  refine receiveLanePayloadNoDisk_eq_ok.2 ⟨rfl, frames, _, hreads, hopens, ?_, ?_⟩
  · rw [List.flatMap_def]
  · rw [List.flatMap_def, hopens.length]

end Metra
