import Metra.Receive.Frames

/-!
# What becomes of a lane's byte stream

The reader and the decrypt stage of the pipelined receive path, each on its own:
which frames are taken off the stream, which plaintexts they open to, and what
went wrong.  This is all the rest of the server depends on.

* `receiveLane_of_sent` — a stream that begins like the encoding of some chunks
  and may be cut off anywhere yields the first of these chunks, and never a frame
  that does not open;
* `receiveLane_ok_iff` — nothing went wrong exactly when the plain loop accepts
  the stream.
-/

namespace Metra

section

variable (payloadCodec : PayloadCodec) (transferId : Uuid) (laneIndex expectedBytes : Nat)

/-- The reader's loop: the accepted frames, and why it stopped short. -/
def readLaneFrames : (fuel bytesReceived : Nat) → List UInt8 → List WireFrame × Option String
  | 0, _, _ => ([], none)
  | fuel + 1, bytesReceived, recvStream =>
    if bytesReceived < expectedBytes then
      match readWirePayloadFrame recvStream payloadCodec transferId laneIndex with
      | .error err => ([], some err)
      | .ok (frame, rest) =>
        if frame.plaintextLen > expectedBytes - bytesReceived then
          ([], some (laneOverflow transferId laneIndex))
        else
          let (frames, readError) :=
            readLaneFrames fuel (bytesReceived + frame.plaintextLen) rest
          (frame :: frames, readError)
    else ([], none)

/-- The decrypt task's loop: the plaintexts handed to the writer, and the frame
that did not open. -/
def openLaneFrames (crypto : AeadCrypto) :
    List WireFrame → List (List UInt8) × Option String
  | [] => ([], none)
  | frame :: frames =>
    match frame.decode crypto payloadCodec transferId laneIndex with
    | .error err => ([], some err)
    | .ok plaintext =>
      let (chunks, decodeError) := openLaneFrames crypto frames
      (plaintext :: chunks, decodeError)

end

/-- What a lane's stream comes to. -/
structure LaneReceipt where
  chunks : List (List UInt8)
  decodeError : Option String
  bytesReceived : Nat
  readError : Option String

/-- What a stream comes to, whatever the schedule of the tasks: the frames are read as far as they
go, and opened as far as they open. -/
def receiveLane (crypto : AeadCrypto) (payloadCodec : PayloadCodec) (transferId : Uuid)
    (laneIndex expectedBytes : Nat) (recvStream : List UInt8) : LaneReceipt :=
  let read := readLaneFrames payloadCodec transferId laneIndex expectedBytes expectedBytes 0
    recvStream
  let opened := openLaneFrames payloadCodec transferId laneIndex crypto read.1
  { chunks := opened.1, decodeError := opened.2
    bytesReceived := declaredBytes read.1, readError := read.2 }

variable {crypto : AeadCrypto} {payloadCodec : PayloadCodec} {transferId : Uuid}
  {laneIndex expectedBytes : Nat}

/-! ## Streams that were cut off -/

/-- A frame that is not all there cannot be read. -/
theorem readWirePayloadFrame_truncated {len : Nat} {nonce : Nonce}
    {wirePayload stream : List UInt8} (hpos : 0 < len) (hmax : len ≤ appPayloadMaxPlaintextBytes)
    (hwire : appPayloadWireLen payloadCodec len = .ok wirePayload.length)
    (hsent : stream <+: (FrameHeader.ofParts len nonce).bytes ++ wirePayload)
    (hshort : stream.length < appPayloadFrameHeaderBytes + wirePayload.length) :
    ∃ err, readWirePayloadFrame stream payloadCodec transferId laneIndex = .error err := by
  cases hread : readWirePayloadFrame stream payloadCodec transferId laneIndex with
  | error err => exact ⟨err, rfl⟩
  | ok out =>
    exfalso
    obtain ⟨frame, rest⟩ := out
    obtain ⟨hstream, -, -, hwire'⟩ := of_readWirePayloadFrame hread
    -- the header that was read is the one that was sent
    have hheader : FrameHeader.ofParts frame.plaintextLen frame.nonce = .ofParts len nonce := by
      obtain ⟨more, hmore⟩ := hsent
      rw [hstream, List.append_assoc, List.append_assoc] at hmore
      exact FrameHeader.ext (List.append_inj hmore (by rw [FrameHeader.size, FrameHeader.size])).1
    have hdec := decodePayloadFrameHeader_ofParts nonce hpos hmax
    obtain ⟨-, hpos', hmax', -⟩ := of_readWirePayloadFrame hread
    have hdec' := decodePayloadFrameHeader_ofParts frame.nonce hpos' hmax'
    rw [hheader, hdec] at hdec'
    have hlen : len = frame.plaintextLen := by
      injection hdec' with h
      exact congrArg Prod.fst h
    rw [← hlen, hwire] at hwire'
    have hsame : wirePayload.length = frame.wirePayload.length := by
      injection hwire'
    rw [hstream, List.length_append, List.length_append, FrameHeader.size] at hshort
    omega

/-- Reading what is left of the encoding of some chunks. -/
theorem readLaneFrames_of_sent (hcrypto : crypto.OpensSealed) :
    ∀ (chunks : List (List UInt8 × Nonce)) (payload stream : List UInt8) (fuel received : Nat),
      (∀ chunk ∈ chunks, 0 < chunk.1.length ∧ chunk.1.length ≤ appPayloadMaxPlaintextBytes) →
      encodePayloadFrames crypto payloadCodec (laneCodec crypto payloadCodec transferId laneIndex)
        chunks = .ok payload →
      stream <+: payload →
      received + (chunks.flatMap Prod.fst).length = expectedBytes →
      expectedBytes ≤ received + fuel →
      ∃ sent rest, chunks.map Prod.fst = sent ++ rest ∧
        Opens crypto payloadCodec transferId laneIndex
          (readLaneFrames payloadCodec transferId laneIndex expectedBytes fuel received stream).1
          sent ∧
        ((readLaneFrames payloadCodec transferId laneIndex expectedBytes fuel received stream).2 =
          none → rest = []) ∧
        (stream = payload →
          (readLaneFrames payloadCodec transferId laneIndex expectedBytes fuel received stream).2 =
            none) := by
  intro chunks
  induction chunks with
  | nil =>
    rintro payload stream fuel received _ hencode hsent hsum hfuel
    have hall : received = expectedBytes := by simpa using hsum
    subst hall
    refine ⟨[], [], rfl, ?_, fun _ => rfl, fun _ => ?_⟩ <;> cases fuel <;>
      simp [readLaneFrames]
  | cons head chunks ih =>
    obtain ⟨chunk, nonce⟩ := head
    rintro payload stream fuel received hchunks hencode hsent hsum hfuel
    have hpos : 0 < chunk.length := (hchunks (chunk, nonce) (by simp)).1
    have hmax : chunk.length ≤ appPayloadMaxPlaintextBytes := (hchunks (chunk, nonce) (by simp)).2
    obtain ⟨wirePayload, hframe, hwire, hdecode⟩ :=
      encodePayloadFrame_spec payloadCodec transferId laneIndex hcrypto nonce hpos hmax
    simp only [encodePayloadFrames, hframe, bind, Except.bind] at hencode
    cases htail : encodePayloadFrames crypto payloadCodec
        (laneCodec crypto payloadCodec transferId laneIndex) chunks with
    | error e => simp [htail] at hencode
    | ok tail =>
      simp only [htail] at hencode
      cases hencode
      simp only [List.flatMap_cons, List.length_append] at hsum
      obtain ⟨fuel, rfl⟩ : ∃ k, fuel = k + 1 := ⟨fuel - 1, by omega⟩
      have hlt : received < expectedBytes := by omega
      set frame := (FrameHeader.ofParts chunk.length nonce).bytes ++ wirePayload with hframeDef
      have hframeLen : frame.length = appPayloadFrameHeaderBytes + wirePayload.length := by
        rw [hframeDef, List.length_append, FrameHeader.size]
      by_cases hshort : stream.length < frame.length
      · -- the stream ends inside this frame
        have hin : stream <+: frame := by
          refine List.prefix_of_prefix_length_le hsent (List.prefix_append _ _) ?_
          omega
        obtain ⟨err, hread⟩ := @readWirePayloadFrame_truncated payloadCodec transferId
          laneIndex _ _ _ _ hpos hmax hwire hin (by omega)
        have hloop : readLaneFrames payloadCodec transferId laneIndex expectedBytes (fuel + 1)
            received stream = ([], some err) := by
          rw [readLaneFrames, if_pos hlt, hread]
        rw [hloop]
        refine ⟨[], _, rfl, opens_nil.2 rfl, by simp, ?_⟩
        rintro rfl
        simp only [List.length_append] at hshort
        omega
      · -- the frame is all there, and the stream goes on like the other chunks
        obtain ⟨next, rfl⟩ : ∃ next, stream = frame ++ next := by
          obtain ⟨next, hnext⟩ := List.prefix_of_prefix_length_le
            (List.prefix_append frame tail) hsent (by omega)
          exact ⟨next, hnext.symm⟩
        have hnext : next <+: tail := (List.prefix_append_right_inj frame).1 hsent
        have hread := @readWirePayloadFrame_append payloadCodec transferId laneIndex _ nonce _
          hpos hmax hwire next
        have hfits : ¬ chunk.length > expectedBytes - received := by omega
        obtain ⟨sent, rest, hsplit, hopens, hdone, hwhole⟩ := ih tail next fuel
          (received + chunk.length) (fun c hc => hchunks c (List.mem_cons_of_mem _ hc)) htail
          hnext (by omega) (by omega)
        have hloop : readLaneFrames payloadCodec transferId laneIndex expectedBytes (fuel + 1)
            received (frame ++ next) =
            (⟨chunk.length, nonce, wirePayload⟩ ::
              (readLaneFrames payloadCodec transferId laneIndex expectedBytes fuel
                (received + chunk.length) next).1,
              (readLaneFrames payloadCodec transferId laneIndex expectedBytes fuel
                (received + chunk.length) next).2) := by
          rw [readLaneFrames, if_pos hlt, hread]
          simp only [if_neg hfits]
        rw [hloop]
        refine ⟨chunk :: sent, rest, by simp [hsplit], opens_cons.2 ⟨chunk, sent, rfl, ?_, hopens⟩,
          hdone, fun heq => hwhole (List.append_cancel_left heq)⟩
        simp only [WireFrame.decode, hdecode, withContext]

theorem openLaneFrames_of_opens {frames : List WireFrame} {plaintexts : List (List UInt8)}
    (h : Opens crypto payloadCodec transferId laneIndex frames plaintexts) :
    openLaneFrames payloadCodec transferId laneIndex crypto frames = (plaintexts, none) := by
  induction frames generalizing plaintexts with
  | nil => rw [opens_nil.1 h, openLaneFrames]
  | cons frame frames ih =>
    obtain ⟨p, ps, rfl, hdec, hrest⟩ := opens_cons.1 h
    rw [openLaneFrames, hdec]
    simp only [ih hrest]

/-- **A stream that begins like the encoding of some chunks** and may be cut off
anywhere yields the first of the chunks, all of them when nothing went wrong, and
nothing goes wrong when it was not cut off. -/
theorem receiveLane_of_sent (hcrypto : crypto.OpensSealed)
    {chunks : List (List UInt8 × Nonce)} {payload stream : List UInt8}
    (hchunks : ∀ chunk ∈ chunks,
      0 < chunk.1.length ∧ chunk.1.length ≤ appPayloadMaxPlaintextBytes)
    (hencode : encodePayloadFrames crypto payloadCodec
      (laneCodec crypto payloadCodec transferId laneIndex) chunks = .ok payload)
    (hsent : stream <+: payload)
    (hsum : (chunks.flatMap Prod.fst).length = expectedBytes) :
    let receipt := receiveLane crypto payloadCodec transferId laneIndex expectedBytes stream
    (∃ rest, chunks.map Prod.fst = receipt.chunks ++ rest ∧
      (receipt.readError = none → rest = [])) ∧
    receipt.decodeError = none ∧ receipt.bytesReceived = receipt.chunks.flatten.length ∧
    (stream = payload → receipt.readError = none) := by
  have hsum' : 0 + (chunks.flatMap Prod.fst).length = expectedBytes := by omega
  have hfuel : expectedBytes ≤ 0 + expectedBytes := by omega
  obtain ⟨sent, rest, hsplit, hopens, hdone, hwhole⟩ := readLaneFrames_of_sent hcrypto chunks
    payload stream expectedBytes 0 hchunks hencode hsent hsum' hfuel
  have hopened := openLaneFrames_of_opens hopens
  simp only [receiveLane, hopened]
  exact ⟨⟨rest, hsplit, hdone⟩, trivial, hopens.length.symm, hwhole⟩

/-! ## Bounds -/

/-- The reader takes no more than the missing bytes. -/
theorem declaredBytes_readLaneFrames_le (fuel received : Nat) (stream : List UInt8)
    (hle : received ≤ expectedBytes) :
    received + declaredBytes
      (readLaneFrames payloadCodec transferId laneIndex expectedBytes fuel received stream).1 ≤
      expectedBytes := by
  induction fuel generalizing received stream with
  | zero => simpa [readLaneFrames] using hle
  | succ fuel ih =>
    rw [readLaneFrames]
    split
    · split
      · simpa using hle
      · rename_i frame next hread
        split
        · simpa using hle
        · rename_i hfits
          have hnext := ih (received + frame.plaintextLen) next (by omega)
          rw [declaredBytes_cons]
          omega
    · simpa using hle

theorem length_openLaneFrames_le (frames : List WireFrame) :
    ((openLaneFrames payloadCodec transferId laneIndex crypto frames).1.flatten).length ≤
      declaredBytes frames := by
  induction frames with
  | nil => exact Nat.zero_le _
  | cons frame frames ih =>
    rw [openLaneFrames]
    split
    · exact Nat.zero_le _
    · rename_i plaintext hdecode
      rw [List.flatten_cons, List.length_append, WireFrame.length_decode hdecode,
        declaredBytes_cons]
      exact Nat.add_le_add_left ih _

/-- **No more than the missing bytes are handed to the writer**, whatever the peer sends. -/
theorem length_receiveLane_le (stream : List UInt8) :
    (receiveLane crypto payloadCodec transferId laneIndex expectedBytes
      stream).chunks.flatten.length ≤ expectedBytes := by
  have hread := @declaredBytes_readLaneFrames_le payloadCodec transferId laneIndex expectedBytes
    expectedBytes 0 stream (Nat.zero_le _)
  rw [Nat.zero_add] at hread
  exact Nat.le_trans (length_openLaneFrames_le _) hread

/-! ## Agreement with the plain loop -/

/-- A reader that ends without an error has read frames that declare exactly the
missing bytes. -/
theorem readsFrames_of_readLaneFrames {fuel received : Nat} {stream : List UInt8}
    (hle : received ≤ expectedBytes) (hfuel : expectedBytes ≤ received + fuel)
    (h : (readLaneFrames payloadCodec transferId laneIndex expectedBytes fuel received stream).2 =
      none) :
    ∃ rest, ReadsFrames payloadCodec transferId laneIndex stream
        (readLaneFrames payloadCodec transferId laneIndex expectedBytes fuel received stream).1
        rest ∧
      received + declaredBytes
        (readLaneFrames payloadCodec transferId laneIndex expectedBytes fuel received stream).1 =
        expectedBytes := by
  induction fuel generalizing received stream with
  | zero => exact ⟨stream, rfl, by simp [readLaneFrames]; omega⟩
  | succ fuel ih =>
    rw [readLaneFrames] at h ⊢
    by_cases hlt : received < expectedBytes
    · rw [if_pos hlt] at h ⊢
      cases hread : readWirePayloadFrame stream payloadCodec transferId laneIndex with
      | error e => simp [hread] at h
      | ok out =>
        obtain ⟨frame, next⟩ := out
        have hpos := (of_readWirePayloadFrame hread).2.1
        simp only [hread] at h ⊢
        by_cases hover : frame.plaintextLen > expectedBytes - received
        · simp [hover] at h
        · simp only [if_neg hover] at h ⊢
          obtain ⟨rest, hreads, hsum⟩ := ih (by omega) (by omega) h
          refine ⟨rest, ⟨next, hread, hreads⟩, ?_⟩
          rw [declaredBytes_cons]
          omega
    · rw [if_neg hlt]
      exact ⟨stream, rfl, by simp; omega⟩

/-- Frames that declare exactly the missing bytes are read. -/
theorem readLaneFrames_of_readsFrames {fuel received : Nat} {stream rest : List UInt8}
    {frames : List WireFrame}
    (hreads : ReadsFrames payloadCodec transferId laneIndex stream frames rest)
    (hsum : received + declaredBytes frames = expectedBytes)
    (hfuel : expectedBytes ≤ received + fuel) :
    readLaneFrames payloadCodec transferId laneIndex expectedBytes fuel received stream =
      (frames, none) := by
  induction frames generalizing fuel received stream with
  | nil =>
    have hall : received = expectedBytes := by simpa using hsum
    subst hall
    cases fuel <;> simp [readLaneFrames]
  | cons frame frames ih =>
    have hpos := hreads.pos
    obtain ⟨next, hread, hrest⟩ := hreads
    rw [declaredBytes_cons] at hsum
    obtain ⟨fuel, rfl⟩ : ∃ k, fuel = k + 1 := ⟨fuel - 1, by omega⟩
    have hlt : received < expectedBytes := by omega
    have hfits : ¬ frame.plaintextLen > expectedBytes - received := by omega
    have hsum' : received + frame.plaintextLen + declaredBytes frames = expectedBytes := by omega
    have hfuel' : expectedBytes ≤ received + frame.plaintextLen + fuel := by omega
    have hloop := ih hrest hsum' hfuel'
    rw [readLaneFrames, if_pos hlt, hread]
    simp only [if_neg hfits, hloop]

theorem opens_of_openLaneFrames {frames : List WireFrame}
    (h : (openLaneFrames payloadCodec transferId laneIndex crypto frames).2 = none) :
    Opens crypto payloadCodec transferId laneIndex frames
      (openLaneFrames payloadCodec transferId laneIndex crypto frames).1 := by
  induction frames with
  | nil => exact opens_nil.2 rfl
  | cons frame frames ih =>
    rw [openLaneFrames] at h ⊢
    cases hdec : frame.decode crypto payloadCodec transferId laneIndex with
    | error e => simp [hdec] at h
    | ok plaintext =>
      simp only [hdec] at h ⊢
      exact opens_cons.2 ⟨plaintext, _, rfl, hdec, ih h⟩

/-- **Nothing went wrong exactly when the plain loop accepts the stream**, and then
both received the same bytes. -/
theorem receiveLane_ok_iff {stream : List UInt8} :
    let receipt := receiveLane crypto payloadCodec transferId laneIndex expectedBytes stream
    (receipt.decodeError = none ∧ receipt.readError = none) ↔
      ∃ rest, receiveLanePayloadNoDisk crypto stream expectedBytes transferId laneIndex
        payloadCodec = .ok (expectedBytes, receipt.chunks.flatten, rest) := by
  intro receipt
  constructor
  · rintro ⟨hdecode, hread⟩
    have hfuel : expectedBytes ≤ 0 + expectedBytes := by omega
    obtain ⟨rest, hreads, hsum⟩ := readsFrames_of_readLaneFrames (Nat.zero_le _) hfuel hread
    have hopens := opens_of_openLaneFrames hdecode
    exact ⟨rest, receiveLanePayloadNoDisk_eq_ok.2
      ⟨rfl, _, _, hreads, hopens, rfl, by omega⟩⟩
  · rintro ⟨rest, h⟩
    obtain ⟨-, frames, plaintexts, hreads, hopens, -, hsum⟩ := receiveLanePayloadNoDisk_eq_ok.1 h
    have hsum' : 0 + declaredBytes frames = expectedBytes := by omega
    have hfuel : expectedBytes ≤ 0 + expectedBytes := by omega
    have hread := readLaneFrames_of_readsFrames hreads hsum' hfuel
    have hopened := openLaneFrames_of_opens hopens
    simp only [receipt, receiveLane, hread, hopened]
    exact ⟨trivial, trivial⟩

end Metra
