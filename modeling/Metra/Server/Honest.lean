import Metra.Server.Baseline

/-!
# Honest streams

The client's side of an upload session: the open message of a lane of `split_ranges`,
and once the server has acknowledged a resume offset the bytes of the source from
there to the end of the lane, in whatever frames, cut off anywhere.

* `LaneStream.Honest.range` and `LaneStream.Honest.isStriped` — what the server makes of
  the open message;
* `Setup.Honest.writes` — **a writer writes bytes of the source to their own place**.
-/

namespace Metra.Server

open Interleave

/-- What the client does for one lane of a source.  Cut off after any number of bytes,
the stream is a prefix of the encoding of what the client has to send. -/
structure LaneStream.Honest (crypto : AeadCrypto) (size : Nat) (source : List UInt8)
    (stream : LaneStream) : Prop where
  fileSizeBytes : stream.request.fileSizeBytes = size
  lane : (Client.splitRanges size stream.request.totalLanes)[stream.request.laneIndex]? =
    some (stream.request.rangeStart, stream.request.rangeEndExclusive)
  incoming : ∀ payloadCodec, PayloadCodec.fromWire stream.request.payloadCodec =
    some payloadCodec → ∀ resume, ∃ chunks payload,
      chunks.flatMap Prod.fst = Bytes.slice source resume stream.request.rangeEndExclusive ∧
      (∀ chunk ∈ chunks, 0 < chunk.1.length ∧ chunk.1.length ≤ appPayloadMaxPlaintextBytes) ∧
      encodePayloadFrames crypto payloadCodec (laneCodec crypto payloadCodec
        stream.request.transferId stream.request.laneIndex) chunks = .ok payload ∧
      stream.incoming resume <+: payload

/-- A disk-backed transfer of a source, with honest streams. -/
structure Setup.Honest (setup : Setup) (source : List UInt8) : Prop where
  size : setup.size = source.length
  disk : setup.discards = false
  opens : setup.ctx.crypto.OpensSealed
  streams : ∀ i stream, setup.streams i = some stream →
    stream.Honest setup.ctx.crypto setup.size source

/-! ## The open message -/

namespace LaneStream.Honest

variable {crypto : AeadCrypto} {size : Nat} {source : List UInt8} {stream : LaneStream}

/-- The range of the lane, in closed form. -/
theorem range (h : stream.Honest crypto size source) :
    stream.request.laneIndex < stream.request.totalLanes ∧
      requestedLanes stream.request = stream.request.totalLanes ∧
      stream.request.rangeStart =
        laneStart size (requestedLanes stream.request) stream.request.laneIndex ∧
      stream.request.rangeEndExclusive =
        laneStart size (requestedLanes stream.request) (stream.request.laneIndex + 1) := by
  have hlane := h.lane
  have hlt : stream.request.laneIndex < stream.request.totalLanes := by
    by_contra hge
    rw [Client.splitRanges_eq, List.getElem?_eq_none (by simpa using hge)] at hlane
    cases hlane
  have hlanes : requestedLanes stream.request = stream.request.totalLanes := by
    simp only [requestedLanes]
    omega
  rw [Client.splitRanges_eq, getElem?_splitRanges hlt, Option.some.injEq, Prod.mk.injEq] at hlane
  rw [hlanes]
  exact ⟨hlt, rfl, hlane.1.symm, hlane.2.symm⟩

theorem requestedEnd_eq (h : stream.Honest crypto size source) :
    requestedEnd stream.request = stream.request.rangeEndExclusive := by
  obtain ⟨hlt, hlanes, -, hend⟩ := h.range
  unfold requestedEnd
  split
  · rename_i hzero
    -- only an empty file has a lane that ends at 0
    have hone : laneStart size (requestedLanes stream.request) 1 ≤
        laneStart size (requestedLanes stream.request) (stream.request.laneIndex + 1) :=
      laneStart_mono (by omega)
    rw [← hend, hzero] at hone
    have hdiv := Nat.div_add_mod size (requestedLanes stream.request)
    simp only [laneStart, Nat.one_mul] at hone
    generalize size / requestedLanes stream.request = quotient at hone hdiv
    have hquotient : quotient = 0 := by omega
    have hremainder : size % requestedLanes stream.request = 0 := by omega
    rw [hquotient, hremainder] at hdiv
    rw [h.fileSizeBytes, hzero]
    simpa using hdiv.symm
  · rfl

theorem rangeEnd_eq (h : stream.Honest crypto size source) :
    requestedEnd stream.request =
      laneStart size (requestedLanes stream.request) (stream.request.laneIndex + 1) := by
  rw [h.requestedEnd_eq]
  exact h.range.2.2.2

theorem rangeEnd_le (h : stream.Honest crypto size source) :
    requestedEnd stream.request ≤ size := by
  obtain ⟨hlt, hlanes, -⟩ := h.range
  rw [h.rangeEnd_eq]
  exact laneStart_le_size (by omega)

theorem rangeStart_le (h : stream.Honest crypto size source) :
    stream.request.rangeStart ≤ requestedEnd stream.request := by
  rw [h.rangeEnd_eq, h.range.2.2.1]
  exact laneStart_le_succ _ _ _

/-- A stream is striped when it is not the only one. -/
theorem isStriped_iff (h : stream.Honest crypto size source) :
    isStriped stream.request = true ↔ 1 < requestedLanes stream.request := by
  obtain ⟨hlt, hlanes, hstart, -⟩ := h.range
  constructor
  · intro hstriped
    by_contra hone
    have hone' : requestedLanes stream.request = 1 := by omega
    have hzero : stream.request.laneIndex = 0 := by omega
    have hend := h.rangeEnd_eq
    rw [hone', hzero, laneStart_self Nat.one_pos] at hend
    rw [hone', hzero, laneStart_zero] at hstart
    simp [isStriped, hone', hstart, hend, h.fileSizeBytes] at hstriped
  · intro hlanes'
    simp [isStriped, hlanes']

/-- Of a single lane. -/
theorem single (h : stream.Honest crypto size source)
    (hsingle : isStriped stream.request = false) :
    requestedLanes stream.request = 1 ∧ stream.request.laneIndex = 0 ∧
      stream.request.rangeStart = 0 ∧ requestedEnd stream.request = size := by
  obtain ⟨hlt, hlanes, hstart, -⟩ := h.range
  have hone : requestedLanes stream.request = 1 := by
    have hnot : ¬ 1 < requestedLanes stream.request := by
      rw [← h.isStriped_iff, hsingle]
      simp
    omega
  have hzero : stream.request.laneIndex = 0 := by omega
  refine ⟨hone, hzero, ?_, ?_⟩
  · rw [hstart, hzero, laneStart_zero]
  · rw [h.rangeEnd_eq, hone, hzero, laneStart_self Nat.one_pos]

end LaneStream.Honest

/-! ## The payload -/

section

variable {setup : Setup} {source : List UInt8} {stream : LaneStream} {args : WriterArgs}

/-- **What an honest stream comes to**: bytes of the source, from the resume offset on. -/
theorem Setup.Honest.receipt (h : setup.Honest source)
    (hstream : stream.Honest setup.ctx.crypto setup.size source) {admission : Admission}
    (hrequest : admitRequest stream.request = .ok admission) {resume : Nat}
    (hresume : resume ≤ requestedEnd stream.request) :
    (stream.receipt setup.ctx admission resume).decodeError = none ∧
      resume + (stream.receipt setup.ctx admission resume).chunks.flatten.length ≤
        requestedEnd stream.request ∧
      (stream.receipt setup.ctx admission resume).chunks.flatten = Bytes.slice source resume
        (resume + (stream.receipt setup.ctx admission resume).chunks.flatten.length) := by
  obtain ⟨-, -, hend, -⟩ := of_admitRequest hrequest
  have hcodec := fromWire_of_admitRequest hrequest
  obtain ⟨chunks, payload, hslice, hchunks, hencode, hsent⟩ := hstream.incoming _ hcodec resume
  have hle : requestedEnd stream.request ≤ source.length := by
    rw [← h.size]
    exact hstream.rangeEnd_le
  have hsum : (chunks.flatMap Prod.fst).length = admission.rangeEndExclusive - resume := by
    rw [hslice, hend, ← hstream.requestedEnd_eq, Bytes.length_slice hle]
  obtain ⟨⟨rest, hsplit, -⟩, hdecode, -, -⟩ :=
    receiveLane_of_sent h.opens hchunks hencode hsent hsum
  have hflat : (stream.receipt setup.ctx admission resume).chunks.flatten ++ rest.flatten =
      Bytes.slice source resume (requestedEnd stream.request) := by
    rw [hstream.requestedEnd_eq, ← hslice, ← List.flatten_append, List.flatMap_def, hsplit]
    rfl
  have hlen := congrArg List.length hflat
  rw [List.length_append, Bytes.length_slice hle] at hlen
  refine ⟨hdecode, by omega, ?_⟩
  have htake := congrArg
    (List.take (stream.receipt setup.ctx admission resume).chunks.flatten.length) hflat
  rw [List.take_left' rfl, Bytes.slice_take, Nat.min_eq_right (by omega)] at htake
  exact htake

/-- **What a writer is handed** are bytes of the source, from the resume offset on. -/
theorem Setup.Honest.chunks (h : setup.Honest source)
    (hstream : stream.Honest setup.ctx.crypto setup.size source)
    (hargs : setup.IsWriterArgs stream args)
    (hresume : args.resumeOffset ≤ requestedEnd stream.request) :
    args.resumeOffset + args.chunks.flatten.length ≤ requestedEnd stream.request ∧
      args.chunks.flatten = Bytes.slice source args.resumeOffset
        (args.resumeOffset + args.chunks.flatten.length) := by
  obtain ⟨admission, hrequest, heq⟩ := hargs
  rw [heq]
  exact (h.receipt hstream hrequest hresume).2

/-- A part of what a writer is handed, in its place. -/
theorem Setup.Honest.chunk (h : setup.Honest source)
    (hstream : stream.Honest setup.ctx.crypto setup.size source)
    (hargs : setup.IsWriterArgs stream args)
    (hresume : args.resumeOffset ≤ requestedEnd stream.request)
    {front rest : List (List UInt8)} {chunk : List UInt8}
    (hchunks : args.chunks = front ++ chunk :: rest) (n : Nat) :
    args.resumeOffset + front.flatten.length + chunk.length ≤ requestedEnd stream.request ∧
      chunk.take n = Bytes.slice source (args.resumeOffset + front.flatten.length)
        (args.resumeOffset + front.flatten.length + min n chunk.length) := by
  obtain ⟨hend, hslice⟩ := h.chunks hstream hargs hresume
  have hsplit : args.chunks.flatten = front.flatten ++ (chunk ++ rest.flatten) := by
    simp [hchunks]
  rw [hsplit, List.length_append, List.length_append] at hend hslice
  refine ⟨by omega, ?_⟩
  have hdrop := congrArg (fun l => ((l.drop front.flatten.length).take chunk.length).take n) hslice
  simp only [List.drop_left', List.take_left'] at hdrop
  rw [hdrop, Bytes.slice, Bytes.slice, List.drop_take, List.drop_drop, List.take_take,
    List.take_take]
  congr 1
  omega

end

end Metra.Server
