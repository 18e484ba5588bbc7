import Metra.Server.Honest

/-!
# A striped upload

The session that an upload of several lanes is made of when nothing fails: every lane of
`split_ranges` is opened once, and sends all that it has to send.

* `Setup.Session.honest` and `Setup.Session.regular` — such streams are honest, and nothing
  goes wrong on them by itself;
* `Setup.Session.chunks` — **a writer is handed all of its lane**, from the resume offset on;
* `Goes` — the steps that take a task on, as `Moves` lists them, without those that follow
  upon a failure or belong to another kind of upload.
-/

namespace Metra.Server

open Interleave

/-- A server in which nothing fails. -/
def reliable (ctx : Context) (transfer : TransferSummary)
    (streams : Nat → Option LaneStream) : Setup :=
  ⟨ctx, transfer, streams, False⟩

/-- What the client does for lane `i` of a source, up to the end. -/
structure LaneStream.SendsLane (crypto : AeadCrypto) (transfer : TransferSummary)
    (source : List UInt8) (lanes i : Nat) (stream : LaneStream) : Prop where
  transferId : stream.request.transferId = transfer.transferId
  fileSizeBytes : stream.request.fileSizeBytes = transfer.fileSizeBytes
  resumeChunkSizeBytes : stream.request.resumeChunkSizeBytes = transfer.resumeChunkSizeBytes
  totalLanes : stream.request.totalLanes = lanes
  laneIndex : stream.request.laneIndex = i
  range : (Client.splitRanges transfer.fileSizeBytes lanes)[i]? =
    some (stream.request.rangeStart, stream.request.rangeEndExclusive)
  incoming : ∃ payloadCodec, PayloadCodec.fromWire stream.request.payloadCodec =
    some payloadCodec ∧ ∀ resume, ∃ chunks payload,
      chunks.flatMap Prod.fst = Bytes.slice source resume stream.request.rangeEndExclusive ∧
      (∀ chunk ∈ chunks, 0 < chunk.1.length ∧ chunk.1.length ≤ appPayloadMaxPlaintextBytes) ∧
      encodePayloadFrames crypto payloadCodec (laneCodec crypto payloadCodec
        stream.request.transferId stream.request.laneIndex) chunks = .ok payload ∧
      stream.incoming resume = payload

/-- A disk-backed transfer of a source in so many lanes, each of which is opened once. -/
structure Setup.Session (setup : Setup) (source : List UInt8) (lanes : Nat) : Prop where
  size : setup.size = source.length
  disk : setup.discards = false
  opens : setup.ctx.crypto.OpensSealed
  tenantId : isValidStorageIdSegment setup.transfer.tenantId = true
  userId : isValidStorageIdSegment setup.transfer.userId = true
  striped : 2 ≤ lanes
  le_max : lanes ≤ transferLanesMax
  le_size : lanes ≤ source.length
  sends : ∀ i < lanes, ∃ stream, setup.streams i = some stream ∧
    stream.SendsLane setup.ctx.crypto setup.transfer source lanes i
  only : ∀ i, lanes ≤ i → setup.streams i = none

theorem LaneStream.SendsLane.honest {crypto : AeadCrypto} {transfer : TransferSummary}
    {source : List UInt8} {lanes i : Nat} {stream : LaneStream}
    (h : stream.SendsLane crypto transfer source lanes i) :
    stream.Honest crypto transfer.fileSizeBytes source where
  fileSizeBytes := h.fileSizeBytes
  lane := by
    rw [h.totalLanes, h.laneIndex]
    exact h.range
  incoming payloadCodec hcodec resume := by
    obtain ⟨codec, hcodec', hincoming⟩ := h.incoming
    obtain rfl := Option.some.inj (hcodec'.symm.trans hcodec)
    obtain ⟨chunks, payload, hslice, hchunks, hencode, hall⟩ := hincoming resume
    exact ⟨chunks, payload, hslice, hchunks, hencode, hall ▸ List.prefix_rfl⟩

/-! ## A lane that is sent up to its end -/

namespace LaneStream.SendsLane

variable {setup : Setup} {source : List UInt8} {lanes i : Nat} {stream : LaneStream}
  (h : stream.SendsLane setup.ctx.crypto setup.transfer source lanes i)

include h

theorem requestedLanes_eq : requestedLanes stream.request = lanes := by
  rw [h.honest.range.2.1, h.totalLanes]

theorem rangeStart_eq : stream.request.rangeStart = laneStart setup.size lanes i := by
  have hstart := h.honest.range.2.2.1
  rw [h.requestedLanes_eq, h.laneIndex] at hstart
  exact hstart

theorem requestedEnd_eq :
    requestedEnd stream.request = laneStart setup.size lanes (i + 1) := by
  have hend := h.honest.rangeEnd_eq
  rw [h.requestedLanes_eq, h.laneIndex] at hend
  exact hend

/-- The stream finds its lane in a checkpoint of so many lanes. -/
theorem fits (hi : i < lanes) {transferId : Uuid} {offsets : Nat → Nat} :
    setup.Fits stream (TransferCheckpoint.ofOffsets transferId setup.size lanes offsets) := by
  unfold Setup.Fits
  rw [h.requestedLanes_eq, h.rangeStart_eq, h.requestedEnd_eq, h.laneIndex]
  exact TransferCheckpoint.validateLayout_ofOffsets hi

theorem admitted (hi : i < lanes) (hmax : lanes ≤ transferLanesMax) (hle : lanes ≤ setup.size) :
    ∃ admission, admitRequest stream.request = .ok admission := by
  obtain ⟨payloadCodec, hcodec, -⟩ := h.incoming
  have hlanes := h.requestedLanes_eq
  have hstart := h.rangeStart_eq
  have hend := h.requestedEnd_eq
  have hlt : laneStart setup.size lanes i < laneStart setup.size lanes (i + 1) :=
    laneStart_lt_succ hle hi
  have hend_le : requestedEnd stream.request ≤ stream.request.fileSizeBytes := by
    rw [h.fileSizeBytes]
    exact h.honest.rangeEnd_le
  have hindex := h.laneIndex
  unfold admitRequest
  rw [if_neg (by omega), if_neg (by omega), if_neg (by omega), hcodec]
  exact ⟨_, rfl⟩

theorem matched (htenant : isValidStorageIdSegment setup.transfer.tenantId = true)
    (huser : isValidStorageIdSegment setup.transfer.userId = true)
    {transfer : TransferSummary} (hsame : SameTransfer setup.transfer transfer) :
    matchTransfer stream.request transfer = .ok () := by
  rw [hsame]
  unfold matchTransfer
  simp [h.transferId, h.fileSizeBytes, h.resumeChunkSizeBytes, htenant, huser]

/-- What a lane that is sent up to the end comes to. -/
theorem receipt (hopens : setup.ctx.crypto.OpensSealed) (hsize : setup.size = source.length)
    {admission : Admission} (hrequest : admitRequest stream.request = .ok admission)
    (resume : Nat) :
    (stream.receipt setup.ctx admission resume).decodeError = none ∧
      (stream.receipt setup.ctx admission resume).readError = none ∧
      (stream.receipt setup.ctx admission resume).bytesReceived =
        (stream.receipt setup.ctx admission resume).chunks.flatten.length ∧
      (stream.receipt setup.ctx admission resume).chunks.flatten.length =
        admission.rangeEndExclusive - resume := by
  have hhonest := h.honest
  obtain ⟨-, -, hend, -⟩ := of_admitRequest hrequest
  have hcodec := fromWire_of_admitRequest hrequest
  obtain ⟨codec, hcodec', hincoming⟩ := h.incoming
  obtain rfl := Option.some.inj (hcodec'.symm.trans hcodec)
  obtain ⟨chunks, payload, hslice, hchunks, hencode, hall⟩ := hincoming resume
  have hle : requestedEnd stream.request ≤ source.length := by
    rw [← hsize]
    exact hhonest.rangeEnd_le
  have hsum : (chunks.flatMap Prod.fst).length = admission.rangeEndExclusive - resume := by
    rw [hslice, hend, ← hhonest.requestedEnd_eq, Bytes.length_slice hle]
  have hsent : stream.incoming resume <+: payload := hall ▸ List.prefix_rfl
  obtain ⟨⟨rest, hsplit, hdone⟩, hdecode, hbytes, hwhole⟩ :=
    receiveLane_of_sent hopens hchunks hencode hsent hsum
  have hread := hwhole hall
  refine ⟨hdecode, hread, hbytes, ?_⟩
  rw [hdone hread, List.append_nil] at hsplit
  rw [← hsum, List.flatMap_def, hsplit]
  rfl

/-- Nothing goes wrong by itself on a lane that is sent up to the end. -/
theorem regular (hi : i < lanes) (hmax : lanes ≤ transferLanesMax) (hle : lanes ≤ setup.size)
    (hsize : setup.size = source.length) (hdisk : setup.discards = false)
    (hopens : setup.ctx.crypto.OpensSealed)
    (htenant : isValidStorageIdSegment setup.transfer.tenantId = true)
    (huser : isValidStorageIdSegment setup.transfer.userId = true) : setup.Regular stream where
  disk := hdisk
  admitted := by
    obtain ⟨admission, hrequest⟩ := h.admitted hi hmax hle
    refine ⟨admission, hrequest, fun resume hresume => ?_⟩
    obtain ⟨hdecode, hread, hbytes, hlen⟩ := h.receipt hopens hsize hrequest resume
    refine ⟨hdecode, admission, hrequest, hresume, ?_⟩
    have hcount : setup.chunkBytes stream resume = admission.rangeEndExclusive - resume := by
      rw [Setup.chunkBytes, hrequest]
      exact hlen
    rw [hread, hbytes, hlen, hcount]
    simp [Pipeline.result, pipelineArgs]
  matched _ hsame := h.matched htenant huser hsame
  fits := by
    rw [TransferCheckpoint.newCheckpoint_eq, h.requestedLanes_eq]
    exact h.fits hi

end LaneStream.SendsLane

namespace Setup.Session

variable {setup : Setup} {source : List UInt8} {lanes i : Nat} {stream : LaneStream}

/-! ## The open messages -/

/-- The streams of a session are its lanes. -/
theorem lane (h : setup.Session source lanes) (hstream : setup.streams i = some stream) :
    i < lanes ∧ stream.SendsLane setup.ctx.crypto setup.transfer source lanes i := by
  by_cases hi : i < lanes
  · obtain ⟨stream', hstream', hsends⟩ := h.sends i hi
    obtain rfl := Option.some.inj (hstream'.symm.trans hstream)
    exact ⟨hi, hsends⟩
  · rw [h.only i (not_lt.1 hi)] at hstream
    cases hstream

theorem honest (h : setup.Session source lanes) : setup.Honest source where
  size := h.size
  disk := h.disk
  opens := h.opens
  streams _ _ hstream := (h.lane hstream).2.honest

theorem requestedLanes_eq (h : setup.Session source lanes)
    (hstream : setup.streams i = some stream) : requestedLanes stream.request = lanes :=
  (h.lane hstream).2.requestedLanes_eq

theorem isStriped_eq (h : setup.Session source lanes) (hstream : setup.streams i = some stream) :
    isStriped stream.request = true := by
  rw [((h.lane hstream).2.honest).isStriped_iff, h.requestedLanes_eq hstream]
  exact h.striped

theorem laneIndex_eq (h : setup.Session source lanes) (hstream : setup.streams i = some stream) :
    stream.request.laneIndex = i := (h.lane hstream).2.laneIndex

theorem rangeStart_eq (h : setup.Session source lanes) (hstream : setup.streams i = some stream) :
    stream.request.rangeStart = laneStart setup.size lanes i :=
  (h.lane hstream).2.rangeStart_eq

theorem requestedEnd_eq (h : setup.Session source lanes)
    (hstream : setup.streams i = some stream) :
    requestedEnd stream.request = laneStart setup.size lanes (i + 1) :=
  (h.lane hstream).2.requestedEnd_eq

theorem pos (h : setup.Session source lanes) : 0 < lanes :=
  Nat.lt_of_lt_of_le Nat.zero_lt_two h.striped

/-- No lane is empty. -/
theorem start_lt (h : setup.Session source lanes) (hi : i < lanes) :
    laneStart setup.size lanes i < laneStart setup.size lanes (i + 1) :=
  laneStart_lt_succ (h.size ▸ h.le_size) hi

/-- Every stream finds its lane in a checkpoint of the session. -/
theorem fits (h : setup.Session source lanes) (hstream : setup.streams i = some stream)
    {transferId : Uuid} {offsets : Nat → Nat} :
    setup.Fits stream (TransferCheckpoint.ofOffsets transferId setup.size lanes offsets) :=
  (h.lane hstream).2.fits (h.lane hstream).1

/-! ## The payload -/

/-- **A writer is handed all of its lane**, from the resume offset on. -/
theorem chunks (h : setup.Session source lanes) (hstream : setup.streams i = some stream)
    {args : WriterArgs} (hargs : setup.IsWriterArgs stream args)
    (hresume : args.resumeOffset ≤ laneStart setup.size lanes (i + 1)) :
    args.resumeOffset + args.chunks.flatten.length = laneStart setup.size lanes (i + 1) := by
  obtain ⟨admission, hrequest, heq⟩ := hargs
  obtain ⟨-, -, hend, -⟩ := of_admitRequest hrequest
  obtain ⟨-, -, -, hlen⟩ := (h.lane hstream).2.receipt h.opens h.size hrequest args.resumeOffset
  have hchunks : args.chunks = (stream.receipt setup.ctx admission args.resumeOffset).chunks := by
    rw [heq]
  rw [hchunks, hlen, hend, h.requestedEnd_eq hstream]
  omega

theorem regular (h : setup.Session source lanes) (hstream : setup.streams i = some stream) :
    setup.Regular stream :=
  (h.lane hstream).2.regular (h.lane hstream).1 h.le_max (h.size ▸ h.le_size) h.size h.disk h.opens
    h.tenantId h.userId

end Setup.Session

/-! ## The ways of a lane -/

/-- A task of a striped lane gets from one phase to another when nothing fails. -/
inductive Goes : Task → Phase → (o : Op) → o.Reply → Phase → Prop
  | admitted {i : Nat} {transfer : TransferSummary} :
      Goes (.handler i) .idle .readTransfer transfer (.admitted transfer.bytesTransferred)
  | leased {i b lane : Nat} :
      Goes (.handler i) (.admitted b) (.tryAcquireLaneWriter lane) true (.leased b)
  | resumed {i b resume : Nat} {next : TransferCheckpoint} :
      Goes (.handler i) (.leased b) (.persistCheckpoint next) (some ()) (.resumed resume)
  | opened {i resume m n b : Nat} :
      Goes (.handler i) (.resumed resume) (.markRunning m n b) true (.opened resume)
  | presizing {i resume file : Nat} :
      Goes (.handler i) (.opened resume) .openStaging (some file) (.presizing resume file)
  | presized {i resume file len : Nat} :
      Goes (.handler i) (.presizing resume file) (.setLen file len) (some ()) (.presized resume)
  | accepted {i resume : Nat} {ack : QuicTransferOpenAck} :
      Goes (.handler i) (.presized resume) (.sendOpenAck ack) (some ()) (.accepted resume)
  | receiving {i resume file : Nat} :
      Goes (.handler i) (.accepted resume) .openStaging (some file) (.receiving resume file)
  | draining {i : Nat} {args : WriterArgs} :
      Goes (.handler i) (.receiving args.resumeOffset args.file) (.spawnWriter args) ()
        (.draining args.resumeOffset)
  | received {i resume written : Nat} :
      Goes (.handler i) (.draining resume) .joinWriter (.ok written) (.received resume written)
  | broken {i resume : Nat} {err : String} :
      Goes (.handler i) (.draining resume) .joinWriter (.error err) .broken
  | alreadyDone {i b resume written : Nat} :
      Goes (.handler i) (.received resume written) .checkFinalized (true, b)
        (.reported .completed)
  | deciding {i b resume written : Nat} :
      Goes (.handler i) (.received resume written) .checkFinalized (false, b) .deciding
  | incomplete {i : Nat} {found : TransferCheckpoint} (hfound : found.allLanesComplete = false) :
      Goes (.handler i) .deciding .readCheckpoint (some found) .incomplete
  | ready {i : Nat} {found : TransferCheckpoint} (hfound : found.allLanesComplete = true) :
      Goes (.handler i) .deciding .readCheckpoint (some found) .ready
  | checking {i g : Nat} {reply : Bool × Bool × Nat} :
      Goes (.handler i) .ready .readPolicy reply (.checking g)
  | passed {i g : Nat} :
      Goes (.handler i) (.checking (g + 1)) .finalExists (some false) (.checking g)
  | refused {i g : Nat} : Goes (.handler i) (.checking (g + 1)) .finalExists (some true) .refused
  | vacant {i : Nat} : Goes (.handler i) (.checking 0) .finalExists (some false) .vacant
  | clearing {i : Nat} : Goes (.handler i) (.checking 0) .finalExists (some true) .clearing
  | cleared {i : Nat} : Goes (.handler i) .clearing .removeFinal (some ()) .vacant
  | placed {i : Nat} : Goes (.handler i) .vacant .renameStaging (some ()) .placed
  | setIncomplete {i b : Nat} :
      Goes (.handler i) .incomplete (.setStatus .running b) () (.settling .running)
  | setPlaced {i b : Nat} :
      Goes (.handler i) .placed (.setStatus .completed b) () (.settling .completed)
  | setRefused {i b : Nat} :
      Goes (.handler i) .refused (.setStatus .failed b) () (.settling .failed)
  | setFailed {i b : Nat} :
      Goes (.handler i) .failing (.setStatus .failed b) () (.settling .failed)
  | reported {i : Nat} {st : TransferStatus} {r : Option Unit} (hterminal : st.terminal = true) :
      Goes (.handler i) (.settling st) .removeCheckpoint r (.reported st)
  | sentSettled {i : Nat} {st : TransferStatus} {ack : QuicTransferCompleteAck}
      (hack : ack.status = st) :
      Goes (.handler i) (.settling st) (.sendCompleteAck ack) (some ()) .over
  | sentReported {i : Nat} {st : TransferStatus} {ack : QuicTransferCompleteAck}
      (hack : ack.status = st) :
      Goes (.handler i) (.reported st) (.sendCompleteAck ack) (some ()) .over
  | released {i lane : Nat} : Goes (.handler i) .over (.releaseLaneWriter lane) () .released
  | writing {i : Nat} {args : WriterArgs} :
      Goes (.writer i) .unborn .awaitWriter args
        (.writing args 0 args.chunks args.resumeOffset false)
  | wrote {i w d offset : Nat} {args : WriterArgs} {chunk : List UInt8}
      {rest : List (List UInt8)} {synced : Bool} :
      Goes (.writer i) (.writing args w (chunk :: rest) d synced)
        (.writeAll args.file offset chunk) (some ()) (.writing args (w + chunk.length) rest d false)
  | synced {i w d : Nat} {args : WriterArgs} {rest : List (List UInt8)} {synced : Bool} :
      Goes (.writer i) (.writing args w rest d synced) (.syncData args.file) (some ())
        (.writing args w rest d true)
  | recorded {i w b : Nat} {args : WriterArgs} {rest : List (List UInt8)} :
      Goes (.writer i) (.writing args w rest (args.resumeOffset + w) true) (.recordProgress b) ()
        (.writing args w rest (args.resumeOffset + w) true)
  | stored {i w d : Nat} {args : WriterArgs} {rest : List (List UInt8)}
      {next : TransferCheckpoint} :
      Goes (.writer i) (.writing args w rest d true) (.persistCheckpoint next) (some ())
        (.writing args w rest (args.resumeOffset + w) true)
  | flushed {i w : Nat} {args : WriterArgs} {synced : Bool} :
      Goes (.writer i) (.writing args w [] (args.resumeOffset + w) synced) (.flush args.file)
        (some ()) (.flushed args w)
  | done {i w : Nat} {args : WriterArgs} :
      Goes (.writer i) (.flushed args w) (.finishWriter (.ok w)) () .done

section

variable {setup : Setup} {source : List UInt8} {lanes : Nat} {s : Tracked Task Point State}
  {t : Task} {stream : LaneStream} {o : Op} {r : o.Reply} {ph : Phase}

/-- A stream that is stored goes on to finalize when it has been received. -/
theorem received_of_finalizes (hdisk : setup.discards = false) (h : setup.Finalizes stream ph) :
    ∃ resume written, ph = .received resume written := by
  unfold Setup.Finalizes at h
  split at h
  · rw [hdisk] at h
    cases h.1
  · exact ⟨_, _, rfl⟩
  · exact h.elim

theorem args_of_writing (hsession : setup.Session source lanes) (hbase : Baseline setup s) {i : Nat}
    (hstream : setup.streams i = some stream) {args : WriterArgs} {w d : Nat}
    {rest : List (List UInt8)} {synced : Bool}
    (hwriting : (s.point (.writer i)).phase = .writing args w rest d synced) :
    args.striped = true ∧ args.laneIndex = i := by
  obtain ⟨-, ⟨admission, -, hargs⟩, -⟩ := running_of_writing hbase hstream hwriting
  rw [hargs]
  exact ⟨hsession.isStriped_eq hstream, hsession.laneIndex_eq hstream⟩

/-- **When nothing fails, a task of a session goes the way of a lane.** -/
theorem Setup.Session.goes (hsession : setup.Session source lanes) (hfaults : ¬ setup.faults)
    (hbase : Baseline setup s) (hstream : setup.streams t.stream = some stream)
    (henabled : Enabled setup t (s.point t) o) (r : o.Reply) :
    (advance setup stream (s.point t) o r).phase = (s.point t).phase ∨
      Goes t (s.point t).phase o r (advance setup stream (s.point t) o r).phase := by
  rcases henabled.moves hstream r with hsame | hmoves
  · exact .inl hsame
  · refine .inr ?_
    generalize (advance setup stream (s.point t) o r).phase = ph at hmoves
    generalize hpt : s.point t = pt at hmoves
    have hsingle : isStriped stream.request ≠ false := by simp [hsession.isStriped_eq hstream]
    have hdiscards : setup.discards ≠ true := by simp [hsession.disk]
    cases hmoves with
    | admitted => exact .admitted
    | leased => exact .leased
    | resumed => exact .resumed
    | resumedStaging hstriped => exact absurd hstriped hsingle
    | opened => exact .opened
    | openedDiscard _ hd => exact absurd hd hdiscards
    | presizing => exact .presizing
    | presized => exact .presized
    | acceptedPresized => exact .accepted
    | accepted hplain => exact (hplain.elim hsingle hdiscards).elim
    | receiving => exact .receiving
    | draining => exact .draining
    | received => exact .received
    | broken => exact .broken
    | alreadyDone hph =>
      obtain ⟨resume, written, rfl⟩ := received_of_finalizes hsession.disk hph
      exact .alreadyDone
    | deciding hph =>
      obtain ⟨resume, written, rfl⟩ := received_of_finalizes hsession.disk hph
      exact .deciding
    | incomplete hc => exact .incomplete hc
    | ready hc => exact .ready hc
    | readySingle hstriped => exact absurd hstriped hsingle
    | checking => exact .checking
    | passed => exact .passed
    | refused => exact .refused
    | vacant => exact .vacant
    | clearing => exact .clearing
    | cleared => exact .cleared
    | placed => exact .placed
    | setIncomplete => exact .setIncomplete
    | setDiscarded hd => exact absurd hd hdiscards
    | setPlaced => exact .setPlaced
    | setRefused => exact .setRefused
    | setFailed => exact .setFailed
    | reported hterminal => exact .reported hterminal
    | abandoned hph => exact absurd hph.1 hfaults
    | sentSettled hack => exact .sentSettled hack
    | sentReported hack => exact .sentReported hack
    | notRunning hfaults' => exact absurd hfaults' hfaults
    | failing hfaults' => exact absurd hfaults' hfaults
    | released hph =>
      rcases hph with rfl | ⟨hfaults', -⟩
      · exact .released
      · exact absurd hfaults' hfaults
    | writing => exact .writing
    | wrote => exact .wrote
    | synced => exact .synced
    | recorded hdurable =>
      have hphase := congrArg Point.phase hpt
      obtain rfl := hdurable (args_of_writing hsession hbase hstream hphase).1
      exact .recorded
    | stored => exact .stored
    | flushed => exact .flushed
    | done => exact .done
    | gaveUp hfaults' => exact absurd hfaults' hfaults

/-- After a step a task is in the phase it was in, or the step has taken it on the way of a
lane. -/
theorem Setup.Session.goes_moved (hsession : setup.Session source lanes)
    (hfaults : ¬ setup.faults) (hbase : Baseline setup s)
    (hstream : setup.streams t.stream = some stream) (henabled : Enabled setup t (s.point t) o)
    (r : o.Reply) (s' : State) (u : Task) :
    ((moved s t (advance setup stream (s.point t) o r) s').point u).phase = (s.point u).phase ∨
      u = t ∧ Goes t (s.point t).phase o r
        ((moved s t (advance setup stream (s.point t) o r) s').point u).phase := by
  by_cases hu : u = t
  · subst hu
    rw [moved_point_self]
    exact (hsession.goes hfaults hbase hstream henabled r).imp_right fun hgoes => ⟨rfl, hgoes⟩
  · rw [moved_point_of_ne hu]
    exact .inl rfl

end

end Metra.Server
