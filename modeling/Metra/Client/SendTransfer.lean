import Mathlib.Algebra.BigOperators.Group.List.Basic
import Mathlib.Data.List.Forall2
import Metra.Client.Ack
import Metra.Client.OpenAck
import Metra.Client.SendProgress

/-!
# Sending a transfer

`send_transfer_with_source` sends the lanes of its plan at the same time and adds up what each
has streamed and where each has resumed.  A server may answer what it likes, a call may fail at
any point, and the lanes end in any order.

* `sendGeneratedLane`, `FileLane`, `sendLane` and `joinLanes` — the code, with the arithmetic
  that Rust checks: an overflow is an end of its own, `Stop.overflow`;
* `sendGeneratedLane_spec` and `fileLane_spec` — either sender counts the bytes from the offset
  to the end of the range;
* `resumed_add_streamed` — nothing overflows, and **what was resumed and what was streamed is
  the file**.
-/

namespace Metra.Client

open SendPipeline

/-- Why a call ends without a result.  `unfinished` is for a loop that has no turns left. -/
inductive Stop
  | failed (msg : String)
  | overflow
  | unfinished
  deriving DecidableEq

/-- A sum of `u64`s that panics when it does not fit. -/
def checkedAdd (a b : Nat) : Except Stop Nat :=
  if a + b ≤ u64Max then .ok (a + b) else .error .overflow

/-- A difference of `u64`s that panics when it does not fit. -/
def checkedSub (a b : Nat) : Except Stop Nat :=
  if b ≤ a then .ok (a - b) else .error .overflow

theorem checkedAdd_of_le {a b : Nat} (h : a + b ≤ u64Max) : checkedAdd a b = .ok (a + b) :=
  if_pos h

theorem checkedSub_of_le {a b : Nat} (h : b ≤ a) : checkedSub a b = .ok (a - b) := if_pos h

/-- The call ends in a way that the code provides for. -/
def Provided {α : Type} (result : Except Stop α) : Prop :=
  ∀ stop, result = .error stop → ∃ msg, stop = .failed msg

theorem provided_mapError {α : Type} (result : Except String α) :
    Provided (result.mapError .failed) := by
  intro stop heq
  cases result with
  | ok a => cases heq
  | error msg => exact ⟨msg, (Except.error.inj heq).symm⟩

theorem Provided.bind {α β : Type} {result : Except Stop α} {next : α → Except Stop β}
    (h : Provided result) (hnext : ∀ a, result = .ok a → Provided (next a)) :
    Provided (result >>= next) := by
  cases result with
  | ok a => exact hnext a rfl
  | error stop =>
    intro stop' heq
    cases heq
    exact h stop rfl

theorem of_mapError {ε ε' α : Type} {result : Except ε α} {f : ε → ε'} {a : α}
    (h : result.mapError f = .ok a) : result = .ok a := by
  cases result with
  | ok b => exact congrArg Except.ok (Except.ok.inj h)
  | error msg => cases h

theorem of_bind_ok {ε α β : Type} {result : Except ε α} {next : α → Except ε β} {b : β}
    (h : result >>= next = .ok b) : ∃ a, result = .ok a ∧ next a = .ok b := by
  cases result with
  | ok a => exact ⟨a, rfl, h⟩
  | error stop => cases h

/-! ## A lane of zeros -/

/-- The `while remaining > 0` loop of `send_generated_lane`, with `fuel` turns at most;
`write` is how the calls of `write_all` end.  The counter of the nonces saturates. -/
def sendGeneratedLoop (crypto : AeadCrypto) (args : SendLaneArgs) (write : Nat → Outcome) :
    (fuel remaining bytesStreamed turn : Nat) → (sent : List UInt8) →
      Except Stop Nat × List UInt8
  | 0, _, _, _, sent => (.error .unfinished, sent)
  | fuel + 1, remaining, bytesStreamed, turn, sent =>
    if remaining > 0 then
      let toSend := min remaining args.ioChunkBytes
      match args.frame crypto (min turn u64Max) (List.replicate toSend 0) with
      | .error msg => (.error (.failed msg), sent)
      | .ok frame =>
        match write turn with
        | .fail n => (.error (.failed "failed writing generated payload"), sent ++ frame.take n)
        | .done _ =>
          match checkedSub remaining toSend, checkedAdd bytesStreamed toSend with
          | .ok remaining, .ok bytesStreamed =>
            sendGeneratedLoop crypto args write fuel remaining bytesStreamed (turn + 1)
              (sent ++ frame)
          | _, _ => (.error .overflow, sent ++ frame)
    else (.ok bytesStreamed, sent)

/-- `send_generated_lane`, with what is on the stream; `args.file` is not looked at. -/
def sendGeneratedLane (crypto : AeadCrypto) (args : SendLaneArgs) (write : Nat → Outcome) :
    Except Stop Nat × List UInt8 :=
  match checkedSub args.rangeEndExclusive args.resumeOffset with
  | .error stop => (.error stop, [])
  | .ok remaining => sendGeneratedLoop crypto args write (remaining + 1) remaining 0 0 []

variable {crypto : AeadCrypto} {args : SendLaneArgs} {write : Nat → Outcome}

/-- What a run of the loop is, when it is provided for: it has sent `remaining` zeros behind
`sent`, in frames whose nonces count on from `turn`. -/
structure GeneratedSpec (crypto : AeadCrypto) (args : SendLaneArgs)
    (remaining bytesStreamed turn : Nat) (sent : List UInt8)
    (result : Except Stop Nat × List UInt8) : Prop where
  provided : Provided result.1
  count : ∀ n, result.1 = .ok n → n = bytesStreamed + remaining
  sent : ∀ n, result.1 = .ok n → ∃ (chunks : List (List UInt8)) (frames : List UInt8),
    chunks.flatten = List.replicate remaining 0 ∧
      encodePayloadFrames crypto args.payloadCodec
        (laneCodec crypto args.payloadCodec args.transferId args.laneIndex)
        (args.numbered turn chunks) = .ok frames ∧ result.2 = sent ++ frames

theorem GeneratedSpec.of_failed {remaining bytesStreamed turn : Nat} {sent sent' : List UInt8}
    {msg : String} : GeneratedSpec crypto args remaining bytesStreamed turn sent
      (.error (.failed msg), sent') where
  provided := fun stop heq => ⟨msg, by cases heq; rfl⟩
  count := fun n heq => by cases heq
  sent := fun n heq => by cases heq

/-- The loop sends the rest of the lane, or fails. -/
theorem sendGeneratedLoop_spec {fuel remaining bytesStreamed turn : Nat} {sent : List UInt8}
    (hfuel : remaining < fuel) (hfits : bytesStreamed + remaining ≤ u64Max) :
    GeneratedSpec crypto args remaining bytesStreamed turn sent
      (sendGeneratedLoop crypto args write fuel remaining bytesStreamed turn sent) := by
  induction fuel generalizing remaining bytesStreamed turn sent with
  | zero => omega
  | succ fuel ih =>
    rw [sendGeneratedLoop]
    rcases Nat.eq_zero_or_pos remaining with rfl | hmore
    · refine ⟨fun stop heq => (by cases heq), fun n heq => ?_, fun n heq => ⟨[], [], rfl, rfl, ?_⟩⟩
      · cases heq
        rfl
      · exact (List.append_nil _).symm
    have hle : min remaining args.ioChunkBytes ≤ remaining := Nat.min_le_left _ _
    rw [if_pos hmore]
    dsimp only
    generalize min remaining args.ioChunkBytes = toSend at hle ⊢
    cases hframe : args.frame crypto (min turn u64Max) (List.replicate toSend 0) with
    | error msg => exact .of_failed
    | ok frame =>
      cases write turn with
      | fail n => exact .of_failed
      | done n =>
        -- a frame has at least one byte, so that the loop comes to an end
        have hpos := (of_encodePayloadFrame hframe).1
        rw [List.length_replicate] at hpos
        have hadd : bytesStreamed + toSend ≤ u64Max := by omega
        have hrest := @ih (remaining - toSend) (bytesStreamed + toSend) (turn + 1)
          (sent ++ frame) (by omega) (by omega)
        dsimp only
        rw [checkedSub_of_le hle, checkedAdd_of_le hadd]
        refine ⟨hrest.provided, fun n heq => ?_, fun n heq => ?_⟩
        · rw [hrest.count n heq]
          omega
        · obtain ⟨chunks, frames, hzeros, hframes, hsent⟩ := hrest.sent n heq
          refine ⟨List.replicate toSend 0 :: chunks, frame ++ frames, ?_, ?_, ?_⟩
          · rw [List.flatten_cons, hzeros, List.replicate_append_replicate,
              Nat.add_sub_cancel' hle]
          · rw [SendLaneArgs.frame] at hframe
            simp [SendLaneArgs.numbered, encodePayloadFrames, hframe, hframes, bind, Except.bind,
              pure, Except.pure]
          · rw [hsent, List.append_assoc]

/-- **The lane of zeros**: from an offset in the range, the count is that of the bytes that are
left, and the frames of so many zeros are on the stream. -/
theorem sendGeneratedLane_spec (hle : args.resumeOffset ≤ args.rangeEndExclusive)
    (hmax : args.rangeEndExclusive ≤ u64Max) :
    Provided (sendGeneratedLane crypto args write).1 ∧
      ∀ n, (sendGeneratedLane crypto args write).1 = .ok n → n = args.totalBytes ∧
        ∃ chunks : List (List UInt8), chunks.flatten = List.replicate args.totalBytes 0 ∧
          args.frames crypto chunks = .ok (sendGeneratedLane crypto args write).2 := by
  have hspec := @sendGeneratedLoop_spec crypto args write (args.totalBytes + 1) args.totalBytes 0 0
    [] (Nat.lt_succ_self _) (by simp only [SendLaneArgs.totalBytes]; omega)
  have hlane : sendGeneratedLane crypto args write =
      sendGeneratedLoop crypto args write (args.totalBytes + 1) args.totalBytes 0 0 [] := by
    rw [sendGeneratedLane, checkedSub_of_le hle]
    rfl
  rw [hlane]
  refine ⟨hspec.provided, fun n heq => ⟨(hspec.count n heq).trans (Nat.zero_add _), ?_⟩⟩
  obtain ⟨chunks, frames, hzeros, hframes, hsent⟩ := hspec.sent n heq
  rw [List.nil_append] at hsent
  exact ⟨chunks, hzeros, hsent ▸ hframes⟩

/-! ## A lane of a file -/

/-- `send_file_lane_pipelined` ends with `result`, with `sent` on the stream. -/
def FileLane (crypto : AeadCrypto) (args : SendLaneArgs) (result : Except Stop Nat)
    (sent : List UInt8) : Prop :=
  match checkedSub args.rangeEndExclusive args.resumeOffset with
  | .error stop => result = .error stop ∧ sent = []
  | .ok _ => ∃ returned, Returns crypto args returned sent ∧ result = returned.mapError .failed

/-- **The lane of a file**: from an offset in the range, the count is that of the bytes that are
left. -/
theorem fileLane_spec {result : Except Stop Nat} {sent : List UInt8}
    (hle : args.resumeOffset ≤ args.rangeEndExclusive) (h : FileLane crypto args result sent) :
    Provided result ∧ ∀ n, result = .ok n → n = args.totalBytes := by
  rw [FileLane, checkedSub_of_le hle] at h
  obtain ⟨returned, hreturns, rfl⟩ := h
  unfold Returns at hreturns
  cases returned with
  | error err =>
    refine ⟨fun stop heq => ⟨err, ?_⟩, fun n heq => by cases heq⟩
    exact (Except.error.inj heq).symm
  | ok count =>
    refine ⟨fun stop heq => (by cases heq), fun n heq => ?_⟩
    cases heq
    split at hreturns
    · rename_i hnone
      rw [Except.ok.inj hreturns.1, hnone]
    · rename_i hsome
      obtain ⟨s, hreaches, hreturned, -⟩ := hreturns
      have hlt : args.resumeOffset < args.rangeEndExclusive := by
        simp only [SendLaneArgs.totalBytes] at hsome
        omega
      exact (sent_of_reaches hlt hreaches hreturned).1

/-! ## The arithmetic of the pipeline -/

/-- The subtractions and additions of the pipeline on `u64` values stay in range: the reader
takes no more away than is left, and the count of the call has room for the chunk. -/
structure InRange (s : SendPipeline) : Prop where
  reader : ∀ chunk, s.reader = .sending chunk → chunk.bytesRead ≤ s.toRead
  consumer : ∀ chunk, s.consumer = .writing chunk →
    s.bytesStreamed + chunk.plaintextLen ≤ u64Max

variable {s s' : SendPipeline} {outcome : Outcome}

theorem reader_eq_of_encryptMoves (h : EncryptMoves crypto args s s') :
    s'.reader = s.reader ∧ s'.toRead = s.toRead := by
  cases h <;> exact ⟨rfl, rfl⟩

/-- The call itself does not move the reader, except that it may end it. -/
theorem reader_eq_of_consumerMoves (h : ConsumerMoves args outcome s s') :
    (s'.reader = s.reader ∧ s'.toRead = s.toRead) ∨ s'.reader.isFinished = true := by
  cases h with
  | aborts =>
    right
    simp only [returnWith, abortEncrypt]
    split
    all_goals
      simp only [abortReader, endEncrypt]
      split
      · assumption
      · rfl
  | _ => exact .inl ⟨rfl, rfl⟩

/-- What the reader has in its hands is still to be counted. -/
theorem bytesRead_le_of_reaches (h : Reaches crypto args (start args) s) :
    ∀ chunk, s.reader = .sending chunk → chunk.bytesRead ≤ s.toRead := by
  induction h with
  | refl => exact fun _ => Reader.noConfusion
  | tail _ hnext ih =>
    obtain ⟨stage, outcome, hstep⟩ := hnext
    intro chunk hreader
    cases stage with
    | reader =>
      cases readerMoves_of_step hstep with
      | reads _ _ hle =>
        cases hreader
        simp only [available] at hle
        exact hle.trans ((Nat.min_le_left _ _).trans (Nat.min_le_left _ _))
      | _ => cases hreader
    | encrypt =>
      obtain ⟨hsame, hleft⟩ := reader_eq_of_encryptMoves (encryptMoves_of_step hstep)
      rw [hleft]
      exact ih chunk (hsame ▸ hreader)
    | consumer =>
      rcases reader_eq_of_consumerMoves (consumerMoves_of_step hstep) with ⟨hsame, hleft⟩ | hended
      · rw [hleft]
        exact ih chunk (hsame ▸ hreader)
      · rw [hreader] at hended
        cases hended

theorem inRange_of_reaches (hmax : args.rangeEndExclusive ≤ u64Max)
    (h : Reaches crypto args (start args) s) : InRange s where
  reader := bytesRead_le_of_reaches h
  consumer chunk hwriting := by
    obtain ⟨written, chunks, hfollows⟩ := follows_of_reaches h (by rw [hwriting]; rfl)
    -- the chunk is one of those behind what was written
    have hencoded : s.encoded = chunk :: (s.encryptQueue ++ s.encrypt.chunks) := by
      rw [encoded, hwriting]
      rfl
    have hencodes := hfollows.encodes
    rw [hencoded] at hencodes
    obtain ⟨rest, hrest⟩ := hfollows.behind
    have hbound := hfollows.bound
    rw [← hrest, hencoded, List.map_cons] at hbound
    simp only [List.flatten_append, List.flatten_cons, List.length_append, hencodes.2.1,
      SendLaneArgs.totalBytes] at hbound
    rw [hfollows.streamed]
    omega

/-! ## A lane -/

/-- What the lane finds in the file. -/
def PayloadSource.contents : PayloadSource → Nat → List UInt8
  | .file contents, laneIndex => contents laneIndex
  | .generatedZeros, _ => []

/-- The arguments of either sender. -/
def sendArgs (source : PayloadSource) (tuning : RuntimeTuning) (lane : QuicTransferOpen)
    (resumeOffset : Nat) (binding : Uuid) : SendLaneArgs where
  transferId := lane.transferId
  file := source.contents lane.laneIndex
  resumeOffset := resumeOffset
  rangeEndExclusive := lane.rangeEndExclusive
  payloadCodec := tuning.payloadCodec
  ioChunkBytes := tuning.effectiveIoChunkBytes
  fileReadPipelineDepth := tuning.fileReadPipelineDepth
  sendTransformPipelineDepth := tuning.sendTransformPipelineDepth
  laneIndex := lane.laneIndex
  binding := binding

/-- The sender for the source ends with `result`. -/
def Streams (crypto : AeadCrypto) (source : PayloadSource) (args : SendLaneArgs)
    (result : Except Stop Nat) : Prop :=
  match source with
  | .file _ => ∃ sent, FileLane crypto args result sent
  | .generatedZeros => ∃ write, result = (sendGeneratedLane crypto args write).1

/-- What a lane has come to. -/
structure LaneTransferResult where
  bytesStreamed : Nat
  resumedFromBytes : Nat
  completeAck : CompleteAck
  deriving DecidableEq

/-- How the calls of `send_lane` end: the stream and the open message, the open ack, the
sender, the end of the stream, and the completion ack. -/
structure LaneCalls where
  opened : Except String Unit
  openAck : Except String QuicTransferOpenAck
  streamed : Except Stop Nat
  finished : Except String Unit
  completeAck : Except String CompleteAck

/-- A lane: its stream is opened, the ack checked, the payload sent, and the complete ack read. -/
def sendLane (lane : QuicTransferOpen) (payloadCodec : PayloadCodec) (calls : LaneCalls) :
    Except Stop LaneTransferResult := do
  calls.opened.mapError .failed
  let openAck ← calls.openAck.mapError .failed
  (checkOpenAck lane payloadCodec openAck).mapError .failed
  let bytesStreamed ← calls.streamed
  calls.finished.mapError .failed
  let completeAck ← calls.completeAck.mapError .failed
  let resumedFromBytes ← checkedSub openAck.resumeOffsetBytes lane.rangeStart
  return ⟨bytesStreamed, resumedFromBytes, completeAck⟩

/-- A lane of the plan ends with `result`: the sender is called with the offset of an ack that
was checked. -/
def LaneEnds (crypto : AeadCrypto) (source : PayloadSource) (tuning : RuntimeTuning)
    (lane : QuicTransferOpen) (result : Except Stop LaneTransferResult) : Prop :=
  ∃ calls : LaneCalls, result = sendLane lane tuning.payloadCodec calls ∧
    ∀ openAck, calls.openAck = .ok openAck →
      checkOpenAck lane tuning.payloadCodec openAck = .ok () →
      ∃ binding, Streams crypto source
        (sendArgs source tuning lane openAck.resumeOffsetBytes binding) calls.streamed

/-- The lanes are joined in the order in which they end; the first that fails ends the call. -/
def joinLanes : List (Except Stop LaneTransferResult) →
    (bytesStreamedThisSession resumedFromBytes : Nat) → (bestAck : Option CompleteAck) →
    Except Stop (Nat × Nat × CompleteAck)
  | [], _, _, none => .error (.failed "no completion ack received from server")
  | [], bytesStreamedThisSession, resumedFromBytes, some completeAck =>
    .ok (bytesStreamedThisSession, resumedFromBytes, completeAck)
  | joined :: rest, bytesStreamedThisSession, resumedFromBytes, bestAck => do
    let laneResult ← joined
    let bytesStreamedThisSession ← checkedAdd bytesStreamedThisSession laneResult.bytesStreamed
    let resumedFromBytes ← checkedAdd resumedFromBytes laneResult.resumedFromBytes
    joinLanes rest bytesStreamedThisSession resumedFromBytes
      (some (choosePreferredCompleteAck bestAck laneResult.completeAck))

/-! ## What was resumed and what was streamed -/

variable {source : PayloadSource} {tuning : RuntimeTuning} {lane : QuicTransferOpen}

theorem streams_spec {result : Except Stop Nat} (hle : args.resumeOffset ≤ args.rangeEndExclusive)
    (hmax : args.rangeEndExclusive ≤ u64Max) (h : Streams crypto source args result) :
    Provided result ∧ ∀ n, result = .ok n → n = args.totalBytes := by
  cases source with
  | file contents =>
    obtain ⟨sent, hlane⟩ := h
    exact fileLane_spec hle hlane
  | generatedZeros =>
    obtain ⟨write, rfl⟩ := h
    obtain ⟨hprovided, hsent⟩ := @sendGeneratedLane_spec crypto args write hle hmax
    exact ⟨hprovided, fun n heq => (hsent n heq).1⟩

/-- An ack that is accepted has its offset in the range of the lane. -/
theorem of_checkOpenAck {payloadCodec : PayloadCodec} {openAck : QuicTransferOpenAck}
    (h : checkOpenAck lane payloadCodec openAck = .ok ()) :
    lane.rangeStart ≤ openAck.resumeOffsetBytes ∧
      openAck.resumeOffsetBytes ≤ lane.rangeEndExclusive := by
  unfold checkOpenAck at h
  split at h
  · cases h
  split at h
  · cases h
  · rename_i hfits
    omega

/-- **A lane resumes and streams its range**, or it fails as the code provides for. -/
theorem laneEnds_spec {result : Except Stop LaneTransferResult}
    (hmax : lane.rangeEndExclusive ≤ u64Max) (h : LaneEnds crypto source tuning lane result) :
    Provided result ∧ ∀ laneResult, result = .ok laneResult →
      laneResult.bytesStreamed + laneResult.resumedFromBytes =
        lane.rangeEndExclusive - lane.rangeStart := by
  obtain ⟨calls, rfl, hstreams⟩ := h
  -- what an ack that is accepted leads to
  have haccepted : ∀ openAck, calls.openAck.mapError Stop.failed = .ok openAck →
      (checkOpenAck lane tuning.payloadCodec openAck).mapError Stop.failed = .ok () →
      checkedSub openAck.resumeOffsetBytes lane.rangeStart =
          .ok (openAck.resumeOffsetBytes - lane.rangeStart) ∧ Provided calls.streamed ∧
        ∀ n, calls.streamed = .ok n → n + (openAck.resumeOffsetBytes - lane.rangeStart) =
          lane.rangeEndExclusive - lane.rangeStart := by
    intro openAck hopenAck hcheck
    have hcheck := of_mapError hcheck
    obtain ⟨hge, hle⟩ := of_checkOpenAck hcheck
    obtain ⟨binding, hsends⟩ := hstreams openAck (of_mapError hopenAck) hcheck
    obtain ⟨hprovided, hcount⟩ := streams_spec hle hmax hsends
    refine ⟨checkedSub_of_le hge, hprovided, fun n heq => ?_⟩
    have hn : n = lane.rangeEndExclusive - openAck.resumeOffsetBytes := hcount n heq
    omega
  unfold sendLane
  constructor
  · refine (provided_mapError _).bind fun _ _ => (provided_mapError _).bind fun openAck hopenAck =>
      (provided_mapError _).bind fun _ hcheck => ?_
    obtain ⟨hresumed, hprovided, -⟩ := haccepted openAck hopenAck hcheck
    refine hprovided.bind fun _ _ => (provided_mapError _).bind fun _ _ =>
      (provided_mapError _).bind fun _ _ => ?_
    rw [hresumed]
    exact fun stop heq => by cases heq
  · intro laneResult heq
    obtain ⟨-, -, heq⟩ := of_bind_ok heq
    obtain ⟨openAck, hopenAck, heq⟩ := of_bind_ok heq
    obtain ⟨_, hcheck, heq⟩ := of_bind_ok heq
    obtain ⟨bytesStreamed, hstreamed, heq⟩ := of_bind_ok heq
    obtain ⟨-, -, heq⟩ := of_bind_ok heq
    obtain ⟨completeAck, -, heq⟩ := of_bind_ok heq
    obtain ⟨hresumed, -, hcount⟩ := haccepted openAck hopenAck hcheck
    rw [hresumed] at heq
    cases heq
    exact hcount bytesStreamed hstreamed

/-- What a lane that has ended has resumed and streamed. -/
def covered : Except Stop LaneTransferResult → Nat
  | .ok laneResult => laneResult.bytesStreamed + laneResult.resumedFromBytes
  | .error _ => 0

/-- The sums over the lanes have room, and are exact. -/
theorem joinLanes_spec {joined : List (Except Stop LaneTransferResult)} {streamed resumed : Nat}
    {bestAck : Option CompleteAck} (hprovided : ∀ result ∈ joined, Provided result)
    (hfits : streamed + resumed + (joined.map covered).sum ≤ u64Max) :
    Provided (joinLanes joined streamed resumed bestAck) ∧
      ∀ streamed' resumed' ack, joinLanes joined streamed resumed bestAck =
        .ok (streamed', resumed', ack) →
          (∀ result ∈ joined, ∃ laneResult, result = .ok laneResult) ∧
            streamed' + resumed' = streamed + resumed + (joined.map covered).sum := by
  induction joined generalizing streamed resumed bestAck with
  | nil =>
    cases bestAck with
    | none =>
      refine ⟨fun stop heq => ⟨_, (Except.error.inj heq).symm⟩, fun _ _ _ heq => ?_⟩
      cases heq
    | some ack =>
      refine ⟨fun stop heq => (by cases heq), fun _ _ _ heq => ?_⟩
      cases heq
      exact ⟨fun _ hmem => absurd hmem List.not_mem_nil, rfl⟩
  | cons result rest ih =>
    cases result with
    | error stop =>
      obtain ⟨msg, rfl⟩ := hprovided _ List.mem_cons_self stop rfl
      refine ⟨fun stop heq => ⟨msg, (Except.error.inj heq).symm⟩, fun _ _ _ heq => ?_⟩
      cases heq
    | ok laneResult =>
      rw [List.map_cons, List.sum_cons, covered] at hfits
      have hstreamed : checkedAdd streamed laneResult.bytesStreamed = .ok _ :=
        checkedAdd_of_le (by omega)
      have hresumed : checkedAdd resumed laneResult.resumedFromBytes = .ok _ :=
        checkedAdd_of_le (by omega)
      have hstep : joinLanes (.ok laneResult :: rest) streamed resumed bestAck =
          joinLanes rest (streamed + laneResult.bytesStreamed)
            (resumed + laneResult.resumedFromBytes)
            (some (choosePreferredCompleteAck bestAck laneResult.completeAck)) := by
        rw [joinLanes]
        simp only [bind, Except.bind, hstreamed, hresumed]
      rw [hstep]
      obtain ⟨hrest, hsums⟩ := @ih (streamed + laneResult.bytesStreamed)
        (resumed + laneResult.resumedFromBytes)
        (some (choosePreferredCompleteAck bestAck laneResult.completeAck))
        (fun r hr => hprovided r (List.mem_cons_of_mem _ hr)) (by omega)
      refine ⟨hrest, fun streamed' resumed' ack heq => ?_⟩
      obtain ⟨hall, hsum⟩ := hsums streamed' resumed' ack heq
      refine ⟨fun r hr => ?_, ?_⟩
      · rcases List.mem_cons.1 hr with rfl | hr
        · exact ⟨laneResult, rfl⟩
        · exact hall r hr
      · rw [List.map_cons, List.sum_cons, covered, hsum]
        omega

/-- The lengths of the lanes add up to the file. -/
theorem sum_opens (transfer : TransferSummary) {lanes : Nat} (hlanes : 0 < lanes) :
    (((splitRanges transfer.fileSizeBytes lanes).zipIdx.map (laneOpen transfer tuning lanes)).map
      fun lane => lane.rangeEndExclusive - lane.rangeStart).sum = transfer.fileSizeBytes := by
  have hranges : ((splitRanges transfer.fileSizeBytes lanes).zipIdx.map
      (laneOpen transfer tuning lanes)).map
        (fun lane => lane.rangeEndExclusive - lane.rangeStart) =
      (List.range lanes).map fun i => laneStart transfer.fileSizeBytes lanes (i + 1) -
        laneStart transfer.fileSizeBytes lanes i := by
    rw [List.map_map]
    have hfst : ((fun lane : QuicTransferOpen => lane.rangeEndExclusive - lane.rangeStart) ∘
        laneOpen transfer tuning lanes) = (fun range : Nat × Nat => range.2 - range.1) ∘ Prod.fst :=
      rfl
    rw [hfst, ← List.map_map, List.zipIdx_map_fst, Client.splitRanges_eq,
      Metra.splitRanges_eq, List.map_map]
    rfl
  rw [hranges]
  exact (sum_laneLen transfer.fileSizeBytes lanes lanes).trans (laneStart_self hlanes)

variable {lanes ioChunkBytes : Nat} {transfer : TransferSummary}
  {runtimeProfile : Option RuntimeProfile} {fileReadPipelineDepth : Option Nat}
  {opens : List QuicTransferOpen} {results joined : List (Except Stop LaneTransferResult)}

/-- The lanes cover what they are to cover, or some of it when one fails. -/
theorem sum_covered_le (h : List.Forall₂ (LaneEnds crypto source tuning) opens results)
    (hmax : ∀ lane ∈ opens, lane.rangeEndExclusive ≤ u64Max) :
    (results.map covered).sum ≤
        (opens.map fun lane => lane.rangeEndExclusive - lane.rangeStart).sum ∧
      (∀ result ∈ results, Provided result) ∧
      ((∀ result ∈ results, ∃ laneResult, result = .ok laneResult) →
        (results.map covered).sum =
          (opens.map fun lane => lane.rangeEndExclusive - lane.rangeStart).sum) := by
  induction h with
  | nil => simp
  | @cons lane result opens results hends _ ih =>
    obtain ⟨hprovided, hcovered⟩ := laneEnds_spec (hmax lane List.mem_cons_self) hends
    obtain ⟨hle, hrest, heq⟩ := ih fun l hl => hmax l (List.mem_cons_of_mem _ hl)
    simp only [List.map_cons, List.sum_cons, List.forall_mem_cons]
    refine ⟨?_, ⟨hprovided, hrest⟩, ?_⟩
    · cases result with
      | ok laneResult =>
        have := hcovered laneResult rfl
        simp only [covered]
        omega
      | error stop =>
        simp only [covered]
        omega
    · rintro ⟨⟨laneResult, rfl⟩, hall⟩
      rw [heq hall, covered, hcovered laneResult rfl]

/-- **What was resumed and what was streamed is the file.**  For every plan, whatever acks the
lanes get and accept, however their calls end, and in whatever order they are joined: the lanes
lie in the file one behind the other, no sum and no difference of `u64` values leaves its range,
in the pipeline of a lane neither, and if the call succeeds then the bytes it has resumed from
and those it has streamed are as many as the file has. -/
theorem resumed_add_streamed (hsize : transfer.fileSizeBytes ≤ u64Max)
    (hplan : planOpens transfer lanes ioChunkBytes runtimeProfile fileReadPipelineDepth =
      .ok (tuning, opens))
    (hends : List.Forall₂ (LaneEnds crypto source tuning) opens results)
    (hperm : joined.Perm results) :
    (∀ lane ∈ opens, lane.rangeStart ≤ lane.rangeEndExclusive ∧
      lane.rangeEndExclusive ≤ transfer.fileSizeBytes) ∧
    (∀ lane ∈ opens, ∀ openAck, checkOpenAck lane tuning.payloadCodec openAck = .ok () →
      ∀ binding s, Reaches crypto (sendArgs source tuning lane openAck.resumeOffsetBytes binding)
          (start (sendArgs source tuning lane openAck.resumeOffsetBytes binding)) s →
        InRange s) ∧
    (∀ result ∈ results, Provided result) ∧ Provided (joinLanes joined 0 0 none) ∧
    ∀ bytesStreamedThisSession resumedFromBytes completeAck,
      joinLanes joined 0 0 none =
        .ok (bytesStreamedThisSession, resumedFromBytes, completeAck) →
      resumedFromBytes + bytesStreamedThisSession = transfer.fileSizeBytes := by
  have hopens := (of_planOpens hplan).2.2.2
  have hlanes : 0 < normalizedLaneCount lanes transfer.fileSizeBytes := by
    simp only [normalizedLaneCount]
    omega
  have hranges : ∀ lane ∈ opens, lane.rangeStart ≤ lane.rangeEndExclusive ∧
      lane.rangeEndExclusive ≤ transfer.fileSizeBytes := by
    intro lane hlane
    rw [hopens] at hlane
    obtain ⟨i, hi, rfl⟩ := mem_opens.1 hlane
    exact ⟨laneStart_le_succ _ _ _, laneStart_le_size hi⟩
  have hmax : ∀ lane ∈ opens, lane.rangeEndExclusive ≤ u64Max := fun lane hlane =>
    (hranges lane hlane).2.trans hsize
  have hsum : (opens.map fun lane => lane.rangeEndExclusive - lane.rangeStart).sum =
      transfer.fileSizeBytes := by
    rw [hopens]
    exact sum_opens transfer hlanes
  obtain ⟨hle, hprovided, hall⟩ := sum_covered_le hends hmax
  have hjoined : (joined.map covered).sum = (results.map covered).sum :=
    (hperm.map covered).sum_eq
  obtain ⟨hjoin, hsums⟩ := @joinLanes_spec joined 0 0 none
    (fun result hmem => hprovided result (hperm.mem_iff.1 hmem)) (by omega)
  refine ⟨hranges, ?_, hprovided, hjoin, ?_⟩
  · intro lane hlane openAck _ binding s hreaches
    exact inRange_of_reaches (hmax lane hlane) hreaches
  · intro streamed resumed ack heq
    obtain ⟨hok, htotal⟩ := hsums streamed resumed ack heq
    have hcovered := hall fun result hmem => hok result (hperm.mem_iff.2 hmem)
    omega

namespace TransferSample

/-- An ack for a lane that goes on from `offset`. -/
def openAck (offset : Nat) : QuicTransferOpenAck where
  ok := true
  resumeOffsetBytes := offset
  message := "ready"
  payloadCodec := PayloadCodec.asWire .aeadV1
  receiveWritePipelineDepth := 4

/-- The ack of a lane that has received everything. -/
def completeAck : CompleteAck := ⟨⟨true, .completed, 100, "completed"⟩, 0⟩

/-- The calls of a lane that goes on from `offset` and streams `n` bytes. -/
def calls (offset n : Nat) : LaneCalls where
  opened := .ok ()
  openAck := .ok (openAck offset)
  streamed := .ok n
  finished := .ok ()
  completeAck := .ok completeAck

end TransferSample

open PlanSample TransferSample in
/-- A hundred zeros over two lanes, of which the second one has ten bytes already and ends
first. -/
theorem resumed_add_streamed_sample :
    ∃ joined resumed streamed,
      joinLanes joined 0 0 none = .ok (streamed, resumed, completeAck) ∧ resumed = 10 ∧
        resumed + streamed = 100 := by
  have hplan : planOpens transfer 2 defaultIoChunkBytes none none = .ok (_, _) := rfl
  obtain ⟨-, -, -, -, hsum⟩ := @resumed_add_streamed Sample.crypto .generatedZeros _ _ _ _ _ _ _
    [.ok ⟨50, 0, completeAck⟩, .ok ⟨40, 10, completeAck⟩]
    [.ok ⟨40, 10, completeAck⟩, .ok ⟨50, 0, completeAck⟩] (by decide) hplan
    (.cons ⟨calls 0 50, rfl, fun _ heq _ => ⟨Sample.transferId, fun _ => .done 0, by
      cases heq
      decide +kernel⟩⟩
    (.cons ⟨calls 60 40, rfl, fun _ heq _ => ⟨Sample.transferId, fun _ => .done 0, by
      cases heq
      decide +kernel⟩⟩ .nil)) (.swap _ _ [])
  exact ⟨[.ok ⟨40, 10, completeAck⟩, .ok ⟨50, 0, completeAck⟩], 10, 90, rfl, rfl,
    hsum 90 10 completeAck rfl⟩

end Metra.Client
