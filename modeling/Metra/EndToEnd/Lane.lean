import Metra.Client.SendTransfer

/-!
# A lane from end to end

The sender of a lane on one side, `receive_lane_payload_to_file_pipelined` on the other, and
between them a stream that carries the beginning of what was sent.

* `Sends` and `sentOf_of_sends` — what is on the stream at any moment is **the beginning of the
  frames of consecutive chunks**, whatever has failed;
* `plaintexts_of_sent` — the frames that are read off such a stream open to the first of the
  chunks;
* `lane_copied` — whatever either side does and wherever the stream is cut off, **the file holds
  a part of the range, from its beginning on and in its place**, and both sides agree on when it
  is all of it.
-/

namespace Metra.EndToEnd

open Client

/-! ## What is on the stream -/

/-- What the sender takes its bytes from. -/
def content (source : PayloadSource) (args : SendLaneArgs) : List UInt8 :=
  match source with
  | .file _ => args.file
  | .generatedZeros => List.replicate args.rangeEndExclusive 0

/-- What the sender for the source has put on the stream at some moment. -/
def Sends (crypto : AeadCrypto) (source : PayloadSource) (args : SendLaneArgs)
    (sent : List UInt8) : Prop :=
  match source with
  | .file _ =>
    if args.totalBytes = 0 then sent = []
    else ∃ s, SendPipeline.Reaches crypto args (SendPipeline.start args) s ∧ s.sent = sent
  | .generatedZeros => ∃ write, (sendGeneratedLane crypto args write).2 = sent

/-- The sender for the source returns `Ok`, with `sent` on the stream. -/
def SendsAll (crypto : AeadCrypto) (source : PayloadSource) (args : SendLaneArgs)
    (sent : List UInt8) : Prop :=
  match source with
  | .file _ => ∃ n, FileLane crypto args (.ok n) sent
  | .generatedZeros => ∃ write n, sendGeneratedLane crypto args write = (.ok n, sent)

/-- `sent` is the beginning of the frames of chunks, which are `data` from the resume offset on
and no more of it than is to be sent. -/
def SentOf (crypto : AeadCrypto) (args : SendLaneArgs) (data sent : List UInt8) : Prop :=
  ∃ (chunks : List (List UInt8)) (frames : List UInt8),
    chunks.flatten = Bytes.slice data args.resumeOffset
      (args.resumeOffset + chunks.flatten.length) ∧
    chunks.flatten.length ≤ args.totalBytes ∧ args.frames crypto chunks = .ok frames ∧
    sent <+: frames

variable {crypto : AeadCrypto} {args : SendLaneArgs} {source : PayloadSource}

theorem map_fst_numbered (counter : Nat) (chunks : List (List UInt8)) :
    (args.numbered counter chunks).map Prod.fst = chunks := by
  induction chunks generalizing counter with
  | nil => rfl
  | cons chunk chunks ih => rw [SendLaneArgs.numbered, List.map_cons, ih]

/-- Chunks of which frames could be made are in bounds. -/
theorem bounds_of_encodePayloadFrames {codec : PayloadCodec} {lane : Option AeadLaneCodec}
    {chunks : List (List UInt8 × Nonce)} {frames : List UInt8}
    (h : encodePayloadFrames crypto codec lane chunks = .ok frames) :
    ∀ chunk ∈ chunks, 0 < chunk.1.length ∧ chunk.1.length ≤ appPayloadMaxPlaintextBytes := by
  induction chunks generalizing frames with
  | nil => simp
  | cons head chunks ih =>
    simp only [encodePayloadFrames, bind, Except.bind] at h
    split at h
    · cases h
    rename_i frame hframe
    split at h
    · cases h
    rename_i rest hrest
    rintro chunk hmem
    rcases List.mem_cons.1 hmem with rfl | hmem
    · exact of_encodePayloadFrame hframe
    · exact ih hrest chunk hmem

/-! ### The pipeline -/

section

open SendPipeline

variable {s s' : SendPipeline} {outcome : Outcome} {written chunks : List (List UInt8)}

/-- As long as the call has not failed, the stream holds the frames of what was written. -/
theorem sentOf_of_follows (h : Follows crypto args s written chunks) :
    SentOf crypto args args.file s.sent := by
  obtain ⟨rest, hrest⟩ := (List.prefix_append written _).trans h.behind
  have hsplit : written.flatten ++ rest.flatten = chunks.flatten := by
    rw [← List.flatten_append, hrest]
  have hlen := congrArg List.length hsplit
  rw [List.length_append] at hlen
  have hbound := h.bound
  refine ⟨written, s.sent, ?_, by omega, h.sent, List.prefix_rfl⟩
  have htake := congrArg (List.take written.flatten.length) h.file
  rwa [← hsplit, List.take_left' rfl, Bytes.slice_take, Nat.min_eq_right
    (by rw [List.length_append]; omega)] at htake

/-- The write of a frame that fails leaves the beginning of it. -/
theorem sentOf_of_breaks (h : Follows crypto args s written chunks) {chunk : SendWireChunk}
    (hconsumer : s.consumer = .writing chunk) (n : Nat) :
    SentOf crypto args args.file (s.sent ++ chunk.wirePayload.take n) := by
  have hmoves : ConsumerMoves args (.done 0) s _ := .writes hconsumer
  rcases h.consumer hmoves with hfailed | ⟨written', hfollows⟩
  · cases hfailed
  · obtain ⟨chunks', frames, hdata, hbound, hframes, hsent⟩ := sentOf_of_follows hfollows
    refine ⟨chunks', frames, hdata, hbound, hframes, List.IsPrefix.trans ?_ hsent⟩
    exact (List.prefix_append_right_inj _).2 (List.take_prefix _ _)

theorem sent_of_abort (s : SendPipeline) : s.abortReader.abortEncrypt.sent = s.sent := by
  unfold abortEncrypt abortReader
  split <;> split <;> rfl

/-- A call that has failed writes no more. -/
theorem sent_of_failed (h : ConsumerMoves args outcome s s')
    (hfailed : s.consumer.isFailed = true) : s'.sent = s.sent := by
  cases h with
  | writes hconsumer | breaks hconsumer =>
    rw [hconsumer] at hfailed
    cases hfailed
  | takes | recycles | drops | passes | givesUp | joins | returns | fails => rfl
  | aborts => exact sent_of_abort s

theorem sent_of_moves {stage : Stage} (h : step? crypto args stage outcome s = some s')
    (hstage : stage ≠ .consumer) : s'.sent = s.sent := by
  cases stage with
  | reader => cases readerMoves_of_step h <;> rfl
  | encrypt => cases encryptMoves_of_step h <;> rfl
  | consumer => exact absurd rfl hstage

/-- **What the pipeline has sent**, in any state it reaches. -/
theorem sentOf_of_reaches (h : Reaches crypto args (start args) s) :
    SentOf crypto args args.file s.sent := by
  induction h with
  | refl => exact ⟨[], [], by simp [Bytes.slice], Nat.zero_le _, rfl, List.prefix_rfl⟩
  | @tail s s' hreaches hnext ih =>
    obtain ⟨stage, outcome, hstep⟩ := hnext
    by_cases hstage : stage = .consumer
    · subst hstage
      have hmoves := consumerMoves_of_step hstep
      by_cases hfailed : s.consumer.isFailed = true
      · rw [sent_of_failed hmoves hfailed]
        exact ih
      · obtain ⟨written, chunks, hfollows⟩ :=
          follows_of_reaches hreaches (Bool.eq_false_of_not_eq_true hfailed)
        rcases hfollows.consumer hmoves with hfails | ⟨written', hfollows'⟩
        · -- the step that fails: only a write that breaks off leaves something behind
          cases hmoves with
          | breaks hconsumer => exact sentOf_of_breaks hfollows hconsumer _
          | givesUp | fails => exact ih
          | aborts hconsumer =>
            rw [hconsumer] at hfailed
            exact absurd rfl hfailed
          | takes | writes | recycles | drops | passes | joins | returns => cases hfails
        · exact sentOf_of_follows hfollows'
    · rw [sent_of_moves hstep hstage]
      exact ih

end

/-! ### The loop that sends zeros -/

variable {write : Nat → Outcome}

/-- What the loop puts on the stream behind `sent`: the beginning of the frames of some zeros, of
all that remain when it comes to its end. -/
theorem sendGeneratedLoop_sends (fuel remaining bytesStreamed turn : Nat) (sent : List UInt8) :
    ∃ (chunks : List (List UInt8)) (frames : List UInt8),
      chunks.flatten = List.replicate chunks.flatten.length 0 ∧
      chunks.flatten.length ≤ remaining ∧
      encodePayloadFrames crypto args.payloadCodec
        (laneCodec crypto args.payloadCodec args.transferId args.laneIndex)
        (args.numbered turn chunks) = .ok frames ∧
      (sendGeneratedLoop crypto args write fuel remaining bytesStreamed turn sent).2 <+:
        sent ++ frames := by
  have hnone : ∃ (chunks : List (List UInt8)) (frames : List UInt8),
      chunks.flatten = List.replicate chunks.flatten.length 0 ∧
      chunks.flatten.length ≤ remaining ∧
      encodePayloadFrames crypto args.payloadCodec
        (laneCodec crypto args.payloadCodec args.transferId args.laneIndex)
        (args.numbered turn chunks) = .ok frames ∧ sent <+: sent ++ frames :=
    ⟨[], [], rfl, Nat.zero_le _, rfl, List.prefix_append _ _⟩
  induction fuel generalizing remaining bytesStreamed turn sent with
  | zero => exact hnone
  | succ fuel ih =>
    rw [sendGeneratedLoop]
    by_cases hmore : remaining > 0
    · rw [if_pos hmore]
      dsimp only
      have hle : min remaining args.ioChunkBytes ≤ remaining := Nat.min_le_left _ _
      generalize min remaining args.ioChunkBytes = toSend at hle ⊢
      cases hframe : args.frame crypto (min turn u64Max) (List.replicate toSend 0) with
      | error msg => exact hnone
      | ok frame =>
        -- the chunk of this turn, and those of the turns behind it
        have hcons : ∀ (chunks : List (List UInt8)) (frames : List UInt8),
            chunks.flatten = List.replicate chunks.flatten.length 0 →
            chunks.flatten.length ≤ remaining - toSend →
            encodePayloadFrames crypto args.payloadCodec
              (laneCodec crypto args.payloadCodec args.transferId args.laneIndex)
              (args.numbered (turn + 1) chunks) = .ok frames →
            (List.replicate toSend 0 :: chunks).flatten =
                List.replicate (List.replicate toSend 0 :: chunks).flatten.length 0 ∧
              (List.replicate toSend 0 :: chunks).flatten.length ≤ remaining ∧
              encodePayloadFrames crypto args.payloadCodec
                (laneCodec crypto args.payloadCodec args.transferId args.laneIndex)
                (args.numbered turn (List.replicate toSend 0 :: chunks)) =
                .ok (frame ++ frames) := by
          intro chunks frames hzeros hbound hframes
          rw [SendLaneArgs.frame] at hframe
          refine ⟨?_, ?_, ?_⟩
          · rw [List.flatten_cons, List.length_append, List.length_replicate, hzeros,
              List.length_replicate, List.replicate_append_replicate]
          · rw [List.flatten_cons, List.length_append, List.length_replicate]
            omega
          · simp [SendLaneArgs.numbered, encodePayloadFrames, hframe, hframes, bind, Except.bind,
              pure, Except.pure]
        have hone := hcons [] [] rfl (Nat.zero_le _) rfl
        rw [List.append_nil] at hone
        cases write turn with
        | fail n =>
          exact ⟨_, _, hone.1, hone.2.1, hone.2.2,
            (List.prefix_append_right_inj _).2 (List.take_prefix _ _)⟩
        | done n =>
          dsimp only
          split
          · rename_i remaining' bytesStreamed' hremaining _
            have hleft : remaining' = remaining - toSend := by
              rw [checkedSub_of_le hle] at hremaining
              exact (Except.ok.inj hremaining).symm
            subst hleft
            obtain ⟨chunks, frames, hzeros, hbound, hframes, hsent⟩ :=
              ih (remaining - toSend) bytesStreamed' (turn + 1) (sent ++ frame)
                ⟨[], [], rfl, Nat.zero_le _, rfl, List.prefix_append _ _⟩
            obtain ⟨hzeros', hbound', hframes'⟩ := hcons chunks frames hzeros hbound hframes
            rw [List.append_assoc] at hsent
            exact ⟨_, _, hzeros', hbound', hframes', hsent⟩
          · exact ⟨_, _, hone.1, hone.2.1, hone.2.2, List.prefix_rfl⟩
    · rw [if_neg hmore]
      exact hnone

theorem sentOf_of_generated (write : Nat → Outcome) :
    SentOf crypto args (List.replicate args.rangeEndExclusive 0)
      (sendGeneratedLane crypto args write).2 := by
  unfold sendGeneratedLane
  cases hremaining : checkedSub args.rangeEndExclusive args.resumeOffset with
  | error stop => exact ⟨[], [], by simp [Bytes.slice], Nat.zero_le _, rfl, List.prefix_rfl⟩
  | ok remaining =>
    have hleft : remaining = args.totalBytes ∧ args.resumeOffset ≤ args.rangeEndExclusive := by
      unfold checkedSub at hremaining
      split at hremaining
      · rename_i hle
        exact ⟨(Except.ok.inj hremaining).symm, hle⟩
      · cases hremaining
    obtain ⟨chunks, frames, hzeros, hbound, hframes, hsent⟩ :=
      @sendGeneratedLoop_sends crypto args write (remaining + 1) remaining 0 0 []
    rw [hleft.1] at hbound
    refine ⟨chunks, frames, ?_, hbound, hframes, hsent⟩
    rw [SendLaneArgs.totalBytes] at hbound
    rw [Bytes.slice, List.drop_replicate, List.take_replicate, Nat.add_sub_cancel_left,
      Nat.min_eq_left hbound]
    exact hzeros

/-- **What either sender has sent** at any moment, whatever has failed. -/
theorem sentOf_of_sends {sent : List UInt8} (h : Sends crypto source args sent) :
    SentOf crypto args (content source args) sent := by
  cases source with
  | file contents =>
    simp only [Sends] at h
    split at h
    · subst h
      exact ⟨[], [], by simp [Bytes.slice], Nat.zero_le _, rfl, List.prefix_rfl⟩
    · obtain ⟨s, hreaches, rfl⟩ := h
      exact sentOf_of_reaches hreaches
  | generatedZeros =>
    obtain ⟨write, rfl⟩ := h
    exact sentOf_of_generated write

/-- **What is sent in all** by a sender that returns `Ok`: the frames of the range. -/
theorem sentOf_of_sendsAll {sent : List UInt8} (hmax : args.rangeEndExclusive ≤ u64Max)
    (h : SendsAll crypto source args sent) :
    ∃ chunks : List (List UInt8), chunks.flatten.length = args.totalBytes ∧
      chunks.flatten =
        Bytes.slice (content source args) args.resumeOffset args.rangeEndExclusive ∧
      args.frames crypto chunks = .ok sent := by
  cases source with
  | file contents =>
    obtain ⟨n, hlane⟩ := h
    unfold FileLane at hlane
    split at hlane
    · cases hlane.1
    rename_i remaining hremaining
    have hle : args.resumeOffset ≤ args.rangeEndExclusive := by
      by_contra hlt
      rw [checkedSub, if_neg hlt] at hremaining
      cases hremaining
    obtain ⟨returned, hreturns, hok⟩ := hlane
    cases returned with
    | error err => cases hok
    | ok count =>
      unfold SendPipeline.Returns at hreturns
      split at hreturns
      · rename_i hnone
        refine ⟨[], hnone.symm, ?_, by rw [hreturns.2]; rfl⟩
        rw [SendLaneArgs.totalBytes] at hnone
        rw [Bytes.slice, hnone, List.take_zero, List.flatten_nil]
      · obtain ⟨s, hreaches, hreturned, rfl⟩ := hreturns
        obtain ⟨written, chunks, hfollows⟩ :=
          SendPipeline.follows_of_reaches hreaches (by rw [hreturned]; rfl)
        have hall := hfollows.finished (by rw [hreturned]; rfl)
        obtain ⟨rfl, -⟩ := hfollows.all_written hall
        have hlen := hfollows.streamed.symm.trans hall
        have hfile := hfollows.file
        rw [hlen, SendLaneArgs.totalBytes, Nat.add_sub_cancel' hle] at hfile
        exact ⟨chunks, hlen, hfile, hfollows.sent⟩
  | generatedZeros =>
    obtain ⟨write, n, hlane⟩ := h
    have hle : args.resumeOffset ≤ args.rangeEndExclusive := by
      by_contra hlt
      rw [sendGeneratedLane, checkedSub, if_neg hlt] at hlane
      cases hlane
    obtain ⟨-, hspec⟩ := @sendGeneratedLane_spec crypto args write hle hmax
    obtain ⟨-, chunks, hzeros, hframes⟩ := hspec n (by rw [hlane])
    refine ⟨chunks, by rw [hzeros, List.length_replicate], ?_, by rw [hframes, hlane]⟩
    rw [hzeros, content, Bytes.slice, List.drop_replicate, List.take_replicate, Nat.min_self]
    rfl

/-! ## What is read off the stream -/

/-- **The frames that are read off the beginning of an encoding** are those of the first chunks,
and open to them. -/
theorem plaintexts_of_sent {payloadCodec : PayloadCodec} {transferId : Uuid} {laneIndex : Nat}
    (hcrypto : crypto.OpensSealed) {chunks : List (List UInt8 × Nonce)}
    {payload stream rest : List UInt8} {frames : List WireFrame} {plaintexts : List (List UInt8)}
    (hencode : encodePayloadFrames crypto payloadCodec
      (laneCodec crypto payloadCodec transferId laneIndex) chunks = .ok payload)
    (hsent : stream <+: payload)
    (hreads : ReadsFrames payloadCodec transferId laneIndex stream frames rest)
    (hopens : Opens crypto payloadCodec transferId laneIndex frames plaintexts) :
    plaintexts <+: chunks.map Prod.fst := by
  induction frames generalizing chunks payload stream plaintexts with
  | nil =>
    rw [opens_nil.1 hopens]
    exact List.nil_prefix
  | cons frame frames ih =>
    obtain ⟨next, hread, hrest⟩ := hreads
    obtain ⟨plaintext, plaintexts, rfl, hdecode, hothers⟩ := opens_cons.1 hopens
    have hnonempty := (of_readWirePayloadFrame hread).1
    cases chunks with
    | nil =>
      -- nothing was sent, and a header has been read
      cases hencode
      rw [List.prefix_nil.1 hsent] at hnonempty
      have hlen := congrArg List.length hnonempty
      simp only [List.length_append, FrameHeader.size, List.length_nil,
        appPayloadFrameHeaderBytes] at hlen
      omega
    | cons head chunks =>
      obtain ⟨chunk, nonce⟩ := head
      obtain ⟨hpos, hmax⟩ := bounds_of_encodePayloadFrames hencode (chunk, nonce) (by simp)
      obtain ⟨wirePayload, hframe, hwire, hopened⟩ :=
        encodePayloadFrame_spec payloadCodec transferId laneIndex hcrypto nonce hpos hmax
      simp only [encodePayloadFrames, hframe, bind, Except.bind] at hencode
      cases htail : encodePayloadFrames crypto payloadCodec
          (laneCodec crypto payloadCodec transferId laneIndex) chunks with
      | error e => simp [htail] at hencode
      | ok tail =>
        simp only [htail] at hencode
        cases hencode
        by_cases hshort : stream.length < appPayloadFrameHeaderBytes + wirePayload.length
        · -- the frame is cut off, and was read
          have hin : stream <+: (FrameHeader.ofParts chunk.length nonce).bytes ++ wirePayload := by
            refine List.prefix_of_prefix_length_le hsent (List.prefix_append _ _) ?_
            rw [List.length_append, FrameHeader.size]
            omega
          obtain ⟨err, herr⟩ := @readWirePayloadFrame_truncated payloadCodec transferId laneIndex
            _ _ _ _ hpos hmax hwire hin hshort
          rw [herr] at hread
          cases hread
        · obtain ⟨stream', rfl⟩ : ∃ stream', stream =
              (FrameHeader.ofParts chunk.length nonce).bytes ++ wirePayload ++ stream' := by
            obtain ⟨stream', hstream⟩ := List.prefix_of_prefix_length_le
              (List.prefix_append _ tail) hsent (by
                rw [List.length_append, FrameHeader.size]
                omega)
            exact ⟨stream', hstream.symm⟩
          have hread' := @readWirePayloadFrame_append payloadCodec transferId laneIndex _ nonce _
            hpos hmax hwire stream'
          rw [hread'] at hread
          cases hread
          have hchunk : plaintext = chunk := by
            simp only [WireFrame.decode, hopened, withContext] at hdecode
            exact (Except.ok.inj hdecode).symm
          rw [hchunk, List.map_cons, List.prefix_cons_inj]
          exact ih htail ((List.prefix_append_right_inj _).1 hsent) hrest hothers

/-! ## Both sides -/

/-- The server receives what the client sends. -/
structure Ends (client : SendLaneArgs) (server : ReceiveLanePipelineArgs) : Prop where
  transferId : server.transferId = client.transferId
  laneIndex : server.laneIndex = client.laneIndex
  resumeOffset : server.resumeOffset = client.resumeOffset
  expectedBytes : server.expectedBytes = client.totalBytes
  payloadCodec : server.payloadCodec = client.payloadCodec

section

variable {server : ReceiveLanePipelineArgs} {data sent stream file : List UInt8} {s : Pipeline}

/-- What the receiving side has written, in any state: plaintexts of the stream's first frames. -/
theorem written_of_follows {τ : Pipeline.Trace}
    (h : Pipeline.Follows crypto server stream file s τ) :
    ∃ frames rest,
      ReadsFrames server.payloadCodec server.transferId server.laneIndex stream frames rest ∧
      Opens crypto server.payloadCodec server.transferId server.laneIndex frames τ.written := by
  have hopens := h.opens
  rw [List.append_assoc] at hopens
  have haccepted : τ.accepted s = τ.opened.take τ.written.length ++
      (τ.opened.drop τ.written.length ++ τ.failed ++ s.decryptQueue ++ s.reader.pending) := by
    simp only [← List.append_assoc, List.take_append_drop]
    rfl
  have hreads := h.reads
  rw [haccepted] at hreads
  obtain ⟨mid, hleft, -⟩ := hreads.left
  exact ⟨_, mid, hleft, hopens.take⟩

/-- **The file of the server** holds a part of what was sent, in its place. -/
theorem file_of_reaches (hcrypto : crypto.OpensSealed) (hends : Ends args server)
    (hsent : SentOf crypto args data sent) (hstream : stream <+: sent)
    (hreaches : Pipeline.Reaches crypto server (Pipeline.start server stream file) s) :
    ∃ n ≤ args.totalBytes,
      (Bytes.slice data args.resumeOffset (args.resumeOffset + n)).length = n ∧
      s.file = Bytes.writeAt args.resumeOffset
        (Bytes.slice data args.resumeOffset (args.resumeOffset + n)) file ∧
      ∀ m, s.reader = .returned (.ok m) → m = args.totalBytes ∧ n = args.totalBytes := by
  obtain ⟨chunks, frames, hdata, hbound, hframes, hprefix⟩ := hsent
  obtain ⟨τ, h⟩ := Pipeline.follows_of_reaches hreaches
  obtain ⟨read, rest, hreads, hopens⟩ := written_of_follows h
  rw [hends.payloadCodec, hends.transferId, hends.laneIndex] at hreads hopens
  have hwritten : τ.written <+: chunks := by
    have := plaintexts_of_sent hcrypto hframes (hstream.trans hprefix) hreads hopens
    rwa [map_fst_numbered] at this
  obtain ⟨more, hmore⟩ := hwritten
  have hflat : τ.written.flatten ++ more.flatten = chunks.flatten := by
    rw [← List.flatten_append, hmore]
  have hlen := congrArg List.length hflat
  rw [List.length_append] at hlen
  have hslice : τ.written.flatten = Bytes.slice data args.resumeOffset
      (args.resumeOffset + τ.written.flatten.length) := by
    have htake := congrArg (List.take τ.written.flatten.length) hdata
    rwa [← hflat, List.take_left' rfl, Bytes.slice_take, Nat.min_eq_right
      (by rw [List.length_append]; omega)] at htake
  refine ⟨τ.written.flatten.length, by omega, by rw [← hslice], ?_, fun m hreturned => ?_⟩
  · rw [← hslice, ← hends.resumeOffset]
    exact h.file
  · obtain ⟨hm, -, hdecrypt, hwriter⟩ := h.returnedOk m hreturned
    have hcount := (h.writerDone m hwriter).1
    rw [h.bytesWritten] at hcount
    rw [hm, hends.expectedBytes] at hcount
    exact ⟨hm.trans hends.expectedBytes, hcount.symm⟩

/-- When all was sent and the stream carries it, the receiving side does not fail. -/
theorem returned_of_whole (hcrypto : crypto.OpensSealed) (hends : Ends args server)
    (hmax : args.rangeEndExclusive ≤ u64Max) (hall : SendsAll crypto source args sent)
    (hreaches : Pipeline.Reaches crypto server (Pipeline.start server sent file) s)
    (hstuck : ∀ stage, Pipeline.step? crypto server stage s = none) :
    s.reader = .returned (.ok args.totalBytes) := by
  obtain ⟨chunks, hlen, -, hframes⟩ := sentOf_of_sendsAll hmax hall
  obtain ⟨τ, h⟩ := Pipeline.follows_of_reaches hreaches
  obtain ⟨r, hreturned⟩ := Pipeline.returned_of_stuck hstuck
  have hreceived := receiveLanePayloadNoDisk_encodePayloadFrames hcrypto
    (bounds_of_encodePayloadFrames hframes) hframes []
  rw [List.append_nil, List.flatMap_def, map_fst_numbered, hlen, ← hends.expectedBytes,
    ← hends.transferId, ← hends.laneIndex, ← hends.payloadCodec] at hreceived
  cases r with
  | ok m => rw [hreturned, (h.returnedOk m hreturned).1, hends.expectedBytes]
  | error err => exact absurd hreceived (h.not_received_of_returned hreturned)

end

/-! ## The lane of a plan -/

/-- **The two ends of a lane of the plan** work with the same arguments, once the offset is
acknowledged. -/
theorem ends_of_plan {transfer : TransferSummary} {lanes ioChunkBytes : Nat}
    {runtimeProfile : Option RuntimeProfile} {fileReadPipelineDepth : Option Nat}
    {tuning : RuntimeTuning} {opens : List QuicTransferOpen}
    (hplan : planOpens transfer lanes ioChunkBytes runtimeProfile fileReadPipelineDepth =
      .ok (tuning, opens)) {lane : QuicTransferOpen} (hlane : lane ∈ opens)
    {admission : Server.Admission} (hadmitted : Server.admitRequest lane = .ok admission)
    (source : PayloadSource) (resumeOffset : Nat) (binding : Uuid) :
    Ends (sendArgs source tuning lane resumeOffset binding)
      (Server.pipelineArgs lane admission resumeOffset) where
  transferId := rfl
  laneIndex := rfl
  resumeOffset := rfl
  expectedBytes := by
    obtain ⟨hend, -⟩ := requestedEnd_of_mem_plan hplan hlane
    show admission.rangeEndExclusive - resumeOffset = lane.rangeEndExclusive - resumeOffset
    rw [(Server.of_admitRequest hadmitted).2.2.1, hend]
  payloadCodec := by
    have hcodec := Server.fromWire_of_admitRequest hadmitted
    rw [(requestedEnd_of_mem_plan hplan hlane).2, PayloadCodec.fromWire_asWire] at hcodec
    exact (Option.some.inj hcodec).symm

/-- **A lane is copied**: a planned lane that the server admits, sent from any resume offset by
either sender, under any schedule and with any failures, over a stream that is cut off anywhere,
to a receiving side under any schedule.  The server's file is what it was, with the first `n`
bytes from the resume offset on at the resume offset; the server returns `Ok` only when they are
the rest of the lane, and does so when the sender has returned `Ok` and all has arrived. -/
theorem lane_copied {crypto : AeadCrypto} (hcrypto : crypto.OpensSealed)
    {transfer : TransferSummary} {lanes ioChunkBytes : Nat}
    {runtimeProfile : Option RuntimeProfile} {fileReadPipelineDepth : Option Nat}
    {tuning : RuntimeTuning} {opens : List QuicTransferOpen}
    (hplan : planOpens transfer lanes ioChunkBytes runtimeProfile fileReadPipelineDepth =
      .ok (tuning, opens)) (hsize : transfer.fileSizeBytes ≤ u64Max)
    {lane : QuicTransferOpen} (hlane : lane ∈ opens)
    {admission : Server.Admission} (hadmitted : Server.admitRequest lane = .ok admission)
    (source : PayloadSource) (resumeOffset : Nat) (binding : Uuid) {sent stream : List UInt8}
    (hsends : Sends crypto source (sendArgs source tuning lane resumeOffset binding) sent)
    (hstream : stream <+: sent) (file : List UInt8) {s : Pipeline}
    (hreaches : Pipeline.Reaches crypto (Server.pipelineArgs lane admission resumeOffset)
      (Pipeline.start (Server.pipelineArgs lane admission resumeOffset) stream file) s) :
    let args := sendArgs source tuning lane resumeOffset binding
    let data := content source args
    (∃ n ≤ args.totalBytes,
        (Bytes.slice data resumeOffset (resumeOffset + n)).length = n ∧
        s.file = Bytes.writeAt resumeOffset (Bytes.slice data resumeOffset (resumeOffset + n))
          file ∧
        ∀ m, s.reader = .returned (.ok m) → m = args.totalBytes ∧ n = args.totalBytes) ∧
      (SendsAll crypto source args sent → stream = sent →
        (∀ stage, Pipeline.step? crypto (Server.pipelineArgs lane admission resumeOffset) stage s =
          none) → s.reader = .returned (.ok args.totalBytes)) := by
  have hends := ends_of_plan hplan hlane hadmitted source resumeOffset binding
  have hmax : lane.rangeEndExclusive ≤ u64Max := by
    obtain ⟨-, -, -, rfl⟩ := of_planOpens hplan
    obtain ⟨i, hi, rfl⟩ := mem_opens.1 hlane
    exact (laneStart_le_size hi).trans hsize
  refine ⟨file_of_reaches hcrypto hends (sentOf_of_sends hsends) hstream hreaches, ?_⟩
  rintro hall rfl hstuck
  exact returned_of_whole hcrypto hends hmax hall hreaches hstuck

namespace LaneSample

/-- A file of three bytes. -/
def transfer : TransferSummary := { PlanSample.request with fileSizeBytes := 3 }.summary .nil

/-- Chunks of 2 bytes. -/
def tuning : RuntimeTuning where
  payloadCodec := .aeadV1
  effectiveIoChunkBytes := 2
  fileReadPipelineDepth := 1
  sendTransformPipelineDepth := 1
  receiveWritePipelineDepth := 1

/-- The open message of the only lane. -/
def lane : QuicTransferOpen := laneOpen transfer tuning 1 ((0, 3), 0)

/-- A file of 3 bytes. -/
def threeBytes : PayloadSource := .file fun _ => [1, 2, 3]

/-- The id that the nonces are bound to. -/
def binding : Uuid := .nil

/-- What the server has admitted. -/
def admission : Server.Admission where
  totalLanes := 1
  rangeStart := 0
  rangeEndExclusive := 3
  striped := false
  payloadCodec := .aeadV1
  receiveWritePipelineDepth := 1

theorem planned : planOpens transfer 1 2 none (some 1) = .ok (tuning, [lane]) := rfl

theorem admitted : Server.admitRequest lane = .ok admission := by
  have hcodec : PayloadCodec.fromWire lane.payloadCodec = some .aeadV1 :=
    PayloadCodec.fromWire_asWire .aeadV1
  rw [Server.admitRequest, if_neg (by decide), if_neg (by decide), if_neg (by decide), hcodec]
  rfl

/-- The frame of one byte is written, and the write of the frame of the two others fails after
thirty bytes. -/
def send : List (SendPipeline.Stage × Outcome) :=
  [(.reader, .done 0)] ++ SendPipeline.SendSample.turn 1 ++
    [(.reader, .done 0), (.reader, .done 2), (.reader, .done 0), (.encrypt, .done 0),
      (.encrypt, .done 0), (.consumer, .done 0), (.consumer, .fail 30), (.consumer, .done 0)]

/-- What the stages of the receiving side do in turn. -/
def receive (crypto : AeadCrypto) (args : ReceiveLanePipelineArgs) :
    List Pipeline.Stage → Pipeline → Option Pipeline
  | [], s => some s
  | stage :: schedule, s => (Pipeline.step? crypto args stage s).bind (receive crypto args schedule)

theorem reaches_of_receive {crypto : AeadCrypto} {args : ReceiveLanePipelineArgs}
    {schedule : List Pipeline.Stage} {s s' : Pipeline}
    (h : receive crypto args schedule s = some s') : Pipeline.Reaches crypto args s s' := by
  induction schedule generalizing s with
  | nil =>
    cases h
    exact .refl
  | cons stage schedule ih =>
    obtain ⟨next, hnext, hrest⟩ := Option.bind_eq_some_iff.1 h
    exact .head ⟨stage, hnext⟩ (ih hrest)

/-- One frame goes through, and the reader finds the next one cut off. -/
def arrive : List Pipeline.Stage :=
  [.reader, .reader, .reader, .decrypt, .decrypt, .decrypt, .writer, .writer, .reader, .reader]

end LaneSample

open LaneSample in
/-- One of three bytes is copied. -/
theorem lane_copied_cut_off :
    ∃ sent s, Sends Sample.crypto threeBytes (sendArgs threeBytes tuning lane 0 binding) sent ∧
      Pipeline.Reaches Sample.crypto (Server.pipelineArgs lane admission 0)
        (Pipeline.start (Server.pipelineArgs lane admission 0) sent [9, 9, 9, 9]) s ∧
      s.file = [1, 9, 9, 9] ∧ (∀ m, s.reader ≠ .returned (.ok m)) ∧
      ∃ n ≤ 3, s.file = Bytes.writeAt 0 (Bytes.slice [1, 2, 3] 0 (0 + n)) [9, 9, 9, 9] := by
  have hsend : ∃ c, SendPipeline.run Sample.crypto (sendArgs threeBytes tuning lane 0 binding) send
      (SendPipeline.start (sendArgs threeBytes tuning lane 0 binding)) = some c := ⟨_, rfl⟩
  obtain ⟨c, hc⟩ := hsend
  have hsends : Sends Sample.crypto threeBytes (sendArgs threeBytes tuning lane 0 binding) c.sent :=
    ⟨c, SendPipeline.reaches_of_run hc, rfl⟩
  have hreceive : ∃ s, receive Sample.crypto (Server.pipelineArgs lane admission 0) arrive
      (Pipeline.start (Server.pipelineArgs lane admission 0) c.sent [9, 9, 9, 9]) = some s ∧
      s.file = [1, 9, 9, 9] ∧ ∃ err, s.reader = .returned (.error err) := by
    cases hc
    exact ⟨_, rfl, rfl, _, rfl⟩
  obtain ⟨s, hs, hfile, err, herr⟩ := hreceive
  obtain ⟨⟨n, hn, -, hcopied, -⟩, -⟩ := lane_copied Sample.crypto_opensSealed planned (by decide)
    (List.mem_singleton_self _) admitted threeBytes 0 binding hsends List.prefix_rfl [9, 9, 9, 9]
    (reaches_of_receive hs)
  refine ⟨c.sent, s, hsends, reaches_of_receive hs, hfile, fun m hreturned => ?_, n, hn, hcopied⟩
  rw [herr] at hreturned
  cases hreturned

end Metra.EndToEnd
