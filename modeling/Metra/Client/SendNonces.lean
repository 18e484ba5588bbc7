import Metra.Client.SendTransfer

/-!
# The nonces of a lane

The key that the frames of a lane are sealed with is made of the transfer's id and of the index
of the lane, so that each session that goes on with the lane seals under it again.  What keeps
the nonces apart is how they are made: four random bytes for each session, and behind them the
number of the frame in the session.

* `FrameCall` — a call of `encode_payload_frame`, with the frame counter it finds;
* `Run` and `generatedCalls` — the calls of either sender, up to wherever it gets;
  `sent_prefix_of_run` and `sendGeneratedLoop_sent` — **what is on the stream are the frames of
  these calls**;
* `Counts` — the calls of a session find the counter at 0, 1, 2, …, and there are no more of
  them than bytes to send (`counts_of_run`, `counts_of_generatedCalls`);
* `nonces_of_lane` — **under the key of a lane a nonce comes twice only from two sessions that
  drew the same four bytes**.
-/

namespace Metra.Client

open SendPipeline

/-! ## The encoding of a nonce -/

/-- A nonce is one counter behind one prefix, as long as the counter is a `u64`. -/
theorem payloadNonce_inj {first first' : NoncePrefix} {counter counter' : Nat}
    (hcounter : counter ≤ u64Max) (hcounter' : counter' ≤ u64Max)
    (h : payloadNonce first counter = payloadNonce first' counter') :
    first = first' ∧ counter = counter' := by
  obtain ⟨bytes, size⟩ := first
  obtain ⟨bytes', size'⟩ := first'
  have hbytes := congrArg Nonce.bytes h
  simp only [payloadNonce] at hbytes
  obtain ⟨hfirst, hword⟩ := List.append_inj hbytes (size.trans size'.symm)
  have hfits : ∀ n, n ≤ u64Max → n < 256 ^ 8 := by
    intro n hn
    simp only [u64Max] at hn
    omega
  have heq := Bytes.toBeBytes_inj (hfits counter hcounter) (hfits counter' hcounter') hword
  subst hfirst heq
  exact ⟨rfl, rfl⟩

/-! ## The calls of a sender -/

/-- A call of `encode_payload_frame`, with the frame counter at the time. -/
structure FrameCall where
  frameCounter : Nat
  plaintext : List UInt8
  nonce : Nonce
  aeadCodec : Option AeadLaneCodec

/-- The call that a sender makes for a chunk. -/
def SendLaneArgs.frameCall (crypto : AeadCrypto) (args : SendLaneArgs) (frameCounter : Nat)
    (plaintext : List UInt8) : FrameCall where
  frameCounter := frameCounter
  plaintext := plaintext
  nonce := payloadNonce (randomNoncePrefix args.binding) frameCounter
  aeadCodec := laneCodec crypto args.payloadCodec args.transferId args.laneIndex

/-- What the call returns. -/
def FrameCall.result (crypto : AeadCrypto) (payloadCodec : PayloadCodec) (call : FrameCall) :
    Except String (List UInt8) :=
  encodePayloadFrame crypto payloadCodec call.plaintext call.nonce call.aeadCodec

/-- The frames that the calls return, one behind the other. -/
def FrameCall.frames (crypto : AeadCrypto) (payloadCodec : PayloadCodec)
    (calls : List FrameCall) : List UInt8 :=
  (calls.map fun call => (call.result crypto payloadCodec).toOption.getD []).flatten

/-- The key that the call seals with, if it seals. -/
def FrameCall.key (call : FrameCall) : Option (List UInt8) :=
  call.aeadCodec.map AeadLaneCodec.key

/-- The calls of a session: their counters are 0, 1, 2, …, and for each there is a byte. -/
structure Counts (crypto : AeadCrypto) (args : SendLaneArgs) (calls : List FrameCall) :
    Prop where
  numbered : ∃ plaintexts : List (List UInt8), calls = plaintexts.mapIdx (args.frameCall crypto)
  bound : calls.length ≤ args.totalBytes

variable {crypto : AeadCrypto} {args : SendLaneArgs} {calls : List FrameCall}

theorem counts_nil : Counts crypto args [] where
  numbered := ⟨[], rfl⟩
  bound := Nat.zero_le _

/-- The frames of one call more. -/
theorem frames_concat (codec : PayloadCodec) (call : FrameCall) :
    FrameCall.frames crypto codec (calls ++ [call]) =
      FrameCall.frames crypto codec calls ++ (call.result crypto codec).toOption.getD [] := by
  simp [FrameCall.frames]

theorem frames_cons (codec : PayloadCodec) (call : FrameCall) :
    FrameCall.frames crypto codec (call :: calls) =
      (call.result crypto codec).toOption.getD [] ++ FrameCall.frames crypto codec calls := by
  simp [FrameCall.frames]

/-- The frame for a chunk is what its call returns. -/
theorem frame_eq_result (frameCounter : Nat) (plaintext : List UInt8) :
    args.frame crypto frameCounter plaintext =
      (args.frameCall crypto frameCounter plaintext).result crypto args.payloadCodec := rfl

/-- Where a call stands is what its counter says. -/
theorem Counts.frameCall (h : Counts crypto args calls) {i : Nat} {call : FrameCall}
    (hcall : calls[i]? = some call) :
    ∃ plaintext, call = args.frameCall crypto i plaintext ∧ i < args.totalBytes := by
  obtain ⟨plaintexts, heq⟩ := h.numbered
  have hlt : i < calls.length := (List.getElem?_eq_some_iff.1 hcall).1
  rw [heq, List.getElem?_mapIdx, Option.map_eq_some_iff] at hcall
  obtain ⟨plaintext, -, rfl⟩ := hcall
  exact ⟨plaintext, rfl, hlt.trans_le h.bound⟩

/-- A call with the counter at the number of calls before it. -/
theorem Counts.concat (h : Counts crypto args calls) (plaintext : List UInt8)
    (hroom : calls.length < args.totalBytes) :
    Counts crypto args (calls ++ [args.frameCall crypto calls.length plaintext]) where
  numbered := by
    obtain ⟨plaintexts, heq⟩ := h.numbered
    refine ⟨plaintexts ++ [plaintext], ?_⟩
    have hlen : calls.length = plaintexts.length := by rw [heq, List.length_mapIdx]
    rw [List.mapIdx_concat, ← heq, hlen]
  bound := by
    rw [List.length_append, List.length_singleton]
    exact hroom

/-! ## The calls of the pipeline -/

namespace SendPipeline

variable (crypto args)

/-- The calls that the next step of a stage makes: the encrypt task one for the chunk it
takes. -/
def frameCalls (stage : Stage) (s : SendPipeline) : List FrameCall :=
  match stage with
  | .encrypt =>
    match s.encrypt, s.readQueue with
    | .receiving, chunk :: _ => [args.frameCall crypto s.frameCounter chunk.plaintext]
    | _, _ => []
  | _ => []

/-- A run of the pipeline up to some state, with the calls it has made. -/
inductive Run : SendPipeline → List FrameCall → Prop
  | start : Run (start args) []
  | step {s s' : SendPipeline} {calls : List FrameCall} {stage : Stage} {outcome : Outcome}
      (hrun : Run s calls) (hstep : step? crypto args stage outcome s = some s') :
      Run s' (calls ++ frameCalls crypto args stage s)

variable {crypto args} {s s' : SendPipeline} {outcome : Outcome}

theorem frameCalls_takes {chunk : SendReadChunk} {queue : List SendReadChunk}
    (hencrypt : s.encrypt = .receiving) (hqueue : s.readQueue = chunk :: queue) :
    frameCalls crypto args .encrypt s =
      [args.frameCall crypto s.frameCounter chunk.plaintext] := by
  simp [frameCalls, hencrypt, hqueue]

theorem frameCalls_sending {chunk : SendWireChunk} (hencrypt : s.encrypt = .sending chunk) :
    frameCalls crypto args .encrypt s = [] := by
  simp [frameCalls, hencrypt]

theorem frameCalls_empty (hqueue : s.readQueue = []) :
    frameCalls crypto args .encrypt s = [] := by
  simp [frameCalls, hqueue]

/-- Every state of the pipeline is reached with some calls. -/
theorem exists_run_iff :
    (∃ calls, Run crypto args s calls) ↔ Reaches crypto args (start args) s := by
  constructor
  · rintro ⟨calls, hrun⟩
    induction hrun with
    | start => exact .refl
    | step _ hstep ih => exact ih.tail ⟨_, _, hstep⟩
  · intro h
    induction h with
    | refl => exact ⟨[], .start⟩
    | tail _ hnext ih =>
      obtain ⟨calls, hrun⟩ := ih
      obtain ⟨stage, outcome, hstep⟩ := hnext
      exact ⟨_, hrun.step hstep⟩

/-- The rule for runs: what each move of a stage preserves holds in all of them. -/
theorem Run.keeps {P : SendPipeline → List FrameCall → Prop}
    (hstart : P (SendPipeline.start args) [])
    (hreader : ∀ {s s' : SendPipeline} {calls : List FrameCall} {outcome : Outcome},
      Run crypto args s calls → P s calls → ReaderMoves args outcome s s' → P s' calls)
    (hencrypt : ∀ {s s' : SendPipeline} {calls : List FrameCall}, P s calls →
      EncryptMoves crypto args s s' → P s' (calls ++ frameCalls crypto args .encrypt s))
    (hconsumer : ∀ {s s' : SendPipeline} {calls : List FrameCall} {outcome : Outcome},
      P s calls → ConsumerMoves args outcome s s' → P s' calls)
    (h : Run crypto args s calls) : P s calls := by
  induction h with
  | start => exact hstart
  | @step s s' calls stage outcome hrun hstep ih =>
    cases stage with
    | reader =>
      simp only [frameCalls, List.append_nil]
      exact hreader hrun ih (readerMoves_of_step hstep)
    | encrypt => exact hencrypt ih (encryptMoves_of_step hstep)
    | consumer =>
      simp only [frameCalls, List.append_nil]
      exact hconsumer ih (consumerMoves_of_step hstep)

/-- What the calls up to a state have to do with it: the counter is their number, and there is
a byte for each of them, for each chunk before the encrypt task, and for each byte the reader
has not handed on. -/
structure Tallies (crypto : AeadCrypto) (args : SendLaneArgs) (s : SendPipeline)
    (calls : List FrameCall) : Prop where
  counts : Counts crypto args calls
  counter : s.encrypt.isFinished = false → s.frameCounter = calls.length
  bytes : calls.length + s.readQueue.length + s.toRead ≤ args.totalBytes
  chunk : ∀ chunk, s.reader = .sending chunk → 0 < chunk.bytesRead

theorem tallies_start : Tallies crypto args (start args) [] where
  counts := counts_nil
  counter _ := rfl
  bytes := by simp [start]
  chunk _ := Reader.noConfusion

/-- The reader makes no calls; a chunk that it hands on takes its bytes from those to read. -/
theorem Tallies.reader (h : Tallies crypto args s calls)
    (hmoves : ReaderMoves args outcome s s')
    (hle : ∀ chunk, s.reader = .sending chunk → chunk.bytesRead ≤ s.toRead) :
    Tallies crypto args s' calls := by
  cases hmoves with
  | opens | takes => exact { h with chunk := fun _ => Reader.noConfusion }
  | reads _ hpos =>
    refine { h with chunk := ?_ }
    intro chunk heq
    cases heq
    exact hpos
  | sends hreader =>
    refine { h with bytes := ?_, chunk := fun _ => Reader.noConfusion }
    have hpos := h.chunk _ hreader
    have hbytes := h.bytes
    have hbytesRead := hle _ hreader
    simp only [List.length_append, List.length_singleton]
    omega
  | ends => exact { h with chunk := fun _ => Reader.noConfusion }

/-- The encrypt task ends: the chunks before it are dropped. -/
theorem Tallies.endEncrypt (h : Tallies crypto args s calls) (result : Except String Unit)
    (taken : List Buffer) : Tallies crypto args (s.endEncrypt result taken) calls where
  counts := h.counts
  counter hrunning := by cases hrunning
  bytes := by
    have hbytes := h.bytes
    simp only [SendPipeline.endEncrypt, List.length_nil]
    omega
  chunk := h.chunk

/-- A chunk is taken, and the call for it is made. -/
theorem Tallies.called (h : Tallies crypto args s calls) {chunk : SendReadChunk}
    {queue : List SendReadChunk} (hencrypt : s.encrypt = .receiving)
    (hqueue : s.readQueue = chunk :: queue) :
    Counts crypto args (calls ++ [args.frameCall crypto s.frameCounter chunk.plaintext]) ∧
      (calls ++ [args.frameCall crypto s.frameCounter chunk.plaintext]).length + queue.length +
        s.toRead ≤ args.totalBytes := by
  have hbytes := h.bytes
  rw [hqueue, List.length_cons] at hbytes
  rw [h.counter (by rw [hencrypt]; rfl)]
  refine ⟨h.counts.concat _ (by omega), ?_⟩
  rw [List.length_append, List.length_singleton]
  omega

theorem Tallies.encrypt (h : Tallies crypto args s calls) (hmax : args.totalBytes ≤ u64Max)
    (hmoves : EncryptMoves crypto args s s') :
    Tallies crypto args s' (calls ++ frameCalls crypto args .encrypt s) := by
  cases hmoves with
  | takes hencrypt hqueue =>
    obtain ⟨hcounts, hbytes⟩ := h.called hencrypt hqueue
    rw [frameCalls_takes hencrypt hqueue]
    refine ⟨hcounts, fun _ => ?_, hbytes, h.chunk⟩
    have hcounter := h.counter (by rw [hencrypt]; rfl)
    have hroom := hcounts.bound
    -- the counter has room for one more, so that it does not saturate
    simp only [List.length_append, List.length_singleton] at hroom ⊢
    omega
  | noFrame hencrypt hqueue =>
    obtain ⟨hcounts, hbytes⟩ := h.called hencrypt hqueue
    rw [frameCalls_takes hencrypt hqueue]
    refine ⟨hcounts, fun hrunning => (by cases hrunning), ?_, h.chunk⟩
    simp only [SendPipeline.endEncrypt, List.length_nil]
    omega
  | sends hencrypt =>
    rw [frameCalls_sending hencrypt, List.append_nil]
    exact { h with counter := fun _ => h.counter (by rw [hencrypt]; rfl) }
  | done hencrypt hqueue =>
    rw [frameCalls_empty hqueue, List.append_nil]
    exact h.endEncrypt _ _
  | noChannel _ hencrypt =>
    rw [frameCalls_sending hencrypt, List.append_nil]
    exact h.endEncrypt _ _

theorem Tallies.consumer (h : Tallies crypto args s calls)
    (hmoves : ConsumerMoves args outcome s s') : Tallies crypto args s' calls := by
  cases hmoves with
  | aborts =>
    have hreader : Tallies crypto args s.abortReader calls := by
      unfold abortReader
      split
      · exact h
      · exact { h with chunk := fun _ => Reader.noConfusion }
    have hencrypt : Tallies crypto args s.abortReader.abortEncrypt calls := by
      unfold abortEncrypt
      split
      · exact hreader
      · exact hreader.endEncrypt _ _
    exact { hencrypt with }
  | _ => exact { h with }

/-- **The calls of the pipeline**: at every moment the counter is the number of the calls made,
and there are no more of them than bytes. -/
theorem tallies_of_run (hmax : args.totalBytes ≤ u64Max) (h : Run crypto args s calls) :
    Tallies crypto args s calls := by
  refine h.keeps tallies_start ?_ ?_ ?_
  · intro s s' calls outcome hrun ih hmoves
    apply ih.reader hmoves
    exact bytesRead_le_of_reaches (exists_run_iff.1 ⟨calls, hrun⟩)
  · intro s s' calls ih hmoves
    exact ih.encrypt hmax hmoves
  · intro s s' calls outcome ih hmoves
    exact ih.consumer hmoves

/-! ## What is on the stream -/

/-- The frames that wait to be written. -/
def waiting (s : SendPipeline) : List UInt8 :=
  (s.encoded.map SendWireChunk.wirePayload).flatten

/-- The stream and the frames of the calls: what is on the stream is the beginning of the
frames, and unless the call has failed what waits comes next. -/
structure Writes (crypto : AeadCrypto) (args : SendLaneArgs) (s : SendPipeline)
    (calls : List FrameCall) : Prop where
  sent : s.sent <+: FrameCall.frames crypto args.payloadCodec calls
  next : s.consumer.isFailed = false →
    s.sent ++ s.waiting <+: FrameCall.frames crypto args.payloadCodec calls
  all : s.consumer.isFailed = false → s.encrypt.isFinished = false →
    s.sent ++ s.waiting = FrameCall.frames crypto args.payloadCodec calls

theorem writes_start : Writes crypto args (start args) [] where
  sent := List.prefix_rfl
  next _ := List.prefix_rfl
  all _ _ := rfl

/-- A move that leaves the stream and what waits for it as they are. -/
theorem Writes.of_same (h : Writes crypto args s calls) (hsent : s'.sent = s.sent)
    (hwaiting : s'.waiting = s.waiting) (hfailed : s'.consumer.isFailed = s.consumer.isFailed)
    (hrunning : s'.encrypt.isFinished = false → s.encrypt.isFinished = false) :
    Writes crypto args s' calls where
  sent := hsent ▸ h.sent
  next hok := by
    rw [hsent, hwaiting]
    exact h.next (hfailed ▸ hok)
  all hok henc := by
    rw [hsent, hwaiting]
    exact h.all (hfailed ▸ hok) (hrunning henc)

/-- The call has failed: what it has written stays. -/
theorem writes_of_failed (hsent : s.sent <+: FrameCall.frames crypto args.payloadCodec calls)
    (hfailed : s.consumer.isFailed = true) : Writes crypto args s calls where
  sent := hsent
  next hok := by
    rw [hfailed] at hok
    cases hok
  all hok := by
    rw [hfailed] at hok
    cases hok

theorem Writes.reader (h : Writes crypto args s calls) (hmoves : ReaderMoves args outcome s s') :
    Writes crypto args s' calls := by
  cases hmoves <;> exact h.of_same rfl rfl rfl id

/-- A frame is made: it is the last of those that wait. -/
theorem Writes.called (h : Writes crypto args s calls) {chunk : SendReadChunk}
    {queue : List SendReadChunk} {wirePayload : List UInt8} (hencrypt : s.encrypt = .receiving)
    (hframe : args.frame crypto s.frameCounter chunk.plaintext = .ok wirePayload) :
    Writes crypto args { s with
      readQueue := queue, frameCounter := min (s.frameCounter + 1) u64Max
      encrypt := .sending ⟨wirePayload, chunk.bytesRead, chunk.buffer⟩ }
      (calls ++ [args.frameCall crypto s.frameCounter chunk.plaintext]) := by
  have hframes : FrameCall.frames crypto args.payloadCodec
      (calls ++ [args.frameCall crypto s.frameCounter chunk.plaintext]) =
        FrameCall.frames crypto args.payloadCodec calls ++ wirePayload := by
    rw [frames_concat, ← frame_eq_result, hframe]
    rfl
  have hwaiting : waiting { s with
      readQueue := queue, frameCounter := min (s.frameCounter + 1) u64Max
      encrypt := .sending ⟨wirePayload, chunk.bytesRead, chunk.buffer⟩ } =
        s.waiting ++ wirePayload := by
    simp [waiting, encoded, hencrypt, Encrypt.chunks]
  have hall : s.consumer.isFailed = false → s.sent ++ (s.waiting ++ wirePayload) =
      FrameCall.frames crypto args.payloadCodec calls ++ wirePayload := by
    intro hok
    rw [← List.append_assoc, h.all hok (by rw [hencrypt]; rfl)]
  constructor
  · rw [hframes]
    exact h.sent.trans (List.prefix_append _ _)
  · intro hok
    rw [hframes, hwaiting, hall hok]
  · intro hok _
    rw [hframes, hwaiting, hall hok]

theorem Writes.encrypt (h : Writes crypto args s calls) (hmoves : EncryptMoves crypto args s s') :
    Writes crypto args s' (calls ++ frameCalls crypto args .encrypt s) := by
  cases hmoves with
  | takes hencrypt hqueue hframe =>
    rw [frameCalls_takes hencrypt hqueue]
    exact h.called hencrypt hframe
  | @noFrame chunk queue err hencrypt hqueue hframe =>
    have hframes : FrameCall.frames crypto args.payloadCodec
        (calls ++ [args.frameCall crypto s.frameCounter chunk.plaintext]) =
          FrameCall.frames crypto args.payloadCodec calls := by
      rw [frames_concat, ← frame_eq_result, hframe]
      exact List.append_nil _
    rw [frameCalls_takes hencrypt hqueue]
    refine ⟨hframes ▸ h.sent, fun hok => ?_, fun _ henc => by cases henc⟩
    have hwaiting : waiting ({ s with readQueue := queue }.endEncrypt (.error err)
        [chunk.buffer]) = s.waiting := by
      simp [waiting, encoded, hencrypt, Encrypt.chunks, SendPipeline.endEncrypt]
    rw [hframes, hwaiting]
    exact h.next hok
  | sends hencrypt =>
    rw [frameCalls_sending hencrypt, List.append_nil]
    refine h.of_same rfl ?_ rfl fun _ => by rw [hencrypt]; rfl
    simp [waiting, encoded, hencrypt, Encrypt.chunks]
  | done hencrypt hqueue =>
    rw [frameCalls_empty hqueue, List.append_nil]
    refine h.of_same rfl ?_ rfl fun _ => by rw [hencrypt]; rfl
    simp [waiting, encoded, hencrypt, Encrypt.chunks, SendPipeline.endEncrypt]
  | @noChannel chunk err hencrypt =>
    rw [frameCalls_sending hencrypt, List.append_nil]
    refine ⟨h.sent, fun hok => ?_, fun _ henc => by cases henc⟩
    have hwaiting : s.waiting = waiting (s.endEncrypt (.error err) [chunk.recycleBuffer]) ++
        chunk.wirePayload := by
      simp [waiting, encoded, hencrypt, Encrypt.chunks, SendPipeline.endEncrypt]
    have hnext := h.next hok
    rw [hwaiting, ← List.append_assoc] at hnext
    exact (List.prefix_append _ _).trans hnext

theorem Writes.consumer (h : Writes crypto args s calls)
    (hmoves : ConsumerMoves args outcome s s') : Writes crypto args s' calls := by
  cases hmoves with
  | takes hconsumer hqueue =>
    refine h.of_same rfl ?_ ?_ id
    · simp [waiting, encoded, hconsumer, hqueue, Consumer.chunks]
    · rw [hconsumer]
      rfl
  | @writes chunk hconsumer =>
    have hwaiting : s.waiting = chunk.wirePayload ++ waiting { s with
        sent := s.sent ++ chunk.wirePayload, remaining := s.remaining - chunk.plaintextLen
        bytesStreamed := s.bytesStreamed + chunk.plaintextLen
        consumer := .recycling chunk.recycleBuffer } := by
      simp [waiting, encoded, hconsumer, Consumer.chunks]
    have hok : s.consumer.isFailed = false := by rw [hconsumer]; rfl
    have hnext := h.next hok
    rw [hwaiting, ← List.append_assoc] at hnext
    refine ⟨(List.prefix_append _ _).trans hnext, fun _ => hnext, fun _ henc => ?_⟩
    have hall := h.all hok henc
    rwa [hwaiting, ← List.append_assoc] at hall
  | @breaks chunk n hconsumer =>
    apply writes_of_failed
    · have hnext := h.next (by rw [hconsumer]; rfl)
      have hwaiting : ∃ rest, s.waiting = chunk.wirePayload ++ rest := by
        simp [waiting, encoded, hconsumer, Consumer.chunks]
      obtain ⟨rest, hrest⟩ := hwaiting
      rw [hrest, ← List.append_assoc] at hnext
      have htake : s.sent ++ chunk.wirePayload.take n <+: s.sent ++ chunk.wirePayload :=
        (List.prefix_append_right_inj _).2 (List.take_prefix _ _)
      exact htake.trans ((List.prefix_append _ _).trans hnext)
    · rfl
  | recycles hconsumer | drops hconsumer | passes hconsumer | joins hconsumer =>
    refine h.of_same rfl ?_ ?_ id
    · simp [waiting, encoded, hconsumer, Consumer.chunks]
    · rw [hconsumer]
      rfl
  | returns hconsumer hended =>
    refine ⟨h.sent, fun _ => ?_, fun _ henc => ?_⟩
    · simp [waiting, encoded, hended, Consumer.chunks, Encrypt.chunks, returnWith]
      exact h.sent
    · rw [returnWith, hended] at henc
      cases henc
  | givesUp | fails => exact writes_of_failed h.sent rfl
  | aborts =>
    apply writes_of_failed
    · have hsent : s.abortReader.abortEncrypt.sent = s.sent := by
        unfold abortEncrypt abortReader
        split <;> split <;> rfl
      exact hsent ▸ h.sent
    · rfl

/-- **What is on the stream are frames of the calls**, from the first one on. -/
theorem sent_prefix_of_run (h : Run crypto args s calls) :
    s.sent <+: FrameCall.frames crypto args.payloadCodec calls := by
  have hwrites : Writes crypto args s calls := by
    refine h.keeps writes_start ?_ ?_ ?_
    · intro s s' calls outcome _ ih hmoves
      exact ih.reader hmoves
    · intro s s' calls ih hmoves
      exact ih.encrypt hmoves
    · intro s s' calls outcome ih hmoves
      exact ih.consumer hmoves
  exact hwrites.sent

end SendPipeline

/-! ## The calls of the loop that sends zeros -/

/-- The calls of `sendGeneratedLoop`, turn by turn. -/
def generatedCalls (crypto : AeadCrypto) (args : SendLaneArgs) (write : Nat → Outcome) :
    (fuel remaining bytesStreamed turn : Nat) → List FrameCall
  | 0, _, _, _ => []
  | fuel + 1, remaining, bytesStreamed, turn =>
    if remaining > 0 then
      let toSend := min remaining args.ioChunkBytes
      let call := args.frameCall crypto (min turn u64Max) (List.replicate toSend 0)
      match call.result crypto args.payloadCodec with
      | .error _ => [call]
      | .ok _ =>
        match write turn with
        | .fail _ => [call]
        | .done _ =>
          match checkedSub remaining toSend, checkedAdd bytesStreamed toSend with
          | .ok remaining, .ok bytesStreamed =>
            call :: generatedCalls crypto args write fuel remaining bytesStreamed (turn + 1)
          | _, _ => [call]
    else []

/-- The calls of `sendGeneratedLane`. -/
def generatedLaneCalls (crypto : AeadCrypto) (args : SendLaneArgs) (write : Nat → Outcome) :
    List FrameCall :=
  match checkedSub args.rangeEndExclusive args.resumeOffset with
  | .error _ => []
  | .ok remaining => generatedCalls crypto args write (remaining + 1) remaining 0 0

variable {write : Nat → Outcome}

/-- **What the loop puts on the stream are frames of its calls**, and all of them when it comes
to its end. -/
theorem sendGeneratedLoop_sent (fuel remaining bytesStreamed turn : Nat) (sent : List UInt8) :
    (sendGeneratedLoop crypto args write fuel remaining bytesStreamed turn sent).2 <+:
        sent ++ FrameCall.frames crypto args.payloadCodec
          (generatedCalls crypto args write fuel remaining bytesStreamed turn) ∧
      ∀ n, (sendGeneratedLoop crypto args write fuel remaining bytesStreamed turn sent).1 = .ok n →
        (sendGeneratedLoop crypto args write fuel remaining bytesStreamed turn sent).2 =
          sent ++ FrameCall.frames crypto args.payloadCodec
            (generatedCalls crypto args write fuel remaining bytesStreamed turn) := by
  induction fuel generalizing remaining bytesStreamed turn sent with
  | zero =>
    refine ⟨List.prefix_append _ _, fun n heq => ?_⟩
    cases heq
  | succ fuel ih =>
    rw [sendGeneratedLoop, generatedCalls]
    by_cases hmore : remaining > 0
    · rw [if_pos hmore, if_pos hmore]
      dsimp only
      rw [frame_eq_result]
      generalize args.frameCall crypto (min turn u64Max)
        (List.replicate (min remaining args.ioChunkBytes) 0) = call
      cases hresult : call.result crypto args.payloadCodec with
      | error msg => exact ⟨List.prefix_append _ _, fun n heq => by cases heq⟩
      | ok frame =>
        have hone : FrameCall.frames crypto args.payloadCodec [call] = frame := by
          simp [FrameCall.frames, hresult, Except.toOption]
        have hcons : ∀ rest, FrameCall.frames crypto args.payloadCodec (call :: rest) =
            frame ++ FrameCall.frames crypto args.payloadCodec rest := by
          intro rest
          rw [frames_cons, hresult]
          rfl
        cases write turn with
        | fail n =>
          dsimp only
          rw [hone]
          refine ⟨(List.prefix_append_right_inj _).2 (List.take_prefix _ _), fun n heq => ?_⟩
          cases heq
        | done n =>
          cases checkedSub remaining (min remaining args.ioChunkBytes) with
          | error stop =>
            dsimp only
            rw [hone]
            exact ⟨List.prefix_rfl, fun n heq => by cases heq⟩
          | ok remaining' =>
            cases checkedAdd bytesStreamed (min remaining args.ioChunkBytes) with
            | error stop =>
              dsimp only
              rw [hone]
              exact ⟨List.prefix_rfl, fun n heq => by cases heq⟩
            | ok bytesStreamed' =>
              dsimp only
              rw [hcons, ← List.append_assoc]
              exact ih remaining' bytesStreamed' (turn + 1) (sent ++ frame)
    · rw [if_neg hmore, if_neg hmore]
      exact ⟨List.prefix_append _ _, fun n _ => (List.append_nil _).symm⟩

/-- The calls of the loop count on from its turn, and each takes a byte from those that
remain. -/
theorem generatedCalls_numbered (fuel remaining bytesStreamed turn : Nat) :
    (∃ plaintexts : List (List UInt8),
      generatedCalls crypto args write fuel remaining bytesStreamed turn =
        plaintexts.mapIdx fun i plaintext =>
          args.frameCall crypto (min (turn + i) u64Max) plaintext) ∧
      (generatedCalls crypto args write fuel remaining bytesStreamed turn).length ≤
        remaining := by
  induction fuel generalizing remaining bytesStreamed turn with
  | zero => exact ⟨⟨[], rfl⟩, Nat.zero_le _⟩
  | succ fuel ih =>
    rw [generatedCalls]
    by_cases hmore : remaining > 0
    · rw [if_pos hmore]
      dsimp only
      have hone : (∃ plaintexts : List (List UInt8),
          [args.frameCall crypto (min turn u64Max)
            (List.replicate (min remaining args.ioChunkBytes) 0)] =
          plaintexts.mapIdx fun i plaintext =>
            args.frameCall crypto (min (turn + i) u64Max) plaintext) ∧ 1 ≤ remaining :=
        ⟨⟨[List.replicate (min remaining args.ioChunkBytes) 0], rfl⟩, hmore⟩
      cases hresult : (args.frameCall crypto (min turn u64Max)
          (List.replicate (min remaining args.ioChunkBytes) 0)).result crypto
            args.payloadCodec with
      | error msg => exact hone
      | ok frame =>
        cases write turn with
        | fail n => exact hone
        | done n =>
          dsimp only
          rw [checkedSub_of_le (Nat.min_le_left _ _)]
          cases checkedAdd bytesStreamed (min remaining args.ioChunkBytes) with
          | error stop => exact hone
          | ok bytesStreamed' =>
            dsimp only
            -- a call that returns a frame has had a byte
            have hpos := (of_encodePayloadFrame hresult).1
            obtain ⟨⟨plaintexts, heq⟩, hle⟩ :=
              ih (remaining - min remaining args.ioChunkBytes) bytesStreamed' (turn + 1)
            refine ⟨⟨List.replicate (min remaining args.ioChunkBytes) 0 :: plaintexts, ?_⟩, ?_⟩
            · rw [heq, List.mapIdx_cons]
              simp only [Nat.add_zero, Nat.add_assoc, Nat.add_comm 1]
            · simp only [SendLaneArgs.frameCall, List.length_replicate] at hpos
              rw [List.length_cons]
              omega
    · rw [if_neg hmore]
      exact ⟨⟨[], rfl⟩, Nat.zero_le _⟩

/-- **The calls of a lane of zeros** find the counter at their number, and are no more than its
bytes. -/
theorem counts_of_generatedCalls (hmax : args.totalBytes ≤ u64Max) :
    Counts crypto args (generatedLaneCalls crypto args write) := by
  unfold generatedLaneCalls checkedSub
  split
  · exact counts_nil
  · rename_i remaining heq
    split at heq
    · cases heq
      obtain ⟨⟨plaintexts, hcalls⟩, hle⟩ := @generatedCalls_numbered crypto args write
        (args.totalBytes + 1) args.totalBytes 0 0
      refine ⟨⟨plaintexts, ?_⟩, hle⟩
      have hlen : plaintexts.length ≤ u64Max := by
        rw [hcalls, List.length_mapIdx] at hle
        exact hle.trans hmax
      refine hcalls.trans (List.ext_getElem (by simp only [List.length_mapIdx]) ?_)
      intro i hi _
      rw [List.length_mapIdx] at hi
      have hroom : min (0 + i) u64Max = i := by omega
      simp only [List.getElem_mapIdx, hroom]
    · cases heq

/-! ## The sessions of a lane -/

/-- The sender for the source makes `calls`, up to wherever it gets. -/
def SenderCalls (crypto : AeadCrypto) (source : PayloadSource) (args : SendLaneArgs)
    (calls : List FrameCall) : Prop :=
  match source with
  | .file _ =>
    if args.totalBytes = 0 then calls = [] else ∃ s, SendPipeline.Run crypto args s calls
  | .generatedZeros => ∃ write, calls = generatedLaneCalls crypto args write

/-- **The calls of either sender** find the counter at their number, and are no more than the
bytes of the session. -/
theorem counts_of_senderCalls {source : PayloadSource} (hmax : args.totalBytes ≤ u64Max)
    (h : SenderCalls crypto source args calls) : Counts crypto args calls := by
  cases source with
  | file contents =>
    simp only [SenderCalls] at h
    split at h
    · subst h
      exact counts_nil
    · obtain ⟨s, hrun⟩ := h
      exact (tallies_of_run hmax hrun).counts
  | generatedZeros =>
    obtain ⟨write, rfl⟩ := h
    exact counts_of_generatedCalls hmax

/-- A session that sends a lane: what it sends, how, from which offset on, with which random
id, and the calls it makes. -/
structure LaneSession where
  source : PayloadSource
  tuning : RuntimeTuning
  lane : QuicTransferOpen
  resumeOffset : Nat
  binding : Uuid
  calls : List FrameCall

/-- What the send pipeline of a session is given. -/
def LaneSession.laneArgs (session : LaneSession) : SendLaneArgs :=
  sendArgs session.source session.tuning session.lane session.resumeOffset session.binding

/-- The four bytes that the session has drawn. -/
def LaneSession.noncePrefix (session : LaneSession) : NoncePrefix :=
  randomNoncePrefix session.binding

/-- The session is one of the lane `laneIndex` of the transfer: the lane is one of its plan, the
offset is from an ack that it has accepted, and the calls are those of the sender. -/
structure LaneSession.Sends (crypto : AeadCrypto) (transfer : TransferSummary) (laneIndex : Nat)
    (session : LaneSession) : Prop where
  planned : ∃ lanes ioChunkBytes runtimeProfile fileReadPipelineDepth opens,
    planOpens transfer lanes ioChunkBytes runtimeProfile fileReadPipelineDepth =
      .ok (session.tuning, opens) ∧ session.lane ∈ opens
  index : session.lane.laneIndex = laneIndex
  accepted : ∃ openAck, checkOpenAck session.lane session.tuning.payloadCodec openAck = .ok () ∧
    openAck.resumeOffsetBytes = session.resumeOffset
  calls : SenderCalls crypto session.source session.laneArgs session.calls

section

variable {transfer : TransferSummary} {laneIndex : Nat} {session : LaneSession}

/-- A planned lane is one of the transfer, and lies in its file. -/
theorem LaneSession.Sends.lane (h : session.Sends crypto transfer laneIndex) :
    session.lane.transferId = transfer.transferId ∧
      session.lane.rangeEndExclusive ≤ transfer.fileSizeBytes := by
  obtain ⟨lanes, ioChunkBytes, runtimeProfile, depth, opens, hplan, hmem⟩ := h.planned
  rw [(of_planOpens hplan).2.2.2] at hmem
  obtain ⟨i, hi, heq⟩ := mem_opens.1 hmem
  rw [heq]
  exact ⟨rfl, laneStart_le_size hi⟩

theorem LaneSession.Sends.counts (h : session.Sends crypto transfer laneIndex)
    (hsize : transfer.fileSizeBytes ≤ transferFileSizeMaxBytes) :
    Counts crypto session.laneArgs session.calls ∧
      session.laneArgs.totalBytes ≤ transferFileSizeMaxBytes := by
  have hrange : session.laneArgs.rangeEndExclusive ≤ transferFileSizeMaxBytes :=
    h.lane.2.trans hsize
  have htotal : session.laneArgs.totalBytes ≤ transferFileSizeMaxBytes :=
    (Nat.sub_le _ _).trans hrange
  have hmax : transferFileSizeMaxBytes ≤ u64Max := by decide
  exact ⟨counts_of_senderCalls (htotal.trans hmax) h.calls, htotal⟩

/-- A call of a session: its counter is its place, far below what saturates, its nonce is made
of the counter behind the prefix, and what it seals with is the codec of the lane. -/
theorem LaneSession.Sends.call (h : session.Sends crypto transfer laneIndex)
    (hsize : transfer.fileSizeBytes ≤ transferFileSizeMaxBytes) {i : Nat} {call : FrameCall}
    (hcall : session.calls[i]? = some call) :
    call.frameCounter = i ∧ i < transferFileSizeMaxBytes ∧
      call.nonce = payloadNonce session.noncePrefix i ∧
      call.aeadCodec = laneCodec crypto session.tuning.payloadCodec transfer.transferId
        laneIndex := by
  obtain ⟨hcounts, htotal⟩ := h.counts hsize
  obtain ⟨plaintext, rfl, hlt⟩ := hcounts.frameCall hcall
  refine ⟨rfl, hlt.trans_le htotal, rfl, ?_⟩
  rw [← h.lane.1, ← h.index]
  rfl

/-- Two calls with one nonce stand at the same place of sessions with the same prefix. -/
theorem LaneSession.Sends.of_nonce_eq {session' : LaneSession}
    (h : session.Sends crypto transfer laneIndex) (h' : session'.Sends crypto transfer laneIndex)
    (hsize : transfer.fileSizeBytes ≤ transferFileSizeMaxBytes) {i j : Nat}
    {call call' : FrameCall} (hcall : session.calls[i]? = some call)
    (hcall' : session'.calls[j]? = some call') (hnonce : call.nonce = call'.nonce) :
    session.noncePrefix = session'.noncePrefix ∧ i = j := by
  obtain ⟨-, hi, hnonceEq, -⟩ := h.call hsize hcall
  obtain ⟨-, hj, hnonceEq', -⟩ := h'.call hsize hcall'
  have hmax : transferFileSizeMaxBytes ≤ u64Max := by decide
  rw [hnonceEq, hnonceEq'] at hnonce
  exact payloadNonce_inj (hi.le.trans hmax) (hj.le.trans hmax) hnonce

/-- The counters of a session are the numbers of its calls. -/
theorem LaneSession.Sends.counters (h : session.Sends crypto transfer laneIndex)
    (hsize : transfer.fileSizeBytes ≤ transferFileSizeMaxBytes) :
    session.calls.map FrameCall.frameCounter = List.range session.calls.length := by
  apply List.ext_getElem
  · simp
  · intro i hi _
    rw [List.length_map] at hi
    have hcounter := (h.call hsize (List.getElem?_eq_getElem hi)).1
    simpa using hcounter

/-- The nonces of a session are different from one another. -/
theorem LaneSession.Sends.nonces_nodup (h : session.Sends crypto transfer laneIndex)
    (hsize : transfer.fileSizeBytes ≤ transferFileSizeMaxBytes) :
    (session.calls.map FrameCall.nonce).Nodup := by
  rw [List.nodup_iff_getElem?_ne_getElem?]
  intro a b hab hb heq
  rw [List.length_map] at hb
  have hcall := List.getElem?_eq_getElem (hab.trans hb)
  have hcall' := List.getElem?_eq_getElem hb
  rw [List.getElem?_map, List.getElem?_map, hcall, hcall', Option.map_some,
    Option.map_some] at heq
  exact hab.ne (h.of_nonce_eq h hsize hcall hcall' (Option.some.inj heq)).2

/-- No call of a session makes the counter saturate, and all seal with the codec of the lane, or
not at all. -/
theorem LaneSession.Sends.of_mem (h : session.Sends crypto transfer laneIndex)
    (hsize : transfer.fileSizeBytes ≤ transferFileSizeMaxBytes) {call : FrameCall}
    (hcall : call ∈ session.calls) :
    call.frameCounter + 1 < u64Max ∧ (call.aeadCodec = none ∨
      call.aeadCodec = some (AeadLaneCodec.new crypto transfer.transferId laneIndex)) := by
  obtain ⟨i, hi⟩ := List.mem_iff_getElem?.1 hcall
  obtain ⟨hcounter, hlt, -, hcodec⟩ := h.call hsize hi
  constructor
  · have hmax : transferFileSizeMaxBytes < u64Max := by decide
    rw [hcounter]
    omega
  · rw [hcodec]
    cases session.tuning.payloadCodec with
    | rawV1 => exact .inl rfl
    | aeadV1 => exact .inr rfl

/-- **Under the key of a lane a nonce comes twice only from two sessions that drew the same four
bytes.**  For every transfer of at most 8 TiB, every lane of it, and every list of sessions that
send the lane, whatever they send, in what chunks and from what offsets on: all seal with the
key of the lane or not at all, the frame counter of a session never saturates, its nonces are
different from one another, and two calls that seal under one key with one nonce are the same
call, or calls of two sessions with the same prefix. -/
theorem nonces_of_lane {sessions : List LaneSession}
    (hsize : transfer.fileSizeBytes ≤ transferFileSizeMaxBytes)
    (hsends : ∀ session ∈ sessions, session.Sends crypto transfer laneIndex) :
    (∀ session ∈ sessions,
      (∀ call ∈ session.calls, call.frameCounter + 1 < u64Max ∧ (call.aeadCodec = none ∨
        call.aeadCodec = some (AeadLaneCodec.new crypto transfer.transferId laneIndex))) ∧
      session.calls.map FrameCall.frameCounter = List.range session.calls.length ∧
      (session.calls.map FrameCall.nonce).Nodup) ∧
    ∀ (i j a b : Nat) (session session' : LaneSession) (call call' : FrameCall)
      (key : List UInt8), sessions[i]? = some session → sessions[j]? = some session' →
      session.calls[a]? = some call → session'.calls[b]? = some call' →
      call.key = some key → call'.key = some key → call.nonce = call'.nonce →
      i = j ∧ a = b ∨ i ≠ j ∧ session.noncePrefix = session'.noncePrefix := by
  constructor
  · intro session hmem
    have h := hsends session hmem
    exact ⟨fun call hcall => h.of_mem hsize hcall, h.counters hsize, h.nonces_nodup hsize⟩
  · intro i j a b session session' call call' key hi hj hcall hcall' _ _ hnonce
    have h := hsends session (List.mem_of_getElem? hi)
    have h' := hsends session' (List.mem_of_getElem? hj)
    obtain ⟨hfirst, hplace⟩ := h.of_nonce_eq h' hsize hcall hcall' hnonce
    by_cases hij : i = j
    · exact .inl ⟨hij, hplace⟩
    · exact .inr ⟨hij, hfirst⟩

end

namespace NonceSample

open PlanSample

/-- Chunks of 10 bytes. -/
def tuning : RuntimeTuning where
  payloadCodec := .aeadV1
  effectiveIoChunkBytes := 10
  fileReadPipelineDepth := 4
  sendTransformPipelineDepth := 4
  receiveWritePipelineDepth := 4

/-- The second of two lanes, of zeros in chunks of ten. -/
def zeros (offset : Nat) (drawn : UInt8) : LaneSession where
  source := .generatedZeros
  tuning := tuning
  lane := laneOpen transfer tuning 2 ((50, 100), 1)
  resumeOffset := offset
  binding := ⟨List.replicate 16 drawn, rfl⟩
  calls := generatedLaneCalls Sample.crypto
    (sendArgs .generatedZeros tuning (laneOpen transfer tuning 2 ((50, 100), 1)) offset
      ⟨List.replicate 16 drawn, rfl⟩) fun _ => .done 0

theorem sends {offset : Nat} (drawn : UInt8) (hge : 50 ≤ offset) (hle : offset ≤ 100) :
    (zeros offset drawn).Sends Sample.crypto transfer 1 where
  planned := ⟨2, 10, none, none, _, rfl, mem_opens.2 ⟨1, by decide, rfl⟩⟩
  index := rfl
  accepted := ⟨TransferSample.openAck offset, by
    have hrange : ¬ (offset < 50 ∨ offset > 100) := by omega
    simp [checkOpenAck, TransferSample.openAck, zeros, laneOpen, tuning, hrange,
      PayloadCodec.fromWire_asWire], rfl⟩
  calls := ⟨fun _ => .done 0, rfl⟩

end NonceSample

open NonceSample in
/-- Two sessions of a lane, the second one of which goes on after ten bytes: the first has five
nonces, and its first one is not the first of the second session. -/
theorem nonces_of_lane_resumed :
    (zeros 50 0).calls.length = 5 ∧ ((zeros 50 0).calls.map FrameCall.nonce).Nodup ∧
      ((zeros 50 0).calls.map FrameCall.nonce)[0]? ≠
        ((zeros 60 1).calls.map FrameCall.nonce)[0]? := by
  have hnonces := @nonces_of_lane Sample.crypto PlanSample.transfer 1 [zeros 50 0, zeros 60 1]
    (by decide) (by
      intro s hs
      rcases List.mem_pair.1 hs with rfl | rfl
      · exact sends 0 (by decide) (by decide)
      · exact sends 1 (by decide) (by decide))
  refine ⟨by decide +kernel, (hnonces.1 _ List.mem_cons_self).2.2, ?_⟩
  intro heq
  obtain ⟨call, hcall, hkey⟩ : ∃ call, (zeros 50 0).calls[0]? = some call ∧
      call.key = some (AeadLaneCodec.new Sample.crypto PlanSample.transfer.transferId 1).key :=
    ⟨_, rfl, rfl⟩
  obtain ⟨call', hcall', hkey'⟩ : ∃ call, (zeros 60 1).calls[0]? = some call ∧
      call.key = some (AeadLaneCodec.new Sample.crypto PlanSample.transfer.transferId 1).key :=
    ⟨_, rfl, rfl⟩
  rw [List.getElem?_map, List.getElem?_map, hcall, hcall'] at heq
  rcases hnonces.2 0 1 0 0 _ _ call call' _ rfl rfl hcall hcall' hkey hkey'
    (Option.some.inj heq) with ⟨hsame, -⟩ | ⟨-, hfirst⟩
  · cases hsame
  · exact absurd (congrArg NoncePrefix.bytes hfirst) (by decide)

end Metra.Client
