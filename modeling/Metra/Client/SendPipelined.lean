import Metra.Client.SendPipeline

/-!
# What the send pipeline sends

* `Follows` — the invariant: what was written, what is on its way and what was read are the
  consecutive chunks of the file, and the frames that were written are theirs;
* `follows_of_reaches` — the call has failed, or the invariant holds;
* `sent_of_reaches` — when the call returns `Ok` **the stream holds the frames of the range**.
-/

namespace Metra.Client

/-- Chunks with the nonces of their frames. -/
def SendLaneArgs.numbered (args : SendLaneArgs) :
    (counter : Nat) → List (List UInt8) → List (List UInt8 × Nonce)
  | _, [] => []
  | counter, chunk :: chunks =>
    (chunk, payloadNonce (randomNoncePrefix args.binding) (min counter u64Max)) ::
      args.numbered (counter + 1) chunks

/-- The frames of the chunks of a lane, one behind the other. -/
def SendLaneArgs.frames (crypto : AeadCrypto) (args : SendLaneArgs) (chunks : List (List UInt8)) :
    Except String (List UInt8) :=
  encodePayloadFrames crypto args.payloadCodec
    (laneCodec crypto args.payloadCodec args.transferId args.laneIndex) (args.numbered 0 chunks)

/-- What the arguments of a lane keep to. -/
structure SendLaneArgs.Valid (args : SendLaneArgs) : Prop where
  range : args.resumeOffset < args.rangeEndExclusive
  file : args.rangeEndExclusive ≤ args.file.length
  chunk : 0 < args.ioChunkBytes
  chunk_le : args.ioChunkBytes ≤ appPayloadMaxPlaintextBytes
  depth : 0 < args.fileReadPipelineDepth

namespace SendPipeline

variable {crypto : AeadCrypto} {args : SendLaneArgs} {s s' : SendPipeline} {outcome : Outcome}

/-! ## Frames -/

theorem numbered_append (chunks : List (List UInt8)) (chunk : List UInt8) (counter : Nat) :
    args.numbered counter (chunks ++ [chunk]) = args.numbered counter chunks ++
      [(chunk, payloadNonce (randomNoncePrefix args.binding)
        (min (counter + chunks.length) u64Max))] := by
  induction chunks generalizing counter with
  | nil => rfl
  | cons c cs ih =>
    simp only [List.cons_append, SendLaneArgs.numbered, ih, List.length_cons]
    rw [Nat.add_right_comm, Nat.add_assoc]

/-- One frame more. -/
theorem encodePayloadFrames_append {codec : PayloadCodec} {lane : Option AeadLaneCodec}
    {chunks : List (List UInt8 × Nonce)} {frames frame chunk : List UInt8} {nonce : Nonce}
    (hframes : encodePayloadFrames crypto codec lane chunks = .ok frames)
    (hframe : encodePayloadFrame crypto codec chunk nonce lane = .ok frame) :
    encodePayloadFrames crypto codec lane (chunks ++ [(chunk, nonce)]) = .ok (frames ++ frame) := by
  induction chunks generalizing frames with
  | nil =>
    cases hframes
    simp [encodePayloadFrames, hframe, bind, Except.bind, pure, Except.pure]
  | cons c cs ih =>
    simp only [encodePayloadFrames, bind, Except.bind] at hframes
    split at hframes
    · cases hframes
    rename_i first hfirst
    split at hframes
    · cases hframes
    rename_i rest hrest
    cases hframes
    simp [encodePayloadFrames, hfirst, ih hrest, bind, Except.bind, pure, Except.pure]

theorem frames_append {written : List (List UInt8)} {sent frame chunk : List UInt8}
    (hsent : args.frames crypto written = .ok sent)
    (hframe : args.frame crypto (min written.length u64Max) chunk = .ok frame) :
    args.frames crypto (written ++ [chunk]) = .ok (sent ++ frame) := by
  unfold SendLaneArgs.frames
  rw [numbered_append, Nat.zero_add]
  exact encodePayloadFrames_append hsent hframe

/-- The chunks are frames of their plaintexts, with the nonces that follow one another. -/
def Encodes (crypto : AeadCrypto) (args : SendLaneArgs) : Nat → List SendWireChunk → Prop
  | _, [] => True
  | counter, chunk :: chunks =>
    args.frame crypto (min counter u64Max) chunk.plaintext = .ok chunk.wirePayload ∧
      chunk.plaintext.length = chunk.plaintextLen ∧ Encodes crypto args (counter + 1) chunks

theorem encodes_concat {chunks : List SendWireChunk} {chunk : SendWireChunk} {counter : Nat} :
    Encodes crypto args counter (chunks ++ [chunk]) ↔ Encodes crypto args counter chunks ∧
      args.frame crypto (min (counter + chunks.length) u64Max) chunk.plaintext =
        .ok chunk.wirePayload ∧ chunk.plaintext.length = chunk.plaintextLen := by
  induction chunks generalizing counter with
  | nil => simp [Encodes]
  | cons c cs ih =>
    simp only [List.cons_append, Encodes, ih, List.length_cons, and_assoc]
    rw [Nat.add_right_comm, Nat.add_assoc]

/-! ## What the stages have done so far -/

/-- The chunks that are frames already, in the order of the file. -/
def encoded (s : SendPipeline) : List SendWireChunk :=
  s.consumer.chunks ++ s.encryptQueue ++ s.encrypt.chunks

/-- The chunk the reader has read and not yet handed on. -/
def Reader.chunks : Reader → List SendReadChunk
  | .sending chunk => [chunk]
  | _ => []

/-- The chunks that are still to be made frames of. -/
def unencoded (s : SendPipeline) : List SendReadChunk := s.readQueue ++ s.reader.chunks

/-- The reader task has ended with an error. -/
def Reader.isBroken : Reader → Bool
  | .finished (.error _) => true
  | _ => false

/-- The call has failed, or is about to. -/
def Consumer.isFailed : Consumer → Bool
  | .aborting _ | .returned (.error _) => true
  | _ => false

/-- The call has written all and waits for the tasks to end, or has returned. -/
def Consumer.isDone : Consumer → Bool
  | .joinReader | .joinEncrypt | .returned (.ok _) => true
  | _ => false

/-- The call has made frames of `written`, and the reader has read `chunks` so far. -/
structure Follows (crypto : AeadCrypto) (args : SendLaneArgs) (s : SendPipeline)
    (written chunks : List (List UInt8)) : Prop where
  chunk : ∀ chunk ∈ chunks, 0 < chunk.length
  file : chunks.flatten = Bytes.slice args.file args.resumeOffset
    (args.resumeOffset + chunks.flatten.length)
  opening : s.reader = .opening → chunks = []
  cursor : s.reader.isFinished = false → s.reader ≠ .opening →
    s.cursor = args.resumeOffset + chunks.flatten.length
  toRead : s.reader.isFinished = false → chunks.flatten.length + s.toRead =
    args.totalBytes + (s.reader.chunks.map SendReadChunk.bytesRead).sum
  bound : chunks.flatten.length ≤ args.totalBytes
  done : s.reader = .finished (.ok ()) → chunks.flatten.length = args.totalBytes
  lengths : ∀ chunk ∈ s.unencoded, chunk.plaintext.length = chunk.bytesRead
  behind : written ++ s.encoded.map SendWireChunk.plaintext <+: chunks
  order : s.encrypt.isFinished = false → written ++ s.encoded.map SendWireChunk.plaintext ++
    s.unencoded.map SendReadChunk.plaintext <+: chunks
  exact : s.encrypt.isFinished = false → s.reader.isBroken = false →
    chunks = written ++ s.encoded.map SendWireChunk.plaintext ++
      s.unencoded.map SendReadChunk.plaintext
  ended : s.encrypt = .finished (.ok ()) → s.reader.isFinished = true ∧
    (s.reader.isBroken = false → chunks = written ++ s.encoded.map SendWireChunk.plaintext)
  encodes : Encodes crypto args written.length s.encoded
  counter : s.encrypt.isFinished = false →
    s.frameCounter = min (written.length + s.encoded.length) u64Max
  sent : args.frames crypto written = .ok s.sent
  streamed : s.bytesStreamed = written.flatten.length
  remaining : s.remaining = args.totalBytes - written.flatten.length
  finished : s.consumer.isDone = true → s.bytesStreamed = args.totalBytes
  joined : s.consumer = .joinEncrypt → s.reader.isFinished = true
  returned : ∀ n, s.consumer = .returned (.ok n) → n = s.bytesStreamed
  freed : s.reader.isFinished = false → s.encrypt.isFinished = false → s.freed = []

variable {written chunks : List (List UInt8)}

theorem follows_start : Follows crypto args (start args) [] [] where
  chunk := by simp
  file := by simp [Bytes.slice]
  opening := fun _ => rfl
  cursor := by simp [start]
  toRead := by simp [start, Reader.chunks]
  bound := Nat.zero_le _
  done := by simp [start]
  lengths := by simp [start, unencoded, Reader.chunks]
  behind := by simp [start, encoded, Consumer.chunks, Encrypt.chunks]
  order := by simp [start, encoded, unencoded, Consumer.chunks, Encrypt.chunks, Reader.chunks]
  exact := by simp [start, encoded, unencoded, Consumer.chunks, Encrypt.chunks, Reader.chunks]
  ended := by simp [start]
  encodes := trivial
  counter := by simp [start, encoded, Consumer.chunks, Encrypt.chunks]
  sent := rfl
  streamed := rfl
  remaining := rfl
  finished := by simp [start, Consumer.isDone]
  joined := by simp [start]
  returned := by simp [start]
  freed := fun _ _ => rfl

/-- When all bytes are on the stream, nothing is on its way. -/
theorem Follows.all_written (h : Follows crypto args s written chunks)
    (hall : s.bytesStreamed = args.totalBytes) : chunks = written ∧ s.encoded = [] := by
  obtain ⟨rest, hrest⟩ := h.behind
  have hnil : ∀ {l : List (List UInt8)}, (∀ c ∈ l, 0 < c.length) → l.flatten.length = 0 →
      l = [] := by
    intro l hpos hlen
    cases l with
    | nil => rfl
    | cons c cs =>
      have := hpos c List.mem_cons_self
      simp only [List.flatten_cons, List.length_append] at hlen
      omega
  have hlen := congrArg (fun l => (List.flatten l).length) hrest
  simp only [List.flatten_append, List.length_append] at hlen
  have hbound := h.bound
  have hstreamed := h.streamed
  have hencoded := hnil (l := s.encoded.map SendWireChunk.plaintext)
    (fun c hc => h.chunk c (hrest ▸ List.mem_append_left _ (List.mem_append_right _ hc))) (by omega)
  have hnone := hnil (l := rest)
    (fun c hc => h.chunk c (hrest ▸ List.mem_append_right _ hc)) (by omega)
  rw [hencoded, hnone] at hrest
  exact ⟨by simpa using hrest.symm, List.map_eq_nil_iff.1 hencoded⟩

theorem unencoded_eq (h : s.reader.chunks = []) : s.unencoded = s.readQueue := by
  rw [unencoded, h, List.append_nil]

/-! ## The reader -/

/-- What a `read` adds to the chunks. -/
theorem Follows.reads (h : Follows crypto args s written chunks) {buffer : Buffer} {n : Nat}
    (hreader : s.reader = .reading buffer) (hpos : 0 < n) (hle : n ≤ available args s buffer) :
    Follows crypto args { s with
      cursor := s.cursor + n
      reader := .sending ⟨⟨buffer.id,
        Bytes.slice args.file s.cursor (s.cursor + n) ++ buffer.bytes.drop n⟩, n⟩ } written
      (chunks ++ [Bytes.slice args.file s.cursor (s.cursor + n)]) := by
  have hrunning : s.reader.isFinished = false := by rw [hreader]; rfl
  have hnone : s.reader.chunks = [] := by rw [hreader]; rfl
  have hcursor := h.cursor hrunning (by rw [hreader]; exact Reader.noConfusion)
  have htoRead := h.toRead hrunning
  rw [hnone, List.map_nil, List.sum_nil, Nat.add_zero] at htoRead
  simp only [available] at hle
  have hlen : (Bytes.slice args.file s.cursor (s.cursor + n)).length = n := by
    rw [Bytes.length_slice (by omega)]
    omega
  have hflatten : (chunks ++ [Bytes.slice args.file s.cursor (s.cursor + n)]).flatten.length =
      chunks.flatten.length + n := by
    rw [List.flatten_append, List.flatten_singleton, List.length_append, hlen]
  have hplaintext : SendReadChunk.plaintext ⟨⟨buffer.id,
      Bytes.slice args.file s.cursor (s.cursor + n) ++ buffer.bytes.drop n⟩, n⟩ =
      Bytes.slice args.file s.cursor (s.cursor + n) := by
    rw [SendReadChunk.plaintext, List.take_append_of_le_length hlen.ge,
      List.take_of_length_le hlen.le]
  have hold := unencoded_eq hnone
  have hbroken : s.reader.isBroken = false := by rw [hreader]; rfl
  have hexact : s.encrypt.isFinished = false →
      chunks ++ [Bytes.slice args.file s.cursor (s.cursor + n)] =
        written ++ s.encoded.map SendWireChunk.plaintext ++
          (s.readQueue ++ [(⟨⟨buffer.id, Bytes.slice args.file s.cursor (s.cursor + n) ++
            buffer.bytes.drop n⟩, n⟩ : SendReadChunk)]).map SendReadChunk.plaintext := by
    intro hencrypt
    have hchunks := h.exact hencrypt hbroken
    rw [hold] at hchunks
    rw [List.map_append, List.map_singleton, hplaintext, ← List.append_assoc, ← hchunks]
  exact { h with
    chunk := by
      intro c hc
      rcases List.mem_append.1 hc with hc | hc
      · exact h.chunk c hc
      · rw [List.mem_singleton.1 hc, hlen]
        exact hpos
    file := by
      rw [hflatten, List.flatten_append, List.flatten_singleton, hcursor]
      calc chunks.flatten ++ Bytes.slice args.file (args.resumeOffset + chunks.flatten.length)
            (args.resumeOffset + chunks.flatten.length + n)
          = Bytes.slice args.file args.resumeOffset (args.resumeOffset + chunks.flatten.length) ++
            Bytes.slice args.file (args.resumeOffset + chunks.flatten.length)
              (args.resumeOffset + chunks.flatten.length + n) := by rw [← h.file]
        _ = _ := by rw [Bytes.slice_append_slice (by omega) (by omega), Nat.add_assoc]
    opening := fun heq => by cases heq
    cursor := fun _ _ => by
      show s.cursor + n = _
      rw [hflatten, hcursor, Nat.add_assoc]
    toRead := fun _ => by
      rw [hflatten]
      show chunks.flatten.length + n + s.toRead = args.totalBytes + (n + 0)
      omega
    bound := by
      rw [hflatten]
      omega
    done := fun heq => by cases heq
    lengths := by
      intro c hc
      rcases List.mem_append.1 hc with hc | hc
      · exact h.lengths c (hold ▸ hc)
      · rw [List.mem_singleton.1 hc, hplaintext, hlen]
    behind := h.behind.trans (List.prefix_append _ _)
    order := fun hencrypt => by
      rw [hexact hencrypt]
      exact List.prefix_rfl
    exact := fun hencrypt _ => hexact hencrypt
    ended := fun hencrypt => by
      have := (h.ended hencrypt).1
      rw [hrunning] at this
      cases this
    joined := fun hconsumer => by
      have := h.joined hconsumer
      rw [hrunning] at this
      cases this
    freed := fun _ hencrypt => h.freed hrunning hencrypt }

/-- The reader task ends. -/
theorem Follows.endReader (h : Follows crypto args s written chunks)
    {result : Except String Unit} (hwhy : ReaderEnds args outcome s result) :
    Follows crypto args (s.endReader result) written chunks := by
  have hrunning := hwhy.running
  have hqueue : (s.endReader result).unencoded = s.readQueue := unencoded_eq rfl
  have hdone : result = .ok () → chunks.flatten.length = args.totalBytes ∧ s.reader.chunks = [] ∧
      s.reader.isBroken = false := by
    rintro rfl
    cases hwhy with
    | done hreader hall =>
      have htoRead := h.toRead hrunning
      rw [hreader] at htoRead ⊢
      rw [hall] at htoRead
      exact ⟨htoRead, rfl, rfl⟩
  exact { h with
    opening := fun heq => by cases heq
    cursor := fun hfalse => by cases hfalse
    toRead := fun hfalse => by cases hfalse
    done := fun heq => (hdone (Reader.finished.inj heq)).1
    lengths := by
      rw [hqueue]
      exact fun c hc => h.lengths c (List.mem_append_left _ hc)
    order := fun hencrypt => by
      rw [hqueue]
      refine List.IsPrefix.trans ?_ (h.order hencrypt)
      rw [unencoded, List.map_append, ← List.append_assoc]
      exact List.prefix_append _ _
    exact := fun hencrypt hsound => by
      cases result with
      | error err => cases hsound
      | ok _ =>
        obtain ⟨-, hnone, hbroken⟩ := hdone rfl
        rw [hqueue, ← unencoded_eq hnone]
        exact h.exact hencrypt hbroken
    ended := fun hencrypt => by
      have := (h.ended hencrypt).1
      rw [hrunning] at this
      cases this
    joined := fun _ => rfl
    freed := fun hfalse => by cases hfalse }

theorem isBroken_of_running {reader : Reader} (h : reader.isFinished = false) :
    reader.isBroken = false := by
  cases reader with
  | finished result => cases h
  | _ => rfl

/-- The reader goes on without having read anything. -/
theorem Follows.goesOn (h : Follows crypto args s written chunks) {reader : Reader}
    {cursor toRead : Nat} {pool : List Buffer} {queue : List SendReadChunk}
    (hrunning : s.reader.isFinished = false) (hrunning' : reader.isFinished = false)
    (hopened : reader ≠ .opening) (hcursor : cursor = args.resumeOffset + chunks.flatten.length)
    (hqueue : queue ++ reader.chunks = s.unencoded)
    (htoRead : chunks.flatten.length + toRead =
      args.totalBytes + (reader.chunks.map SendReadChunk.bytesRead).sum) :
    Follows crypto args { s with
      reader := reader, cursor := cursor, toRead := toRead, pool := pool, readQueue := queue }
        written chunks := by
  have hsame : unencoded { s with
      reader := reader, cursor := cursor, toRead := toRead, pool := pool, readQueue := queue } =
        s.unencoded := hqueue
  exact { h with
    opening := fun heq => absurd heq hopened
    cursor := fun _ _ => hcursor
    toRead := fun _ => htoRead
    done := fun heq => by
      have heq : reader = _ := heq
      rw [heq] at hrunning'
      cases hrunning'
    lengths := by
      rw [hsame]
      exact h.lengths
    order := by
      rw [hsame]
      exact h.order
    exact := fun hencrypt _ => by
      rw [hsame]
      exact h.exact hencrypt (isBroken_of_running hrunning)
    ended := fun hencrypt => by
      have := (h.ended hencrypt).1
      rw [hrunning] at this
      cases this
    joined := fun hconsumer => by
      have := h.joined hconsumer
      rw [hrunning] at this
      cases this
    freed := fun _ hencrypt => h.freed hrunning hencrypt }

theorem Follows.reader (h : Follows crypto args s written chunks)
    (hmoves : ReaderMoves args outcome s s') :
    ∃ chunks', Follows crypto args s' written chunks' := by
  cases hmoves with
  | opens hreader =>
    have hrunning : s.reader.isFinished = false := by rw [hreader]; rfl
    have htoRead := h.toRead hrunning
    rw [hreader] at htoRead
    refine ⟨chunks, h.goesOn hrunning rfl Reader.noConfusion ?_ ?_ htoRead⟩
    · rw [h.opening hreader]
      rfl
    · rw [unencoded, hreader]
      rfl
  | takes hreader =>
    have hrunning : s.reader.isFinished = false := by rw [hreader]; rfl
    have htoRead := h.toRead hrunning
    rw [hreader] at htoRead
    refine ⟨chunks, h.goesOn hrunning rfl Reader.noConfusion ?_ ?_ htoRead⟩
    · exact h.cursor hrunning (by rw [hreader]; exact Reader.noConfusion)
    · rw [unencoded, hreader]
      rfl
  | reads hreader hpos hle => exact ⟨_, h.reads hreader hpos hle⟩
  | @sends chunk hreader =>
    have hrunning : s.reader.isFinished = false := by rw [hreader]; rfl
    have htoRead := h.toRead hrunning
    have hbound := h.bound
    rw [hreader] at htoRead
    refine ⟨chunks, h.goesOn hrunning rfl Reader.noConfusion ?_ ?_ ?_⟩
    · exact h.cursor hrunning (by rw [hreader]; exact Reader.noConfusion)
    · rw [unencoded, hreader]
      exact List.append_nil _
    · have hsum : ([chunk].map SendReadChunk.bytesRead).sum = chunk.bytesRead := by simp
      have hsent : chunks.flatten.length + s.toRead = args.totalBytes + chunk.bytesRead :=
        htoRead.trans (congrArg _ hsum)
      show chunks.flatten.length + (s.toRead - chunk.bytesRead) = args.totalBytes + 0
      omega
  | ends hwhy => exact ⟨_, h.endReader hwhy⟩

/-! ## The encrypt task -/

theorem chunks_of_finished (h : s.reader.isFinished = true) : s.reader.chunks = [] := by
  cases hreader : s.reader with
  | finished result => rfl
  | _ => rw [hreader] at h; cases h

/-- The chunk in the hands of the encrypt task is the last one that is a frame. -/
theorem encoded_eq (s : SendPipeline) :
    s.encoded = s.consumer.chunks ++ s.encryptQueue ++ s.encrypt.chunks := rfl

/-- The next chunk becomes a frame. -/
theorem Follows.encrypts (h : Follows crypto args s written chunks) {chunk : SendReadChunk}
    {queue : List SendReadChunk} {wirePayload : List UInt8} (hencrypt : s.encrypt = .receiving)
    (hqueue : s.readQueue = chunk :: queue)
    (hframe : args.frame crypto s.frameCounter chunk.plaintext = .ok wirePayload) :
    Follows crypto args { s with
      readQueue := queue, frameCounter := min (s.frameCounter + 1) u64Max
      encrypt := .sending ⟨wirePayload, chunk.bytesRead, chunk.buffer⟩ } written chunks := by
  have hrunning : s.encrypt.isFinished = false := by rw [hencrypt]; rfl
  have hencoded : encoded { s with
      readQueue := queue, frameCounter := min (s.frameCounter + 1) u64Max
      encrypt := .sending ⟨wirePayload, chunk.bytesRead, chunk.buffer⟩ } =
        s.encoded ++ [⟨wirePayload, chunk.bytesRead, chunk.buffer⟩] := by
    simp [encoded, hencrypt, Encrypt.chunks]
  have hunencoded : s.unencoded = chunk :: (queue ++ s.reader.chunks) := by
    rw [unencoded, hqueue, List.cons_append]
  -- what moves from one list to the end of the other
  have hmoved : written ++ (s.encoded ++ [(⟨wirePayload, chunk.bytesRead, chunk.buffer⟩ :
        SendWireChunk)]).map SendWireChunk.plaintext ++
          (queue ++ s.reader.chunks).map SendReadChunk.plaintext =
      written ++ s.encoded.map SendWireChunk.plaintext ++
        s.unencoded.map SendReadChunk.plaintext := by
    rw [hunencoded, List.map_append, List.map_singleton, List.map_cons]
    simp only [List.append_assoc, List.singleton_append]
    rfl
  have hlen : chunk.plaintext.length = chunk.bytesRead :=
    h.lengths chunk (hunencoded ▸ List.mem_cons_self)
  have hcounter := h.counter hrunning
  exact { h with
    lengths := fun c hc => h.lengths c (hunencoded ▸ List.mem_cons_of_mem _ hc)
    behind := by
      rw [hencoded]
      have horder := h.order hrunning
      rw [← hmoved] at horder
      exact (List.prefix_append _ _).trans horder
    order := fun _ => by
      rw [hencoded]
      show written ++ _ ++ (queue ++ s.reader.chunks).map SendReadChunk.plaintext <+: chunks
      rw [hmoved]
      exact h.order hrunning
    exact := fun _ hsound => by
      rw [hencoded]
      show chunks = written ++ _ ++ (queue ++ s.reader.chunks).map SendReadChunk.plaintext
      rw [hmoved]
      exact h.exact hrunning hsound
    ended := fun heq => by cases heq
    encodes := by
      rw [hencoded, encodes_concat]
      refine ⟨h.encodes, ?_, hlen⟩
      rw [← hcounter]
      exact hframe
    counter := fun _ => by
      rw [hencoded, List.length_append, List.length_singleton]
      show min (s.frameCounter + 1) u64Max = _
      rw [hcounter]
      omega
    freed := fun hreader _ => h.freed hreader hrunning }

/-- The encrypt task ends. -/
theorem Follows.endEncrypt (h : Follows crypto args s written chunks)
    {result : Except String Unit} {freed : List Buffer} (hrunning : s.encrypt.isFinished = false)
    (hdone : result = .ok () → s.reader.isFinished = true ∧ s.encrypt = .receiving ∧
      s.readQueue = []) :
    Follows crypto args { s with
      encrypt := .finished result, readQueue := [], freed := freed } written chunks := by
  have hencoded : encoded { s with encrypt := .finished result, readQueue := [], freed := freed } =
      s.consumer.chunks ++ s.encryptQueue := List.append_nil _
  have hsplit := encoded_eq s
  exact { h with
    lengths := fun c hc => h.lengths c (List.mem_append_right _ hc)
    behind := by
      rw [hencoded]
      refine List.IsPrefix.trans ?_ h.behind
      rw [hsplit, List.prefix_append_right_inj]
      exact (List.prefix_append _ _).map _
    order := fun heq => by cases heq
    exact := fun heq => by cases heq
    ended := fun heq => by
      obtain ⟨hreader, hreceiving, hqueue⟩ := hdone (Encrypt.finished.inj heq)
      refine ⟨hreader, fun hsound => ?_⟩
      have hexact := h.exact hrunning hsound
      rw [unencoded, hqueue, chunks_of_finished hreader, hsplit, hreceiving] at hexact
      rw [hencoded]
      simpa [Encrypt.chunks] using hexact
    encodes := by
      rw [hencoded]
      have hencodes := h.encodes
      rw [hsplit] at hencodes
      cases hencrypt : s.encrypt with
      | sending chunk =>
        rw [hencrypt] at hencodes
        exact (encodes_concat.1 hencodes).1
      | _ =>
        rw [hencrypt] at hencodes
        simpa [Encrypt.chunks] using hencodes
    counter := fun heq => by cases heq
    freed := fun _ heq => by cases heq }

theorem Follows.encrypt (h : Follows crypto args s written chunks)
    (hmoves : EncryptMoves crypto args s s') : Follows crypto args s' written chunks := by
  cases hmoves with
  | takes hencrypt hqueue hframe => exact h.encrypts hencrypt hqueue hframe
  | @sends chunk hencrypt =>
    have hrunning : s.encrypt.isFinished = false := by rw [hencrypt]; rfl
    have hencoded : encoded { s with
        encrypt := .receiving, encryptQueue := s.encryptQueue ++ [chunk] } = s.encoded := by
      simp [encoded, hencrypt, Encrypt.chunks]
    exact { h with
      behind := by
        rw [hencoded]
        exact h.behind
      order := fun _ => by
        rw [hencoded]
        exact h.order hrunning
      exact := fun _ hsound => by
        rw [hencoded]
        exact h.exact hrunning hsound
      ended := fun heq => by cases heq
      encodes := by
        rw [hencoded]
        exact h.encodes
      counter := fun _ => by
        rw [hencoded]
        exact h.counter hrunning
      freed := fun hreader _ => h.freed hreader hrunning }
  | done hencrypt hqueue hended =>
    exact h.endEncrypt (by rw [hencrypt]; rfl) fun _ => ⟨hended, hencrypt, hqueue⟩
  | noFrame hencrypt => exact h.endEncrypt (by rw [hencrypt]; rfl) fun heq => by cases heq
  | noChannel err hencrypt => exact h.endEncrypt (by rw [hencrypt]; rfl) fun heq => by cases heq

/-! ## The call itself -/

/-- The call goes on without having written anything. -/
theorem Follows.waits (h : Follows crypto args s written chunks) {consumer : Consumer}
    {queue : List SendWireChunk} {pool freed : List Buffer}
    (hencoded : consumer.chunks ++ queue ++ s.encrypt.chunks = s.encoded)
    (hfinished : consumer.isDone = true → s.bytesStreamed = args.totalBytes)
    (hjoined : consumer = .joinEncrypt → s.reader.isFinished = true)
    (hreturned : ∀ n, consumer ≠ .returned (.ok n))
    (hfreed : s.reader.isFinished = false → freed = s.freed) :
    Follows crypto args { s with
      consumer := consumer, encryptQueue := queue, pool := pool, freed := freed }
        written chunks := by
  have hsame : encoded { s with
      consumer := consumer, encryptQueue := queue, pool := pool, freed := freed } = s.encoded :=
    hencoded
  exact { h with
    behind := by
      rw [hsame]
      exact h.behind
    order := by
      rw [hsame]
      exact h.order
    exact := by
      rw [hsame]
      exact h.exact
    ended := by
      rw [hsame]
      exact h.ended
    encodes := by
      rw [hsame]
      exact h.encodes
    counter := by
      rw [hsame]
      exact h.counter
    finished := hfinished
    joined := hjoined
    returned := fun n heq => absurd heq (hreturned n)
    freed := fun hreader hencrypt => (hfreed hreader).trans (h.freed hreader hencrypt) }

/-- A frame is written. -/
theorem Follows.writes (h : Follows crypto args s written chunks) {chunk : SendWireChunk}
    (hconsumer : s.consumer = .writing chunk) :
    Follows crypto args { s with
      sent := s.sent ++ chunk.wirePayload, remaining := s.remaining - chunk.plaintextLen
      bytesStreamed := s.bytesStreamed + chunk.plaintextLen
      consumer := .recycling chunk.recycleBuffer } (written ++ [chunk.plaintext]) chunks := by
  have hencoded : s.encoded = chunk :: (s.encryptQueue ++ s.encrypt.chunks) := by
    rw [encoded, hconsumer]
    rfl
  have hencodes := h.encodes
  rw [hencoded] at hencodes
  obtain ⟨hframe, hlen, hrest⟩ := hencodes
  have hmoved : written ++ [chunk.plaintext] ++
      (s.encryptQueue ++ s.encrypt.chunks).map SendWireChunk.plaintext =
        written ++ s.encoded.map SendWireChunk.plaintext := by
    rw [hencoded, List.map_cons, List.append_assoc, List.singleton_append]
  have hflatten : (written ++ [chunk.plaintext]).flatten.length =
      written.flatten.length + chunk.plaintextLen := by
    rw [List.flatten_append, List.flatten_singleton, List.length_append, hlen]
  have hstreamed := h.streamed
  have hremaining := h.remaining
  exact { h with
    behind := hmoved ▸ h.behind
    order := hmoved ▸ h.order
    exact := hmoved ▸ h.exact
    ended := hmoved ▸ h.ended
    encodes := by
      rw [List.length_append, List.length_singleton]
      exact hrest
    counter := fun hencrypt => by
      have hcounter := h.counter hencrypt
      rw [hencoded, List.length_cons] at hcounter
      rw [List.length_append, List.length_singleton]
      show s.frameCounter = min (written.length + 1 + (s.encryptQueue ++ s.encrypt.chunks).length) _
      rw [hcounter]
      omega
    sent := frames_append h.sent hframe
    streamed := by
      rw [hflatten]
      show s.bytesStreamed + chunk.plaintextLen = _
      omega
    remaining := by
      rw [hflatten]
      show s.remaining - chunk.plaintextLen = _
      omega
    finished := fun heq => by cases heq
    joined := fun heq => by cases heq
    returned := fun n heq => by cases heq }

theorem Follows.consumer (h : Follows crypto args s written chunks)
    (hmoves : ConsumerMoves args outcome s s') :
    s'.consumer.isFailed = true ∨ ∃ written', Follows crypto args s' written' chunks := by
  cases hmoves with
  | takes hconsumer hqueue =>
    refine .inr ⟨written, h.waits ?_ (fun heq => by cases heq) (fun heq => by cases heq)
      (fun _ => Consumer.noConfusion) fun _ => rfl⟩
    rw [encoded, hconsumer, hqueue]
    rfl
  | writes hconsumer => exact .inr ⟨_, h.writes hconsumer⟩
  | breaks => exact .inl rfl
  | recycles hconsumer =>
    refine .inr ⟨written, h.waits ?_ (fun heq => by cases heq) (fun heq => by cases heq)
      (fun _ => Consumer.noConfusion) fun _ => rfl⟩
    rw [encoded, hconsumer]
    rfl
  | drops hconsumer hended =>
    refine .inr ⟨written, h.waits ?_ (fun heq => by cases heq) (fun heq => by cases heq)
      (fun _ => Consumer.noConfusion) fun hrunning => ?_⟩
    · rw [encoded, hconsumer]
      rfl
    · rw [hended] at hrunning
      cases hrunning
  | passes hconsumer hall hstreamed =>
    refine .inr ⟨written, h.waits ?_ (fun _ => hstreamed) (fun heq => by cases heq)
      (fun _ => Consumer.noConfusion) fun _ => rfl⟩
    rw [encoded, hconsumer]
    rfl
  | givesUp => exact .inl rfl
  | joins hconsumer hended =>
    refine .inr ⟨written, h.waits ?_ (fun _ => h.finished (by rw [hconsumer]; rfl))
      (fun _ => by rw [hended]; rfl) (fun _ => Consumer.noConfusion) fun _ => rfl⟩
    rw [encoded, hconsumer]
    rfl
  | returns hconsumer hended =>
    have hstreamed := h.finished (by rw [hconsumer]; rfl)
    have hnone : s.encryptQueue = [] := by
      have hencoded := (h.all_written hstreamed).2
      rw [encoded, List.append_eq_nil_iff, List.append_eq_nil_iff] at hencoded
      exact hencoded.1.2
    have hsame : s.returnWith (.ok s.bytesStreamed) = { s with
        consumer := .returned (.ok s.bytesStreamed), encryptQueue := [], freed := s.freed } := by
      simp [returnWith, hnone]
    have hwaits : Follows crypto args { s with
        consumer := .joinEncrypt, encryptQueue := [], pool := s.pool, freed := s.freed }
          written chunks := by
      refine h.waits ?_ (fun _ => hstreamed) (fun _ => h.joined hconsumer)
        (fun _ => Consumer.noConfusion) fun _ => rfl
      rw [encoded, hconsumer, hnone]
    rw [hsame]
    exact .inr ⟨written, { hwaits with
      joined := fun heq => by cases heq
      returned := fun n heq => by cases heq; rfl }⟩
  | fails => exact .inl rfl
  | aborts => exact .inl rfl

/-! ## Runs -/

theorem ReaderMoves.consumer_eq (h : ReaderMoves args outcome s s') :
    s'.consumer = s.consumer := by
  cases h <;> rfl

theorem EncryptMoves.consumer_eq (h : EncryptMoves crypto args s s') :
    s'.consumer = s.consumer := by
  cases h <;> rfl

/-- A call that fails does not recover. -/
theorem ConsumerMoves.failed (h : ConsumerMoves args outcome s s')
    (hfailed : s.consumer.isFailed = true) : s'.consumer.isFailed = true := by
  cases h with
  | breaks | givesUp | fails | aborts => rfl
  | takes hconsumer | writes hconsumer | recycles hconsumer | drops hconsumer | passes hconsumer
  | joins hconsumer | returns hconsumer =>
    rw [hconsumer] at hfailed
    cases hfailed

/-- The call has failed, or what it has done is a part of what it is to do. -/
def Sound (crypto : AeadCrypto) (args : SendLaneArgs) (s : SendPipeline) : Prop :=
  s.consumer.isFailed = true ∨ ∃ written chunks, Follows crypto args s written chunks

theorem Next.sound (h : Next crypto args s s') (hsound : Sound crypto args s) :
    Sound crypto args s' := by
  obtain ⟨stage, outcome, h⟩ := h
  rcases hsound with hfailed | ⟨written, chunks, hfollows⟩
  · left
    cases stage with
    | reader => rw [(readerMoves_of_step h).consumer_eq]; exact hfailed
    | encrypt => rw [(encryptMoves_of_step h).consumer_eq]; exact hfailed
    | consumer => exact (consumerMoves_of_step h).failed hfailed
  · cases stage with
    | reader =>
      obtain ⟨chunks', hfollows⟩ := hfollows.reader (readerMoves_of_step h)
      exact .inr ⟨written, chunks', hfollows⟩
    | encrypt => exact .inr ⟨written, chunks, hfollows.encrypt (encryptMoves_of_step h)⟩
    | consumer =>
      rcases hfollows.consumer (consumerMoves_of_step h) with hfailed | ⟨written', hfollows⟩
      · exact .inl hfailed
      · exact .inr ⟨written', chunks, hfollows⟩

theorem sound_of_reaches (h : Reaches crypto args (start args) s) : Sound crypto args s := by
  induction h with
  | refl => exact .inr ⟨[], [], follows_start⟩
  | tail _ hnext ih => exact hnext.sound ih

theorem follows_of_reaches (h : Reaches crypto args (start args) s)
    (hfailed : s.consumer.isFailed = false) :
    ∃ written chunks, Follows crypto args s written chunks := by
  refine (sound_of_reaches h).resolve_left ?_
  rw [hfailed]
  exact Bool.false_ne_true

/-- **When the call returns `Ok`, the frames of the range are on the stream**: those of
consecutive chunks, none of them empty, that are the range of the file. -/
theorem sent_of_reaches (hargs : args.resumeOffset < args.rangeEndExclusive)
    (h : Reaches crypto args (start args) s) {n : Nat} (hok : s.consumer = .returned (.ok n)) :
    n = args.totalBytes ∧ ∃ chunks : List (List UInt8),
      (∀ chunk ∈ chunks, 0 < chunk.length) ∧
        chunks.flatten = Bytes.slice args.file args.resumeOffset args.rangeEndExclusive ∧
        args.frames crypto chunks = .ok s.sent := by
  obtain ⟨written, chunks, hfollows⟩ := follows_of_reaches h (by rw [hok]; rfl)
  have hall := hfollows.finished (by rw [hok]; rfl)
  obtain ⟨rfl, -⟩ := hfollows.all_written hall
  have hlen : chunks.flatten.length = args.rangeEndExclusive - args.resumeOffset :=
    hfollows.streamed.symm.trans hall
  have hfile := hfollows.file
  rw [hlen, Nat.add_sub_cancel' hargs.le] at hfile
  exact ⟨(hfollows.returned n hok).trans hall, chunks, hfollows.chunk, hfile, hfollows.sent⟩

end SendPipeline

end Metra.Client
