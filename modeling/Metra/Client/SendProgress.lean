import Metra.Client.Plan
import Metra.Client.SendPipelined

/-!
# The send pipeline does not get stuck

The call gives the buffers back to the pool the reader takes them from, so the stages wait for
each other in a circle.  What a stage waits for when it does not move is said once for each
stage; that the buffers are all somewhere, and what `Follows` says of the bytes, rules out that
all three wait.

* `not_stuck` — **some stage can move** until the call has returned and both tasks have ended;
* `send_pipelined` — with it, what is true of every run of a lane;
* `finishes` — a run in which no call to the file or the stream fails ends with `Ok`.
-/

namespace Metra.Client.SendPipeline

variable {crypto : AeadCrypto} {args : SendLaneArgs} {s s' : SendPipeline} {outcome : Outcome}

/-- The call has returned, and both tasks have ended. -/
def Ended (s : SendPipeline) : Prop :=
  s.consumer.isReturned = true ∧ s.reader.isFinished = true ∧ s.encrypt.isFinished = true

/-- Some stage moves, with a call to the file or the stream that does not fail. -/
def Advances (crypto : AeadCrypto) (args : SendLaneArgs) (s s' : SendPipeline) : Prop :=
  ∃ stage n, step? crypto args stage (.done n) s = some s'

theorem Advances.next (h : Advances crypto args s s') : Next crypto args s s' := by
  obtain ⟨stage, n, hstep⟩ := h
  exact ⟨stage, .done n, hstep⟩

theorem reaches_of_advances (h : Relation.ReflTransGen (Advances crypto args) (start args) s) :
    Reaches crypto args (start args) s :=
  Relation.ReflTransGen.mono (fun _ _ => Advances.next) _ _ h

/-! ## What a stage waits for -/

/-- What the reader waits for: a buffer, or room in the channel. -/
inductive ReaderWaits (args : SendLaneArgs) (s : SendPipeline) : Prop
  | ended (hended : s.reader.isFinished = true)
  | buffer (hreader : s.reader = .looping) (hmore : 0 < s.toRead) (hpool : s.pool = [])
      (hopen : s.consumer.isReturned = false)
  | room (chunk : SendReadChunk) (hreader : s.reader = .sending chunk)
      (hopen : s.encrypt.isFinished = false)
      (hfull : args.fileReadPipelineDepth ≤ s.readQueue.length)

/-- What the encrypt task waits for: a chunk, or room in the channel. -/
inductive EncryptWaits (args : SendLaneArgs) (s : SendPipeline) : Prop
  | ended (hended : s.encrypt.isFinished = true)
  | chunk (hencrypt : s.encrypt = .receiving) (hqueue : s.readQueue = [])
      (hrunning : s.reader.isFinished = false)
  | room (chunk : SendWireChunk) (hencrypt : s.encrypt = .sending chunk)
      (hopen : s.consumer.isReturned = false)
      (hfull : max args.sendTransformPipelineDepth 1 ≤ s.encryptQueue.length)

/-- What the call waits for: a frame, room in the pool, or the end of a task. -/
inductive ConsumerWaits (args : SendLaneArgs) (s : SendPipeline) : Prop
  | ended (hended : s.consumer.isReturned = true)
  | frame (hconsumer : s.consumer = .receiving) (hqueue : s.encryptQueue = [])
      (hrunning : s.encrypt.isFinished = false)
  | room (buffer : Buffer) (hconsumer : s.consumer = .recycling buffer)
      (hrunning : s.reader.isFinished = false)
      (hfull : args.fileReadPipelineDepth ≤ s.pool.length)
  | reader (hconsumer : s.consumer = .joinReader) (hrunning : s.reader.isFinished = false)
  | encrypt (hconsumer : s.consumer = .joinEncrypt) (hrunning : s.encrypt.isFinished = false)

theorem readerWaits_of_step (h : ∀ n, readerStep args (.done n) s = none) :
    ReaderWaits args s := by
  have h := h 1
  unfold readerStep at h
  cases hreader : s.reader with
  | opening => simp [hreader] at h
  | looping =>
    simp only [hreader] at h
    split at h
    · rename_i hmore
      split at h
      · cases h
      · rename_i hpool
        split at h
        · cases h
        · rename_i hopen
          exact .buffer hreader hmore hpool (Bool.eq_false_of_not_eq_true hopen)
    · cases h
  | reading buffer =>
    -- a `read` of one byte, or the end of the file
    simp only [hreader] at h
    split at h
    · cases h
    · rename_i hsome
      rw [if_pos ⟨Nat.one_pos, Nat.pos_of_ne_zero hsome⟩] at h
      cases h
  | sending chunk =>
    simp only [hreader] at h
    split at h
    · cases h
    · rename_i hopen
      split at h
      · cases h
      · rename_i hfull
        exact .room chunk hreader (Bool.eq_false_of_not_eq_true hopen) (Nat.le_of_not_lt hfull)
  | finished result => exact .ended (by rw [hreader]; rfl)

theorem encryptWaits_of_step (h : encryptStep crypto args s = none) : EncryptWaits args s := by
  unfold encryptStep at h
  cases hencrypt : s.encrypt with
  | receiving =>
    simp only [hencrypt] at h
    split at h
    · split at h <;> cases h
    · rename_i hqueue
      split at h
      · cases h
      · rename_i hrunning
        exact .chunk hencrypt hqueue (Bool.eq_false_of_not_eq_true hrunning)
  | sending chunk =>
    simp only [hencrypt] at h
    split at h
    · cases h
    · rename_i hopen
      split at h
      · cases h
      · rename_i hfull
        exact .room chunk hencrypt (Bool.eq_false_of_not_eq_true hopen) (Nat.le_of_not_lt hfull)
  | finished result => exact .ended (by rw [hencrypt]; rfl)

theorem consumerWaits_of_step (h : ∀ n, consumerStep args (.done n) s = none) :
    ConsumerWaits args s := by
  have h := h 0
  unfold consumerStep at h
  cases hconsumer : s.consumer with
  | receiving =>
    simp only [hconsumer] at h
    split at h
    · split at h
      · cases h
      · rename_i hqueue
        split at h
        · cases h
        · rename_i hrunning
          exact .frame hconsumer hqueue (Bool.eq_false_of_not_eq_true hrunning)
    · split at h <;> cases h
  | writing chunk => simp [hconsumer] at h
  | recycling buffer =>
    simp only [hconsumer] at h
    split at h
    · cases h
    · rename_i hrunning
      split at h
      · cases h
      · rename_i hfull
        exact .room buffer hconsumer (Bool.eq_false_of_not_eq_true hrunning)
          (Nat.le_of_not_lt hfull)
  | joinReader =>
    cases hreader : s.reader with
    | finished result => cases result <;> simp [hconsumer, hreader] at h
    | _ => exact .reader hconsumer (by rw [hreader]; rfl)
  | joinEncrypt =>
    cases hencrypt : s.encrypt with
    | finished result => cases result <;> simp [hconsumer, hencrypt] at h
    | _ => exact .encrypt hconsumer (by rw [hencrypt]; rfl)
  | aborting err => simp [hconsumer] at h
  | returned result => exact .ended (by rw [hconsumer]; rfl)

/-! ## They do not all wait -/

/-- How many buffers there are, by the place where they are. -/
theorem Placed.card (h : Placed args s) :
    s.pool.length + s.reader.buffers.length + s.readQueue.length + s.encrypt.chunks.length +
      s.encryptQueue.length + s.consumer.chunks.length + s.consumer.recycled.length +
        s.freed.length = args.fileReadPipelineDepth := by
  have hcard := congrArg Multiset.card h
  simpa only [Multiset.card_map, Multiset.card_range, places, Multiset.card_add,
    Multiset.coe_card, List.length_map] using hcard

variable {written chunks : List (List UInt8)}

/-- While the reader waits for a buffer, the call has one, or one is on its way to it. -/
theorem Follows.frame_on_its_way (h : Follows crypto args s written chunks)
    (hplaced : Placed args s) (hdepth : 0 < args.fileReadPipelineDepth)
    (hconsumer : s.consumer = .receiving) (hqueue : s.encryptQueue = [])
    (hreader : ReaderWaits args s) (hencrypt : EncryptWaits args s) :
    s.encrypt.isFinished = true := by
  cases hencrypt with
  | ended hended => exact hended
  | room chunk _ _ hfull =>
    rw [hqueue, List.length_nil] at hfull
    omega
  | chunk hencrypt hread hrunning =>
    cases hreader with
    | ended hended =>
      rw [hrunning] at hended
      cases hended
    | room chunk _ _ hfull =>
      rw [hread, List.length_nil] at hfull
      omega
    | buffer hlooping _ hpool =>
      -- all buffers are in the pool, and none is
      have hcard := hplaced.card
      rw [h.freed hrunning (by rw [hencrypt]; rfl), hpool, hlooping, hread, hencrypt, hqueue,
        hconsumer] at hcard
      simp only [Reader.buffers, Encrypt.chunks, Consumer.chunks, Consumer.recycled,
        List.length_nil] at hcard
      omega

/-- When all is written, nothing is left to read. -/
theorem Follows.all_read (h : Follows crypto args s written chunks)
    (hall : s.bytesStreamed = args.totalBytes) (hlooping : s.reader = .looping) : s.toRead = 0 := by
  obtain ⟨rfl, -⟩ := h.all_written hall
  have hstreamed := h.streamed
  have htoRead := h.toRead (by rw [hlooping]; rfl)
  rw [hlooping] at htoRead
  simp only [Reader.chunks, List.map_nil, List.sum_nil] at htoRead
  omega

/-- When all is written, the reader ends. -/
theorem Follows.reader_ends (h : Follows crypto args s written chunks)
    (hall : s.bytesStreamed = args.totalBytes) (hreader : ReaderWaits args s) :
    s.reader.isFinished = true := by
  obtain ⟨rfl, hencoded⟩ := h.all_written hall
  cases hreader with
  | ended hended => exact hended
  | buffer hlooping hmore =>
    rw [h.all_read hall hlooping] at hmore
    cases hmore
  | room chunk hsending hopen =>
    have hexact := h.exact hopen (by rw [hsending]; rfl)
    rw [hencoded, List.map_nil, List.append_nil, unencoded, hsending] at hexact
    simp [Reader.chunks] at hexact

/-- When all is written and the reader has ended, the encrypt task ends. -/
theorem Follows.encrypt_ends (h : Follows crypto args s written chunks)
    (hall : s.bytesStreamed = args.totalBytes) (hreader : s.reader.isFinished = true)
    (hencrypt : EncryptWaits args s) : s.encrypt.isFinished = true := by
  cases hencrypt with
  | ended hended => exact hended
  | chunk _ _ hrunning =>
    rw [hreader] at hrunning
    cases hrunning
  | room chunk hsending =>
    have hencoded := (h.all_written hall).2
    rw [encoded, hsending] at hencoded
    simp [Encrypt.chunks] at hencoded

/-- When the call has returned, both tasks end. -/
theorem tasks_end (hdepth : 0 < args.fileReadPipelineDepth)
    (hreturned : s.consumer.isReturned = true) (hreader : ReaderWaits args s)
    (hencrypt : EncryptWaits args s) :
    s.reader.isFinished = true ∧ s.encrypt.isFinished = true := by
  cases hreader with
  | ended hended =>
    refine ⟨hended, ?_⟩
    cases hencrypt with
    | ended hended => exact hended
    | chunk _ _ hrunning => rw [hended] at hrunning; cases hrunning
    | room _ _ hopen => rw [hreturned] at hopen; cases hopen
  | buffer _ _ _ hopen => rw [hreturned] at hopen; cases hopen
  | room chunk _ hrunning hfull =>
    cases hencrypt with
    | ended hended => rw [hended] at hrunning; cases hrunning
    | chunk _ hqueue =>
      rw [hqueue, List.length_nil] at hfull
      omega
    | room _ _ hopen => rw [hreturned] at hopen; cases hopen

/-- **No circle of waits**: until the call has returned and both tasks have ended, some stage
can move. -/
theorem not_stuck (hdepth : 0 < args.fileReadPipelineDepth)
    (hreaches : Reaches crypto args (start args) s) (hended : ¬ Ended s) :
    ∃ s', Advances crypto args s s' := by
  by_contra hstuck
  have hnone : ∀ stage n, step? crypto args stage (.done n) s = none := by
    intro stage n
    rw [Option.eq_none_iff_forall_ne_some]
    intro s' hstep
    exact hstuck ⟨s', stage, n, hstep⟩
  have hplaced := placed_of_reaches hreaches
  have hreader : ReaderWaits args s := readerWaits_of_step (hnone .reader)
  have hencrypt : EncryptWaits args s := encryptWaits_of_step (hnone .encrypt 0)
  have hconsumer : ConsumerWaits args s := consumerWaits_of_step (hnone .consumer)
  have hfollows := follows_of_reaches hreaches
  cases hconsumer with
  | ended hreturned => exact hended ⟨hreturned, tasks_end hdepth hreturned hreader hencrypt⟩
  | frame hreceiving hqueue hrunning =>
    obtain ⟨written, chunks, h⟩ := hfollows (by rw [hreceiving]; rfl)
    rw [h.frame_on_its_way hplaced hdepth hreceiving hqueue hreader hencrypt] at hrunning
    cases hrunning
  | room buffer hrecycling _ hfull =>
    -- the buffer in the hands of the call is not in the pool
    have hcard := hplaced.card
    rw [hrecycling] at hcard
    simp only [Consumer.recycled, List.length_singleton] at hcard
    omega
  | reader hjoin hrunning =>
    obtain ⟨written, chunks, h⟩ := hfollows (by rw [hjoin]; rfl)
    rw [h.reader_ends (h.finished (by rw [hjoin]; rfl)) hreader] at hrunning
    cases hrunning
  | encrypt hjoin hrunning =>
    obtain ⟨written, chunks, h⟩ := hfollows (by rw [hjoin]; rfl)
    rw [h.encrypt_ends (h.finished (by rw [hjoin]; rfl)) (h.joined hjoin) hencrypt] at hrunning
    cases hrunning

/-! ## Nothing fails of itself -/

theorem Placed.length_of_mem (h : Placed args s) {buffer : Buffer} (hmem : buffer ∈ s.places) :
    buffer.bytes.length = args.ioChunkBytes := by
  have hlabel := Multiset.mem_map_of_mem Buffer.label hmem
  rw [h] at hlabel
  obtain ⟨id, -, heq⟩ := Multiset.mem_map.1 hlabel
  exact (congrArg Prod.snd heq).symm

/-- No stage has failed. -/
structure Succeeds (s : SendPipeline) : Prop where
  reader : ∀ err, s.reader ≠ .finished (.error err)
  encrypt : ∀ err, s.encrypt ≠ .finished (.error err)
  consumer : s.consumer.isFailed = false
  reading : ∀ buffer, s.reader = .reading buffer → 0 < s.toRead

theorem succeeds_start : Succeeds (start args) where
  reader _ := Reader.noConfusion
  encrypt _ := Encrypt.noConfusion
  consumer := rfl
  reading _ := Reader.noConfusion

/-- The call that has returned has written all. -/
theorem Succeeds.isDone (h : Succeeds s) (hreturned : s.consumer.isReturned = true) :
    s.consumer.isDone = true := by
  have hconsumer := h.consumer
  cases hcase : s.consumer with
  | returned result =>
    rw [hcase] at hconsumer
    cases result with
    | ok n => rfl
    | error err => cases hconsumer
  | _ =>
    rw [hcase] at hreturned
    cases hreturned

theorem Succeeds.isBroken (h : Succeeds s) : s.reader.isBroken = false := by
  cases hreader : s.reader with
  | finished result =>
    cases result with
    | ok _ => rfl
    | error err => exact absurd hreader (h.reader err)
  | _ => rfl

theorem Succeeds.reader_done (h : Succeeds s) (hended : s.reader.isFinished = true) :
    s.reader = .finished (.ok ()) := by
  cases hreader : s.reader with
  | finished result =>
    cases result with
    | ok _ => rfl
    | error err => exact absurd hreader (h.reader err)
  | _ =>
    rw [hreader] at hended
    cases hended

theorem Succeeds.encrypt_done (h : Succeeds s) (hended : s.encrypt.isFinished = true) :
    s.encrypt = .finished (.ok ()) := by
  cases hencrypt : s.encrypt with
  | finished result =>
    cases result with
    | ok _ => rfl
    | error err => exact absurd hencrypt (h.encrypt err)
  | _ =>
    rw [hencrypt] at hended
    cases hended

/-- The reader task ends once it has read all. -/
theorem Succeeds.readerEnds (h : Succeeds s) (hfollows : Follows crypto args s written chunks)
    (hplaced : Placed args s) (hargs : args.Valid) {n : Nat} {result : Except String Unit}
    (hwhy : ReaderEnds args (.done n) s result) : result = .ok () := by
  cases hwhy with
  | done => rfl
  | call _ _ hfail => cases hfail
  | @eof buffer _ hreader hnone =>
    -- there is something to read, the buffer has room, and the file goes on
    have hrunning : s.reader.isFinished = false := by rw [hreader]; rfl
    have hmore := h.reading buffer hreader
    have hbuffer : buffer.bytes.length = args.ioChunkBytes := by
      refine hplaced.length_of_mem ?_
      simp [places, hreader, Reader.buffers]
    have hcursor := hfollows.cursor hrunning (by rw [hreader]; exact Reader.noConfusion)
    have htoRead := hfollows.toRead hrunning
    rw [hreader] at htoRead
    simp only [Reader.chunks, List.map_nil, List.sum_nil, SendLaneArgs.totalBytes] at htoRead
    have hchunk := hargs.chunk
    have hfile := hargs.file
    have hrange := hargs.range
    simp only [available] at hnone
    omega
  | noPool _ hreader hmore hreturned =>
    rw [hfollows.all_read (hfollows.finished (h.isDone hreturned)) hreader] at hmore
    cases hmore
  | noChannel _ hreader hended =>
    have hrunning := (hfollows.ended (h.encrypt_done hended)).1
    rw [hreader] at hrunning
    cases hrunning

theorem Succeeds.readerMoves (h : Succeeds s) (hfollows : Follows crypto args s written chunks)
    (hplaced : Placed args s) (hargs : args.Valid) {n : Nat}
    (hmoves : ReaderMoves args (.done n) s s') : Succeeds s' := by
  cases hmoves with
  | opens | sends =>
    exact { h with
      reader := fun _ => Reader.noConfusion
      reading := fun _ => Reader.noConfusion }
  | takes _ hmore =>
    exact { h with
      reader := fun _ => Reader.noConfusion
      reading := fun _ _ => hmore }
  | reads =>
    exact { h with
      reader := fun _ => Reader.noConfusion
      reading := fun _ => Reader.noConfusion }
  | ends hwhy =>
    cases h.readerEnds hfollows hplaced hargs hwhy
    exact { h with
      reader := fun err heq => by cases heq
      reading := fun _ => Reader.noConfusion }

/-- A chunk on its way to the encrypt task can be made a frame of. -/
theorem Follows.frame_ok (h : Follows crypto args s written chunks) (hplaced : Placed args s)
    (hargs : args.Valid) (hcrypto : crypto.OpensSealed) (hencrypt : s.encrypt = .receiving)
    {chunk : SendReadChunk} {queue : List SendReadChunk} (hqueue : s.readQueue = chunk :: queue) :
    ∃ wirePayload, args.frame crypto s.frameCounter chunk.plaintext = .ok wirePayload := by
  refine (encodePayloadFrame_ok_iff hcrypto).2 ⟨?_, ?_⟩
  · -- it is one of the chunks that were read
    refine h.chunk _ ((h.order (by rw [hencrypt]; rfl)).subset (List.mem_append_right _ ?_))
    rw [unencoded, hqueue]
    exact List.mem_map_of_mem (List.mem_append_left _ List.mem_cons_self)
  · have hbuffer : chunk.buffer.bytes.length = args.ioChunkBytes := by
      refine hplaced.length_of_mem ?_
      simp [places, hqueue]
    have hle : chunk.plaintext.length ≤ chunk.buffer.bytes.length := List.length_take_le' _ _
    exact (hle.trans_eq hbuffer).trans hargs.chunk_le

theorem Succeeds.encryptMoves (h : Succeeds s) (hfollows : Follows crypto args s written chunks)
    (hplaced : Placed args s) (hargs : args.Valid) (hcrypto : crypto.OpensSealed)
    (hmoves : EncryptMoves crypto args s s') : Succeeds s' := by
  cases hmoves with
  | takes | sends => exact { h with encrypt := fun _ => Encrypt.noConfusion }
  | done => exact { h with encrypt := fun err heq => by cases heq }
  | noFrame hencrypt hqueue hframe =>
    obtain ⟨wirePayload, hok⟩ := hfollows.frame_ok hplaced hargs hcrypto hencrypt hqueue
    rw [hok] at hframe
    cases hframe
  | noChannel _ hencrypt hreturned =>
    have hencoded := (hfollows.all_written (hfollows.finished (h.isDone hreturned))).2
    rw [encoded, hencrypt] at hencoded
    simp [Encrypt.chunks] at hencoded

/-- The call does not give up. -/
theorem Succeeds.goes_on (h : Succeeds s) (hfollows : Follows crypto args s written chunks)
    (hconsumer : s.consumer = .receiving) :
    ¬ ((0 < s.remaining ∧ s.encryptQueue = [] ∧ s.encrypt.isFinished = true) ∨
      s.remaining = 0 ∧ s.bytesStreamed ≠ args.totalBytes) := by
  have hremaining := hfollows.remaining
  have hstreamed := hfollows.streamed
  rintro (⟨hmore, hqueue, hended⟩ | ⟨hall, hne⟩)
  · -- the encrypt task has made frames of all, and all were written
    have hencrypt := h.encrypt_done hended
    obtain ⟨hreader, hchunks⟩ := hfollows.ended hencrypt
    have hwritten := hchunks h.isBroken
    rw [encoded, hconsumer, hqueue, hencrypt] at hwritten
    simp only [Consumer.chunks, Encrypt.chunks, List.append_nil, List.map_nil] at hwritten
    have hdone := hfollows.done (h.reader_done hreader)
    rw [hwritten] at hdone
    omega
  · obtain ⟨rest, hrest⟩ := hfollows.behind
    have hbound := hfollows.bound
    rw [← hrest] at hbound
    simp only [List.flatten_append, List.length_append] at hbound
    omega

theorem Succeeds.consumerMoves (h : Succeeds s) (hfollows : Follows crypto args s written chunks)
    {n : Nat} (hmoves : ConsumerMoves args (.done n) s s') : Succeeds s' := by
  cases hmoves with
  | takes | writes | recycles | drops | passes | joins | returns => exact { h with consumer := rfl }
  | breaks _ hfail => cases hfail
  | givesUp _ hconsumer hwhy => exact absurd hwhy (h.goes_on hfollows hconsumer)
  | fails hwhy =>
    rcases hwhy with ⟨-, hended⟩ | ⟨-, hended⟩
    · exact absurd hended (h.reader _)
    · exact absurd hended (h.encrypt _)
  | aborts hconsumer =>
    have hsound := h.consumer
    rw [hconsumer] at hsound
    cases hsound

theorem succeeds_of_advances (hargs : args.Valid) (hcrypto : crypto.OpensSealed)
    (h : Relation.ReflTransGen (Advances crypto args) (start args) s) : Succeeds s := by
  induction h with
  | refl => exact succeeds_start
  | @tail s s' hrun hadvances ih =>
    have hreaches := reaches_of_advances hrun
    obtain ⟨written, chunks, hfollows⟩ := follows_of_reaches hreaches ih.consumer
    have hplaced := placed_of_reaches hreaches
    obtain ⟨stage, n, hstep⟩ := hadvances
    cases stage with
    | reader => exact ih.readerMoves hfollows hplaced hargs (readerMoves_of_step hstep)
    | encrypt => exact ih.encryptMoves hfollows hplaced hargs hcrypto (encryptMoves_of_step hstep)
    | consumer =>
      have hmoves : ConsumerMoves args (.done n) s s' := consumerMoves_of_step hstep
      exact ih.consumerMoves hfollows hmoves

/-! ## All runs -/

/-- **The send pipeline does not get stuck, loses no buffer, and sends what it is to send.**
In every state that is reached, under any schedule, with any short reads and any failures of the
file and of the stream:

* every buffer of the pool is in exactly one place;
* until the call has returned and both tasks have ended, some stage can move, and the stages do
  not move forever;
* if the call has returned `Ok`, the frames of consecutive chunks are on the stream, of which
  none is empty and which together are the range of the file, and the count is their length. -/
theorem send_pipelined (hargs : args.Valid) (hreaches : Reaches crypto args (start args) s) :
    Placed args s ∧
      (¬ Ended s → ∃ s', Advances crypto args s s') ∧
      Acc (fun s₂ s₁ => Next crypto args s₁ s₂) s ∧
      ∀ n, s.consumer = .returned (.ok n) → ∃ chunks : List (List UInt8),
        (∀ chunk ∈ chunks, 0 < chunk.length) ∧
        chunks.flatten = Bytes.slice args.file args.resumeOffset args.rangeEndExclusive ∧
        n = chunks.flatten.length ∧ args.frames crypto chunks = .ok s.sent := by
  refine ⟨placed_of_reaches hreaches, not_stuck hargs.depth hreaches,
    wellFounded_next.apply s, fun n hok => ?_⟩
  obtain ⟨hcount, chunks, hpos, hslice, hframes⟩ := sent_of_reaches hargs.range hreaches hok
  refine ⟨chunks, hpos, hslice, ?_, hframes⟩
  rw [hcount, hslice, Bytes.length_slice hargs.file, SendLaneArgs.totalBytes]

/-- The stages move as the schedule says. -/
def run (crypto : AeadCrypto) (args : SendLaneArgs) :
    List (Stage × Outcome) → SendPipeline → Option SendPipeline
  | [], s => some s
  | (stage, outcome) :: schedule, s =>
    (step? crypto args stage outcome s).bind (run crypto args schedule)

theorem reaches_of_run {schedule : List (Stage × Outcome)}
    (h : run crypto args schedule s = some s') : Reaches crypto args s s' := by
  induction schedule generalizing s with
  | nil =>
    cases h
    exact .refl
  | cons move schedule ih =>
    obtain ⟨s₁, hstep, hrest⟩ := Option.bind_eq_some_iff.1 h
    exact .head ⟨move.1, move.2, hstep⟩ (ih hrest)

namespace SendSample

/-- The three bytes in the middle of a file, with one buffer for two bytes. -/
def lane : SendLaneArgs where
  transferId := .nil
  file := [1, 2, 3, 4, 5]
  resumeOffset := 1
  rangeEndExclusive := 4
  payloadCodec := .rawV1
  ioChunkBytes := 2
  fileReadPipelineDepth := 1
  sendTransformPipelineDepth := 0
  laneIndex := 0
  binding := ⟨List.replicate 16 7, rfl⟩

/-- One chunk from the file to the stream, with a `read` of `n` bytes. -/
def turn (n : Nat) : List (Stage × Outcome) :=
  [(.reader, .done 0), (.reader, .done n), (.reader, .done 0), (.encrypt, .done 0),
    (.encrypt, .done 0), (.consumer, .done 0), (.consumer, .done 0), (.consumer, .done 0)]

/-- A short read of one byte, one of two, and both tasks end. -/
def schedule : List (Stage × Outcome) :=
  [(.reader, .done 0)] ++ turn 1 ++ turn 2 ++ [(.reader, .done 0), (.encrypt, .done 0),
    (.consumer, .done 0), (.consumer, .done 0), (.consumer, .done 0)]

theorem valid : lane.Valid := ⟨by decide, by decide, by decide, by decide, by decide⟩

end SendSample

open SendSample in
/-- Three bytes of a file are sent. -/
theorem send_pipelined_sample :
    ∃ s, s.consumer = .returned (.ok 3) ∧ Ended s ∧ Placed lane s ∧
      ∃ chunks : List (List UInt8), chunks.flatten = [2, 3, 4] ∧
        lane.frames Sample.crypto chunks = .ok s.sent := by
  have hrun : ∃ s, run Sample.crypto lane schedule (start lane) = some s ∧
      s.consumer = .returned (.ok 3) ∧ Ended s := ⟨_, rfl, rfl, rfl, rfl, rfl⟩
  obtain ⟨s, hrun, hok, hended⟩ := hrun
  obtain ⟨hplaced, -, -, hsent⟩ := send_pipelined valid (reaches_of_run hrun)
  obtain ⟨chunks, -, hslice, -, hframes⟩ := hsent 3 hok
  exact ⟨s, hok, hended, hplaced, chunks, hslice, hframes⟩

/-! ## Runs in which nothing fails -/

/-- **When no call to the file or the stream fails, the lane is sent**: a run that cannot go
on has returned the number of bytes of the range. -/
theorem finishes (hargs : args.Valid) (hcrypto : crypto.OpensSealed)
    (hrun : Relation.ReflTransGen (Advances crypto args) (start args) s)
    (hstuck : ¬ ∃ s', Advances crypto args s s') :
    s.consumer = .returned (.ok args.totalBytes) := by
  have hreaches := reaches_of_advances hrun
  have hsucceeds := succeeds_of_advances hargs hcrypto hrun
  obtain ⟨hreturned, -, -⟩ := not_not.1 (mt (not_stuck hargs.depth hreaches) hstuck)
  have hok : ∃ n, s.consumer = .returned (.ok n) := by
    have hsound := hsucceeds.consumer
    cases hconsumer : s.consumer with
    | returned result =>
      cases result with
      | ok n => exact ⟨n, rfl⟩
      | error err =>
        rw [hconsumer] at hsound
        cases hsound
    | _ =>
      rw [hconsumer] at hreturned
      cases hreturned
  obtain ⟨n, hok⟩ := hok
  rw [hok, (sent_of_reaches hargs.range hreaches hok).1]

/-- The stages move as the schedule says, and no call fails. -/
theorem advances_of_run {schedule : List (Stage × Nat)}
    (h : run crypto args (schedule.map fun move => (move.1, .done move.2)) s = some s') :
    Relation.ReflTransGen (Advances crypto args) s s' := by
  induction schedule generalizing s with
  | nil =>
    cases h
    exact .refl
  | cons move schedule ih =>
    obtain ⟨s₁, hstep, hrest⟩ := Option.bind_eq_some_iff.1 h
    exact .head ⟨move.1, move.2, hstep⟩ (ih hrest)

/-- What the calls of the schedule return. -/
def SendSample.returns : List (Stage × Nat) :=
  [(.reader, 0), (.reader, 0), (.reader, 1), (.reader, 0), (.encrypt, 0), (.encrypt, 0),
    (.consumer, 0), (.consumer, 0), (.consumer, 0), (.reader, 0), (.reader, 2), (.reader, 0),
    (.encrypt, 0), (.encrypt, 0), (.consumer, 0), (.consumer, 0), (.consumer, 0), (.reader, 0),
    (.encrypt, 0), (.consumer, 0), (.consumer, 0), (.consumer, 0)]

open SendSample in
/-- Three bytes are sent by calls of which none fails. -/
theorem finishes_sample :
    ∃ s, Relation.ReflTransGen (Advances Sample.crypto lane) (start lane) s ∧
      s.consumer = .returned (.ok 3) := by
  have hrun : ∃ s, run Sample.crypto lane (returns.map fun move => (move.1, .done move.2))
      (start lane) = some s ∧ ∀ stage n, step? Sample.crypto lane stage (.done n) s = none := by
    refine ⟨_, rfl, fun stage n => ?_⟩
    cases stage with
    | reader => rfl
    | encrypt => rfl
    | consumer => rfl
  obtain ⟨s, hs, hnone⟩ := hrun
  have hadvances := advances_of_run hs
  have hstuck : ¬ ∃ s', Advances Sample.crypto lane s s' := by
    rintro ⟨s', stage, n, hstep⟩
    rw [hnone] at hstep
    cases hstep
  exact ⟨s, hadvances, finishes valid Sample.crypto_opensSealed hadvances hstuck⟩

end Metra.Client.SendPipeline
