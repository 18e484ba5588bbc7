import Mathlib.Algebra.Order.Group.Multiset
import Mathlib.Data.Multiset.Range
import Mathlib.Logic.Relation
import Mathlib.Tactic.Abel
import Metra.Bytes.FileData
import Metra.Receive.Frames

/-!
# Sending a lane of a file

`send_file_lane_pipelined` runs three stages: the reader task fills buffers from the file, the
encrypt task makes frames of them, and the call itself writes the frames to the stream.  A
fixed number of buffers goes round: the pool, the channel to the encrypt task and the one
behind it are bounded, and the call gives each buffer back to the pool.

* `wellFounded_next` — every schedule ends;
* `placed_of_reaches` — **every buffer of the pool is in exactly one place**.

The scheduler picks which stage moves next.  How many bytes a `read` gives, and whether the file
and the stream fail, is an `Outcome`; the content of the file does not change.  The counter
behind the progress display is left out.
-/

namespace Metra.Client

/-- The greatest `u64`, where the nonce counter stays. -/
def u64Max : Nat := 2 ^ 64 - 1

/-- The first four bytes of a nonce. -/
structure NoncePrefix where
  bytes : List UInt8
  size : bytes.length = 4

/-- The first four bytes of a random id. -/
def randomNoncePrefix (binding : Uuid) : NoncePrefix where
  bytes := binding.bytes.take 4
  size := by rw [List.length_take, binding.size]; rfl

/-- The nonce of a frame: the prefix of the session and a counter. -/
def payloadNonce (first : NoncePrefix) (counter : Nat) : Nonce where
  bytes := first.bytes ++ Bytes.toBeBytes 8 counter
  size := by rw [List.length_append, first.size, Bytes.length_toBeBytes]

/-- The arguments, what is in the file, and the random id that the nonces begin with. -/
structure SendLaneArgs where
  transferId : Uuid
  file : List UInt8
  resumeOffset : Nat
  rangeEndExclusive : Nat
  payloadCodec : PayloadCodec
  ioChunkBytes : Nat
  fileReadPipelineDepth : Nat
  sendTransformPipelineDepth : Nat
  laneIndex : Nat
  binding : Uuid

/-- How much of the lane is to be sent. -/
def SendLaneArgs.totalBytes (args : SendLaneArgs) : Nat :=
  args.rangeEndExclusive - args.resumeOffset

/-- The frame for a chunk, with the counter its nonce is made of. -/
def SendLaneArgs.frame (crypto : AeadCrypto) (args : SendLaneArgs) (counter : Nat)
    (plaintext : List UInt8) : Except String (List UInt8) :=
  encodePayloadFrame crypto args.payloadCodec plaintext
    (payloadNonce (randomNoncePrefix args.binding) counter)
    (laneCodec crypto args.payloadCodec args.transferId args.laneIndex)

/-- How a call of the file system or of the network ends: done, with a number of bytes that
were read, or failed, with a number of bytes that were written before. -/
inductive Outcome
  | done (n : Nat)
  | fail (n : Nat)
  deriving DecidableEq

namespace SendPipeline

/-- A buffer of the pool: which of them it is, and what it holds. -/
structure Buffer where
  id : Nat
  bytes : List UInt8
  deriving DecidableEq

/-- A buffer with what has been read into it. -/
structure SendReadChunk where
  buffer : Buffer
  bytesRead : Nat
  deriving DecidableEq

/-- The bytes that were read. -/
def SendReadChunk.plaintext (chunk : SendReadChunk) : List UInt8 :=
  chunk.buffer.bytes.take chunk.bytesRead

/-- A sealed chunk, and the buffer that goes back to the reader. -/
structure SendWireChunk where
  wirePayload : List UInt8
  plaintextLen : Nat
  recycleBuffer : Buffer
  deriving DecidableEq

/-- What the frame was made of is still in the buffer. -/
def SendWireChunk.plaintext (chunk : SendWireChunk) : List UInt8 :=
  chunk.recycleBuffer.bytes.take chunk.plaintextLen

/-- The three tasks of the pipeline. -/
inductive Stage
  | reader
  | encrypt
  | consumer
  deriving DecidableEq

/-- Where the reader task stands. -/
inductive Reader
  | opening
  | looping
  | reading (buffer : Buffer)
  | sending (chunk : SendReadChunk)
  | finished (result : Except String Unit)

/-- The reader has ended. -/
def Reader.isFinished : Reader → Bool
  | .finished _ => true
  | _ => false

/-- The buffer the reader has in its hands. -/
def Reader.buffers : Reader → List Buffer
  | .reading buffer => [buffer]
  | .sending chunk => [chunk.buffer]
  | _ => []

/-- Where the encrypt task stands. -/
inductive Encrypt
  | receiving
  | sending (chunk : SendWireChunk)
  | finished (result : Except String Unit)

/-- The encrypt task has ended. -/
def Encrypt.isFinished : Encrypt → Bool
  | .finished _ => true
  | _ => false

/-- The chunk the encrypt task has made a frame of. -/
def Encrypt.chunks : Encrypt → List SendWireChunk
  | .sending chunk => [chunk]
  | _ => []

/-- Where the call itself stands. -/
inductive Consumer
  | receiving
  | writing (chunk : SendWireChunk)
  | recycling (buffer : Buffer)
  | joinReader
  | joinEncrypt
  | aborting (err : String)
  | returned (result : Except String Nat)

/-- The consumer, and with it the pipeline, has returned. -/
def Consumer.isReturned : Consumer → Bool
  | .returned _ => true
  | _ => false

/-- The chunk that is being written. -/
def Consumer.chunks : Consumer → List SendWireChunk
  | .writing chunk => [chunk]
  | _ => []

/-- The buffer that is on its way back to the pool. -/
def Consumer.recycled : Consumer → List Buffer
  | .recycling buffer => [buffer]
  | _ => []

end SendPipeline

open SendPipeline

/-- The three stages and the channels between them.  `sent` is what is on the stream, and
`freed` are the buffers that are gone. -/
structure SendPipeline where
  pool : List Buffer
  reader : Reader
  cursor : Nat
  toRead : Nat
  readQueue : List SendReadChunk
  encrypt : Encrypt
  frameCounter : Nat
  encryptQueue : List SendWireChunk
  consumer : Consumer
  remaining : Nat
  bytesStreamed : Nat
  sent : List UInt8
  freed : List Buffer

namespace SendPipeline

variable (crypto : AeadCrypto) (args : SendLaneArgs)

/-- The pool is seeded, and the tasks are spawned. -/
def start : SendPipeline where
  pool := (List.range args.fileReadPipelineDepth).map fun id =>
    ⟨id, List.replicate args.ioChunkBytes 0⟩
  reader := .opening
  cursor := 0
  toRead := args.totalBytes
  readQueue := []
  encrypt := .receiving
  frameCounter := 0
  encryptQueue := []
  consumer := .receiving
  remaining := args.totalBytes
  bytesStreamed := 0
  sent := []
  freed := []

/-- The reader task ends: its ends of the channels and what it has in its hands are dropped. -/
def endReader (s : SendPipeline) (result : Except String Unit) : SendPipeline :=
  { s with
    reader := .finished result, pool := []
    freed := s.freed ++ s.pool ++ s.reader.buffers }

/-- The encrypt task ends, with a buffer it has taken and not handed on. -/
def endEncrypt (s : SendPipeline) (result : Except String Unit) (taken : List Buffer) :
    SendPipeline :=
  { s with
    encrypt := .finished result, readQueue := []
    freed := s.freed ++ s.readQueue.map SendReadChunk.buffer ++ taken }

/-- The call returns, and drops its end of the channel. -/
def returnWith (s : SendPipeline) (result : Except String Nat) : SendPipeline :=
  { s with
    consumer := .returned result, encryptQueue := []
    freed := s.freed ++ s.encryptQueue.map SendWireChunk.recycleBuffer }

/-- What joining an aborted task gives. -/
def cancelled : String := "task was cancelled"

/-- A task is aborted unless it has ended. -/
def abortReader (s : SendPipeline) : SendPipeline :=
  if s.reader.isFinished then s else s.endReader (.error cancelled)

/-- The encrypt task is aborted, with the chunks it has in hand. -/
def abortEncrypt (s : SendPipeline) : SendPipeline :=
  if s.encrypt.isFinished then s
  else s.endEncrypt (.error cancelled) (s.encrypt.chunks.map SendWireChunk.recycleBuffer)

/-- What a `read` into the buffer can give at most. -/
def available (s : SendPipeline) (buffer : Buffer) : Nat :=
  min (min s.toRead buffer.bytes.length) (args.file.length - s.cursor)

/-- The error of a file that is shorter than its lane. -/
def eofMessage (s : SendPipeline) : String :=
  s!"unexpected EOF while sending lane {args.laneIndex} (remaining {s.toRead} bytes)"

/-- The reader's next step; `none` when it waits, has ended, or the outcome is not one of the
call it makes. -/
def readerStep (outcome : Outcome) (s : SendPipeline) : Option SendPipeline :=
  match s.reader with
  | .opening =>
    match outcome with
    | .done _ => some { s with reader := .looping, cursor := args.resumeOffset }
    | .fail 0 => some (s.endReader (.error "failed opening file"))
    | .fail (_ + 1) => some (s.endReader (.error "failed seeking local file for resume"))
  | .looping =>
    if s.toRead > 0 then
      match s.pool with
      | buffer :: pool => some { s with pool := pool, reader := .reading buffer }
      | [] =>
        if s.consumer.isReturned then
          some (s.endReader (.error "file read pipeline buffer pool unexpectedly closed"))
        else none
    else some (s.endReader (.ok ()))
  | .reading buffer =>
    match outcome with
    | .done n =>
      if available args s buffer = 0 then some (s.endReader (.error (eofMessage args s)))
      else if 0 < n ∧ n ≤ available args s buffer then
        let bytes := Bytes.slice args.file s.cursor (s.cursor + n) ++ buffer.bytes.drop n
        some { s with reader := .sending ⟨⟨buffer.id, bytes⟩, n⟩, cursor := s.cursor + n }
      else none
    | .fail _ => some (s.endReader (.error "failed reading local file"))
  | .sending chunk =>
    if s.encrypt.isFinished then
      some (s.endReader (.error "file read stage channel unexpectedly closed"))
    else if s.readQueue.length < args.fileReadPipelineDepth then
      some { s with
        reader := .looping, toRead := s.toRead - chunk.bytesRead
        readQueue := s.readQueue ++ [chunk] }
    else none
  | .finished _ => none

/-- The encrypt task's next step. -/
def encryptStep (s : SendPipeline) : Option SendPipeline :=
  match s.encrypt with
  | .receiving =>
    match s.readQueue with
    | chunk :: queue =>
      match args.frame crypto s.frameCounter chunk.plaintext with
      | .error msg => some ({ s with readQueue := queue }.endEncrypt (.error msg) [chunk.buffer])
      | .ok wirePayload => some { s with
          readQueue := queue, frameCounter := min (s.frameCounter + 1) u64Max
          encrypt := .sending ⟨wirePayload, chunk.bytesRead, chunk.buffer⟩ }
    | [] => if s.reader.isFinished then some (s.endEncrypt (.ok ()) []) else none
  | .sending chunk =>
    if s.consumer.isReturned then
      some (s.endEncrypt (.error "file encrypt stage channel unexpectedly closed")
        [chunk.recycleBuffer])
    else if s.encryptQueue.length < max args.sendTransformPipelineDepth 1 then
      some { s with encrypt := .receiving, encryptQueue := s.encryptQueue ++ [chunk] }
    else none
  | .finished _ => none

/-- The error of a lane that was not sent as a whole. -/
def mismatchMessage (s : SendPipeline) : String :=
  s!"lane {args.laneIndex} streamed {s.bytesStreamed} bytes but expected {args.totalBytes}"

/-- The next step of the call itself. -/
def consumerStep (outcome : Outcome) (s : SendPipeline) : Option SendPipeline :=
  match s.consumer with
  | .receiving =>
    if s.remaining > 0 then
      match s.encryptQueue with
      | chunk :: queue => some { s with encryptQueue := queue, consumer := .writing chunk }
      | [] =>
        if s.encrypt.isFinished then
          some { s with consumer := .aborting "file read pipeline ended before lane completion" }
        else none
    else if s.bytesStreamed ≠ args.totalBytes then
      some { s with consumer := .aborting (mismatchMessage args s) }
    else some { s with consumer := .joinReader }
  | .writing chunk =>
    match outcome with
    | .done _ => some { s with
        sent := s.sent ++ chunk.wirePayload, remaining := s.remaining - chunk.plaintextLen
        bytesStreamed := s.bytesStreamed + chunk.plaintextLen
        consumer := .recycling chunk.recycleBuffer }
    | .fail n => some { s with
        sent := s.sent ++ chunk.wirePayload.take n
        consumer := .aborting "failed writing stream payload"
        freed := s.freed ++ [chunk.recycleBuffer] }
  | .recycling buffer =>
    if s.reader.isFinished then
      some { s with consumer := .receiving, freed := s.freed ++ [buffer] }
    else if s.pool.length < args.fileReadPipelineDepth then
      some { s with consumer := .receiving, pool := s.pool ++ [buffer] }
    else none
  | .joinReader =>
    match s.reader with
    | .finished (.ok ()) => some { s with consumer := .joinEncrypt }
    | .finished (.error err) => some (s.returnWith (.error err))
    | _ => none
  | .joinEncrypt =>
    match s.encrypt with
    | .finished (.ok ()) => some (s.returnWith (.ok s.bytesStreamed))
    | .finished (.error err) => some (s.returnWith (.error err))
    | _ => none
  | .aborting err => some (s.abortReader.abortEncrypt.returnWith (.error err))
  | .returned _ => none

/-- A step of one of the tasks, if it can take one. -/
def step? : Stage → Outcome → SendPipeline → Option SendPipeline
  | .reader, outcome => readerStep args outcome
  | .encrypt, _ => encryptStep crypto args
  | .consumer, outcome => consumerStep args outcome

/-- Some stage moves. -/
def Next (s s' : SendPipeline) : Prop :=
  ∃ stage outcome, step? crypto args stage outcome s = some s'

/-- The states the stages lead to, under any schedule and with any outcomes. -/
def Reaches : SendPipeline → SendPipeline → Prop := Relation.ReflTransGen (Next crypto args)

/-- The call returns `result`, with `sent` on the stream; with nothing to send at once. -/
def Returns (result : Except String Nat) (sent : List UInt8) : Prop :=
  if args.totalBytes = 0 then result = .ok 0 ∧ sent = []
  else ∃ s, Reaches crypto args (start args) s ∧ s.consumer = .returned result ∧ s.sent = sent

/-! ## What a step can do -/

section

variable {crypto args}

/-- Why the reader task ends. -/
inductive ReaderEnds (args : SendLaneArgs) (outcome : Outcome) (s : SendPipeline) :
    Except String Unit → Prop
  | done (hreader : s.reader = .looping) (hall : s.toRead = 0) : ReaderEnds args outcome s (.ok ())
  | call {n : Nat} (err : String) (hrunning : s.reader.isFinished = false)
      (hfail : outcome = .fail n) : ReaderEnds args outcome s (.error err)
  | eof {buffer : Buffer} (err : String) (hreader : s.reader = .reading buffer)
      (hnone : available args s buffer = 0) : ReaderEnds args outcome s (.error err)
  | noPool (err : String) (hreader : s.reader = .looping) (hmore : 0 < s.toRead)
      (hreturned : s.consumer.isReturned = true) : ReaderEnds args outcome s (.error err)
  | noChannel {chunk : SendReadChunk} (err : String) (hreader : s.reader = .sending chunk)
      (hended : s.encrypt.isFinished = true) : ReaderEnds args outcome s (.error err)

/-- The moves of the reader task. -/
inductive ReaderMoves (args : SendLaneArgs) (outcome : Outcome) (s : SendPipeline) :
    SendPipeline → Prop
  | opens (hreader : s.reader = .opening) :
      ReaderMoves args outcome s { s with reader := .looping, cursor := args.resumeOffset }
  | takes {buffer : Buffer} {pool : List Buffer} (hreader : s.reader = .looping)
      (hmore : 0 < s.toRead) (hpool : s.pool = buffer :: pool) :
      ReaderMoves args outcome s { s with pool := pool, reader := .reading buffer }
  | reads {buffer : Buffer} {n : Nat} (hreader : s.reader = .reading buffer) (hpos : 0 < n)
      (hle : n ≤ available args s buffer) :
      ReaderMoves args outcome s { s with
        cursor := s.cursor + n
        reader := .sending ⟨⟨buffer.id,
          Bytes.slice args.file s.cursor (s.cursor + n) ++ buffer.bytes.drop n⟩, n⟩ }
  | sends {chunk : SendReadChunk} (hreader : s.reader = .sending chunk)
      (hopen : s.encrypt.isFinished = false)
      (hroom : s.readQueue.length < args.fileReadPipelineDepth) :
      ReaderMoves args outcome s { s with
        reader := .looping, toRead := s.toRead - chunk.bytesRead
        readQueue := s.readQueue ++ [chunk] }
  | ends {result : Except String Unit} (hwhy : ReaderEnds args outcome s result) :
      ReaderMoves args outcome s (s.endReader result)

/-- The moves of the encrypt task. -/
inductive EncryptMoves (crypto : AeadCrypto) (args : SendLaneArgs) (s : SendPipeline) :
    SendPipeline → Prop
  | takes {chunk : SendReadChunk} {queue : List SendReadChunk} {wirePayload : List UInt8}
      (hencrypt : s.encrypt = .receiving) (hqueue : s.readQueue = chunk :: queue)
      (hframe : args.frame crypto s.frameCounter chunk.plaintext = .ok wirePayload) :
      EncryptMoves crypto args s { s with
        readQueue := queue, frameCounter := min (s.frameCounter + 1) u64Max
        encrypt := .sending ⟨wirePayload, chunk.bytesRead, chunk.buffer⟩ }
  | sends {chunk : SendWireChunk} (hencrypt : s.encrypt = .sending chunk)
      (hroom : s.encryptQueue.length < max args.sendTransformPipelineDepth 1) :
      EncryptMoves crypto args s { s with
        encrypt := .receiving, encryptQueue := s.encryptQueue ++ [chunk] }
  | done (hencrypt : s.encrypt = .receiving) (hqueue : s.readQueue = [])
      (hended : s.reader.isFinished = true) : EncryptMoves crypto args s (s.endEncrypt (.ok ()) [])
  | noFrame {chunk : SendReadChunk} {queue : List SendReadChunk} {err : String}
      (hencrypt : s.encrypt = .receiving) (hqueue : s.readQueue = chunk :: queue)
      (hframe : args.frame crypto s.frameCounter chunk.plaintext = .error err) :
      EncryptMoves crypto args s
        ({ s with readQueue := queue }.endEncrypt (.error err) [chunk.buffer])
  | noChannel {chunk : SendWireChunk} (err : String) (hencrypt : s.encrypt = .sending chunk)
      (hreturned : s.consumer.isReturned = true) :
      EncryptMoves crypto args s (s.endEncrypt (.error err) [chunk.recycleBuffer])

/-- The moves of the call itself. -/
inductive ConsumerMoves (args : SendLaneArgs) (outcome : Outcome) (s : SendPipeline) :
    SendPipeline → Prop
  | takes {chunk : SendWireChunk} {queue : List SendWireChunk} (hconsumer : s.consumer = .receiving)
      (hqueue : s.encryptQueue = chunk :: queue) :
      ConsumerMoves args outcome s { s with encryptQueue := queue, consumer := .writing chunk }
  | writes {chunk : SendWireChunk} (hconsumer : s.consumer = .writing chunk) :
      ConsumerMoves args outcome s { s with
        sent := s.sent ++ chunk.wirePayload, remaining := s.remaining - chunk.plaintextLen
        bytesStreamed := s.bytesStreamed + chunk.plaintextLen
        consumer := .recycling chunk.recycleBuffer }
  | breaks {chunk : SendWireChunk} {n : Nat} (hconsumer : s.consumer = .writing chunk)
      (hfail : outcome = .fail n) :
      ConsumerMoves args outcome s { s with
        sent := s.sent ++ chunk.wirePayload.take n
        consumer := .aborting "failed writing stream payload"
        freed := s.freed ++ [chunk.recycleBuffer] }
  | recycles {buffer : Buffer} (hconsumer : s.consumer = .recycling buffer)
      (hrunning : s.reader.isFinished = false)
      (hroom : s.pool.length < args.fileReadPipelineDepth) :
      ConsumerMoves args outcome s { s with
        consumer := .receiving, pool := s.pool ++ [buffer] }
  | drops {buffer : Buffer} (hconsumer : s.consumer = .recycling buffer)
      (hended : s.reader.isFinished = true) :
      ConsumerMoves args outcome s { s with
        consumer := .receiving, freed := s.freed ++ [buffer] }
  | passes (hconsumer : s.consumer = .receiving) (hall : s.remaining = 0)
      (hstreamed : s.bytesStreamed = args.totalBytes) :
      ConsumerMoves args outcome s { s with consumer := .joinReader }
  | givesUp (err : String) (hconsumer : s.consumer = .receiving)
      (hwhy : (0 < s.remaining ∧ s.encryptQueue = [] ∧ s.encrypt.isFinished = true) ∨
        s.remaining = 0 ∧ s.bytesStreamed ≠ args.totalBytes) :
      ConsumerMoves args outcome s { s with consumer := .aborting err }
  | joins (hconsumer : s.consumer = .joinReader) (hended : s.reader = .finished (.ok ())) :
      ConsumerMoves args outcome s { s with consumer := .joinEncrypt }
  | returns (hconsumer : s.consumer = .joinEncrypt) (hended : s.encrypt = .finished (.ok ())) :
      ConsumerMoves args outcome s (s.returnWith (.ok s.bytesStreamed))
  | fails {err : String} (hwhy : s.consumer = .joinReader ∧ s.reader = .finished (.error err) ∨
        s.consumer = .joinEncrypt ∧ s.encrypt = .finished (.error err)) :
      ConsumerMoves args outcome s (s.returnWith (.error err))
  | aborts {err : String} (hconsumer : s.consumer = .aborting err) :
      ConsumerMoves args outcome s (s.abortReader.abortEncrypt.returnWith (.error err))

variable {s s' : SendPipeline} {outcome : Outcome}

theorem readerMoves_of_step (h : readerStep args outcome s = some s') :
    ReaderMoves args outcome s s' := by
  unfold readerStep at h
  cases hreader : s.reader with
  | opening =>
    have hrunning : s.reader.isFinished = false := by rw [hreader]; rfl
    simp only [hreader] at h
    split at h <;> cases h
    · exact .opens hreader
    · exact .ends (.call _ hrunning rfl)
    · exact .ends (.call _ hrunning rfl)
  | looping =>
    simp only [hreader] at h
    split at h
    · rename_i hmore
      split at h
      · rename_i hpool
        cases h
        exact .takes hreader hmore hpool
      · split at h
        · rename_i hreturned
          cases h
          exact .ends (.noPool _ hreader hmore hreturned)
        · cases h
    · rename_i hall
      cases h
      exact .ends (.done hreader (Nat.eq_zero_of_not_pos hall))
  | reading buffer =>
    have hrunning : s.reader.isFinished = false := by rw [hreader]; rfl
    simp only [hreader] at h
    split at h
    · split at h
      · rename_i hnone
        cases h
        exact .ends (.eof _ hreader hnone)
      · split at h
        · rename_i hn
          cases h
          exact .reads hreader hn.1 hn.2
        · cases h
    · cases h
      exact .ends (.call _ hrunning rfl)
  | sending chunk =>
    simp only [hreader] at h
    split at h
    · rename_i hended
      cases h
      exact .ends (.noChannel _ hreader hended)
    · rename_i hopen
      split at h
      · rename_i hroom
        cases h
        exact .sends hreader (Bool.eq_false_of_not_eq_true hopen) hroom
      · cases h
  | finished result => simp [hreader] at h

theorem encryptMoves_of_step (h : encryptStep crypto args s = some s') :
    EncryptMoves crypto args s s' := by
  unfold encryptStep at h
  cases hencrypt : s.encrypt with
  | receiving =>
    simp only [hencrypt] at h
    split at h
    · rename_i hqueue
      split at h
      · rename_i hframe
        cases h
        exact .noFrame hencrypt hqueue hframe
      · rename_i hframe
        cases h
        exact .takes hencrypt hqueue hframe
    · rename_i hqueue
      split at h
      · rename_i hended
        cases h
        exact .done hencrypt hqueue hended
      · cases h
  | sending chunk =>
    simp only [hencrypt] at h
    split at h
    · rename_i hreturned
      cases h
      exact .noChannel _ hencrypt hreturned
    · split at h
      · rename_i hroom
        cases h
        exact .sends hencrypt hroom
      · cases h
  | finished result => simp [hencrypt] at h

theorem consumerMoves_of_step (h : consumerStep args outcome s = some s') :
    ConsumerMoves args outcome s s' := by
  unfold consumerStep at h
  cases hconsumer : s.consumer with
  | receiving =>
    simp only [hconsumer] at h
    split at h
    · rename_i hmore
      split at h
      · rename_i hqueue
        cases h
        exact .takes hconsumer hqueue
      · rename_i hqueue
        split at h
        · rename_i hended
          cases h
          exact .givesUp _ hconsumer (.inl ⟨hmore, hqueue, hended⟩)
        · cases h
    · rename_i hall
      have hall := Nat.eq_zero_of_not_pos hall
      split at h
      · rename_i hne
        cases h
        exact .givesUp _ hconsumer (.inr ⟨hall, hne⟩)
      · rename_i hstreamed
        cases h
        exact .passes hconsumer hall (not_not.1 hstreamed)
  | writing chunk =>
    simp only [hconsumer] at h
    split at h <;> cases h
    · exact .writes hconsumer
    · exact .breaks hconsumer rfl
  | recycling buffer =>
    simp only [hconsumer] at h
    split at h
    · rename_i hended
      cases h
      exact .drops hconsumer hended
    · rename_i hrunning
      split at h
      · rename_i hroom
        cases h
        exact .recycles hconsumer (Bool.eq_false_of_not_eq_true hrunning) hroom
      · cases h
  | joinReader =>
    simp only [hconsumer] at h
    split at h <;> cases h
    · rename_i hended
      exact .joins hconsumer hended
    · rename_i err hended
      exact .fails (.inl ⟨hconsumer, hended⟩)
  | joinEncrypt =>
    simp only [hconsumer] at h
    split at h <;> cases h
    · rename_i hended
      exact .returns hconsumer hended
    · rename_i err hended
      exact .fails (.inr ⟨hconsumer, hended⟩)
  | aborting err =>
    simp only [hconsumer] at h
    cases h
    exact .aborts hconsumer
  | returned result => simp [hconsumer] at h

end

/-! ## Every schedule ends -/

/-- How much the reader still has to do, of which it is not yet in the channel. -/
def Reader.work (toRead : Nat) : Reader → Nat
  | .opening => 10 * toRead + 4
  | .looping => 10 * toRead + 3
  | .reading _ => 10 * toRead + 2
  | .sending chunk => 10 * (toRead - chunk.bytesRead) + 10
  | .finished _ => 0

/-- How many steps the encrypt task has before it at most, for the chunk in hand. -/
def Encrypt.work : Encrypt → Nat
  | .receiving => 1
  | .sending _ => 6
  | .finished _ => 0

/-- How many steps the consumer has before it at most, for the chunk in hand. -/
def Consumer.work : Consumer → Nat
  | .receiving => 4
  | .writing _ => 7
  | .recycling _ => 6
  | .joinReader => 3
  | .joinEncrypt => 2
  | .aborting _ => 1
  | .returned _ => 0

/-- How much there is to do: bytes to read, chunks to make frames of, frames to write. -/
def work (s : SendPipeline) : Nat :=
  s.reader.work s.toRead + 6 * s.readQueue.length + s.encrypt.work + 4 * s.encryptQueue.length +
    s.consumer.work

variable {crypto args} {s s' : SendPipeline} {outcome : Outcome}

theorem work_endReader_lt (result : Except String Unit) (h : s.reader.isFinished = false) :
    (s.endReader result).work < s.work := by
  cases hreader : s.reader <;> simp only [work, endReader, hreader, Reader.work]
  all_goals first | omega | simp [hreader, Reader.isFinished] at h

theorem work_endEncrypt_lt (result : Except String Unit) (taken : List Buffer)
    (h : s.encrypt.isFinished = false) : (s.endEncrypt result taken).work < s.work := by
  cases hencrypt : s.encrypt <;>
    simp only [work, endEncrypt, hencrypt, Encrypt.work, List.length_nil]
  all_goals first | omega | simp [hencrypt, Encrypt.isFinished] at h

theorem ReaderEnds.running {result : Except String Unit}
    (h : ReaderEnds args outcome s result) : s.reader.isFinished = false := by
  cases h with
  | done hreader => rw [hreader]; rfl
  | call err hrunning => exact hrunning
  | eof err hreader => rw [hreader]; rfl
  | noPool err hreader => rw [hreader]; rfl
  | noChannel err hreader => rw [hreader]; rfl

theorem ReaderMoves.work_lt (h : ReaderMoves args outcome s s') : s'.work < s.work := by
  cases h with
  | opens hreader =>
    simp only [work, hreader, Reader.work]
    omega
  | takes hreader =>
    simp only [work, hreader, Reader.work]
    omega
  | @reads buffer n hreader hpos hle =>
    have hle : n ≤ s.toRead := by
      simp only [available] at hle
      omega
    simp only [work, hreader, Reader.work]
    omega
  | sends hreader =>
    simp only [work, hreader, Reader.work, List.length_append, List.length_singleton]
    omega
  | ends hwhy => exact work_endReader_lt _ hwhy.running

theorem EncryptMoves.work_lt (h : EncryptMoves crypto args s s') : s'.work < s.work := by
  cases h with
  | takes hencrypt hqueue =>
    simp only [work, hencrypt, hqueue, Encrypt.work, List.length_cons]
    omega
  | sends hencrypt =>
    simp only [work, hencrypt, Encrypt.work, List.length_append, List.length_singleton]
    omega
  | done hencrypt => exact work_endEncrypt_lt _ _ (by rw [hencrypt]; rfl)
  | noFrame hencrypt hqueue =>
    simp only [work, endEncrypt, hencrypt, hqueue, Encrypt.work, List.length_cons, List.length_nil]
    omega
  | noChannel err hencrypt => exact work_endEncrypt_lt _ _ (by rw [hencrypt]; rfl)

theorem work_abortReader_le : s.abortReader.work ≤ s.work := by
  unfold abortReader
  cases hreader : s.reader.isFinished with
  | true => exact le_rfl
  | false => exact (work_endReader_lt _ hreader).le

theorem work_abortEncrypt_le : s.abortEncrypt.work ≤ s.work := by
  unfold abortEncrypt
  cases hencrypt : s.encrypt.isFinished with
  | true => exact le_rfl
  | false => exact (work_endEncrypt_lt _ _ hencrypt).le

@[simp] theorem consumer_abortReader : s.abortReader.consumer = s.consumer := by
  unfold abortReader
  split <;> rfl

@[simp] theorem consumer_abortEncrypt : s.abortEncrypt.consumer = s.consumer := by
  unfold abortEncrypt
  split <;> rfl

theorem work_returnWith_lt (result : Except String Nat) (h : 0 < s.consumer.work) :
    (s.returnWith result).work < s.work := by
  have hdone : (Consumer.returned result).work = 0 := rfl
  simp only [work, returnWith, hdone, List.length_nil]
  omega

theorem ConsumerMoves.work_lt (h : ConsumerMoves args outcome s s') : s'.work < s.work := by
  cases h with
  | takes hconsumer hqueue =>
    simp only [work, hconsumer, hqueue, Consumer.work, List.length_cons]
    omega
  | writes hconsumer =>
    simp only [work, hconsumer, Consumer.work]
    omega
  | breaks hconsumer =>
    simp only [work, hconsumer, Consumer.work]
    omega
  | recycles hconsumer =>
    simp only [work, hconsumer, Consumer.work]
    omega
  | drops hconsumer =>
    simp only [work, hconsumer, Consumer.work]
    omega
  | passes hconsumer =>
    simp only [work, hconsumer, Consumer.work]
    omega
  | givesUp err hconsumer =>
    simp only [work, hconsumer, Consumer.work]
    omega
  | joins hconsumer =>
    simp only [work, hconsumer, Consumer.work]
    omega
  | returns hconsumer => exact work_returnWith_lt _ (by rw [hconsumer]; decide)
  | fails hwhy =>
    refine work_returnWith_lt _ ?_
    rcases hwhy with ⟨hconsumer, -⟩ | ⟨hconsumer, -⟩
    · rw [hconsumer]; decide
    · rw [hconsumer]; decide
  | aborts hconsumer =>
    refine (work_returnWith_lt _ ?_).trans_le (work_abortEncrypt_le.trans work_abortReader_le)
    rw [consumer_abortEncrypt, consumer_abortReader, hconsumer]
    exact Nat.one_pos

/-- No schedule goes on forever. -/
theorem wellFounded_next : WellFounded fun s' s => Next crypto args s s' := by
  refine Subrelation.wf ?_ (measure work).wf
  rintro s' s ⟨stage, outcome, h⟩
  cases stage with
  | reader => exact (readerMoves_of_step h).work_lt
  | encrypt => exact (encryptMoves_of_step h).work_lt
  | consumer => exact (consumerMoves_of_step h).work_lt

/-! ## Every buffer is in one place -/

/-- The buffers, by the place where they are. -/
def places (s : SendPipeline) : Multiset Buffer :=
  ↑s.pool + ↑s.reader.buffers + ↑(s.readQueue.map SendReadChunk.buffer) +
    ↑(s.encrypt.chunks.map SendWireChunk.recycleBuffer) +
    ↑(s.encryptQueue.map SendWireChunk.recycleBuffer) +
    ↑(s.consumer.chunks.map SendWireChunk.recycleBuffer) + ↑s.consumer.recycled + ↑s.freed

/-- Which buffer it is, and how long. -/
def Buffer.label (buffer : Buffer) : Nat × Nat := (buffer.id, buffer.bytes.length)

/-- The buffers in all places together are those of the pool, each once. -/
def Placed (args : SendLaneArgs) (s : SendPipeline) : Prop :=
  s.places.map Buffer.label =
    (Multiset.range args.fileReadPipelineDepth).map fun id => (id, args.ioChunkBytes)

theorem placed_start : Placed args (start args) := by
  simp only [Placed, places, start, Reader.buffers, Encrypt.chunks, Consumer.chunks,
    Consumer.recycled, List.map_nil, Multiset.coe_nil, add_zero]
  rw [Multiset.range, Multiset.map_coe, Multiset.map_coe, List.map_map]
  refine congrArg _ (List.map_congr_left fun id _ => ?_)
  simp [Buffer.label]

theorem places_endReader (result : Except String Unit) :
    (s.endReader result).places = s.places := by
  simp only [places, endReader, Reader.buffers, Multiset.coe_nil, ← Multiset.coe_add]
  abel

theorem places_endEncrypt (result : Except String Unit) {taken : List Buffer}
    (h : taken = s.encrypt.chunks.map SendWireChunk.recycleBuffer) :
    (s.endEncrypt result taken).places = s.places := by
  simp only [places, endEncrypt, h, Encrypt.chunks, List.map_nil, Multiset.coe_nil,
    ← Multiset.coe_add]
  abel

theorem ReaderMoves.placed (h : ReaderMoves args outcome s s') (hplaced : Placed args s) :
    Placed args s' := by
  unfold Placed at hplaced ⊢
  rw [← hplaced]
  cases h with
  | opens hreader => simp only [places, hreader, Reader.buffers]
  | takes hreader _ hpool =>
    simp only [places, hreader, hpool, Reader.buffers, ← Multiset.singleton_add,
      ← Multiset.cons_coe, Multiset.coe_nil]
    refine congrArg _ ?_
    abel
  | @reads buffer n hreader hpos hle =>
    -- the buffer is as long as it was
    have hlabel : Buffer.label ⟨buffer.id, Bytes.slice args.file s.cursor (s.cursor + n) ++
        buffer.bytes.drop n⟩ = buffer.label := by
      simp only [available] at hle
      simp only [Buffer.label, List.length_append, List.length_drop, Prod.mk.injEq, true_and]
      rw [Bytes.length_slice (by omega)]
      omega
    simp only [places, hreader, Reader.buffers, Multiset.map_add, Multiset.map_coe, List.map_cons,
      List.map_nil, hlabel]
  | sends hreader =>
    simp only [places, hreader, Reader.buffers, List.map_append, List.map_cons, List.map_nil,
      ← Multiset.coe_add, Multiset.coe_nil]
    refine congrArg _ ?_
    abel
  | ends => rw [places_endReader]

theorem EncryptMoves.placed (h : EncryptMoves crypto args s s') (hplaced : Placed args s) :
    Placed args s' := by
  unfold Placed at hplaced ⊢
  rw [← hplaced]
  refine congrArg _ ?_
  cases h with
  | takes hencrypt hqueue =>
    simp only [places, hencrypt, hqueue, Encrypt.chunks, List.map_cons, List.map_nil,
      ← Multiset.singleton_add, ← Multiset.cons_coe, Multiset.coe_nil]
    abel
  | sends hencrypt =>
    simp only [places, hencrypt, Encrypt.chunks, List.map_append, List.map_cons, List.map_nil,
      ← Multiset.coe_add, Multiset.coe_nil]
    abel
  | done hencrypt => exact places_endEncrypt _ (by rw [hencrypt]; rfl)
  | noFrame hencrypt hqueue =>
    simp only [places, endEncrypt, hencrypt, hqueue, Encrypt.chunks, List.map_cons, List.map_nil,
      ← Multiset.coe_add, ← Multiset.singleton_add, ← Multiset.cons_coe, Multiset.coe_nil]
    abel
  | noChannel err hencrypt => exact places_endEncrypt _ (by rw [hencrypt]; rfl)

theorem places_abortReader : s.abortReader.places = s.places := by
  unfold abortReader
  split
  · rfl
  · exact places_endReader _

theorem places_abortEncrypt : s.abortEncrypt.places = s.places := by
  unfold abortEncrypt
  split
  · rfl
  · exact places_endEncrypt _ rfl

theorem places_returnWith (result : Except String Nat)
    (h : s.consumer.chunks = [] ∧ s.consumer.recycled = []) :
    (s.returnWith result).places = s.places := by
  have hchunks : (Consumer.returned result).chunks = [] := rfl
  have hrecycled : (Consumer.returned result).recycled = [] := rfl
  simp only [places, returnWith, h.1, h.2, hchunks, hrecycled, List.map_nil, Multiset.coe_nil,
    ← Multiset.coe_add]
  abel

theorem ConsumerMoves.placed (h : ConsumerMoves args outcome s s') (hplaced : Placed args s) :
    Placed args s' := by
  unfold Placed at hplaced ⊢
  rw [← hplaced]
  refine congrArg _ ?_
  cases h with
  | takes hconsumer hqueue =>
    simp only [places, hconsumer, hqueue, Consumer.chunks, Consumer.recycled, List.map_cons,
      List.map_nil, ← Multiset.singleton_add, ← Multiset.cons_coe, Multiset.coe_nil]
    abel
  | writes hconsumer =>
    simp only [places, hconsumer, Consumer.chunks, Consumer.recycled, List.map_cons, List.map_nil,
      Multiset.coe_nil]
    abel
  | breaks hconsumer =>
    simp only [places, hconsumer, Consumer.chunks, Consumer.recycled, List.map_cons, List.map_nil,
      Multiset.coe_nil, ← Multiset.coe_add]
    abel
  | recycles hconsumer =>
    simp only [places, hconsumer, Consumer.chunks, Consumer.recycled, List.map_nil,
      Multiset.coe_nil, ← Multiset.coe_add]
    abel
  | drops hconsumer =>
    simp only [places, hconsumer, Consumer.chunks, Consumer.recycled, List.map_nil,
      Multiset.coe_nil, ← Multiset.coe_add]
    abel
  | passes hconsumer => simp only [places, hconsumer, Consumer.chunks, Consumer.recycled]
  | givesUp err hconsumer => simp only [places, hconsumer, Consumer.chunks, Consumer.recycled]
  | joins hconsumer => simp only [places, hconsumer, Consumer.chunks, Consumer.recycled]
  | returns hconsumer => exact places_returnWith _ (by rw [hconsumer]; exact ⟨rfl, rfl⟩)
  | fails hwhy =>
    refine places_returnWith _ ?_
    rcases hwhy with ⟨hconsumer, -⟩ | ⟨hconsumer, -⟩
    · rw [hconsumer]; exact ⟨rfl, rfl⟩
    · rw [hconsumer]; exact ⟨rfl, rfl⟩
  | aborts hconsumer =>
    rw [places_returnWith, places_abortEncrypt, places_abortReader]
    rw [consumer_abortEncrypt, consumer_abortReader, hconsumer]
    exact ⟨rfl, rfl⟩

theorem Next.placed (h : Next crypto args s s') (hplaced : Placed args s) : Placed args s' := by
  obtain ⟨stage, outcome, h⟩ := h
  cases stage with
  | reader => exact (readerMoves_of_step h).placed hplaced
  | encrypt => exact (encryptMoves_of_step h).placed hplaced
  | consumer => exact (consumerMoves_of_step h).placed hplaced

/-- **Every buffer of the pool is in exactly one place**, in every state that is reached. -/
theorem placed_of_reaches (h : Reaches crypto args (start args) s) : Placed args s := by
  induction h with
  | refl => exact placed_start
  | tail _ hnext ih => exact hnext.placed ih

end SendPipeline

end Metra.Client
