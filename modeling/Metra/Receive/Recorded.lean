import Metra.Receive.Recorder
import Metra.Receive.Upload

/-!
# What a lane's writer records

* `Received` — no more is written than was received, and no more is received than expected;
* `Recorded` — the lane's entry in the checkpoint is a rounded offset that was reported;
* `recorded_progress` — as long as the writer reports only while none of its writes has failed,
  **an offset is reported only once the data before it is synced**, the offsets increase, and the
  last one is where the writer ended; so the lane's offset in the checkpoint is never ahead of what
  is synced, and less than 1 MiB behind;
* `reported_unwritten` — a write whose failure is told only later is reported before.
-/

namespace Metra

namespace Recorder

variable {crypto : AeadCrypto} {args : RecorderArgs} {s s' : Recorder}

/-! ## What has been received -/

/-- The reader's side of a run. -/
structure Received (args : RecorderArgs) (s : Recorder) : Prop where
  passed : s.pipeline.writer.bytesWritten + s.pipeline.writerQueue.flatten.length +
    s.pipeline.decrypt.pending.flatten.length + declaredBytes s.pipeline.decryptQueue ≤
      s.pipeline.bytesReceived
  bound : s.pipeline.bytesReceived + declaredBytes s.pipeline.reader.pending ≤ args.expectedBytes
  joining : s.pipeline.reader = .joinWriter → s.pipeline.decrypt = .finished (.ok ())
  ended : ∀ r, s.pipeline.reader = .returned r → s.pipeline.decrypt.isFinished = true ∧
    (s.pipeline.decrypt = .finished (.ok ()) → ∃ result, s.phase = .finished result)
  complete : ∀ n, s.pipeline.reader = .returned (.ok n) →
    n = args.expectedBytes ∧ s.phase = .finished (.ok n)

theorem received_start (recvStream file : List UInt8) (checkpoint : TransferCheckpoint) :
    Received args (start args recvStream file checkpoint) where
  passed := le_rfl
  bound := Nat.zero_le _
  joining h := by cases h
  ended r h := by cases h
  complete n h := by cases h

/-- The pipeline's reader hands on what fits. -/
theorem Received.readerStep (h : Received args s) (hwritten : Written args s)
    (hstep : Recorder.readerStep args s = some s') : Received args s' := by
  have hpassed := h.passed
  have hbound := h.bound
  unfold Recorder.readerStep at hstep
  cases hreader : s.pipeline.reader with
  | reading =>
    simp only [hreader, Pipeline.Reader.pending, declaredBytes_nil] at hstep hbound
    obtain ⟨p, hp, rfl⟩ := Option.map_eq_some_iff.1 hstep
    simp only [Pipeline.readerStep, hreader] at hp
    split at hp
    · rename_i hmore
      split at hp
      · cases hp
        exact ⟨hpassed, hbound, by simp, by simp, by simp⟩
      · rename_i frame rest hread
        split at hp
        · cases hp
          exact ⟨hpassed, hbound, by simp, by simp, by simp⟩
        · rename_i hfits
          cases hp
          refine ⟨hpassed, ?_, by simp, by simp, by simp⟩
          simp only [Pipeline.Reader.pending, declaredBytes_cons, declaredBytes_nil]
          omega
    · cases hp
      exact ⟨hpassed, hbound, by simp, by simp, by simp⟩
  | sending frame =>
    simp only [hreader, Pipeline.Reader.pending, declaredBytes_cons, declaredBytes_nil]
      at hstep hbound
    obtain ⟨p, hp, rfl⟩ := Option.map_eq_some_iff.1 hstep
    simp only [Pipeline.readerStep, hreader] at hp
    split at hp
    · cases hp
      refine ⟨hpassed, ?_, by simp, by simp, by simp⟩
      simp only [Pipeline.Reader.pending, declaredBytes_nil]
      omega
    · split at hp
      · cases hp
        refine ⟨?_, ?_, by simp, by simp, by simp⟩
        · simp only [declaredBytes_append, declaredBytes_cons, declaredBytes_nil]
          omega
        · simp only [Pipeline.Reader.pending, declaredBytes_nil]
          omega
      · cases hp
  | joinDecrypt =>
    simp only [hreader] at hstep
    obtain ⟨p, hp, rfl⟩ := Option.map_eq_some_iff.1 hstep
    simp only [Pipeline.readerStep, hreader] at hp
    split at hp
    · rename_i err hended
      cases hp
      refine ⟨hpassed, ?_, by simp, ?_, by simp⟩
      · simpa [hreader, Pipeline.Reader.pending] using hbound
      · intro r _
        simp [hended, Pipeline.Decrypt.isFinished]
    · rename_i hended
      cases hp
      refine ⟨hpassed, ?_, fun _ => hended, by simp, by simp⟩
      simpa [hreader, Pipeline.Reader.pending] using hbound
    · cases hp
  | joinWriter =>
    have hended := h.joining hreader
    have hpending : declaredBytes s.pipeline.reader.pending = 0 := by
      rw [hreader]
      rfl
    rw [hpending] at hbound
    cases hphase : s.phase with
    | finished result =>
      cases result with
      | error err =>
        simp only [hreader, hphase] at hstep
        cases hstep
        refine ⟨hpassed, hbound, by simp, ?_, by simp⟩
        intro r _
        exact ⟨by simp [hended, Pipeline.Decrypt.isFinished], fun _ => ⟨_, rfl⟩⟩
      | ok m =>
        simp only [hreader, hphase] at hstep
        obtain ⟨p, hp, rfl⟩ := Option.map_eq_some_iff.1 hstep
        simp only [Pipeline.readerStep, hreader] at hp
        obtain ⟨n, hn, rfl⟩ := Option.map_eq_some_iff.1 hp
        refine ⟨hpassed, hbound, by simp, ?_, ?_⟩
        · intro r _
          exact ⟨by simp [hended, Pipeline.Decrypt.isFinished], fun _ => ⟨_, rfl⟩⟩
        · -- the writer has ended with as many bytes as were received
          intro k hk
          simp only [Pipeline.Reader.returned.injEq] at hk
          obtain ⟨-, -, hall, hkn⟩ := Pipeline.of_result hk
          have hsound := hwritten.phase (hwritten.ended _ hphase)
          rw [hphase] at hsound
          obtain ⟨rfl, -⟩ := hsound
          rcases hwritten.closed with hnone | ⟨hsome, -⟩
          · rw [hnone] at hn
            cases hn
          · rw [hsome] at hn
            cases hn
            exact ⟨hkn.trans hall, by rw [hkn]⟩
    | _ =>
      -- the writer has not ended
      have hopen := hwritten.open (by simp [hphase])
      simp [hreader, hphase, Pipeline.readerStep, hopen] at hstep
  | returned r =>
    simp [hreader, Pipeline.readerStep] at hstep

/-- The decrypt task opens a frame to as many bytes as it declares. -/
theorem Received.decryptStep (h : Received args s)
    (hstep : Recorder.decryptStep crypto args s = some s') : Received args s' := by
  have hpassed := h.passed
  obtain ⟨p, hp, rfl⟩ := Option.map_eq_some_iff.1 hstep
  have hrunning : s.pipeline.decrypt.isFinished = false := by
    cases hdecrypt : s.pipeline.decrypt with
    | finished r => simp [Pipeline.decryptStep, hdecrypt] at hp
    | receiving => rfl
    | sending plaintext => rfl
  -- so the reader has not joined it
  have hjoining : s.pipeline.reader ≠ .joinWriter := by
    intro hreader
    rw [h.joining hreader] at hrunning
    cases hrunning
  have hreturned : ∀ r, s.pipeline.reader ≠ .returned r := by
    intro r hreader
    rw [(h.ended r hreader).1] at hrunning
    cases hrunning
  have hkeeps : ∀ q : Pipeline, q.reader = s.pipeline.reader →
      q.bytesReceived = s.pipeline.bytesReceived →
      q.writer.bytesWritten + q.writerQueue.flatten.length + q.decrypt.pending.flatten.length +
        declaredBytes q.decryptQueue ≤ q.bytesReceived →
      Received args { s with pipeline := q } := by
    intro q hreader hreceived hq
    refine ⟨hq, ?_, ?_, ?_, ?_⟩
    · show q.bytesReceived + declaredBytes q.reader.pending ≤ args.expectedBytes
      rw [hreader, hreceived]
      exact h.bound
    · intro hr
      exact absurd (hreader.symm.trans hr) hjoining
    · intro r hr
      exact absurd (hreader.symm.trans hr) (hreturned r)
    · intro n hr
      exact absurd (hreader.symm.trans hr) (hreturned _)
  unfold Pipeline.decryptStep at hp
  cases hdecrypt : s.pipeline.decrypt with
  | receiving =>
    simp only [hdecrypt, Pipeline.Decrypt.pending, List.flatten_nil, List.length_nil] at hp hpassed
    split at hp
    · rename_i frame queue hqueue
      rw [hqueue, declaredBytes_cons] at hpassed
      split at hp
      · cases hp
        refine hkeeps _ rfl rfl ?_
        simp only [Pipeline.Decrypt.pending, List.flatten_nil, List.length_nil]
        omega
      · rename_i plaintext hopens
        cases hp
        refine hkeeps _ rfl rfl ?_
        have hlen := WireFrame.length_decode hopens
        simp only [Pipeline.Decrypt.pending, List.flatten_cons, List.flatten_nil,
          List.append_nil]
        omega
    · split at hp
      · cases hp
      · cases hp
        refine hkeeps _ rfl rfl ?_
        simpa [Pipeline.Decrypt.pending] using hpassed
  | sending plaintext =>
    simp only [hdecrypt, Pipeline.Decrypt.pending, List.flatten_cons, List.flatten_nil,
      List.append_nil] at hp hpassed
    split at hp
    · cases hp
      refine hkeeps _ rfl rfl ?_
      simp only [Pipeline.Decrypt.pending, List.flatten_nil, List.length_nil]
      omega
    · split at hp
      · cases hp
        refine hkeeps _ rfl rfl ?_
        simp only [Pipeline.Decrypt.pending, List.flatten_append, List.flatten_cons,
          List.flatten_nil, List.append_nil, List.length_append, List.length_nil]
        omega
      · cases hp
  | finished r =>
    simp [hdecrypt] at hp

theorem Received.writerStep (h : Received args s) {outcome : DiskOutcome}
    (hstep : Recorder.writerStep args outcome s = some s') : Received args s' := by
  obtain ⟨hrunning, hreader, hdecrypt, hqueue, hreceived, hle⟩ := of_writerStep hstep
  have hpassed := h.passed
  refine ⟨?_, ?_, ?_, ?_, ?_⟩
  · rw [hdecrypt, hqueue, hreceived]
    omega
  · rw [hreader, hreceived]
    exact h.bound
  · rw [hreader, hdecrypt]
    exact h.joining
  · rw [hreader, hdecrypt]
    intro r hr
    refine ⟨(h.ended r hr).1, ?_⟩
    intro hok
    obtain ⟨result, hresult⟩ := (h.ended r hr).2 hok
    exact absurd hresult (hrunning result)
  · rw [hreader]
    intro n hn
    exact absurd (h.complete n hn).2 (hrunning _)

/-! ## What is recorded in the checkpoint -/

/-- The lane was opened from the checkpoint: it resumes at the offset that is stored, and what
is expected is the rest of its range. -/
structure Opened (args : RecorderArgs) (rangeStart rangeEndExclusive : Nat)
    (checkpoint : TransferCheckpoint) : Prop where
  range : rangeStart ≤ rangeEndExclusive
  stored : ∃ (found : TransferCheckpoint) (lane : LaneCheckpoint),
    found.lane? args.laneIndex = some lane ∧ lane.rangeStart = rangeStart ∧
    lane.rangeEndExclusive = rangeEndExclusive ∧
    found.roundLane args.laneIndex = some (args.resumeOffset, checkpoint)
  expectedBytes : args.expectedBytes = rangeEndExclusive - args.resumeOffset

/-- The lane's offset in the checkpoint is a rounded offset that was reported, and the last one
unless the writer has given up. -/
def Recorded (args : RecorderArgs) (rangeStart rangeEndExclusive : Nat) (s : Recorder) : Prop :=
  ∃ (lane : LaneCheckpoint) (recorded : Nat), s.checkpoint.lane? args.laneIndex = some lane ∧
    lane.rangeStart = rangeStart ∧ lane.rangeEndExclusive = rangeEndExclusive ∧
    lane.offset = durableResumeOffset recorded rangeStart rangeEndExclusive ∧
    args.resumeOffset ≤ recorded ∧ recorded ≤ s.reported args ∧
    ((∀ err, s.phase ≠ .finished (.error err)) → recorded = s.reported args)

variable {a b : Nat}

/-- The lane that was opened has the resume offset, which is a rounded one. -/
theorem Opened.lane {c : TransferCheckpoint} (h : Opened args a b c) :
    ∃ lane : LaneCheckpoint, c.lane? args.laneIndex = some lane ∧ lane.rangeStart = a ∧
      lane.rangeEndExclusive = b ∧ lane.offset = args.resumeOffset ∧
      durableResumeOffset args.resumeOffset a b = args.resumeOffset := by
  obtain ⟨found, lane, hlane, rfl, rfl, hround⟩ := h.stored
  have hindex := TransferCheckpoint.laneIndex_of_lane? hlane
  rw [TransferCheckpoint.roundLane, hlane] at hround
  simp only [Option.map_some, Option.some.injEq, Prod.mk.injEq] at hround
  obtain ⟨hresume, rfl⟩ := hround
  rw [← hindex] at hlane ⊢
  refine ⟨{ lane with offset := durableResumeOffset lane.offset _ _ },
    TransferCheckpoint.lane?_putLane hlane, rfl, rfl, hresume, ?_⟩
  rw [← hresume]
  exact durableResumeOffset_idem h.range

/-- The resume offset lies in the range. -/
theorem Opened.resume_mem {c : TransferCheckpoint} (h : Opened args a b c) :
    a ≤ args.resumeOffset ∧ args.resumeOffset ≤ b := by
  obtain ⟨-, -, -, -, -, hdurable⟩ := h.lane
  rw [← hdurable]
  exact durableResumeOffset_mem h.range

theorem recorded_start (recvStream file : List UInt8) {c : TransferCheckpoint}
    (h : Opened args a b c) : Recorded args a b (start args recvStream file c) := by
  obtain ⟨lane, hlane, hstart, hend, hoffset, hdurable⟩ := h.lane
  exact ⟨lane, args.resumeOffset, hlane, hstart, hend, hoffset.trans hdurable.symm, le_rfl, le_rfl,
    fun _ => rfl⟩

/-- The lane's entry after it was advanced. -/
theorem lane?_of_advanceLane {c c' : TransferCheckpoint} {i newOffset : Nat}
    {lane : LaneCheckpoint} (hlane : c.lane? i = some lane)
    (h : c.advanceLane i newOffset = some c') :
    c'.lane? i = some { lane with
      offset := max lane.offset
        (durableResumeOffset newOffset lane.rangeStart lane.rangeEndExclusive) } := by
  obtain ⟨old, hold, rfl⟩ := Option.map_eq_some_iff.1 h
  obtain rfl := Option.some.inj (hold.symm.trans hlane)
  have hindex := TransferCheckpoint.laneIndex_of_lane? hlane
  subst hindex
  exact TransferCheckpoint.lane?_putLane hlane

/-- Steps that neither report nor touch the lane's entry. -/
theorem Recorded.congr (h : Recorded args a b s)
    (hlane : s'.checkpoint.lane? args.laneIndex = s.checkpoint.lane? args.laneIndex)
    (hprogress : s'.pipeline.progress = s.pipeline.progress)
    (hphase : (∃ err, s.phase = .finished (.error err)) →
      ∃ err, s'.phase = .finished (.error err)) :
    Recorded args a b s' := by
  obtain ⟨lane, recorded, hfound, hstart, hend, hoffset, hle, hbehind, hlast⟩ := h
  have hreported : s'.reported args = s.reported args := by rw [reported, reported, hprogress]
  refine ⟨lane, recorded, hlane.trans hfound, hstart, hend, hoffset, hle,
    hbehind.trans_eq hreported.symm, ?_⟩
  intro hrunning
  refine (hlast ?_).trans hreported.symm
  intro err herr
  obtain ⟨err', herr'⟩ := hphase ⟨err, herr⟩
  exact hrunning err' herr'

theorem Recorded.persist (h : Recorded args a b s) (hstriped : args.striped = true) (hab : a ≤ b)
    (hwritten : Written args s) {last : Bool} (hphase : s.phase = .persisting last)
    (hfine : s.writeFailed = false) (outcome : DiskOutcome) :
    Recorded args a b (s.persist args outcome last) := by
  obtain ⟨lane, recorded, hfound, rfl, rfl, hoffset, hle, hbehind, hlast⟩ := h
  obtain rfl := hlast (by simp [hphase])
  have hpersisting := hwritten.phase hfine
  rw [hphase] at hpersisting
  obtain ⟨hsynced, hreported⟩ := hpersisting
  have hforward : s.reported args ≤ s.offset args := by
    rw [offset]
    omega
  have hnow : (s.pipeline.progress ++ [s.offset args]).getLastD args.resumeOffset =
      s.offset args := List.getLastD_concat
  obtain ⟨next, hnext⟩ : ∃ next, s.checkpoint.advanceLane args.laneIndex (s.offset args) =
      some next := by
    rw [TransferCheckpoint.advanceLane, hfound]
    exact ⟨_, rfl⟩
  have hadvanced := lane?_of_advanceLane hfound hnext
  -- the entry becomes the rounded offset that is reported now
  have hmax : max lane.offset
      (durableResumeOffset (s.offset args) lane.rangeStart lane.rangeEndExclusive) =
      durableResumeOffset (s.offset args) lane.rangeStart lane.rangeEndExclusive := by
    rw [hoffset]
    exact max_eq_right (durableResumeOffset_mono hab hforward)
  have hmade : ∀ s' : Recorder, s'.checkpoint = next →
      s'.pipeline.progress = s.pipeline.progress ++ [s.offset args] →
      Recorded args lane.rangeStart lane.rangeEndExclusive s' := by
    intro s' hcheckpoint hprogress
    have hreported' : s'.reported args = s.offset args := by rw [reported, hprogress, hnow]
    rw [← hcheckpoint] at hadvanced
    exact ⟨_, s.offset args, hadvanced, rfl, rfl, hmax, hle.trans hforward, hreported'.ge,
      fun _ => hreported'.symm⟩
  have hkept : ∀ (s' : Recorder) (err : String), s'.checkpoint = s.checkpoint →
      s'.pipeline.progress = s.pipeline.progress ++ [s.offset args] →
      s'.phase = .finished (.error err) →
      Recorded args lane.rangeStart lane.rangeEndExclusive s' := by
    intro s' err hcheckpoint hprogress herr
    have hreported' : s'.reported args = s.offset args := by rw [reported, hprogress, hnow]
    refine ⟨lane, s.reported args, by rw [hcheckpoint, hfound], rfl, rfl, hoffset, hle,
      hforward.trans_eq hreported'.symm, ?_⟩
    intro hrunning
    exact absurd herr (hrunning err)
  cases outcome with
  | ok =>
    simp only [Recorder.persist, persistProgress, hstriped, if_pos, hnext]
    split
    · exact hmade _ rfl rfl
    · exact hmade _ rfl rfl
  | ioErrorAfter =>
    simp only [Recorder.persist, persistProgress, hstriped, if_pos, hnext]
    exact hmade _ rfl rfl
  | ioError =>
    simp only [Recorder.persist, persistProgress, hstriped, if_pos]
    exact hkept _ _ rfl rfl rfl
  | short written | late written =>
    simp only [Recorder.persist, persistProgress, hstriped, if_pos, hnext]
    exact hkept _ _ rfl rfl rfl

/-! ## Runs -/

theorem Received.next (h : Received args s) (hwritten : Written args s)
    (hnext : Next crypto args s s') : Received args s' := by
  obtain ⟨move, hstep⟩ := hnext
  cases move with
  | reader => exact h.readerStep hwritten hstep
  | decrypt => exact h.decryptStep hstep
  | writer outcome => exact h.writerStep hstep
  | openLane laneIndex =>
    obtain ⟨c, rfl, -⟩ := of_openLane hstep
    exact ⟨h.passed, h.bound, h.joining, h.ended, h.complete⟩
  | advanceLane laneIndex newOffset =>
    obtain ⟨c, rfl, -⟩ := of_advanceLane hstep
    exact ⟨h.passed, h.bound, h.joining, h.ended, h.complete⟩

theorem Recorded.next (h : Recorded args a b s) (hstriped : args.striped = true) (hab : a ≤ b)
    (hwritten : Written args s) (hnext : CarefulNext crypto args s s') :
    Recorded args a b s' := by
  obtain ⟨move, hcareful, hstep⟩ := hnext
  cases move with
  | reader =>
    obtain ⟨p, rfl, -, -, hprogress, -⟩ := of_readerStep hstep
    exact h.congr rfl hprogress fun herr => herr
  | decrypt =>
    obtain ⟨p, hp, rfl⟩ := Option.map_eq_some_iff.1 hstep
    exact h.congr rfl (sameWriter_decryptStep hp).2.1 fun herr => herr
  | writer outcome =>
    rcases of_writerStep_persist hstep with ⟨hcheckpoint, hprogress⟩ | ⟨last, hphase, rfl⟩
    · refine h.congr (by rw [hcheckpoint]) hprogress ?_
      rintro ⟨err, herr⟩
      exact absurd herr ((of_writerStep hstep).1 _)
    · exact h.persist hstriped hab hwritten hphase (hcareful outcome last rfl hphase) outcome
  | openLane laneIndex =>
    obtain ⟨c, rfl, hlane⟩ := of_openLane hstep
    exact h.congr hlane rfl fun herr => herr
  | advanceLane laneIndex newOffset =>
    obtain ⟨c, rfl, hlane⟩ := of_advanceLane hstep
    exact h.congr hlane rfl fun herr => herr

/-- The call has returned, and neither the decrypt task nor the writer task has failed. -/
def EndedWell (s : Recorder) : Prop :=
  (∃ r, s.pipeline.reader = .returned r) ∧ s.pipeline.decrypt = .finished (.ok ()) ∧
    ∀ err, s.phase ≠ .finished (.error err)

theorem Received.endedWell (h : Received args s) (hwritten : Written args s)
    (hended : s.EndedWell) : s.phase = .finished (.ok s.pipeline.writer.bytesWritten) := by
  obtain ⟨⟨r, hreturned⟩, hdecrypt, hfine⟩ := hended
  obtain ⟨result, hphase⟩ := (h.ended r hreturned).2 hdecrypt
  cases result with
  | error err => exact absurd hphase (hfine err)
  | ok n =>
    have hsound := hwritten.phase (hwritten.ended _ hphase)
    rw [hphase] at hsound
    rw [hphase, hsound.1]

theorem sound_of_reaches {recvStream file : List UInt8} {c : TransferCheckpoint}
    (h : CarefullyReaches crypto args (start args recvStream file c) s) :
    Written args s ∧ Received args s ∧
      ∀ a b, args.striped = true → Opened args a b c → Recorded args a b s := by
  induction h with
  | refl =>
    exact ⟨written_start recvStream file c, received_start recvStream file c,
      fun a b _ hopened => recorded_start recvStream file hopened⟩
  | tail _ hnext ih =>
    obtain ⟨hwritten, hreceived, hrecorded⟩ := ih
    refine ⟨hwritten.next hnext, hreceived.next hwritten (next_of_careful hnext), ?_⟩
    intro a b hstriped hopened
    exact (hrecorded a b hstriped hopened).next hstriped hopened.range hwritten hnext

/-- Nothing is written beyond what is expected. -/
theorem Received.bytesWritten_le (h : Received args s) :
    s.pipeline.writer.bytesWritten ≤ args.expectedBytes := by
  have hpassed := h.passed
  have hbound := h.bound
  omega

/-- The last offset that was reported. -/
theorem Written.getLast? (h : Written args s) (hpos : 0 < s.pipeline.writer.bytesWritten)
    (hdone : s.phase = .finished (.ok s.pipeline.writer.bytesWritten)) :
    s.pipeline.progress.getLast? = some (args.resumeOffset + s.pipeline.writer.bytesWritten) := by
  have hphase := h.phase (h.ended _ hdone)
  rw [hdone] at hphase
  obtain ⟨-, hsynced⟩ := hphase
  have hreported := h.settled (by simp [hdone]) (by simp [hdone])
  rw [hsynced, reported, List.getLastD_eq_getLast?] at hreported
  cases hlast : s.pipeline.progress.getLast? with
  | none =>
    rw [hlast, Option.getD_none] at hreported
    omega
  | some offset =>
    rw [hlast, Option.getD_some] at hreported
    rw [hreported]

/-- The lane's offset in the checkpoint against what is synced. -/
theorem Recorded.offset_mem (h : Recorded args a b s) {c : TransferCheckpoint}
    (hopened : Opened args a b c) (hwritten : Written args s) (hreceived : Received args s) :
    ∃ lane : LaneCheckpoint, s.checkpoint.lane? args.laneIndex = some lane ∧
      lane.offset ≤ args.resumeOffset + s.synced ∧
      ((∀ last, s.phase ≠ .persisting last) → (∀ err, s.phase ≠ .finished (.error err)) →
        args.resumeOffset + s.synced < lane.offset + progressUpdateIntervalBytes) ∧
      (s.phase = .finished (.ok args.expectedBytes) → lane.offset = b) := by
  obtain ⟨lane, recorded, hlane, -, -, hoffset, hle, hbehind, hlast⟩ := h
  obtain ⟨hstart, hend⟩ := hopened.resume_mem
  have hexpected := hopened.expectedBytes
  have hsynced := hwritten.synced_le.trans hwritten.landed_le
  have hbytes := hreceived.bytesWritten_le
  have hreported := hwritten.reported_le
  refine ⟨lane, hlane, ?_, ?_, ?_⟩
  · rw [hoffset]
    refine durableResumeOffset_le_max.trans ?_
    omega
  · intro hidle hfine
    have heq : recorded = args.resumeOffset + s.synced :=
      (hlast hfine).trans (hwritten.settled hidle hfine)
    rw [← heq, hoffset]
    exact lt_durableResumeOffset_add (hstart.trans hle) (by omega)
  · intro hdone
    have hphase := hwritten.phase (hwritten.ended _ hdone)
    rw [hdone] at hphase
    obtain ⟨hall, hdurable⟩ := hphase
    have hnow := hwritten.settled (by simp [hdone]) (by simp [hdone])
    have heq : recorded = s.reported args := hlast (by simp [hdone])
    rw [hoffset]
    exact durableResumeOffset_of_end_le hopened.range (by omega)

/-! ## Careless steps -/

/-- What a failed write has left out is missing from then on, also when the file is synced. -/
structure Missing (s : Recorder) : Prop where
  landed_le : s.landed ≤ s.pipeline.writer.bytesWritten
  failed : s.writeFailed = true → s.landed < s.pipeline.writer.bytesWritten
  synced : ∀ last, s.phase = .persisting last → s.synced = s.landed

theorem Missing.writeChunk (h : Missing s) (outcome : DiskOutcome) (chunk : List UInt8)
    (queue : List (List UInt8)) : Missing (s.writeChunk args outcome chunk queue) := by
  have hle := h.landed_le
  rcases writeChunk_cases args s outcome chunk queue with
    ⟨written, hfine, heq⟩ | ⟨written, -, heq⟩
  · rw [heq]
    refine ⟨Nat.add_le_add hle (Nat.min_le_right _ _), fun hfailed => ?_, fun last hlast => ?_⟩
    · have hlt : written < chunk.length := of_decide_eq_true hfailed
      show s.landed + min written chunk.length < s.pipeline.writer.bytesWritten + chunk.length
      omega
    · simp only [handOver] at hlast
      split at hlast <;> cases hlast
  · rw [heq]
    refine ⟨hle, h.failed, fun last hlast => ?_⟩
    cases hlast

theorem Missing.writerStep (h : Missing s) {outcome : DiskOutcome}
    (hstep : Recorder.writerStep args outcome s = some s') : Missing s' := by
  unfold Recorder.writerStep at hstep
  cases hphase : s.phase with
  | receiving =>
    simp only [hphase] at hstep
    split at hstep
    · cases hstep
      exact h.writeChunk outcome _ _
    · split at hstep
      · cases hstep
        refine ⟨h.landed_le, h.failed, fun last hlast => ?_⟩
        dsimp only at hlast
        split at hlast <;> cases hlast
      · cases hstep
  | syncing last =>
    simp only [hphase] at hstep
    split at hstep <;> cases hstep
    · exact ⟨h.landed_le, h.failed, fun _ _ => rfl⟩
    · exact ⟨h.landed_le, h.failed, nofun⟩
  | persisting last =>
    simp only [hphase] at hstep
    cases hstep
    unfold persist
    dsimp only
    split
    · exact ⟨h.landed_le, h.failed, nofun⟩
    · split <;> exact ⟨h.landed_le, h.failed, nofun⟩
  | flushing =>
    simp only [hphase] at hstep
    split at hstep <;> cases hstep <;> exact ⟨h.landed_le, h.failed, nofun⟩
  | finished result =>
    simp only [hphase] at hstep
    cases hstep

theorem Missing.next (h : Missing s) (hnext : Next crypto args s s') : Missing s' := by
  obtain ⟨move, hstep⟩ := hnext
  cases move with
  | reader =>
    obtain ⟨p, rfl, -, hwriter, -⟩ := of_readerStep hstep
    exact ⟨by rw [hwriter]; exact h.landed_le, by rw [hwriter]; exact h.failed, h.synced⟩
  | decrypt =>
    obtain ⟨p, hp, rfl⟩ := Option.map_eq_some_iff.1 hstep
    have hwriter := (sameWriter_decryptStep hp).1
    exact ⟨by rw [hwriter]; exact h.landed_le, by rw [hwriter]; exact h.failed, h.synced⟩
  | writer outcome => exact h.writerStep hstep
  | openLane laneIndex =>
    obtain ⟨c, rfl, -⟩ := of_openLane hstep
    exact ⟨h.landed_le, h.failed, h.synced⟩
  | advanceLane laneIndex newOffset =>
    obtain ⟨c, rfl, -⟩ := of_advanceLane hstep
    exact ⟨h.landed_le, h.failed, h.synced⟩

theorem missing_of_reaches {recvStream file : List UInt8} {c : TransferCheckpoint}
    (h : Reaches crypto args (start args recvStream file c) s) : Missing s := by
  induction h with
  | refl => exact ⟨le_rfl, nofun, nofun⟩
  | tail _ hnext ih => exact ih.next hnext

/-- **A careless step** reports an offset that is ahead of what is synced. -/
theorem Missing.ahead (h : Missing s) {move : Move} (hstep : step? crypto args s move = some s')
    (hcareless : ¬ s.Careful move) :
    ∃ offset synced, s'.pipeline.progress = s.pipeline.progress ++ [offset] ∧
      s'.syncedAt = s.syncedAt ++ [synced] ∧ args.resumeOffset + synced < offset := by
  simp only [Careful, not_forall, Bool.not_eq_false] at hcareless
  obtain ⟨outcome, last, rfl, hphase, hfailed⟩ := hcareless
  have hmade : s' = s.persist args outcome last := by
    simp only [step?, Recorder.writerStep, hphase, Option.some.injEq] at hstep
    exact hstep.symm
  have hlt := h.failed hfailed
  rw [← h.synced last hphase] at hlt
  refine ⟨s.offset args, s.synced, ?_, ?_, Nat.add_lt_add_left hlt _⟩
  · rw [hmade, persist]
    dsimp only
    split
    · rfl
    · split <;> rfl
  · rw [hmade, persist]
    dsimp only
    split
    · rfl
    · split <;> rfl

end Recorder

open Recorder in
/-- **Recorded progress is synced progress** as long as `persist_progress` is called only while no
write has failed, in every state that such a run leads to, under any schedule and wherever the
stream ends or the disk fails.  Every offset was reported when as much had been synced, and the
offsets increase.  If the writer has ended well, or the call has returned and nobody has failed,
the last one is where the writer stopped.  The lane's offset in the checkpoint is at most what is
synced, less than 1 MiB behind unless `persist_progress` is yet to be called or has failed, and
the end of the range once the lane is received.  A call after a write that has failed reports an
offset that is ahead of what is synced. -/
theorem recorded_progress {crypto : AeadCrypto} {args : RecorderArgs}
    (recvStream file : List UInt8) (c : TransferCheckpoint) :
    (∀ s, CarefullyReaches crypto args (start args recvStream file c) s →
      List.Forall₂ (fun offset synced => offset ≤ args.resumeOffset + synced)
          s.pipeline.progress s.syncedAt ∧
        s.synced ≤ s.landed ∧ s.landed ≤ s.pipeline.writer.bytesWritten ∧
        (∀ p, args.resumeOffset ≤ p → p < args.resumeOffset + s.synced →
          s.syncedFile[p]? = s.pipeline.file[p]?) ∧
        s.pipeline.progress.Pairwise (· < ·) ∧
        (s.EndedWell ∨ (∃ n, s.phase = .finished (.ok n)) →
          0 < s.pipeline.writer.bytesWritten → s.pipeline.progress.getLast? =
            some (args.resumeOffset + s.pipeline.writer.bytesWritten)) ∧
        ∀ a b, args.striped = true → Opened args a b c →
          ∃ lane : LaneCheckpoint, s.checkpoint.lane? args.laneIndex = some lane ∧
            lane.offset ≤ args.resumeOffset + s.synced ∧
            ((∀ last, s.phase ≠ .persisting last) → (∀ err, s.phase ≠ .finished (.error err)) →
              args.resumeOffset + s.synced < lane.offset + progressUpdateIntervalBytes) ∧
            (s.EndedWell ∨ (∃ n, s.phase = .finished (.ok n)) →
              s.synced = s.pipeline.writer.bytesWritten ∧
                (s.pipeline.writer.bytesWritten = args.expectedBytes → lane.offset = b)) ∧
            ((∃ n, s.pipeline.reader = .returned (.ok n)) → lane.offset = b)) ∧
      ∀ s s' move, Reaches crypto args (start args recvStream file c) s →
        step? crypto args s move = some s' → ¬ s.Careful move →
        ¬ List.Forall₂ (fun offset synced => offset ≤ args.resumeOffset + synced)
          s'.pipeline.progress s'.syncedAt := by
  constructor
  · intro s h
    obtain ⟨hwritten, hreceived, hrecorded⟩ := sound_of_reaches h
    have hended : s.EndedWell ∨ (∃ n, s.phase = .finished (.ok n)) →
        s.phase = .finished (.ok s.pipeline.writer.bytesWritten) := by
      rintro (hended | ⟨n, hphase⟩)
      · exact hreceived.endedWell hwritten hended
      · have hsound := hwritten.phase (hwritten.ended _ hphase)
        rw [hphase] at hsound
        rw [hphase, hsound.1]
    refine ⟨hwritten.moments, hwritten.synced_le, hwritten.landed_le, hwritten.durable,
      hwritten.reports.tail, ?_, ?_⟩
    · intro hwell hpos
      exact hwritten.getLast? hpos (hended hwell)
    · intro a b hstriped hopened
      obtain ⟨lane, hlane, hle, hlt, hall⟩ :=
        (hrecorded a b hstriped hopened).offset_mem hopened hwritten hreceived
      refine ⟨lane, hlane, hle, hlt, ?_, ?_⟩
      · intro hwell
        have hdone := hended hwell
        have hphase := hwritten.phase (hwritten.ended _ hdone)
        rw [hdone] at hphase
        refine ⟨hphase.2, ?_⟩
        intro hexpected
        exact hall (hexpected ▸ hdone)
      · rintro ⟨n, hreturned⟩
        obtain ⟨rfl, hdone⟩ := hreceived.complete n hreturned
        exact hall hdone
  · intro s s' move h hstep hcareless hmoments
    obtain ⟨offset, synced, hprogress, hsyncedAt, hlt⟩ :=
      (missing_of_reaches h).ahead hstep hcareless
    rw [hprogress, hsyncedAt, ← List.forall₂_reverse_iff, List.reverse_concat,
      List.reverse_concat] at hmoments
    exact absurd (List.forall₂_cons.1 hmoments).1 (Nat.not_le.2 hlt)

/-! ## One run -/

namespace Recorder

theorem reaches_of_moves {crypto : AeadCrypto} {args : RecorderArgs} {moves : List Move} :
    ∀ {s s' : Recorder}, moves.foldlM (step? crypto args) s = some s' →
      Reaches crypto args s s' := by
  induction moves with
  | nil =>
    intro s s' h
    cases h
    exact .refl
  | cons move moves ih =>
    intro s s' h
    rw [List.foldlM_cons] at h
    obtain ⟨next, hnext, hrest⟩ := Option.bind_eq_some_iff.1 h
    exact .head ⟨move, hnext⟩ (ih hrest)

namespace Sample

open Metra.Sample

/-- The first of two lanes of a file of six bytes. -/
def args : RecorderArgs where
  transferId := transferId
  laneIndex := 0
  resumeOffset := 0
  expectedBytes := 3
  payloadCodec := .rawV1
  receiveWritePipelineDepth := 4
  striped := true
  checkpointPath := "a.part.meta.json"

/-- A frame of two bytes; the stream ends before the next one. -/
def truncated : List UInt8 := Bytes.toLeBytes 4 2 ++ nonce.bytes ++ [7, 8]

/-- The first lane of two, before its first step. -/
def began : Recorder := start args truncated [] (newCheckpoint transferId 6 2)

theorem opened : Opened args 0 3 (newCheckpoint transferId 6 2) where
  range := by decide
  stored := ⟨newCheckpoint transferId 6 2, ⟨0, 0, 3, 0⟩, by decide, rfl, rfl, by decide⟩
  expectedBytes := rfl

/-- The writer has written two bytes and ended. -/
def wroteTwo (s : Recorder) : Bool :=
  match s.phase with
  | .finished (.ok 2) => true
  | _ => false

theorem of_wroteTwo {s : Recorder} (h : wroteTwo s = true) : s.phase = .finished (.ok 2) := by
  unfold wroteTwo at h
  split at h
  · rename_i hphase
    exact hphase
  · cases h

/-- The reader and the decrypt task come to their ends, the other lane is advanced, then the
writer goes on, its write ending in some way. -/
def moves (written : DiskOutcome) : List Move :=
  [.reader, .reader, .reader, .decrypt, .decrypt, .decrypt, .reader, .advanceLane 1 6,
    .writer written] ++ List.replicate 4 (.writer .ok) ++ [.reader]

/-- A frame of three bytes, which are all that is expected. -/
def whole : List UInt8 := Bytes.toLeBytes 4 3 ++ nonce.bytes ++ [7, 8, 9]

end Sample

end Recorder

open Recorder Recorder.Sample in
/-- A stream that breaks off after two of three bytes. -/
theorem recorded_progress_truncated :
    ∃ s, CarefullyReaches Metra.Sample.crypto args began s ∧
      s.pipeline.progress.getLast? = some 2 ∧
      ∃ lane : LaneCheckpoint, s.checkpoint.lane? 0 = some lane ∧ lane.offset ≤ s.synced := by
  have hrun : ((moves .ok).foldlM (step? Metra.Sample.crypto args) began).any (fun s =>
      wroteTwo s && decide (s.pipeline.writer.bytesWritten = 2 ∧ s.writeFailed = false)) =
        true := by
    decide +kernel
  obtain ⟨s, hs, htest⟩ := (Option.any_eq_true _ _).1 hrun
  simp only [Bool.and_eq_true, decide_eq_true_eq] at htest
  obtain ⟨hdone, hwritten, hfine⟩ := htest
  have hreaches := carefully_of_reaches (reaches_of_moves hs) hfine
  obtain ⟨-, -, -, -, -, hlast, hlane⟩ := (recorded_progress truncated [] _).1 s hreaches
  have hwell := of_wroteTwo hdone
  obtain ⟨lane, hfound, hle, -⟩ := hlane 0 3 rfl opened
  rw [hwritten] at hlast
  refine ⟨s, hreaches, hlast (.inr ⟨2, hwell⟩) (by decide), lane, hfound, ?_⟩
  simpa [args] using hle

open Recorder Recorder.Sample in
/-- The disk is full, and the write of the lane's only chunk gets nothing into the file.  The
writer, which is not told so before it flushes the file, syncs it and **reports the end of the
lane, where the checkpoint has the lane from then on**. -/
theorem reported_unwritten :
    ∃ s, Reaches Metra.Sample.crypto args
        (start args whole [] (newCheckpoint Metra.Sample.transferId 6 2)) s ∧
      s.pipeline.progress = [3] ∧ s.syncedAt = [0] ∧ s.syncedFile = [] ∧
      s.pipeline.file = [] ∧
      (s.checkpoint.lane? 0).map LaneCheckpoint.offset = some 3 ∧
      ¬ List.Forall₂ (fun offset synced => offset ≤ args.resumeOffset + synced)
        s.pipeline.progress s.syncedAt := by
  have hrun : ((moves (.late 0)).foldlM (step? Metra.Sample.crypto args)
      (start args whole [] (newCheckpoint Metra.Sample.transferId 6 2))).any (fun s =>
        decide (s.pipeline.progress = [3] ∧ s.syncedAt = [0] ∧ s.syncedFile = [] ∧
          s.pipeline.file = [] ∧
          (s.checkpoint.lane? 0).map LaneCheckpoint.offset = some 3)) = true := by
    decide +kernel
  obtain ⟨s, hs, htest⟩ := (Option.any_eq_true _ _).1 hrun
  obtain ⟨hprogress, hsynced, hrest⟩ := of_decide_eq_true htest
  refine ⟨s, reaches_of_moves hs, hprogress, hsynced, hrest.1, hrest.2.1, hrest.2.2, ?_⟩
  rw [hprogress, hsynced]
  decide

end Metra
