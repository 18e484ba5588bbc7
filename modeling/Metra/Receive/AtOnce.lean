import Metra.Receive.Recorded

/-!
# The writer that records at once

Between two calls of the writer task nothing else looks at what the calls are about, so a run
in which neither the writer nor a write has failed is a run of `Pipeline.lean`, in which a chunk
is written, synced and recorded in one step.

* `Recorder.pipeline_of_reaches` — the simulation.
-/

namespace Metra

namespace Recorder

variable {crypto : AeadCrypto} {args : RecorderArgs} {s s' : Recorder}

/-! ## The pipeline that records at once -/

/-- What the writer has reported and where it stands, once it has made the calls that it is
about to make. -/
def ahead (args : RecorderArgs) (s : Recorder) : List Nat × Pipeline.Writer :=
  match s.phase with
  | .syncing false | .persisting false =>
    (s.pipeline.progress ++ [s.offset args],
      ⟨s.pipeline.writer.bytesWritten, 0, s.offset args, none⟩)
  | .syncing true | .persisting true =>
    (s.pipeline.progress ++ [s.offset args],
      { s.pipeline.writer with finished := some s.pipeline.writer.bytesWritten })
  | .flushing =>
    (s.pipeline.progress,
      { s.pipeline.writer with finished := some s.pipeline.writer.bytesWritten })
  | .receiving | .finished _ => (s.pipeline.progress, s.pipeline.writer)

/-- The pipeline in which the writer has already done what it is about to do. -/
def toPipeline (args : RecorderArgs) (s : Recorder) : Pipeline :=
  { s.pipeline with progress := (s.ahead args).1, writer := (s.ahead args).2 }

/-- The reader only waits for the writer. -/
theorem readerStep_congr {p : Pipeline} {readerArgs : ReceiveLanePipelineArgs}
    {progress : List Nat} {w : Pipeline.Writer}
    (hw : p.reader = .joinWriter → w.finished = p.writer.finished) :
    Pipeline.readerStep readerArgs { p with progress := progress, writer := w } =
      (Pipeline.readerStep readerArgs p).map
        fun q => { q with progress := progress, writer := w } := by
  unfold Pipeline.readerStep
  cases hreader : p.reader with
  | reading =>
    simp only
    split
    · split
      · rfl
      · split <;> rfl
    · rfl
  | sending frame =>
    simp only
    split
    · rfl
    · split <;> rfl
  | joinDecrypt =>
    simp only
    split <;> rfl
  | joinWriter =>
    simp only [hw hreader, Option.map_map]
    rfl
  | returned r => rfl

/-- The decrypt task only looks whether the writer takes its chunk. -/
theorem decryptStep_congr {p : Pipeline} {decryptArgs : ReceiveLanePipelineArgs}
    {progress : List Nat} {w : Pipeline.Writer}
    (hw : p.decrypt.isFinished = false → w.finished = p.writer.finished) :
    Pipeline.decryptStep crypto decryptArgs { p with progress := progress, writer := w } =
      (Pipeline.decryptStep crypto decryptArgs p).map
        fun q => { q with progress := progress, writer := w } := by
  unfold Pipeline.decryptStep
  cases hdecrypt : p.decrypt with
  | receiving =>
    simp only
    split
    · split <;> rfl
    · split <;> rfl
  | sending plaintext =>
    simp only [hw (by simp [hdecrypt, Pipeline.Decrypt.isFinished])]
    split
    · rfl
    · split <;> rfl
  | finished r => rfl

/-- A writer that is about to end has been told that there is nothing more to come. -/
def Closing (s : Recorder) : Prop :=
  s.phase = .syncing true ∨ s.phase = .persisting true ∨ s.phase = .flushing →
    s.pipeline.decrypt.isFinished = true

theorem Closing.writerStep (h : Closing s) {outcome : DiskOutcome}
    (hstep : Recorder.writerStep args outcome s = some s') : Closing s' := by
  intro hlast
  obtain ⟨-, -, hdecrypt, -⟩ := of_writerStep hstep
  rw [hdecrypt]
  unfold Recorder.writerStep at hstep
  cases hphase : s.phase with
  | receiving =>
    simp only [hphase] at hstep
    split at hstep
    · rename_i chunk queue hqueue
      -- a chunk has come
      cases hstep
      exfalso
      rcases writeChunk_cases args s outcome chunk queue with
        ⟨written, -, heq⟩ | ⟨written, -, heq⟩
      · simp only [heq, handOver] at hlast
        split at hlast <;> simp at hlast
      · simp [heq, refuseChunk, finish] at hlast
    · split at hstep
      · rename_i hclosed
        exact hclosed
      · cases hstep
  | syncing last =>
    simp only [hphase] at hstep
    split at hstep
    · cases hstep
      simp only [reduceCtorEq, Phase.persisting.injEq, false_or, or_false] at hlast
      exact h (.inl (by rw [hphase, hlast]))
    · cases hstep
      simp [finish] at hlast
  | persisting last =>
    simp only [hphase] at hstep
    cases hstep
    cases last with
    | true => exact h (.inr (.inl hphase))
    | false =>
      exfalso
      unfold persist at hlast
      dsimp only at hlast
      split at hlast <;> simp [finish] at hlast
  | flushing => exact h (.inr (.inr hphase))
  | finished result =>
    simp only [hphase] at hstep
    cases hstep

theorem Closing.next (h : Closing s) (hnext : Next crypto args s s') : Closing s' := by
  obtain ⟨move, hstep⟩ := hnext
  cases move with
  | reader =>
    obtain ⟨p, rfl, hdecrypt, -⟩ := of_readerStep hstep
    intro hlast
    exact (congrArg _ hdecrypt).trans (h hlast)
  | decrypt =>
    obtain ⟨p, hp, rfl⟩ := Option.map_eq_some_iff.1 hstep
    intro hlast
    have hended := h hlast
    cases hdecrypt : s.pipeline.decrypt with
    | finished r => simp [Pipeline.decryptStep, hdecrypt] at hp
    | receiving =>
      rw [hdecrypt] at hended
      cases hended
    | sending plaintext =>
      rw [hdecrypt] at hended
      cases hended
  | writer outcome => exact h.writerStep hstep
  | openLane laneIndex =>
    obtain ⟨c, rfl, -⟩ := of_openLane hstep
    exact h
  | advanceLane laneIndex newOffset =>
    obtain ⟨c, rfl, -⟩ := of_advanceLane hstep
    exact h

/-- A step of a writer that does not fail, and whose write does not, is a step of the writer that
makes its calls at once, or one that it has made before. -/
theorem toPipeline_writerStep (hwritten : Written args s) {outcome : DiskOutcome}
    (hstep : writerStep args outcome s = some s')
    (hfine : ∀ err, s'.phase ≠ .finished (.error err)) (hwrites : s'.writeFailed = false) :
    s'.toPipeline args = s.toPipeline args ∨
      Pipeline.writerStep args.toReceiveLanePipelineArgs (s.toPipeline args) =
        some (s'.toPipeline args) := by
  have hopen := hwritten.open (of_writerStep hstep).1
  unfold writerStep at hstep
  cases hphase : s.phase with
  | receiving =>
    simp only [hphase] at hstep
    right
    have hpipeline : s.toPipeline args = s.pipeline := by simp [toPipeline, ahead, hphase]
    rw [hpipeline, Pipeline.writerStep, hopen]
    cases hqueue : s.pipeline.writerQueue with
    | cons chunk queue =>
      simp only [hqueue] at hstep
      cases hstep
      rcases writeChunk_cases args s outcome chunk queue with
        ⟨written, -, heq⟩ | ⟨written, -, heq⟩
      · -- the whole chunk gets into the file
        rw [heq] at hwrites ⊢
        have hall : chunk.take written = chunk :=
          List.take_of_length_le (Nat.not_lt.1 (of_decide_eq_false hwrites))
        simp only [handOver, toPipeline, ahead, hall]
        split
        · simp [offset]
        · simp [offset, hopen]
      · rw [heq] at hfine
        exact absurd rfl (hfine _)
    | nil =>
      simp only [hqueue] at hstep
      dsimp only
      split at hstep
      · rename_i hclosed
        cases hstep
        rw [if_pos hclosed]
        by_cases hbehind : s.pipeline.writer.lastDurableOffset < s.offset args
        · have hphase' : (if s.pipeline.writer.lastDurableOffset < s.offset args then
              Phase.syncing true else .flushing) = .syncing true := if_pos hbehind
          simp only [toPipeline, ahead, gt_iff_lt, hphase', hqueue]
          exact congrArg some (by simp [offset] at hbehind ⊢; omega)
        · have hphase' : (if s.pipeline.writer.lastDurableOffset < s.offset args then
              Phase.syncing true else .flushing) = .flushing := if_neg hbehind
          simp only [toPipeline, ahead, gt_iff_lt, hphase', hqueue]
          exact congrArg some (by simp [offset] at hbehind ⊢; omega)
      · cases hstep
  | syncing last =>
    simp only [hphase] at hstep
    split at hstep
    · cases hstep
      left
      cases last <;> simp [toPipeline, ahead, hphase, offset]
    · cases hstep
      exact absurd rfl (hfine _)
  | persisting last =>
    simp only [hphase] at hstep
    cases hstep
    left
    cases hpersisted : (persistProgress args outcome (s.offset args) s.checkpoint).1 with
    | error err =>
      refine absurd ?_ (hfine err)
      simp only [persist, hpersisted]
      rfl
    | ok ok =>
      cases last with
      | true =>
        simp only [persist, hpersisted, toPipeline, ahead, hphase, if_pos]
      | false =>
        simp only [persist, hpersisted, toPipeline, ahead, hphase, hopen, Bool.false_eq_true,
          if_false]
  | flushing =>
    simp only [hphase] at hstep
    split at hstep
    · cases hstep
      left
      simp [toPipeline, ahead, hphase, finish]
    · cases hstep
      exact absurd rfl (hfine _)
  | finished result =>
    simp only [hphase] at hstep
    cases hstep

/-- As long as neither the writer nor a write has failed, every step is one of the pipeline that
records at once, or none. -/
theorem toPipeline_next (hwritten : Written args s) (hclosing : Closing s)
    (hnext : Next crypto args s s') (hfine : ∀ err, s'.phase ≠ .finished (.error err))
    (hwrites : s'.writeFailed = false) :
    s'.toPipeline args = s.toPipeline args ∨
      Pipeline.Next crypto args.toReceiveLanePipelineArgs (s.toPipeline args)
        (s'.toPipeline args) := by
  have hfine' : ∀ err, s.phase ≠ .finished (.error err) :=
    fun err herr => hfine err (failed_next hnext herr)
  have hahead : ∀ p : Pipeline, p.writer = s.pipeline.writer → p.progress = s.pipeline.progress →
      ahead args { s with pipeline := p } = s.ahead args := by
    intro p hwriter hprogress
    simp only [ahead, offset, hwriter, hprogress]
  obtain ⟨move, hstep⟩ := hnext
  cases move with
  | reader =>
    right
    refine ⟨.reader, ?_⟩
    change readerStep args s = some s' at hstep
    unfold readerStep at hstep
    split at hstep
    · rename_i err hreader hphase
      exact absurd hphase (hfine' err)
    · obtain ⟨p, hp, rfl⟩ := Option.map_eq_some_iff.1 hstep
      obtain ⟨-, hwriter, hprogress, -⟩ := sameWriter_readerStep hp
      show Pipeline.readerStep _ { s.pipeline with progress := _, writer := _ } = _
      rw [readerStep_congr, hp, toPipeline, hahead p hwriter hprogress]
      · rfl
      · -- the writer that is waited for has ended
        intro hjoin
        simp only [Pipeline.readerStep, hjoin] at hp
        obtain ⟨n, hn, -⟩ := Option.map_eq_some_iff.1 hp
        rcases hwritten.closed with hnone | ⟨-, r, hr⟩
        · rw [hnone] at hn
          cases hn
        · simp only [ahead, hr]
  | decrypt =>
    right
    refine ⟨.decrypt, ?_⟩
    obtain ⟨p, hp, rfl⟩ := Option.map_eq_some_iff.1 hstep
    obtain ⟨hwriter, hprogress, -⟩ := sameWriter_decryptStep hp
    show Pipeline.decryptStep crypto _ { s.pipeline with progress := _, writer := _ } = _
    rw [decryptStep_congr, hp, toPipeline, hahead p hwriter hprogress]
    · rfl
    · -- the writer does not end before the decrypt task
      intro hrunning
      have hmore : ¬ (s.phase = .syncing true ∨ s.phase = .persisting true ∨
          s.phase = .flushing) := by
        intro hlast
        rw [hclosing hlast] at hrunning
        cases hrunning
      push Not at hmore
      obtain ⟨hsyncing, hpersisting, hflushing⟩ := hmore
      cases hphase : s.phase with
      | receiving => simp only [ahead, hphase]
      | syncing last =>
        cases last with
        | true => exact absurd hphase hsyncing
        | false => simp only [ahead, hphase, hwritten.open (by simp [hphase])]
      | persisting last =>
        cases last with
        | true => exact absurd hphase hpersisting
        | false => simp only [ahead, hphase, hwritten.open (by simp [hphase])]
      | flushing => exact absurd hphase hflushing
      | finished result => simp only [ahead, hphase]
  | writer outcome =>
    exact (toPipeline_writerStep hwritten hstep hfine hwrites).imp_right (⟨.writer, ·⟩)
  | openLane laneIndex =>
    obtain ⟨c, rfl, -⟩ := of_openLane hstep
    exact .inl rfl
  | advanceLane laneIndex newOffset =>
    obtain ⟨c, rfl, -⟩ := of_advanceLane hstep
    exact .inl rfl

theorem closing_of_reaches {recvStream file : List UInt8} {c : TransferCheckpoint}
    (h : Reaches crypto args (start args recvStream file c) s) : Closing s := by
  induction h with
  | refl =>
    intro hlast
    simp [start] at hlast
  | tail _ hnext ih => exact ih.next hnext

/-- **The pipeline that records at once does whatever a run does** in which neither the writer nor
a write has failed. -/
theorem pipeline_of_reaches {recvStream file : List UInt8} {c : TransferCheckpoint}
    (h : Reaches crypto args (start args recvStream file c) s)
    (hfine : ∀ err, s.phase ≠ .finished (.error err)) (hwrites : s.writeFailed = false) :
    Pipeline.Reaches crypto args.toReceiveLanePipelineArgs
      (Pipeline.start args.toReceiveLanePipelineArgs recvStream file) (s.toPipeline args) := by
  induction h with
  | refl =>
    exact .refl
  | tail hreaches hnext ih =>
    have hwrote := fine_of_next hnext hwrites
    have hbefore := ih (fun err herr => hfine err (failed_next hnext herr)) hwrote
    have hwritten := written_of_reaches (carefully_of_reaches hreaches hwrote)
    rcases toPipeline_next hwritten (closing_of_reaches hreaches) hnext hfine hwrites with
      hsame | hmoves
    · rw [hsame]
      exact hbefore
    · exact hbefore.tail hmoves

end Recorder

open Recorder Recorder.Sample in
/-- The writer has made all its calls for two bytes, and the pipeline that records at once has come
to where they are in the file. -/
theorem pipeline_of_reaches_truncated :
    ∃ s, Reaches Metra.Sample.crypto args began s ∧ s.phase = .finished (.ok 2) ∧
      Pipeline.Reaches Metra.Sample.crypto args.toReceiveLanePipelineArgs
        (Pipeline.start args.toReceiveLanePipelineArgs truncated []) (s.toPipeline args) ∧
      (s.toPipeline args).file = [7, 8] := by
  have hrun : ((moves .ok).foldlM (step? Metra.Sample.crypto args) began).any (fun s =>
      wroteTwo s && decide ((s.toPipeline args).file = [7, 8] ∧ s.writeFailed = false)) =
        true := by
    decide +kernel
  obtain ⟨s, hs, htest⟩ := (Option.any_eq_true _ _).1 hrun
  simp only [Bool.and_eq_true, decide_eq_true_eq] at htest
  obtain ⟨hwrote, hfile, hwrites⟩ := htest
  have hreaches := reaches_of_moves hs
  have hphase := of_wroteTwo hwrote
  have hfine : ∀ err, s.phase ≠ .finished (.error err) := by
    intro err herr
    rw [hphase] at herr
    cases herr
  exact ⟨s, hreaches, hphase, pipeline_of_reaches hreaches hfine hwrites, hfile⟩

end Metra
