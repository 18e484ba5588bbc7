import Metra.Server.Completed

/-!
# Whether a failure stays

A stream that fails marks its transfer as failed, and so may a finalizer.  A lane that
finds other lanes missing marks the transfer as running, whatever its status is.

* `failure_kept` — in a run in which lanes are found missing only while the transfer has not
  ended, and in which it does not end while a lane is about to report others as missing, a
  failed transfer is not running again until a stream is opened;
* `failure_undone` — of two lanes one fails, and the other then completes its range.
-/

namespace Metra.Server

open Interleave

/-- The steps that respect the end of a transfer. -/
structure RespectsEnd (s : Tracked Task Point State) (t : Task) (o : Op) (_ : Choice) : Prop where
  /-- Lanes are found missing only while the transfer has not ended. -/
  missing : o = .readCheckpoint → (s.point t).phase = .deciding →
    ∀ found, s.shared.disk.checkpoint = some found → found.allLanesComplete = false →
    s.shared.transfer.status.terminal = false
  /-- The transfer does not end while another lane has found lanes missing. -/
  ends : ∀ status b, o = .setStatus status b → status.terminal = true →
    ∀ u, u ≠ t → (s.point u).phase ≠ .incomplete

/-- Who has found lanes missing finds the transfer as it was. -/
def MissingNotEnded (s : Tracked Task Point State) : Prop :=
  ∀ u, (s.point u).phase = .incomplete → s.shared.transfer.status.terminal = false

/-- No stream is opened. -/
def NoOpen (_ : Tracked Task Point State) (_ : Task) (o : Op) (_ : Choice) : Prop :=
  ∀ m n b, o ≠ .markRunning m n b

section

variable {setup : Setup} {s : Tracked Task Point State} {t : Task} {stream : LaneStream} {o : Op}
  {c : Choice} {r : o.Reply} {s' : State} {pt : Point} {ph : Phase}

/-- A task finds lanes missing by reading the checkpoint. -/
theorem incomplete_of_moves (h : Moves setup stream t pt o r .incomplete) :
    pt.phase = .deciding ∧ ∃ found : TransferCheckpoint, o = .readCheckpoint ∧
      HEq r (some found) ∧ found.allLanesComplete = false := by
  cases h with
  | incomplete hc => exact ⟨rfl, _, rfl, HEq.rfl, hc⟩

/-- A status is set by a task that goes on to store it. -/
theorem phase_of_setStatus {status : TransferStatus} {b : Nat} (ho : o = .setStatus status b) :
    (advance setup stream pt o r).phase = .settling status := by
  subst ho
  rfl

theorem missingNotEnded_step (hInv : MissingNotEnded s)
    (hstream : setup.streams t.stream = some stream)
    (henabled : Enabled setup t (s.point t) o) (hallowed : RespectsEnd s t o c)
    (hexec : exec t o c s.shared = some (r, s')) :
    MissingNotEnded (moved s t (advance setup stream (s.point t) o r) s') := by
  intro u hu
  rw [moved_shared]
  by_cases hut : u = t
  · subst hut
    rw [moved_point_self] at hu
    rcases henabled.moves hstream r with hsame | hmoves
    · -- the task stays where it is, and does not touch the status
      have hbefore := hu
      rw [hsame] at hbefore
      rcases status_of_exec hexec with heq | ⟨m, n, b, -, heq⟩ | ⟨status, b, ho, -⟩
      · rw [heq]
        exact hInv u hbefore
      · rw [heq]
        rfl
      · rw [phase_of_setStatus ho] at hu
        cases hu
    · rw [hu] at hmoves
      obtain ⟨hdeciding, found, rfl, hr, hc⟩ := incomplete_of_moves hmoves
      cases hr
      obtain ⟨hfound, rfl⟩ := readCheckpoint_of_exec hexec
      exact hallowed.missing rfl hdeciding found hfound hc
  · rw [moved_point_of_ne hut] at hu
    rcases status_of_exec hexec with heq | ⟨m, n, b, -, heq⟩ | ⟨status, b, ho, heq⟩
    · rw [heq]
      exact hInv u hu
    · rw [heq]
      rfl
    · rw [heq]
      by_contra hterminal
      exact hallowed.ends status b ho (by simpa using hterminal) u hut hu

/-- A transfer that has ended is not running again without a stream that is opened. -/
theorem terminal_step (hInv : MissingNotEnded s)
    (henabled : Enabled setup t (s.point t) o) (hopen : NoOpen s t o c)
    (hexec : exec t o c s.shared = some (r, s'))
    (hterminal : s.shared.transfer.status.terminal = true) :
    s'.transfer.status.terminal = true := by
  rcases status_of_exec hexec with heq | ⟨m, n, b, rfl, -⟩ | ⟨status, b, rfl, heq⟩
  · rw [heq]
    exact hterminal
  · exact absurd rfl (hopen m n b)
  · rw [heq]
    have hnot := hInv t
    revert henabled hnot
    generalize s.point t = pt
    intro henabled hnot
    cases henabled with
    | setIncomplete =>
      rw [hnot rfl] at hterminal
      cases hterminal
    | completeDiscarded => rfl
    | complete => rfl
    | refuse => rfl
    | fail => rfl

end

/-- **A failed transfer is running again only by a stream that is opened**, in runs that
respect the end of the transfer. -/
theorem failure_kept (ctx : Context) (transfer : TransferSummary)
    (streams : Nat → Option LaneStream) (disk : Disk)
    {cfg cfg' : Config Task Op Op.Reply (Tracked Task Point State) (Except String Unit)}
    (hbefore : RunsTo (unreliable ctx transfer streams) RespectsEnd
      (starting (unreliable ctx transfer streams) transfer disk) cfg)
    (hafter : RunsTo (unreliable ctx transfer streams)
      (fun s t o c => RespectsEnd s t o c ∧ NoOpen s t o c) cfg cfg')
    (hfailed : statusOf cfg = .failed) : statusOf cfg' ≠ .running := by
  have hInv : ∀ {cfg'' : Config Task Op Op.Reply (Tracked Task Point State) (Except String Unit)},
      RunsTo (unreliable ctx transfer streams) RespectsEnd
        (starting (unreliable ctx transfer streams) transfer disk) cfg'' →
      cfg''.Obedient (protocol (unreliable ctx transfer streams))
          (fun t _ pt => TaskReturned (unreliable ctx transfer streams) t pt) ∧
        Baseline (unreliable ctx transfer streams) cfg''.shared ∧
        MissingNotEnded cfg''.shared := by
    intro cfg'' hreaches
    refine reaches_invariant trivial ?_ (sameTransfer_refl transfer) ?_ hreaches
    · intro s t stream o c r s' _ hInv hstream henabled hallowed hexec
      exact missingNotEnded_step hInv hstream henabled hallowed hexec
    · rintro (u | u) h <;> cases h
  have hterminal : (statusOf cfg').terminal = true := by
    induction hafter with
    | refl =>
      rw [hfailed]
      rfl
    | step hto hpool hallowed hexec ih =>
      obtain ⟨hobedient, -, hmissing⟩ := hInv (hbefore.trans (hto.mono fun _ _ _ _ h => h.1))
      obtain ⟨-, henabled⟩ := hobedient.enabled hpool
      obtain ⟨s', hexec', rfl⟩ := Machine.track_exec_eq_some hexec
      exact terminal_step hmissing henabled hallowed.2 hexec' ih
  intro hrunning
  rw [hrunning] at hterminal
  cases hterminal

/-! ## Samples -/

/-- Two lanes are opened, and the writer of the first fails. -/
def Scenario.oneFails : List (Task × Choice) :=
  turns [(.handler 0, 17), (.handler 1, 17)] ++
    [(.writer 0, .ok), (.writer 0, .ioError), (.writer 0, .ok)] ++ turns [(.handler 0, 3)]

/-- The operations that open no stream. -/
def Scenario.opensNone {σ : Type} (_ : σ) (_ : Task) (o : Op) (_ : Choice) : Bool :=
  match o with
  | .markRunning .. => false
  | _ => true

open Scenario in
/-- Of two lanes the first fails, and with it the transfer; the second goes on, completes its
range, finds the first missing and marks the transfer as running. -/
theorem failure_undone :
    ∃ cfg cfg', Config.Reaches machine (fun _ _ _ _ => True)
        (server (transfer [7, 8] true .queued) noFiles [lane [7, 8] 2 0, lane [7, 8] 2 1]) cfg ∧
      decide (cfg.shared.transfer.status = .failed) = true ∧
      Config.Reaches machine (fun _ _ o _ => ∀ m n b, o ≠ .markRunning m n b) cfg cfg' ∧
      decide (cfg'.shared.transfer.status = .running) = true :=
  Config.exists_run_then opensNone oneFails (turns [(.writer 1, 11), (.handler 1, 10)])
    (fun _ _ o _ h m n b ho => by subst ho; cases h) (by decide +kernel) (by decide +kernel)

namespace Scenario

/-- Two lanes. -/
def siblings : Setup :=
  unreliable ctx (transfer [7, 8] true .queued) fun i => [lane [7, 8] 2 0, lane [7, 8] 2 1][i]?

/-- The tasks of the two lanes. -/
def laneTasks : List Task := [.handler 0, .writer 0, .handler 1, .writer 1]

/-- The lanes are found missing by none of the tasks. -/
def missesNone (s : Tracked Task Point State) (_ : Task) (o : Op) (_ : Choice) : Bool :=
  laneTasks.all fun u => match o, (s.point u).phase with
    | .readCheckpoint, .deciding | .setStatus .., .incomplete => false
    | _, _ => true

theorem respectsEnd_of_missesNone (s : Tracked Task Point State) (t : Task) (o : Op) (c : Choice)
    (hothers : ∀ u, u ∉ laneTasks → s.point u = startPoint u) (ht : t ∈ laneTasks)
    (h : missesNone s t o c = true) : RespectsEnd s t o c := by
  have hall := List.all_eq_true.1 h
  refine ⟨?_, ?_⟩
  · rintro rfl hdeciding
    have := hall t ht
    simp [hdeciding] at this
  · rintro status b rfl - u - hincomplete
    by_cases hu : u ∈ laneTasks
    · have := hall u hu
      simp [hincomplete] at this
    · rw [hothers u hu] at hincomplete
      cases u <;> cases hincomplete

end Scenario

open Scenario in
/-- The writer of the first of two lanes fails, and with it the transfer; then the writer of the
second fails as well, and its stream ends. -/
theorem failure_kept_sample :
    ∃ cfg cfg', RunsTo siblings RespectsEnd
        (starting siblings (transfer [7, 8] true .queued) noFiles) cfg ∧
      statusOf cfg = .failed ∧
      RunsTo siblings (fun s t o c => RespectsEnd s t o c ∧ NoOpen s t o c) cfg cfg' ∧
      decide (cfg'.shared.shared.activeLaneWriters = []) = true ∧ statusOf cfg' ≠ .running := by
  have hrun : ((starting siblings (transfer [7, 8] true .queued) noFiles).runIf
      (machine.track (protocol siblings))
      (fun s t o c => decide (t ∈ laneTasks) && missesNone s t o c) oneFails).any
      (fun cfg => decide (statusOf cfg = .failed) && (cfg.runIf (machine.track (protocol siblings))
        (fun s t o c => decide (t ∈ laneTasks) && (missesNone s t o c && opensNone s t o c))
        (turns [(.handler 0, 5)] ++ [(.writer 1, .ok), (.writer 1, .ioError), (.writer 1, .ok)] ++
          turns [(.handler 1, 3)])).any
        (fun cfg' => decide (cfg'.shared.shared.activeLaneWriters = []))) = true := by
    decide +kernel
  obtain ⟨cfg, hto, hnext⟩ := Config.reaches_of_runIf_any (fun s t o c h =>
    show t ∈ laneTasks ∧ missesNone s t o c = true by simpa using h) hrun
  obtain ⟨hfailed, hnext⟩ := Bool.and_eq_true_iff.1 hnext
  obtain ⟨cfg', hto', hends⟩ := Config.reaches_of_runIf_any (fun s t o c h =>
    show t ∈ laneTasks ∧ missesNone s t o c = true ∧ opensNone s t o c = true by simpa using h)
    hnext
  obtain ⟨hbefore, hothers⟩ := hto.ofTasks respectsEnd_of_missesNone
  have hafter : RunsTo siblings (fun s t o c => RespectsEnd s t o c ∧ NoOpen s t o c) cfg cfg' := by
    refine (hto'.ofTasks fun s t o c hsame ht h => ⟨?_, ?_⟩).1
    · exact respectsEnd_of_missesNone s t o c (fun u hu => (hsame u hu).trans (hothers u hu)) ht h.1
    · rintro m n b rfl
      cases h.2
  exact ⟨cfg, cfg', hbefore, of_decide_eq_true hfailed, hafter, hends,
    failure_kept _ _ _ _ hbefore hafter (of_decide_eq_true hfailed)⟩

end Metra.Server
