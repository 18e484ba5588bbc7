import Metra.Receive.Upload
import Metra.Server.Baseline

/-!
# Whether `Completed` is final

The status of a transfer is written when a stream is opened, when the guarded
section finds lanes missing, by both single-lane finalizers and when a stream
fails; only the guarded section looks for `Completed` first.

* `completed_absorbing` — in a run in which no stream is opened once the transfer
  is completed, and in which it is completed only while no other task has looked
  at the status and is still to write another one, `Completed` stays;
* `reopened_after_completed` — the run of a second open, after which it does not.
-/

namespace Metra.Server

open Interleave

/-- The status of the transfer in memory. -/
abbrev statusOf
    (cfg : Config Task Op Op.Reply (Tracked Task Point State) (Except String Unit)) :
    TransferStatus :=
  cfg.shared.shared.transfer.status

/-! ## The condition -/

/-- The task may still write another status than `Completed` without looking at the
status again. -/
def Setup.Pending (setup : Setup) (stream : LaneStream) : Phase → Prop
  | .failing | .deciding | .incomplete | .refused => True
  | .ready => setup.discards = false ∧ 0 < setup.guards
  | .checking g => 0 < g
  | .opened _ | .presizing .. | .presized _ | .accepted _ | .receiving .. | .draining _
  | .received .. =>
    isStriped stream.request = false ∧ setup.discards = false ∧ 0 < setup.guards
  | _ => False

/-- No task is still to write another status than `Completed`, but for `t`. -/
def Setup.Settled (setup : Setup) (s : Tracked Task Point State) (t : Task) : Prop :=
  ∀ u, u ≠ t → ∀ stream, setup.streams u.stream = some stream →
    ¬ setup.Pending stream (s.point u).phase

/-- The steps that respect `Completed`: no stream is marked as running when the
transfer is completed, and it is not completed while another status is about to be
written. -/
def Setup.RespectsCompleted (setup : Setup) (s : Tracked Task Point State) (t : Task) (o : Op)
    (_ : Choice) : Prop :=
  (∀ m n b, o = .markRunning m n b → s.shared.transfer.status ≠ .completed) ∧
    ∀ b, o = .setStatus .completed b → setup.Settled s t

/-! ## The invariant -/

/-- Once the transfer is completed, nobody is about to write another status. -/
def Setup.CompletedSettled (setup : Setup) (s : Tracked Task Point State) : Prop :=
  s.shared.transfer.status = .completed → ∀ u stream, setup.streams u.stream = some stream →
    ¬ setup.Pending stream (s.point u).phase

section

variable {setup : Setup} {s : Tracked Task Point State} {t : Task} {stream : LaneStream} {o : Op}
  {c : Choice} {r : o.Reply} {s' : State} {pt : Point} {ph : Phase}

/-- A task gets ready to write another status only by opening its stream or by having
looked at the status. -/
theorem pending_of_moves (h : Moves setup stream t pt o r ph) (hp : setup.Pending stream ph) :
    setup.Pending stream pt.phase ∨ (∃ m n b, o = .markRunning m n b) ∨ o = .checkFinalized ∨
      o = .checkRunning := by
  cases h with
  | opened => exact .inr (.inl ⟨_, _, _, rfl⟩)
  | openedDiscard => exact .inr (.inl ⟨_, _, _, rfl⟩)
  | deciding => exact .inr (.inr (.inl rfl))
  | failing => exact .inr (.inr (.inr rfl))
  | presizing => exact .inl hp
  | presized => exact .inl hp
  | acceptedPresized => exact .inl hp
  | accepted => exact .inl hp
  | receiving => exact .inl hp
  | draining => exact .inl hp
  | received => exact .inl hp
  | incomplete => exact .inl trivial
  | ready => exact .inl trivial
  | @readySingle _ _ ph hstriped hph =>
    refine .inl ?_
    cases ph with
    | received _ _ => exact ⟨hstriped, hp⟩
    | accepted _ => exact absurd hp.1 (by simp [hph.1])
    | _ => exact hph.elim
  | checking hdisk => exact .inl ⟨hdisk, hp⟩
  | passed => exact .inl (Nat.succ_pos _)
  | refused => exact .inl (Nat.succ_pos _)
  | _ => exact hp.elim

/-- Having looked at the status makes a difference only when it is not `Completed`. -/
theorem not_pending_of_look (hlook : o = .checkFinalized ∨ o = .checkRunning)
    (henabled : Enabled setup t pt o) (hexec : exec t o c s.shared = some (r, s'))
    (hc : s.shared.transfer.status = .completed) :
    ¬ setup.Pending stream (advance setup stream pt o r).phase := by
  rcases hlook with rfl | rfl
  · cases hexec
    simp [advance, hc, Setup.Pending, Point.goto]
  · cases hexec
    simp [advance, hc, Setup.Pending, Point.goto]

theorem completedSettled_step (hInv : setup.CompletedSettled s)
    (hstream : setup.streams t.stream = some stream)
    (henabled : Enabled setup t (s.point t) o) (hallowed : setup.RespectsCompleted s t o c)
    (hexec : exec t o c s.shared = some (r, s')) :
    setup.CompletedSettled (moved s t (advance setup stream (s.point t) o r) s') := by
  intro hc u stream' hstream'
  rw [moved_shared] at hc
  -- the status is `Completed` already, or this step makes it so
  have hcases : s.shared.transfer.status = .completed ∨ ∃ b, o = .setStatus .completed b := by
    rcases status_of_exec hexec with heq | ⟨m, n, b, rfl, heq⟩ | ⟨st, b, rfl, heq⟩
    · rw [heq] at hc
      exact .inl hc
    · rw [heq] at hc
      cases hc
    · rw [heq] at hc
      subst hc
      exact .inr ⟨b, rfl⟩
  by_cases hu : u = t
  · subst hu
    rw [moved_point_self]
    obtain rfl := Option.some.inj (hstream'.symm.trans hstream)
    rcases hcases with hbefore | ⟨b, rfl⟩
    · have hnot := hInv hbefore u stream' hstream'
      intro hp
      rcases henabled.moves hstream' r with hsame | hmoves
      · rw [hsame] at hp
        exact hnot hp
      · rcases pending_of_moves hmoves hp with h | ⟨m, n, b, rfl⟩ | hlook
        · exact hnot h
        · exact hallowed.1 m n b rfl hbefore
        · exact not_pending_of_look hlook henabled hexec hbefore hp
    · exact fun hp => hp.elim
  · rw [moved_point_of_ne hu]
    rcases hcases with hbefore | ⟨b, rfl⟩
    · exact hInv hbefore u stream' hstream'
    · exact hallowed.2 b rfl u hu stream' hstream'

/-- An allowed step does not take a transfer out of `Completed`. -/
theorem completed_step (hInv : setup.CompletedSettled s)
    (hstream : setup.streams t.stream = some stream)
    (henabled : Enabled setup t (s.point t) o) (hallowed : setup.RespectsCompleted s t o c)
    (hexec : exec t o c s.shared = some (r, s')) (hc : s.shared.transfer.status = .completed) :
    s'.transfer.status = .completed := by
  rcases status_of_exec hexec with heq | ⟨m, n, b, rfl, -⟩ | ⟨st, b, rfl, heq⟩
  · rw [heq]
    exact hc
  · exact absurd hc (hallowed.1 m n b rfl)
  · rw [heq]
    have hnot := hInv hc t stream hstream
    revert hnot henabled
    generalize s.point t = pt
    intro henabled hnot
    cases henabled with
    | setIncomplete => exact absurd trivial hnot
    | refuse => exact absurd trivial hnot
    | fail => exact absurd trivial hnot
    | completeDiscarded => rfl
    | complete => rfl

end

/-- **`Completed` is absorbing** in runs that respect it. -/
theorem completed_absorbing (ctx : Context) (transfer : TransferSummary)
    (streams : Nat → Option LaneStream) (disk : Disk)
    {cfg cfg' : Config Task Op Op.Reply (Tracked Task Point State) (Except String Unit)}
    (hbefore : RunsTo (unreliable ctx transfer streams)
      (unreliable ctx transfer streams).RespectsCompleted
      (starting (unreliable ctx transfer streams) transfer disk) cfg)
    (hafter : RunsTo (unreliable ctx transfer streams)
      (unreliable ctx transfer streams).RespectsCompleted cfg cfg')
    (hc : statusOf cfg = .completed) : statusOf cfg' = .completed := by
  have hInv : ∀ {cfg'' : Config Task Op Op.Reply (Tracked Task Point State) (Except String Unit)},
      RunsTo (unreliable ctx transfer streams) (unreliable ctx transfer streams).RespectsCompleted
        (starting (unreliable ctx transfer streams) transfer disk) cfg'' →
      cfg''.Obedient (protocol (unreliable ctx transfer streams))
          (fun t _ pt => TaskReturned (unreliable ctx transfer streams) t pt) ∧
        Baseline (unreliable ctx transfer streams) cfg''.shared ∧
        (unreliable ctx transfer streams).CompletedSettled cfg''.shared := by
    intro cfg'' hreaches
    refine reaches_invariant trivial ?_ (sameTransfer_refl transfer) ?_ hreaches
    · intro s t stream o c r s' _ hInv hstream henabled hallowed hexec
      exact completedSettled_step hInv hstream henabled hallowed hexec
    · rintro - (u | u) stream - h <;> exact h.elim
  induction hafter with
  | refl => exact hc
  | step hto hpool hallowed hexec ih =>
    obtain ⟨hobedient, -, hsettled⟩ := hInv (hbefore.trans hto)
    obtain ⟨⟨stream, hstream⟩, henabled⟩ := hobedient.enabled hpool
    obtain ⟨s', hexec', rfl⟩ := Machine.track_exec_eq_some hexec
    exact completed_step hsettled hstream henabled hallowed hexec' ih

/-! ## The run that does not respect it -/

namespace Scenario

/-- Where a transfer has its files. -/
def ctx : Context :=
  ⟨Metra.Sample.crypto, "data/t/u", "data/t/u/a.bin.part", "data/t/u/a.bin", "a.part.meta.json",
    "metra-transfers.sqlite"⟩

/-- A transfer of a source. -/
def transfer (source : List UInt8) (overwrite : Bool) (status : TransferStatus) :
    TransferSummary where
  transferId := Metra.Sample.transferId
  tenantId := "t"
  userId := "u"
  destinationUri := "file:///a.bin"
  fileName := "a.bin"
  fileSizeBytes := source.length
  overwrite := overwrite
  immutableDestination := false
  status := status
  resumeChunkSizeBytes := resumeChunkSizeBytes
  bytesTransferred := 0

/-- Some bytes in one raw frame, and nothing for no bytes. -/
def frame (bytes : List UInt8) : List UInt8 :=
  if bytes = [] then []
  else Bytes.toLeBytes 4 bytes.length ++ Metra.Sample.nonce.bytes ++ bytes

/-- The client's stream for one lane of a source. -/
def lane (source : List UInt8) (totalLanes i : Nat) : LaneStream where
  request :=
    { transferId := Metra.Sample.transferId, fileSizeBytes := source.length, fileName := "a.bin"
      resumeChunkSizeBytes := resumeChunkSizeBytes, laneIndex := i, totalLanes := totalLanes
      rangeStart := laneStart source.length totalLanes i
      rangeEndExclusive := laneStart source.length totalLanes (i + 1)
      payloadCodec := "raw-v1", receiveWritePipelineDepth := 4 }
  incoming resume := frame (Bytes.slice source resume (laneStart source.length totalLanes (i + 1)))

/-- Nothing on disk. -/
def noFiles : Disk := ⟨fun _ => ⟨[], []⟩, 0, none, none, [], []⟩

/-- A started server with some streams, without the points. -/
def server (stored : TransferSummary) (disk : Disk) (streams : List LaneStream) :
    Config Task Op Op.Reply State (Except String Unit) :=
  ⟨start stored disk, program ctx fun i => streams[i]?⟩

/-- Tasks that perform their next operations in turn, none of which fails. -/
def turns {α : Type} (l : List (α × Nat)) : List (α × Choice) :=
  l.flatMap fun turn => List.replicate turn.2 (turn.1, .ok)

end Scenario

open Scenario in
/-- A stream that is opened twice: after the first was received and the transfer
completed, the second marks it as running again. -/
theorem reopened_after_completed :
    ∃ cfg cfg', Config.Reaches machine (fun _ _ _ _ => True)
        (server (transfer [7, 8] true .queued) noFiles [lane [7, 8] 1 0, lane [7, 8] 1 0]) cfg ∧
      decide (cfg.shared.transfer.status = .completed) = true ∧
      Config.Reaches machine (fun _ _ _ _ => True) cfg cfg' ∧
      decide (cfg'.shared.transfer.status = .running) = true :=
  Config.exists_run_then (fun _ _ _ _ => true)
    (turns [(.handler 0, 10), (.writer 0, 6), (.handler 0, 12)]) (turns [(.handler 1, 5)])
    (fun _ _ _ _ _ => trivial) (by decide +kernel) (by decide +kernel)

namespace Scenario

/-- Two streams of one lane. -/
def twice : Setup :=
  unreliable ctx (transfer [7, 8] true .queued) fun i => [lane [7, 8] 1 0, lane [7, 8] 1 0][i]?

/-- The task has not begun, or has ended as a writer. -/
def isCalm : Phase → Bool
  | .idle | .unborn | .done => true
  | _ => false

/-- No stream is marked as running once the transfer is completed, and it is completed while all
other tasks are calm. -/
def completesOnce (s : Tracked Task Point State) (t : Task) (o : Op) (_ : Choice) : Bool :=
  match o with
  | .markRunning .. => decide (s.shared.transfer.status ≠ .completed)
  | .setStatus .completed _ => [.handler 0, .writer 0, .handler 1, .writer 1].all fun u =>
      decide (u = t) || isCalm (s.point u).phase
  | _ => true

theorem respectsCompleted_of_completesOnce (s : Tracked Task Point State) (t : Task) (o : Op)
    (c : Choice) (h : completesOnce s t o c = true) : twice.RespectsCompleted s t o c := by
  constructor
  · rintro m n b rfl
    exact of_decide_eq_true h
  · rintro b rfl u hu stream hstream hpending
    have hmem : u ∈ [Task.handler 0, .writer 0, .handler 1, .writer 1] := by
      have hlt : u.stream < 2 := by
        by_contra hge
        rw [show twice.streams u.stream = none from
          List.getElem?_eq_none (Nat.le_of_not_lt hge)] at hstream
        cases hstream
      obtain i | i := u <;> obtain rfl | rfl : i = 0 ∨ i = 1 := by
        have : i < 2 := hlt
        omega
      all_goals simp
    have hcalm := List.all_eq_true.1 h u hmem
    rw [decide_eq_false hu, Bool.false_or] at hcalm
    revert hcalm hpending
    cases (s.point u).phase <;> simp [isCalm, Setup.Pending]

end Scenario

open Scenario in
/-- The transfer is uploaded and completed; another stream of its lane is opened later, and has
got its lease. -/
theorem completed_absorbing_sample :
    ∃ cfg cfg', RunsTo twice twice.RespectsCompleted
        (starting twice (transfer [7, 8] true .queued) noFiles) cfg ∧
      RunsTo twice twice.RespectsCompleted cfg cfg' ∧
      decide (cfg'.shared.shared.activeLaneWriters = [0]) = true ∧
      statusOf cfg' = .completed := by
  have hrun : ((starting twice (transfer [7, 8] true .queued) noFiles).runIf
      (machine.track (protocol twice)) completesOnce
      (turns [(.handler 0, 10), (.writer 0, 6), (.handler 0, 12)])).any
      (fun cfg => decide (statusOf cfg = .completed) &&
        (cfg.runIf (machine.track (protocol twice)) completesOnce (turns [(.handler 1, 4)])).any
          (fun cfg' => decide (cfg'.shared.shared.activeLaneWriters = [0]))) = true := by
    decide +kernel
  obtain ⟨cfg, hto, hnext⟩ :=
    Config.reaches_of_runIf_any respectsCompleted_of_completesOnce hrun
  obtain ⟨hcompleted, hnext⟩ := Bool.and_eq_true_iff.1 hnext
  obtain ⟨cfg', hto', hlease⟩ :=
    Config.reaches_of_runIf_any respectsCompleted_of_completesOnce hnext
  exact ⟨cfg, cfg', hto, hto', hlease,
    completed_absorbing _ _ _ _ hto hto' (of_decide_eq_true hcompleted)⟩

end Metra.Server
