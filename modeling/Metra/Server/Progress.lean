import Metra.Server.Baseline

/-!
# Nobody waits forever

A task waits for a lock, for the writer task that it has spawned, or for being spawned
itself.  Whoever is inside the checkpoint lock does not wait for anything, and whoever is
inside the finalize lock waits for the checkpoint lock only.

* `returned_of_stuck` — **when no task can go on, all handlers have returned**, wherever a
  run has led.
-/

namespace Metra.Server

open Interleave

/-- Whatever is not a task of a stream has not moved. -/
def Setup.OthersIdle (setup : Setup) (s : Tracked Task Point State) : Prop :=
  ∀ u, setup.streams u.stream = none → s.point u = startPoint u

section

variable {setup : Setup} {s : Tracked Task Point State} {t u : Task} {stream : LaneStream}
  {o : Op} {c : Choice} {r : o.Reply} {s' : State} {pt : Point}

theorem Setup.OthersIdle.step (h : setup.OthersIdle s)
    (hstream : setup.streams t.stream = some stream) :
    setup.OthersIdle (moved s t pt s') := by
  intro u hu
  have hne : u ≠ t := by
    rintro rfl
    rw [hstream] at hu
    cases hu
  rw [moved_point_of_ne hne]
  exact h u hu

/-! ## What a task may wait for -/

/-- The operations that may have to wait. -/
theorem waits_of_exec {s : State} (h : exec t o .ok s = none) :
    (∃ kind, o = .lock kind ∧ (s.locks kind).lock t = none) ∨
      (o = .awaitWriter ∧ ∀ args, s.writers t.stream ≠ .running args) ∨
      o = .joinWriter ∧ ∀ result, s.writers t.stream ≠ .finished result := by
  cases o with
  | lock kind => exact .inl ⟨kind, rfl, Option.map_eq_none_iff.1 h⟩
  | awaitWriter =>
    refine .inr (.inl ⟨rfl, fun args hw => ?_⟩)
    simp only [exec, hw] at h
    cases h
  | joinWriter =>
    refine .inr (.inr ⟨rfl, fun result hw => ?_⟩)
    simp only [exec, hw] at h
    cases h
  | markRunning m n b =>
    simp only [exec] at h
    split at h <;> cases h
  | tryAcquireLaneWriter lane =>
    simp only [exec] at h
    split at h <;> cases h
  | _ => cases h

/-- Who waits for a lock waits for somebody inside. -/
theorem holder_of_waiting (hlocks : LocksAgree s) {kind : LockKind}
    (hwanted : (s.point t).stage kind = .wanted)
    (hwaits : (s.shared.locks kind).lock t = none) : ∃ u, (s.point u).stage kind = .inside := by
  have hstage := hlocks.stage t kind
  rw [hwanted] at hstage
  obtain ⟨m, hm⟩ := hstage.1
  by_contra hnone
  push Not at hnone
  have hfree : ∀ u, ¬ (s.shared.locks kind).Holds u := by
    intro u hu
    have hat := hlocks.stage u kind
    cases hst : (s.point u).stage kind with
    | out =>
      rw [hst] at hat
      exact not_holds_of_clone hat hu
    | wanted =>
      rw [hst] at hat
      exact hat.2 hu
    | inside => exact hnone u hst
  have htaken := NamedLock.lock_isSome ⟨m, hm⟩ hfree (hlocks.wf kind)
  rw [hwaits] at htaken
  cases htaken

/-- Inside the checkpoint lock a task does not wait for anything. -/
theorem not_waits_of_checkpoint (h : Enabled setup t pt o) (hinside : pt.checkpoint = .inside) :
    (∀ kind, o ≠ .lock kind) ∧ o ≠ .awaitWriter ∧ o ≠ .joinWriter := by
  refine ⟨?_, ?_, ?_⟩
  · rintro kind rfl
    cases h <;> cases hinside
  · rintro rfl
    cases h
    cases hinside
  · rintro rfl
    cases h
    cases hinside

/-- Inside the finalize lock it waits for the checkpoint lock only. -/
theorem not_waits_of_finalize (h : Enabled setup t pt o) (hinside : pt.finalize = .inside) :
    o ≠ .lock .finalize ∧ o ≠ .awaitWriter ∧ o ≠ .joinWriter := by
  refine ⟨?_, ?_, ?_⟩
  · rintro rfl
    cases h
    cases hinside
  · rintro rfl
    cases h
    cases hinside
  · rintro rfl
    cases h
    cases hinside

theorem handler_of_join (h : Enabled setup t pt .joinWriter) :
    ∃ i resume, t = .handler i ∧ pt = .free (.draining resume) := by
  cases h
  exact ⟨_, _, rfl, rfl⟩

theorem writer_of_await (h : Enabled setup t pt .awaitWriter) : ∃ i, t = .writer i := by
  cases h
  exact ⟨_, rfl⟩

/-- Who has returned is outside of both locks. -/
theorem TaskReturned.outside (h : TaskReturned setup t pt)
    (hstream : setup.streams t.stream = some stream) (kind : LockKind) : pt.stage kind = .out := by
  rcases h with hnone | h
  · rw [hstream] at hnone
    cases hnone
  · cases t with
    | handler i =>
      rcases h with rfl | ⟨-, rfl | ⟨b, rfl⟩⟩ <;> cases kind <;> rfl
    | writer i =>
      have hdone : pt = .free .done := h
      rw [hdone]
      cases kind <;> rfl

end

/-! ## Stuck pools -/

section

variable {setup : Setup}
  {cfg : Config Task Op Op.Reply (Tracked Task Point State) (Except String Unit)}

/-- No task can go on. -/
def Stuck (cfg : Config Task Op Op.Reply (Tracked Task Point State) (Except String Unit)) : Prop :=
  ∀ t o k, cfg.pool t = .act o k → exec t o .ok cfg.shared.shared = none

/-- Whoever is inside a lock is about to perform an operation. -/
theorem acts_of_inside
    (hobedient : cfg.Obedient (protocol setup) fun t _ pt => TaskReturned setup t pt)
    (hothers : setup.OthersIdle cfg.shared) {u : Task} {kind : LockKind}
    (hinside : (cfg.shared.point u).stage kind = .inside) :
    ∃ o k, cfg.pool u = .act o k ∧ Enabled setup u (cfg.shared.point u) o := by
  cases hstream : setup.streams u.stream with
  | none =>
    rw [hothers u hstream] at hinside
    cases u <;> cases kind <;> cases hinside
  | some stream =>
    cases hpool : cfg.pool u with
    | ret a =>
      have hout := (hobedient.returned hpool).outside hstream kind
      rw [hinside] at hout
      cases hout
    | act o k => exact ⟨o, k, rfl, (hobedient.enabled hpool).2⟩

variable
  (hobedient : cfg.Obedient (protocol setup) fun t _ pt => TaskReturned setup t pt)
  (hbase : Baseline setup cfg.shared) (hothers : setup.OthersIdle cfg.shared) (hstuck : Stuck cfg)

include hobedient hbase hothers hstuck

/-- When no task can go on, nobody waits for the checkpoint lock. -/
theorem not_waiting_checkpoint {t : Task} {o : Op} {k : o.Reply → Prog Op Op.Reply _}
    (hpool : cfg.pool t = .act o k) : o ≠ .lock .checkpoint := by
  rintro rfl
  have hwanted := stage_of_lock (hobedient.enabled hpool).2
  obtain ⟨u, hinside⟩ := holder_of_waiting hbase.locks hwanted
    (Option.map_eq_none_iff.1 (hstuck t _ k hpool))
  obtain ⟨o', k', hpool', henabled'⟩ := acts_of_inside hobedient hothers hinside
  obtain ⟨hlock, hawait, hjoin⟩ := not_waits_of_checkpoint henabled' hinside
  rcases waits_of_exec (hstuck u o' k' hpool') with ⟨kind, ho, -⟩ | ⟨ho, -⟩ | ⟨ho, -⟩
  · exact hlock kind ho
  · exact hawait ho
  · exact hjoin ho

/-- When no task can go on, nobody waits for a lock. -/
theorem not_waiting_lock {t : Task} {o : Op} {k : o.Reply → Prog Op Op.Reply _}
    (hpool : cfg.pool t = .act o k) (kind : LockKind) : o ≠ .lock kind := by
  cases kind with
  | checkpoint => exact not_waiting_checkpoint hobedient hbase hothers hstuck hpool
  | finalize =>
    rintro rfl
    have hwanted := stage_of_lock (hobedient.enabled hpool).2
    obtain ⟨u, hinside⟩ := holder_of_waiting hbase.locks hwanted
      (Option.map_eq_none_iff.1 (hstuck t _ k hpool))
    obtain ⟨o', k', hpool', henabled'⟩ := acts_of_inside hobedient hothers hinside
    obtain ⟨hlock, hawait, hjoin⟩ := not_waits_of_finalize henabled' hinside
    rcases waits_of_exec (hstuck u o' k' hpool') with ⟨kind, rfl, -⟩ | ⟨ho, -⟩ | ⟨ho, -⟩
    · cases kind with
      | finalize => exact hlock rfl
      | checkpoint => exact not_waiting_checkpoint hobedient hbase hothers hstuck hpool' rfl
    · exact hawait ho
    · exact hjoin ho

/-- A writer that has been spawned has ended when no task can go on. -/
theorem not_running {i : Nat} {stream : LaneStream} (hstream : setup.streams i = some stream)
    (args : WriterArgs) : cfg.shared.shared.writers i ≠ .running args := by
  intro hw
  obtain ⟨-, -, hphase⟩ := (hbase.writers i stream hstream).running args hw
  cases hpool : cfg.pool (.writer i) with
  | ret a =>
    rcases hobedient.returned hpool with hnone | hdone
    · have hsome : setup.streams i = none := hnone
      rw [hstream] at hsome
      cases hsome
    · have hpt : cfg.shared.point (.writer i) = .free .done := hdone
      rw [hpt] at hphase
      rcases hphase with hunborn | ⟨_, _, _, _, hwriting, -⟩ | hflushed
      · cases hunborn
      · cases hwriting
      · cases hflushed
  | act o k =>
    rcases waits_of_exec (hstuck (.writer i) o k hpool) with ⟨kind, ho, -⟩ | ⟨-, hnot⟩ | ⟨rfl, -⟩
    · exact not_waiting_lock hobedient hbase hothers hstuck hpool kind ho
    · exact hnot args hw
    · obtain ⟨j, resume, hj, -⟩ := handler_of_join (hobedient.enabled hpool).2
      cases hj

/-- **When no task can go on, all handlers have returned.** -/
theorem returned_of_stuck (i : Nat) : ∃ a, cfg.pool (.handler i) = .ret a := by
  cases hpool : cfg.pool (.handler i) with
  | ret a => exact ⟨a, rfl⟩
  | act o k =>
    exfalso
    obtain ⟨⟨stream, hstream⟩, henabled⟩ := hobedient.enabled hpool
    rcases waits_of_exec (hstuck (.handler i) o k hpool) with ⟨kind, ho, -⟩ | ⟨rfl, -⟩ | ⟨rfl, hnot⟩
    · exact not_waiting_lock hobedient hbase hothers hstuck hpool kind ho
    · obtain ⟨j, hj⟩ := writer_of_await henabled
      cases hj
    · obtain ⟨j, resume, hj, hpt⟩ := handler_of_join henabled
      have hagrees := hbase.writers i stream hstream
      rw [hpt] at hagrees
      cases hw : cfg.shared.shared.writers i with
      | absent => exact (hagrees.unborn hw).2 resume rfl
      | running args => exact not_running hobedient hbase hothers hstuck hstream args hw
      | finished result => exact hnot result hw

end

end Metra.Server
