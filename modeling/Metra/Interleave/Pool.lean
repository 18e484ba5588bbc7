import Mathlib.Data.Finset.Basic
import Mathlib.Order.WellFounded
import Metra.Interleave.Prog

/-!
# Pools of interleaved programs

Every task has a program; a step lets one task perform its next operation on the
shared state.  Runs may be restricted to steps of a certain kind.

* `Config.Reaches` — the configurations that runs lead to, `Config.run` — the one
  that a given schedule leads to;
* `wellFounded_next`, `exists_stop` — **finitely many tasks cannot step forever**, whatever the
  operations and the schedule.
-/

namespace Interleave

variable {Task Op : Type} {Reply : Op → Type} {Choice State α : Type}

/-- The shared state and what every task has still to do. -/
structure Config (Task Op : Type) (Reply : Op → Type) (State α : Type) where
  shared : State
  pool : Task → Prog Op Reply α

namespace Config

variable [DecidableEq Task] {M : Machine Task Op Reply Choice State}

/-- The tasks that do not step stay where they are. -/
theorem pool_update_of_ne {s : State} {pool : Task → Prog Op Reply α} {t u : Task}
    {p : Prog Op Reply α} (h : u ≠ t) :
    (⟨s, Function.update pool t p⟩ : Config Task Op Reply State α).pool u = pool u :=
  Function.update_of_ne h _ _

/-- `t` performs its next operation. -/
def step? (M : Machine Task Op Reply Choice State) (cfg : Config Task Op Reply State α)
    (t : Task) (c : Choice) : Option (Config Task Op Reply State α) :=
  match cfg.pool t with
  | .ret _ => none
  | .act o k => (M.exec t o c cfg.shared).map fun out =>
      ⟨out.2, Function.update cfg.pool t (k out.1)⟩

/-- Run a schedule; `none` when a step of it cannot happen or does not pass a test. -/
def runIf (M : Machine Task Op Reply Choice State) (test : State → Task → Op → Choice → Bool) :
    List (Task × Choice) → Config Task Op Reply State α → Option (Config Task Op Reply State α)
  | [], cfg => some cfg
  | (t, c) :: rest, cfg =>
    match cfg.pool t with
    | .ret _ => none
    | .act o _ =>
      if test cfg.shared t o c then (cfg.step? M t c).bind (runIf M test rest) else none

/-- Run a schedule; `none` when a step of it cannot happen. -/
def run (M : Machine Task Op Reply Choice State) (sched : List (Task × Choice))
    (cfg : Config Task Op Reply State α) : Option (Config Task Op Reply State α) :=
  cfg.runIf M (fun _ _ _ _ => true) sched

/-- The operation that `t` performs next passes a test. -/
def nextIs (test : Op → Bool) (t : Task) (cfg : Config Task Op Reply State α) : Bool :=
  match cfg.pool t with
  | .ret _ => false
  | .act o _ => test o

omit [DecidableEq Task] in
theorem of_nextIs {test : Op → Bool} {t : Task} {cfg : Config Task Op Reply State α}
    (h : cfg.nextIs test t = true) : ∃ o k, cfg.pool t = .act o k ∧ test o = true := by
  unfold nextIs at h
  split at h
  · cases h
  · rename_i o k hpool
    exact ⟨o, k, hpool, h⟩

/-- The configurations that runs of allowed steps lead to. -/
inductive Reaches (M : Machine Task Op Reply Choice State)
    (allowed : State → Task → Op → Choice → Prop) (cfg : Config Task Op Reply State α) :
    Config Task Op Reply State α → Prop where
  | refl : Reaches M allowed cfg cfg
  | step {cfg' : Config Task Op Reply State α} {t : Task} {o : Op}
      {k : Reply o → Prog Op Reply α} {c : Choice} {r : Reply o} {s : State}
      (h : Reaches M allowed cfg cfg') (hpool : cfg'.pool t = .act o k)
      (hallowed : allowed cfg'.shared t o c)
      (hexec : M.exec t o c cfg'.shared = some (r, s)) :
      Reaches M allowed cfg ⟨s, Function.update cfg'.pool t (k r)⟩

variable {allowed : State → Task → Op → Choice → Prop}
  {cfg cfg' cfg'' : Config Task Op Reply State α}

theorem Reaches.trans (h : Reaches M allowed cfg cfg') (h' : Reaches M allowed cfg' cfg'') :
    Reaches M allowed cfg cfg'' := by
  induction h' with
  | refl => exact h
  | step _ hpool hallowed hexec ih => exact .step ih hpool hallowed hexec

theorem Reaches.mono {other : State → Task → Op → Choice → Prop}
    (h : Reaches M allowed cfg cfg') (hall : ∀ s t o c, allowed s t o c → other s t o c) :
    Reaches M other cfg cfg' := by
  induction h with
  | refl => exact .refl
  | step _ hpool hallowed hexec ih => exact .step ih hpool (hall _ _ _ _ hallowed) hexec

/-- Who has returned stays where it is. -/
theorem Reaches.returned (h : Reaches M allowed cfg cfg') {t : Task} {a : α}
    (hret : cfg.pool t = .ret a) : cfg'.pool t = .ret a := by
  induction h with
  | refl => exact hret
  | @step _ u _ _ _ _ _ _ hpool _ _ ih =>
    have hne : t ≠ u := by
      rintro rfl
      rw [ih] at hpool
      cases hpool
    rw [pool_update_of_ne hne]
    exact ih

/-- What a task may still do is of the kind that all it may do was of at first. -/
theorem Reaches.all (h : Reaches M allowed cfg cfg') {t : Task} {kind : Op → Prop}
    (hkind : (cfg.pool t).All kind) : (cfg'.pool t).All kind := by
  induction h with
  | refl => exact hkind
  | @step _ u _ _ _ r _ _ hpool _ _ ih =>
    by_cases hu : t = u
    · subst hu
      rw [hpool] at ih
      simpa using ih.2 r
    · rw [pool_update_of_ne hu]
      exact ih

theorem step?_eq_some {t : Task} {c : Choice} (h : cfg.step? M t c = some cfg') :
    ∃ o k r s, cfg.pool t = .act o k ∧ M.exec t o c cfg.shared = some (r, s) ∧
      cfg' = ⟨s, Function.update cfg.pool t (k r)⟩ := by
  unfold step? at h
  split at h
  · cases h
  · rename_i o k hpool
    obtain ⟨⟨r, s⟩, hexec, rfl⟩ := Option.map_eq_some_iff.1 h
    exact ⟨o, k, r, s, hpool, hexec, rfl⟩

/-- What a schedule of allowed steps runs to is reached. -/
theorem reaches_of_runIf {test : State → Task → Op → Choice → Bool}
    (htest : ∀ s t o c, test s t o c = true → allowed s t o c) {sched : List (Task × Choice)}
    (h : cfg.runIf M test sched = some cfg') : Reaches M allowed cfg cfg' := by
  induction sched generalizing cfg with
  | nil => cases h; exact .refl
  | cons step rest ih =>
    simp only [runIf] at h
    split at h
    · cases h
    · rename_i o k hpool
      split at h
      · rename_i hpass
        obtain ⟨next, hstep, hrest⟩ := Option.bind_eq_some_iff.1 h
        obtain ⟨o', k', r, s, hpool', hexec, rfl⟩ := step?_eq_some hstep
        rw [hpool] at hpool'
        cases hpool'
        exact (Reaches.step .refl hpool (htest _ _ _ _ hpass) hexec).trans (ih hrest)
      · cases h

theorem reaches_of_run {sched : List (Task × Choice)} (h : cfg.run M sched = some cfg') :
    Reaches M (fun _ _ _ _ => True) cfg cfg' := reaches_of_runIf (fun _ _ _ _ _ => trivial) h

/-- Where a tested schedule leads, when that is known to pass a test of its own. -/
theorem reaches_of_runIf_any {allowed : State → Task → Op → Choice → Prop}
    {test : State → Task → Op → Choice → Bool} {sched : List (Task × Choice)}
    {final : Config Task Op Reply State α → Bool}
    (htest : ∀ s t o c, test s t o c = true → allowed s t o c)
    (h : (cfg.runIf M test sched).any final = true) :
    ∃ cfg', Reaches M allowed cfg cfg' ∧ final cfg' = true := by
  cases hrun : cfg.runIf M test sched with
  | none =>
    rw [hrun] at h
    cases h
  | some cfg' =>
    rw [hrun] at h
    exact ⟨cfg', reaches_of_runIf htest hrun, h⟩

/-- A schedule, and a tested one after it. -/
theorem exists_run_then {allowed : State → Task → Op → Choice → Prop}
    (test : State → Task → Op → Choice → Bool) (sched sched' : List (Task × Choice))
    {middle final : Config Task Op Reply State α → Bool}
    (htest : ∀ s t o c, test s t o c = true → allowed s t o c)
    (h : (cfg.run M sched).any middle = true)
    (h' : ((cfg.run M sched).bind (runIf M test sched')).any final = true) :
    ∃ cfg' cfg'', Reaches M (fun _ _ _ _ => True) cfg cfg' ∧ middle cfg' = true ∧
      Reaches M allowed cfg' cfg'' ∧ final cfg'' = true := by
  cases hrun : cfg.run M sched with
  | none =>
    rw [hrun] at h
    cases h
  | some cfg' =>
    rw [hrun] at h h'
    obtain ⟨cfg'', hthen, hfinal⟩ := reaches_of_runIf_any htest h'
    exact ⟨cfg', cfg'', reaches_of_run hrun, h, hthen, hfinal⟩

/-! ## Runs end -/

/-- `cfg'` comes from `cfg` by a step of one of the tasks. -/
def Next (M : Machine Task Op Reply Choice State) (tasks : Finset Task)
    (cfg cfg' : Config Task Op Reply State α) : Prop :=
  ∃ t ∈ tasks, ∃ c, cfg.step? M t c = some cfg'

/-- `q` is what `p` goes on with after one of the replies to its next operation. -/
def Child (q p : Prog Op Reply α) : Prop := ∃ o k r, p = .act o k ∧ q = k r

theorem acc_child (p : Prog Op Reply α) : Acc Child p := by
  induction p with
  | ret a => exact ⟨_, by rintro q ⟨o, k, r, h, -⟩; cases h⟩
  | act o k ih =>
    refine ⟨_, ?_⟩
    rintro q ⟨o', k', r, h, rfl⟩
    cases h
    exact ih r

/-- One of the tasks has moved on to a child of its program. -/
def PoolNext (tasks : Finset Task) (pool' pool : Task → Prog Op Reply α) : Prop :=
  ∃ t ∈ tasks, ∃ q, Child q (pool t) ∧ pool' = Function.update pool t q

/-- By induction on the set of tasks, and for one more task on what it has still to do. -/
theorem acc_poolNext (tasks : Finset Task) :
    ∀ pool : Task → Prog Op Reply α, Acc (PoolNext tasks) pool := by
  induction tasks using Finset.induction_on with
  | empty => exact fun pool => ⟨_, by rintro pool' ⟨t, ht, -⟩; cases ht⟩
  | insert t tasks ht ih =>
    suffices h : ∀ p : Prog Op Reply α, Acc Child p →
        ∀ pool : Task → Prog Op Reply α, Acc (PoolNext tasks) pool → pool t = p →
          Acc (PoolNext (insert t tasks)) pool from
      fun pool => h (pool t) (acc_child _) pool (ih pool) rfl
    intro p hp
    induction hp with
    | intro p _ ihp =>
      intro pool hpool
      induction hpool with
      | intro pool _ ihpool =>
        intro heq
        refine ⟨_, ?_⟩
        rintro pool' ⟨u, hu, q, hchild, rfl⟩
        rcases Finset.mem_insert.1 hu with rfl | hu
        · rw [heq] at hchild
          exact ihp q hchild _ (ih _) (Function.update_self _ _ _)
        · have hne : t ≠ u := by
            rintro rfl
            exact ht hu
          refine ihpool _ ⟨u, hu, q, hchild, rfl⟩ ?_
          rw [Function.update_of_ne hne]
          exact heq

/-- **Finitely many tasks cannot step forever.** -/
theorem wellFounded_next (M : Machine Task Op Reply Choice State) (tasks : Finset Task) :
    WellFounded fun (cfg' cfg : Config Task Op Reply State α) => Next M tasks cfg cfg' := by
  refine Subrelation.wf ?_ (InvImage.wf Config.pool ⟨acc_poolNext tasks⟩)
  rintro cfg' cfg ⟨t, ht, c, hstep⟩
  obtain ⟨o, k, r, s, hpool, -, rfl⟩ := step?_eq_some hstep
  exact ⟨t, ht, k r, ⟨o, k, r, hpool, rfl⟩, rfl⟩

/-- **A run ends** when all tasks but finitely many have returned. -/
theorem exists_stop (M : Machine Task Op Reply Choice State) {tasks : Finset Task}
    {f : Nat → Config Task Op Reply State α}
    (hreturned : ∀ t, t ∉ tasks → ∃ a, (f 0).pool t = .ret a) :
    ∃ n, ∀ t c, (f n).step? M t c ≠ some (f (n + 1)) := by
  by_contra hendless
  push Not at hendless
  have hothers : ∀ n t, t ∉ tasks → ∃ a, (f n).pool t = .ret a := by
    intro n
    induction n with
    | zero => exact hreturned
    | succ n ih =>
      intro t ht
      obtain ⟨u, c, hstep⟩ := hendless n
      obtain ⟨a, ha⟩ := ih t ht
      obtain ⟨o, k, r, s, hpool, -, heq⟩ := step?_eq_some hstep
      have hne : t ≠ u := by
        rintro rfl
        rw [ha] at hpool
        cases hpool
      refine ⟨a, ?_⟩
      rw [heq, pool_update_of_ne hne]
      exact ha
  obtain ⟨_, ⟨n, rfl⟩, hmin⟩ :=
    (wellFounded_next M tasks).has_min (Set.range f) ⟨f 0, 0, rfl⟩
  obtain ⟨t, c, hstep⟩ := hendless n
  refine hmin (f (n + 1)) ⟨n + 1, rfl⟩ ⟨t, ?_, c, hstep⟩
  by_contra ht
  obtain ⟨a, ha⟩ := hothers n t ht
  obtain ⟨o, k, r, s, hpool, -, -⟩ := step?_eq_some hstep
  rw [ha] at hpool
  cases hpool

end Config

end Interleave
