import Metra.Interleave.Pool

/-!
# Protocols of tasks

A `Protocol` says at which point of its work a task may perform which operation
and where the reply takes it.  That a program keeps to a protocol
(`Prog.Obeys`) is a fact about the program alone, for all replies at once.  When
every task of a pool keeps to its protocol, an invariant of the pool needs to be
checked for the operations that the protocols enable, and no longer for programs.

* `Obeys.bind`, `Obeys.tryBind`, `Obeys.orFail` and `Obeys.mono` — the rules for
  programs, and `Prog.Keeps` with its own for the programs that end where they started;
* `Machine.track` — the machine that keeps the point of every task;
* `Invariant.reaches` — **the invariant rule**: an invariant that every enabled
  and allowed operation preserves holds in every configuration reached.
-/

namespace Interleave

variable {Task Op Point : Type} {Reply : Op → Type} {Choice State α β ε : Type}

/-- At which point a task may perform an operation, which replies it has to reckon
with there, and where the reply takes it. -/
structure Protocol (Op : Type) (Reply : Op → Type) (Point : Type) where
  enabled : Point → Op → Prop
  possible : Point → (o : Op) → Reply o → Prop
  advance : Point → (o : Op) → Reply o → Point

/-- From `pt` the program performs enabled operations only, and ends with `Q`. -/
def Prog.Obeys (A : Protocol Op Reply Point) (Q : α → Point → Prop) :
    Prog Op Reply α → Point → Prop
  | .ret a, pt => Q a pt
  | .act o k, pt => A.enabled pt o ∧
      ∀ r, A.possible pt o r → (k r).Obeys A Q (A.advance pt o r)

namespace Prog.Obeys

variable {A : Protocol Op Reply Point} {pt : Point}

theorem mono {p : Prog Op Reply α} {Q Q' : α → Point → Prop} (h : p.Obeys A Q pt)
    (hQ : ∀ a pt, Q a pt → Q' a pt) : p.Obeys A Q' pt := by
  induction p generalizing pt with
  | ret a => exact hQ a pt h
  | act o k ih => exact ⟨h.1, fun r hr => ih r (h.2 r hr)⟩

/-- Sequential composition. -/
theorem bind {p : Prog Op Reply α} {f : α → Prog Op Reply β} {Q : α → Point → Prop}
    {R : β → Point → Prop} (hp : p.Obeys A Q pt) (hf : ∀ a pt, Q a pt → (f a).Obeys A R pt) :
    (p.bind f).Obeys A R pt := by
  induction p generalizing pt with
  | ret a => exact hf a pt hp
  | act o k ih => exact ⟨hp.1, fun r hr => ih r (hp.2 r hr)⟩

theorem perform {o : Op} {Q : Reply o → Point → Prop} (ho : A.enabled pt o)
    (hQ : ∀ r, A.possible pt o r → Q r (A.advance pt o r)) :
    (Prog.perform o : Prog Op Reply (Reply o)).Obeys A Q pt := ⟨ho, hQ⟩

/-- Sequential composition of programs that may fail: an error ends the whole. -/
theorem tryBind {p : TryProg Op Reply ε α} {f : α → TryProg Op Reply ε β}
    {Q : Except ε α → Point → Prop} {R : Except ε β → Point → Prop}
    (hp : p.toProg.Obeys A Q pt) (hok : ∀ a pt, Q (.ok a) pt → (f a).toProg.Obeys A R pt)
    (herror : ∀ e pt, Q (.error e) pt → R (.error e) pt) :
    (p >>= f).toProg.Obeys A R pt := by
  refine bind (f := TryProg.andThen f) hp fun r pt' hr => ?_
  cases r with
  | ok a => exact hok a pt' hr
  | error e => exact herror e pt' hr

/-- A plain program in a program that may fail. -/
theorem lift {p : Prog Op Reply α} {Q : Except ε α → Point → Prop}
    (hp : p.Obeys A (fun a pt => Q (.ok a) pt) pt) :
    (liftM p : TryProg Op Reply ε α).toProg.Obeys A Q pt :=
  bind (f := fun a => Prog.ret (Except.ok a)) hp fun _ _ h => h

/-- An operation, and what follows it. -/
theorem liftBind {o : Op} {f : Reply o → TryProg Op Reply ε β} {R : Except ε β → Point → Prop}
    (ho : A.enabled pt o)
    (hf : ∀ r, A.possible pt o r → (f r).toProg.Obeys A R (A.advance pt o r)) :
    ((liftM (Prog.perform o : Prog Op Reply (Reply o)) : TryProg Op Reply ε (Reply o)) >>=
      f).toProg.Obeys A R pt := by
  refine tryBind
    (Q := fun r pt' => match r with
      | .ok a => (f a).toProg.Obeys A R pt'
      | .error _ => False)
    (lift (perform ho hf)) (fun _ _ h => h) fun _ _ h => h.elim

/-- An operation that may fail. -/
theorem orFail {p : Prog Op Reply (Option α)} {e : ε} {Q : Except ε α → Point → Prop}
    (hp : p.Obeys A (fun r pt =>
      match r with
      | some a => Q (.ok a) pt
      | none => Q (.error e) pt) pt) :
    (TryProg.orFail e p).toProg.Obeys A Q pt := by
  refine bind hp fun r pt' hr => ?_
  cases r with
  | some a => exact hr
  | none => exact hr

end Prog.Obeys

/-- A program run alone, with an invariant of the state for every point. -/
theorem Prog.Obeys.sound {M : Machine Task Op Reply Choice State} {t : Task}
    {A : Protocol Op Reply Point} {p : Prog Op Reply α} {Q : α → Point → Prop} {pt : Point}
    {I : Point → State → Prop} (h : p.Obeys A Q pt)
    (hI : ∀ pt o c s r s', I pt s → A.enabled pt o → M.exec t o c s = some (r, s') →
      A.possible pt o r ∧ I (A.advance pt o r) s') :
    p.Sound M t (I pt) fun a s => ∃ pt', Q a pt' ∧ I pt' s := by
  induction p generalizing pt with
  | ret a => exact .ret fun s hs => ⟨pt, h, hs⟩
  | act o k ih =>
    intro s a s'' hs heval
    cases heval with
    | act hexec hrest =>
      obtain ⟨hpossible, hnext⟩ := hI pt o _ s _ _ hs h.1 hexec
      exact ih _ (h.2 _ hpossible) _ _ _ hnext hrest

/-- From a point with `I` the program performs enabled operations only, and ends at a point
with `I` again. -/
def Prog.Keeps (A : Protocol Op Reply Point) (I : Point → Prop) (p : Prog Op Reply α) : Prop :=
  ∀ pt, I pt → p.Obeys A (fun _ pt' => I pt') pt

namespace Prog.Keeps

variable {A : Protocol Op Reply Point} {I : Point → Prop}

theorem ret (a : α) : (Prog.ret a : Prog Op Reply α).Keeps A I := fun _ hpt => hpt

theorem bind {p : Prog Op Reply α} {f : α → Prog Op Reply β} (hp : p.Keeps A I)
    (hf : ∀ a, (f a).Keeps A I) : (p.bind f).Keeps A I :=
  fun pt hpt => (hp pt hpt).bind fun a pt' hpt' => hf a pt' hpt'

theorem tryBind {p : TryProg Op Reply ε α} {f : α → TryProg Op Reply ε β}
    (hp : p.toProg.Keeps A I) (hf : ∀ a, (f a).toProg.Keeps A I) :
    (p >>= f).toProg.Keeps A I :=
  fun pt hpt => Prog.Obeys.tryBind (hp pt hpt) (fun a pt' hpt' => hf a pt' hpt')
    fun _ _ hpt' => hpt'

theorem lift {p : Prog Op Reply α} (hp : p.Keeps A I) :
    (liftM p : TryProg Op Reply ε α).toProg.Keeps A I :=
  fun pt hpt => Prog.Obeys.lift (hp pt hpt)

/-- A program whose operations are all of a kind that is enabled and leads back to `I`. -/
theorem of_all {kind : Op → Prop}
    (hkind : ∀ o pt, kind o → I pt → A.enabled pt o ∧ ∀ r, I (A.advance pt o r))
    {p : Prog Op Reply α} (h : p.All kind) : p.Keeps A I := by
  induction p with
  | ret a => exact ret a
  | act o k ih =>
    intro pt hpt
    obtain ⟨henabled, hadvance⟩ := hkind o pt h.1 hpt
    exact ⟨henabled, fun r _ => ih r (h.2 r) _ (hadvance r)⟩

end Prog.Keeps

/-! ## Two protocols at once -/

section

variable {Point' : Type}

/-- The protocol that asks for both, and keeps the points of both. -/
def Protocol.both (A : Protocol Op Reply Point) (B : Protocol Op Reply Point') :
    Protocol Op Reply (Point × Point') where
  enabled pt o := A.enabled pt.1 o ∧ B.enabled pt.2 o
  possible pt o r := A.possible pt.1 o r ∧ B.possible pt.2 o r
  advance pt o r := (A.advance pt.1 o r, B.advance pt.2 o r)

theorem Prog.Obeys.both {A : Protocol Op Reply Point} {B : Protocol Op Reply Point'}
    {p : Prog Op Reply α} {Q : α → Point → Prop} {R : α → Point' → Prop} {pt : Point}
    {pt' : Point'} (hA : p.Obeys A Q pt) (hB : p.Obeys B R pt') :
    p.Obeys (A.both B) (fun a pt => Q a pt.1 ∧ R a pt.2) (pt, pt') := by
  induction p generalizing pt pt' with
  | ret a => exact ⟨hA, hB⟩
  | act o k ih => exact ⟨⟨hA.1, hB.1⟩, fun r hr => ih r (hA.2 r hr.1) (hB.2 r hr.2)⟩

end

/-! ## Pools that keep to their protocols -/

/-- The shared state together with the point every task has got to. -/
structure Tracked (Task Point State : Type) where
  shared : State
  point : Task → Point

variable [DecidableEq Task]

/-- The state after `t` got the reply `r` to `o`, which changed the shared state to `s'`. -/
def Tracked.next (A : Task → Protocol Op Reply Point) (s : Tracked Task Point State) (t : Task)
    (o : Op) (r : Reply o) (s' : State) : Tracked Task Point State :=
  ⟨s', Function.update s.point t ((A t).advance (s.point t) o r)⟩

/-- The machine that keeps the point of every task next to the shared state. -/
def Machine.track (M : Machine Task Op Reply Choice State) (A : Task → Protocol Op Reply Point) :
    Machine Task Op Reply Choice (Tracked Task Point State) where
  exec t o c s := (M.exec t o c s.shared).map fun out => (out.1, s.next A t o out.1 out.2)

/-- Every task of the pool keeps to its protocol. -/
def Config.Obedient (A : Task → Protocol Op Reply Point) (Q : Task → α → Point → Prop)
    (cfg : Config Task Op Reply (Tracked Task Point State) α) : Prop :=
  ∀ t, (cfg.pool t).Obeys (A t) (Q t) (cfg.shared.point t)

/-- Enabled and allowed operations preserve `Inv`, and are answered as expected. -/
def Invariant (M : Machine Task Op Reply Choice State) (A : Task → Protocol Op Reply Point)
    (allowed : Tracked Task Point State → Task → Op → Choice → Prop)
    (Inv : Tracked Task Point State → Prop) : Prop :=
  ∀ s t o c r s', Inv s → (A t).enabled (s.point t) o → allowed s t o c →
    M.exec t o c s.shared = some (r, s') →
    (A t).possible (s.point t) o r ∧ Inv (s.next A t o r s')

variable {M : Machine Task Op Reply Choice State} {A : Task → Protocol Op Reply Point}
  {allowed : Tracked Task Point State → Task → Op → Choice → Prop}
  {Inv : Tracked Task Point State → Prop} {Q : Task → α → Point → Prop}
  {cfg cfg' : Config Task Op Reply (Tracked Task Point State) α}

section

variable {Point' : Type} {B : Task → Protocol Op Reply Point'}

/-- The points of the first of two protocols. -/
def Tracked.fst (s : Tracked Task (Point × Point') State) : Tracked Task Point State :=
  ⟨s.shared, fun t => (s.point t).1⟩

theorem Tracked.fst_next (s : Tracked Task (Point × Point') State) (t : Task) (o : Op)
    (r : Reply o) (s' : State) :
    (s.next (fun t => (A t).both (B t)) t o r s').fst = s.fst.next A t o r s' := by
  unfold Tracked.fst Tracked.next
  congr 1
  funext u
  by_cases hu : u = t
  · subst hu
    simp [Protocol.both]
  · simp [Function.update_of_ne hu]

/-- An invariant of the first protocol, and one of both on top of it. -/
theorem Invariant.both {InvB : Tracked Task (Point × Point') State → Prop}
    {allowedB : Tracked Task (Point × Point') State → Task → Op → Choice → Prop}
    (hA : Invariant M A allowed Inv) (hall : ∀ s t o c, allowedB s t o c → allowed s.fst t o c)
    (hB : ∀ s t o c r s', Inv s.fst → InvB s → (A t).enabled (s.point t).1 o →
      (B t).enabled (s.point t).2 o → allowedB s t o c → M.exec t o c s.shared = some (r, s') →
      (B t).possible (s.point t).2 o r ∧ InvB (s.next (fun t => (A t).both (B t)) t o r s')) :
    Invariant M (fun t => (A t).both (B t)) allowedB fun s => Inv s.fst ∧ InvB s := by
  rintro s t o c r s' ⟨hInv, hInvB⟩ ⟨henabled, henabledB⟩ hallowed hexec
  obtain ⟨hpossible, hnext⟩ :=
    hA s.fst t o c r s' hInv henabled (hall s t o c hallowed) hexec
  obtain ⟨hpossibleB, hnextB⟩ :=
    hB s t o c r s' hInv hInvB henabled henabledB hallowed hexec
  refine ⟨⟨hpossible, hpossibleB⟩, ?_, hnextB⟩
  rw [Tracked.fst_next]
  exact hnext

end

theorem Machine.track_exec_eq_some {s s' : Tracked Task Point State} {t : Task} {o : Op}
    {c : Choice} {r : Reply o} (h : (M.track A).exec t o c s = some (r, s')) :
    ∃ shared, M.exec t o c s.shared = some (r, shared) ∧ s' = s.next A t o r shared := by
  obtain ⟨⟨r', shared⟩, hexec, heq⟩ := Option.map_eq_some_iff.1 h
  cases heq
  exact ⟨shared, hexec, rfl⟩

/-- A run, with the points that the tasks get to on it. -/
theorem Config.Reaches.tracked {allowed : State → Task → Op → Choice → Prop}
    {cfg cfg' : Config Task Op Reply State α} (A : Task → Protocol Op Reply Point)
    (start : Task → Point) (h : Config.Reaches M allowed cfg cfg') :
    ∃ point, Config.Reaches (M.track A) (fun s => allowed s.shared)
      ⟨⟨cfg.shared, start⟩, cfg.pool⟩ ⟨⟨cfg'.shared, point⟩, cfg'.pool⟩ := by
  induction h with
  | refl => exact ⟨start, .refl⟩
  | @step cfg' t o k c r s _ hpool hallowed hexec ih =>
    obtain ⟨point, hto⟩ := ih
    have hexec' : (M.track A).exec t o c ⟨cfg'.shared, point⟩ =
        some (r, Tracked.next A ⟨cfg'.shared, point⟩ t o r s) := by
      simp only [Machine.track, hexec, Option.map_some]
    exact ⟨_, hto.step hpool hallowed hexec'⟩

/-- In a run of some tasks the others stay at their points, which may be needed to see that its
steps are allowed. -/
theorem Config.Reaches.ofTasks {tasks : List Task}
    {allowed' : Tracked Task Point State → Task → Op → Choice → Prop}
    (h : Config.Reaches (M.track A) (fun s t o c => t ∈ tasks ∧ allowed s t o c) cfg cfg')
    (hallowed : ∀ s t o c, (∀ u, u ∉ tasks → s.point u = cfg.shared.point u) → t ∈ tasks →
      allowed s t o c → allowed' s t o c) :
    Config.Reaches (M.track A) allowed' cfg cfg' ∧
      ∀ u, u ∉ tasks → cfg'.shared.point u = cfg.shared.point u := by
  induction h with
  | refl => exact ⟨.refl, fun _ _ => rfl⟩
  | step _ hpool hstep hexec ih =>
    obtain ⟨hto, hothers⟩ := ih
    refine ⟨hto.step hpool (hallowed _ _ _ _ hothers hstep.1 hstep.2) hexec, fun u hu => ?_⟩
    obtain ⟨shared, -, rfl⟩ := Machine.track_exec_eq_some hexec
    exact (Function.update_of_ne (ne_of_mem_of_not_mem hstep.1 hu).symm _ _).trans (hothers u hu)

omit [DecidableEq Task] in
theorem Config.Obedient.enabled (h : cfg.Obedient A Q) {t : Task} {o : Op}
    {k : Reply o → Prog Op Reply α} (hpool : cfg.pool t = .act o k) :
    (A t).enabled (cfg.shared.point t) o := by
  have ht := h t
  rw [hpool] at ht
  exact ht.1

omit [DecidableEq Task] in
theorem Config.Obedient.returned (h : cfg.Obedient A Q) {t : Task} {a : α}
    (hpool : cfg.pool t = .ret a) : Q t a (cfg.shared.point t) := by
  have ht := h t
  rwa [hpool] at ht

/-- A step of a pool that keeps to its protocols leads to another such pool. -/
theorem Config.Obedient.step (h : cfg.Obedient A Q) {t : Task} {o : Op}
    {k : Reply o → Prog Op Reply α} (hpool : cfg.pool t = .act o k) {r : Reply o}
    (hr : (A t).possible (cfg.shared.point t) o r) (s' : State) :
    Config.Obedient A Q ⟨cfg.shared.next A t o r s', Function.update cfg.pool t (k r)⟩ := by
  intro u
  by_cases hu : u = t
  · subst hu
    have ht := h u
    rw [hpool] at ht
    simpa [Tracked.next] using ht.2 r hr
  · simpa [Tracked.next, Function.update_of_ne hu] using h u

/-- **The invariant rule**, for pools that keep to their protocols. -/
theorem Invariant.reaches (hInv : Invariant M A allowed Inv) (hA : cfg.Obedient A Q)
    (hstart : Inv cfg.shared) (h : Config.Reaches (M.track A) allowed cfg cfg') :
    cfg'.Obedient A Q ∧ Inv cfg'.shared := by
  induction h with
  | refl => exact ⟨hA, hstart⟩
  | step _ hpool hallowed hexec ih =>
    obtain ⟨shared, hexec', rfl⟩ := Machine.track_exec_eq_some hexec
    obtain ⟨hr, hnext⟩ := hInv _ _ _ _ _ _ ih.2 (ih.1.enabled hpool) hallowed hexec'
    exact ⟨ih.1.step hpool hr shared, hnext⟩

end Interleave
