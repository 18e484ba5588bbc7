import Mathlib.Logic.Function.Basic
import Mathlib.Control.Lawful
import Mathlib.Logic.Relation

/-!
# Programs of atomic operations

A task of a concurrent system is a tree: either it has returned, or it waits to
perform one atomic operation and goes on with the reply.  Tasks that run over
one shared state are interleaved at exactly these operations (`Pool.lean`).

* `Prog` is a monad, so the source of a task is written in `do` notation, and
  `TryProg` adds early returns with an error;
* `Machine` gives the operations a meaning and `Prog.Eval` runs one program
  alone, with nothing else touching the state in between, `Prog.stop?` up to some
  point only;
* `Prog.Sound` is what is known of such a run, with a rule for each way programs
  are put together.
-/

namespace Interleave

/-- A program over the operations `Op`, of which `o` is answered in `Reply o`. -/
inductive Prog (Op : Type) (Reply : Op → Type) (α : Type) : Type where
  | ret (a : α)
  | act (o : Op) (k : Reply o → Prog Op Reply α)

namespace Prog

variable {Op : Type} {Reply : Op → Type} {α β γ : Type}

/-- Run `p`, then go on with what it returned. -/
def bind : Prog Op Reply α → (α → Prog Op Reply β) → Prog Op Reply β
  | .ret a, f => f a
  | .act o k, f => .act o fun r => (k r).bind f

instance : Monad (Prog Op Reply) where
  pure := .ret
  bind := Prog.bind

/-- The program that performs one operation and returns its reply. -/
def perform (o : Op) : Prog Op Reply (Reply o) := .act o .ret

end Prog

/-- A program that may return early with an error. -/
def TryProg (Op : Type) (Reply : Op → Type) (ε α : Type) : Type :=
  Prog Op Reply (Except ε α)

namespace TryProg

variable {Op : Type} {Reply : Op → Type} {ε α β : Type}

/-- The underlying program, which returns the error as a value. -/
def toProg (p : TryProg Op Reply ε α) : Prog Op Reply (Except ε α) := p

/-- What follows a program that may fail: the error is passed on. -/
def andThen (f : α → TryProg Op Reply ε β) : Except ε α → Prog Op Reply (Except ε β)
  | .ok a => (f a).toProg
  | .error e => .ret (.error e)

instance : Monad (TryProg Op Reply ε) where
  pure a := Prog.ret (.ok a)
  bind p f := Prog.bind p (andThen f)

/-- A plain program never fails. -/
instance : MonadLift (Prog Op Reply) (TryProg Op Reply ε) where
  monadLift p := Prog.bind p fun a => Prog.ret (.ok a)

/-- Return early. -/
def fail (e : ε) : TryProg Op Reply ε α := Prog.ret (.error e)

/-- A value that is an error or a result, as a program. -/
def ofExcept (r : Except ε α) : TryProg Op Reply ε α := Prog.ret r

/-- An operation that may fail, with the error it is reported as. -/
def orFail (e : ε) (p : Prog Op Reply (Option α)) : TryProg Op Reply ε α :=
  Prog.bind p fun
    | some a => Prog.ret (.ok a)
    | none => Prog.ret (.error e)

end TryProg

/-! ## The meaning of the operations -/

/-- The meaning of the operations: what task `t` performing `o` does to the shared state.
`Choice` resolves what the task does not decide itself, such as an I/O error;
`none` says that the operation cannot happen now (the task is blocked). -/
structure Machine (Task Op : Type) (Reply : Op → Type) (Choice State : Type) where
  exec : Task → (o : Op) → Choice → State → Option (Reply o × State)

/-! ## Running alone -/

namespace Prog

variable {Task Op : Type} {Reply : Op → Type} {Choice State α β ε : Type}

/-- `p`, run by `t` alone from `s`, returns `a` in the state `s'`. -/
inductive Eval (M : Machine Task Op Reply Choice State) (t : Task) :
    Prog Op Reply α → State → α → State → Prop where
  | ret (a : α) (s : State) : Eval M t (.ret a) s a s
  | act {o : Op} {k : Reply o → Prog Op Reply α} {c : Choice} {s s' s'' : State} {r : Reply o}
      {a : α} (h : M.exec t o c s = some (r, s')) (rest : Eval M t (k r) s' a s'') :
      Eval M t (.act o k) s a s''

/-- Run `p` with given choices; `none` when they do not fit the run. -/
def run? (M : Machine Task Op Reply Choice State) (t : Task) :
    List Choice → Prog Op Reply α → State → Option (α × State)
  | [], .ret a, s => some (a, s)
  | c :: cs, .act o k, s => (M.exec t o c s).bind fun out => run? M t cs (k out.1) out.2
  | _, _, _ => none

/-- The state that `p` leaves when it is stopped after its first operations, which come
out as chosen; `none` when it does not get that far. -/
def stop? (M : Machine Task Op Reply Choice State) (t : Task) :
    List Choice → Prog Op Reply α → State → Option State
  | [], _, s => some s
  | c :: cs, .act o k, s => (M.exec t o c s).bind fun out => stop? M t cs (k out.1) out.2
  | _ :: _, .ret _, _ => none

/-- With some replies the program returns `a`. -/
inductive MayReturn : Prog Op Reply α → α → Prop
  | ret (a : α) : MayReturn (.ret a) a
  | act {o : Op} {k : Reply o → Prog Op Reply α} {a : α} (r : Reply o) (h : MayReturn (k r) a) :
      MayReturn (.act o k) a

/-- All operations of the program, whatever they are answered, are of a kind. -/
def All (kind : Op → Prop) : Prog Op Reply α → Prop
  | .ret _ => True
  | .act o k => kind o ∧ ∀ r, (k r).All kind

/-- Run by `t` alone from a state with `P`, the program returns with `Q`, if it does. -/
def Sound (M : Machine Task Op Reply Choice State) (t : Task) (P : State → Prop)
    (p : Prog Op Reply α) (Q : α → State → Prop) : Prop :=
  ∀ s a s', P s → Eval M t p s a s' → Q a s'

variable {M : Machine Task Op Reply Choice State} {t : Task} {P P' : State → Prop}

theorem eval_of_run? {cs : List Choice} {p : Prog Op Reply α} {s s' : State} {a : α}
    (h : run? M t cs p s = some (a, s')) : Eval M t p s a s' := by
  induction p generalizing cs s with
  | ret b =>
    cases cs with
    | nil =>
      cases h
      exact .ret _ _
    | cons c cs => cases h
  | act o k ih =>
    cases cs with
    | nil => cases h
    | cons c cs =>
      obtain ⟨out, hexec, hrest⟩ := Option.bind_eq_some_iff.1 h
      exact .act hexec (ih _ hrest)

namespace Eval

theorem bind {p : Prog Op Reply α} {f : α → Prog Op Reply β} {s s' s'' : State} {a : α} {b : β}
    (hp : Eval M t p s a s') (hf : Eval M t (f a) s' b s'') : Eval M t (p.bind f) s b s'' := by
  induction hp with
  | ret a s => exact hf
  | act h _ ih => exact .act h (ih hf)

/-- One operation. -/
theorem perform {o : Op} {c : Choice} {s s' : State} {r : Reply o}
    (h : M.exec t o c s = some (r, s')) :
    Eval M t (Prog.perform o : Prog Op Reply (Reply o)) s r s' :=
  .act h (.ret r s')

/-- A program that returns, and what follows it. -/
theorem tryBind {p : TryProg Op Reply ε α} {f : α → TryProg Op Reply ε β} {s s' s'' : State}
    {a : α} {r : Except ε β} (hp : Eval M t p.toProg s (.ok a) s')
    (hf : Eval M t (f a).toProg s' r s'') : Eval M t (p >>= f).toProg s r s'' :=
  bind (f := TryProg.andThen f) hp hf

/-- A program that fails, before what would follow it. -/
theorem tryBind_error {p : TryProg Op Reply ε α} {f : α → TryProg Op Reply ε β} {s s' : State}
    {e : ε} (hp : Eval M t p.toProg s (.error e) s') :
    Eval M t (p >>= f).toProg s (.error e) s' :=
  bind (f := TryProg.andThen f) hp (.ret _ _)

theorem lift {p : Prog Op Reply α} {s s' : State} {a : α} (hp : Eval M t p s a s') :
    Eval M t (liftM p : TryProg Op Reply ε α).toProg s (.ok a) s' :=
  bind (f := fun a => Prog.ret (Except.ok a)) hp (.ret _ _)

theorem orFail {p : Prog Op Reply (Option α)} {e : ε} {s s' : State} {a : α}
    (hp : Eval M t p s (some a) s') : Eval M t (TryProg.orFail e p).toProg s (.ok a) s' :=
  bind hp (.ret _ _)

end Eval

namespace MayReturn

theorem of_ret {a b : α} (h : (.ret a : Prog Op Reply α).MayReturn b) : b = a := by
  cases h
  rfl

theorem of_bind {p : Prog Op Reply α} {f : α → Prog Op Reply β} {b : β}
    (h : (p.bind f).MayReturn b) : ∃ a, p.MayReturn a ∧ (f a).MayReturn b := by
  induction p with
  | ret a => exact ⟨a, .ret a, h⟩
  | act o k ih =>
    cases h with
    | act r h =>
      obtain ⟨a, ha, hb⟩ := ih r h
      exact ⟨a, .act r ha, hb⟩

/-- What returns well has come all the way. -/
theorem of_tryBind {p : TryProg Op Reply ε α} {f : α → TryProg Op Reply ε β} {b : β}
    (h : (p >>= f).toProg.MayReturn (.ok b)) :
    ∃ a, p.toProg.MayReturn (.ok a) ∧ (f a).toProg.MayReturn (.ok b) := by
  obtain ⟨r, hr, hb⟩ := of_bind (f := TryProg.andThen f) h
  cases r with
  | ok a => exact ⟨a, hr, hb⟩
  | error e => cases hb.of_ret

end MayReturn

namespace All

variable {kind : Op → Prop}

theorem mono {kind' : Op → Prop} {p : Prog Op Reply α} (h : p.All kind)
    (hkind : ∀ o, kind o → kind' o) : p.All kind' := by
  induction p with
  | ret a => trivial
  | act o k ih => exact ⟨hkind o h.1, fun r => ih r (h.2 r)⟩

theorem perform {o : Op} (ho : kind o) : (Prog.perform o : Prog Op Reply (Reply o)).All kind :=
  ⟨ho, fun _ => trivial⟩

theorem bind {p : Prog Op Reply α} {f : α → Prog Op Reply β} (hp : p.All kind)
    (hf : ∀ a, (f a).All kind) : (p.bind f).All kind := by
  induction p with
  | ret a => exact hf a
  | act o k ih => exact ⟨hp.1, fun r => ih r (hp.2 r)⟩

theorem tryBind {p : TryProg Op Reply ε α} {f : α → TryProg Op Reply ε β}
    (hp : p.toProg.All kind) (hf : ∀ a, (f a).toProg.All kind) :
    (p >>= f).toProg.All kind := by
  refine bind (f := TryProg.andThen f) hp fun r => ?_
  cases r with
  | ok a => exact hf a
  | error e => trivial

/-- Sequential composition, where what follows starts from what the first may return. -/
theorem bindReturned {p : Prog Op Reply α} {f : α → Prog Op Reply β} (hp : p.All kind)
    (hf : ∀ a, p.MayReturn a → (f a).All kind) : (p.bind f).All kind := by
  induction p with
  | ret a => exact hf a (.ret a)
  | act o k ih => exact ⟨hp.1, fun r => ih r (hp.2 r) fun a ha => hf a (.act r ha)⟩

theorem tryBindReturned {p : TryProg Op Reply ε α} {f : α → TryProg Op Reply ε β}
    (hp : p.toProg.All kind) (hf : ∀ a, p.toProg.MayReturn (.ok a) → (f a).toProg.All kind) :
    (p >>= f).toProg.All kind := by
  refine bindReturned (f := TryProg.andThen f) hp fun r hr => ?_
  cases r with
  | ok a => exact hf a hr
  | error e => trivial

theorem lift {p : Prog Op Reply α} (hp : p.All kind) :
    (liftM p : TryProg Op Reply ε α).toProg.All kind :=
  bind (f := fun a => Prog.ret (Except.ok a)) hp fun _ => trivial

theorem orFail {p : Prog Op Reply (Option α)} {e : ε} (hp : p.All kind) :
    (TryProg.orFail e p).toProg.All kind := by
  refine bind hp fun r => ?_
  cases r with
  | some a => trivial
  | none => trivial

end All

/-- Where the program stops, what its operations leave alone is what it was. -/
theorem All.stop? {kind : Op → Prop} {p : Prog Op Reply α} (h : p.All kind) {f : State → β}
    (hkind : ∀ o c s r s', kind o → M.exec t o c s = some (r, s') → f s' = f s)
    {cs : List Choice} {s s' : State} (hstop : Prog.stop? M t cs p s = some s') : f s' = f s := by
  induction p generalizing cs s with
  | ret a =>
    cases cs with
    | nil =>
      cases hstop
      rfl
    | cons c cs => cases hstop
  | act o k ih =>
    cases cs with
    | nil =>
      cases hstop
      rfl
    | cons c cs =>
      obtain ⟨⟨r, s''⟩, hexec, hrest⟩ := Option.bind_eq_some_iff.1 hstop
      exact (ih r (h.2 r) hrest).trans (hkind o c s r s'' h.1 hexec)

namespace Sound

theorem ret {a : α} {Q : α → State → Prop} (h : ∀ s, P s → Q a s) :
    Sound M t P (.ret a : Prog Op Reply α) Q := by
  intro s b s' hP heval
  cases heval
  exact h s hP

theorem act {o : Op} {k : Reply o → Prog Op Reply α} {Q : α → State → Prop}
    {R : Reply o → State → Prop}
    (ho : ∀ s c r s', P s → M.exec t o c s = some (r, s') → R r s')
    (hk : ∀ r, Sound M t (R r) (k r) Q) : Sound M t P (.act o k) Q := by
  intro s a s' hP heval
  cases heval with
  | act hexec hrest => exact hk _ _ _ _ (ho _ _ _ _ hP hexec) hrest

theorem perform {o : Op} {R : Reply o → State → Prop}
    (ho : ∀ s c r s', P s → M.exec t o c s = some (r, s') → R r s') :
    Sound M t P (Prog.perform o : Prog Op Reply (Reply o)) R :=
  act ho fun _ => ret fun _ h => h

theorem pre {p : Prog Op Reply α} {Q : α → State → Prop} (h : Sound M t P p Q)
    (hP : ∀ s, P' s → P s) : Sound M t P' p Q :=
  fun s a s' hs heval => h s a s' (hP s hs) heval

/-- What a precondition asserts some value of may be proved for every value. -/
theorem exists_pre {ι : Type} {R : ι → State → Prop} {p : Prog Op Reply α}
    {Q : α → State → Prop} (h : ∀ i, Sound M t (R i) p Q) :
    Sound M t (fun s => ∃ i, R i s) p Q := by
  rintro s a s' ⟨i, hs⟩ heval
  exact h i s a s' hs heval

/-- A precondition that does not depend on the state may be used outside. -/
theorem pure_pre {φ : Prop} {p : Prog Op Reply α} {Q : α → State → Prop}
    (h : φ → Sound M t P p Q) : Sound M t (fun s => P s ∧ φ) p Q :=
  fun s a s' hs heval => h hs.2 s a s' hs.1 heval

theorem post {p : Prog Op Reply α} {Q Q' : α → State → Prop} (h : Sound M t P p Q)
    (hQ : ∀ a s, Q a s → Q' a s) : Sound M t P p Q' :=
  fun s a s' hs heval => hQ a s' (h s a s' hs heval)

/-- Sequential composition. -/
theorem bind {p : Prog Op Reply α} {f : α → Prog Op Reply β} {R : α → State → Prop}
    {Q : β → State → Prop} (hp : Sound M t P p R) (hf : ∀ a, Sound M t (R a) (f a) Q) :
    Sound M t P (p.bind f) Q := by
  induction p generalizing P with
  | ret a =>
    intro s b s' hs heval
    exact hf a s b s' (hp s a s hs (.ret a s)) heval
  | act o k ih =>
    refine act (R := fun r s' => ∃ s c, P s ∧ M.exec t o c s = some (r, s')) ?_ fun r => ?_
    · exact fun s c r s' hs hexec => ⟨s, c, hs, hexec⟩
    · refine ih r ?_
      rintro s' a s'' ⟨s, c, hs, hexec⟩ heval
      exact hp s a s'' hs (.act hexec heval)

/-- Sequential composition of programs that may fail: an error ends the whole. -/
theorem tryBind {p : TryProg Op Reply ε α} {f : α → TryProg Op Reply ε β}
    {R : α → State → Prop} {Q : Except ε β → State → Prop}
    (hp : Sound M t P p.toProg fun r s =>
      match r with
      | .ok a => R a s
      | .error e => Q (.error e) s)
    (hf : ∀ a, Sound M t (R a) (f a).toProg Q) :
    Sound M t P (p >>= f).toProg Q := by
  refine bind (f := TryProg.andThen f) hp fun r => ?_
  cases r with
  | ok a => exact hf a
  | error e => exact ret fun _ h => h

end Sound

end Prog

end Interleave
