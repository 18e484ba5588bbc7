import Metra.Interleave.Prog

/-!
# What a program does alone

`Prog.Eval` runs a program alone to its end.  Here such runs are taken apart again, and
stopped on the way.

* `Eval.of_bind` and its like — what runs of composed programs are made of;
* `All.eval` — what no operation of a program changes is what it was;
* `Machine.restrict` — a machine some of whose operations do not come out in some ways;
* `Prog.Goes` — the program gets to where it has yet to go on with another one, which in a
  composed program is in its second part if nothing of the kind is in the first
  (`Goes.skip`).
-/

namespace Interleave

/-- The machine whose operations come out only as `allowed`. -/
def Machine.restrict {Task Op : Type} {Reply : Op → Type} {Choice State : Type}
    (M : Machine Task Op Reply Choice State) (allowed : Op → Choice → Bool) :
    Machine Task Op Reply Choice State where
  exec t o c s := if allowed o c then M.exec t o c s else none

namespace Prog

variable {Task Op : Type} {Reply : Op → Type} {Choice State α β ε : Type}
  {M : Machine Task Op Reply Choice State} {t : Task}

namespace Eval

theorem of_ret {a b : α} {s s' : State} (h : Eval M t (.ret a) s b s') : b = a ∧ s' = s := by
  cases h
  exact ⟨rfl, rfl⟩

theorem of_perform {o : Op} {s s' : State} {r : Reply o}
    (h : Eval M t (Prog.perform o : Prog Op Reply (Reply o)) s r s') :
    ∃ c, M.exec t o c s = some (r, s') := by
  cases h with
  | act hexec hrest =>
    obtain ⟨rfl, rfl⟩ := hrest.of_ret
    exact ⟨_, hexec⟩

theorem of_bind {p : Prog Op Reply α} {f : α → Prog Op Reply β} {s s'' : State} {b : β}
    (h : Eval M t (p.bind f) s b s'') :
    ∃ a s', Eval M t p s a s' ∧ Eval M t (f a) s' b s'' := by
  induction p generalizing s with
  | ret a => exact ⟨a, s, .ret a s, h⟩
  | act o k ih =>
    cases h with
    | act hexec hrest =>
      obtain ⟨a, s', hp, hf⟩ := ih _ hrest
      exact ⟨a, s', .act hexec hp, hf⟩

/-- The first part has failed, or has returned and the second part was run. -/
theorem tryBind_cases {p : TryProg Op Reply ε α} {f : α → TryProg Op Reply ε β} {s s'' : State}
    {r : Except ε β} (h : Eval M t (p >>= f).toProg s r s'') :
    (∃ e, r = .error e ∧ Eval M t p.toProg s (.error e) s'') ∨
      ∃ a s', Eval M t p.toProg s (.ok a) s' ∧ Eval M t (f a).toProg s' r s'' := by
  obtain ⟨x, s', hp, hf⟩ := of_bind (f := TryProg.andThen f) h
  cases x with
  | ok a => exact .inr ⟨a, s', hp, hf⟩
  | error e =>
    obtain ⟨rfl, rfl⟩ := hf.of_ret
    exact .inl ⟨e, rfl, hp⟩

/-- What has returned well has come all the way. -/
theorem of_tryBind {p : TryProg Op Reply ε α} {f : α → TryProg Op Reply ε β} {s s'' : State}
    {b : β} (h : Eval M t (p >>= f).toProg s (.ok b) s'') :
    ∃ a s', Eval M t p.toProg s (.ok a) s' ∧ Eval M t (f a).toProg s' (.ok b) s'' := by
  rcases h.tryBind_cases with ⟨e, he, -⟩ | hall
  · cases he
  · exact hall

theorem of_lift {p : Prog Op Reply α} {s s' : State} {r : Except ε α}
    (h : Eval M t (liftM p : TryProg Op Reply ε α).toProg s r s') :
    ∃ a, r = .ok a ∧ Eval M t p s a s' := by
  obtain ⟨a, s'', hp, hf⟩ := of_bind (f := fun a => Prog.ret (Except.ok a)) h
  obtain ⟨rfl, rfl⟩ := hf.of_ret
  exact ⟨a, rfl, hp⟩

theorem of_orFail {p : Prog Op Reply (Option α)} {e : ε} {s s' : State} {r : Except ε α}
    (h : Eval M t (TryProg.orFail e p).toProg s r s') :
    (∃ a, r = .ok a ∧ Eval M t p s (some a) s') ∨ r = .error e ∧ Eval M t p s none s' := by
  obtain ⟨b, s'', hp, hf⟩ := of_bind h
  cases b with
  | some b =>
    obtain ⟨rfl, rfl⟩ := hf.of_ret
    exact .inl ⟨b, rfl, hp⟩
  | none =>
    obtain ⟨rfl, rfl⟩ := hf.of_ret
    exact .inr ⟨rfl, hp⟩

theorem ofExcept {x : Except ε α} {a : α} (h : x = .ok a) (s : State) :
    Eval M t (TryProg.ofExcept x : TryProg Op Reply ε α).toProg s (.ok a) s := by
  subst h
  exact .ret _ _

theorem orFail_none {p : Prog Op Reply (Option α)} {e : ε} {s s' : State}
    (hp : Eval M t p s none s') : Eval M t (TryProg.orFail e p).toProg s (.error e) s' :=
  bind hp (.ret _ _)

/-- A machine that comes out in fewer ways does nothing else. -/
theorem of_restrict {allowed : Op → Choice → Bool} {p : Prog Op Reply α} {s s' : State} {a : α}
    (h : Eval (M.restrict allowed) t p s a s') : Eval M t p s a s' := by
  induction h with
  | ret a s => exact .ret a s
  | act hexec _ ih =>
    simp only [Machine.restrict] at hexec
    split at hexec
    · exact .act hexec ih
    · cases hexec

/-- A program none of whose operations is restricted is not. -/
theorem restrict {allowed : Op → Choice → Bool} {kind : Op → Prop} {p : Prog Op Reply α}
    {s s' : State} {a : α} (h : Eval M t p s a s') (hall : p.All kind)
    (hallowed : ∀ o c, kind o → allowed o c = true) : Eval (M.restrict allowed) t p s a s' := by
  induction h with
  | ret a s => exact .ret a s
  | @act o k c s s' s'' r a hexec _ ih =>
    refine .act (c := c) ?_ (ih (hall.2 r))
    show (if allowed o c then M.exec t o c s else none) = some (r, s')
    rw [if_pos (hallowed o c hall.1)]
    exact hexec

end Eval

/-- What the operations of a program leave alone is what it was. -/
theorem All.eval {kind : Op → Prop} {p : Prog Op Reply α} (h : p.All kind) {f : State → β}
    (hkind : ∀ o c s r s', kind o → M.exec t o c s = some (r, s') → f s' = f s)
    {s s' : State} {a : α} (heval : Eval M t p s a s') : f s' = f s := by
  induction heval with
  | ret a s => rfl
  | act hexec _ ih => exact (ih (h.2 _)).trans (hkind _ _ _ _ _ h.1 hexec)

/-! ## On the way -/

/-- Run by `t` alone from `s`, the program `p` gets to `s'`, where it has yet to run `q`. -/
inductive Goes (M : Machine Task Op Reply Choice State) (t : Task) :
    Prog Op Reply α → State → Prog Op Reply α → State → Prop where
  | refl (p : Prog Op Reply α) (s : State) : Goes M t p s p s
  | act {o : Op} {k : Reply o → Prog Op Reply α} {c : Choice} {s s' s'' : State} {r : Reply o}
      {q : Prog Op Reply α} (h : M.exec t o c s = some (r, s')) (rest : Goes M t (k r) s' q s'') :
      Goes M t (.act o k) s q s''

namespace Goes

/-- A composed program gets to wherever its first part gets. -/
theorem left {p q : Prog Op Reply α} {f : α → Prog Op Reply β} {s s' : State}
    (h : Goes M t p s q s') : Goes M t (p.bind f) s (q.bind f) s' := by
  induction h with
  | refl p s => exact .refl _ _
  | act hexec _ ih => exact .act hexec ih

/-- And to wherever its second part gets from there. -/
theorem right {p : Prog Op Reply α} {f : α → Prog Op Reply β} {s s' s'' : State} {a : α}
    {q : Prog Op Reply β} (hp : Eval M t p s a s') (h : Goes M t (f a) s' q s'') :
    Goes M t (p.bind f) s q s'' := by
  induction hp with
  | ret a s => exact h
  | act hexec _ ih => exact .act hexec (ih h)

theorem tryRight {p : TryProg Op Reply ε α} {f : α → TryProg Op Reply ε β} {s s' s'' : State}
    {a : α} {q : Prog Op Reply (Except ε β)} (hp : Eval M t p.toProg s (.ok a) s')
    (h : Goes M t (f a).toProg s' q s'') : Goes M t (p >>= f).toProg s q s'' :=
  right (f := TryProg.andThen f) hp h

/-- A composed program is still in its first part, or past it. -/
theorem of_bind {p : Prog Op Reply α} {f : α → Prog Op Reply β} {s s' : State}
    {q : Prog Op Reply β} (h : Goes M t (p.bind f) s q s') :
    (∃ o k, Goes M t p s (.act o k) s' ∧ q = .act o fun r => (k r).bind f) ∨
      ∃ a s₁, Eval M t p s a s₁ ∧ Goes M t (f a) s₁ q s' := by
  induction p generalizing s with
  | ret a => exact .inr ⟨a, s, .ret a s, h⟩
  | act o k ih =>
    cases h with
    | refl => exact .inl ⟨o, k, .refl _ _, rfl⟩
    | act hexec hrest =>
      rcases ih _ hrest with ⟨o', k', hgoes, heq⟩ | ⟨a, s₁, heval, hgoes⟩
      · exact .inl ⟨o', k', .act hexec hgoes, heq⟩
      · exact .inr ⟨a, s₁, .act hexec heval, hgoes⟩

/-- The next operation of a program is of the kind that all its operations are. -/
theorem kind {kind : Op → Prop} {p : Prog Op Reply α} (hp : p.All kind) {s s' : State} {o : Op}
    {k : Reply o → Prog Op Reply α} (h : Goes M t p s (.act o k) s') : kind o := by
  induction p generalizing s with
  | ret a => cases h
  | act o' k' ih =>
    cases h with
    | refl => exact hp.1
    | act _ hrest => exact ih _ (hp.2 _) hrest

/-- A program that has come on its way comes to what it comes to from there. -/
theorem eval {p q : Prog Op Reply α} {s s' s'' : State} {a : α} (h : Goes M t p s q s')
    (heval : Eval M t q s' a s'') : Eval M t p s a s'' := by
  induction h with
  | refl p s => exact heval
  | act hexec _ ih => exact .act hexec (ih heval)

/-- An operation that is not in the first part is in the second. -/
theorem skip {p : Prog Op Reply α} {f : α → Prog Op Reply β} {s s' : State} {o : Op}
    {k : Reply o → Prog Op Reply β} (hp : p.All (· ≠ o))
    (h : Goes M t (p.bind f) s (.act o k) s') :
    ∃ a s₁, Eval M t p s a s₁ ∧ Goes M t (f a) s₁ (.act o k) s' := by
  rcases h.of_bind with ⟨o', k', hfirst, heq⟩ | hthen
  · cases heq
    exact absurd rfl (kind hp hfirst)
  · exact hthen

/-- And the first part has returned well. -/
theorem trySkip {p : TryProg Op Reply ε α} {f : α → TryProg Op Reply ε β} {s s' : State} {o : Op}
    {k : Reply o → Prog Op Reply (Except ε β)} (hp : p.toProg.All (· ≠ o))
    (h : Goes M t (p >>= f).toProg s (.act o k) s') :
    ∃ a s₁, Eval M t p.toProg s (.ok a) s₁ ∧ Goes M t (f a).toProg s₁ (.act o k) s' := by
  obtain ⟨r, s₁, heval, hgoes⟩ := skip (f := TryProg.andThen f) hp h
  cases r with
  | ok a => exact ⟨a, s₁, heval, hgoes⟩
  | error e => cases hgoes

end Goes

end Prog

end Interleave
