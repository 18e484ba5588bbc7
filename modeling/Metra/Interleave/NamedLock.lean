import Mathlib.Logic.Function.Basic

/-!
# A lock looked up by name

A table holds, under one name, a shared reference to a mutex.  A task that wants
the lock clones the reference out of the table, or puts a new mutex there when
there is none, waits for the mutex, and drops its clone together with the guard.
The entry can be removed at any time; whoever has a clone keeps it, and the next
look-up makes another mutex.

* `Wf` — what always holds of the references;
* `Single` — all clones are of one mutex, the one in the table if there is one:
  it survives everything but a look-up that finds the name without an entry while
  another task still has a clone (`Single.lookup`);
* `Single.exclusive` — **under it the lock is exclusive**.
-/

namespace Interleave

/-- The entry under one name, and who has clones of it and locked it.  Mutexes
are numbered in the order they are made. -/
structure NamedLock (Task : Type) where
  entry : Option Nat
  fresh : Nat
  held : Nat → Option Task
  clone : Task → Option Nat

namespace NamedLock

variable {Task : Type} [DecidableEq Task]

/-- No task has asked for the lock. -/
def empty : NamedLock Task := ⟨none, 0, fun _ => none, fun _ => none⟩

/-- `t` gets a clone of the entry, which is made if there is none. -/
def lookup (t : Task) (l : NamedLock Task) : NamedLock Task :=
  match l.entry with
  | some m => { l with clone := Function.update l.clone t (some m) }
  | none => { l with
      entry := some l.fresh, fresh := l.fresh + 1
      clone := Function.update l.clone t (some l.fresh) }

/-- `t` locks the mutex it has a clone of; `none` while somebody holds it. -/
def lock (t : Task) (l : NamedLock Task) : Option (NamedLock Task) :=
  match l.clone t with
  | none => none
  | some m =>
    match l.held m with
    | some _ => none
    | none => some { l with held := Function.update l.held m (some t) }

/-- `t` drops its guard and its clone. -/
def unlock (t : Task) (l : NamedLock Task) : NamedLock Task :=
  match l.clone t with
  | none => l
  | some m => { l with
      held := Function.update l.held m none, clone := Function.update l.clone t none }

/-- The entry is removed from the table. -/
def clear (l : NamedLock Task) : NamedLock Task := { l with entry := none }

/-- `t` is inside the lock. -/
def Holds (t : Task) (l : NamedLock Task) : Prop := ∃ m, l.clone t = some m ∧ l.held m = some t

instance (t : Task) (l : NamedLock Task) : Decidable (l.Holds t) :=
  decidable_of_iff ((l.clone t).bind l.held = some t) (by simp [Holds, Option.bind_eq_some_iff])

/-- What always holds of the references. -/
structure Wf (l : NamedLock Task) : Prop where
  entry_lt : ∀ m, l.entry = some m → m < l.fresh
  clone_lt : ∀ t m, l.clone t = some m → m < l.fresh
  held_clone : ∀ m t, l.held m = some t → l.clone t = some m

/-- All clones are of one mutex, the entry if there is one. -/
structure Single (l : NamedLock Task) : Prop where
  clones : ∀ t u m n, l.clone t = some m → l.clone u = some n → m = n
  entry : ∀ t m n, l.clone t = some m → l.entry = some n → m = n

variable {l l' : NamedLock Task} {t u : Task}

omit [DecidableEq Task] in
/-- **Exclusion**: two tasks inside the lock are one. -/
theorem Single.exclusive (h : l.Single) (ht : l.Holds t) (hu : l.Holds u) : t = u := by
  obtain ⟨m, hm, hheld⟩ := ht
  obtain ⟨n, hn, hheld'⟩ := hu
  have heq := h.clones t u m n hm hn
  subst heq
  rw [hheld] at hheld'
  exact Option.some.inj hheld'

omit [DecidableEq Task] in
theorem wf_empty : (empty : NamedLock Task).Wf :=
  ⟨by simp [empty], by simp [empty], by simp [empty]⟩

omit [DecidableEq Task] in
theorem single_empty : (empty : NamedLock Task).Single := ⟨by simp [empty], by simp [empty]⟩

/-! ## What the operations preserve -/

omit [DecidableEq Task] in
theorem lock_eq_some (h : l.lock t = some l') :
    ∃ m, l.clone t = some m ∧ l.held m = none ∧
      l' = { l with held := Function.update l.held m (some t) } := by
  unfold lock at h
  split at h
  · cases h
  · rename_i m hm
    split at h
    · cases h
    · rename_i hheld
      cases h
      exact ⟨m, hm, hheld, rfl⟩

omit [DecidableEq Task] in
/-- A lock can be taken unless somebody is inside. -/
theorem lock_isSome (hm : ∃ m, l.clone t = some m) (hfree : ∀ u, ¬ l.Holds u) (hwf : l.Wf) :
    (l.lock t).isSome = true := by
  obtain ⟨m, hm⟩ := hm
  have hheld : l.held m = none := by
    cases hu : l.held m with
    | none => rfl
    | some u => exact absurd ⟨m, hwf.held_clone m u hu, hu⟩ (hfree u)
  simp [lock, hm, hheld]

theorem Wf.lookup (h : l.Wf) (hout : l.clone t = none) : (l.lookup t).Wf := by
  have hother : ∀ m u, l.held m = some u → u ≠ t := by
    rintro m u hu rfl
    have := h.held_clone m u hu
    rw [hout] at this
    cases this
  unfold NamedLock.lookup
  split
  · rename_i m hm
    refine ⟨h.entry_lt, fun u n hn => ?_, fun n u hu => ?_⟩
    · by_cases hut : u = t
      · subst hut
        simp only [Function.update_self] at hn
        cases hn
        exact h.entry_lt _ hm
      · simp only [Function.update_of_ne hut] at hn
        exact h.clone_lt u n hn
    · show Function.update l.clone t (some m) u = some n
      rw [Function.update_of_ne (hother n u hu)]
      exact h.held_clone n u hu
  · refine ⟨?_, fun u n hn => ?_, fun n u hu => ?_⟩
    · rintro m hm
      cases hm
      exact Nat.lt_succ_self _
    · show n < l.fresh + 1
      by_cases hut : u = t
      · subst hut
        simp only [Function.update_self] at hn
        cases hn
        exact Nat.lt_succ_self _
      · simp only [Function.update_of_ne hut] at hn
        exact Nat.lt_succ_of_lt (h.clone_lt u n hn)
    · show Function.update l.clone t (some l.fresh) u = some n
      rw [Function.update_of_ne (hother n u hu)]
      exact h.held_clone n u hu

omit [DecidableEq Task] in
theorem Wf.lock (h : l.Wf) (hl : l.lock t = some l') : l'.Wf := by
  obtain ⟨m, hm, hheld, rfl⟩ := lock_eq_some hl
  refine ⟨h.entry_lt, h.clone_lt, fun n u hu => ?_⟩
  by_cases hnm : n = m
  · subst hnm
    simp only [Function.update_self] at hu
    cases hu
    exact hm
  · simp only [Function.update_of_ne hnm] at hu
    exact h.held_clone n u hu

theorem Wf.unlock (h : l.Wf) (hheld : l.Holds t) : (l.unlock t).Wf := by
  obtain ⟨m, hm, hm'⟩ := hheld
  simp only [NamedLock.unlock, hm]
  refine ⟨h.entry_lt, fun u n hn => ?_, fun n u hu => ?_⟩
  · by_cases hut : u = t
    · subst hut
      simp at hn
    · simp only [Function.update_of_ne hut] at hn
      exact h.clone_lt u n hn
  · by_cases hnm : n = m
    · subst hnm
      simp at hu
    · simp only [Function.update_of_ne hnm] at hu
      have hut : u ≠ t := by
        rintro rfl
        have := h.held_clone n u hu
        rw [hm] at this
        cases this
        exact hnm rfl
      simp only [Function.update_of_ne hut]
      exact h.held_clone n u hu

omit [DecidableEq Task] in
theorem Wf.clear (h : l.Wf) : l.clear.Wf := ⟨by simp [NamedLock.clear], h.clone_lt, h.held_clone⟩

/-- A look-up keeps all clones of one mutex, unless it finds no entry while another
task has a clone. -/
theorem Single.lookup (h : l.Single) (hsafe : l.entry ≠ none ∨ ∀ u, u ≠ t → l.clone u = none) :
    (l.lookup t).Single := by
  unfold NamedLock.lookup
  split
  · rename_i m hm
    have hone : ∀ u n, Function.update l.clone t (some m) u = some n → n = m := by
      intro u n hn
      by_cases hut : u = t
      · subst hut
        simp only [Function.update_self] at hn
        cases hn
        rfl
      · rw [Function.update_of_ne hut] at hn
        exact h.entry u n m hn hm
    refine ⟨fun u v n k hn hk => ?_, fun u n k hn hk => ?_⟩
    · rw [hone u n hn, hone v k hk]
    · rw [hone u n hn]
      exact Option.some.inj (hm.symm.trans hk)
  · rename_i hnone
    have hothers : ∀ u, u ≠ t → l.clone u = none := by
      rcases hsafe with hsome | hothers
      · exact absurd hnone hsome
      · exact hothers
    have hone : ∀ u n, Function.update l.clone t (some l.fresh) u = some n → n = l.fresh := by
      intro u n hn
      by_cases hut : u = t
      · subst hut
        simp only [Function.update_self] at hn
        cases hn
        rfl
      · rw [Function.update_of_ne hut, hothers u hut] at hn
        cases hn
    refine ⟨fun u v n k hn hk => ?_, fun u n k hn hk => ?_⟩
    · rw [hone u n hn, hone v k hk]
    · rw [hone u n hn]
      exact Option.some.inj hk

omit [DecidableEq Task] in
theorem Single.lock (h : l.Single) (hl : l.lock t = some l') : l'.Single := by
  obtain ⟨m, -, -, rfl⟩ := lock_eq_some hl
  exact ⟨h.clones, h.entry⟩

theorem Single.unlock (h : l.Single) : (l.unlock t).Single := by
  unfold NamedLock.unlock
  split
  · exact h
  · have hold : ∀ u n, Function.update l.clone t none u = some n → l.clone u = some n := by
      intro u n hn
      by_cases hut : u = t
      · subst hut
        simp at hn
      · rwa [Function.update_of_ne hut] at hn
    exact ⟨fun u v n k hn hk => h.clones u v n k (hold u n hn) (hold v k hk),
      fun u n k hn hk => h.entry u n k (hold u n hn) hk⟩

omit [DecidableEq Task] in
theorem Single.clear (h : l.Single) : l.clear.Single := ⟨h.clones, by simp [NamedLock.clear]⟩

/-! ## Who is inside -/

theorem holds_lookup_iff (hout : l.clone t = none) (hwf : l.Wf) :
    (l.lookup t).Holds u ↔ l.Holds u := by
  have hnot : ¬ l.Holds t := by
    rintro ⟨m, hm, -⟩
    rw [hout] at hm
    cases hm
  by_cases hut : u = t
  · subst hut
    refine ⟨?_, fun h => absurd h hnot⟩
    rintro ⟨m, -, hheld⟩
    have hheld' : l.held m = some u := by
      unfold lookup at hheld
      split at hheld <;> exact hheld
    exact ⟨m, hwf.held_clone m u hheld', hheld'⟩
  · unfold Holds lookup
    split <;> simp [Function.update_of_ne hut]

omit [DecidableEq Task] in
theorem holds_lock_iff (hl : l.lock t = some l') :
    l'.Holds u ↔ l.Holds u ∨ u = t := by
  obtain ⟨m, hm, hheld, rfl⟩ := lock_eq_some hl
  constructor
  · rintro ⟨n, hn, hheld'⟩
    by_cases hnm : n = m
    · subst hnm
      simp only [Function.update_self] at hheld'
      exact .inr (Option.some.inj hheld').symm
    · simp only [Function.update_of_ne hnm] at hheld'
      exact .inl ⟨n, hn, hheld'⟩
  · rintro (⟨n, hn, hheld'⟩ | rfl)
    · have hnm : n ≠ m := by
        rintro rfl
        rw [hheld] at hheld'
        cases hheld'
      exact ⟨n, hn, by simp [Function.update_of_ne hnm, hheld']⟩
    · exact ⟨m, hm, by simp⟩

theorem holds_unlock_iff (ht : l.Holds t) : (l.unlock t).Holds u ↔ l.Holds u ∧ u ≠ t := by
  obtain ⟨m, hm, hheldt⟩ := ht
  simp only [unlock, hm]
  constructor
  · rintro ⟨n, hn, hheld⟩
    have hut : u ≠ t := by
      rintro rfl
      simp at hn
    have hnm : n ≠ m := by
      rintro rfl
      simp at hheld
    simp only [Function.update_of_ne hut] at hn
    simp only [Function.update_of_ne hnm] at hheld
    exact ⟨⟨n, hn, hheld⟩, hut⟩
  · rintro ⟨⟨n, hn, hheld⟩, hut⟩
    have hnm : n ≠ m := by
      rintro rfl
      rw [hheldt] at hheld
      exact hut (Option.some.inj hheld).symm
    exact ⟨n, by simp [Function.update_of_ne hut, hn], by simp [Function.update_of_ne hnm, hheld]⟩

/-! ## The clones of the others -/

theorem clone_lookup_of_ne (hut : u ≠ t) : (l.lookup t).clone u = l.clone u := by
  unfold lookup
  split <;> exact Function.update_of_ne hut _ _

theorem clone_lookup_self : ∃ m, (l.lookup t).clone t = some m := by
  unfold lookup
  split <;> exact ⟨_, Function.update_self _ _ _⟩

omit [DecidableEq Task] in
theorem clone_lock (hl : l.lock t = some l') : l'.clone = l.clone := by
  obtain ⟨m, -, -, rfl⟩ := lock_eq_some hl
  rfl

theorem clone_unlock_of_ne (hut : u ≠ t) : (l.unlock t).clone u = l.clone u := by
  unfold unlock
  split
  · rfl
  · exact Function.update_of_ne hut _ _

theorem clone_unlock_self : (l.unlock t).clone t = none := by
  unfold unlock
  split
  · assumption
  · exact Function.update_self _ _ _

/-! ## What the next task finds -/

/-- The mutex that the next look-up gets a clone of. -/
def next (l : NamedLock Task) : Nat := l.entry.getD l.fresh

omit [DecidableEq Task] in
theorem next_lock (hl : l.lock t = some l') : l'.next = l.next := by
  obtain ⟨m, -, -, rfl⟩ := lock_eq_some hl
  rfl

theorem next_unlock : (l.unlock t).next = l.next := by
  unfold unlock
  split <;> rfl

theorem next_lookup : (l.lookup t).next = l.next := by
  unfold lookup next
  split
  · rename_i m hm
    rw [hm]
  · rename_i hnone
    rw [hnone, Option.getD_some, Option.getD_none]

theorem held_lookup : (l.lookup t).held = l.held := by
  unfold lookup
  split <;> rfl

/-- A lock that is looked up can be taken when the mutex of the entry is free. -/
theorem lock_lookup_isSome : ((l.lookup t).lock t).isSome = (l.held l.next).isNone := by
  have hclone : (l.lookup t).clone t = some l.next := by
    unfold lookup next
    split
    · rename_i m hm
      rw [hm, Option.getD_some]
      exact Function.update_self _ _ _
    · rename_i hnone
      rw [hnone, Option.getD_none]
      exact Function.update_self _ _ _
  simp only [lock, hclone, held_lookup]
  cases l.held l.next <;> rfl

/-- Who was inside leaves no mutex held. -/
theorem held_unlock_of_lock (hl : l.lock t = some l') : (l'.unlock t).held = l.held := by
  obtain ⟨m, hm, hheld, rfl⟩ := lock_eq_some hl
  have hback : Function.update (Function.update l.held m (some t)) m none = l.held := by
    rw [Function.update_idem, ← hheld, Function.update_eq_self]
  simp only [unlock, hm]
  exact hback

/-- Who has come and gone changes nothing for those who come later. -/
theorem lock_isSome_of_unlocked (hl : l.lock t = some l') (u : Task) :
    (((l'.unlock t).lookup u).lock u).isSome = ((l.lookup u).lock u).isSome := by
  rw [lock_lookup_isSome, lock_lookup_isSome, held_unlock_of_lock hl, next_unlock, next_lock hl]

/-- Nor does a look-up. -/
theorem lock_isSome_of_lookup (u : Task) :
    (((l.lookup t).lookup u).lock u).isSome = ((l.lookup u).lock u).isSome := by
  rw [lock_lookup_isSome, lock_lookup_isSome, held_lookup, next_lookup]

end NamedLock

end Interleave
