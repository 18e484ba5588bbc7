import Mathlib.Data.List.MinMax
import Mathlib.Data.Prod.Lex

/-!
# The smallest and the largest element for a comparator

A comparator that is put together from comparisons of fields compares a key in
a linear order (`ComparesBy`), and then the element that `minBy` finds is one
with the smallest key, and the element that `maxBy` finds is one with the largest.

* `ComparesBy.andThen`, `ComparesBy.swap` — how the key is put together;
* `minBy_eq_argmin` — what is found is the first of the elements with the smallest key;
* `minBy_perm` — its key does not depend on the order of the elements;
* `maxBy_spec` and `maxBy_perm` — what `maxBy` finds, and when it is the same element for
  every order;
* `maxBy_filterMap_maxBy` — the best of the best is the best of all.
-/

namespace Keyed

variable {α ρ σ : Type} [LinearOrder ρ] [LinearOrder σ]

/-- `cmp` compares the keys that `rank` gives to elements. -/
def ComparesBy (cmp : α → α → Ordering) (rank : α → ρ) : Prop :=
  ∀ a b, cmp a b = compare (rank a) (rank b)

/-- The first of the smallest elements (`Iterator::min_by`). -/
def minBy (cmp : α → α → Ordering) : List α → Option α
  | [] => none
  | a :: l => some (l.foldl (fun best a => if cmp best a = .gt then a else best) a)

/-! ## Comparators -/

namespace ComparesBy

variable {cmp cmp' : α → α → Ordering} {rank : α → ρ} {rank' : α → σ}

theorem field (rank : α → ρ) : ComparesBy (fun a b => compare (rank a) (rank b)) rank :=
  fun _ _ => rfl

/-- What is equal for the first comparator is compared by the second. -/
theorem andThen (h : ComparesBy cmp rank) (h' : ComparesBy cmp' rank') :
    ComparesBy (fun a b => (cmp a b).then (cmp' a b)) fun a => toLex (rank a, rank' a) := by
  intro a b
  show (cmp a b).then (cmp' a b) = compare (toLex (rank a, rank' a)) (toLex (rank b, rank' b))
  rw [h a b, h' a b, Prod.Lex.compare_def]
  rfl

/-- Comparing the other way. -/
theorem swap (h : ComparesBy cmp rank) :
    ComparesBy (fun a b => cmp b a) fun a => OrderDual.toDual (rank a) := by
  intro a b
  show cmp b a = compare (OrderDual.toDual (rank a)) (OrderDual.toDual (rank b))
  rw [h b a, LinearOrder.compare_eq_compareOfLessAndEq,
    LinearOrder.compare_eq_compareOfLessAndEq]
  simp only [compareOfLessAndEq, OrderDual.toDual_lt_toDual, OrderDual.toDual_inj, eq_comm]

theorem gt_iff (h : ComparesBy cmp rank) {a b : α} : cmp a b = .gt ↔ rank b < rank a := by
  rw [h a b]
  exact compare_gt_iff_gt

theorem isLE_iff (h : ComparesBy cmp rank) {a b : α} : (cmp a b).isLE ↔ rank a ≤ rank b := by
  rw [h a b, Ordering.isLE_iff_ne_gt]
  exact compare_le_iff_le

end ComparesBy

/-! ## The smallest element -/

section

variable {cmp : α → α → Ordering} {rank : α → ρ}

/-- **What is found is the first of the elements with the smallest key.** -/
theorem minBy_eq_argmin (h : ComparesBy cmp rank) (l : List α) :
    minBy cmp l = l.argmin rank := by
  cases l with
  | nil => rfl
  | cons a l =>
    -- both are folds that keep the best element so far; here it starts with `a`
    rw [minBy, List.argmin, List.foldl_cons]
    change _ = l.foldl _ (some a)
    induction l generalizing a with
    | nil => rfl
    | cons b l ih =>
      rw [List.foldl_cons, List.foldl_cons, ih]
      congr 1
      by_cases hlt : rank b < rank a
      · rw [if_pos (h.gt_iff.2 hlt)]
        exact (if_pos hlt).symm
      · rw [if_neg fun hgt => hlt (h.gt_iff.1 hgt)]
        exact (if_neg hlt).symm

theorem minBy_eq_none_iff {l : List α} : minBy cmp l = none ↔ l = [] := by
  cases l with
  | nil => exact iff_of_true rfl rfl
  | cons a l => exact iff_of_false (fun h => by cases h) (fun h => by cases h)

theorem mem_of_minBy (h : ComparesBy cmp rank) {l : List α} {a : α}
    (ha : minBy cmp l = some a) : a ∈ l := by
  rw [minBy_eq_argmin h] at ha
  exact List.argmin_mem ha

theorem rank_le_of_minBy (h : ComparesBy cmp rank) {l : List α} {a b : α}
    (ha : minBy cmp l = some a) (hb : b ∈ l) : rank a ≤ rank b := by
  rw [minBy_eq_argmin h] at ha
  exact List.le_of_mem_argmin hb ha

/-- **The order of the elements makes no difference** to the key of what is found. -/
theorem minBy_perm (h : ComparesBy cmp rank) {l l' : List α} (hperm : l'.Perm l) {a : α}
    (ha : minBy cmp l = some a) : ∃ a', minBy cmp l' = some a' ∧ rank a' = rank a := by
  have hmem := mem_of_minBy h ha
  cases ha' : minBy cmp l' with
  | none =>
    rw [minBy_eq_none_iff.1 ha'] at hperm
    rw [← hperm.nil_eq] at hmem
    cases hmem
  | some a' =>
    refine ⟨a', rfl, le_antisymm ?_ ?_⟩
    · exact rank_le_of_minBy h ha' (hperm.mem_iff.2 hmem)
    · exact rank_le_of_minBy h ha (hperm.mem_iff.1 (mem_of_minBy h ha'))

/-! ## The largest element -/

/-- The last of the largest elements (`Iterator::max_by`). -/
def maxBy (cmp : α → α → Ordering) : List α → Option α
  | [] => none
  | a :: l => some (l.foldl (fun best a => if cmp best a = .gt then best else a) a)

theorem maxBy_eq_none_iff {l : List α} : maxBy cmp l = none ↔ l = [] := by
  cases l with
  | nil => exact iff_of_true rfl rfl
  | cons a l => exact iff_of_false (fun h => by cases h) (fun h => by cases h)

/-- The fold keeps an element that is as large as all it has seen. -/
theorem foldl_max_spec (h : ComparesBy cmp rank) (l : List α) (a : α) :
    let best := l.foldl (fun best a => if cmp best a = .gt then best else a) a
    best ∈ a :: l ∧ ∀ b ∈ a :: l, rank b ≤ rank best := by
  induction l generalizing a with
  | nil => simp
  | cons c l ih =>
    rw [List.foldl_cons]
    by_cases hgt : cmp a c = .gt
    · rw [if_pos hgt]
      obtain ⟨hmem, hle⟩ := ih a
      refine ⟨?_, fun b hb => ?_⟩
      · rcases List.mem_cons.1 hmem with heq | hl
        · rw [heq]
          exact List.mem_cons_self
        · exact List.mem_cons_of_mem _ (List.mem_cons_of_mem _ hl)
      · rcases List.mem_cons.1 hb with rfl | hb
        · exact hle b List.mem_cons_self
        · rcases List.mem_cons.1 hb with rfl | hb
          · exact (le_of_lt (h.gt_iff.1 hgt)).trans (hle a List.mem_cons_self)
          · exact hle b (List.mem_cons_of_mem _ hb)
    · rw [if_neg hgt]
      obtain ⟨hmem, hle⟩ := ih c
      have hac : rank a ≤ rank c := not_lt.1 fun hlt => hgt (h.gt_iff.2 hlt)
      refine ⟨List.mem_cons_of_mem _ hmem, fun b hb => ?_⟩
      rcases List.mem_cons.1 hb with rfl | hb
      · exact hac.trans (hle c List.mem_cons_self)
      · exact hle b hb

/-- **What is found is an element with the largest key.** -/
theorem maxBy_spec (h : ComparesBy cmp rank) {l : List α} {a : α} (ha : maxBy cmp l = some a) :
    a ∈ l ∧ ∀ b ∈ l, rank b ≤ rank a := by
  cases l with
  | nil => cases ha
  | cons c l =>
    cases ha
    exact foldl_max_spec h l c

/-- **The order of the elements makes no difference** to what is found, when no two have the
same key. -/
theorem maxBy_perm (h : ComparesBy cmp rank) {l l' : List α} (hperm : l'.Perm l)
    (hinj : ∀ a ∈ l, ∀ b ∈ l, rank a = rank b → a = b) : maxBy cmp l' = maxBy cmp l := by
  cases ha : maxBy cmp l with
  | none =>
    rw [maxBy_eq_none_iff] at ha ⊢
    subst ha
    exact hperm.eq_nil
  | some a =>
    obtain ⟨hmem, hle⟩ := maxBy_spec h ha
    cases ha' : maxBy cmp l' with
    | none =>
      rw [maxBy_eq_none_iff.1 ha'] at hperm
      rw [← hperm.nil_eq] at hmem
      cases hmem
    | some a' =>
      obtain ⟨hmem', hle'⟩ := maxBy_spec h ha'
      have hkey : rank a' = rank a :=
        le_antisymm (hle a' (hperm.mem_iff.1 hmem')) (hle' a (hperm.mem_iff.2 hmem))
      rw [hinj a' (hperm.mem_iff.1 hmem') a hmem hkey]

/-! ### The best of the best -/

/-- The step of the fold. -/
def better (cmp : α → α → Ordering) (best a : α) : α := if cmp best a = .gt then best else a

/-- Of equal elements the later one is taken, in whichever order the comparisons are made. -/
theorem better_assoc (h : ComparesBy cmp rank) (a b c : α) :
    better cmp (better cmp a b) c = better cmp a (better cmp b c) := by
  simp only [better, h.gt_iff]
  by_cases hab : rank b < rank a
  · by_cases hbc : rank c < rank b
    · simp [hab, hbc, hbc.trans hab]
    · simp [hab, hbc]
  · by_cases hbc : rank c < rank b
    · simp [hab, hbc]
    · have hac : ¬ rank c < rank a := not_lt.2 ((not_lt.1 hab).trans (not_lt.1 hbc))
      simp [hab, hbc, hac]

theorem foldl_better (h : ComparesBy cmp rank) (l : List α) (a b : α) :
    l.foldl (better cmp) (better cmp a b) = better cmp a (l.foldl (better cmp) b) := by
  induction l generalizing b with
  | nil => rfl
  | cons c l ih => rw [List.foldl_cons, List.foldl_cons, better_assoc h, ih]

/-- What is found in a list that is put together is the better one of what is found in the
parts. -/
theorem maxBy_append (h : ComparesBy cmp rank) (l l' : List α) :
    maxBy cmp (l ++ l') = (maxBy cmp l).merge (better cmp) (maxBy cmp l') := by
  cases l with
  | nil => simp [maxBy]
  | cons a l =>
    cases l' with
    | nil => simp [maxBy]
    | cons b l' =>
      show some ((l ++ b :: l').foldl (better cmp) a) =
        some (better cmp (l.foldl (better cmp) a) (l'.foldl (better cmp) b))
      rw [List.foldl_append, List.foldl_cons, foldl_better h]

/-- **The best of the best is the best of all.** -/
theorem maxBy_filterMap_maxBy (h : ComparesBy cmp rank) (ls : List (List α)) :
    maxBy cmp (ls.filterMap (maxBy cmp)) = maxBy cmp ls.flatten := by
  induction ls with
  | nil => rfl
  | cons l ls ih =>
    rw [List.flatten_cons, maxBy_append h, ← ih]
    cases hl : maxBy cmp l with
    | none => simp [hl]
    | some a =>
      rw [List.filterMap_cons_some hl, ← List.singleton_append, maxBy_append h]
      rfl

/-- What is found among the images of elements is the image of what is found among them. -/
theorem maxBy_map {β : Type} {cmp' : β → β → Ordering} {f : α → β}
    (h : ∀ a b, cmp' (f a) (f b) = cmp a b) (l : List α) :
    maxBy cmp' (l.map f) = (maxBy cmp l).map f := by
  cases l with
  | nil => rfl
  | cons a l =>
    show some ((l.map f).foldl (better cmp') (f a)) = some (f (l.foldl (better cmp) a))
    congr 1
    induction l generalizing a with
    | nil => rfl
    | cons b l ih =>
      have hstep : better cmp' (f a) (f b) = f (better cmp a b) := by
        rw [better, better, h]
        split
        next => rfl
        next => rfl
      rw [List.map_cons, List.foldl_cons, List.foldl_cons, hstep, ih]

end

end Keyed
