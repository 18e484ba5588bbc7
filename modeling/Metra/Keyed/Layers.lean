import Mathlib.Data.List.Basic
import Mathlib.Tactic.Common

/-!
# Settings that later entries override

A sequence of entries, some of which assign a value to a setting, is applied to a state one
after the other.

* `lastAssigned_append` — of two layers, the one that is read later goes first;
* `foldlM_lastAssigned` — if each entry sets what it assigns and leaves the setting alone
  otherwise, then the setting is in the end what was assigned last, or what it was before.
-/

namespace Keyed

variable {ε σ α : Type}

/-- What is assigned last. -/
def lastAssigned (assigned : ε → Option α) (entries : List ε) : Option α :=
  (entries.filterMap assigned).getLast?

variable {assigned : ε → Option α}

theorem lastAssigned_append (entries later : List ε) :
    lastAssigned assigned (entries ++ later) =
      (lastAssigned assigned later).or (lastAssigned assigned entries) := by
  simp [lastAssigned, List.getLast?_append]

theorem lastAssigned_cons (entry : ε) (entries : List ε) :
    lastAssigned assigned (entry :: entries) =
      (lastAssigned assigned entries).or (assigned entry) := by
  rw [← List.singleton_append, lastAssigned_append]
  cases h : assigned entry <;> simp [lastAssigned, h]

theorem lastAssigned_map {β : Type} (f : α → β) (entries : List ε) :
    lastAssigned (fun entry => (assigned entry).map f) entries =
      (lastAssigned assigned entries).map f := by
  rw [lastAssigned, lastAssigned, ← List.getLast?_map, List.map_filterMap]

/-- **The last assignment counts.** -/
theorem foldlM_lastAssigned {apply : σ → ε → Option σ} {get : σ → α}
    (hstep : ∀ s entry s', apply s entry = some s' → get s' = (assigned entry).getD (get s))
    {entries : List ε} {s s' : σ} (h : entries.foldlM apply s = some s') :
    get s' = (lastAssigned assigned entries).getD (get s) := by
  induction entries generalizing s with
  | nil =>
    cases h
    rfl
  | cons entry entries ih =>
    rw [List.foldlM_cons] at h
    obtain ⟨next, hnext, hrest⟩ := Option.bind_eq_some_iff.1 h
    rw [ih hrest, hstep s entry next hnext, lastAssigned_cons]
    cases lastAssigned assigned entries <;> simp

end Keyed
