import Mathlib.Data.List.Nodup
import Mathlib.Data.List.Sort
import Metra.Keyed.Best

/-!
# Tables kept as sorted lists

A list of entries, of which a new one takes the place of the first one with its
key or is pushed, and which is then sorted.  As long as that is all that happens
to it, no two entries have one key (`Table`), and it is a finite map.

* `Table.lookup_upsert` — storing an entry is an update of that map at one key;
* `Table.ext_of_lookup` — the map determines the list, when entries of one rank
  have one key;
* `Table.upsert_comm` — entries of different keys can be stored in either order;
* `Table.lookup_upsertAll` — what is found is what was stored last.
-/

namespace Keyed

variable {α κ ρ : Type} [DecidableEq κ] [LinearOrder ρ]

/-- Replace the first entry with the key of `entry`, or push `entry`. -/
def put (key : α → κ) (entry : α) : List α → List α
  | [] => [entry]
  | a :: l => if key a = key entry then entry :: l else a :: put key entry l

/-- The stable sort by a comparator (`sort_by`). -/
def sortBy (cmp : α → α → Ordering) (l : List α) : List α :=
  l.insertionSort fun a b => (cmp a b).isLE = true

/-! ## Replacing an entry -/

section

variable {key : α → κ} {entry e : α} {l : List α}

theorem mem_put_self : entry ∈ put key entry l := by
  induction l with
  | nil => exact List.mem_singleton_self entry
  | cons a l ih =>
    rw [put]
    split
    · exact List.mem_cons_self
    · exact List.mem_cons_of_mem a ih

/-- An entry with another key stays. -/
theorem mem_put_of_ne (he : e ∈ l) (hne : key e ≠ key entry) : e ∈ put key entry l := by
  induction l with
  | nil => cases he
  | cons a l ih =>
    rw [put]
    split
    · rename_i ha
      rcases List.mem_cons.1 he with rfl | he
      · exact absurd ha hne
      · exact List.mem_cons_of_mem entry he
    · rcases List.mem_cons.1 he with rfl | he
      · exact List.mem_cons_self
      · exact List.mem_cons_of_mem a (ih he)

theorem eq_or_mem_of_mem_put (he : e ∈ put key entry l) : e = entry ∨ e ∈ l := by
  induction l with
  | nil => exact .inl (List.mem_singleton.1 he)
  | cons a l ih =>
    rw [put] at he
    split at he
    · rcases List.mem_cons.1 he with rfl | he
      · exact .inl rfl
      · exact .inr (List.mem_cons_of_mem a he)
    · rcases List.mem_cons.1 he with rfl | he
      · exact .inr List.mem_cons_self
      · exact (ih he).imp_right (List.mem_cons_of_mem a)

/-- When no two entries have one key, an entry that stays has another key than the new one. -/
theorem mem_put_iff (hnodup : (l.map key).Nodup) :
    e ∈ put key entry l ↔ e = entry ∨ (e ∈ l ∧ key e ≠ key entry) := by
  refine ⟨fun he => ?_, ?_⟩
  · induction l with
    | nil => exact .inl (List.mem_singleton.1 he)
    | cons a l ih =>
      obtain ⟨ha, hnodup⟩ := List.nodup_cons.1 hnodup
      rw [put] at he
      split at he
      · rename_i hkey
        rcases List.mem_cons.1 he with rfl | he
        · exact .inl rfl
        · refine .inr ⟨List.mem_cons_of_mem a he, fun heq => ha ?_⟩
          exact List.mem_map.2 ⟨e, he, heq.trans hkey.symm⟩
      · rename_i hkey
        rcases List.mem_cons.1 he with rfl | he
        · exact .inr ⟨List.mem_cons_self, hkey⟩
        · exact (ih hnodup he).imp_right fun h => ⟨List.mem_cons_of_mem a h.1, h.2⟩
  · rintro (rfl | ⟨he, hne⟩)
    · exact mem_put_self
    · exact mem_put_of_ne he hne

/-- No two entries have one key. -/
theorem nodup_put (hnodup : (l.map key).Nodup) : ((put key entry l).map key).Nodup := by
  induction l with
  | nil => exact List.nodup_singleton _
  | cons a l ih =>
    obtain ⟨ha, hnodup⟩ := List.nodup_cons.1 hnodup
    rw [put]
    split
    · rename_i hkey
      rw [List.map_cons, ← hkey]
      exact List.nodup_cons.2 ⟨ha, hnodup⟩
    · rename_i hkey
      refine List.nodup_cons.2 ⟨fun hmem => ?_, ih hnodup⟩
      obtain ⟨b, hb, hba⟩ := List.mem_map.1 hmem
      rcases eq_or_mem_of_mem_put hb with rfl | hb
      · exact hkey hba.symm
      · exact ha (List.mem_map.2 ⟨b, hb, hba⟩)

end

/-! ## Sorting -/

section

variable {cmp : α → α → Ordering} {rank : α → ρ} {l : List α}

theorem sortBy_perm (cmp : α → α → Ordering) (l : List α) : (sortBy cmp l).Perm l :=
  List.perm_insertionSort _ l

theorem sorted_sortBy (h : ComparesBy cmp rank) (l : List α) :
    (sortBy cmp l).Pairwise fun a b => rank a ≤ rank b := by
  have htotal : Std.Total fun a b => (cmp a b).isLE = true := by
    refine ⟨fun a b => ?_⟩
    rw [h.isLE_iff, h.isLE_iff]
    exact le_total _ _
  have htrans : IsTrans α fun a b => (cmp a b).isLE = true :=
    ⟨fun a b c hab hbc => h.isLE_iff.2 ((h.isLE_iff.1 hab).trans (h.isLE_iff.1 hbc))⟩
  exact (List.pairwise_insertionSort _ l).imp fun hle => h.isLE_iff.1 hle

end

/-! ## Tables -/

/-- A sorted list in which no two entries have one key. -/
structure Table (key : α → κ) (rank : α → ρ) where
  entries : List α
  nodup : (entries.map key).Nodup
  sorted : entries.Pairwise fun a b => rank a ≤ rank b

namespace Table

variable {key : α → κ} {cmp : α → α → Ordering} {rank : α → ρ}

omit [DecidableEq κ] in
theorem ext_entries {t t' : Table key rank} (h : t.entries = t'.entries) : t = t' := by
  cases t
  cases t'
  cases h
  rfl

/-- A table without entries. -/
def empty : Table key rank := ⟨[], List.nodup_nil, .nil⟩

/-- The entry with a key. -/
def lookup (t : Table key rank) (k : κ) : Option α := t.entries.find? fun a => key a = k

/-- Store an entry. -/
def upsert (h : ComparesBy cmp rank) (t : Table key rank) (entry : α) : Table key rank where
  entries := sortBy cmp (put key entry t.entries)
  nodup := ((sortBy_perm cmp _).map key).nodup_iff.2 (nodup_put t.nodup)
  sorted := sorted_sortBy h _

variable {h : ComparesBy cmp rank} {t t' : Table key rank} {e e' : α} {k : κ}

theorem mem_upsert_iff :
    e' ∈ (t.upsert h e).entries ↔ e' = e ∨ (e' ∈ t.entries ∧ key e' ≠ key e) := by
  rw [upsert, (sortBy_perm cmp _).mem_iff, mem_put_iff t.nodup]

theorem lookup_eq_some_iff : t.lookup k = some e ↔ e ∈ t.entries ∧ key e = k := by
  refine ⟨fun hfind => ?_, ?_⟩
  · exact ⟨List.mem_of_find?_eq_some hfind, by simpa using List.find?_some hfind⟩
  · rintro ⟨he, rfl⟩
    cases hfind : t.lookup (key e) with
    | none =>
      have hnone := List.find?_eq_none.1 hfind e he
      simp at hnone
    | some e' =>
      have hmem := List.mem_of_find?_eq_some hfind
      have hkey : key e' = key e := by simpa using List.find?_some hfind
      rw [List.inj_on_of_nodup_map t.nodup hmem he hkey]

/-- **Storing an entry is an update at its key.** -/
theorem lookup_upsert : (t.upsert h e).lookup = Function.update t.lookup (key e) (some e) := by
  funext k
  refine Option.ext fun e' => ?_
  rw [lookup_eq_some_iff, mem_upsert_iff]
  by_cases hk : k = key e
  · subst hk
    rw [Function.update_self, Option.some.injEq]
    constructor
    · rintro ⟨rfl | ⟨-, hne⟩, heq⟩
      · rfl
      · exact absurd heq hne
    · rintro rfl
      exact ⟨.inl rfl, rfl⟩
  · rw [Function.update_of_ne hk, lookup_eq_some_iff]
    constructor
    · rintro ⟨rfl | ⟨hmem, -⟩, rfl⟩
      · exact absurd rfl hk
      · exact ⟨hmem, rfl⟩
    · rintro ⟨hmem, rfl⟩
      exact ⟨.inr ⟨hmem, hk⟩, rfl⟩

/-- **The map determines the list.** -/
theorem ext_of_lookup (hrank : ∀ a b, rank a = rank b → key a = key b)
    (hlookup : t.lookup = t'.lookup) : t = t' := by
  have hmem : ∀ a, a ∈ t.entries ↔ a ∈ t'.entries := by
    intro a
    have ha := congrFun hlookup (key a)
    rw [← and_iff_left (a := a ∈ t.entries) (rfl : key a = key a), ← lookup_eq_some_iff, ha,
      lookup_eq_some_iff, and_iff_left rfl]
  have hperm : t.entries.Perm t'.entries :=
    (List.perm_ext_iff_of_nodup t.nodup.of_map t'.nodup.of_map).2 hmem
  refine ext_entries (hperm.eq_of_pairwise (fun a b ha hb hab hba => ?_) t.sorted t'.sorted)
  exact List.inj_on_of_nodup_map t.nodup ha ((hmem b).2 hb) (hrank a b (le_antisymm hab hba))

/-- **Entries of different keys can be stored in either order.** -/
theorem upsert_comm (hrank : ∀ a b, rank a = rank b → key a = key b) (hne : key e ≠ key e') :
    (t.upsert h e).upsert h e' = (t.upsert h e').upsert h e := by
  refine ext_of_lookup hrank ?_
  rw [lookup_upsert, lookup_upsert, lookup_upsert, lookup_upsert]
  exact Function.update_comm hne _ _ _

/-- Store entries one after the other. -/
def upsertAll (h : ComparesBy cmp rank) (t : Table key rank) (es : List α) : Table key rank :=
  es.foldl (upsert h) t

/-- **What is found is what was stored last.** -/
theorem lookup_upsertAll (es : List α) :
    (upsertAll h empty es : Table key rank).lookup k = es.reverse.find? fun a => key a = k := by
  induction es using List.reverseRecOn with
  | nil => rfl
  | append_singleton es e ih =>
    rw [upsertAll, List.foldl_append, List.foldl_cons, List.foldl_nil, lookup_upsert,
      List.reverse_append, List.reverse_singleton, List.singleton_append]
    by_cases hk : key e = k
    · subst hk
      rw [Function.update_self, List.find?_cons_of_pos (by simp)]
    · rw [Function.update_of_ne (Ne.symm hk), List.find?_cons_of_neg (by simpa using hk)]
      exact ih

end Table

end Keyed
