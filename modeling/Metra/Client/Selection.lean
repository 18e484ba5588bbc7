import Metra.Client.PolicyFile
import Metra.Wire

/-!
# Selecting from a report or the policy file

What a benchmark is not told it looks for in the report of a tuning, and then in the policy file.

* `readNamed` and `firstSelected` — the two files, and in which order they are looked at;
* `remembers_of_upsert` and `Remembers.upsert` — an entry that is stored is **remembered**, and
  entries for other workloads leave it alone;
* `Remembers.select` — what is remembered for a workload is selected for it.
-/

namespace Metra.Client

open Interleave Keyed

/-! ## Files -/

/-- A file that is named on the command line: how it is displayed, whether it is seen to exist,
and what reading it gives. -/
structure NamedFile where
  display : String
  present : Bool
  found : Except PolicyReadError (List UInt8)

/-- The policy file as it is. -/
def PolicyDisk.named (d : PolicyDisk) (path : PolicyPath) : NamedFile :=
  ⟨path.display, d.file.isSome, d.found⟩

/-- Read and parse a report or a policy file. -/
def readNamed {α : Type} (what : String) (serde : Serde α) (file : NamedFile) :
    Except String α := do
  let payload ← file.found.mapError fun _ => s!"failed reading {what} {file.display}"
  okOr s!"failed parsing {what} JSON {file.display}" (serde.fromSlice payload)

theorem readNamed_of_parse {α : Type} {what : String} {serde : Serde α} {file : NamedFile}
    {payload : List UInt8} {a : α} (hfound : file.found = .ok payload)
    (hparse : serde.fromSlice payload = some a) : readNamed what serde file = .ok a := by
  rw [readNamed, hfound]
  show okOr _ (serde.fromSlice payload) = _
  rw [hparse, okOr]

/-- The files are looked at in turn, and one that says nothing is passed over. -/
def firstSelected {α : Type} (look : NamedFile → Except String (Option α))
    (file : Option NamedFile) (rest : Except String (Option α)) : Except String (Option α) := do
  match file with
  | none => rest
  | some file =>
    match ← look file with
    | some selected => return some selected
    | none => rest

@[simp] theorem firstSelected_none {α : Type} (look : NamedFile → Except String (Option α))
    (rest : Except String (Option α)) : firstSelected look none rest = rest := rfl

/-- A file that says something is not passed over. -/
theorem firstSelected_of_look {α : Type} {look : NamedFile → Except String (Option α)}
    {file : NamedFile} {rest : Except String (Option α)} {selected : α}
    (h : look file = .ok (some selected)) :
    firstSelected look (some file) rest = .ok (some selected) := by
  simp [firstSelected, h, bind, Except.bind, pure, Except.pure]

/-- A file is seen by its content. -/
theorem named_of_file {d : PolicyDisk} {text : List UInt8} (h : d.file = some text)
    (path : PolicyPath) : d.named path = (PolicyDisk.start (some text)).named path := by
  simp only [PolicyDisk.named, PolicyDisk.found, PolicyDisk.start, h]

/-! ## What the policy file remembers -/

section

variable {Entry Profile : Type} [DecidableEq Profile] {kind : PolicyKind Entry Profile}
  {serde : Serde (PolicyStore Entry)} {path : PolicyPath} {d d' : PolicyDisk}
  {workload : Profile} {P : Entry → Prop}

/-- The policy file has one entry for a workload, which can be selected and of which `P`
holds. -/
def Remembers (kind : PolicyKind Entry Profile) (serde : Serde (PolicyStore Entry))
    (d : PolicyDisk) (workload : Profile) (P : Entry → Prop) : Prop :=
  ∃ entries, entriesOf serde d.file = some entries ∧ (entries.map kind.profile).Nodup ∧
    ∃ entry ∈ entries, kind.profile entry = workload ∧ kind.usable entry = true ∧ P entry

/-- A call stores its entry. -/
theorem remembers_of_upsert (hserde : serde.RoundTrips) {es : List Entry}
    (h : Upserts (upsertPolicyEntry kind serde path) es d) {t : Nat} {entry : Entry}
    (hcall : Prog.Eval policyMachine t (upsertPolicyEntry kind serde path entry).toProg d
      (.ok ()) d') (hentry : P entry) : Remembers kind serde d' (kind.profile entry) P := by
  obtain ⟨entries, -, hput, hvalid⟩ := entriesOf_upsert hserde hcall
  refine ⟨_, hput, ?_, entry, ?_, rfl, kind.usable_of_validate entry hvalid, hentry⟩
  · rw [Option.some.inj (hput.symm.trans (upserts_stored hserde (h.snoc hcall)))]
    exact (policyTable kind (es ++ [entry])).nodup
  · rw [putPolicyEntry, (sortBy_perm _ _).mem_iff]
    exact mem_put_self

/-- There is only one text that a call can write if there is one for a single store. -/
theorem file_of_upsert_single [DecidableEq (PolicyStore Entry)] {store : PolicyStore Entry}
    {text : List UInt8} {t : Nat} {entry : Entry} (hcall : Prog.Eval policyMachine t
      (upsertPolicyEntry kind (Serde.single store text) path entry).toProg d (.ok ()) d') :
    d'.file = some text := by
  obtain ⟨-, payload, ⟨now, entries, -, hjson⟩, hfile⟩ :=
    sound_upsertPolicyEntry d _ d' rfl hcall rfl
  rw [Serde.single, Option.ite_none_right_eq_some] at hjson
  rw [hfile, ← hjson.2]

/-- A call leaves the entries of other workloads alone. -/
theorem Remembers.upsert (hserde : serde.RoundTrips) {es : List Entry}
    (h : Upserts (upsertPolicyEntry kind serde path) es d)
    (hremembers : Remembers kind serde d workload P) {t : Nat} {entry : Entry}
    (hne : kind.profile entry ≠ workload)
    (hcall : Prog.Eval policyMachine t (upsertPolicyEntry kind serde path entry).toProg d
      (.ok ()) d') : Remembers kind serde d' workload P := by
  obtain ⟨entries, hentries, hput, -⟩ := entriesOf_upsert hserde hcall
  obtain ⟨entries', hentries', hnodup, kept, hkept, hworkload, husable, hholds⟩ := hremembers
  obtain rfl := Option.some.inj (hentries.symm.trans hentries')
  refine ⟨_, hput, ?_, kept, ?_, hworkload, husable, hholds⟩
  · rw [Option.some.inj (hput.symm.trans (upserts_stored hserde (h.snoc hcall)))]
    exact (policyTable kind (es ++ [entry])).nodup
  · rw [putPolicyEntry, (sortBy_perm _ _).mem_iff]
    refine (mem_put_iff hnodup).2 (.inr ⟨hkept, ?_⟩)
    rw [hworkload]
    exact hne.symm

/-- **What is remembered for a workload is read from the file and selected.** -/
theorem Remembers.select (h : Remembers kind serde d workload P) (what : String) :
    d.file.isSome = true ∧ ∃ store entry,
      readNamed what serde (d.named path) = .ok store ∧
        selectPolicy kind store workload = some ⟨entry, true⟩ ∧ kind.usable entry = true ∧
        P entry := by
  obtain ⟨entries, hentries, hnodup, entry, hmem, rfl, husable, hholds⟩ := h
  cases hfile : d.file with
  | none =>
    rw [hfile] at hentries
    rw [← Option.some.inj hentries] at hmem
    cases hmem
  | some payload =>
    rw [hfile] at hentries
    obtain ⟨store, hparse, rfl⟩ := Option.map_eq_some_iff.1 hentries
    have hfound : (d.named path).found = .ok payload := by
      rw [PolicyDisk.named, PolicyDisk.found, hfile]
    exact ⟨rfl, store, entry, readNamed_of_parse hfound hparse,
      selectPolicy_of_mem hnodup hmem husable, husable, hholds⟩

end

end Metra.Client
