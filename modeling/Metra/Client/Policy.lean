import Metra.Keyed.Best
import Metra.Wire

/-!
# Lane policies and runtime policies

`lane_policy.rs` and `runtime_policy.rs`: two stores of entries, each for a
workload profile, that differ in the entries only.  What they have in common is
written once, over the differences (`PolicyKind`).  A throughput, which is an `f64`,
is its bits.

* `compareEntryMatch_comparesBy` — entries are compared by how far their profile is from
  the requested one, and then by their age;
* `matchKey_eq_zero_iff` — only the requested profile itself is at no distance;
* `select_nearest` — **the usable entry that is selected is a nearest one**, in both stores.
-/

namespace Metra.Client

open Keyed

/-! ## The stores -/

/-- What a policy file holds. -/
structure PolicyStore (Entry : Type) where
  schemaVersion : Nat
  updatedAt : Int
  entries : List Entry
  deriving DecidableEq

/-- The entry that was chosen for a workload, and whether it was made for that very workload. -/
structure PolicySelection (Entry : Type) where
  entry : Entry
  exactProfileMatch : Bool

/-- What the two kinds of policies differ in: the profile that an entry is for, with its
four fields, and when an entry is accepted or selected. -/
structure PolicyKind (Entry Profile : Type) where
  name : String
  schemaVersion : Nat
  profile : Entry → Profile
  tunedAt : Entry → Int
  sizeGib : Profile → Nat
  count : Profile → Nat
  ioChunkBytes : Profile → Nat
  noDisk : Profile → Bool
  validate : Entry → Except String Unit
  usable : Entry → Bool
  profile_ext : ∀ p q, sizeGib p = sizeGib q → count p = count q →
    ioChunkBytes p = ioChunkBytes q → noDisk p = noDisk q → p = q
  usable_of_validate : ∀ e, validate e = .ok () → usable e = true

/-- The workload for which a number of lanes was tuned. -/
structure WorkloadProfile where
  sizeGib : Nat
  concurrency : Nat
  ioChunkBytes : Nat
  noDisk : Bool
  deriving DecidableEq

/-- The lanes that were found best for a workload, and how fast they were. -/
structure LanePolicyEntry where
  profile : WorkloadProfile
  recommendedLanes : Nat
  source : String
  tunedAt : Int
  aggregateP50Gbps : UInt64
  aggregateP95Gbps : UInt64
  deriving DecidableEq

/-- The lane policy file. -/
abbrev LanePolicyStore := PolicyStore LanePolicyEntry

/-- The version that lane policy files are written with. -/
def lanePolicySchemaVersion : Nat := 1

/-- An entry that recommends no lanes is not stored. -/
def validateLanePolicyEntry (entry : LanePolicyEntry) : Except String Unit :=
  if entry.recommendedLanes = 0 then .error "policy entry recommended_lanes must be > 0"
  else .ok ()

/-- Lane policies, as a kind of policy. -/
def lanePolicy : PolicyKind LanePolicyEntry WorkloadProfile where
  name := "lane policy"
  schemaVersion := lanePolicySchemaVersion
  profile := LanePolicyEntry.profile
  tunedAt := LanePolicyEntry.tunedAt
  sizeGib := WorkloadProfile.sizeGib
  count := WorkloadProfile.concurrency
  ioChunkBytes := WorkloadProfile.ioChunkBytes
  noDisk := WorkloadProfile.noDisk
  validate := validateLanePolicyEntry
  usable entry := decide (entry.recommendedLanes > 0)
  profile_ext := by
    rintro ⟨⟩ ⟨⟩ rfl rfl rfl rfl
    rfl
  usable_of_validate := by
    intro entry h
    rw [validateLanePolicyEntry] at h
    split at h
    · cases h
    · exact decide_eq_true (by omega)

/-- The workload for which a runtime profile was tuned. -/
structure RuntimeWorkloadProfile where
  sizeGib : Nat
  lanes : Nat
  ioChunkBytes : Nat
  noDisk : Bool
  deriving DecidableEq

/-- The profile that was found best for a workload, with its tuning and how fast it was. -/
structure RuntimePolicyEntry where
  profile : RuntimeWorkloadProfile
  recommendedProfile : String
  effectiveIoChunkBytes : Nat
  fileReadPipelineDepth : Nat
  source : String
  tunedAt : Int
  throughputP50Gbps : UInt64
  throughputP95Gbps : UInt64
  deriving DecidableEq

/-- The runtime policy file. -/
abbrev RuntimePolicyStore := PolicyStore RuntimePolicyEntry

/-- The version that runtime policy files are written with. -/
def runtimePolicySchemaVersion : Nat := 1

/-- An entry that recommends nothing, or nothing that could be used, is not stored. -/
def validateRuntimePolicyEntry (entry : RuntimePolicyEntry) : Except String Unit :=
  if isBlank entry.recommendedProfile then
    .error "runtime policy entry recommended_profile must not be empty"
  else if entry.effectiveIoChunkBytes = 0 then
    .error "runtime policy entry effective_io_chunk_bytes must be > 0"
  else if entry.fileReadPipelineDepth = 0 then
    .error "runtime policy entry file_read_pipeline_depth must be > 0"
  else .ok ()

/-- Runtime policies, as a kind of policy. -/
def runtimePolicy : PolicyKind RuntimePolicyEntry RuntimeWorkloadProfile where
  name := "runtime policy"
  schemaVersion := runtimePolicySchemaVersion
  profile := RuntimePolicyEntry.profile
  tunedAt := RuntimePolicyEntry.tunedAt
  sizeGib := RuntimeWorkloadProfile.sizeGib
  count := RuntimeWorkloadProfile.lanes
  ioChunkBytes := RuntimeWorkloadProfile.ioChunkBytes
  noDisk := RuntimeWorkloadProfile.noDisk
  validate := validateRuntimePolicyEntry
  usable entry := !isBlank entry.recommendedProfile && entry.effectiveIoChunkBytes > 0 &&
    entry.fileReadPipelineDepth > 0
  profile_ext := by
    rintro ⟨⟩ ⟨⟩ rfl rfl rfl rfl
    rfl
  usable_of_validate := by
    intro entry h
    simp only [validateRuntimePolicyEntry] at h
    split_ifs at h with hblank hchunk hdepth
    simp only [Bool.and_eq_true, Bool.not_eq_true', decide_eq_true_eq]
    exact ⟨⟨by simpa using hblank, by omega⟩, by omega⟩

/-! ## Selecting -/

/-- `u64::abs_diff`, and that of the other unsigned integers. -/
def absDiff (a b : Nat) : Nat := if a < b then b - a else a - b

theorem absDiff_eq_zero_iff {a b : Nat} : absDiff a b = 0 ↔ a = b := by
  rw [absDiff]
  split <;> omega

section

variable {Entry Profile : Type} (kind : PolicyKind Entry Profile)

/-- How far an entry is from the requested profile; tuples compare lexicographically. -/
def matchKey (entry : Entry) (requested : Profile) : ℕ ×ₗ ℕ ×ₗ ℕ ×ₗ ℕ :=
  toLex ((kind.noDisk (kind.profile entry) != kind.noDisk requested).toNat,
    toLex (absDiff (kind.count (kind.profile entry)) (kind.count requested),
      toLex (absDiff (kind.sizeGib (kind.profile entry)) (kind.sizeGib requested),
        absDiff (kind.ioChunkBytes (kind.profile entry)) (kind.ioChunkBytes requested))))

/-- The entry whose workload is nearer comes first, and of equally near ones the later. -/
def compareEntryMatch (requested : Profile) (left right : Entry) : Ordering :=
  let leftKey := matchKey kind left requested
  let rightKey := matchKey kind right requested
  (compare leftKey rightKey).then (compare (kind.tunedAt right) (kind.tunedAt left))

/-- The first of the usable entries in this order. -/
def selectPolicy [DecidableEq Profile] (store : PolicyStore Entry) (requested : Profile) :
    Option (PolicySelection Entry) := do
  let best ← minBy (compareEntryMatch kind requested) (store.entries.filter kind.usable)
  return ⟨best, decide (kind.profile best = requested)⟩

end

/-- The lanes to take for a workload. -/
def selectLanePolicy (store : LanePolicyStore) (requested : WorkloadProfile) :
    Option (PolicySelection LanePolicyEntry) := selectPolicy lanePolicy store requested

/-- The runtime profile to take for a workload. -/
def selectRuntimePolicy (store : RuntimePolicyStore) (requested : RuntimeWorkloadProfile) :
    Option (PolicySelection RuntimePolicyEntry) := selectPolicy runtimePolicy store requested

/-! ## What is selected -/

section

variable {Entry Profile : Type} {kind : PolicyKind Entry Profile}

/-- **Entries are compared by their distance, and of equal ones the newest comes first.** -/
theorem compareEntryMatch_comparesBy (requested : Profile) :
    ComparesBy (compareEntryMatch kind requested) fun e =>
      toLex (matchKey kind e requested, OrderDual.toDual (kind.tunedAt e)) :=
  (ComparesBy.field _).andThen (ComparesBy.field _).swap

/-- **Only the requested profile itself is at no distance.** -/
theorem matchKey_eq_zero_iff {e : Entry} {requested : Profile} :
    matchKey kind e requested = toLex (0, toLex (0, toLex (0, 0))) ↔
      kind.profile e = requested := by
  simp only [matchKey, toLex_inj, Prod.mk.injEq, absDiff_eq_zero_iff, Bool.toNat_eq_zero,
    bne_eq_false_iff_eq]
  constructor
  · rintro ⟨hdisk, hcount, hsize, hchunk⟩
    exact kind.profile_ext _ _ hsize hcount hchunk hdisk
  · rintro rfl
    exact ⟨rfl, rfl, rfl, rfl⟩

theorem zero_le_matchKey (e : Entry) (requested : Profile) :
    toLex (0, toLex (0, toLex (0, 0))) ≤ matchKey kind e requested := by
  simp only [matchKey, Prod.Lex.toLex_le_toLex]
  omega

variable [DecidableEq Profile]

theorem selectPolicy_eq_some_iff {store : PolicyStore Entry} {requested : Profile}
    {selection : PolicySelection Entry} :
    selectPolicy kind store requested = some selection ↔
      minBy (compareEntryMatch kind requested) (store.entries.filter kind.usable) =
          some selection.entry ∧
        selection.exactProfileMatch = decide (kind.profile selection.entry = requested) := by
  obtain ⟨entry, exactMatch⟩ := selection
  rw [selectPolicy]
  cases minBy (compareEntryMatch kind requested) (store.entries.filter kind.usable) with
  | none => simp
  | some best =>
    simp only [Option.bind_eq_bind, Option.bind_some, Option.pure_def, Option.some.injEq,
      PolicySelection.mk.injEq]
    constructor
    · rintro ⟨rfl, rfl⟩
      exact ⟨rfl, rfl⟩
    · rintro ⟨rfl, hmatch⟩
      exact ⟨rfl, hmatch.symm⟩

/-- What selecting from a store comes to. -/
structure Nearest (kind : PolicyKind Entry Profile)
    (select : PolicyStore Entry → Profile → Option (PolicySelection Entry)) : Prop where
  none_iff : ∀ store requested,
    select store requested = none ↔ ∀ e ∈ store.entries, kind.usable e = false
  usable : ∀ store requested selection, select store requested = some selection →
    selection.entry ∈ store.entries ∧ kind.usable selection.entry = true
  /-- A usable entry that is nearer, or as near and newer, would have been selected. -/
  nearest : ∀ store requested selection, select store requested = some selection →
    ∀ e ∈ store.entries, kind.usable e = true →
      matchKey kind selection.entry requested < matchKey kind e requested ∨
        (matchKey kind selection.entry requested = matchKey kind e requested ∧
          kind.tunedAt e ≤ kind.tunedAt selection.entry)
  exact_iff : ∀ store requested selection, select store requested = some selection →
    (selection.exactProfileMatch = true ↔
      ∃ e ∈ store.entries, kind.usable e = true ∧ kind.profile e = requested)
  newest : ∀ store requested selection, select store requested = some selection →
    selection.exactProfileMatch = true → kind.profile selection.entry = requested ∧
      ∀ e ∈ store.entries, kind.usable e = true → kind.profile e = requested →
        kind.tunedAt e ≤ kind.tunedAt selection.entry
  /-- The entries may be in any order. -/
  unordered : ∀ store store' requested selection, select store requested = some selection →
    store'.entries.Perm store.entries → ∃ selection', select store' requested = some selection' ∧
      matchKey kind selection'.entry requested = matchKey kind selection.entry requested ∧
      kind.tunedAt selection'.entry = kind.tunedAt selection.entry

/-- The selected entry comes first of the usable ones. -/
theorem nearest_of_selectPolicy {store : PolicyStore Entry} {requested : Profile}
    {selection : PolicySelection Entry} (h : selectPolicy kind store requested = some selection)
    {e : Entry} (he : e ∈ store.entries) (husable : kind.usable e = true) :
    matchKey kind selection.entry requested < matchKey kind e requested ∨
      (matchKey kind selection.entry requested = matchKey kind e requested ∧
        kind.tunedAt e ≤ kind.tunedAt selection.entry) := by
  have hle := rank_le_of_minBy (compareEntryMatch_comparesBy requested)
    (selectPolicy_eq_some_iff.1 h).1 (List.mem_filter.2 ⟨he, husable⟩)
  exact (Prod.Lex.le_iff.1 hle).imp_right fun hage => ⟨hage.1, hage.2⟩

theorem selectPolicy_nearest : Nearest kind (selectPolicy kind) where
  none_iff := by
    intro store requested
    rw [selectPolicy, Option.bind_eq_bind, Option.bind_eq_none_iff]
    simp only [Option.pure_def, reduceCtorEq, imp_false]
    rw [← Option.eq_none_iff_forall_ne_some, minBy_eq_none_iff, List.filter_eq_nil_iff]
    simp only [Bool.not_eq_true]
  usable := by
    intro store requested selection h
    exact List.mem_filter.1 (mem_of_minBy (compareEntryMatch_comparesBy requested)
      (selectPolicy_eq_some_iff.1 h).1)
  nearest := fun store requested selection h e he husable =>
    nearest_of_selectPolicy h he husable
  exact_iff := by
    intro store requested selection h
    have hselection := selectPolicy_eq_some_iff.1 h
    rw [hselection.2, decide_eq_true_eq]
    constructor
    · intro hprofile
      obtain ⟨hmem, husable⟩ := List.mem_filter.1
        (mem_of_minBy (compareEntryMatch_comparesBy requested) hselection.1)
      exact ⟨_, hmem, husable, hprofile⟩
    · rintro ⟨e, he, husable, hprofile⟩
      -- nothing is nearer than an entry at no distance
      have hzero := matchKey_eq_zero_iff.2 hprofile
      refine matchKey_eq_zero_iff.1 (le_antisymm ?_ (zero_le_matchKey _ _))
      rw [← hzero]
      rcases nearest_of_selectPolicy h he husable with hlt | ⟨heq, -⟩
      · exact hlt.le
      · exact heq.le
  newest := by
    intro store requested selection h hexact
    have hprofile : kind.profile selection.entry = requested := by
      rw [(selectPolicy_eq_some_iff.1 h).2] at hexact
      exact of_decide_eq_true hexact
    refine ⟨hprofile, fun e he husable heq => ?_⟩
    rcases nearest_of_selectPolicy h he husable with hlt | ⟨-, hage⟩
    · rw [matchKey_eq_zero_iff.2 hprofile, matchKey_eq_zero_iff.2 heq] at hlt
      exact absurd hlt (lt_irrefl _)
    · exact hage
  unordered := by
    intro store store' requested selection h hperm
    obtain ⟨best, hbest, hrank⟩ := minBy_perm (compareEntryMatch_comparesBy requested)
      (hperm.filter kind.usable) (selectPolicy_eq_some_iff.1 h).1
    refine ⟨⟨best, decide (kind.profile best = requested)⟩,
      selectPolicy_eq_some_iff.2 ⟨hbest, rfl⟩, ?_, ?_⟩
    · exact congrArg (fun rank => (ofLex rank).1) hrank
    · exact congrArg (fun rank => OrderDual.ofDual (ofLex rank).2) hrank

end

/-- **What is selected from a store is a usable entry nearest to the requested profile**,
and of several the newest. -/
theorem select_nearest :
    Nearest lanePolicy selectLanePolicy ∧ Nearest runtimePolicy selectRuntimePolicy :=
  ⟨selectPolicy_nearest, selectPolicy_nearest⟩

end Metra.Client
