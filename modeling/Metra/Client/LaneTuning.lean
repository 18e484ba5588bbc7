import Mathlib.Data.List.Nodup
import Metra.Client.Float
import Metra.Keyed.Best

/-!
# Which number of lanes is recommended

Load tuning tries several numbers of lanes, summarises what each of them has achieved, and
recommends one.

* `candidateRecommendationScore` and `recommendedLaneCandidate` — the code;
* `recommendedLaneCandidate_eq_none_iff` and `recommendedLaneCandidate_perm` — when there is
  no recommendation, and that the order of the candidates makes no difference;
* `recommendsBest_iff` — the candidate is the best one **exactly when those that come first by
  score and throughput have had equally many runs that succeeded**: of two that have not, the
  one with fewer is taken.
-/

namespace Metra.Client

open Keyed

section

variable {F : Type} [LinearOrder F] (ops : FloatOps F)

/-! ## Candidates -/

/-- One iteration under load, without what was measured of the host. -/
structure TuneLanesRun (F : Type) where
  iteration : Nat
  lanes : Nat
  elapsedMs : Nat
  aggregateGbps : F
  transferGbps : ThroughputStats F
  successfulJobs : Nat
  failedJobs : Nat
  errors : List String
  deriving DecidableEq

/-- A number of lanes, and how its runs went. -/
structure TuneLanesCandidate (F : Type) where
  lanes : Nat
  aggregateGbps : ThroughputStats F
  transferGbps : ThroughputStats F
  successfulRuns : Nat
  failedRuns : Nat
  successRate : Option F
  stabilityFactor : Option F
  recommendationScore : Option F
  runs : List (TuneLanesRun F)
  deriving DecidableEq

/-- How near the median is to the 95th percentile: 1 is as stable as can be. -/
def laneStabilityFactor (aggregate : ThroughputStats F) : F :=
  if ops.le aggregate.p95 (ops.ofNat 0) then ops.ofNat 0
  else ops.clamp (ops.div aggregate.p50 aggregate.p95) (ops.ofNat 0) (ops.ofNat 1)

/-- A fast candidate scores high, but only as far as it succeeds and is stable. -/
def laneRecommendationScore (p50Gbps successRate stabilityFactor : F) : F :=
  ops.mul
    (ops.mul (ops.max p50Gbps (ops.ofNat 0)) (ops.clamp successRate (ops.ofNat 0) (ops.ofNat 1)))
    (ops.clamp stabilityFactor (ops.ofNat 0) (ops.ofNat 1))

/-- The sum of the two counts is that of a release build, which wraps. -/
def candidateSuccessRate (candidate : TuneLanesCandidate F) : F :=
  match candidate.successRate with
  | some value => ops.clamp value (ops.ofNat 0) (ops.ofNat 1)
  | none =>
    let total := (candidate.successfulRuns + candidate.failedRuns) % 2 ^ 32
    if total = 0 then ops.ofNat 0
    else ops.div (ops.ofNat candidate.successfulRuns) (ops.ofNat total)

/-- The stability that a candidate says it has, or what its throughputs give. -/
def candidateStabilityFactor (candidate : TuneLanesCandidate F) : F :=
  match candidate.stabilityFactor with
  | some value => ops.clamp value (ops.ofNat 0) (ops.ofNat 1)
  | none => laneStabilityFactor ops candidate.aggregateGbps

/-- The score that a candidate says it has, or what its numbers give. -/
def candidateRecommendationScore (candidate : TuneLanesCandidate F) : F :=
  match candidate.recommendationScore with
  | some value => ops.max value (ops.ofNat 0)
  | none =>
    laneRecommendationScore ops candidate.aggregateGbps.p50 (candidateSuccessRate ops candidate)
      (candidateStabilityFactor ops candidate)

/-! ## The recommendation -/

/-- A recommendation, with its reason for a reader. -/
structure RecommendedLaneCandidate (F : Type) where
  lanes : Nat
  score : F
  reason : String

/-- The comparator that `max_by` is given. -/
def compareLaneCandidates (left right : TuneLanesCandidate F) : Ordering :=
  (((compare (candidateRecommendationScore ops left) (candidateRecommendationScore ops right)).then
    (compare left.aggregateGbps.p50 right.aggregateGbps.p50)).then
    (compare right.successfulRuns left.successfulRuns)).then
    (compare right.lanes left.lanes)

/-- Candidates of which some run has succeeded. -/
def usableCandidates (candidates : List (TuneLanesCandidate F)) : List (TuneLanesCandidate F) :=
  candidates.filter fun candidate => candidate.successfulRuns > 0

/-- The best of the usable candidates. -/
def selectedLaneCandidate (candidates : List (TuneLanesCandidate F)) :
    Option (TuneLanesCandidate F) :=
  maxBy (compareLaneCandidates ops) (usableCandidates candidates)

/-- What is said of the candidate that is selected. -/
def laneRecommendation (selected : TuneLanesCandidate F) : RecommendedLaneCandidate F :=
  let successRate := ops.fixed 2 (candidateSuccessRate ops selected)
  let stabilityFactor := ops.fixed 2 (candidateStabilityFactor ops selected)
  let score := candidateRecommendationScore ops selected
  let p50 := ops.fixed 3 selected.aggregateGbps.p50
  { lanes := selected.lanes
    score
    reason :=
      s!"selected lanes={selected.lanes} score={ops.fixed 3 score} (p50={p50}Gbps " ++
        s!"success_rate={successRate} stability={stabilityFactor})" }

/-- The best of them, as a recommendation. -/
def recommendedLaneCandidate (candidates : List (TuneLanesCandidate F)) :
    Option (RecommendedLaneCandidate F) :=
  (selectedLaneCandidate ops candidates).map (laneRecommendation ops)

/-! ## The best candidate -/

/-- Score and throughput, by which candidates are compared first. -/
def performance (candidate : TuneLanesCandidate F) : F ×ₗ F :=
  toLex (candidateRecommendationScore ops candidate, candidate.aggregateGbps.p50)

/-- How good a candidate is: its performance, then more runs that succeeded, then fewer
lanes. -/
def merit (candidate : TuneLanesCandidate F) : ((F ×ₗ F) ×ₗ ℕ) ×ₗ ℕᵒᵈ :=
  toLex (toLex (performance ops candidate, candidate.successfulRuns),
    OrderDual.toDual candidate.lanes)

/-- The recommendation that should be made: the best candidate, whatever the order. -/
structure RecommendsBest (candidates : List (TuneLanesCandidate F)) : Prop where
  none_iff : recommendedLaneCandidate ops candidates = none ↔
    ∀ candidate ∈ candidates, ¬ candidate.successfulRuns > 0
  best : ∀ selected, selectedLaneCandidate ops candidates = some selected →
    recommendedLaneCandidate ops candidates = some (laneRecommendation ops selected) ∧
      selected ∈ candidates ∧ selected.successfulRuns > 0 ∧
      ∀ candidate ∈ candidates, candidate.successfulRuns > 0 →
        merit ops candidate ≤ merit ops selected
  perm : (candidates.map TuneLanesCandidate.lanes).Nodup →
    ∀ candidates', candidates'.Perm candidates →
      recommendedLaneCandidate ops candidates' = recommendedLaneCandidate ops candidates

/-- The usable candidates of which none performs better. -/
def Foremost (candidates : List (TuneLanesCandidate F)) (candidate : TuneLanesCandidate F) :
    Prop :=
  candidate ∈ usableCandidates candidates ∧
    ∀ other ∈ usableCandidates candidates, performance ops other ≤ performance ops candidate

end

section

variable {F : Type} [LinearOrder F] {ops : FloatOps F}
  {candidates candidates' : List (TuneLanesCandidate F)} {candidate selected : TuneLanesCandidate F}

omit [LinearOrder F] in
theorem mem_usableCandidates :
    candidate ∈ usableCandidates candidates ↔
      candidate ∈ candidates ∧ candidate.successfulRuns > 0 := by
  simp [usableCandidates]

/-- The comparator prefers fewer runs that succeeded. -/
theorem comparesBy_compareLaneCandidates :
    ComparesBy (compareLaneCandidates ops) fun candidate =>
      toLex (toLex (performance ops candidate, OrderDual.toDual candidate.successfulRuns),
        OrderDual.toDual candidate.lanes) :=
  (((ComparesBy.field (candidateRecommendationScore ops)).andThen
    (ComparesBy.field fun candidate : TuneLanesCandidate F =>
      candidate.aggregateGbps.p50)).andThen
    (ComparesBy.field TuneLanesCandidate.successfulRuns).swap).andThen
    (ComparesBy.field TuneLanesCandidate.lanes).swap

/-- **There is no recommendation exactly when no run has succeeded.** -/
theorem recommendedLaneCandidate_eq_none_iff :
    recommendedLaneCandidate ops candidates = none ↔
      ∀ candidate ∈ candidates, ¬ candidate.successfulRuns > 0 := by
  rw [recommendedLaneCandidate, Option.map_eq_none_iff, selectedLaneCandidate, maxBy_eq_none_iff,
    usableCandidates, List.filter_eq_nil_iff]
  simp

/-- **The order of the candidates makes no difference**, when no two have as many lanes. -/
theorem recommendedLaneCandidate_perm
    (hlanes : (candidates.map TuneLanesCandidate.lanes).Nodup)
    (hperm : candidates'.Perm candidates) :
    recommendedLaneCandidate ops candidates' = recommendedLaneCandidate ops candidates := by
  have hinj : ∀ a ∈ usableCandidates candidates, ∀ b ∈ usableCandidates candidates,
      a.lanes = b.lanes → a = b := by
    intro a ha b hb heq
    exact List.inj_on_of_nodup_map hlanes (mem_usableCandidates.1 ha).1
      (mem_usableCandidates.1 hb).1 heq
  rw [recommendedLaneCandidate, recommendedLaneCandidate, selectedLaneCandidate,
    selectedLaneCandidate]
  congr 1
  refine maxBy_perm comparesBy_compareLaneCandidates (hperm.filter _) fun a ha b hb heq => ?_
  exact hinj a ha b hb
    (congrArg (fun rank : ((F ×ₗ F) ×ₗ ℕᵒᵈ) ×ₗ ℕᵒᵈ => OrderDual.ofDual (ofLex rank).2) heq)

/-- What is selected has the best performance; of those that perform as well, none has had
fewer runs that succeeded, and of those that have had as many none has fewer lanes. -/
theorem selectedLaneCandidate_spec (h : selectedLaneCandidate ops candidates = some selected) :
    Foremost ops candidates selected ∧
      ∀ candidate ∈ usableCandidates candidates,
        performance ops candidate = performance ops selected →
          selected.successfulRuns ≤ candidate.successfulRuns ∧
            (candidate.successfulRuns = selected.successfulRuns →
              selected.lanes ≤ candidate.lanes) := by
  obtain ⟨hmem, hle⟩ := maxBy_spec comparesBy_compareLaneCandidates h
  constructor
  · refine ⟨hmem, fun other hother => ?_⟩
    rcases Prod.Lex.toLex_le_toLex.1 (hle other hother) with hlt | ⟨heq, -⟩
    · rcases Prod.Lex.toLex_lt_toLex.1 hlt with hlt | ⟨heq, -⟩
      · exact le_of_lt hlt
      · exact le_of_eq heq
    · exact le_of_eq (congrArg (fun rank => (ofLex rank).1) heq)
  · intro candidate hcandidate hperf
    rcases Prod.Lex.toLex_le_toLex.1 (hle candidate hcandidate) with hlt | ⟨heq, hlanes⟩
    · rcases Prod.Lex.toLex_lt_toLex.1 hlt with hlt | ⟨-, hruns⟩
      · exact absurd hlt (hperf ▸ lt_irrefl _)
      · have hruns : selected.successfulRuns < candidate.successfulRuns := hruns
        exact ⟨Nat.le_of_lt hruns, fun heq => by omega⟩
    · have hruns : candidate.successfulRuns = selected.successfulRuns :=
        congrArg (fun rank : (F ×ₗ F) ×ₗ ℕᵒᵈ => OrderDual.ofDual (ofLex rank).2) heq
      exact ⟨Nat.le_of_eq hruns.symm, fun _ => hlanes⟩

theorem merit_le_iff : merit ops candidate ≤ merit ops selected ↔
    performance ops candidate < performance ops selected ∨
      (performance ops candidate = performance ops selected ∧
        (candidate.successfulRuns < selected.successfulRuns ∨
          (candidate.successfulRuns = selected.successfulRuns ∧
            selected.lanes ≤ candidate.lanes))) := by
  rw [merit, merit, Prod.Lex.toLex_le_toLex, Prod.Lex.toLex_lt_toLex]
  constructor
  · rintro ((hlt | ⟨heq, hruns⟩) | ⟨heq, hlanes⟩)
    · exact .inl hlt
    · exact .inr ⟨heq, .inl hruns⟩
    · have hboth := Prod.mk.inj (toLex.injective heq)
      exact .inr ⟨hboth.1, .inr ⟨hboth.2, hlanes⟩⟩
  · rintro (hlt | ⟨heq, hruns | ⟨hruns, hlanes⟩⟩)
    · exact .inl (.inl hlt)
    · exact .inl (.inr ⟨heq, hruns⟩)
    · exact .inr ⟨by rw [heq, hruns], hlanes⟩

/-- **The best candidate is recommended exactly when those that perform best have had equally
many runs that succeeded.** -/
theorem recommendsBest_iff {F : Type} [LinearOrder F] (ops : FloatOps F)
    (candidates : List (TuneLanesCandidate F)) :
    RecommendsBest ops candidates ↔
      ∀ a b, Foremost ops candidates a → Foremost ops candidates b →
        a.successfulRuns = b.successfulRuns := by
  constructor
  · intro hbest
    have hsel : ∀ a, Foremost ops candidates a → ∀ selected,
        selectedLaneCandidate ops candidates = some selected →
          a.successfulRuns = selected.successfulRuns := by
      intro a ha selected hselected
      obtain ⟨hfore, hties⟩ := selectedLaneCandidate_spec hselected
      have hperf : performance ops a = performance ops selected :=
        le_antisymm (hfore.2 a ha.1) (ha.2 selected hfore.1)
      obtain ⟨hmem, husable⟩ := mem_usableCandidates.1 ha.1
      have hfewer := (hties a ha.1 hperf).1
      rcases merit_le_iff.1 ((hbest.best selected hselected).2.2.2 a hmem husable) with
        hlt | ⟨-, hlt | ⟨heq, -⟩⟩
      · exact absurd hlt (hperf ▸ lt_irrefl _)
      · omega
      · exact heq
    intro a b ha hb
    cases hselected : selectedLaneCandidate ops candidates with
    | none =>
      have hnil := maxBy_eq_none_iff.1 hselected
      have hmem := ha.1
      rw [hnil] at hmem
      cases hmem
    | some selected => rw [hsel a ha selected hselected, hsel b hb selected hselected]
  · intro hequal
    refine ⟨recommendedLaneCandidate_eq_none_iff, fun selected hselected => ?_,
      fun hlanes _ hperm => recommendedLaneCandidate_perm hlanes hperm⟩
    obtain ⟨hfore, hties⟩ := selectedLaneCandidate_spec hselected
    obtain ⟨hmem, husable⟩ := mem_usableCandidates.1 hfore.1
    refine ⟨by rw [recommendedLaneCandidate, hselected, Option.map_some], hmem, husable,
      fun candidate hcandidate hruns => ?_⟩
    have hcand := mem_usableCandidates.2 ⟨hcandidate, hruns⟩
    rw [merit_le_iff]
    rcases lt_or_eq_of_le (hfore.2 candidate hcand) with hlt | hperf
    · exact .inl hlt
    · have hsame := hequal candidate selected ⟨hcand, hperf ▸ hfore.2⟩ hfore
      exact .inr ⟨hperf, .inr ⟨hsame, (hties candidate hcand hperf).2 hsame⟩⟩

end

namespace TuningSample

/-- A candidate of a report that has only measurements and counts. -/
def candidate (lanes : Nat) (p50 p95 : ℚ) (successfulRuns failedRuns : Nat) :
    TuneLanesCandidate ℚ where
  lanes := lanes
  aggregateGbps := ⟨p50, p50, p95, p95, (p50 + p95) / 2⟩
  transferGbps := ⟨1, 1, 1, 1, 1⟩
  successfulRuns := successfulRuns
  failedRuns := failedRuns
  successRate := none
  stabilityFactor := none
  recommendationScore := none
  runs := []

end TuningSample

open TuningSample in
/-- One candidate is steady and fails every other run, the other one never fails and is half
as steady: they have the same score and throughput, and the one that fails is recommended. -/
theorem recommends_fewer_runs :
    (recommendedLaneCandidate exactOps [candidate 2 2 4 2 0, candidate 4 2 2 1 1]).map
        (fun value => (value.lanes, value.score)) = some (4, 1) ∧
      ¬ RecommendsBest exactOps [candidate 2 2 4 2 0, candidate 4 2 2 1 1] := by
  have hselected : selectedLaneCandidate exactOps [candidate 2 2 4 2 0, candidate 4 2 2 1 1] =
      some (candidate 4 2 2 1 1) := by
    decide +kernel
  refine ⟨by decide +kernel, fun hbest => ?_⟩
  have hle := (hbest.best _ hselected).2.2.2 (candidate 2 2 4 2 0) (by simp) (by decide)
  rw [merit_le_iff] at hle
  revert hle
  decide +kernel

end Metra.Client
