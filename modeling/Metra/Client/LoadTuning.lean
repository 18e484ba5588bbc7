import Mathlib.Data.List.Sort
import Metra.Client.RuntimeTuning
import Metra.Text.Decimal

/-!
# Tuning the lanes under load, and what benchmarks make of it

Load tuning tries several numbers of lanes.  In each iteration it runs jobs at the same time, each
of which transfers a file of its own, and it recommends a number of lanes in a report and in the
policy file.

* `load_destinations_nodup` — **no two jobs of a load tuning have the same destination**;
* `tuned_lanes_followed` — **what load tuning recommends is one of the best of its candidates, with
  which all jobs of an iteration have returned, and is what benchmarks take**;
* `tuned_benchmark` — a benchmark takes what both tunings recommend, one after the other.

The text that says how the lanes were selected is part of the result.
-/

namespace Metra.Client

open Interleave Keyed Text

/-! ## Arguments -/

/-- What a load tuning is asked for: the lanes to compare, and the load under which they are
compared. -/
structure TuneLanesArgs where
  sizeGib : Nat
  lanes : List Nat
  concurrency : Nat
  iterations : Nat
  ioChunkBytes : Nat
  noDisk : Bool
  filePath : String
  filePrefix : String
  tenantId : String
  userId : String
  destinationPrefix : String
  /-- The concurrency is a `u32`. -/
  concurrency_lt : concurrency < 2 ^ 32

/-- The checks before anything is sent. -/
def tuneLanesGuards (args : TuneLanesArgs) : Except String Unit := do
  if args.sizeGib = 0 then throw "size_gib must be > 0"
  if args.concurrency = 0 then throw "concurrency must be > 0"
  if args.iterations = 0 then throw "iterations must be > 0"
  if args.ioChunkBytes = 0 then throw "io_chunk_bytes must be > 0"
  if args.lanes.isEmpty then throw "lanes must contain at least one value"
  if (args.lanes.filter (· > 0)).isEmpty then throw "lanes must contain values > 0"

/-- `Vec::dedup`: of equal elements that stand next to each other one is kept. -/
def dedup : List Nat → List Nat
  | a :: b :: l => if a = b then dedup (b :: l) else a :: dedup (b :: l)
  | l => l

/-- The numbers of lanes that are compared, each once and the smallest first. -/
def laneCandidates (lanes : List Nat) : List Nat :=
  dedup ((lanes.filter (· > 0)).insertionSort (· ≤ ·))

section

variable {n : Nat} {l : List Nat}

theorem mem_dedup : n ∈ dedup l ↔ n ∈ l := by
  induction l with
  | nil => simp [dedup]
  | cons a l ih =>
    cases l with
    | nil => simp [dedup]
    | cons b l =>
      rw [dedup]
      split
      next heq => simp [ih, heq]
      next => simp [ih]

/-- What was sorted is strictly ascending. -/
theorem dedup_ascending (h : l.Pairwise (· ≤ ·)) : (dedup l).Pairwise (· < ·) := by
  induction l with
  | nil => simp [dedup]
  | cons a l ih =>
    cases l with
    | nil => simp [dedup]
    | cons b l =>
      have hrest := ih h.of_cons
      rw [dedup]
      split
      next => exact hrest
      next hne =>
        refine hrest.cons ?_
        intro n hn
        have hle : a ≤ b := List.rel_of_pairwise_cons h List.mem_cons_self
        rcases List.mem_cons.1 (mem_dedup.1 hn) with rfl | hn
        · omega
        · have hafter : b ≤ n := List.rel_of_pairwise_cons h.of_cons hn
          omega

theorem mem_laneCandidates {lanes : List Nat} : n ∈ laneCandidates lanes ↔ n ∈ lanes ∧ 0 < n := by
  simp [laneCandidates, mem_dedup]

theorem laneCandidates_ascending (lanes : List Nat) :
    (laneCandidates lanes).Pairwise (· < ·) := by
  apply dedup_ascending
  exact List.pairwise_insertionSort (· ≤ ·) _

end
/-! ## Jobs -/

/-- A job of the tuning: with how many lanes, in which iteration, and which one of those that run
at the same time. -/
structure LoadPoint where
  lanes : Nat
  iteration : Nat
  job : Nat

/-- The jobs in the order of the loops; the iterations are numbered from 1. -/
def loadPoints (args : TuneLanesArgs) : List LoadPoint :=
  (laneCandidates args.lanes).flatMap fun lanes =>
    (List.range args.iterations).flatMap fun i =>
      (List.range args.concurrency).map fun job => ⟨lanes, i + 1, job⟩

/-- The file name of a job tells its lanes, its iteration and its number. -/
def loadFileName (args : TuneLanesArgs) (point : LoadPoint) : String :=
  s!"{args.filePrefix}-{args.sizeGib}g-l{point.lanes}-it{point.iteration}-job{point.job}.bin"

/-- Where the files of all jobs go. -/
def loadDestinationPrefix (args : TuneLanesArgs) : String :=
  if args.noDisk then "null://benchmark/tune-lanes"
  else String.ofList (args.destinationPrefix.toList.rdropWhile (· = '/'))

/-- The request that creates the transfer of a job. -/
def loadRequest (args : TuneLanesArgs) (point : LoadPoint) : CreateTransferRequest where
  tenantId := args.tenantId
  userId := args.userId
  sourceUri :=
    if args.noDisk then s!"generated://zeros/{loadFileName args point}"
    else s!"file://{args.filePath}"
  destinationUri := s!"{loadDestinationPrefix args}/{loadFileName args point}"
  fileName := loadFileName args point
  fileSizeBytes := args.sizeGib * 1024 * 1024 * 1024 % 2 ^ 64
  resumeChunkSizeBytes := Metra.resumeChunkSizeBytes
  overwrite := true
  immutableDestination := false

/-- No job is started twice. -/
theorem nodup_loadPoints (args : TuneLanesArgs) : (loadPoints args).Nodup := by
  have hlanes : (laneCandidates args.lanes).Nodup :=
    (laneCandidates_ascending args.lanes).imp Nat.ne_of_lt
  rw [loadPoints, List.nodup_flatMap]
  constructor
  · intro lanes _
    rw [List.nodup_flatMap]
    constructor
    · intro i _
      apply List.nodup_range.map
      intro job job' h
      exact (LoadPoint.mk.inj h).2.2
    · refine List.nodup_range.imp ?_
      intro i i' hne
      simp only [Function.onFun, List.disjoint_left, List.mem_map]
      rintro point ⟨job, -, rfl⟩ ⟨job', -, h⟩
      have hi := (LoadPoint.mk.inj h).2.1
      omega
  · refine hlanes.imp ?_
    intro lanes lanes' hne
    simp only [Function.onFun, List.disjoint_left, List.mem_flatMap, List.mem_map]
    rintro point ⟨i, -, job, -, rfl⟩ ⟨i', -, job', -, h⟩
    exact hne (LoadPoint.mk.inj h).1.symm

/-- How the calls of a job end. -/
structure LoadJobCalls where
  created : Except String Uuid
  send : TransferCalls
  joinError : Option String

/-- The order in which the tasks of an iteration end, each of which is joined once. -/
def JoinOrder (concurrency : Nat) : Type :=
  { order : List Nat // order.Perm (List.range concurrency) }

/-- How the calls of the tuning end: the source file, the jobs, in which order those of an
iteration are joined, and how long it takes. -/
structure TuneLanesCalls (concurrency : Nat) where
  server : String
  startedAt : Int
  completedAt : Int
  sparseFile : Except String Unit
  job : LoadPoint → LoadJobCalls
  order : Nat → Nat → JoinOrder concurrency
  elapsedMs : Nat → Nat → Nat

/-- How a job sends its transfer. -/
def loadTransferArgs (args : TuneLanesArgs) (lanes : Nat) : TransferArgs where
  label :=
    if args.noDisk then s!"generated://zeros/{args.sizeGib * 1024 * 1024 * 1024 % 2 ^ 64}"
    else args.filePath
  isFile := !args.noDisk
  ioChunkBytes := args.ioChunkBytes
  lanes := lanes
  runtimeProfile := none
  fileReadPipelineDepth := none

/-- A job: its request, its transfer, and whether it could be joined. -/
def loadJob (args : TuneLanesArgs) (calls : TuneLanesCalls args.concurrency)
    (point : LoadPoint) : LoadJob where
  request := loadRequest args point
  created := (calls.job point).created
  args := loadTransferArgs args point.lanes
  calls := (calls.job point).send
  joinError := (calls.job point).joinError

/-! ## Tuning -/

/-- The report of a load tuning. -/
structure TuneLanesReport (F : Type) where
  server : String
  startedAt : Int
  completedAt : Int
  sizeGib : Nat
  concurrency : Nat
  iterations : Nat
  ioChunkBytes : Nat
  noDisk : Bool
  laneCandidates : List Nat
  recommendedLanes : Option Nat
  recommendationStrategy : Option String
  recommendationScore : Option F
  recommendationReason : Option String
  candidates : List (TuneLanesCandidate F)

/-- The workload that a report is about. -/
def TuneLanesReport.workload {F : Type} (report : TuneLanesReport F) : WorkloadProfile :=
  ⟨report.sizeGib, report.concurrency, report.ioChunkBytes, report.noDisk⟩

section

variable {F : Type} [LinearOrder F] (ops : FloatOps F)

/-- Jobs that send a file need one of the right size. -/
def tuneLanesSource (args : TuneLanesArgs) (calls : TuneLanesCalls args.concurrency) :
    Except String Unit := if args.noDisk then .ok () else calls.sparseFile

/-- An iteration: how long it takes, and its jobs as they are joined. -/
def loadIteration (args : TuneLanesArgs) (calls : TuneLanesCalls args.concurrency)
    (lanes iteration : Nat) : Nat × List (Except String (Except Stop (SendTransferReport F))) :=
  (calls.elapsedMs lanes iteration, (calls.order lanes iteration).val.map fun job =>
    (loadJob args calls ⟨lanes, iteration, job⟩).joined ops)

/-- A number of lanes, with all its iterations. -/
def loadCandidate (args : TuneLanesArgs) (calls : TuneLanesCalls args.concurrency)
    (lanes : Nat) : TuneLanesCandidate F :=
  tuneLanesCandidate ops lanes args.concurrency
    ((List.range args.iterations).map fun i => loadIteration ops args calls lanes (i + 1))

/-- Run all jobs of all candidates, and recommend one. -/
def runTuneLanesUnderLoad (args : TuneLanesArgs) (calls : TuneLanesCalls args.concurrency) :
    Except String (TuneLanesReport F) := do
  tuneLanesGuards args
  tuneLanesSource args calls
  let candidates := (laneCandidates args.lanes).map (loadCandidate ops args calls)
  let recommendation := recommendedLaneCandidate ops candidates
  return {
    server := calls.server
    startedAt := calls.startedAt
    completedAt := calls.completedAt
    sizeGib := args.sizeGib
    concurrency := args.concurrency
    iterations := args.iterations
    ioChunkBytes := args.ioChunkBytes
    noDisk := args.noDisk
    laneCandidates := laneCandidates args.lanes
    recommendedLanes := recommendation.map RecommendedLaneCandidate.lanes
    recommendationStrategy :=
      recommendation.map fun _ => "throughput_stability_success_weighted"
    recommendationScore := recommendation.map RecommendedLaneCandidate.score
    recommendationReason := recommendation.map RecommendedLaneCandidate.reason
    candidates }

/-- The lanes that candidates recommend, when the report does not say it. -/
def recommendedLanesFromCandidates (candidates : List (TuneLanesCandidate F)) : Option Nat :=
  (recommendedLaneCandidate ops candidates).map RecommendedLaneCandidate.lanes

/-- The lanes that a report recommends. -/
def recommendedLanesFromReport (report : TuneLanesReport F) : Option Nat :=
  report.recommendedLanes <|> recommendedLanesFromCandidates ops report.candidates

/-! ## The policy file -/

/-- The entry that the recommendation makes. -/
def tuneLanesPolicyEntry (bits : F → UInt64) (jsonOut : Option String)
    (report : TuneLanesReport F) : Except String LanePolicyEntry := do
  let recommendedLanes ← okOr
    "cannot persist lane policy: tune-lanes report has no recommended lanes"
    ((recommendedLanesFromReport ops report).filter (· > 0))
  let selected := report.candidates.find? fun candidate => candidate.lanes = recommendedLanes
  return {
    profile := report.workload
    recommendedLanes
    source :=
      match jsonOut with
      | some path => s!"tune-lanes report {path}"
      | none => "transfer tune-lanes"
    tunedAt := report.completedAt
    aggregateP50Gbps := bits
      ((selected.map fun candidate => candidate.aggregateGbps.p50).getD (ops.ofNat 0))
    aggregateP95Gbps := bits
      ((selected.map fun candidate => candidate.aggregateGbps.p95).getD (ops.ofNat 0)) }

/-- Put what a report recommends into the policy file. -/
def persistTuneLanesPolicy (bits : F → UInt64) (policies : Serde LanePolicyStore)
    (path : PolicyPath) (jsonOut : Option String) (report : TuneLanesReport F) :
    TryProg PolicyOp PolicyOp.Reply String Unit := do
  let entry ← TryProg.ofExcept (tuneLanesPolicyEntry ops bits jsonOut report)
  upsertLanePolicyEntry policies path entry

/-! ## Selecting the lanes -/

/-- The lanes that a report recommends, and what is said of them. -/
def reportedLanes (reports : Serde (TuneLanesReport F)) (file : NamedFile)
    (requested : WorkloadProfile) : Except String (Option (Nat × String)) := do
  let report ← readNamed "auto lanes report" reports file
  match (recommendedLanesFromReport ops report).filter (· > 0) with
  | none => return none
  | some lanes =>
    let selection := s!"auto-selected lanes={lanes} from {file.display}"
    if report.workload = requested then return some (lanes, selection)
    else
      return some (lanes, selection ++
        s!" (report profile size_gib={report.sizeGib} concurrency={report.concurrency} " ++
        s!"io_chunk_bytes={report.ioChunkBytes} no_disk={report.noDisk})")

end

/-- The lanes that the policy file has for a workload, or for the nearest one. -/
def policyLanes (policies : Serde LanePolicyStore) (file : NamedFile)
    (requested : WorkloadProfile) : Except String (Option (Nat × String)) := do
  if !file.present then return none
  let policy ← readNamed "lane policy" policies file
  match selectLanePolicy policy requested with
  | none => return none
  | some selection =>
    let lanes := selection.entry.recommendedLanes
    if lanes > 0 then
      let note := s!"auto-selected lanes={lanes} from lane policy {file.display}"
      if selection.exactProfileMatch then return some (lanes, note)
      else
        let profile := selection.entry.profile
        return some (lanes, note ++
          s!" fallback profile size_gib={profile.sizeGib} concurrency={profile.concurrency} " ++
          s!"io_chunk_bytes={profile.ioChunkBytes} no_disk={profile.noDisk}")
    else return none

/-- The lanes of a benchmark: a report's before the policy file's, and those before the configured
ones. -/
def resolveBenchmarkLanes {F : Type} [LinearOrder F] (ops : FloatOps F)
    (reports : Serde (TuneLanesReport F)) (policies : Serde LanePolicyStore)
    (configuredLanes : Nat) (autoLanesReport lanePolicyPath : Option NamedFile)
    (requested : WorkloadProfile) : Except String (Nat × Option String) := do
  if configuredLanes = 0 then throw "lanes must be > 0"
  match ← firstSelected (reportedLanes ops reports · requested) autoLanesReport
      (firstSelected (policyLanes policies · requested) lanePolicyPath (.ok none)) with
  | some (lanes, note) => return (lanes, some note)
  | none => return (configuredLanes, none)

/-! ## What a report recommends -/

section

variable {F : Type} [LinearOrder F] {ops : FloatOps F} {lanes concurrency : Nat}

/-- An iteration counts as a success if no job has failed. -/
def noneFailed (concurrency : Nat)
    (iteration : Nat × List (Except String (Except Stop (SendTransferReport F)))) : Bool :=
  decide (concurrency - iteration.2.countP joinedReport % 2 ^ 32 = 0)

theorem tuneLanesRun_failedJobs {i elapsedMs : Nat}
    {joined : List (Except String (Except Stop (SendTransferReport F)))} :
    (tuneLanesRun ops i lanes concurrency elapsedMs joined).failedJobs =
      concurrency - joined.countP joinedReport % 2 ^ 32 := by
  rw [← joinJobs_length]
  rfl

theorem lanesTally_successfulRuns
    (iterations : List (Nat × List (Except String (Except Stop (SendTransferReport F))))) :
    (iterations.foldl (LanesTally.add ops lanes concurrency) ⟨[], [], [], 0, 0⟩).successfulRuns =
      iterations.countP (noneFailed concurrency) := by
  induction iterations using List.reverseRecOn with
  | nil => rfl
  | append_singleton iterations iteration ih =>
    rw [List.foldl_append, List.countP_append, ← ih, List.foldl_cons, List.foldl_nil,
      LanesTally.add]
    simp only [tuneLanesRun_failedJobs, List.countP_singleton, noneFailed, decide_eq_true_eq]
    split
    next => rfl
    next => rfl

omit [LinearOrder F] in
/-- A success is an iteration in which every job has returned. -/
theorem of_noneFailed {joined : List (Except String (Except Stop (SendTransferReport F)))}
    {elapsedMs : Nat} (hlength : joined.length = concurrency) (hmax : concurrency < 2 ^ 32)
    (h : noneFailed concurrency (elapsedMs, joined) = true) :
    ∀ job ∈ joined, ∃ report, job = .ok (.ok report) := by
  have hle : joined.countP joinedReport ≤ joined.length := List.countP_le_length
  have hfailed : concurrency - joined.countP joinedReport % 2 ^ 32 = 0 := of_decide_eq_true h
  rw [Nat.mod_eq_of_lt (by omega)] at hfailed
  have hall : joined.countP joinedReport = joined.length := by omega
  intro job hjob
  have hreturned := List.countP_eq_length.1 hall job hjob
  cases job with
  | error err => cases hreturned
  | ok result =>
    obtain ⟨report, rfl⟩ := returned_iff.1 hreturned
    exact ⟨report, rfl⟩

variable {args : TuneLanesArgs} {calls : TuneLanesCalls args.concurrency}
  {report : TuneLanesReport F}

/-- A candidate with a success has had an iteration in which every job has returned. -/
theorem returned_of_loadCandidate (h : 0 < (loadCandidate ops args calls lanes).successfulRuns) :
    ∃ i < args.iterations, ∀ job < args.concurrency,
      ∃ report, (loadJob args calls ⟨lanes, i + 1, job⟩).joined ops = .ok (.ok report) := by
  have hsuccesses : (loadCandidate ops args calls lanes).successfulRuns = _ :=
    lanesTally_successfulRuns _
  rw [hsuccesses, List.countP_pos_iff] at h
  obtain ⟨iteration, hmem, hsuccess⟩ := h
  obtain ⟨i, hi, rfl⟩ := List.mem_map.1 hmem
  refine ⟨i, List.mem_range.1 hi, ?_⟩
  intro job hjob
  have horder := (calls.order lanes (i + 1)).property
  have hlength : ((calls.order lanes (i + 1)).val.map fun job =>
      (loadJob args calls ⟨lanes, i + 1, job⟩).joined ops).length = args.concurrency := by
    rw [List.length_map, horder.length_eq, List.length_range]
  apply of_noneFailed hlength args.concurrency_lt hsuccess
  exact List.mem_map.2 ⟨job, horder.mem_iff.2 (List.mem_range.2 hjob), rfl⟩

/-- The rows of a report, and that its recommendation is that of its rows. -/
theorem rows_of_runTuneLanesUnderLoad (h : runTuneLanesUnderLoad ops args calls = .ok report) :
    report.workload = ⟨args.sizeGib, args.concurrency, args.ioChunkBytes, args.noDisk⟩ ∧
      report.candidates = (laneCandidates args.lanes).map (loadCandidate ops args calls) ∧
      recommendedLanesFromReport ops report =
        recommendedLanesFromCandidates ops report.candidates := by
  obtain ⟨_, -, h⟩ := of_bind_ok h
  obtain ⟨_, -, h⟩ := of_bind_ok h
  cases h
  refine ⟨rfl, rfl, ?_⟩
  rw [recommendedLanesFromReport, recommendedLanesFromCandidates]
  generalize recommendedLaneCandidate ops _ = recommendation
  cases recommendation with
  | none => rfl
  | some value => rfl

/-- A number of lanes that load tuning recommends: it is one that was asked for, none of the
candidates performs better, and in some iteration all jobs have returned. -/
structure TuneLanesReport.Recommends {F : Type} [LinearOrder F] (ops : FloatOps F)
    (args : TuneLanesArgs) (calls : TuneLanesCalls args.concurrency) (report : TuneLanesReport F)
    (lanes : Nat) : Prop where
  recommended : recommendedLanesFromReport ops report = some lanes
  asked : lanes ∈ args.lanes ∧ 0 < lanes
  best : Foremost ops report.candidates (loadCandidate ops args calls lanes)
  returned : ∃ i < args.iterations, ∀ job < args.concurrency,
    ∃ report, (loadJob args calls ⟨lanes, i + 1, job⟩).joined ops = .ok (.ok report)

/-- **What is recommended is one of the best of the candidates.** -/
theorem recommends_of_runTuneLanesUnderLoad
    (h : runTuneLanesUnderLoad ops args calls = .ok report)
    (hrecommended : recommendedLanesFromReport ops report = some lanes) :
    report.Recommends ops args calls lanes := by
  obtain ⟨-, hrows, hreport⟩ := rows_of_runTuneLanesUnderLoad h
  have hlanes := hrecommended
  rw [hreport, recommendedLanesFromCandidates, recommendedLaneCandidate, Option.map_map] at hlanes
  obtain ⟨selected, hselected, rfl⟩ := Option.map_eq_some_iff.1 hlanes
  obtain ⟨hbest, -⟩ := selectedLaneCandidate_spec hselected
  obtain ⟨hmem, hsuccess⟩ := mem_usableCandidates.1 hbest.1
  rw [hrows] at hmem
  obtain ⟨lanes, hasked, rfl⟩ := List.mem_map.1 hmem
  exact ⟨hrecommended, mem_laneCandidates.1 hasked, hbest, returned_of_loadCandidate hsuccess⟩

/-- The entry that is made of a recommendation. -/
theorem entry_of_tuneLanesPolicyEntry {bits : F → UInt64} {jsonOut : Option String}
    {entry : LanePolicyEntry} (hrun : runTuneLanesUnderLoad ops args calls = .ok report)
    (h : tuneLanesPolicyEntry ops bits jsonOut report = .ok entry) :
    report.Recommends ops args calls entry.recommendedLanes ∧
      entry.profile = report.workload := by
  obtain ⟨lanes, hlanes, h⟩ := of_bind_ok h
  cases h
  obtain ⟨hrecommended, -⟩ := Option.filter_eq_some_iff.1 (of_okOr hlanes)
  exact ⟨recommends_of_runTuneLanesUnderLoad hrun hrecommended, rfl⟩

end

/-! ## Benchmarks -/

/-- The lanes are selected, and a benchmark that they were selected for reports them, unless the
file has fewer bytes. -/
structure TakesLanes {F : Type} (ops : FloatOps F) (resolved : Except String (Nat × Option String))
    (lanes : Nat) : Prop where
  selected : ∃ note, resolved = .ok (lanes, some note)
  reported : ∀ (args : BenchArgs) (calls : BenchCalls) (report : SendTransferReport F),
    calls.lanes = resolved.map Prod.fst → runBenchmarkWithProgress ops args calls = .ok report →
      report.effectiveLanes = normalizedLaneCount lanes report.fileSizeBytes

section

variable {F : Type} [LinearOrder F] {ops : FloatOps F} {reports : Serde (TuneLanesReport F)}
  {policies : Serde LanePolicyStore} {requested : WorkloadProfile} {configured lanes : Nat}
  {report policy : Option NamedFile}

omit [LinearOrder F] in
theorem TakesLanes.of_resolved {resolved : Except String (Nat × Option String)} {note : String}
    (h : resolved = .ok (lanes, some note)) : TakesLanes ops resolved lanes where
  selected := ⟨note, h⟩
  reported := by
    intro args calls report hcalls hrun
    obtain ⟨lanes', _, hlanes, -, -, heffective⟩ := sent_of_runBenchmark hrun
    rw [h, hlanes] at hcalls
    cases hcalls
    exact heffective

/-- What the files say is taken instead of what is configured. -/
theorem takesLanes_of_selected {note : String} (hconfigured : 0 < configured)
    (h : firstSelected (reportedLanes ops reports · requested) report
      (firstSelected (policyLanes policies · requested) policy (.ok none)) =
        .ok (some (lanes, note))) :
    TakesLanes ops (resolveBenchmarkLanes ops reports policies configured report policy requested)
      lanes := by
  refine .of_resolved (?_ : _ = Except.ok (lanes, some note))
  rw [resolveBenchmarkLanes, if_neg (by omega), h]
  rfl

/-- An entry that recommends a number of lanes. -/
def LanePolicyEntry.Of (lanes : Nat) (entry : LanePolicyEntry) : Prop :=
  entry.recommendedLanes = lanes

/-- What the policy file remembers is taken, when there is no report. -/
theorem takesLanes_of_remembers {path : PolicyPath} {d : PolicyDisk} (hconfigured : 0 < configured)
    (h : Remembers lanePolicy policies d requested (LanePolicyEntry.Of lanes)) :
    TakesLanes ops (resolveBenchmarkLanes ops reports policies configured none
      (some (d.named path)) requested) lanes := by
  obtain ⟨hpresent, store, entry, hread, hselect, husable, hlanes⟩ := h.select "lane policy"
  have hpresent : (d.named path).present = true := hpresent
  have hselect : selectLanePolicy store requested = some ⟨entry, true⟩ := hselect
  have hpos : entry.recommendedLanes > 0 := of_decide_eq_true husable
  obtain ⟨note, hnote⟩ : ∃ note, policyLanes policies (d.named path) requested =
      .ok (some (lanes, note)) := by
    rw [policyLanes, hread]
    simp only [hpresent, Bool.not_true, Bool.false_eq_true, if_false, bind, Except.bind, hselect,
      hpos, if_true, pure, Except.pure]
    rw [show entry.recommendedLanes = lanes from hlanes]
    exact ⟨_, rfl⟩
  apply takesLanes_of_selected hconfigured
  rw [firstSelected_none]
  exact firstSelected_of_look hnote

/-- What a report recommends is taken, whatever the policy file says. -/
theorem takesLanes_of_report {tuned : TuneLanesReport F} (hconfigured : 0 < configured)
    (hrecommended : recommendedLanesFromReport ops tuned = some lanes) (hpos : 0 < lanes)
    {file : NamedFile} {payload : List UInt8} (hfile : file.found = .ok payload)
    (hparse : reports.fromSlice payload = some tuned) :
    TakesLanes ops (resolveBenchmarkLanes ops reports policies configured (some file) policy
      requested) lanes := by
  have hread : readNamed "auto lanes report" reports file = .ok tuned :=
    readNamed_of_parse hfile hparse
  obtain ⟨note, hnote⟩ : ∃ note, reportedLanes ops reports file requested =
      .ok (some (lanes, note)) := by
    rw [reportedLanes, hread]
    simp only [bind, Except.bind, hrecommended, Option.filter_some, hpos, decide_true, if_true]
    split
    · exact ⟨_, rfl⟩
    · exact ⟨_, rfl⟩
  apply takesLanes_of_selected hconfigured
  exact firstSelected_of_look hnote

end

section

variable {F : Type} [LinearOrder F] {ops : FloatOps F} {bits : F → UInt64}
  {policies : Serde LanePolicyStore} {args : TuneLanesArgs}
  {calls : TuneLanesCalls args.concurrency} {report : TuneLanesReport F}

/-- A tuning whose result was put into the policy file is remembered. -/
theorem remembers_of_tuneLanes (hpolicies : policies.RoundTrips)
    (hrun : runTuneLanesUnderLoad ops args calls = .ok report) {path : PolicyPath}
    {es : List LanePolicyEntry} {d d' : PolicyDisk}
    (hbefore : Upserts (upsertLanePolicyEntry policies path) es d) {jsonOut : Option String}
    {t : Nat} (hpersist : Prog.Eval policyMachine t
      (persistTuneLanesPolicy ops bits policies path jsonOut report).toProg d (.ok ()) d') :
    ∃ lanes, report.Recommends ops args calls lanes ∧
      Remembers lanePolicy policies d'
        ⟨args.sizeGib, args.concurrency, args.ioChunkBytes, args.noDisk⟩
        (LanePolicyEntry.Of lanes) := by
  obtain ⟨entry, d₁, hentry, hcall⟩ := Prog.Eval.of_tryBind hpersist
  obtain ⟨hok, rfl⟩ := hentry.of_ret
  obtain ⟨hrecommends, hworkload⟩ := entry_of_tuneLanesPolicyEntry hrun hok.symm
  refine ⟨entry.recommendedLanes, hrecommends, ?_⟩
  rw [← (rows_of_runTuneLanesUnderLoad hrun).1, ← hworkload]
  exact remembers_of_upsert hpolicies hbefore hcall rfl

end

/-- **What load tuning recommends is what benchmarks take.**  A load tuning whose result was put
into the policy file recommends one of the best of its candidates; and a benchmark takes it,
whatever it was configured with: from the policy file if it is of the workload that was tuned, and
from the report in any case. -/
theorem tuned_lanes_followed {F : Type} [LinearOrder F] (ops : FloatOps F) (bits : F → UInt64)
    {reports : Serde (TuneLanesReport F)} {policies : Serde LanePolicyStore}
    (hpolicies : policies.RoundTrips) {args : TuneLanesArgs}
    {calls : TuneLanesCalls args.concurrency} {report : TuneLanesReport F}
    (hrun : runTuneLanesUnderLoad ops args calls = .ok report) {path : PolicyPath}
    {es : List LanePolicyEntry} {d : PolicyDisk}
    (hbefore : Upserts (upsertLanePolicyEntry policies path) es d) {jsonOut : Option String}
    {t : Nat} {d' : PolicyDisk}
    (hpersist : Prog.Eval policyMachine t
      (persistTuneLanesPolicy ops bits policies path jsonOut report).toProg d (.ok ()) d') :
    ∃ lanes, report.Recommends ops args calls lanes ∧ ∀ configured > 0,
      TakesLanes ops (resolveBenchmarkLanes ops reports policies configured none
          (some (d'.named path))
          ⟨args.sizeGib, args.concurrency, args.ioChunkBytes, args.noDisk⟩) lanes ∧
        ∀ (file : NamedFile) (payload : List UInt8) (policy : Option NamedFile)
          (requested : WorkloadProfile), file.found = .ok payload →
          reports.fromSlice payload = some report →
          TakesLanes ops (resolveBenchmarkLanes ops reports policies configured (some file) policy
            requested) lanes := by
  obtain ⟨lanes, hrecommends, hremembers⟩ := remembers_of_tuneLanes hpolicies hrun hbefore hpersist
  refine ⟨lanes, hrecommends, fun configured hconfigured => ⟨?_, ?_⟩⟩
  · exact takesLanes_of_remembers hconfigured hremembers
  · intro file payload policy requested hfile hparse
    exact takesLanes_of_report hconfigured hrecommends.recommended hrecommends.asked.2 hfile hparse

namespace LoadSample

/-- Two candidates, a single job at a time. -/
def args : TuneLanesArgs where
  sizeGib := 1
  lanes := [2, 0, 1, 2]
  concurrency := 1
  iterations := 1
  ioChunkBytes := defaultIoChunkBytes
  noDisk := true
  filePath := "a.bin"
  filePrefix := "tune"
  tenantId := "t"
  userId := "u"
  destinationPrefix := "file:///bench/"
  concurrency_lt := by decide

/-- All jobs are completed, and with one lane they take half as long. -/
def calls : TuneLanesCalls args.concurrency where
  server := "http://localhost"
  startedAt := 0
  completedAt := 1
  sparseFile := .ok ()
  job _ := ⟨.ok .nil, BenchSample.calls .completed, none⟩
  order _ _ := ⟨[0], .refl _⟩
  elapsedMs lanes _ := if lanes = 1 then 4000 else 8000

/-- What they were tuned for. -/
def workload : WorkloadProfile := ⟨1, 1, defaultIoChunkBytes, true⟩

/-- The policy file, in the current directory. -/
def path : PolicyPath := ⟨"lane-policy.json", none⟩

/-- The entry that the tuning makes. -/
def entry : LanePolicyEntry where
  profile := workload
  recommendedLanes := 1
  source := "transfer tune-lanes"
  tunedAt := 1
  aggregateP50Gbps := 0
  aggregateP95Gbps := 0

/-- What stands in the policy file. -/
def text (entry : LanePolicyEntry) : List UInt8 := PolicySample.laneStoreText ⟨1, 0, [entry]⟩

/-- A serde that knows the file with one entry. -/
def store (entry : LanePolicyEntry) : Serde LanePolicyStore :=
  Serde.single ⟨1, 0, [entry]⟩ (text entry)

theorem store_roundTrips (entry : LanePolicyEntry) : (store entry).RoundTrips :=
  Serde.single_roundTrips (PolicySample.storeText_ne_nil _ _ _)

/-- There is no report file. -/
def noReports : Serde (TuneLanesReport ℚ) := ⟨fun _ => none, fun _ => none⟩

/-- A tuning whose result is put into the policy file. -/
theorem stored_of_made {args : TuneLanesArgs} {calls : TuneLanesCalls args.concurrency}
    {entry : LanePolicyEntry} {lanes : Nat}
    (hmade : ((runTuneLanesUnderLoad exactOps args calls).toOption.bind fun report =>
      (tuneLanesPolicyEntry exactOps RuntimeSample.bits none report).toOption.map fun made =>
        (recommendedLanesFromReport exactOps report, made)) = some (some lanes, entry))
    (hvalid : validateLanePolicyEntry entry = .ok ()) :
    ∃ report d', runTuneLanesUnderLoad exactOps args calls = .ok report ∧
      Prog.Eval policyMachine 0
        (persistTuneLanesPolicy exactOps RuntimeSample.bits (store entry) path none report).toProg
        (PolicyDisk.start none) (.ok ()) d' ∧
      recommendedLanesFromReport exactOps report = some lanes ∧ d'.file = some (text entry) := by
  obtain ⟨report, hreport, hentry⟩ := Option.bind_eq_some_iff.1 hmade
  obtain ⟨made, hoption, hpair⟩ := Option.map_eq_some_iff.1 hentry
  obtain ⟨hrecommended, rfl⟩ := Prod.mk.inj hpair
  have hok := RuntimeSample.of_toOption hoption
  obtain ⟨d', hcall⟩ : ∃ d', Prog.Eval policyMachine 0
      (upsertLanePolicyEntry (store made) path made).toProg (PolicyDisk.start none) (.ok ()) d' :=
    exists_upsert hvalid rfl (Serde.single_toVec _ _)
  refine ⟨report, d', RuntimeSample.of_toOption hreport, .tryBind (a := made) ?_ hcall,
    hrecommended, file_of_upsert_single hcall⟩
  rw [hok]
  exact .ret _ _

/-- The tuning, and that its result is put into the policy file. -/
theorem stored :
    ∃ report d', runTuneLanesUnderLoad exactOps args calls = .ok report ∧
      Prog.Eval policyMachine 0
        (persistTuneLanesPolicy exactOps RuntimeSample.bits (store entry) path none report).toProg
        (PolicyDisk.start none) (.ok ()) d' ∧
      recommendedLanesFromReport exactOps report = some 1 ∧ d'.file = some (text entry) :=
  stored_of_made (by decide +kernel) rfl

end LoadSample

open LoadSample in
/-- The faster one of two numbers of lanes is recommended, stored and taken. -/
theorem tuned_lanes_followed_faster :
    ∃ (report : TuneLanesReport ℚ) (d' : PolicyDisk),
      runTuneLanesUnderLoad exactOps args calls = .ok report ∧
      recommendedLanesFromReport exactOps report = some 1 ∧
      TakesLanes exactOps (resolveBenchmarkLanes exactOps noReports (store entry) 8 none
        (some (d'.named path)) workload) 1 := by
  obtain ⟨report, d', hrun, hpersist, hrecommended, -⟩ := stored
  obtain ⟨lanes, hrecommends, htakes⟩ := tuned_lanes_followed exactOps RuntimeSample.bits
    (store_roundTrips entry) hrun .start hpersist
  have hlanes : lanes = 1 :=
    Option.some.inj (hrecommends.recommended.symm.trans hrecommended)
  rw [hlanes] at htakes
  exact ⟨report, d', hrun, hrecommended, (htakes 8 (by decide)).1⟩

/-! ## Both tunings -/

/-- What a benchmark is configured with and the files that it looks into; and what is measured of
the host. -/
structure BenchSelection (F : Type) where
  configuredLanes : Nat
  configuredRuntimeProfile : Option RuntimeProfile
  autoLanesReport : Option NamedFile
  lanePolicyPath : Option NamedFile
  autoRuntimeReport : Option NamedFile
  runtimePolicyPath : Option NamedFile
  cpuGuardrailPercent : F
  samples : List F

section

variable {F : Type} [LinearOrder F] (ops : FloatOps F) (laneReports : Serde (TuneLanesReport F))
  (lanePolicies : Serde LanePolicyStore) (runtimeReports : Serde (TuneRuntimeReport F))
  (runtimePolicies : Serde RuntimePolicyStore)

/-- The lanes are selected for a single transfer, and then the profile for these lanes. -/
def BenchCalls.selecting (selection : BenchSelection F) (args : BenchArgs) (calls : BenchCalls) :
    BenchCalls :=
  let selectedLanes := (resolveBenchmarkLanes ops laneReports lanePolicies
    selection.configuredLanes selection.autoLanesReport selection.lanePolicyPath
    ⟨args.sizeGib, 1, args.ioChunkBytes, args.noDisk⟩).map Prod.fst
  { calls with
    lanes := selectedLanes
    runtimeProfile := do
      let lanes ← selectedLanes
      (resolveBenchmarkRuntimeProfile ops runtimeReports runtimePolicies
        selection.configuredRuntimeProfile selection.autoRuntimeReport
        selection.runtimePolicyPath ⟨args.sizeGib, lanes, args.ioChunkBytes, args.noDisk⟩
        selection.cpuGuardrailPercent selection.samples).map Prod.fst }

variable {ops laneReports lanePolicies runtimeReports runtimePolicies}

/-- A benchmark that takes lanes, and a profile for these lanes, reports both. -/
theorem reported_of_selecting {selection : BenchSelection F} {args : BenchArgs}
    {calls : BenchCalls} {lanes : Nat} {profile : RuntimeProfile}
    (hlanes : TakesLanes ops (resolveBenchmarkLanes ops laneReports lanePolicies
      selection.configuredLanes selection.autoLanesReport selection.lanePolicyPath
      ⟨args.sizeGib, 1, args.ioChunkBytes, args.noDisk⟩) lanes)
    (hprofile : Takes ops (resolveBenchmarkRuntimeProfile ops runtimeReports runtimePolicies
      selection.configuredRuntimeProfile selection.autoRuntimeReport
      selection.runtimePolicyPath ⟨args.sizeGib, lanes, args.ioChunkBytes, args.noDisk⟩
      selection.cpuGuardrailPercent selection.samples) profile)
    {report : SendTransferReport F}
    (hrun : runBenchmarkWithProgress ops args (calls.selecting ops laneReports lanePolicies
      runtimeReports runtimePolicies selection args) = .ok report) :
    report.effectiveLanes = normalizedLaneCount lanes report.fileSizeBytes ∧
      report.runtimeProfile = some profile.asStr := by
  refine ⟨hlanes.reported _ _ _ rfl hrun, hprofile.reported _ _ _ ?_ hrun⟩
  obtain ⟨note, hselected⟩ := hlanes.selected
  simp only [BenchCalls.selecting, hselected, Except.map, bind, Except.bind]

end

/-- **Both tunings, and then a benchmark.**  The lanes are tuned for single transfers, and then the
profile for the lanes that are recommended; both results are put into the policy files.  A
benchmark of the same workload that is given no profile and no reports then has the recommended
lanes and, unless the host is busy, the recommended profile. -/
theorem tuned_benchmark {F : Type} [LinearOrder F] (ops : FloatOps F) (bits : F → UInt64)
    {lanePolicies : Serde LanePolicyStore} (hlanePolicies : lanePolicies.RoundTrips)
    {runtimePolicies : Serde RuntimePolicyStore} (hruntimePolicies : runtimePolicies.RoundTrips)
    {laneArgs : TuneLanesArgs} {laneCalls : TuneLanesCalls laneArgs.concurrency}
    {laneReport : TuneLanesReport F}
    (hlanes : runTuneLanesUnderLoad ops laneArgs laneCalls = .ok laneReport)
    (hsingle : laneArgs.concurrency = 1) {lanePath : PolicyPath}
    {laneEntries : List LanePolicyEntry} {d₁ d₁' : PolicyDisk}
    (hbefore₁ : Upserts (upsertLanePolicyEntry lanePolicies lanePath) laneEntries d₁)
    {laneJsonOut : Option String} {t₁ : Nat}
    (hpersist₁ : Prog.Eval policyMachine t₁
      (persistTuneLanesPolicy ops bits lanePolicies lanePath laneJsonOut laneReport).toProg d₁
      (.ok ()) d₁')
    {args : TuneRuntimeArgs} {calls : TuneRuntimeCalls} {report : TuneRuntimeReport F}
    (hruntime : runTuneRuntimeProfiles ops args calls = .ok report)
    (hsame : (args.sizeGib, args.ioChunkBytes, args.noDisk) =
      (laneArgs.sizeGib, laneArgs.ioChunkBytes, laneArgs.noDisk))
    (htuned : recommendedLanesFromReport ops laneReport = some args.lanes)
    {path : PolicyPath} {entries : List RuntimePolicyEntry} {d₂ d₂' : PolicyDisk}
    (hbefore₂ : Upserts (upsertRuntimePolicyEntry runtimePolicies path) entries d₂)
    {jsonOut : Option String} {t₂ : Nat} (hpersist₂ : Prog.Eval policyMachine t₂
      (persistTuneRuntimePolicy bits runtimePolicies path jsonOut report).toProg d₂ (.ok ()) d₂') :
    laneReport.Recommends ops laneArgs laneCalls args.lanes ∧
      ∃ profile ∈ args.profiles, report.Recommends profile ∧
        ∀ (laneReports : Serde (TuneLanesReport F)) (runtimeReports : Serde (TuneRuntimeReport F))
          (configured : Nat) (percent : F) (samples : List F) (bench : BenchArgs)
          (benchCalls : BenchCalls) (sent : SendTransferReport F), 0 < configured →
          (bench.sizeGib, bench.ioChunkBytes, bench.noDisk) =
            (args.sizeGib, args.ioChunkBytes, args.noDisk) →
          runBenchmarkWithProgress ops bench (benchCalls.selecting ops laneReports lanePolicies
            runtimeReports runtimePolicies ⟨configured, none, none, some (d₁'.named lanePath), none,
              some (d₂'.named path), percent, samples⟩ bench) = .ok sent →
          sent.effectiveLanes = normalizedLaneCount args.lanes sent.fileSizeBytes ∧
            sent.runtimeProfile = some (guarded ops profile percent samples).asStr := by
  obtain ⟨lanes, hrecommends, hlaneRemembers⟩ :=
    remembers_of_tuneLanes hlanePolicies hlanes hbefore₁ hpersist₁
  obtain rfl : lanes = args.lanes :=
    Option.some.inj (hrecommends.recommended.symm.trans htuned)
  obtain ⟨profile, hmem, hprofile, hremembers⟩ :=
    remembers_of_tuneRuntime hruntimePolicies hruntime hbefore₂ hpersist₂
  refine ⟨hrecommends, profile, hmem, hprofile, ?_⟩
  intro laneReports runtimeReports configured percent samples bench benchCalls sent hconfigured
    hbench hsent
  obtain ⟨hsize, hrest⟩ := Prod.mk.inj hbench
  obtain ⟨hchunk, hdisk⟩ := Prod.mk.inj hrest
  obtain ⟨hsize', hrest'⟩ := Prod.mk.inj hsame
  obtain ⟨hchunk', hdisk'⟩ := Prod.mk.inj hrest'
  refine reported_of_selecting ?_ ?_ hsent
  · apply takesLanes_of_remembers hconfigured
    rw [hsize, hchunk, hdisk, hsize', hchunk', hdisk', ← hsingle]
    exact hlaneRemembers
  · apply takes_of_remembers
    rw [hsize, hchunk, hdisk]
    exact hremembers

namespace LoadSample

/-- A benchmark is configured with eight lanes and no profile, and has the policy files that the
tunings have written. -/
def benchmark : BenchCalls :=
  (RuntimeSample.benchmark .throughput).selecting exactOps noReports (store entry)
    RuntimeSample.noReports (RuntimeSample.store RuntimeSample.entry)
    ⟨8, none, none, some ((PolicyDisk.start (some (text entry))).named path), none,
      some ((PolicyDisk.start (some (RuntimeSample.text RuntimeSample.entry))).named
        RuntimeSample.path), 90, [10, 20, 30]⟩
    BenchSample.args

end LoadSample

open LoadSample in
/-- The benchmark has what was tuned. -/
theorem tuned_benchmark_single :
    ∃ sent : SendTransferReport ℚ,
      runBenchmarkWithProgress exactOps BenchSample.args benchmark = .ok sent ∧
      sent.effectiveLanes = 1 ∧ sent.runtimeProfile = some "throughput" := by
  obtain ⟨laneReport, d₁, hlanes, hpersist₁, htuned, hfile₁⟩ := stored
  obtain ⟨report, d₂, hruntime, hpersist₂, hrecommended, hfile₂⟩ := RuntimeSample.persisted
  obtain ⟨-, profile, -, hrecommends, hsent⟩ := tuned_benchmark exactOps RuntimeSample.bits
    (store_roundTrips entry) (RuntimeSample.store_roundTrips RuntimeSample.entry) hlanes rfl .start
    hpersist₁ hruntime rfl htuned .start hpersist₂
  have hok : (runBenchmarkWithProgress exactOps BenchSample.args benchmark).toOption.isSome =
      true := by
    decide +kernel
  obtain ⟨sent, hsome⟩ := Option.isSome_iff_exists.1 hok
  have hrun := RuntimeSample.of_toOption hsome
  refine ⟨sent, hrun, ?_⟩
  rw [benchmark, ← named_of_file hfile₁, ← named_of_file hfile₂] at hrun
  obtain ⟨heffective, hprofile⟩ := hsent noReports RuntimeSample.noReports 8 90 [10, 20, 30]
    BenchSample.args (RuntimeSample.benchmark .throughput) sent (by decide) rfl hrun
  constructor
  · rw [heffective]
    simp [normalizedLaneCount, RuntimeSample.args]
  · rw [hprofile, guarded, if_neg (by decide +kernel)]
    exact (hrecommended.symm.trans hrecommends.recommended).symm

end Metra.Client
