import Metra.Client.LoadTuning

/-!
# Matrices of benchmarks

A matrix runs a benchmark for every combination of a size, a number of lanes and a chunk size, and
can be run against several servers, one for each profile of QUIC.

* `matrix_profiles_best` — **what is reported as the best run overall is the best of all runs that
  have succeeded**, although each server's best is found first, and the counts add up;
* `matrix_lanes_overridden` — **the lanes of the policy file are taken, whatever number the matrix
  asks for**, so that its rows do not differ in the lanes that were measured.
-/

namespace Metra.Client

open Interleave Keyed Text

/-! ## A matrix -/

/-- What a matrix is asked for: the sizes, lanes and chunk sizes whose combinations are run, and
what all runs have in common. -/
structure MatrixArgs where
  sizesGib : List Nat
  lanes : List Nat
  ioChunkBytes : List Nat
  fileDir : String
  tenantId : String
  userId : String
  destinationPrefix : String
  noDisk : Bool
  fileReadPipelineDepth : Option Nat

/-- How the calls of a matrix end, and whether the defaults have benchmarks update the policy. -/
structure MatrixCalls where
  createDir : Except String Unit
  benchmark : MatrixPoint → BenchCalls
  autoPolicyUpdate : Bool

/-- The checks before anything is run. -/
def matrixGuards (args : MatrixArgs) : Except String Unit := do
  if args.sizesGib.isEmpty then throw "sizes_gib must contain at least one value"
  if args.lanes.isEmpty then throw "lanes must contain at least one value"
  if args.ioChunkBytes.isEmpty then throw "io_chunk_bytes must contain at least one value"
  if args.sizesGib.any (· = 0) then throw "sizes_gib values must be > 0"
  if args.lanes.any (· = 0) then throw "lanes values must be > 0"
  if args.ioChunkBytes.any (· = 0) then throw "io_chunk_bytes values must be > 0"

/-- Each point of a matrix sends a file of its own. -/
def matrixFileName (sizeGib lanes ioChunkBytes : Nat) : String :=
  s!"metra-bench-{sizeGib}g-l{lanes}-c{ioChunkBytes}.bin"

/-- The points in the order of the loops. -/
def matrixPoints (args : MatrixArgs) : List MatrixPoint :=
  args.sizesGib.flatMap fun sizeGib => args.lanes.flatMap fun lanes =>
    args.ioChunkBytes.map fun ioChunkBytes =>
      ⟨sizeGib, lanes, ioChunkBytes, String.ofList (UnixPath.join args.fileDir.toList
        (matrixFileName sizeGib lanes ioChunkBytes).toList)⟩

/-- The benchmark of a point. -/
def matrixBenchArgs (args : MatrixArgs) (autoPolicyUpdate : Bool) (point : MatrixPoint) :
    BenchArgs :=
  let destination :=
    if args.noDisk then "null://benchmark"
    else String.ofList (args.destinationPrefix.toList.rdropWhile (· = '/'))
  let fileName := matrixFileName point.sizeGib point.lanes point.ioChunkBytes
  { sizeGib := point.sizeGib
    filePath := point.filePath
    fileName
    tenantId := args.tenantId
    userId := args.userId
    destinationUri := s!"{destination}/{fileName}"
    ioChunkBytes := point.ioChunkBytes
    noDisk := args.noDisk
    fileReadPipelineDepth := args.fileReadPipelineDepth
    updatesPolicy := autoPolicyUpdate }

section

variable {F : Type} [LinearOrder F] (ops : FloatOps F)

/-- What the benchmarks of all points have returned, one after another. -/
def matrixResults (args : MatrixArgs) (calls : MatrixCalls) :
    List (MatrixPoint × Except Stop (SendTransferReport F)) :=
  (matrixPoints args).map fun point =>
    (point, runBenchmarkWithProgress ops (matrixBenchArgs args calls.autoPolicyUpdate point)
      (calls.benchmark point))

/-- Run the benchmarks of a matrix and report on them; one that fails does not stop the others. -/
def benchmarkMatrix (args : MatrixArgs) (calls : MatrixCalls) :
    Except String (BenchmarkMatrixReport F) := do
  matrixGuards args
  calls.createDir.mapError fun _ => s!"failed creating benchmark directory {args.fileDir}"
  return runBenchmarkMatrix ops (matrixResults ops args calls)

end

/-! ## One matrix for each profile -/

/-- The network profiles that a server may be started with. -/
inductive QuicProfile
  | lan | wan | highBdp
  deriving DecidableEq

/-- The name of a profile. -/
def QuicProfile.asStr : QuicProfile → String
  | .lan => "lan"
  | .wan => "wan"
  | .highBdp => "high-bdp"

/-- A matrix for each of several profiles, each on the server that was started with it. -/
structure MatrixProfilesArgs where
  profiles : List QuicProfile
  servers : List String
  matrix : MatrixArgs

/-- The matrix of one profile, and what its server has said about itself. -/
structure BenchmarkMatrixProfileRow (F : Type) where
  requestedProfile : String
  server : String
  detectedProfile : Option String
  profileMatch : Option Bool
  profileNote : Option String
  matrix : BenchmarkMatrixReport F

/-- The best run of all, and where it was. -/
structure BenchmarkMatrixProfilesBestRun (F : Type) where
  requestedProfile : String
  server : String
  run : BenchmarkMatrixRun F

/-- The report over all profiles. -/
structure BenchmarkMatrixProfilesReport (F : Type) where
  totalProfiles : Nat
  successfulProfiles : Nat
  failedProfiles : Nat
  bestOverallRun : Option (BenchmarkMatrixProfilesBestRun F)
  rows : List (BenchmarkMatrixProfileRow F)

/-- How the calls for each of the servers end: what it says its profile is, and those of its
matrix. -/
structure MatrixProfilesCalls where
  health : Nat → Except String String
  matrix : Nat → MatrixCalls

/-- The matrix of a profile, below whose name the results and the files stand. -/
def matrixProfileArgs (args : MatrixArgs) (profile : QuicProfile) : MatrixArgs :=
  let destination := String.ofList (args.destinationPrefix.toList.rdropWhile (· = '/'))
  { args with
    destinationPrefix := s!"{destination}/{profile.asStr}"
    fileDir := String.ofList
      (UnixPath.join args.fileDir.toList (s!"profile-{profile.asStr}").toList) }

/-- The checks before any matrix is run. -/
def matrixProfilesGuards (args : MatrixProfilesArgs) : Except String Unit := do
  if args.profiles.isEmpty then throw "profiles must contain at least one value"
  if !args.servers.isEmpty && args.servers.length != args.profiles.length then
    throw ("servers must be empty or have the same number of entries as profiles " ++
      s!"(profiles={args.profiles.length}, servers={args.servers.length})")

/-- The server of each profile; when none are named, the default one for all. -/
def matrixServers (defaultServer : String) (args : MatrixProfilesArgs) : List String :=
  if args.servers.isEmpty then List.replicate args.profiles.length defaultServer
  else args.servers

/-- The throughput that runs are compared by. -/
def throughputOf {F : Type} (ops : FloatOps F) (run : BenchmarkMatrixRun F) : F :=
  run.averageGbps.getD (ops.ofNat 0)

/-- Runs are compared by their throughput. -/
def compareThroughput {F : Type} [LinearOrder F] (ops : FloatOps F)
    (left right : BenchmarkMatrixRun F) : Ordering :=
  compare (throughputOf ops left) (throughputOf ops right)

section

variable {F : Type} [LinearOrder F] (ops : FloatOps F)

/-- Ask a server for its profile and run the matrix on it; a profile that does not match is only
noted. -/
def matrixProfileRow (args : MatrixProfilesArgs) (calls : MatrixProfilesCalls)
    (profile : QuicProfile) (server : String) (idx : Nat) :
    Except String (BenchmarkMatrixProfileRow F) := do
  let detectedProfile := (calls.health idx).toOption
  let profileMatch := detectedProfile.map fun value => eqIgnoreAsciiCase value profile.asStr
  let profileNote :=
    match detectedProfile, profileMatch with
    | some detected, some false =>
      some s!"requested profile '{profile.asStr}' but server reports '{detected}'"
    | _, _ => none
  let matrix ← benchmarkMatrix ops (matrixProfileArgs args.matrix profile) (calls.matrix idx)
  return ⟨profile.asStr, server, detectedProfile, profileMatch, profileNote, matrix⟩

/-- The best run of each matrix that has one. -/
def bestRuns (rows : List (BenchmarkMatrixProfileRow F)) :
    List (BenchmarkMatrixProfileRow F × BenchmarkMatrixRun F) :=
  rows.filterMap fun row => row.matrix.bestRun.map fun run => (row, run)

/-- The best run of a row, as it is reported. -/
def bestRunOf (best : BenchmarkMatrixProfileRow F × BenchmarkMatrixRun F) :
    BenchmarkMatrixProfilesBestRun F := ⟨best.1.requestedProfile, best.1.server, best.2⟩

/-- Best runs of different rows are compared by their throughput too. -/
def compareRuns (left right : BenchmarkMatrixProfileRow F × BenchmarkMatrixRun F) : Ordering :=
  compareThroughput ops left.2 right.2

/-- Run a matrix for each profile; the first that cannot be started ends it all. -/
def runBenchmarkMatrixProfiles (defaultServer : String) (args : MatrixProfilesArgs)
    (calls : MatrixProfilesCalls) : Except String (BenchmarkMatrixProfilesReport F) := do
  matrixProfilesGuards args
  let rows ← ((args.profiles.zip (matrixServers defaultServer args)).zipIdx).mapM
    fun ((profile, server), idx) => matrixProfileRow ops args calls profile server idx
  let successfulProfiles := (rows.filter fun row => row.matrix.failedRuns = 0).length
  return {
    totalProfiles := rows.length
    successfulProfiles
    failedProfiles := rows.length - successfulProfiles
    bestOverallRun := (maxBy (compareRuns ops) (bestRuns rows)).map bestRunOf
    rows }

end

/-! ## The best run -/

section

variable {F : Type} [LinearOrder F] {ops : FloatOps F}

theorem of_mapM_ok {α β : Type} {f : α → Except String β} {l : List α} {bs : List β}
    (h : l.mapM f = .ok bs) : List.Forall₂ (fun a b => f a = .ok b) l bs := by
  induction l generalizing bs with
  | nil =>
    cases h
    exact .nil
  | cons a l ih =>
    rw [List.mapM_cons] at h
    obtain ⟨b, hb, h⟩ := of_bind_ok h
    obtain ⟨bs', hbs, h⟩ := of_bind_ok h
    cases h
    exact .cons hb (ih hbs)

/-- All runs of all matrices, of which the best one is wanted. -/
def successfulRuns (rows : List (BenchmarkMatrixProfileRow F)) :
    List (BenchmarkMatrixProfileRow F × BenchmarkMatrixRun F) :=
  rows.flatMap fun row => (successfulMatrixRuns row.matrix.runs).map fun run => (row, run)

/-- What a matrix reports: a run for each of its points, counted, and the best of them. -/
structure MatrixReported (ops : FloatOps F) (args : MatrixArgs) (report : BenchmarkMatrixReport F) :
    Prop where
  points : report.totalRuns =
    args.sizesGib.length * (args.lanes.length * args.ioChunkBytes.length)
  counts : report.successfulRuns + report.failedRuns = report.totalRuns
  best : report.bestRun = maxBy (compareThroughput ops) (successfulMatrixRuns report.runs)

theorem length_matrixPoints (args : MatrixArgs) : (matrixPoints args).length =
    args.sizesGib.length * (args.lanes.length * args.ioChunkBytes.length) := by
  simp [matrixPoints, List.length_flatMap]

theorem reported_of_benchmarkMatrix {args : MatrixArgs} {calls : MatrixCalls}
    {report : BenchmarkMatrixReport F} (h : benchmarkMatrix ops args calls = .ok report) :
    MatrixReported ops args report := by
  obtain ⟨_, -, h⟩ := of_bind_ok h
  obtain ⟨_, -, h⟩ := of_bind_ok h
  cases h
  constructor
  · show (List.map _ (matrixResults ops args calls)).length = _
    rw [List.length_map, matrixResults, List.length_map, length_matrixPoints]
  · show (successfulMatrixRuns _).length + (_ - (successfulMatrixRuns _).length) = _
    have hle := List.length_filter_le BenchmarkMatrixRun.success
      ((matrixResults ops args calls).map fun run => benchmarkMatrixRun run.1 run.2)
    exact Nat.add_sub_cancel' hle
  · rfl

theorem comparesBy_compareRuns : ComparesBy (compareRuns ops) fun best : _ × _ =>
    throughputOf ops best.2 := ComparesBy.field _

/-- The best of the best runs is the best of all. -/
theorem maxBy_bestRuns {rows : List (BenchmarkMatrixProfileRow F)}
    (hbest : ∀ row ∈ rows, row.matrix.bestRun =
      maxBy (compareThroughput ops) (successfulMatrixRuns row.matrix.runs)) :
    maxBy (compareRuns ops) (bestRuns rows) = maxBy (compareRuns ops) (successfulRuns rows) := by
  have hruns : bestRuns rows =
      (rows.map fun row => (successfulMatrixRuns row.matrix.runs).map fun run =>
        (row, run)).filterMap (maxBy (compareRuns ops)) := by
    rw [bestRuns, List.filterMap_map]
    apply List.filterMap_congr
    intro row hrow
    have hmap : maxBy (compareRuns ops) ((successfulMatrixRuns row.matrix.runs).map fun run =>
        (row, run)) = (maxBy (compareThroughput ops)
          (successfulMatrixRuns row.matrix.runs)).map fun run => (row, run) :=
      maxBy_map (fun _ _ => rfl) _
    rw [hbest row hrow, Function.comp_apply, hmap]
  rw [hruns, maxBy_filterMap_maxBy comparesBy_compareRuns, successfulRuns, List.flatMap]

theorem reported_of_matrixProfileRow {args : MatrixProfilesArgs} {calls : MatrixProfilesCalls}
    {profile : QuicProfile} {server : String} {idx : Nat} {row : BenchmarkMatrixProfileRow F}
    (h : matrixProfileRow ops args calls profile server idx = .ok row) :
    row.requestedProfile = profile.asStr ∧ MatrixReported ops args.matrix row.matrix := by
  obtain ⟨report, hmatrix, h⟩ := of_bind_ok h
  cases h
  obtain ⟨hpoints, hcounts, hbest⟩ := reported_of_benchmarkMatrix hmatrix
  exact ⟨rfl, hpoints, hcounts, hbest⟩

/-- The rows are those of the profiles, one for each. -/
theorem reported_of_rows {args : MatrixProfilesArgs} {calls : MatrixProfilesCalls}
    {points : List ((QuicProfile × String) × Nat)} {rows : List (BenchmarkMatrixProfileRow F)}
    (h : List.Forall₂ (fun point row =>
      matrixProfileRow ops args calls point.1.1 point.1.2 point.2 = .ok row) points rows) :
    rows.map BenchmarkMatrixProfileRow.requestedProfile =
        points.map (fun point => point.1.1.asStr) ∧
      ∀ row ∈ rows, MatrixReported ops args.matrix row.matrix := by
  induction h with
  | nil => simp
  | cons hrow _ ih =>
    obtain ⟨hprofile, hreported⟩ := reported_of_matrixProfileRow hrow
    obtain ⟨hprofiles, hrows⟩ := ih
    constructor
    · rw [List.map_cons, List.map_cons, hprofile, hprofiles]
    · intro row hmem
      rcases List.mem_cons.1 hmem with rfl | hmem
      · exact hreported
      · exact hrows row hmem

/-- There is a server for each profile. -/
theorem length_matrixServers {defaultServer : String} {args : MatrixProfilesArgs}
    (h : matrixProfilesGuards args = .ok ()) :
    (matrixServers defaultServer args).length = args.profiles.length := by
  rw [matrixServers]
  split
  next => exact List.length_replicate
  next hservers =>
    by_contra hlength
    simp [matrixProfilesGuards, hservers, hlength, bind, Except.bind] at h
    split at h
    next => cases h
    next => cases h

end

/-- **The best run overall is the best of all runs that have succeeded** with any of the profiles;
of equally fast ones it is the last.  And there is a row for each profile, in which a run for each
point of the matrix is counted. -/
theorem matrix_profiles_best {F : Type} [LinearOrder F] (ops : FloatOps F) {defaultServer : String}
    {args : MatrixProfilesArgs} {calls : MatrixProfilesCalls}
    {report : BenchmarkMatrixProfilesReport F}
    (h : runBenchmarkMatrixProfiles ops defaultServer args calls = .ok report) :
    report.bestOverallRun = (maxBy (compareRuns ops) (successfulRuns report.rows)).map bestRunOf ∧
      report.rows.map BenchmarkMatrixProfileRow.requestedProfile =
        args.profiles.map QuicProfile.asStr ∧
      report.totalProfiles = args.profiles.length ∧
      report.successfulProfiles + report.failedProfiles = report.totalProfiles ∧
      ∀ row ∈ report.rows, MatrixReported ops args.matrix row.matrix := by
  obtain ⟨_, hguards, h⟩ := of_bind_ok h
  obtain ⟨rows, hrows, h⟩ := of_bind_ok h
  cases h
  obtain ⟨hprofiles, hreported⟩ := reported_of_rows (of_mapM_ok hrows)
  have hnames : rows.map BenchmarkMatrixProfileRow.requestedProfile =
      args.profiles.map QuicProfile.asStr := by
    have hzip : (args.profiles.zip (matrixServers defaultServer args)).map Prod.fst =
        args.profiles := List.map_fst_zip (length_matrixServers hguards).ge
    have hpoints : ((args.profiles.zip (matrixServers defaultServer args)).zipIdx).map Prod.fst =
        args.profiles.zip (matrixServers defaultServer args) := List.zipIdx_map_fst _ _
    calc rows.map BenchmarkMatrixProfileRow.requestedProfile
        = _ := hprofiles
      _ = ((((args.profiles.zip (matrixServers defaultServer args)).zipIdx).map Prod.fst).map
            Prod.fst).map QuicProfile.asStr := by
        rw [List.map_map, List.map_map]
        rfl
      _ = args.profiles.map QuicProfile.asStr := by rw [hpoints, hzip]
  refine ⟨?_, hnames, ?_, ?_, hreported⟩
  · exact congrArg (Option.map bestRunOf) (maxBy_bestRuns fun row hrow => (hreported row hrow).best)
  · rw [← List.length_map (f := QuicProfile.asStr), ← hnames, List.length_map]
  · exact Nat.add_sub_cancel' (List.length_filter_le _ rows)

namespace MatrixSample

/-- One size and one chunk size, without a disk. -/
def args (lanes : List Nat) : MatrixArgs where
  sizesGib := [1]
  lanes := lanes
  ioChunkBytes := [defaultIoChunkBytes]
  fileDir := "/tmp"
  tenantId := "t"
  userId := "u"
  destinationPrefix := "local://benchmark/"
  noDisk := true
  fileReadPipelineDepth := none

/-- All runs are completed, in this time. -/
def calls (elapsedMs : Nat) : MatrixCalls where
  createDir := .ok ()
  benchmark _ :=
    { (BenchSample.run .completed).calls with
      send := { BenchSample.calls .completed with elapsedMs } }
  autoPolicyUpdate := false

/-- The second server is the faster one, and has the profile that it was asked for. -/
def profiles : MatrixProfilesArgs := ⟨[.lan, .wan], ["http://a", "http://b"], args [1, 2]⟩

/-- Two servers, of which the first is twice as slow. -/
def profileCalls : MatrixProfilesCalls where
  health idx := .ok (if idx = 0 then "WAN" else "Wan")
  matrix idx := calls (if idx = 0 then 8000 else 4000)

end MatrixSample

open MatrixSample in
/-- Two profiles, and the best run is one of the second. -/
theorem matrix_profiles_best_second :
    ∃ report, runBenchmarkMatrixProfiles exactOps "http://a" profiles profileCalls = .ok report ∧
      report.bestOverallRun.map (fun best => (best.requestedProfile, best.run.lanes)) =
        some ("wan", 2) ∧
      report.rows.map BenchmarkMatrixProfileRow.requestedProfile = ["lan", "wan"] := by
  have hrun : ((runBenchmarkMatrixProfiles exactOps "http://a" profiles profileCalls).toOption.map
      fun report => report.bestOverallRun.map fun best =>
        (best.requestedProfile, best.run.lanes)) = some (some ("wan", 2)) := by
    decide +kernel
  obtain ⟨report, hreport, hbest⟩ := Option.map_eq_some_iff.1 hrun
  have hok := RuntimeSample.of_toOption hreport
  exact ⟨report, hok, hbest, (matrix_profiles_best exactOps hok).2.1⟩

/-! ## Lanes that were not asked for -/

section

variable {F : Type} [LinearOrder F] (ops : FloatOps F) (laneReports : Serde (TuneLanesReport F))
  (lanePolicies : Serde LanePolicyStore) (runtimeReports : Serde (TuneRuntimeReport F))
  (runtimePolicies : Serde RuntimePolicyStore)

/-- A matrix whose benchmarks look into the files; what a point asks for is what its benchmark is
configured with. -/
def MatrixCalls.selecting (selection : MatrixPoint → BenchSelection F) (args : MatrixArgs)
    (calls : MatrixCalls) : MatrixCalls :=
  { calls with
    benchmark point := (calls.benchmark point).selecting ops laneReports lanePolicies
      runtimeReports runtimePolicies { selection point with configuredLanes := point.lanes }
      (matrixBenchArgs args calls.autoPolicyUpdate point) }

end

theorem pos_of_matrixGuards {args : MatrixArgs} (h : matrixGuards args = .ok ()) :
    ∀ point ∈ matrixPoints args, 0 < point.lanes := by
  have hpos : args.lanes.any (· = 0) = false := by
    by_contra hzero
    rw [Bool.not_eq_false] at hzero
    simp only [matrixGuards, hzero, if_true, bind, Except.bind, throw, throwThe,
      MonadExceptOf.throw, pure, Except.pure] at h
    split_ifs at h
  intro point hpoint
  simp only [matrixPoints, List.mem_flatMap, List.mem_map] at hpoint
  obtain ⟨sizeGib, -, lanes, hlanes, ioChunkBytes, -, rfl⟩ := hpoint
  have hne : lanes ≠ 0 := by simpa using List.any_eq_false.1 hpos lanes hlanes
  exact Nat.pos_of_ne_zero hne

/-- A run that has succeeded is what a benchmark has returned for its point. -/
theorem sent_of_benchmarkMatrix {F : Type} [LinearOrder F] {ops : FloatOps F} {args : MatrixArgs}
    {calls : MatrixCalls} {report : BenchmarkMatrixReport F}
    (h : benchmarkMatrix ops args calls = .ok report) {run : BenchmarkMatrixRun F}
    (hrun : run ∈ report.runs) (hsuccess : run.success = true) :
    ∃ point, 0 < point.lanes ∧ ∃ sent, runBenchmarkWithProgress ops
        (matrixBenchArgs args calls.autoPolicyUpdate point) (calls.benchmark point) = .ok sent ∧
      run = benchmarkMatrixRun point (.ok sent) := by
  obtain ⟨_, hguards, h⟩ := of_bind_ok h
  obtain ⟨_, -, h⟩ := of_bind_ok h
  cases h
  obtain ⟨result, hresult, rfl⟩ := List.mem_map.1 hrun
  obtain ⟨point, hpoint, rfl⟩ := List.mem_map.1 hresult
  obtain ⟨sent, hsent⟩ := returned_iff.1 ((benchmarkMatrixRun_success _ _).symm.trans hsuccess)
  refine ⟨point, pos_of_matrixGuards hguards point hpoint, sent, hsent, ?_⟩
  rw [hsent]

/-- **The lanes of the policy file are taken, whatever number a matrix asks for**: all the runs of a
size and a chunk size that have succeeded have as many lanes as the policy file has for them, unless
the file that was sent has fewer bytes. -/
theorem matrix_lanes_overridden {F : Type} [LinearOrder F] (ops : FloatOps F)
    (laneReports : Serde (TuneLanesReport F)) {lanePolicies : Serde LanePolicyStore}
    (runtimeReports : Serde (TuneRuntimeReport F)) (runtimePolicies : Serde RuntimePolicyStore)
    {selection : MatrixPoint → BenchSelection F} {d : PolicyDisk} {path : PolicyPath}
    (hreport : ∀ point, (selection point).autoLanesReport = none)
    (hpolicy : ∀ point, (selection point).lanePolicyPath = some (d.named path)) {args : MatrixArgs}
    {calls : MatrixCalls} {report : BenchmarkMatrixReport F}
    (h : benchmarkMatrix ops args (calls.selecting ops laneReports lanePolicies runtimeReports
      runtimePolicies selection args) = .ok report) {run : BenchmarkMatrixRun F}
    (hrun : run ∈ report.runs) (hsuccess : run.success = true) {lanes : Nat}
    (hremembers : Remembers lanePolicy lanePolicies d
      ⟨run.sizeGib, 1, run.ioChunkBytes, args.noDisk⟩ (LanePolicyEntry.Of lanes)) :
    ∃ point benchCalls sent, run = benchmarkMatrixRun point (.ok sent) ∧
      runBenchmarkWithProgress ops (matrixBenchArgs args calls.autoPolicyUpdate point) benchCalls =
        .ok sent ∧
      run.effectiveLanes = some (normalizedLaneCount lanes sent.fileSizeBytes) := by
  obtain ⟨point, hpos, sent, hsent, rfl⟩ := sent_of_benchmarkMatrix h hrun hsuccess
  have htakes : TakesLanes ops (resolveBenchmarkLanes ops laneReports lanePolicies point.lanes
      (selection point).autoLanesReport (selection point).lanePolicyPath
      ⟨point.sizeGib, 1, point.ioChunkBytes, args.noDisk⟩) lanes := by
    rw [hreport, hpolicy]
    exact takesLanes_of_remembers hpos hremembers
  exact ⟨point, _, sent, rfl, hsent, congrArg some (htakes.reported _ _ sent rfl hsent)⟩

namespace MatrixSample

/-- The policy file that was tuned for one lane. -/
def tuned : PolicyDisk := .start (some (LoadSample.text LoadSample.entry))

/-- Every point is given the policy file of a load tuning. -/
def selection (_ : MatrixPoint) : BenchSelection ℚ where
  configuredLanes := 0
  configuredRuntimeProfile := none
  autoLanesReport := none
  lanePolicyPath := some (tuned.named LoadSample.path)
  autoRuntimeReport := none
  runtimePolicyPath := none
  cpuGuardrailPercent := 90
  samples := []

end MatrixSample

open MatrixSample in
/-- A matrix asks for four and for eight lanes, and both of its runs have one. -/
theorem matrix_lanes_overridden_single :
    ∃ report, benchmarkMatrix exactOps (args [4, 8])
        ((calls 8000).selecting exactOps LoadSample.noReports (LoadSample.store LoadSample.entry)
          RuntimeSample.noReports (RuntimeSample.store RuntimeSample.entry) selection
          (args [4, 8])) = .ok report ∧
      report.runs.map BenchmarkMatrixRun.lanes = [4, 8] ∧
      ∀ run ∈ report.runs, run.effectiveLanes = some 1 := by
  have hrun : ((benchmarkMatrix exactOps (args [4, 8])
      ((calls 8000).selecting exactOps LoadSample.noReports (LoadSample.store LoadSample.entry)
        RuntimeSample.noReports (RuntimeSample.store RuntimeSample.entry) selection
        (args [4, 8]))).toOption.map fun report => report.runs.map fun run =>
          (run.lanes, run.sizeGib, run.ioChunkBytes, run.success)) =
      some [(4, 1, defaultIoChunkBytes, true), (8, 1, defaultIoChunkBytes, true)] := by
    decide +kernel
  obtain ⟨report, hreport, hruns⟩ := Option.map_eq_some_iff.1 hrun
  have hok := RuntimeSample.of_toOption hreport
  refine ⟨report, hok, ?_, ?_⟩
  · have hlanes := congrArg (List.map Prod.fst) hruns
    rw [List.map_map] at hlanes
    exact hlanes
  · intro run hmem
    have hrow := List.mem_map_of_mem (f := fun run : BenchmarkMatrixRun ℚ =>
      (run.lanes, run.sizeGib, run.ioChunkBytes, run.success)) hmem
    rw [hruns] at hrow
    obtain ⟨hsize, hchunk, hsuccess⟩ : run.sizeGib = 1 ∧ run.ioChunkBytes = defaultIoChunkBytes ∧
        run.success = true := by
      simp only [List.mem_cons, Prod.mk.injEq, List.not_mem_nil, or_false] at hrow
      rcases hrow with ⟨-, hrow⟩ | ⟨-, hrow⟩
      · exact hrow
      · exact hrow
    have hremembers : Remembers lanePolicy (LoadSample.store LoadSample.entry) tuned
        ⟨run.sizeGib, 1, run.ioChunkBytes, (args [4, 8]).noDisk⟩ (LanePolicyEntry.Of 1) := by
      rw [hsize, hchunk]
      exact ⟨[LoadSample.entry], by decide +kernel, List.nodup_singleton _, LoadSample.entry,
        List.mem_singleton_self _, rfl, rfl, rfl⟩
    obtain ⟨-, -, sent, -, -, heffective⟩ := matrix_lanes_overridden exactOps LoadSample.noReports
      RuntimeSample.noReports (RuntimeSample.store RuntimeSample.entry) (fun _ => rfl)
      (fun _ => rfl) hok hmem hsuccess hremembers
    rw [heffective]
    simp [normalizedLaneCount]

end Metra.Client
