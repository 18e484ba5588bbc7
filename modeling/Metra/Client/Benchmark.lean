import Metra.Client.LaneTuning
import Metra.Client.SendReport

/-!
# What counts as a success

Three loops run transfers and count those that succeed: the tuning of the runtime profile, the
benchmark matrix, and the tuning of the lanes under load.  Each of them looks at whether the
call has returned a report, and at nothing in the report.

* `onlyCompletedCount_iff` — for any tally: what is counted is what is completed exactly when
  the two agree on every run;
* `successes_iff` — the loops count the completed transfers **exactly when every run whose
  lanes are answered has acks of a completed transfer and keeps the policy, or has neither**.
-/

namespace Metra.Client

/-! ## Tallies -/

/-- A tally of runs counts those that are completed, and no others add to its values. -/
structure OnlyCompletedCount {ι β : Type} (completed : ι → Bool) (successful : List ι → Nat)
    (values : List ι → List β) (runs : List ι) : Prop where
  count : successful runs = runs.countP completed
  unaffected : ∀ before run after, runs = before ++ run :: after → completed run = false →
    successful (before ++ [run]) = successful before ∧ values (before ++ [run]) = values before

section

variable {ι β : Type} {counted completed : ι → Bool} {successful : List ι → Nat}
  {values : List ι → List β} {runs : List ι}

/-- Of two predicates, one of which implies the other, equal counts mean that they agree. -/
theorem agree_of_countP_eq (himp : ∀ run ∈ runs, counted run = true → completed run = true)
    (hcount : runs.countP counted = runs.countP completed) :
    ∀ run ∈ runs, counted run = completed run := by
  induction runs with
  | nil =>
    intro run hmem
    cases hmem
  | cons first runs ih =>
    have hrest : ∀ run ∈ runs, counted run = true → completed run = true := by
      intro run hmem
      exact himp run (List.mem_cons_of_mem _ hmem)
    have hle : runs.countP counted ≤ runs.countP completed := List.countP_mono_left hrest
    have hfirst := himp first List.mem_cons_self
    rw [List.countP_cons, List.countP_cons] at hcount
    intro run hmem
    rcases List.mem_cons.1 hmem with rfl | hmem
    · cases hcounted : counted run with
      | true => rw [hfirst hcounted]
      | false =>
        cases hcompleted : completed run with
        | false => rfl
        | true =>
          simp only [hcounted, hcompleted, if_true, Bool.false_eq_true, if_false] at hcount
          omega
    · apply ih hrest _ run hmem
      cases hcounted : counted first with
      | true => simpa [hcounted, hfirst hcounted] using hcount
      | false =>
        rw [hcounted] at hcount
        cases hcompleted : completed first with
        | false => simpa [hcompleted] using hcount
        | true =>
          simp only [hcompleted, if_true, Bool.false_eq_true, if_false] at hcount
          omega

/-- **A tally that counts what is `counted`** counts the completed runs exactly when the two
agree on every run. -/
theorem onlyCompletedCount_iff
    (hcount : ∀ before, before <+: runs → successful before = before.countP counted)
    (hvalues : ∀ before run, before ++ [run] <+: runs → counted run = false →
      values (before ++ [run]) = values before) :
    OnlyCompletedCount completed successful values runs ↔
      ∀ run ∈ runs, counted run = completed run := by
  have hstep : ∀ before run after, runs = before ++ run :: after →
      successful (before ++ [run]) = successful before + if counted run then 1 else 0 := by
    rintro before run after rfl
    rw [hcount before (List.prefix_append _ _), hcount (before ++ [run]) ⟨after, by simp⟩,
      List.countP_append, List.countP_singleton]
  constructor
  · intro h
    apply agree_of_countP_eq
    · intro run hmem hcounted
      by_contra hcompleted
      rw [Bool.not_eq_true] at hcompleted
      obtain ⟨before, after, hsplit⟩ := List.append_of_mem hmem
      have hsame := (h.unaffected before run after hsplit hcompleted).1
      rw [hstep before run after hsplit, hcounted, if_pos rfl] at hsame
      omega
    · rw [← hcount runs List.prefix_rfl, h.count]
  · intro hagree
    constructor
    · rw [hcount runs List.prefix_rfl]
      apply List.countP_congr
      intro run hmem
      rw [hagree run hmem]
    · intro before run after hsplit hcompleted
      have hmem : run ∈ runs := by simp [hsplit]
      have hcounted : counted run = false := (hagree run hmem).trans hcompleted
      constructor
      · rw [hstep before run after hsplit, hcounted]
        simp
      · apply hvalues before run _ hcounted
        exact ⟨after, by simp [hsplit]⟩

end

/-! ## Runtime profiles -/

/-- The text of an error. -/
def Stop.text : Stop → String
  | .failed msg => msg
  | .overflow => "attempt to add with overflow"
  | .unfinished => ""

/-- A run of a profile, as it is reported. -/
structure TuneRuntimeRun (F : Type) where
  iteration : Nat
  transferId : Option Uuid
  averageGbps : Option F
  elapsedMs : Option Nat
  finalStatus : Option String
  error : Option String

/-- What the loop over the iterations of a profile has gathered. -/
structure RuntimeTally (F : Type) where
  runs : List (TuneRuntimeRun F)
  throughputValues : List F
  successfulRuns : Nat
  failedRuns : Nat
  effectiveIoChunkBytes : Option Nat
  fileReadPipelineDepth : Option Nat
  sendTransformPipelineDepth : Option Nat
  receiveWritePipelineDepth : Option Nat
  payloadCodec : Option String

/-- Before the first run. -/
def RuntimeTally.empty {F : Type} : RuntimeTally F :=
  ⟨[], [], 0, 0, none, none, none, none, none⟩

section

variable {F : Type}

/-- The body of the loop. -/
def RuntimeTally.add (tally : RuntimeTally F) (result : Except Stop (SendTransferReport F)) :
    RuntimeTally F :=
  let iteration := tally.runs.length + 1
  match result with
  | .ok report =>
    { runs := tally.runs ++ [⟨iteration, some report.transferId, some report.averageGbps,
        some report.elapsedMs, some report.finalStatus, none⟩]
      throughputValues := tally.throughputValues ++ [report.averageGbps]
      successfulRuns := tally.successfulRuns + 1
      failedRuns := tally.failedRuns
      effectiveIoChunkBytes := some report.effectiveIoChunkBytes
      fileReadPipelineDepth := some report.fileReadPipelineDepth
      sendTransformPipelineDepth := some report.sendTransformPipelineDepth
      receiveWritePipelineDepth := some report.receiveWritePipelineDepth
      payloadCodec := some report.payloadCodec }
  | .error stop =>
    { tally with
      runs := tally.runs ++ [⟨iteration, none, none, none, none, some stop.text⟩]
      failedRuns := tally.failedRuns + 1 }

/-- The tally over all runs of a profile. -/
def tuneRuntimeRuns (results : List (Except Stop (SendTransferReport F))) : RuntimeTally F :=
  results.foldl RuntimeTally.add .empty

/-- What the runs of a profile have come to. -/
structure TuneRuntimeProfileResult (F : Type) where
  runtimeProfile : String
  effectiveIoChunkBytes : Option Nat
  fileReadPipelineDepth : Option Nat
  sendTransformPipelineDepth : Option Nat
  receiveWritePipelineDepth : Option Nat
  payloadCodec : Option String
  throughputGbps : ThroughputStats F
  successfulRuns : Nat
  failedRuns : Nat
  runs : List (TuneRuntimeRun F)

/-- The result of a profile, from what its runs have returned. -/
def tuneRuntimeProfile [LinearOrder F] (ops : FloatOps F) (profile : RuntimeProfile)
    (results : List (Except Stop (SendTransferReport F))) : TuneRuntimeProfileResult F :=
  let tally := tuneRuntimeRuns results
  { runtimeProfile := profile.asStr
    effectiveIoChunkBytes := tally.effectiveIoChunkBytes
    fileReadPipelineDepth := tally.fileReadPipelineDepth
    sendTransformPipelineDepth := tally.sendTransformPipelineDepth
    receiveWritePipelineDepth := tally.receiveWritePipelineDepth
    payloadCodec := tally.payloadCodec
    throughputGbps := summarizeValues ops tally.throughputValues
    successfulRuns := tally.successfulRuns
    failedRuns := tally.failedRuns
    runs := tally.runs }

/-- The call has returned a report. -/
def returned (result : Except Stop (SendTransferReport F)) : Bool := result.isOk

theorem tuneRuntimeRuns_append (before : List (Except Stop (SendTransferReport F)))
    (result : Except Stop (SendTransferReport F)) :
    tuneRuntimeRuns (before ++ [result]) = (tuneRuntimeRuns before).add result := by
  simp [tuneRuntimeRuns]

theorem tuneRuntimeRuns_successfulRuns (results : List (Except Stop (SendTransferReport F))) :
    (tuneRuntimeRuns results).successfulRuns = results.countP returned := by
  induction results using List.reverseRecOn with
  | nil => rfl
  | append_singleton results result ih =>
    rw [tuneRuntimeRuns_append, List.countP_append, ← ih]
    cases result <;> simp [RuntimeTally.add, returned, Except.isOk, Except.toBool]

end

/-! ## The matrix -/

/-- A combination of a size, a number of lanes and a chunk size. -/
structure MatrixPoint where
  sizeGib : Nat
  lanes : Nat
  ioChunkBytes : Nat
  filePath : String

/-- The run of a point, as it is reported. -/
structure BenchmarkMatrixRun (F : Type) where
  sizeGib : Nat
  lanes : Nat
  effectiveLanes : Option Nat
  runtimeProfile : Option String
  effectiveIoChunkBytes : Option Nat
  fileReadPipelineDepth : Option Nat
  ioChunkBytes : Nat
  filePath : String
  success : Bool
  transferId : Option Uuid
  elapsedMs : Option Nat
  averageGbps : Option F
  totalStreamedBytes : Option Nat
  finalStatus : Option String
  error : Option String

/-- The report of a matrix. -/
structure BenchmarkMatrixReport (F : Type) where
  totalRuns : Nat
  successfulRuns : Nat
  failedRuns : Nat
  bestRun : Option (BenchmarkMatrixRun F)
  runs : List (BenchmarkMatrixRun F)

section

variable {F : Type}

/-- What the loop pushes for a point of the matrix. -/
def benchmarkMatrixRun (point : MatrixPoint) (result : Except Stop (SendTransferReport F)) :
    BenchmarkMatrixRun F :=
  match result with
  | .ok report =>
    { sizeGib := point.sizeGib
      lanes := point.lanes
      effectiveLanes := some report.effectiveLanes
      runtimeProfile := report.runtimeProfile
      effectiveIoChunkBytes := some report.effectiveIoChunkBytes
      fileReadPipelineDepth := some report.fileReadPipelineDepth
      ioChunkBytes := point.ioChunkBytes
      filePath := report.filePath
      success := true
      transferId := some report.transferId
      elapsedMs := some report.elapsedMs
      averageGbps := some report.averageGbps
      totalStreamedBytes := some report.totalStreamedBytes
      finalStatus := some report.finalStatus
      error := none }
  | .error stop =>
    { sizeGib := point.sizeGib
      lanes := point.lanes
      effectiveLanes := none
      runtimeProfile := none
      effectiveIoChunkBytes := none
      fileReadPipelineDepth := none
      ioChunkBytes := point.ioChunkBytes
      filePath := point.filePath
      success := false
      transferId := none
      elapsedMs := none
      averageGbps := none
      totalStreamedBytes := none
      finalStatus := none
      error := some stop.text }

/-- The runs of which the best one is chosen. -/
def successfulMatrixRuns (runs : List (BenchmarkMatrixRun F)) : List (BenchmarkMatrixRun F) :=
  runs.filter BenchmarkMatrixRun.success

/-- The report, from what the benchmarks of the points have returned. -/
def runBenchmarkMatrix [LinearOrder F] (ops : FloatOps F)
    (results : List (MatrixPoint × Except Stop (SendTransferReport F))) :
    BenchmarkMatrixReport F :=
  let runs := results.map fun run => benchmarkMatrixRun run.1 run.2
  let successfulRuns := (successfulMatrixRuns runs).length
  { totalRuns := runs.length
    successfulRuns
    failedRuns := runs.length - successfulRuns
    bestRun := Keyed.maxBy (fun left right : BenchmarkMatrixRun F =>
      compare (left.averageGbps.getD (ops.ofNat 0)) (right.averageGbps.getD (ops.ofNat 0)))
        (successfulMatrixRuns runs)
    runs }

theorem benchmarkMatrixRun_success (point : MatrixPoint)
    (result : Except Stop (SendTransferReport F)) :
    (benchmarkMatrixRun point result).success = returned result := by
  cases result <;> rfl

/-! ## Load -/

/-- The jobs of an iteration that have been joined. -/
structure JobTally (F : Type) where
  successfulReports : List (SendTransferReport F)
  errors : List String

/-- The body of the loop that joins the jobs; a task that panicked has no result. -/
def JobTally.add (tally : JobTally F)
    (joined : Except String (Except Stop (SendTransferReport F))) : JobTally F :=
  match joined with
  | .ok (.ok report) =>
    { tally with successfulReports := tally.successfulReports ++ [report] }
  | .ok (.error stop) => { tally with errors := tally.errors ++ [stop.text] }
  | .error err => { tally with errors := tally.errors ++ [s!"join error: {err}"] }

/-- The tally over all jobs of an iteration. -/
def joinJobs (joined : List (Except String (Except Stop (SendTransferReport F)))) : JobTally F :=
  joined.foldl JobTally.add ⟨[], []⟩

/-- One iteration; the count of the reports is made a `u32`, and the sum of the bytes is one
of `u64`. -/
def tuneLanesRun [LinearOrder F] (ops : FloatOps F) (iteration lanes concurrency elapsedMs : Nat)
    (joined : List (Except String (Except Stop (SendTransferReport F)))) : TuneLanesRun F :=
  let tally := joinJobs joined
  let streamedBytes :=
    (tally.successfulReports.map SendTransferReport.bytesStreamedThisSession).sum % 2 ^ 64
  let successfulJobs := tally.successfulReports.length % 2 ^ 32
  { iteration
    lanes
    elapsedMs
    aggregateGbps := gbps ops streamedBytes elapsedMs
    transferGbps := summarizeValues ops (tally.successfulReports.map SendTransferReport.averageGbps)
    successfulJobs
    failedJobs := concurrency - successfulJobs
    errors := tally.errors }

/-- What the iterations with one number of lanes have gathered. -/
structure LanesTally (F : Type) where
  runs : List (TuneLanesRun F)
  aggregateValues : List F
  transferValues : List F
  successfulRuns : Nat
  failedRuns : Nat

/-- The body of the loop over the iterations. -/
def LanesTally.add [LinearOrder F] (ops : FloatOps F) (lanes concurrency : Nat)
    (tally : LanesTally F)
    (iteration : Nat × List (Except String (Except Stop (SendTransferReport F)))) : LanesTally F :=
  let run :=
    tuneLanesRun ops (tally.runs.length + 1) lanes concurrency iteration.1 iteration.2
  let perTransferValues :=
    (joinJobs iteration.2).successfulReports.map SendTransferReport.averageGbps
  { runs := tally.runs ++ [run]
    aggregateValues :=
      if run.failedJobs = 0 then tally.aggregateValues ++ [run.aggregateGbps]
      else tally.aggregateValues
    transferValues := tally.transferValues ++ perTransferValues
    successfulRuns := if run.failedJobs = 0 then tally.successfulRuns + 1 else tally.successfulRuns
    failedRuns := if run.failedJobs = 0 then tally.failedRuns else tally.failedRuns + 1 }

/-- The candidate that the iterations make. -/
def tuneLanesCandidate [LinearOrder F] (ops : FloatOps F) (lanes concurrency : Nat)
    (iterations : List (Nat × List (Except String (Except Stop (SendTransferReport F))))) :
    TuneLanesCandidate F :=
  let tally := iterations.foldl (LanesTally.add ops lanes concurrency) ⟨[], [], [], 0, 0⟩
  let totalRuns := tally.successfulRuns + tally.failedRuns
  let successRate :=
    if totalRuns = 0 then ops.ofNat 0
    else ops.div (ops.ofNat tally.successfulRuns) (ops.ofNat totalRuns)
  let aggregateSummary := summarizeValues ops tally.aggregateValues
  let stabilityFactor := laneStabilityFactor ops aggregateSummary
  { lanes
    aggregateGbps := aggregateSummary
    transferGbps := summarizeValues ops tally.transferValues
    successfulRuns := tally.successfulRuns
    failedRuns := tally.failedRuns
    successRate := some successRate
    stabilityFactor := some stabilityFactor
    recommendationScore :=
      some (laneRecommendationScore ops aggregateSummary.p50 successRate stabilityFactor)
    runs := tally.runs }

/-- The task of the job has returned a report. -/
def joinedReport (joined : Except String (Except Stop (SendTransferReport F))) : Bool :=
  match joined with
  | .ok result => returned result
  | .error _ => false

theorem joinJobs_append (before : List (Except String (Except Stop (SendTransferReport F))))
    (joined : Except String (Except Stop (SendTransferReport F))) :
    joinJobs (before ++ [joined]) = (joinJobs before).add joined := by
  simp [joinJobs]

theorem joinJobs_length (joined : List (Except String (Except Stop (SendTransferReport F)))) :
    (joinJobs joined).successfulReports.length = joined.countP joinedReport := by
  induction joined using List.reverseRecOn with
  | nil => rfl
  | append_singleton joined job ih =>
    rw [joinJobs_append, List.countP_append, ← ih]
    match job with
    | .ok (.ok report) => simp [JobTally.add, joinedReport, returned, Except.isOk, Except.toBool]
    | .ok (.error stop) => simp [JobTally.add, joinedReport, returned, Except.isOk, Except.toBool]
    | .error err => simp [JobTally.add, joinedReport]

end

/-! ## Runs -/

/-- A run of a benchmark: its arguments and how its calls end. -/
structure BenchRun where
  args : BenchArgs
  calls : BenchCalls

/-- A job of load tuning: what it asks for, how its calls end, and whether its task panics. -/
structure LoadJob where
  request : CreateTransferRequest
  created : Except String Uuid
  args : TransferArgs
  calls : TransferCalls
  joinError : Option String

section

variable {F : Type} (ops : FloatOps F)

/-- What a benchmark returns. -/
def BenchRun.result (run : BenchRun) : Except Stop (SendTransferReport F) :=
  runBenchmarkWithProgress ops run.args run.calls

/-- The status that the transfer of the run has ended with is `Completed`. -/
def BenchRun.completed (run : BenchRun) : Bool :=
  match benchmarkSend ops run.args run.calls with
  | .ok (report, _) => report.finalStatus == statusText .completed
  | .error _ => false

/-- If the run gets to its acks, they are those of a completed transfer and the policy is kept,
or neither. -/
def BenchRun.Sound (run : BenchRun) : Prop :=
  ∀ profile acks, BenchAnswered run.args run.calls profile acks →
    (AcksComplete acks ↔ PolicyKept run.args run.calls profile)

/-- A job validates its request and has its transfer created. -/
def LoadJob.setup (job : LoadJob) : Except String Unit := do
  job.request.validate.mapError fun err => "invalid load tuning transfer request: " ++ err
  let _ ← job.created

/-- What joining a job gives: an error of the join, or what the job has returned. -/
def LoadJob.joined (job : LoadJob) : Except String (Except Stop (SendTransferReport F)) :=
  match job.joinError with
  | some err => .error err
  | none => .ok do
    job.setup.mapError .failed
    sendTransferWithSource ops job.args job.calls

/-- The status that the transfer of the job has ended with is `Completed`. -/
def LoadJob.completed (job : LoadJob) : Bool :=
  match job.joined ops with
  | .ok (.ok report) => report.finalStatus == statusText .completed
  | _ => false

/-- If the job gets to its acks, they are those of a completed transfer. -/
def LoadJob.Sound (job : LoadJob) : Prop :=
  job.joinError = none → job.setup = .ok () →
    ∀ acks, Answered job.args job.calls acks → AcksComplete acks

end

section

variable {F : Type} {ops : FloatOps F}

theorem returned_iff {result : Except Stop (SendTransferReport F)} :
    returned result = true ↔ ∃ report, result = .ok report := by
  cases result <;> simp [returned, Except.isOk, Except.toBool]

theorem BenchRun.completed_iff (run : BenchRun) : run.completed ops = true ↔
    ∃ profile acks, BenchAnswered run.args run.calls profile acks ∧ AcksComplete acks := by
  rw [BenchRun.completed]
  constructor
  · intro h
    cases hsend : benchmarkSend ops run.args run.calls with
    | error stop =>
      rw [hsend] at h
      cases h
    | ok sent =>
      obtain ⟨report, profile⟩ := sent
      rw [hsend] at h
      obtain ⟨acks, hanswered⟩ := answered_of_benchmarkSend hsend
      obtain ⟨report', hsend', hstatus⟩ := @benchmarkSend_of_answered F ops _ _ _ _ hanswered
      rw [hsend] at hsend'
      cases hsend'
      exact ⟨profile, acks, hanswered, hstatus.1 (beq_iff_eq.1 h)⟩
  · rintro ⟨profile, acks, hanswered, hcomplete⟩
    obtain ⟨report, hsend, hstatus⟩ := @benchmarkSend_of_answered F ops _ _ _ _ hanswered
    rw [hsend]
    exact beq_iff_eq.2 (hstatus.2 hcomplete)

/-- **What is counted is completed exactly when the run is sound.** -/
theorem BenchRun.returned_eq_completed_iff (run : BenchRun) :
    returned (run.result ops) = run.completed ops ↔ run.Sound := by
  rw [Bool.eq_iff_iff, returned_iff, BenchRun.result, runBenchmark_ok_iff, run.completed_iff]
  constructor
  · intro h profile acks hanswered
    constructor
    · intro hcomplete
      obtain ⟨profile', acks', hanswered', hkept⟩ := h.2 ⟨profile, acks, hanswered, hcomplete⟩
      obtain ⟨rfl, rfl⟩ := benchAnswered_unique hanswered hanswered'
      exact hkept
    · intro hkept
      obtain ⟨profile', acks', hanswered', hcomplete⟩ := h.1 ⟨profile, acks, hanswered, hkept⟩
      obtain ⟨rfl, rfl⟩ := benchAnswered_unique hanswered hanswered'
      exact hcomplete
  · intro hsound
    constructor
    · rintro ⟨profile, acks, hanswered, hkept⟩
      exact ⟨profile, acks, hanswered, (hsound profile acks hanswered).2 hkept⟩
    · rintro ⟨profile, acks, hanswered, hcomplete⟩
      exact ⟨profile, acks, hanswered, (hsound profile acks hanswered).1 hcomplete⟩

theorem LoadJob.returned_eq_completed_iff (job : LoadJob) :
    joinedReport (job.joined ops) = job.completed ops ↔ job.Sound := by
  rw [LoadJob.completed, LoadJob.joined, LoadJob.Sound]
  cases job.joinError with
  | some err => simp [joinedReport]
  | none =>
    cases hsetup : job.setup with
    | error msg => simp [joinedReport, returned, Except.mapError, bind, Except.bind, Except.isOk,
        Except.toBool]
    | ok _ =>
      simp only [Except.mapError, bind, Except.bind, joinedReport, forall_const]
      constructor
      · intro h acks hanswered
        obtain ⟨report, hreport, hstatus⟩ := @report_of_answered F ops _ _ _ hanswered
        rw [hreport] at h
        exact hstatus.1 (beq_iff_eq.1 h.symm)
      · intro hsound
        cases hreport : sendTransferWithSource ops job.args job.calls with
        | error stop => rfl
        | ok report =>
          obtain ⟨acks, hanswered⟩ := answered_of_report hreport
          obtain ⟨report', hreport', hstatus⟩ := @report_of_answered F ops _ _ _ hanswered
          rw [hreport] at hreport'
          cases hreport'
          exact (beq_iff_eq.2 (hstatus.2 (hsound acks hanswered))).symm

end

/-! ## The counts -/

section

variable {F : Type} [LinearOrder F] {ops : FloatOps F}

/-- The tuning of a profile counts the completed runs exactly when the runs are sound. -/
theorem tuneRuntimeProfile_successes (profile : RuntimeProfile) (runs : List BenchRun) :
    OnlyCompletedCount (BenchRun.completed ops)
        (fun runs => (tuneRuntimeProfile ops profile
          (runs.map (BenchRun.result ops))).successfulRuns)
        (fun runs => (tuneRuntimeRuns (runs.map (BenchRun.result ops))).throughputValues) runs ↔
      ∀ run ∈ runs, run.Sound := by
  have hcounted : ∀ before : List BenchRun,
      (tuneRuntimeProfile ops profile (before.map (BenchRun.result ops))).successfulRuns =
        before.countP fun run => returned (run.result ops) := by
    intro before
    show (tuneRuntimeRuns _).successfulRuns = _
    rw [tuneRuntimeRuns_successfulRuns, List.countP_map]
    rfl
  rw [onlyCompletedCount_iff (fun before _ => hcounted before)]
  · simp only [BenchRun.returned_eq_completed_iff]
  · intro before run _ hfailed
    rw [List.map_append, List.map_singleton, tuneRuntimeRuns_append]
    cases hresult : run.result ops with
    | ok report =>
      rw [hresult] at hfailed
      cases hfailed
    | error stop => rfl

/-- The matrix counts the completed runs exactly when the runs are sound. -/
theorem runBenchmarkMatrix_successes (runs : List (MatrixPoint × BenchRun)) :
    OnlyCompletedCount (fun run : MatrixPoint × BenchRun => run.2.completed ops)
        (fun runs => (runBenchmarkMatrix ops
          (runs.map fun run => (run.1, run.2.result ops))).successfulRuns)
        (fun runs => successfulMatrixRuns (runBenchmarkMatrix ops
          (runs.map fun run => (run.1, run.2.result ops))).runs) runs ↔
      ∀ run ∈ runs, run.2.Sound := by
  have hsuccess : ∀ run : MatrixPoint × BenchRun,
      (benchmarkMatrixRun run.1 (run.2.result ops)).success = returned (run.2.result ops) := by
    intro run
    exact benchmarkMatrixRun_success run.1 (run.2.result ops)
  have hcounted : ∀ before : List (MatrixPoint × BenchRun),
      (runBenchmarkMatrix ops (before.map fun run => (run.1, run.2.result ops))).successfulRuns =
        before.countP fun run => returned (run.2.result ops) := by
    intro before
    rw [runBenchmarkMatrix, successfulMatrixRuns, ← List.countP_eq_length_filter, List.countP_map,
      List.countP_map]
    apply List.countP_congr
    intro run _
    simp only [Function.comp_apply, hsuccess]
  rw [onlyCompletedCount_iff (fun before _ => hcounted before)]
  · simp only [BenchRun.returned_eq_completed_iff]
  · intro before run _ hfailed
    simp only [runBenchmarkMatrix, successfulMatrixRuns, List.map_append, List.map_cons,
      List.map_nil, List.filter_append, List.filter_cons, hsuccess, hfailed, List.filter_nil,
      Bool.false_eq_true, if_false, List.append_nil]

/-- What a successful job adds to the throughput: its own, and the bytes of the aggregate. -/
def jobValues (joined : List (Except String (Except Stop (SendTransferReport F)))) :
    List (F × Nat) :=
  (joinJobs joined).successfulReports.map fun report =>
    (report.averageGbps, report.bytesStreamedThisSession)

/-- An iteration under load counts the completed jobs exactly when the jobs are sound. -/
theorem tuneLanesRun_successes (iteration lanes elapsedMs : Nat) {concurrency : Nat}
    {jobs : List LoadJob} (hjobs : jobs.length = concurrency) (hmax : concurrency ≤ u32Max) :
    OnlyCompletedCount (LoadJob.completed ops)
        (fun jobs => (tuneLanesRun ops iteration lanes concurrency elapsedMs
          (jobs.map (LoadJob.joined ops))).successfulJobs)
        (fun jobs => jobValues (jobs.map (LoadJob.joined ops))) jobs ↔
      ∀ job ∈ jobs, job.Sound := by
  have hcounted : ∀ before, before <+: jobs →
      (tuneLanesRun ops iteration lanes concurrency elapsedMs
          (before.map (LoadJob.joined ops))).successfulJobs =
        before.countP fun job => joinedReport (job.joined ops) := by
    intro before hbefore
    have hle := hbefore.length_le
    have hcount : (before.countP fun job => joinedReport (job.joined ops)) ≤ before.length :=
      List.countP_le_length
    show (joinJobs _).successfulReports.length % 2 ^ 32 = _
    rw [joinJobs_length, List.countP_map]
    apply Nat.mod_eq_of_lt
    simp only [u32Max] at hmax
    show (before.countP fun job => joinedReport (job.joined ops)) < 2 ^ 32
    omega
  rw [onlyCompletedCount_iff hcounted]
  · simp only [LoadJob.returned_eq_completed_iff]
  · intro before job _ hfailed
    rw [List.map_append, List.map_singleton, jobValues, jobValues, joinJobs_append]
    match hjoined : job.joined ops with
    | .ok (.ok report) =>
      rw [hjoined] at hfailed
      cases hfailed
    | .ok (.error stop) => rfl
    | .error err => rfl

end

/-- **The loops count the completed transfers, and only those, exactly when every run is
sound**: in the tuning of a profile, in the matrix, and for the jobs of an iteration under
load. -/
theorem successes_iff {F : Type} [LinearOrder F] (ops : FloatOps F) :
    (∀ profile (runs : List BenchRun),
      OnlyCompletedCount (BenchRun.completed ops)
          (fun runs => (tuneRuntimeProfile ops profile
            (runs.map (BenchRun.result ops))).successfulRuns)
          (fun runs => (tuneRuntimeRuns (runs.map (BenchRun.result ops))).throughputValues) runs ↔
        ∀ run ∈ runs, run.Sound) ∧
    (∀ runs : List (MatrixPoint × BenchRun),
      OnlyCompletedCount (fun run : MatrixPoint × BenchRun => run.2.completed ops)
          (fun runs => (runBenchmarkMatrix ops
            (runs.map fun run => (run.1, run.2.result ops))).successfulRuns)
          (fun runs => successfulMatrixRuns (runBenchmarkMatrix ops
            (runs.map fun run => (run.1, run.2.result ops))).runs) runs ↔
        ∀ run ∈ runs, run.2.Sound) ∧
    ∀ iteration lanes concurrency elapsedMs (jobs : List LoadJob),
      jobs.length = concurrency → concurrency ≤ u32Max →
      (OnlyCompletedCount (LoadJob.completed ops)
          (fun jobs => (tuneLanesRun ops iteration lanes concurrency elapsedMs
            (jobs.map (LoadJob.joined ops))).successfulJobs)
          (fun jobs => jobValues (jobs.map (LoadJob.joined ops))) jobs ↔
        ∀ job ∈ jobs, job.Sound) := by
  refine ⟨tuneRuntimeProfile_successes, runBenchmarkMatrix_successes, ?_⟩
  intro iteration lanes concurrency elapsedMs jobs hjobs hmax
  exact tuneLanesRun_successes iteration lanes elapsedMs hjobs hmax

namespace BenchSample

/-- A benchmark of one lane. -/
def args : BenchArgs where
  sizeGib := 1
  filePath := "a.bin"
  fileName := "a.bin"
  tenantId := "t"
  userId := "u"
  destinationUri := "file:///a.bin"
  ioChunkBytes := defaultIoChunkBytes
  noDisk := true
  fileReadPipelineDepth := none
  updatesPolicy := false

/-- A transfer over one lane, whose ack has this status. -/
def calls (status : TransferStatus) : TransferCalls where
  status := .ok ((benchmarkRequest args).summary .nil)
  fileLen := .error "not looked at"
  protocolVersion := .ok quicProtocolVersion
  quicAddr := .ok ()
  connection := .ok ()
  joined := [.ok ⟨2 ^ 30, 0, ⟨⟨status == .completed, status, 2 ^ 30, ""⟩, 0⟩⟩]
  elapsedMs := 8000

/-- A run of it whose server ends with the given status. -/
def run (status : TransferStatus) : BenchRun where
  args := args
  calls :=
    { lanes := .ok 1
      runtimeProfile := .ok none
      sparseFile := .ok ()
      created := .ok .nil
      send := calls status
      policyUpdate := .ok () }

/-- A job of a load tuning that ends so. -/
def job (status : TransferStatus) : LoadJob where
  request := benchmarkRequest args
  created := .ok .nil
  args := benchmarkTransferArgs args 1 none
  calls := calls status
  joinError := none

/-- The point of a matrix with it. -/
def point : MatrixPoint := ⟨1, 1, defaultIoChunkBytes, "a.bin"⟩

end BenchSample

open BenchSample in
/-- Two jobs that are completed. -/
theorem successes_iff_two_jobs :
    OnlyCompletedCount (LoadJob.completed exactOps)
        (fun jobs => (tuneLanesRun exactOps 1 1 2 8000
          (jobs.map (LoadJob.joined exactOps))).successfulJobs)
        (fun jobs => jobValues (jobs.map (LoadJob.joined exactOps)))
        [job .completed, job .completed] ↔
      ∀ job' ∈ [job .completed, job .completed], job'.Sound :=
  (successes_iff exactOps).2.2 1 1 2 8000 [job .completed, job .completed] rfl (by decide)

open BenchSample in
/-- The only lane says that the transfer has failed, and each of the loops counts a success. -/
theorem failed_run_counts :
    (run .failed).completed exactOps = false ∧ (job .failed).completed exactOps = false ∧
      (tuneRuntimeProfile exactOps .balanced
        ([run .failed].map (BenchRun.result exactOps))).successfulRuns = 1 ∧
      (runBenchmarkMatrix exactOps ([(point, run .failed)].map fun run =>
        (run.1, run.2.result exactOps))).successfulRuns = 1 ∧
      (tuneLanesRun exactOps 1 1 1 8000
        ([job .failed].map (LoadJob.joined exactOps))).successfulJobs = 1 ∧
      ¬ OnlyCompletedCount (BenchRun.completed exactOps)
        (fun runs => (tuneRuntimeProfile exactOps .balanced
          (runs.map (BenchRun.result exactOps))).successfulRuns)
        (fun runs => (tuneRuntimeRuns (runs.map (BenchRun.result exactOps))).throughputValues)
        [run .failed] := by
  have hfailed : (run .failed).completed exactOps = false := by decide +kernel
  have hcounted : (tuneRuntimeProfile exactOps .balanced
      ([run .failed].map (BenchRun.result exactOps))).successfulRuns = 1 := by decide +kernel
  refine ⟨hfailed, by decide +kernel, hcounted, by decide +kernel, by decide +kernel, ?_⟩
  intro h
  have hcount := h.count
  rw [hcounted, List.countP_singleton, hfailed] at hcount
  cases hcount

end Metra.Client
