import Metra.Client.Benchmark
import Metra.Client.Metrarc
import Metra.Client.Selection
import Metra.Interleave.Solo

/-!
# Tuning the runtime profile, and what benchmarks make of it

Runtime tuning runs benchmarks with several profiles and recommends one, in a report and in the
policy file.  A benchmark that is given no profile takes the one of a report or of the policy
file, unless the host is busy, and may put the profile that it had into the policy file itself.

* `tuned_profile_followed` — **what tuning recommends is the best of the profiles, and what the
  benchmarks of the same workload take**, from the report as from the policy file;
* `policy_remembers` — a benchmark takes the profile that the last one of its workload had, so
  **a profile that was forced on it because the host was busy stays**.

The text that says how a profile was selected is part of the result.
-/

namespace Metra.Client

open Interleave Keyed Text

/-! ## Profiles by name -/

/-- `str::eq_ignore_ascii_case`. -/
def eqIgnoreAsciiCase (a b : String) : Bool :=
  decide (toAsciiLowercase a.toList = toAsciiLowercase b.toList)

/-- A profile by its name, in any case. -/
def parseRuntimeProfile (value : String) : Option RuntimeProfile :=
  match String.ofList (toAsciiLowercase value.toList) with
  | "balanced" => some .balanced
  | "throughput" => some .throughput
  | "low-cpu" => some .lowCpu
  | _ => none

@[simp] theorem parseRuntimeProfile_asStr (profile : RuntimeProfile) :
    parseRuntimeProfile profile.asStr = some profile := by
  cases profile <;> decide

theorem eqIgnoreAsciiCase_asStr_iff {profile profile' : RuntimeProfile} :
    eqIgnoreAsciiCase profile.asStr profile'.asStr = true ↔ profile = profile' := by
  cases profile <;> cases profile' <;> decide

/-! ## Tuning -/

/-- What a runtime tuning is asked for: the profiles to compare, and the workload to compare them
with. -/
structure TuneRuntimeArgs where
  sizeGib : Nat
  lanes : Nat
  ioChunkBytes : Nat
  iterations : Nat
  noDisk : Bool
  filePath : String
  /-- The last component of the path, or `metra-bench.bin`. -/
  fileName : String
  filePrefix : String
  tenantId : String
  userId : String
  destinationPrefix : String
  profiles : List RuntimeProfile
  fileReadPipelineDepth : Option Nat

/-- The report of a runtime tuning. -/
structure TuneRuntimeReport (F : Type) where
  server : String
  startedAt : Int
  completedAt : Int
  sizeGib : Nat
  lanes : Nat
  ioChunkBytes : Nat
  iterations : Nat
  noDisk : Bool
  recommendedProfile : Option String
  profiles : List (TuneRuntimeProfileResult F)

/-- How the calls of the tuning end: the source file, and the benchmark with a profile in an
iteration; and whether the defaults have benchmarks update the policy. -/
structure TuneRuntimeCalls where
  server : String
  startedAt : Int
  completedAt : Int
  sparseFile : Except String Unit
  benchmark : RuntimeProfile → Nat → BenchCalls
  autoPolicyUpdate : Bool

/-- The iterations are numbered from 1. -/
def tuneRuntimeBenchArgs (args : TuneRuntimeArgs) (autoPolicyUpdate : Bool)
    (profile : RuntimeProfile) (iteration : Nat) : BenchArgs :=
  let destination :=
    if args.noDisk then "null://benchmark/tune-runtime"
    else String.ofList (args.destinationPrefix.toList.rdropWhile (· = '/'))
  let fileName := s!"{args.filePrefix}-{profile.asStr}-{args.sizeGib}g-it{iteration}.bin"
  { sizeGib := args.sizeGib
    filePath := args.filePath
    fileName := args.fileName
    tenantId := args.tenantId
    userId := args.userId
    destinationUri := s!"{destination}/{fileName}"
    ioChunkBytes := args.ioChunkBytes
    noDisk := args.noDisk
    fileReadPipelineDepth := args.fileReadPipelineDepth
    updatesPolicy := autoPolicyUpdate }

section

variable {F : Type} [LinearOrder F] (ops : FloatOps F)

/-- The checks before anything is sent. -/
def tuneRuntimeGuards (args : TuneRuntimeArgs) : Except String Unit := do
  if args.sizeGib = 0 then throw "size_gib must be > 0"
  if args.lanes = 0 then throw "lanes must be > 0"
  if args.iterations = 0 then throw "iterations must be > 0"
  if args.ioChunkBytes = 0 then throw "io_chunk_bytes must be > 0"
  if args.profiles.isEmpty then throw "profiles must contain at least one value"
  if args.fileReadPipelineDepth = some 0 then throw "file_read_pipeline_depth must be > 0"

/-- The iterations with one profile; a profile that is given is taken as it is. -/
def tuneRuntimeIterations (args : TuneRuntimeArgs) (calls : TuneRuntimeCalls)
    (profile : RuntimeProfile) : List (Except Stop (SendTransferReport F)) :=
  (List.range args.iterations).map fun i =>
    runBenchmarkWithProgress ops
      (tuneRuntimeBenchArgs args calls.autoPolicyUpdate profile (i + 1))
      { calls.benchmark profile (i + 1) with runtimeProfile := .ok (some profile) }

/-- Runs that send a file need one of the right size. -/
def tuneRuntimeSource (args : TuneRuntimeArgs) (calls : TuneRuntimeCalls) : Except String Unit :=
  if args.noDisk then .ok () else calls.sparseFile

/-- The results of which the best one is recommended. -/
def usableProfiles (profiles : List (TuneRuntimeProfileResult F)) :
    List (TuneRuntimeProfileResult F) :=
  profiles.filter fun profile => profile.successfulRuns > 0

/-- Run each profile as often as asked for, and recommend one. -/
def runTuneRuntimeProfiles (args : TuneRuntimeArgs) (calls : TuneRuntimeCalls) :
    Except String (TuneRuntimeReport F) := do
  tuneRuntimeGuards args
  let profiles := args.profiles.eraseDups
  tuneRuntimeSource args calls
  let profileResults := profiles.map fun profile =>
    tuneRuntimeProfile ops profile (tuneRuntimeIterations ops args calls profile)
  return {
    server := calls.server
    startedAt := calls.startedAt
    completedAt := calls.completedAt
    sizeGib := args.sizeGib
    lanes := args.lanes
    ioChunkBytes := args.ioChunkBytes
    iterations := args.iterations
    noDisk := args.noDisk
    recommendedProfile :=
      (maxBy (fun left right : TuneRuntimeProfileResult F =>
        compare left.throughputGbps.p50 right.throughputGbps.p50)
          (usableProfiles profileResults)).map TuneRuntimeProfileResult.runtimeProfile
    profiles := profileResults }

end

/-! ## The policy file -/

section

variable {F : Type} (bits : F → UInt64)

/-- The workload that a report is about. -/
def TuneRuntimeReport.workload (report : TuneRuntimeReport F) : RuntimeWorkloadProfile :=
  ⟨report.sizeGib, report.lanes, report.ioChunkBytes, report.noDisk⟩

/-- The entry that the recommendation makes. -/
def tuneRuntimePolicyEntry (jsonOut : Option String) (report : TuneRuntimeReport F) :
    Except String RuntimePolicyEntry := do
  let recommendedProfile ← okOr
    "cannot persist runtime policy: tune-runtime report has no recommended profile"
    report.recommendedProfile
  let selected ← okOr
    "cannot persist runtime policy: recommended profile not found in report rows"
    (report.profiles.find? fun profile =>
      eqIgnoreAsciiCase profile.runtimeProfile recommendedProfile)
  let effectiveIoChunkBytes ← okOr
    "cannot persist runtime policy: effective_io_chunk_bytes is missing"
    selected.effectiveIoChunkBytes
  let fileReadPipelineDepth ← okOr
    "cannot persist runtime policy: file_read_pipeline_depth is missing"
    selected.fileReadPipelineDepth
  return {
    profile := report.workload
    recommendedProfile := selected.runtimeProfile
    effectiveIoChunkBytes
    fileReadPipelineDepth
    source :=
      match jsonOut with
      | some path => s!"tune-runtime report {path}"
      | none => "transfer tune-runtime"
    tunedAt := report.completedAt
    throughputP50Gbps := bits selected.throughputGbps.p50
    throughputP95Gbps := bits selected.throughputGbps.p95 }

/-- Put what a report recommends into the policy file. -/
def persistTuneRuntimePolicy (policies : Serde RuntimePolicyStore) (path : PolicyPath)
    (jsonOut : Option String) (report : TuneRuntimeReport F) :
    TryProg PolicyOp PolicyOp.Reply String Unit := do
  let entry ← TryProg.ofExcept (tuneRuntimePolicyEntry bits jsonOut report)
  upsertRuntimePolicyEntry policies path entry

/-- The entry that a benchmark makes of the profile that it had. -/
def benchmarkPolicyEntry (ops : FloatOps F) (selectedRuntimeProfile : RuntimeProfile)
    (workload : RuntimeWorkloadProfile) (report : SendTransferReport F) (now : Int) :
    RuntimePolicyEntry :=
  let throughput := ops.max report.averageGbps (ops.ofNat 0)
  { profile := workload
    recommendedProfile := selectedRuntimeProfile.asStr
    effectiveIoChunkBytes := report.effectiveIoChunkBytes
    fileReadPipelineDepth := report.fileReadPipelineDepth
    source := s!"transfer bench transfer_id={report.transferId}"
    tunedAt := now
    throughputP50Gbps := bits throughput
    throughputP95Gbps := bits throughput }

end

/-! ## Selecting a profile -/

section

variable {F : Type} (ops : FloatOps F)

/-- The host is busy when the mean of its samples comes up to the threshold; a threshold
that is not positive turns the guardrail off. -/
def cpuGuardrailTriggered (thresholdPercent : F) (samples : List F) : Bool :=
  if ops.le thresholdPercent (ops.ofNat 0) then false
  else if samples.isEmpty then false
  else ops.le thresholdPercent (ops.div (ops.sum samples) (ops.ofNat samples.length))

/-- The profile that a report recommends, and what is said of it. -/
def reportedRuntimeProfile (reports : Serde (TuneRuntimeReport F)) (file : NamedFile)
    (requested : RuntimeWorkloadProfile) : Except String (Option (RuntimeProfile × String)) := do
  let report ← readNamed "auto runtime report" reports file
  match report.recommendedProfile with
  | none => return none
  | some recommended =>
    let runtimeProfile ← okOr s!"unsupported runtime profile '{recommended}' in {file.display}"
      (parseRuntimeProfile recommended)
    let selection := s!"auto-selected runtime-profile={runtimeProfile.asStr} from {file.display}"
    if report.workload = requested then return some (runtimeProfile, selection)
    else
      return some (runtimeProfile, selection ++
        s!" (report profile size_gib={report.sizeGib} lanes={report.lanes} " ++
        s!"io_chunk_bytes={report.ioChunkBytes} no_disk={report.noDisk})")

/-- The profile that the policy file has for a workload, or for the nearest one. -/
def policyRuntimeProfile (policies : Serde RuntimePolicyStore) (file : NamedFile)
    (requested : RuntimeWorkloadProfile) : Except String (Option (RuntimeProfile × String)) := do
  if !file.present then return none
  let policy ← readNamed "runtime policy" policies file
  match selectRuntimePolicy policy requested with
  | none => return none
  | some selection =>
    let recommended := selection.entry.recommendedProfile
    let runtimeProfile ← okOr
      s!"unsupported runtime profile '{recommended}' in runtime policy {file.display}"
      (parseRuntimeProfile recommended)
    let note :=
      s!"auto-selected runtime-profile={runtimeProfile.asStr} from runtime policy {file.display}"
    if selection.exactProfileMatch then return some (runtimeProfile, note)
    else
      let profile := selection.entry.profile
      return some (runtimeProfile, note ++
        s!" fallback profile size_gib={profile.sizeGib} lanes={profile.lanes} " ++
        s!"io_chunk_bytes={profile.ioChunkBytes} no_disk={profile.noDisk}")

/-- The profile of a benchmark: the one that is given, or else low-cpu on a busy host, and on any
other a report's, the policy file's, or throughput. -/
def resolveBenchmarkRuntimeProfile (reports : Serde (TuneRuntimeReport F))
    (policies : Serde RuntimePolicyStore) (configuredRuntimeProfile : Option RuntimeProfile)
    (autoRuntimeReport runtimePolicyPath : Option NamedFile) (requested : RuntimeWorkloadProfile)
    (cpuGuardrailPercent : F) (samples : List F) :
    Except String (Option RuntimeProfile × Option String) := do
  match configuredRuntimeProfile with
  | some runtimeProfile => return (some runtimeProfile, none)
  | none =>
    let selected ← firstSelected (reportedRuntimeProfile reports · requested) autoRuntimeReport
      (firstSelected (policyRuntimeProfile policies · requested) runtimePolicyPath (.ok none))
    let (runtimeProfile, note) := selected.getD (.throughput,
      "defaulted runtime-profile=throughput (WAN throughput-first baseline)")
    if cpuGuardrailTriggered ops cpuGuardrailPercent samples then
      let percent := ops.fixed 1 cpuGuardrailPercent
      return (some .lowCpu, some (note ++
        s!"; cpu guardrail triggered (>= {percent}% sustained), forcing runtime-profile=low-cpu"))
    else return (some runtimeProfile, some note)

/-- The profile that is taken, on a host that may be busy. -/
def guarded (profile : RuntimeProfile) (cpuGuardrailPercent : F) (samples : List F) :
    RuntimeProfile :=
  if cpuGuardrailTriggered ops cpuGuardrailPercent samples then .lowCpu else profile

end

/-! ## What a report recommends -/

/-- The profile is recommended by the report, and none has a better median. -/
structure TuneRuntimeReport.Recommends {F : Type} [LinearOrder F] (report : TuneRuntimeReport F)
    (profile : RuntimeProfile) : Prop where
  recommended : report.recommendedProfile = some profile.asStr
  best : ∃ result ∈ usableProfiles report.profiles, result.runtimeProfile = profile.asStr ∧
    ∀ other ∈ usableProfiles report.profiles,
      other.throughputGbps.p50 ≤ result.throughputGbps.p50

section

variable {F : Type} [LinearOrder F] {ops : FloatOps F} {args : TuneRuntimeArgs}
  {calls : TuneRuntimeCalls} {report : TuneRuntimeReport F}

/-- The rows of a report are those of the profiles, of which each is made by its profile. -/
theorem rows_of_runTuneRuntimeProfiles (h : runTuneRuntimeProfiles ops args calls = .ok report) :
    report.workload = ⟨args.sizeGib, args.lanes, args.ioChunkBytes, args.noDisk⟩ ∧
      (report.profiles = args.profiles.eraseDups.map fun profile =>
        tuneRuntimeProfile ops profile (tuneRuntimeIterations ops args calls profile)) ∧
      report.recommendedProfile =
        (maxBy (fun left right : TuneRuntimeProfileResult F =>
          compare left.throughputGbps.p50 right.throughputGbps.p50)
            (usableProfiles report.profiles)).map TuneRuntimeProfileResult.runtimeProfile := by
  obtain ⟨_, -, h⟩ := of_bind_ok h
  obtain ⟨_, -, h⟩ := of_bind_ok h
  cases h
  exact ⟨rfl, rfl, rfl⟩

/-- **What is recommended is one of the profiles, and the best of them.** -/
theorem recommends_of_runTuneRuntimeProfiles
    (h : runTuneRuntimeProfiles ops args calls = .ok report) {recommended : String}
    (hrecommended : report.recommendedProfile = some recommended) :
    ∃ profile ∈ args.profiles, report.Recommends profile ∧ recommended = profile.asStr := by
  obtain ⟨-, hrows, hmax⟩ := rows_of_runTuneRuntimeProfiles h
  rw [hrecommended] at hmax
  obtain ⟨result, hresult, rfl⟩ := Option.map_eq_some_iff.1 hmax.symm
  obtain ⟨hmem, hbest⟩ :=
    maxBy_spec (ComparesBy.field fun row : TuneRuntimeProfileResult F =>
      row.throughputGbps.p50) hresult
  have hrow : result ∈ report.profiles := (List.mem_filter.1 hmem).1
  rw [hrows] at hrow
  obtain ⟨profile, hprofile, rfl⟩ := List.mem_map.1 hrow
  exact ⟨profile, List.mem_eraseDups.1 hprofile, ⟨hrecommended, _, hmem, rfl, hbest⟩, rfl⟩

/-- The entry that is made of a recommendation. -/
theorem entry_of_tuneRuntimePolicyEntry {bits : F → UInt64} {jsonOut : Option String}
    {entry : RuntimePolicyEntry} (hrun : runTuneRuntimeProfiles ops args calls = .ok report)
    (h : tuneRuntimePolicyEntry bits jsonOut report = .ok entry) :
    ∃ profile ∈ args.profiles, report.Recommends profile ∧ entry.profile = report.workload ∧
      entry.recommendedProfile = profile.asStr := by
  obtain ⟨recommended, hrecommended, h⟩ := of_bind_ok h
  obtain ⟨selected, hselected, h⟩ := of_bind_ok h
  obtain ⟨_, -, h⟩ := of_bind_ok h
  obtain ⟨_, -, h⟩ := of_bind_ok h
  cases h
  obtain ⟨profile, hmem, hrecommends, rfl⟩ :=
    recommends_of_runTuneRuntimeProfiles hrun (of_okOr hrecommended)
  refine ⟨profile, hmem, hrecommends, rfl, ?_⟩
  have hfind := of_okOr hselected
  have hrow := List.mem_of_find?_eq_some hfind
  rw [(rows_of_runTuneRuntimeProfiles hrun).2.1] at hrow
  obtain ⟨profile', -, rfl⟩ := List.mem_map.1 hrow
  have hsame := List.find?_some hfind
  exact congrArg RuntimeProfile.asStr (eqIgnoreAsciiCase_asStr_iff.1 hsame)

end

/-! ## What is taken -/

section

variable {F : Type} {ops : FloatOps F} {policies : Serde RuntimePolicyStore} {path : PolicyPath}
  {d : PolicyDisk} {workload : RuntimeWorkloadProfile} {profile : RuntimeProfile}

/-- An entry that recommends a profile. -/
def RuntimePolicyEntry.Of (profile : RuntimeProfile) (entry : RuntimePolicyEntry) : Prop :=
  entry.recommendedProfile = profile.asStr

/-- What the policy file remembers is found in it. -/
theorem policyRuntimeProfile_of_remembers
    (h : Remembers runtimePolicy policies d workload (RuntimePolicyEntry.Of profile)) :
    ∃ note, policyRuntimeProfile policies (d.named path) workload =
      .ok (some (profile, note)) := by
  obtain ⟨hpresent, store, entry, hread, hselect, -, hprofile⟩ := h.select "runtime policy"
  have hpresent : (d.named path).present = true := hpresent
  have hselect : selectRuntimePolicy store workload = some ⟨entry, true⟩ := hselect
  rw [RuntimePolicyEntry.Of] at hprofile
  rw [policyRuntimeProfile, hread]
  simp only [hpresent, Bool.not_true, Bool.false_eq_true, if_false, bind, Except.bind, hselect,
    hprofile, parseRuntimeProfile_asStr, okOr, if_true, pure, Except.pure]
  exact ⟨_, rfl⟩

/-- The profile is selected, and a benchmark that it was selected for reports it. -/
structure Takes (ops : FloatOps F)
    (resolved : Except String (Option RuntimeProfile × Option String))
    (profile : RuntimeProfile) : Prop where
  selected : ∃ note, resolved = .ok (some profile, some note)
  reported : ∀ (args : BenchArgs) (calls : BenchCalls) (report : SendTransferReport F),
    calls.runtimeProfile = resolved.map Prod.fst →
      runBenchmarkWithProgress ops args calls = .ok report →
        report.runtimeProfile = some profile.asStr

/-- What comes before the transfer takes the lanes and the profile that were selected. -/
theorem of_benchmarkSetup {args : BenchArgs} {calls : BenchCalls} {lanes : Nat}
    {selected : Option RuntimeProfile} (h : benchmarkSetup args calls = .ok (lanes, selected)) :
    calls.lanes = .ok lanes ∧ calls.runtimeProfile = .ok selected := by
  obtain ⟨lanes', hlanes, h⟩ := of_bind_ok h
  obtain ⟨selected', hselected, h⟩ := of_bind_ok h
  have hpair : (lanes', selected') = (lanes, selected) := by
    dsimp only at h
    split at h
    · obtain ⟨_, -, h⟩ := of_bind_ok h
      obtain ⟨_, -, h⟩ := of_bind_ok h
      obtain ⟨_, -, h⟩ := of_bind_ok h
      exact Except.ok.inj h
    · obtain ⟨_, -, h⟩ := of_bind_ok h
      obtain ⟨_, -, h⟩ := of_bind_ok h
      exact Except.ok.inj h
  cases hpair
  exact ⟨hlanes, hselected⟩

/-- What a benchmark reports is what it was sent with. -/
theorem sent_of_runBenchmark {args : BenchArgs} {calls : BenchCalls}
    {report : SendTransferReport F} (h : runBenchmarkWithProgress ops args calls = .ok report) :
    ∃ lanes selected, calls.lanes = .ok lanes ∧ calls.runtimeProfile = .ok selected ∧
      report.runtimeProfile = selected.map RuntimeProfile.asStr ∧
      report.effectiveLanes = normalizedLaneCount lanes report.fileSizeBytes := by
  obtain ⟨⟨report', profile⟩, hsend, h⟩ := of_bind_ok h
  have hreport : report' = report := by
    dsimp only at h
    split at h
    · obtain ⟨_, -, h⟩ := of_bind_ok h
      exact Except.ok.inj h
    · exact Except.ok.inj h
  subst hreport
  obtain ⟨⟨lanes, selected⟩, hsetup, hsend⟩ := of_bind_ok hsend
  obtain ⟨report'', hsent, hsend⟩ := of_bind_ok hsend
  cases hsend
  obtain ⟨hlanes, hselected⟩ := of_benchmarkSetup (of_mapError hsetup)
  obtain ⟨prepared, -, hsent⟩ := of_bind_ok hsent
  obtain ⟨joined, -, hsent⟩ := of_bind_ok hsent
  cases hsent
  exact ⟨lanes, _, hlanes, hselected, rfl, rfl⟩

theorem Takes.of_resolved {resolved : Except String (Option RuntimeProfile × Option String)}
    {note : String} (h : resolved = .ok (some profile, some note)) :
    Takes ops resolved profile where
  selected := ⟨note, h⟩
  reported := by
    intro args calls report hcalls hrun
    obtain ⟨_, selected, -, hselected, hprofile, -⟩ := sent_of_runBenchmark hrun
    rw [h, hselected] at hcalls
    cases hcalls
    exact hprofile

end

/-! ## Benchmarks that are given no profile -/

section

variable {F : Type} {ops : FloatOps F} {reports : Serde (TuneRuntimeReport F)}
  {policies : Serde RuntimePolicyStore} {requested : RuntimeWorkloadProfile}
  {profile : RuntimeProfile} {percent : F} {samples : List F} {report policy : Option NamedFile}

/-- What is selected is taken, unless the host is busy. -/
theorem takes_of_selected {note : String}
    (h : firstSelected (reportedRuntimeProfile reports · requested) report
      (firstSelected (policyRuntimeProfile policies · requested) policy (.ok none)) =
        .ok (some (profile, note))) :
    Takes ops (resolveBenchmarkRuntimeProfile ops reports policies none report policy requested
      percent samples) (guarded ops profile percent samples) := by
  cases hguard : cpuGuardrailTriggered ops percent samples with
  | true =>
    obtain ⟨note', hresolved⟩ : ∃ note', resolveBenchmarkRuntimeProfile ops reports policies none
        report policy requested percent samples = .ok (some .lowCpu, some note') := by
      rw [resolveBenchmarkRuntimeProfile, h]
      simp only [bind, Except.bind, Option.getD_some, hguard, if_true, pure, Except.pure]
      exact ⟨_, rfl⟩
    rw [guarded, hguard, if_pos rfl]
    exact .of_resolved hresolved
  | false =>
    have hresolved : resolveBenchmarkRuntimeProfile ops reports policies none report policy
        requested percent samples = .ok (some profile, some note) := by
      rw [resolveBenchmarkRuntimeProfile, h]
      simp only [bind, Except.bind, Option.getD_some, hguard, Bool.false_eq_true, if_false, pure,
        Except.pure]
    rw [guarded, hguard, if_neg Bool.false_ne_true]
    exact .of_resolved hresolved

/-- What the policy file remembers is taken, when there is no report. -/
theorem takes_of_remembers {path : PolicyPath} {d : PolicyDisk}
    (h : Remembers runtimePolicy policies d requested (RuntimePolicyEntry.Of profile)) :
    Takes ops (resolveBenchmarkRuntimeProfile ops reports policies none none (some (d.named path))
      requested percent samples) (guarded ops profile percent samples) := by
  obtain ⟨note, hnote⟩ : ∃ note, policyRuntimeProfile policies (d.named path) requested =
      .ok (some (profile, note)) := policyRuntimeProfile_of_remembers h
  apply takes_of_selected
  rw [firstSelected_none]
  exact firstSelected_of_look hnote

/-- What a report recommends is taken, whatever the policy file says. -/
theorem takes_of_recommends [LinearOrder F] {tuned : TuneRuntimeReport F}
    (h : tuned.Recommends profile) {file : NamedFile} {payload : List UInt8}
    (hfile : file.found = .ok payload) (hparse : reports.fromSlice payload = some tuned) :
    Takes ops (resolveBenchmarkRuntimeProfile ops reports policies none (some file) policy
      requested percent samples) (guarded ops profile percent samples) := by
  have hread : readNamed "auto runtime report" reports file = .ok tuned :=
    readNamed_of_parse hfile hparse
  obtain ⟨note, hnote⟩ : ∃ note, reportedRuntimeProfile reports file requested =
      .ok (some (profile, note)) := by
    rw [reportedRuntimeProfile, hread]
    simp only [bind, Except.bind, h.recommended, parseRuntimeProfile_asStr, okOr]
    split
    · exact ⟨_, rfl⟩
    · exact ⟨_, rfl⟩
  apply takes_of_selected
  exact firstSelected_of_look hnote

end

/-- A tuning whose result was put into the policy file is remembered. -/
theorem remembers_of_tuneRuntime {F : Type} [LinearOrder F] {ops : FloatOps F} {bits : F → UInt64}
    {policies : Serde RuntimePolicyStore} (hpolicies : policies.RoundTrips)
    {args : TuneRuntimeArgs} {calls : TuneRuntimeCalls} {report : TuneRuntimeReport F}
    (hrun : runTuneRuntimeProfiles ops args calls = .ok report) {path : PolicyPath}
    {es : List RuntimePolicyEntry} {d d' : PolicyDisk}
    (hbefore : Upserts (upsertRuntimePolicyEntry policies path) es d) {jsonOut : Option String}
    {t : Nat} (hpersist : Prog.Eval policyMachine t
      (persistTuneRuntimePolicy bits policies path jsonOut report).toProg d (.ok ()) d') :
    ∃ profile ∈ args.profiles, report.Recommends profile ∧
      Remembers runtimePolicy policies d'
        ⟨args.sizeGib, args.lanes, args.ioChunkBytes, args.noDisk⟩
        (RuntimePolicyEntry.Of profile) := by
  obtain ⟨entry, d₁, hentry, hcall⟩ := Prog.Eval.of_tryBind hpersist
  obtain ⟨hok, rfl⟩ := hentry.of_ret
  obtain ⟨profile, hmem, hrecommends, hworkload, hprofile⟩ :=
    entry_of_tuneRuntimePolicyEntry hrun hok.symm
  refine ⟨profile, hmem, hrecommends, ?_⟩
  rw [← (rows_of_runTuneRuntimeProfiles hrun).1, ← hworkload]
  exact remembers_of_upsert hpolicies hbefore hcall hprofile

/-- **What tuning recommends is what the benchmarks take.**  A tuning whose result was put into
the policy file recommends the best of its profiles; and a benchmark that is given no profile
takes it, unless the host is busy: from the policy file if it is of the workload that was tuned,
and from the report in any case. -/
theorem tuned_profile_followed {F : Type} [LinearOrder F] (ops : FloatOps F) (bits : F → UInt64)
    {reports : Serde (TuneRuntimeReport F)} {policies : Serde RuntimePolicyStore}
    (hpolicies : policies.RoundTrips) {args : TuneRuntimeArgs} {calls : TuneRuntimeCalls}
    {report : TuneRuntimeReport F} (hrun : runTuneRuntimeProfiles ops args calls = .ok report)
    {path : PolicyPath} {es : List RuntimePolicyEntry} {d : PolicyDisk}
    (hbefore : Upserts (upsertRuntimePolicyEntry policies path) es d) {jsonOut : Option String}
    {t : Nat} {d' : PolicyDisk}
    (hpersist : Prog.Eval policyMachine t
      (persistTuneRuntimePolicy bits policies path jsonOut report).toProg d (.ok ()) d') :
    ∃ profile ∈ args.profiles, report.Recommends profile ∧
      ∀ (percent : F) (samples : List F),
        Takes ops (resolveBenchmarkRuntimeProfile ops reports policies none none
            (some (d'.named path)) ⟨args.sizeGib, args.lanes, args.ioChunkBytes, args.noDisk⟩
            percent samples) (guarded ops profile percent samples) ∧
          ∀ (file : NamedFile) (payload : List UInt8) (policy : Option NamedFile)
            (requested : RuntimeWorkloadProfile), file.found = .ok payload →
            reports.fromSlice payload = some report →
            Takes ops (resolveBenchmarkRuntimeProfile ops reports policies none (some file) policy
              requested percent samples) (guarded ops profile percent samples) := by
  obtain ⟨profile, hmem, hrecommends, hremembers⟩ :=
    remembers_of_tuneRuntime hpolicies hrun hbefore hpersist
  refine ⟨profile, hmem, hrecommends, fun percent samples => ⟨?_, ?_⟩⟩
  · exact takes_of_remembers hremembers
  · intro file payload policy requested hfile hparse
    exact takes_of_recommends hrecommends hfile hparse

namespace RuntimeSample

/-- A tuning of all profiles, with one run of each. -/
def args : TuneRuntimeArgs where
  sizeGib := 1
  lanes := 1
  ioChunkBytes := defaultIoChunkBytes
  iterations := 1
  noDisk := true
  filePath := "a.bin"
  fileName := "a.bin"
  filePrefix := "tune"
  tenantId := "t"
  userId := "u"
  destinationPrefix := "file:///bench/"
  profiles := [.balanced, .throughput, .balanced]
  fileReadPipelineDepth := none

/-- A transfer that is completed, and twice as fast with one of the profiles. -/
def benchmark (profile : RuntimeProfile) : BenchCalls :=
  { (BenchSample.run .completed).calls with
    runtimeProfile := .ok (some profile)
    send := { BenchSample.calls .completed with
      elapsedMs := if profile = .throughput then 4000 else 8000 } }

/-- Its calls, none of which fails. -/
def calls : TuneRuntimeCalls where
  server := "http://localhost"
  startedAt := 0
  completedAt := 1
  sparseFile := .ok ()
  benchmark profile _ := benchmark profile
  autoPolicyUpdate := false

/-- What the profiles were tuned for. -/
def workload : RuntimeWorkloadProfile := ⟨1, 1, defaultIoChunkBytes, true⟩

/-- The policy file, in the current directory. -/
def path : PolicyPath := ⟨"runtime-policy.json", none⟩

/-- The throughputs of an entry play no part here. -/
def bits (_ : ℚ) : UInt64 := 0

/-- The entry that the tuning makes. -/
def entry : RuntimePolicyEntry where
  profile := workload
  recommendedProfile := "throughput"
  effectiveIoChunkBytes := 32 * 1024 * 1024
  fileReadPipelineDepth := 10
  source := "transfer tune-runtime"
  tunedAt := 1
  throughputP50Gbps := 0
  throughputP95Gbps := 0

/-- What stands in the policy file. -/
def text (entry : RuntimePolicyEntry) : List UInt8 :=
  PolicySample.runtimeStoreText ⟨1, 0, [entry]⟩

/-- A serde that knows the file with one entry. -/
def store (entry : RuntimePolicyEntry) : Serde RuntimePolicyStore :=
  Serde.single ⟨1, 0, [entry]⟩ (text entry)

theorem store_roundTrips (entry : RuntimePolicyEntry) : (store entry).RoundTrips :=
  Serde.single_roundTrips (PolicySample.storeText_ne_nil _ _ _)

theorem of_toOption {ε α : Type} {result : Except ε α} {a : α}
    (h : result.toOption = some a) : result = .ok a := by
  cases result with
  | ok b => exact congrArg Except.ok (Option.some.inj h)
  | error e => cases h

/-- There is no report file. -/
def noReports : Serde (TuneRuntimeReport ℚ) := ⟨fun _ => none, fun _ => none⟩

/-- A tuning whose result is put into the policy file. -/
theorem persisted_of_made {args : TuneRuntimeArgs} {calls : TuneRuntimeCalls}
    {entry : RuntimePolicyEntry} {profile : String}
    (hmade : ((runTuneRuntimeProfiles exactOps args calls).toOption.bind fun report =>
      (tuneRuntimePolicyEntry bits none report).toOption.map fun made =>
        (report.recommendedProfile, made)) = some (some profile, entry))
    (hvalid : validateRuntimePolicyEntry entry = .ok ()) :
    ∃ report d', runTuneRuntimeProfiles exactOps args calls = .ok report ∧
      Prog.Eval policyMachine 0
        (persistTuneRuntimePolicy bits (store entry) path none report).toProg
        (PolicyDisk.start none) (.ok ()) d' ∧
      report.recommendedProfile = some profile ∧ d'.file = some (text entry) := by
  obtain ⟨report, hreport, hentry⟩ := Option.bind_eq_some_iff.1 hmade
  obtain ⟨made, hoption, hpair⟩ := Option.map_eq_some_iff.1 hentry
  obtain ⟨hrecommended, rfl⟩ := Prod.mk.inj hpair
  have hok := of_toOption hoption
  obtain ⟨d', hcall⟩ : ∃ d', Prog.Eval policyMachine 0
      (upsertRuntimePolicyEntry (store made) path made).toProg (PolicyDisk.start none) (.ok ())
      d' := exists_upsert hvalid rfl (Serde.single_toVec _ _)
  refine ⟨report, d', of_toOption hreport, .tryBind (a := made) ?_ hcall, hrecommended,
    file_of_upsert_single hcall⟩
  rw [hok]
  exact .ret _ _

/-- The tuning, and that its result is put into the policy file. -/
theorem persisted :
    ∃ report d', runTuneRuntimeProfiles exactOps args calls = .ok report ∧
      Prog.Eval policyMachine 0
        (persistTuneRuntimePolicy bits (store entry) path none report).toProg
        (PolicyDisk.start none) (.ok ()) d' ∧
      report.recommendedProfile = some "throughput" ∧ d'.file = some (text entry) :=
  persisted_of_made (by decide +kernel) rfl

end RuntimeSample

open RuntimeSample in
/-- The faster one of two profiles is recommended, stored and taken. -/
theorem tuned_profile_followed_faster :
    ∃ report d', runTuneRuntimeProfiles exactOps args calls = .ok report ∧
      Prog.Eval policyMachine 0
        (persistTuneRuntimePolicy bits (store entry) path none report).toProg
        (PolicyDisk.start none) (.ok ()) d' ∧
      report.recommendedProfile = some "throughput" ∧
      Takes exactOps (resolveBenchmarkRuntimeProfile exactOps noReports (store entry) none none
        (some (d'.named path)) workload 90 [10, 20, 30]) .throughput := by
  obtain ⟨report, d', hrun, hpersist, hrecommended, -⟩ := persisted
  obtain ⟨profile, -, hrecommends, htakes⟩ := tuned_profile_followed exactOps bits
    (store_roundTrips entry) hrun .start hpersist
  have hname : RuntimeProfile.throughput.asStr = profile.asStr :=
    Option.some.inj (hrecommended.symm.trans hrecommends.recommended)
  have hprofile := parseRuntimeProfile_asStr profile
  rw [← hname, parseRuntimeProfile_asStr] at hprofile
  cases hprofile
  refine ⟨report, d', hrun, hpersist, hrecommended, ?_⟩
  have htaken := (htakes 90 [10, 20, 30]).1
  rw [guarded, if_neg (by decide +kernel)] at htaken
  exact htaken

/-! ## Benchmarks that update the policy -/

/-- A benchmark run that has updated the policy file: its workload, the profile and the report
that it was given, and the profile that it had. -/
structure PolicyRun where
  workload : RuntimeWorkloadProfile
  configured : Option RuntimeProfile
  report : Option NamedFile
  profile : RuntimeProfile

/-- Runs one after the other, of any workloads, each of which finds its profile and updates the
policy file; before the first one there is no file. -/
inductive PolicyRuns {F : Type} (ops : FloatOps F) (bits : F → UInt64)
    (reports : Serde (TuneRuntimeReport F)) (policies : Serde RuntimePolicyStore)
    (path : PolicyPath) : List PolicyRun → PolicyDisk → Prop
  | start : PolicyRuns ops bits reports policies path [] (PolicyDisk.start none)
  | snoc {runs : List PolicyRun} {run : PolicyRun} {d d' : PolicyDisk} {args : BenchArgs}
      {calls : BenchCalls} {lanes t : Nat} {percent : F} {samples : List F} {note : Option String}
      {report : SendTransferReport F} {now : Int}
      (h : PolicyRuns ops bits reports policies path runs d) (hlanes : calls.lanes = .ok lanes)
      (hworkload : run.workload = ⟨args.sizeGib, lanes, args.ioChunkBytes, args.noDisk⟩)
      (hresolved : resolveBenchmarkRuntimeProfile ops reports policies run.configured run.report
        (some (d.named path)) run.workload percent samples = .ok (some run.profile, note))
      (hprofile : calls.runtimeProfile = .ok (some run.profile)) (hupdates : args.updatesPolicy)
      (hrun : runBenchmarkWithProgress ops args calls = .ok report)
      (hcall : Prog.Eval policyMachine t (upsertRuntimePolicyEntry policies path
        (benchmarkPolicyEntry bits ops run.profile run.workload report now)).toProg d (.ok ()) d') :
      PolicyRuns ops bits reports policies path (runs ++ [run]) d'

section

variable {F : Type} {ops : FloatOps F} {bits : F → UInt64}
  {reports : Serde (TuneRuntimeReport F)} {policies : Serde RuntimePolicyStore}
  {path : PolicyPath} {runs : List PolicyRun} {d : PolicyDisk}

theorem PolicyRuns.upserts (h : PolicyRuns ops bits reports policies path runs d) :
    ∃ es, Upserts (upsertRuntimePolicyEntry policies path) es d := by
  induction h with
  | start => exact ⟨[], .start⟩
  | snoc _ _ _ _ _ _ _ hcall ih =>
    obtain ⟨es, hes⟩ := ih
    exact ⟨_, hes.snoc hcall⟩

/-- A run is stored: the policy file remembers the profile that it had. -/
theorem remembers_of_run (hserde : policies.RoundTrips)
    (h : PolicyRuns ops bits reports policies path runs d) {t : Nat} {run : PolicyRun}
    {report : SendTransferReport F} {now : Int} {d' : PolicyDisk}
    (hcall : Prog.Eval policyMachine t (upsertRuntimePolicyEntry policies path
      (benchmarkPolicyEntry bits ops run.profile run.workload report now)).toProg d (.ok ()) d') :
    Remembers runtimePolicy policies d' run.workload (RuntimePolicyEntry.Of run.profile) := by
  obtain ⟨es, hes⟩ := h.upserts
  exact remembers_of_upsert hserde hes hcall rfl

/-- Runs of other workloads leave it alone. -/
theorem Remembers.run (hserde : policies.RoundTrips)
    (h : PolicyRuns ops bits reports policies path runs d) {t : Nat} {run : PolicyRun}
    {report : SendTransferReport F} {now : Int} {d' : PolicyDisk}
    {workload : RuntimeWorkloadProfile} {profile : RuntimeProfile}
    (hremembers : Remembers runtimePolicy policies d workload (RuntimePolicyEntry.Of profile))
    (hne : run.workload ≠ workload)
    (hcall : Prog.Eval policyMachine t (upsertRuntimePolicyEntry policies path
      (benchmarkPolicyEntry bits ops run.profile run.workload report now)).toProg d (.ok ()) d') :
    Remembers runtimePolicy policies d' workload (RuntimePolicyEntry.Of profile) := by
  obtain ⟨es, hes⟩ := h.upserts
  refine hremembers.upsert hserde hes ?_ hcall
  exact hne

/-- **The policy file remembers the profile that the last run of a workload had.** -/
theorem remembers_of_runs (hserde : policies.RoundTrips)
    (h : PolicyRuns ops bits reports policies path runs d) {before later : List PolicyRun}
    {run : PolicyRun} (hruns : runs = before ++ run :: later)
    (hlater : ∀ other ∈ later, other.workload ≠ run.workload) :
    Remembers runtimePolicy policies d run.workload (RuntimePolicyEntry.Of run.profile) := by
  induction h generalizing later with
  | start => simp at hruns
  | snoc hbefore _ _ _ _ _ _ hcall ih =>
    rcases List.eq_nil_or_concat later with rfl | ⟨later, last, rfl⟩
    · cases List.singleton_inj.1 (List.append_inj' hruns rfl).2
      exact remembers_of_run hserde hbefore hcall
    · rw [List.concat_eq_append, ← List.cons_append, ← List.append_assoc] at hruns
      obtain ⟨hfront, hlast⟩ := List.append_inj' hruns rfl
      cases List.singleton_inj.1 hlast
      refine (ih hfront fun other hother => ?_).run hserde hbefore ?_ hcall
      · exact hlater other (by simp [hother])
      · exact hlater _ (by simp)

/-- **A run that had the frugal profile is followed by such runs**, as long as no other profile
is asked for. -/
theorem lowCpu_of_runs (hserde : policies.RoundTrips)
    (h : PolicyRuns ops bits reports policies path runs d) {before later : List PolicyRun}
    {run : PolicyRun} (hruns : runs = before ++ run :: later) (hlow : run.profile = .lowCpu)
    (hfree : ∀ other ∈ later, other.workload = run.workload →
      other.configured = none ∧ other.report = none) :
    (∀ other ∈ later, other.workload = run.workload → other.profile = .lowCpu) ∧
      Remembers runtimePolicy policies d run.workload (RuntimePolicyEntry.Of .lowCpu) := by
  induction h generalizing later with
  | start => simp at hruns
  | @snoc runs new d d' args calls lanes t percent samples note report now hbefore _ _ hresolved
      _ _ _ hcall ih =>
    rcases List.eq_nil_or_concat later with rfl | ⟨later, last, rfl⟩
    · cases List.singleton_inj.1 (List.append_inj' hruns rfl).2
      refine ⟨by simp, ?_⟩
      rw [← hlow]
      exact remembers_of_run hserde hbefore hcall
    · rw [List.concat_eq_append, ← List.cons_append, ← List.append_assoc] at hruns
      obtain ⟨hfront, hlast⟩ := List.append_inj' hruns rfl
      cases List.singleton_inj.1 hlast
      obtain ⟨hlows, hremembers⟩ := ih hfront fun other hother =>
        hfree other (by simp [hother])
      by_cases hsame : new.workload = run.workload
      · -- the new run finds the profile in the file, and keeps it whether the host is busy or not
        obtain ⟨hconfigured, hreport⟩ := hfree new (by simp) hsame
        have hnew : new.profile = .lowCpu := by
          rw [hconfigured, hreport, hsame] at hresolved
          have htakes : Takes ops (resolveBenchmarkRuntimeProfile ops reports policies none none
              (some (d.named path)) run.workload percent samples)
              (guarded ops .lowCpu percent samples) := takes_of_remembers hremembers
          obtain ⟨note', htaken⟩ := htakes.selected
          rw [hresolved, guarded, ite_self] at htaken
          exact Option.some.inj (Prod.mk.inj (Except.ok.inj htaken)).1
        refine ⟨fun other hother hworkload => ?_, ?_⟩
        · rcases List.mem_append.1 (List.concat_eq_append ▸ hother) with hother | hother
          · exact hlows other hother hworkload
          · rw [List.mem_singleton.1 hother]
            exact hnew
        · rw [← hsame, ← hnew]
          exact remembers_of_run hserde hbefore hcall
      · refine ⟨fun other hother hworkload => ?_, hremembers.run hserde hbefore hsame hcall⟩
        rcases List.mem_append.1 (List.concat_eq_append ▸ hother) with hother | hother
        · exact hlows other hother hworkload
        · rw [List.mem_singleton.1 hother] at hworkload
          exact absurd hworkload hsame

end

/-- **The policy file remembers**: after any runs that have updated it, a benchmark that is given
nothing takes the profile that the last run of its workload had, unless the host is busy; and
once a run had the frugal profile, maybe because the host was busy, all later ones of its workload
have it that are given nothing. -/
theorem policy_remembers {F : Type} (ops : FloatOps F) (bits : F → UInt64)
    (reports : Serde (TuneRuntimeReport F)) {policies : Serde RuntimePolicyStore}
    (hpolicies : policies.RoundTrips) {path : PolicyPath} {runs : List PolicyRun} {d : PolicyDisk}
    (h : PolicyRuns ops bits reports policies path runs d) {before later : List PolicyRun}
    {run : PolicyRun} (hruns : runs = before ++ run :: later) :
    ((∀ other ∈ later, other.workload ≠ run.workload) → ∀ (percent : F) (samples : List F),
        Takes ops (resolveBenchmarkRuntimeProfile ops reports policies none none
          (some (d.named path)) run.workload percent samples)
          (guarded ops run.profile percent samples)) ∧
      (run.profile = .lowCpu →
        (∀ other ∈ later, other.workload = run.workload →
          other.configured = none ∧ other.report = none) →
        ∀ other ∈ later, other.workload = run.workload → other.profile = .lowCpu) := by
  constructor
  · intro hlater percent samples
    exact takes_of_remembers (remembers_of_runs hpolicies h hruns hlater)
  · intro hlow hfree
    exact (lowCpu_of_runs hpolicies h hruns hlow hfree).1

namespace RuntimeSample

/-- A benchmark of the same workload that updates the policy. -/
def benchArgs : BenchArgs :=
  { tuneRuntimeBenchArgs args true .lowCpu 1 with ioChunkBytes := defaultIoChunkBytes }

/-- Its run, when it is given nothing and has the frugal profile. -/
def frugal : PolicyRun := ⟨workload, none, none, .lowCpu⟩

/-- The entry that such a run makes. -/
def frugalEntry : RuntimePolicyEntry where
  profile := workload
  recommendedProfile := "low-cpu"
  effectiveIoChunkBytes := 4 * 1024 * 1024
  fileReadPipelineDepth := 2
  source := "transfer bench transfer_id=00000000-0000-0000-0000-000000000000"
  tunedAt := 0
  throughputP50Gbps := 0
  throughputP95Gbps := 0

end RuntimeSample

open RuntimeSample in
/-- A benchmark on a busy host is forced to have the frugal profile, and the next one has it
too. -/
theorem policy_remembers_busy :
    ∃ d, PolicyRuns exactOps bits noReports (store frugalEntry) path [frugal, frugal] d ∧
      Takes exactOps (resolveBenchmarkRuntimeProfile exactOps noReports (store frugalEntry) none
        none (some (d.named path)) workload 90 [10, 20, 30]) .lowCpu := by
  have hserde : (store frugalEntry).RoundTrips := store_roundTrips frugalEntry
  have hmade : ((runBenchmarkWithProgress exactOps benchArgs (benchmark .lowCpu)).toOption.map
      fun report => benchmarkPolicyEntry bits exactOps .lowCpu workload report 0) =
        some frugalEntry := by
    decide +kernel
  obtain ⟨report, hreport, hmade⟩ := Option.map_eq_some_iff.1 hmade
  have hrun := of_toOption hreport
  have hvalid : runtimePolicy.validate frugalEntry = .ok () := of_toOption (by decide +kernel)
  -- the first run is forced, and stores its entry
  obtain ⟨note, hforced⟩ : ∃ note, resolveBenchmarkRuntimeProfile exactOps noReports
      (store frugalEntry) none none (some ((PolicyDisk.start none).named path)) workload 90
      [95, 95, 95] = .ok (some .lowCpu, note) := by
    have hguard : cpuGuardrailTriggered exactOps 90 [95, 95, 95] = true := by decide +kernel
    simp only [resolveBenchmarkRuntimeProfile, firstSelected, policyRuntimeProfile,
      PolicyDisk.named, PolicyDisk.start, Option.isSome_none, Bool.not_false, if_true, bind,
      Except.bind, pure, Except.pure, Option.getD_none, hguard]
    exact ⟨_, rfl⟩
  obtain ⟨d, hfirst⟩ : ∃ d, Prog.Eval policyMachine 0
      (upsertRuntimePolicyEntry (store frugalEntry) path frugalEntry).toProg
      (PolicyDisk.start none) (.ok ()) d := exists_upsert hvalid rfl (Serde.single_toVec _ _)
  obtain ⟨entries, hnone, hentries, -⟩ := entriesOf_upsert hserde hfirst
  obtain rfl := Option.some.inj hnone
  have hmakes : benchmarkPolicyEntry bits exactOps frugal.profile frugal.workload report 0 =
      frugalEntry := hmade
  have hcall : Prog.Eval policyMachine 0 (upsertRuntimePolicyEntry (store frugalEntry) path
      (benchmarkPolicyEntry bits exactOps frugal.profile frugal.workload report 0)).toProg
      (PolicyDisk.start none) (.ok ()) d := by
    rw [hmakes]
    exact hfirst
  have hnone : PolicyRuns exactOps bits noReports (store frugalEntry) path []
      (PolicyDisk.start none) := .start
  have hone : PolicyRuns exactOps bits noReports (store frugalEntry) path [frugal] d :=
    hnone.snoc rfl rfl hforced rfl rfl hrun hcall
  -- the second run finds the profile in the file, and stores its entry again
  obtain ⟨d', hsecond⟩ : ∃ d', Prog.Eval policyMachine 0
      (upsertRuntimePolicyEntry (store frugalEntry) path frugalEntry).toProg d (.ok ()) d' :=
    exists_upsert hvalid hentries (Serde.single_toVec _ _)
  have hremembers := remembers_of_run hserde hnone hcall
  have htakes : Takes exactOps (resolveBenchmarkRuntimeProfile exactOps noReports
      (store frugalEntry) none none (some (d.named path)) workload 90 [10, 20, 30])
      (guarded exactOps .lowCpu 90 [10, 20, 30]) := takes_of_remembers hremembers
  rw [guarded, ite_self] at htakes
  obtain ⟨note', hagain⟩ := htakes.selected
  have htwo : PolicyRuns exactOps bits noReports (store frugalEntry) path [frugal, frugal] d' := by
    have hcall : Prog.Eval policyMachine 0 (upsertRuntimePolicyEntry (store frugalEntry) path
        (benchmarkPolicyEntry bits exactOps frugal.profile frugal.workload report 0)).toProg
        d (.ok ()) d' := by
      rw [hmakes]
      exact hsecond
    exact hone.snoc rfl rfl hagain rfl rfl hrun hcall
  refine ⟨d', htwo, ?_⟩
  have hlater : [frugal, frugal] = [frugal] ++ frugal :: [] := rfl
  obtain ⟨htaken, -⟩ := policy_remembers exactOps bits noReports hserde htwo hlater
  have hlast : Takes exactOps (resolveBenchmarkRuntimeProfile exactOps noReports
      (store frugalEntry) none none (some (d'.named path)) workload 90 [10, 20, 30])
      (guarded exactOps .lowCpu 90 [10, 20, 30]) := htaken (by simp) 90 [10, 20, 30]
  rwa [guarded, ite_self] at hlast

end Metra.Client
