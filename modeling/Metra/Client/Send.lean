import Metra.Client.ConfigLayers
import Metra.Client.LoadTuning

/-!
# Sending a file

`send_transfer` takes up the transfer that it is given, or has the server create one for the file.
It looks for lanes and a profile under the size of the file in whole GiB, as benchmarks of files of
so many GiB do, and hands both to the transfer.

* `sizeGibFromBytesCeil_eq_iff` — the sizes of files that count as so many GiB;
* `created_of_sendSetup` — a new transfer is created for a request that is valid;
* `sent_as_tuned` — **a file is sent with the lanes and the profile that were tuned for its size**.
-/

namespace Metra.Client

open Interleave Text

/-! ## The size of a workload -/

/-- A GiB. -/
def gib : Nat := 1024 * 1024 * 1024

/-- The sum is a saturating one. -/
def sizeGibFromBytesCeil (fileSizeBytes : Nat) : Nat :=
  if fileSizeBytes = 0 then 0 else min (fileSizeBytes + (gib - 1)) u64Max / gib

theorem sizeGibFromBytesCeil_eq {size : Nat} (hsize : size + (gib - 1) ≤ u64Max) :
    sizeGibFromBytesCeil size = (size + (gib - 1)) / gib := by
  unfold sizeGibFromBytesCeil
  by_cases hzero : size = 0
  · subst hzero
    rfl
  · rw [if_neg hzero, Nat.min_eq_left hsize]

/-- A file counts as so many GiB when it has room in them, but not in one less. -/
theorem sizeGibFromBytesCeil_eq_iff {size n : Nat} (hfits : n * gib ≤ u64Max)
    (hsize : size ≤ n * gib) : sizeGibFromBytesCeil size = n ↔ n * gib < size + gib := by
  have hround : size + (gib - 1) ≤ u64Max := by
    unfold gib u64Max at *
    omega
  rw [sizeGibFromBytesCeil_eq hround, Nat.div_eq_iff (by decide)]
  unfold gib at *
  omega

/-! ## The call -/

/-- What the command line asks of a transfer. -/
structure SendArgs where
  filePath : String
  /-- The last component of the path, or `metra-upload.bin`. -/
  fileName : String
  destination : Option String
  transferId : Option Uuid
  tenantId : Option String
  userId : Option String
  overwrite : Bool
  immutableDestination : Bool
  ioChunkBytes : Nat
  lanes : Nat
  autoLanesReport : Option NamedFile
  lanePolicy : Option NamedFile
  autoRuntimeReport : Option NamedFile
  runtimePolicy : Option NamedFile
  runtimePolicyOut : Option String
  runtimeProfile : Option RuntimeProfile
  fileReadPipelineDepth : Option Nat

/-- What the call finds: the length of the file, the answers of the server, the policy files of the
defaults, what is measured of the host, how the lanes of a transfer end, and how the update of the
policy does. -/
structure SendCalls (F : Type) where
  metadata : Except String Nat
  fetchTransferStatus : Uuid → Except String TransferSummary
  createTransfer : CreateTransferRequest → Except String Uuid
  lanePolicy : NamedFile
  runtimePolicy : NamedFile
  samples : List F
  send : Uuid → TransferCalls
  policyUpdate : Except String Unit

/-- What is given, unless it is blank. -/
def givenOr (given : Option String) (default : Str) : String :=
  (given.filter fun value => trim value.toList ≠ []).getD (String.ofList default)

section

variable {F : Type} [LinearOrder F] (ops : FloatOps F) (laneReports : Serde (TuneLanesReport F))
  (lanePolicies : Serde LanePolicyStore) (runtimeReports : Serde (TuneRuntimeReport F))
  (runtimePolicies : Serde RuntimePolicyStore) (env : Environment) (defaults : ClientDefaults F)

/-- The request that creates the transfer of a file. -/
def sendRequest (args : SendArgs) (localFileSize : Nat) (destinationUri : Str) :
    CreateTransferRequest where
  tenantId := givenOr args.tenantId defaults.tenantId
  userId := givenOr args.userId defaults.userId
  sourceUri := s!"file://{args.filePath}"
  destinationUri := String.ofList destinationUri
  fileName := args.fileName
  fileSizeBytes := localFileSize
  resumeChunkSizeBytes := Metra.resumeChunkSizeBytes
  overwrite := args.overwrite
  immutableDestination := args.immutableDestination

/-- The length of the file, and the transfer that was given. -/
def sendTarget (args : SendArgs) (calls : SendCalls F) :
    Except String (Nat × Option TransferSummary) := do
  if args.fileReadPipelineDepth = some 0 then throw "file_read_pipeline_depth must be > 0"
  let localFileSize ← calls.metadata
  match args.transferId with
  | some transferId =>
    let existing ← calls.fetchTransferStatus transferId
    return (localFileSize, some existing)
  | none => return (localFileSize, none)

/-- The size of the transfer that was given, or of the file. -/
def expectedFileSize (target : Nat × Option TransferSummary) : Nat :=
  (target.2.map TransferSummary.fileSizeBytes).getD target.1

/-- The lanes are selected for a single transfer, and then the profile for these lanes. -/
def sendSelection (args : SendArgs) (calls : SendCalls F) (expectedFileSize : Nat) :
    Except String (Nat × Option RuntimeProfile) := do
  let sizeGib := sizeGibFromBytesCeil expectedFileSize
  let (selectedLanes, _) ← resolveBenchmarkLanes ops laneReports lanePolicies args.lanes
    args.autoLanesReport (some (args.lanePolicy.getD calls.lanePolicy))
    ⟨sizeGib, 1, args.ioChunkBytes, false⟩
  let (selectedRuntimeProfile, _) ← resolveBenchmarkRuntimeProfile ops runtimeReports
    runtimePolicies args.runtimeProfile args.autoRuntimeReport
    (some (args.runtimePolicy.getD calls.runtimePolicy))
    ⟨sizeGib, selectedLanes, args.ioChunkBytes, false⟩ defaults.cpuGuardrailPercent calls.samples
  return (selectedLanes, selectedRuntimeProfile)

/-- The transfer that was given, or a new one. -/
def sendTransferId (args : SendArgs) (calls : SendCalls F) (localFileSize : Nat)
    (existing : Option TransferSummary) : Except String Uuid :=
  match existing with
  | some existing => return existing.transferId
  | none => do
    let destinationUri ← resolveDestinationUri env (args.destination.map String.toList)
      args.fileName.toList defaults
    let create := sendRequest defaults args localFileSize destinationUri
    create.validate.mapError fun err => "invalid send transfer request: " ++ err
    calls.createTransfer create

/-- What comes before the transfer. -/
def sendSetup (args : SendArgs) (calls : SendCalls F) :
    Except String (Uuid × Nat × Option RuntimeProfile) := do
  let target ← sendTarget args calls
  let (lanes, profile) ← sendSelection ops laneReports lanePolicies runtimeReports runtimePolicies
    defaults args calls (expectedFileSize target)
  let transferId ← sendTransferId env defaults args calls target.1 target.2
  return (transferId, lanes, profile)

/-- How the file is sent, once its lanes and its profile are settled. -/
def sendTransferArgs (args : SendArgs) (lanes : Nat) (profile : Option RuntimeProfile) :
    TransferArgs where
  label := args.filePath
  isFile := true
  ioChunkBytes := args.ioChunkBytes
  lanes := lanes
  runtimeProfile := profile
  fileReadPipelineDepth := args.fileReadPipelineDepth

/-- `send_transfer`, behind `load_client_defaults`. -/
def sendTransfer (args : SendArgs) (calls : SendCalls F) : Except Stop (SendTransferReport F) := do
  let (transferId, lanes, profile) ← (sendSetup ops laneReports lanePolicies runtimeReports
    runtimePolicies env defaults args calls).mapError .failed
  let report ← sendTransferWithSource ops (sendTransferArgs args lanes profile)
    (calls.send transferId)
  if args.runtimePolicyOut.isSome || defaults.autoPolicyUpdate then
    (persistBenchmarkRuntimePolicy profile calls.policyUpdate).mapError .failed
  return report

end

/-! ## What was sent -/

section

variable {F : Type} [LinearOrder F] {ops : FloatOps F} {laneReports : Serde (TuneLanesReport F)}
  {lanePolicies : Serde LanePolicyStore} {runtimeReports : Serde (TuneRuntimeReport F)}
  {runtimePolicies : Serde RuntimePolicyStore} {env : Environment} {defaults : ClientDefaults F}
  {args : SendArgs} {calls : SendCalls F} {transferId : Uuid} {lanes : Nat}
  {profile : Option RuntimeProfile}

theorem of_sendSetup (h : sendSetup ops laneReports lanePolicies runtimeReports runtimePolicies env
      defaults args calls = .ok (transferId, lanes, profile)) :
    ∃ target, sendTarget args calls = .ok target ∧
      sendSelection ops laneReports lanePolicies runtimeReports runtimePolicies defaults args calls
        (expectedFileSize target) = .ok (lanes, profile) ∧
      sendTransferId env defaults args calls target.1 target.2 = .ok transferId := by
  obtain ⟨target, htarget, h⟩ := of_bind_ok h
  obtain ⟨⟨lanes', profile'⟩, hselection, h⟩ := of_bind_ok h
  obtain ⟨transferId', hid, h⟩ := of_bind_ok h
  cases h
  exact ⟨target, htarget, hselection, hid⟩

omit [LinearOrder F] in
theorem of_sendTarget_new {target : Nat × Option TransferSummary}
    (h : sendTarget args calls = .ok target) (hnew : args.transferId = none) :
    calls.metadata = .ok target.1 ∧ target.2 = none := by
  rw [sendTarget, hnew] at h
  dsimp only at h
  split at h
  · cases h
  · obtain ⟨size, hsize, h⟩ := of_bind_ok h
    cases h
    exact ⟨hsize, rfl⟩

/-- **A new transfer is created for a request that is valid**, of the size of the file. -/
theorem created_of_sendSetup
    (h : sendSetup ops laneReports lanePolicies runtimeReports runtimePolicies env defaults args
      calls = .ok (transferId, lanes, profile)) (hnew : args.transferId = none) :
    ∃ size destinationUri, calls.metadata = .ok size ∧
      resolveDestinationUri env (args.destination.map String.toList) args.fileName.toList
        defaults = .ok destinationUri ∧
      (sendRequest defaults args size destinationUri).validate = .ok () ∧
      calls.createTransfer (sendRequest defaults args size destinationUri) = .ok transferId := by
  obtain ⟨⟨size, existing⟩, htarget, -, hid⟩ := of_sendSetup h
  obtain ⟨hsize, hnone⟩ := of_sendTarget_new htarget hnew
  obtain rfl : existing = none := hnone
  obtain ⟨destinationUri, huri, hid⟩ := of_bind_ok hid
  obtain ⟨_, hvalid, hid⟩ := of_bind_ok hid
  exact ⟨size, destinationUri, hsize, huri, of_mapError hvalid, hid⟩

/-- What is reported is what was selected. -/
theorem selected_of_sendTransfer {sent : SendTransferReport F}
    (h : sendTransfer ops laneReports lanePolicies runtimeReports runtimePolicies env defaults args
      calls = .ok sent) :
    ∃ target lanes profile, sendTarget args calls = .ok target ∧
      sendSelection ops laneReports lanePolicies runtimeReports runtimePolicies defaults args calls
        (expectedFileSize target) = .ok (lanes, profile) ∧
      sent.effectiveLanes = normalizedLaneCount lanes sent.fileSizeBytes ∧
      sent.runtimeProfile = profile.map RuntimeProfile.asStr := by
  obtain ⟨⟨transferId, lanes, profile⟩, hsetup, h⟩ := of_bind_ok h
  obtain ⟨target, htarget, hselection, -⟩ := of_sendSetup (of_mapError hsetup)
  obtain ⟨report, hsent, h⟩ := of_bind_ok h
  obtain rfl : report = sent := by
    split at h
    · obtain ⟨_, -, h⟩ := of_bind_ok h
      exact Except.ok.inj h
    · exact Except.ok.inj h
  obtain ⟨prepared, -, hsent⟩ := of_bind_ok hsent
  obtain ⟨joined, -, hsent⟩ := of_bind_ok hsent
  cases hsent
  exact ⟨target, lanes, profile, htarget, hselection, rfl, rfl⟩

/-- There always is a profile. -/
theorem isSome_of_sendSelection {size : Nat}
    (h : sendSelection ops laneReports lanePolicies runtimeReports runtimePolicies defaults args
      calls size = .ok (lanes, profile)) : profile.isSome = true := by
  obtain ⟨⟨lanes', note⟩, -, h⟩ := of_bind_ok h
  obtain ⟨⟨profile', note'⟩, hresolved, h⟩ := of_bind_ok h
  cases h
  unfold resolveBenchmarkRuntimeProfile at hresolved
  cases hconfigured : args.runtimeProfile with
  | some configured =>
    rw [hconfigured] at hresolved
    cases hresolved
    rfl
  | none =>
    rw [hconfigured] at hresolved
    obtain ⟨selected, -, hresolved⟩ := of_bind_ok hresolved
    dsimp only at hresolved
    split at hresolved
    · cases hresolved
      rfl
    · cases hresolved
      rfl

/-- **The call returns what the lanes report**, when the policy can be updated. -/
theorem sendTransfer_of_sent {report : SendTransferReport F}
    (hsetup : sendSetup ops laneReports lanePolicies runtimeReports runtimePolicies env defaults
      args calls = .ok (transferId, lanes, profile))
    (hsent : sendTransferWithSource ops (sendTransferArgs args lanes profile)
      (calls.send transferId) = .ok report) (hupdate : calls.policyUpdate = .ok ()) :
    sendTransfer ops laneReports lanePolicies runtimeReports runtimePolicies env defaults args
      calls = .ok report := by
  obtain ⟨target, -, hselection, -⟩ := of_sendSetup hsetup
  obtain ⟨selected, rfl⟩ := Option.isSome_iff_exists.1 (isSome_of_sendSelection hselection)
  have hpersist : persistBenchmarkRuntimePolicy (some selected) calls.policyUpdate = .ok () :=
    hupdate
  rw [sendTransfer, hsetup]
  simp only [Except.mapError, bind, Except.bind, hsent, hpersist]
  split
  · rfl
  · rfl

/-- The call is given neither reports nor a profile, and these are its policy files. -/
structure SendArgs.Follows (args : SendArgs) (calls : SendCalls F)
    (lanePolicy runtimePolicy : NamedFile) : Prop where
  autoLanesReport : args.autoLanesReport = none
  lanePolicy : args.lanePolicy.getD calls.lanePolicy = lanePolicy
  runtimeProfile : args.runtimeProfile = none
  autoRuntimeReport : args.autoRuntimeReport = none
  runtimePolicy : args.runtimePolicy.getD calls.runtimePolicy = runtimePolicy

/-- What the policy files remember for the size of a file is selected for it. -/
theorem selection_of_remembers {d₁ d₂ : PolicyDisk} {lanePath path : PolicyPath} {sizeGib : Nat}
    {remembered : RuntimeProfile} {size : Nat} {selected : Nat × Option RuntimeProfile}
    (hfollows : args.Follows calls (d₁.named lanePath) (d₂.named path))
    (hcounts : sizeGibFromBytesCeil size = sizeGib)
    (hlanes : Remembers lanePolicy lanePolicies d₁ ⟨sizeGib, 1, args.ioChunkBytes, false⟩
      (LanePolicyEntry.Of lanes))
    (hprofile : Remembers runtimePolicy runtimePolicies d₂
      ⟨sizeGib, lanes, args.ioChunkBytes, false⟩ (RuntimePolicyEntry.Of remembered))
    (h : sendSelection ops laneReports lanePolicies runtimeReports runtimePolicies defaults args
      calls size = .ok selected) :
    selected = (lanes, some (guarded ops remembered defaults.cpuGuardrailPercent
      calls.samples)) := by
  obtain ⟨⟨lanes', note⟩, hresolved, h⟩ := of_bind_ok h
  obtain ⟨⟨profile', note'⟩, hresolved', h⟩ := of_bind_ok h
  cases h
  rw [hfollows.autoLanesReport, hfollows.lanePolicy, hcounts] at hresolved
  have hpos : 0 < args.lanes := by
    by_contra hzero
    rw [resolveBenchmarkLanes, if_pos (by omega)] at hresolved
    cases hresolved
  obtain ⟨taken, htaken⟩ := (@takesLanes_of_remembers F _ ops laneReports _ _ _ _ _ _ hpos
    hlanes).selected
  rw [htaken] at hresolved
  cases hresolved
  rw [hfollows.runtimeProfile, hfollows.autoRuntimeReport, hfollows.runtimePolicy, hcounts]
    at hresolved'
  obtain ⟨taken', htaken'⟩ := (takes_of_remembers hprofile).selected
  rw [htaken'] at hresolved'
  cases hresolved'
  rfl

end

/-! ## Both tunings, and then a file -/

/-- **A file is sent with the lanes and the profile that were tuned for its size.**  The lanes are
tuned for single transfers that the server keeps, and then the profile for the lanes that are
recommended; both results are put into the policy files.  A file that has room in the GiB that were
tuned, but not in one less, is then sent over the recommended lanes and, unless the host is busy,
with the recommended profile, whether its transfer is a new one or was given. -/
theorem sent_as_tuned {F : Type} [LinearOrder F] (ops : FloatOps F) (bits : F → UInt64)
    {lanePolicies : Serde LanePolicyStore} (hlanePolicies : lanePolicies.RoundTrips)
    {runtimePolicies : Serde RuntimePolicyStore} (hruntimePolicies : runtimePolicies.RoundTrips)
    {laneArgs : TuneLanesArgs} {laneCalls : TuneLanesCalls laneArgs.concurrency}
    {laneReport : TuneLanesReport F}
    (hlanes : runTuneLanesUnderLoad ops laneArgs laneCalls = .ok laneReport)
    (hsingle : laneArgs.concurrency = 1) (hkept : laneArgs.noDisk = false)
    (hfits : laneArgs.sizeGib * gib ≤ u64Max) {lanePath : PolicyPath}
    {laneEntries : List LanePolicyEntry} {d₁ d₁' : PolicyDisk}
    (hbefore₁ : Upserts (upsertLanePolicyEntry lanePolicies lanePath) laneEntries d₁)
    {laneJsonOut : Option String} {t₁ : Nat}
    (hpersist₁ : Prog.Eval policyMachine t₁
      (persistTuneLanesPolicy ops bits lanePolicies lanePath laneJsonOut laneReport).toProg d₁
      (.ok ()) d₁')
    {runtimeArgs : TuneRuntimeArgs} {runtimeCalls : TuneRuntimeCalls}
    {runtimeReport : TuneRuntimeReport F}
    (hruntime : runTuneRuntimeProfiles ops runtimeArgs runtimeCalls = .ok runtimeReport)
    (hsame : (runtimeArgs.sizeGib, runtimeArgs.ioChunkBytes, runtimeArgs.noDisk) =
      (laneArgs.sizeGib, laneArgs.ioChunkBytes, laneArgs.noDisk))
    (htuned : recommendedLanesFromReport ops laneReport = some runtimeArgs.lanes)
    {path : PolicyPath} {entries : List RuntimePolicyEntry} {d₂ d₂' : PolicyDisk}
    (hbefore₂ : Upserts (upsertRuntimePolicyEntry runtimePolicies path) entries d₂)
    {jsonOut : Option String} {t₂ : Nat} (hpersist₂ : Prog.Eval policyMachine t₂
      (persistTuneRuntimePolicy bits runtimePolicies path jsonOut runtimeReport).toProg d₂
      (.ok ()) d₂') :
    ∃ profile ∈ runtimeArgs.profiles, runtimeReport.Recommends profile ∧
      ∀ (laneReports : Serde (TuneLanesReport F)) (runtimeReports : Serde (TuneRuntimeReport F))
        (env : Environment) (defaults : ClientDefaults F) (args : SendArgs) (calls : SendCalls F)
        (target : Nat × Option TransferSummary) (sent : SendTransferReport F),
        args.Follows calls (d₁'.named lanePath) (d₂'.named path) →
        args.ioChunkBytes = laneArgs.ioChunkBytes → sendTarget args calls = .ok target →
        expectedFileSize target ≤ laneArgs.sizeGib * gib →
        laneArgs.sizeGib * gib < expectedFileSize target + gib →
        sendTransfer ops laneReports lanePolicies runtimeReports runtimePolicies env defaults args
          calls = .ok sent →
        sent.effectiveLanes = normalizedLaneCount runtimeArgs.lanes sent.fileSizeBytes ∧
          sent.runtimeProfile =
            some (guarded ops profile defaults.cpuGuardrailPercent calls.samples).asStr := by
  obtain ⟨lanes, hrecommends, hlaneRemembers⟩ :=
    remembers_of_tuneLanes hlanePolicies hlanes hbefore₁ hpersist₁
  obtain rfl : lanes = runtimeArgs.lanes :=
    Option.some.inj (hrecommends.recommended.symm.trans htuned)
  obtain ⟨profile, hmem, hprofile, hremembers⟩ :=
    remembers_of_tuneRuntime hruntimePolicies hruntime hbefore₂ hpersist₂
  refine ⟨profile, hmem, hprofile, ?_⟩
  intro laneReports runtimeReports env defaults args calls target sent hfollows hchunk htarget hle
    hlt hsent
  obtain ⟨hsize, hrest⟩ := Prod.mk.inj hsame
  obtain ⟨hchunk', hdisk⟩ := Prod.mk.inj hrest
  have hcounts : sizeGibFromBytesCeil (expectedFileSize target) = laneArgs.sizeGib :=
    (sizeGibFromBytesCeil_eq_iff hfits hle).2 hlt
  rw [hsingle, hkept, ← hchunk] at hlaneRemembers
  rw [hsize, hchunk', hdisk, hkept, ← hchunk] at hremembers
  obtain ⟨target', lanes, selected, htarget', hselection, heffective, hreported⟩ :=
    selected_of_sendTransfer hsent
  obtain rfl : target' = target := Except.ok.inj (htarget'.symm.trans htarget)
  cases selection_of_remembers hfollows hcounts hlaneRemembers hremembers hselection
  exact ⟨heffective, hreported⟩

namespace SendSample

/-- The tunings are of files of one GiB that the server keeps. -/
def laneArgs : TuneLanesArgs := { LoadSample.args with noDisk := false }

/-- A transfer of the file that was made for the tuning. -/
def tuned : TransferCalls := { BenchSample.calls .completed with fileLen := .ok (2 ^ 30) }

/-- A load tuning whose jobs take as long as they should. -/
def laneCalls : TuneLanesCalls laneArgs.concurrency :=
  { LoadSample.calls with job := fun _ => ⟨.ok .nil, tuned, none⟩ }

/-- What it puts into the policy file. -/
def laneEntry : LanePolicyEntry :=
  { LoadSample.entry with profile := ⟨1, 1, defaultIoChunkBytes, false⟩ }

/-- A runtime tuning of transfers that the server keeps. -/
def tuneArgs : TuneRuntimeArgs := { RuntimeSample.args with noDisk := false }

/-- Of its profiles one is twice as fast. -/
def tuneCalls : TuneRuntimeCalls :=
  { RuntimeSample.calls with
    benchmark := fun profile _ =>
      { RuntimeSample.benchmark profile with
        send := { tuned with elapsedMs := if profile = .throughput then 4000 else 8000 } } }

/-- What it puts into the policy file. -/
def entry : RuntimePolicyEntry :=
  { RuntimeSample.entry with profile := ⟨1, 1, defaultIoChunkBytes, false⟩ }

/-- A file of a hundred bytes, for which eight lanes are asked for. -/
def args : SendArgs where
  filePath := "/a.bin"
  fileName := "a.bin"
  destination := some "file:///a.bin"
  transferId := none
  tenantId := none
  userId := some " "
  overwrite := true
  immutableDestination := false
  ioChunkBytes := defaultIoChunkBytes
  lanes := 8
  autoLanesReport := none
  lanePolicy := none
  autoRuntimeReport := none
  runtimePolicy := none
  runtimePolicyOut := none
  runtimeProfile := none
  fileReadPipelineDepth := none

/-- The policy files that the tunings have written. -/
def lanePolicy : NamedFile :=
  (PolicyDisk.start (some (LoadSample.text laneEntry))).named LoadSample.path

/-- The policy file with that entry. -/
def runtimePolicy : NamedFile :=
  (PolicyDisk.start (some (RuntimeSample.text entry))).named RuntimeSample.path

/-- A file of 100 bytes, sent with both policy files on a host that is not busy. -/
def calls : SendCalls ℚ where
  metadata := .ok 100
  fetchTransferStatus _ := .error "not asked"
  createTransfer _ := .ok .nil
  lanePolicy := lanePolicy
  runtimePolicy := runtimePolicy
  samples := [10, 20, 30]
  send _ :=
    { BenchSample.calls .completed with
      status := .ok PlanSample.transfer
      fileLen := .ok 100
      joined := [.ok ⟨100, 0, ⟨⟨true, .completed, 100, ""⟩, 0⟩⟩] }
  policyUpdate := .ok ()

/-- An environment in which nothing is set. -/
def env : Environment := ⟨fun _ => none, none, none, fun _ => none⟩

/-- The built-in defaults. -/
def defaults : ClientDefaults ℚ := ClientDefaults.builtIn exactOps env

/-- The lanes that were tuned are in the policy file. -/
theorem tuned_lanes :
    ∃ report d', runTuneLanesUnderLoad exactOps laneArgs laneCalls = .ok report ∧
      Prog.Eval policyMachine 0 (persistTuneLanesPolicy exactOps RuntimeSample.bits
        (LoadSample.store laneEntry) LoadSample.path none report).toProg
        (PolicyDisk.start none) (.ok ()) d' ∧
      recommendedLanesFromReport exactOps report = some 1 ∧
      d'.file = some (LoadSample.text laneEntry) :=
  LoadSample.stored_of_made (by decide +kernel) rfl

/-- And so is the profile for one lane. -/
theorem tuned_profile :
    ∃ report d', runTuneRuntimeProfiles exactOps tuneArgs tuneCalls = .ok report ∧
      Prog.Eval policyMachine 0 (persistTuneRuntimePolicy RuntimeSample.bits
        (RuntimeSample.store entry) RuntimeSample.path none report).toProg
        (PolicyDisk.start none) (.ok ()) d' ∧
      report.recommendedProfile = some "throughput" ∧
      d'.file = some (RuntimeSample.text entry) :=
  RuntimeSample.persisted_of_made (by decide +kernel) rfl

end SendSample

open SendSample in
/-- One lane and the faster profile were tuned for a GiB, and a file of a hundred bytes has them. -/
theorem sent_as_tuned_small :
    ∃ sent : SendTransferReport ℚ, sendTransfer exactOps LoadSample.noReports
        (LoadSample.store laneEntry) RuntimeSample.noReports (RuntimeSample.store entry) env
        defaults args calls = .ok sent ∧
      sent.effectiveLanes = 1 ∧ sent.runtimeProfile = some "throughput" := by
  obtain ⟨laneReport, d₁, hlanes, hpersist₁, htuned, hfile₁⟩ := tuned_lanes
  obtain ⟨runtimeReport, d₂, hruntime, hpersist₂, hrecommended, hfile₂⟩ := tuned_profile
  obtain ⟨profile, -, hrecommends, hsent⟩ := sent_as_tuned exactOps RuntimeSample.bits
    (LoadSample.store_roundTrips laneEntry) (RuntimeSample.store_roundTrips entry) hlanes rfl rfl
    (by decide) .start hpersist₁ hruntime rfl htuned .start hpersist₂
  have hok : (sendTransfer exactOps LoadSample.noReports (LoadSample.store laneEntry)
      RuntimeSample.noReports (RuntimeSample.store entry) env defaults args calls).toOption.isSome =
        true := by
    decide +kernel
  obtain ⟨sent, hsome⟩ := Option.isSome_iff_exists.1 hok
  have hreport := RuntimeSample.of_toOption hsome
  have hfollows : args.Follows calls (d₁.named LoadSample.path) (d₂.named RuntimeSample.path) := by
    refine ⟨rfl, ?_, rfl, rfl, ?_⟩
    · exact (named_of_file hfile₁ LoadSample.path).symm
    · exact (named_of_file hfile₂ RuntimeSample.path).symm
  obtain ⟨heffective, hprofile⟩ := hsent LoadSample.noReports RuntimeSample.noReports env defaults
    args calls (100, none) sent hfollows rfl rfl (by decide) (by decide) hreport
  refine ⟨sent, hreport, ?_, ?_⟩
  · rw [heffective]
    simp [normalizedLaneCount, tuneArgs, RuntimeSample.args]
  · rw [hprofile, guarded, if_neg (by decide +kernel)]
    exact (hrecommended.symm.trans hrecommends.recommended).symm

end Metra.Client
