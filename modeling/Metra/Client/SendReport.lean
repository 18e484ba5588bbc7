import Metra.Client.Float
import Metra.Client.SendTransfer

/-!
# The report of a transfer

What `send_transfer_with_source` returns once its lanes have ended, whatever the server has
answered, and what `run_benchmark_with_progress` does before and after.  The texts that say how
lanes and profile were chosen are left out.

* `joinLanes_eq_ok_iff` — the lanes are joined exactly when each brings an ack;
* `completed_iff` — the ack that is kept says that the transfer is completed exactly when
  some lane says so and none says that it has failed;
* `report_of_answered` and `runBenchmark_ok_iff` — a call succeeds **exactly when its lanes are
  answered**, whatever the answers are, and the report repeats the status.
-/

namespace Metra.Client

/-! ## The report -/

/-- The protocol that reports name. -/
def quicProtocolVersion : String := "metra-quic-v1"

/-- `format!("{:?}", status)`. -/
def statusText : TransferStatus → String
  | .queued => "Queued"
  | .running => "Running"
  | .completed => "Completed"
  | .failed => "Failed"

theorem statusText_injective : Function.Injective statusText := by
  intro status status' h
  cases status <;> cases status' <;> simp_all [statusText]

/-- The name of a profile. -/
def RuntimeProfile.asStr : RuntimeProfile → String
  | .balanced => "balanced"
  | .throughput => "throughput"
  | .lowCpu => "low-cpu"

/-- The report of a transfer. -/
structure SendTransferReport (F : Type) where
  transferId : Uuid
  filePath : String
  fileSizeBytes : Nat
  effectiveLanes : Nat
  payloadCodec : String
  runtimeProfile : Option String
  effectiveIoChunkBytes : Nat
  fileReadPipelineDepth : Nat
  sendTransformPipelineDepth : Nat
  receiveWritePipelineDepth : Nat
  resumedFromBytes : Nat
  bytesStreamedThisSession : Nat
  totalStreamedBytes : Nat
  elapsedMs : Nat
  averageGbps : F
  finalStatus : String
  message : String

/-- The arguments of `send_transfer_with_source`; the source is its label, and whether it is
a file. -/
structure TransferArgs where
  label : String
  isFile : Bool
  ioChunkBytes : Nat
  lanes : Nat
  runtimeProfile : Option RuntimeProfile
  fileReadPipelineDepth : Option Nat

/-- How the calls of `send_transfer_with_source` end, and its lanes in the order in which
they are joined. -/
structure TransferCalls where
  status : Except String TransferSummary
  fileLen : Except String Nat
  protocolVersion : Except String String
  quicAddr : Except String Unit
  connection : Except String Unit
  joined : List (Except Stop LaneTransferResult)
  elapsedMs : Nat

/-- What comes before the lanes. -/
def prepareTransfer (args : TransferArgs) (calls : TransferCalls) :
    Except String (RuntimeTuning × TransferSummary) := do
  if args.lanes = 0 then throw "lanes must be > 0"
  let tuning ← resolveRuntimeTuning args.runtimeProfile args.ioChunkBytes args.fileReadPipelineDepth
  let transfer ← calls.status
  if args.isFile then
    let len ← calls.fileLen
    if len ≠ transfer.fileSizeBytes then
      let size := transfer.fileSizeBytes
      throw s!"local file size {len} does not match transfer size {size}"
  let version ← calls.protocolVersion
  if version ≠ quicProtocolVersion then
    throw s!"server protocol version mismatch: got {version}, expected {quicProtocolVersion}"
  calls.quicAddr
  calls.connection
  return (tuning, transfer)

section

variable {F : Type} (ops : FloatOps F)

/-- Gigabits per second. -/
def gbps (bytes elapsedMs : Nat) : F :=
  if elapsedMs = 0 then ops.ofNat 0
  else
    ops.div (ops.mul (ops.ofNat bytes) (ops.ofNat 8))
      (ops.mul (ops.div (ops.ofNat elapsedMs) (ops.ofNat 1000)) (ops.ofNat 1000000000))

/-- Plan the lanes, send them, join them and report. -/
def sendTransferWithSource (args : TransferArgs) (calls : TransferCalls) :
    Except Stop (SendTransferReport F) := do
  let (tuning, transfer) ← (prepareTransfer args calls).mapError .failed
  let (bytesStreamedThisSession, resumedFromBytes, completeAck) ← joinLanes calls.joined 0 0 none
  return {
    transferId := transfer.transferId
    filePath := args.label
    fileSizeBytes := transfer.fileSizeBytes
    effectiveLanes := normalizedLaneCount args.lanes transfer.fileSizeBytes
    payloadCodec := tuning.payloadCodec.asWire
    runtimeProfile := args.runtimeProfile.map RuntimeProfile.asStr
    effectiveIoChunkBytes := tuning.effectiveIoChunkBytes
    fileReadPipelineDepth := tuning.fileReadPipelineDepth
    sendTransformPipelineDepth := tuning.sendTransformPipelineDepth
    receiveWritePipelineDepth := tuning.receiveWritePipelineDepth
    resumedFromBytes
    bytesStreamedThisSession
    totalStreamedBytes := completeAck.bytesReceived
    elapsedMs := calls.elapsedMs
    averageGbps := gbps ops bytesStreamedThisSession calls.elapsedMs
    finalStatus := statusText completeAck.status
    message := completeAck.message }

end

/-! ## Joining the lanes -/

/-- Every lane brings an ack, and the counts of bytes fit. -/
def LanesAnswer (joined : List (Except Stop LaneTransferResult)) (acks : List CompleteAck) :
    Prop :=
  ∃ results : List LaneTransferResult, joined = results.map .ok ∧ results ≠ [] ∧
    (results.map LaneTransferResult.bytesStreamed).sum ≤ u64Max ∧
    (results.map LaneTransferResult.resumedFromBytes).sum ≤ u64Max ∧
    acks = results.map LaneTransferResult.completeAck

theorem joinLanes_cons_ok {result : LaneTransferResult}
    {rest : List (Except Stop LaneTransferResult)}
    {streamed resumed : Nat} {best : Option CompleteAck}
    (hstreamed : streamed + result.bytesStreamed ≤ u64Max)
    (hresumed : resumed + result.resumedFromBytes ≤ u64Max) :
    joinLanes (.ok result :: rest) streamed resumed best =
      joinLanes rest (streamed + result.bytesStreamed) (resumed + result.resumedFromBytes)
        (some (choosePreferredCompleteAck best result.completeAck)) := by
  rw [joinLanes]
  simp only [bind, Except.bind, checkedAdd_of_le hstreamed, checkedAdd_of_le hresumed]

/-- The loop, when every lane brings an ack. -/
theorem joinLanes_of_answer {results : List LaneTransferResult} {streamed resumed : Nat}
    {best : Option CompleteAck} {ack : CompleteAck}
    (hstreamed : streamed + (results.map LaneTransferResult.bytesStreamed).sum ≤ u64Max)
    (hresumed : resumed + (results.map LaneTransferResult.resumedFromBytes).sum ≤ u64Max)
    (hack : (results.map LaneTransferResult.completeAck).foldl
      (fun best ack => some (choosePreferredCompleteAck best ack)) best = some ack) :
    ∃ streamed' resumed', joinLanes (results.map .ok) streamed resumed best =
      .ok (streamed', resumed', ack) := by
  induction results generalizing streamed resumed best with
  | nil =>
    cases hack
    exact ⟨streamed, resumed, rfl⟩
  | cons result results ih =>
    rw [List.map_cons, List.sum_cons] at hstreamed hresumed
    rw [List.map_cons, joinLanes_cons_ok (by omega) (by omega)]
    apply ih
    · omega
    · omega
    · exact hack

/-- What is known of the lanes when they are joined. -/
theorem answer_of_joinLanes {joined : List (Except Stop LaneTransferResult)}
    {streamed resumed streamed' resumed' : Nat} {best : Option CompleteAck} {ack : CompleteAck}
    (hstreamed : streamed ≤ u64Max) (hresumed : resumed ≤ u64Max)
    (h : joinLanes joined streamed resumed best = .ok (streamed', resumed', ack)) :
    ∃ results : List LaneTransferResult, joined = results.map .ok ∧
      streamed + (results.map LaneTransferResult.bytesStreamed).sum ≤ u64Max ∧
      resumed + (results.map LaneTransferResult.resumedFromBytes).sum ≤ u64Max ∧
      (results.map LaneTransferResult.completeAck).foldl
        (fun best ack => some (choosePreferredCompleteAck best ack)) best = some ack := by
  induction joined generalizing streamed resumed best with
  | nil =>
    refine ⟨[], rfl, by simpa using hstreamed, by simpa using hresumed, ?_⟩
    cases best with
    | none => cases h
    | some best =>
      cases h
      rfl
  | cons lane rest ih =>
    cases lane with
    | error stop =>
      rw [joinLanes] at h
      cases h
    | ok result =>
      by_cases hfits : streamed + result.bytesStreamed ≤ u64Max
      · by_cases hfits' : resumed + result.resumedFromBytes ≤ u64Max
        · rw [joinLanes_cons_ok hfits hfits'] at h
          obtain ⟨results, rfl, hle, hle', hack⟩ := ih hfits hfits' h
          refine ⟨result :: results, rfl, ?_, ?_, hack⟩
          · rw [List.map_cons, List.sum_cons]
            omega
          · rw [List.map_cons, List.sum_cons]
            omega
        · rw [joinLanes] at h
          simp [bind, Except.bind, checkedAdd, hfits, hfits'] at h
      · rw [joinLanes] at h
        simp [bind, Except.bind, checkedAdd, hfits] at h

/-- **The lanes are joined exactly when each brings an ack.** -/
theorem joinLanes_eq_ok_iff {joined : List (Except Stop LaneTransferResult)} {ack : CompleteAck} :
    (∃ streamed resumed, joinLanes joined 0 0 none = .ok (streamed, resumed, ack)) ↔
      ∃ acks, LanesAnswer joined acks ∧ preferredAck acks = some ack := by
  constructor
  · rintro ⟨streamed, resumed, h⟩
    obtain ⟨results, rfl, hstreamed, hresumed, hack⟩ :=
      answer_of_joinLanes (Nat.zero_le _) (Nat.zero_le _) h
    refine ⟨_, ⟨results, rfl, ?_, ?_, ?_, rfl⟩, hack⟩
    · rintro rfl
      cases hack
    · simpa using hstreamed
    · simpa using hresumed
  · rintro ⟨acks, ⟨results, rfl, -, hstreamed, hresumed, rfl⟩, hack⟩
    apply joinLanes_of_answer
    · simpa using hstreamed
    · simpa using hresumed
    · exact hack

/-- **The kept ack says that the transfer is completed** exactly when a lane says so and none
says that it has failed. -/
theorem completed_iff {acks : List CompleteAck} {ack : CompleteAck}
    (h : preferredAck acks = some ack) :
    ack.status = .completed ↔
      (∃ a ∈ acks, a.status = .completed) ∧ ∀ a ∈ acks, a.status ≠ .failed := by
  rw [preferredAck_eq_argmax] at h
  have hmem : ack ∈ acks := List.argmax_mem h
  have hle : ∀ a ∈ acks, transferStatusPriority a.status ≤ transferStatusPriority ack.status := by
    intro a ha
    rcases Prod.Lex.le_iff.1 (List.le_of_mem_argmax ha h) with hlt | ⟨heq, -⟩
    · exact Nat.le_of_lt hlt
    · exact Nat.le_of_eq heq
  constructor
  · intro hcompleted
    refine ⟨⟨ack, hmem, hcompleted⟩, fun a ha hfailed => ?_⟩
    have := hle a ha
    rw [hcompleted, hfailed] at this
    exact absurd this (by decide)
  · rintro ⟨⟨a, ha, hcompleted⟩, hfailed⟩
    have hpriority := hle a ha
    have hack := hfailed ack hmem
    rw [hcompleted] at hpriority
    cases hstatus : ack.status with
    | completed => rfl
    | failed => exact absurd hstatus hack
    | queued =>
      rw [hstatus] at hpriority
      exact absurd hpriority (by decide)
    | running =>
      rw [hstatus] at hpriority
      exact absurd hpriority (by decide)

/-- The lanes of a joined call have one list of acks. -/
theorem lanesAnswer_unique {joined : List (Except Stop LaneTransferResult)}
    {acks acks' : List CompleteAck} (h : LanesAnswer joined acks) (h' : LanesAnswer joined acks') :
    acks = acks' := by
  obtain ⟨results, hresults, -, -, -, rfl⟩ := h
  obtain ⟨results', hresults', -, -, -, rfl⟩ := h'
  have hinj : Function.Injective (List.map (Except.ok : _ → Except Stop LaneTransferResult)) :=
    List.map_injective_iff.2 fun _ _ heq => Except.ok.inj heq
  rw [hinj (hresults.symm.trans hresults')]

/-! ## A call that succeeds -/

/-- The call gets as far as the acks of its lanes. -/
def Answered (args : TransferArgs) (calls : TransferCalls) (acks : List CompleteAck) : Prop :=
  (∃ prepared, prepareTransfer args calls = .ok prepared) ∧ LanesAnswer calls.joined acks

/-- The transfer has ended well, by the acks of its lanes. -/
def AcksComplete (acks : List CompleteAck) : Prop :=
  (∃ ack ∈ acks, ack.status = .completed) ∧ ∀ ack ∈ acks, ack.status ≠ .failed

section

variable {F : Type} {ops : FloatOps F} {args : TransferArgs} {calls : TransferCalls}
  {acks : List CompleteAck}

/-- **A call succeeds when its lanes are answered**, with the status of the kept ack. -/
theorem report_of_answered (h : Answered args calls acks) :
    ∃ report, sendTransferWithSource ops args calls = .ok report ∧
      (report.finalStatus = statusText .completed ↔ AcksComplete acks) := by
  obtain ⟨⟨⟨tuning, transfer⟩, hprepared⟩, hlanes⟩ := h
  have hne : acks ≠ [] := by
    obtain ⟨results, -, hne, -, -, rfl⟩ := hlanes
    simpa using hne
  obtain ⟨ack, hack, -⟩ := preferredAck_max acks hne
  obtain ⟨streamed, resumed, hjoin⟩ := joinLanes_eq_ok_iff.2 ⟨acks, hlanes, hack⟩
  refine ⟨_, by rw [sendTransferWithSource, hprepared, hjoin]; rfl, ?_⟩
  rw [AcksComplete, ← completed_iff hack]
  exact statusText_injective.eq_iff

/-- Only then does it succeed. -/
theorem answered_of_report {report : SendTransferReport F}
    (h : sendTransferWithSource ops args calls = .ok report) :
    ∃ acks, Answered args calls acks := by
  obtain ⟨prepared, hprepared, h⟩ := of_bind_ok h
  obtain ⟨⟨streamed, resumed, ack⟩, hjoin, -⟩ := of_bind_ok h
  obtain ⟨acks, hlanes, -⟩ := joinLanes_eq_ok_iff.1 ⟨streamed, resumed, hjoin⟩
  exact ⟨acks, ⟨prepared, of_mapError hprepared⟩, hlanes⟩

end

/-! ## A benchmark run -/

/-- What a benchmark is asked for. -/
structure BenchArgs where
  sizeGib : Nat
  filePath : String
  /-- The last component of the path, or `metra-bench.bin`. -/
  fileName : String
  tenantId : String
  userId : String
  destinationUri : String
  ioChunkBytes : Nat
  noDisk : Bool
  fileReadPipelineDepth : Option Nat
  /-- There is a path to write the runtime policy to, from the arguments or the defaults. -/
  updatesPolicy : Bool

/-- How the calls of `run_benchmark_with_progress` end: the choice of the lanes and of the
profile, the file, the creation of the transfer, the transfer, and the update of the policy. -/
structure BenchCalls where
  lanes : Except String Nat
  runtimeProfile : Except String (Option RuntimeProfile)
  sparseFile : Except String Unit
  created : Except String Uuid
  send : TransferCalls
  policyUpdate : Except String Unit

/-- The request that creates the transfer of a benchmark. -/
def benchmarkRequest (args : BenchArgs) : CreateTransferRequest where
  tenantId := args.tenantId
  userId := args.userId
  sourceUri :=
    if args.noDisk then s!"generated://zeros/{args.fileName}" else s!"file://{args.filePath}"
  destinationUri :=
    if args.noDisk then s!"null://benchmark/{args.fileName}" else args.destinationUri
  fileName := args.fileName
  fileSizeBytes := args.sizeGib * 1024 * 1024 * 1024 % 2 ^ 64
  resumeChunkSizeBytes := Metra.resumeChunkSizeBytes
  overwrite := true
  immutableDestination := false

/-- What comes before the transfer. -/
def benchmarkSetup (args : BenchArgs) (calls : BenchCalls) :
    Except String (Nat × Option RuntimeProfile) := do
  let selectedLanes ← calls.lanes
  let selectedRuntimeProfile ← calls.runtimeProfile
  if !args.noDisk then calls.sparseFile
  (benchmarkRequest args).validate.mapError fun err =>
    "invalid benchmark transfer request: " ++ err
  let _ ← calls.created
  return (selectedLanes, selectedRuntimeProfile)

/-- How a benchmark sends its transfer. -/
def benchmarkTransferArgs (args : BenchArgs) (lanes : Nat) (profile : Option RuntimeProfile) :
    TransferArgs where
  label :=
    if args.noDisk then s!"generated://zeros/{(benchmarkRequest args).fileSizeBytes}"
    else args.filePath
  isFile := !args.noDisk
  ioChunkBytes := args.ioChunkBytes
  lanes := lanes
  runtimeProfile := profile
  fileReadPipelineDepth := args.fileReadPipelineDepth

/-- Put the profile of a run into the policy file; a run without a profile has nothing to put there.
-/
def persistBenchmarkRuntimePolicy (selectedRuntimeProfile : Option RuntimeProfile)
    (policyUpdate : Except String Unit) : Except String Unit :=
  match selectedRuntimeProfile with
  | none =>
    .error ("cannot persist runtime policy from benchmark: runtime profile is unspecified; " ++
      "pass --runtime-profile or provide --auto-runtime-report/--runtime-policy")
  | some _ => policyUpdate

section

variable {F : Type} (ops : FloatOps F)

/-- The transfer of a run, with all that comes before. -/
def benchmarkSend (args : BenchArgs) (calls : BenchCalls) :
    Except Stop (SendTransferReport F × Option RuntimeProfile) := do
  let (lanes, profile) ← (benchmarkSetup args calls).mapError .failed
  let report ← sendTransferWithSource ops (benchmarkTransferArgs args lanes profile) calls.send
  return (report, profile)

/-- Send the transfer of a benchmark, and update the policy file where that is asked for. -/
def runBenchmarkWithProgress (args : BenchArgs) (calls : BenchCalls) :
    Except Stop (SendTransferReport F) := do
  let (report, profile) ← benchmarkSend ops args calls
  if args.updatesPolicy then
    (persistBenchmarkRuntimePolicy profile calls.policyUpdate).mapError .failed
  return report

end

/-- The run gets as far as the acks of its lanes, with a profile. -/
def BenchAnswered (args : BenchArgs) (calls : BenchCalls) (profile : Option RuntimeProfile)
    (acks : List CompleteAck) : Prop :=
  ∃ lanes, benchmarkSetup args calls = .ok (lanes, profile) ∧
    Answered (benchmarkTransferArgs args lanes profile) calls.send acks

/-- The runtime policy is updated, if it is to be. -/
def PolicyKept (args : BenchArgs) (calls : BenchCalls) (profile : Option RuntimeProfile) : Prop :=
  args.updatesPolicy = true →
    persistBenchmarkRuntimePolicy profile calls.policyUpdate = .ok ()

section

variable {F : Type} {ops : FloatOps F} {args : BenchArgs} {calls : BenchCalls}
  {profile : Option RuntimeProfile} {acks : List CompleteAck}

/-- A run has one profile and one list of acks. -/
theorem benchAnswered_unique {profile' : Option RuntimeProfile} {acks' : List CompleteAck}
    (h : BenchAnswered args calls profile acks) (h' : BenchAnswered args calls profile' acks') :
    profile = profile' ∧ acks = acks' := by
  obtain ⟨lanes, hsetup, -, hlanes⟩ := h
  obtain ⟨lanes', hsetup', -, hlanes'⟩ := h'
  rw [hsetup] at hsetup'
  cases hsetup'
  exact ⟨rfl, lanesAnswer_unique hlanes hlanes'⟩

/-- The transfer of a run that is answered. -/
theorem benchmarkSend_of_answered (h : BenchAnswered args calls profile acks) :
    ∃ report, benchmarkSend ops args calls = .ok (report, profile) ∧
      (report.finalStatus = statusText .completed ↔ AcksComplete acks) := by
  obtain ⟨lanes, hsetup, hanswered⟩ := h
  obtain ⟨report, hreport, hstatus⟩ := @report_of_answered F ops _ _ _ hanswered
  refine ⟨report, ?_, hstatus⟩
  rw [benchmarkSend, hsetup]
  simp [Except.mapError, bind, Except.bind, hreport, pure, Except.pure]

theorem answered_of_benchmarkSend {report : SendTransferReport F}
    (h : benchmarkSend ops args calls = .ok (report, profile)) :
    ∃ acks, BenchAnswered args calls profile acks := by
  obtain ⟨⟨lanes, profile'⟩, hsetup, h⟩ := of_bind_ok h
  obtain ⟨report', hreport, h⟩ := of_bind_ok h
  cases h
  obtain ⟨acks, hanswered⟩ := answered_of_report hreport
  exact ⟨acks, lanes, of_mapError hsetup, hanswered⟩

/-- **A run succeeds exactly when its lanes are answered and the policy is updated**, whatever
the answers are. -/
theorem runBenchmark_ok_iff : (∃ report, runBenchmarkWithProgress ops args calls = .ok report) ↔
    ∃ profile acks, BenchAnswered args calls profile acks ∧ PolicyKept args calls profile := by
  constructor
  · rintro ⟨report, h⟩
    obtain ⟨⟨report', profile⟩, hsend, h⟩ := of_bind_ok h
    obtain ⟨acks, hanswered⟩ := answered_of_benchmarkSend hsend
    refine ⟨profile, acks, hanswered, fun hupdates => ?_⟩
    simp only [hupdates, if_true] at h
    obtain ⟨_, hpersist, -⟩ := of_bind_ok h
    exact of_mapError hpersist
  · rintro ⟨profile, acks, hanswered, hkept⟩
    obtain ⟨report, hsend, -⟩ := @benchmarkSend_of_answered F ops _ _ _ _ hanswered
    refine ⟨report, ?_⟩
    rw [runBenchmarkWithProgress, hsend]
    cases hupdates : args.updatesPolicy with
    | false => simp [bind, Except.bind, pure, Except.pure]
    | true => simp [bind, Except.bind, pure, Except.pure, hkept hupdates, Except.mapError]

end

end Metra.Client
