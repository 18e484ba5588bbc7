import Metra.Server.Session
import Metra.Server.Staging

/-!
# What is delivered

Whatever sessions a transfer has, of however many lanes and cut off wherever, and whatever
servers it has seen stop, what gets to the final path should be the source.

* `delivered_intact` — **a completed transfer has delivered the source**, in runs of safe
  steps of honest streams;
* `zeros_delivered` — a session of two lanes, and then one of a single lane that trusts the
  length that the first one gave the staging file;
* `recovered_intact` — **only the source is ever delivered**, in such runs of one server
  after another;
* `zeros_recovered` — a server that stops after it has renamed the staging file, and a
  second one that believes the checkpoint.
-/

namespace Metra.Server

open Interleave

/-! ## What servers find -/

/-- Nothing has been received yet. -/
structure Disk.Fresh (d : Disk) : Prop where
  staging : d.staging = none
  versions : d.versions = []
  placements : d.placements = []
  final_lt : ∀ f, d.final = some f → f < d.nextInode

/-- The staging file is right about what is recorded of it, or the destination is there and
must be kept. -/
structure Recoverable (transfer : TransferSummary) (source : List UInt8) (d : Disk) : Prop where
  sound : d.Sound
  counts : ∀ found ∈ d.versions, ∃ lanes, 0 < lanes ∧ found.Wf transfer.fileSizeBytes lanes
  placements : ∀ p ∈ d.placements, (d.inode p.file).data = source
  staged : ((transfer.immutableDestination || !transfer.overwrite) = true ∧ d.final ≠ none) ∨
    ∀ f, d.staging = some f → (d.inode f).data.length ≤ source.length ∧
      ∀ found, d.checkpoint = some found → ∀ p < transfer.fileSizeBytes, found.Records p →
        (d.inode f).data[p]? = source[p]?

theorem Disk.Fresh.recoverable {d : Disk} (h : d.Fresh) (transfer : TransferSummary)
    (source : List UInt8) : Recoverable transfer source d where
  sound := by
    refine ⟨fun f hf => ?_, h.final_lt, fun f hf => ?_, fun p hp => ?_, fun p hp => ?_⟩
    · rw [h.staging] at hf
      cases hf
    · rw [h.staging] at hf
      cases hf
    · rw [h.placements] at hp
      cases hp
    · rw [h.placements] at hp
      cases hp
  counts := by
    rw [h.versions]
    simp
  placements := by
    rw [h.placements]
    simp
  staged := by
    refine .inr fun f hf => ?_
    rw [h.staging] at hf
    cases hf

/-! ## Runs -/

section

variable {ctx : Context} {transfer stored : TransferSummary} {streams : Nat → Option LaneStream}
  {source : List UInt8} {disk : Disk}
  {cfg : Config Task Op Op.Reply (Tracked Task Point State) (Except String Unit)}

theorem delivered_start {setup : Setup} (h : Recoverable setup.transfer source disk) :
    setup.Delivered source ⟨start stored disk, startPoint⟩ where
  sound := h.sound
  stored := ⟨h.counts, fun u found hfound => by cases u <;> cases hfound⟩
  resumes i stream resume _ hlive := by
    rcases hlive with ⟨-, hphase | ⟨args, hw, -⟩⟩
    · cases hphase
    · cases hw
  placements := h.placements
  placed u hplaced := by
    cases u <;> cases hplaced

/-- When a server starts, only the checkpoint counts on the staging file. -/
theorem staged_of_recorded {setup : Setup}
    (h : ∀ f, disk.staging = some f → (disk.inode f).data.length ≤ source.length ∧
      ∀ found, disk.checkpoint = some found → ∀ p < setup.size, found.Records p →
        (disk.inode f).data[p]? = source[p]?) :
    setup.Staged source ⟨start stored disk, startPoint⟩ where
  opened i stream f _ hopen := by
    rcases hopen with ⟨resume, hphase⟩ | ⟨args, hw, -⟩
    · cases hphase
    · cases hw
  short f hf := (h f hf).1
  right f hf p hp hcounts := by
    cases hcounts with
    | recorded hfound hrecords => exact (h f hf).2 _ hfound p hp hrecords
    | @loaded u stream found _ hfound => cases u <;> cases hfound
    | live _ hlive =>
      rcases hlive with ⟨-, hphase | ⟨args, hw, -⟩⟩
      · cases hphase
      · cases hw
    | reached _ hreached =>
      cases hreached with
      | written hphase => cases hphase
      | flushed hphase => cases hphase
      | joined _ hphase => cases hphase
      | received _ hphase => cases hphase
    | @whole u stream _ hwhole => cases u <;> exact hwhole.elim
  layout i stream found _ hfound := by
    cases hfound

theorem staged_start (h : Recoverable transfer source disk) :
    (unreliable ctx transfer streams).Protected ⟨start stored disk, startPoint⟩ ∨
      (unreliable ctx transfer streams).Staged source ⟨start stored disk, startPoint⟩ := by
  rcases h.staged with ⟨hkeeps, hpresent⟩ | hstaged
  · exact .inl ⟨hkeeps, hpresent, fun u hrisk => by cases u <;> exact hrisk⟩
  · exact .inr (staged_of_recorded hstaged)

theorem intact_start (h : Recoverable transfer source disk) :
    (unreliable ctx transfer streams).Intact source ⟨start stored disk, startPoint⟩ :=
  ⟨delivered_start h, staged_start h⟩

/-- What holds wherever safe steps lead. -/
theorem intact_of_reaches (h : Recoverable transfer source disk)
    (hstored : SameTransfer transfer stored)
    (hhonest : (unreliable ctx transfer streams).Honest source)
    (hreaches : RunsTo (unreliable ctx transfer streams)
      ((unreliable ctx transfer streams).Safe source)
      (starting (unreliable ctx transfer streams) stored disk) cfg) :
    cfg.Obedient (protocol (unreliable ctx transfer streams))
        (fun t _ pt => TaskReturned (unreliable ctx transfer streams) t pt) ∧
      (unreliable ctx transfer streams).Intact source cfg.shared := by
  obtain ⟨hobedient, -, hintact⟩ := reaches_invariant trivial
    (fun _ _ _ _ _ _ _ hbase hintact hstream henabled hallowed hexec =>
      Setup.Intact.step hintact hhonest hbase hallowed hstream henabled hexec)
    hstored (intact_start h) hreaches
  exact ⟨hobedient, hintact⟩

/-- When the transfer is about to be completed, the source is at the final path. -/
theorem source_of_completing (hdelivered : (unreliable ctx transfer streams).Delivered source
      cfg.shared) (hhonest : (unreliable ctx transfer streams).Honest source)
    (hobedient : cfg.Obedient (protocol (unreliable ctx transfer streams))
      (fun t _ pt => TaskReturned (unreliable ctx transfer streams) t pt))
    {t : Task} {bytes : Nat} {k : Unit → Prog Op Op.Reply (Except String Unit)}
    (hpool : cfg.pool t = .act (.setStatus .completed bytes) k) :
    cfg.shared.shared.disk.finalContent = some source := by
  have henabled := (hobedient.enabled hpool).2
  rcases discards_or_placed henabled with hdiscards | hplaced
  · rw [hhonest.disk] at hdiscards
    cases hdiscards
  · obtain ⟨p, hp, hfinal⟩ := hdelivered.placed t hplaced
    rw [Disk.finalContent, hfinal, Option.map_some, hdelivered.placements p hp]

end

/-- **A completed transfer has delivered the source**: when a stream sets the status to
`Completed`, the file at the final path is the source. -/
theorem delivered_intact (ctx : Context) (transfer : TransferSummary)
    (streams : Nat → Option LaneStream) (source : List UInt8)
    (hhonest : (unreliable ctx transfer streams).Honest source) {disk : Disk}
    (hfresh : disk.Fresh)
    {cfg : Config Task Op Op.Reply (Tracked Task Point State) (Except String Unit)}
    (hreaches : RunsTo (unreliable ctx transfer streams)
      ((unreliable ctx transfer streams).Safe source)
      (starting (unreliable ctx transfer streams) transfer disk) cfg)
    {t : Task} {bytes : Nat} {k : Unit → Prog Op Op.Reply (Except String Unit)}
    (hpool : cfg.pool t = .act (.setStatus .completed bytes) k) :
    cfg.shared.shared.disk.finalContent = some source := by
  obtain ⟨hobedient, hintact⟩ := intact_of_reaches (hfresh.recoverable transfer source)
    (sameTransfer_refl transfer) hhonest hreaches
  exact source_of_completing hintact.delivered hhonest hobedient hpool

/-! ## Servers that stop -/

/-- The files that are left of a transfer after some servers have run and stopped, each at
any moment, in safe runs of honest streams. -/
inductive Survives (ctx : Context) (transfer : TransferSummary) (source : List UInt8) :
    Disk → Prop
  | fresh {disk : Disk} (hfresh : disk.Fresh) : Survives ctx transfer source disk
  | stopped {streams : Nat → Option LaneStream} {stored : TransferSummary} {disk : Disk}
      {cfg : Config Task Op Op.Reply (Tracked Task Point State) (Except String Unit)}
      (h : Survives ctx transfer source disk) (hstored : SameTransfer transfer stored)
      (hhonest : (unreliable ctx transfer streams).Honest source)
      (hreaches : RunsTo (unreliable ctx transfer streams)
        ((unreliable ctx transfer streams).Safe source)
        (starting (unreliable ctx transfer streams) stored disk) cfg) :
      Survives ctx transfer source cfg.shared.shared.disk

theorem Survives.recoverable {ctx : Context} {transfer : TransferSummary} {source : List UInt8}
    {disk : Disk} (h : Survives ctx transfer source disk) : Recoverable transfer source disk := by
  induction h with
  | fresh hfresh => exact hfresh.recoverable transfer source
  | stopped _ hstored hhonest hreaches ih =>
    obtain ⟨-, hdelivered, hmode⟩ := intact_of_reaches ih hstored hhonest hreaches
    refine ⟨hdelivered.sound, hdelivered.stored.versions, hdelivered.placements, ?_⟩
    rcases hmode with hprotected | hstaged
    · exact .inl ⟨hprotected.keeps, hprotected.present⟩
    · exact .inr fun f hf => ⟨hstaged.short f hf, fun found hfound p hp hrecords =>
        hstaged.right f hf p hp (.recorded hfound hrecords)⟩

namespace Scenario

/-- A stream that is cut off before its first frame. -/
def cutOff (stream : LaneStream) : LaneStream := { stream with incoming := fun _ => [] }

/-- The client sends a lane up to its end. -/
theorem sends_lane {source : List UInt8} {n i : Nat} (hi : i < n)
    (hmax : source.length ≤ appPayloadMaxPlaintextBytes) (overwrite : Bool)
    (status : TransferStatus) :
    (lane source n i).SendsLane Metra.Sample.crypto (transfer source overwrite status) source n
      i where
  transferId := rfl
  fileSizeBytes := rfl
  resumeChunkSizeBytes := rfl
  totalLanes := rfl
  laneIndex := rfl
  range := getElem?_splitRanges hi
  incoming := by
    have hraw : PayloadCodec.fromWire "raw-v1" = some .rawV1 := by decide
    refine ⟨.rawV1, hraw, fun resume => ?_⟩
    show ∃ chunks payload, _ = Bytes.slice source resume (laneStart source.length n (i + 1)) ∧ _ ∧
      _ ∧ frame (Bytes.slice source resume (laneStart source.length n (i + 1))) = payload
    have hlen : (Bytes.slice source resume (laneStart source.length n (i + 1))).length ≤
        source.length := by
      simp only [Bytes.slice, List.length_take, List.length_drop]
      omega
    generalize Bytes.slice source resume (laneStart source.length n (i + 1)) = bytes at hlen
    by_cases hempty : bytes = []
    · subst hempty
      exact ⟨[], [], rfl, by simp, rfl, rfl⟩
    · have hpos := List.length_pos_of_ne_nil hempty
      refine ⟨[(bytes, Metra.Sample.nonce)], frame bytes, by simp, ?_, ?_, rfl⟩
      · intro chunk hchunk
        obtain rfl := List.mem_singleton.1 hchunk
        exact ⟨hpos, hlen.trans hmax⟩
      · simp only [encodePayloadFrames, encodePayloadFrame, sealPayload,
          encodePayloadFrameHeader_eq Metra.Sample.nonce hpos (hlen.trans hmax), frame,
          if_neg hempty]
        simp [bind, Except.bind, pure, Except.pure, FrameHeader.ofParts]

theorem honest_lane {source : List UInt8} {n i : Nat} (hi : i < n)
    (hmax : source.length ≤ appPayloadMaxPlaintextBytes) :
    (lane source n i).Honest Metra.Sample.crypto source.length source :=
  (sends_lane hi hmax true .queued).honest

theorem honest_cutOff {source : List UInt8} {stream : LaneStream}
    (h : stream.Honest Metra.Sample.crypto source.length source) :
    (cutOff stream).Honest Metra.Sample.crypto source.length source where
  fileSizeBytes := h.fileSizeBytes
  lane := h.lane
  incoming payloadCodec hcodec resume := by
    obtain ⟨chunks, payload, hslice, hchunks, hencode, -⟩ := h.incoming payloadCodec hcodec resume
    exact ⟨chunks, payload, hslice, hchunks, hencode, List.nil_prefix⟩

/-- Some streams of a transfer of two bytes. -/
def pair (streams : List LaneStream) : Setup :=
  unreliable ctx (transfer [7, 8] true .queued) fun i => streams[i]?

theorem honest_pair {streams : List LaneStream}
    (h : ∀ stream ∈ streams,
      stream.Honest Metra.Sample.crypto ([7, 8] : List UInt8).length [7, 8]) :
    (pair streams).Honest [7, 8] where
  size := rfl
  disk := by
    show isNullSinkUri "file:///a.bin" = false
    decide +kernel
  opens := Metra.Sample.crypto_opensSealed
  streams i stream hstream := h stream (List.mem_of_getElem? hstream)

/-- Both lanes of two. -/
def bothLanes : List LaneStream := [lane [7, 8] 2 0, lane [7, 8] 2 1]

theorem honest_bothLanes : (pair bothLanes).Honest [7, 8] := by
  refine honest_pair ?_
  simp only [bothLanes, List.forall_mem_cons]
  exact ⟨honest_lane (by decide) (by decide), honest_lane (by decide) (by decide), by simp⟩

/-- Two lanes of two that are cut off, and a single lane after them. -/
def twoSessions : List LaneStream :=
  [cutOff (lane [7, 8] 2 0), cutOff (lane [7, 8] 2 1), lane [7, 8] 1 0]

theorem honest_twoSessions : (pair twoSessions).Honest [7, 8] := by
  refine honest_pair ?_
  simp only [twoSessions, List.forall_mem_cons]
  exact ⟨honest_cutOff (honest_lane (by decide) (by decide)),
    honest_cutOff (honest_lane (by decide) (by decide)), honest_lane (by decide) (by decide),
    by simp⟩

end Scenario

namespace Scenario

/-- A stream that has not received anything yet. -/
structure Untouched (s : Tracked Task Point State) (i : Nat) (stream : LaneStream) : Prop where
  handler : (s.point (.handler i)).phase = .idle ∨ ∃ resume,
    (s.point (.handler i)).phase = .opened resume ∧ resume ≤ stream.request.rangeStart
  writer : (s.point (.writer i)).phase = .unborn
  absent : s.shared.writers i = .absent
  loaded : (s.point (.handler i)).loaded = .nothing ∧ (s.point (.writer i)).loaded = .nothing

/-- A stream that has at most found its resume offset, which is not past the start of its range. -/
def untouched (s : Tracked Task Point State) (i : Nat) (stream : LaneStream) : Bool :=
  match s.point (.handler i), s.point (.writer i), s.shared.writers i with
  | ⟨.idle, _, _, .nothing⟩, ⟨.unborn, _, _, .nothing⟩, .absent => true
  | ⟨.opened resume, _, _, .nothing⟩, ⟨.unborn, _, _, .nothing⟩, .absent =>
    decide (resume ≤ stream.request.rangeStart)
  | _, _, _ => false

theorem of_untouched {s : Tracked Task Point State} {i : Nat} {stream : LaneStream}
    (h : untouched s i stream = true) : Untouched s i stream := by
  unfold untouched at h
  split at h
  · rename_i hhandler hwriter hw
    exact ⟨.inl (by rw [hhandler]), by rw [hwriter], hw, by rw [hhandler], by rw [hwriter]⟩
  · rename_i resume _ _ _ _ hhandler hwriter hw
    exact ⟨.inr ⟨resume, by rw [hhandler], of_decide_eq_true h⟩, by rw [hwriter], hw,
      by rw [hhandler], by rw [hwriter]⟩
  · cases h

/-- The checkpoint records nothing. -/
def recordsNothing (d : Disk) : Bool :=
  d.checkpoint.all fun c => c.lanes.all fun lane => decide (lane.offset ≤ lane.rangeStart)

/-- Nobody counts on what nobody has touched. -/
theorem unused_of_untouched {setup : Setup} {s : Tracked Task Point State}
    (hrecords : recordsNothing s.shared.disk = true)
    (h : ∀ i stream, setup.streams i = some stream → Untouched s i stream) : setup.Unused s where
  counts p _ hcounts := by
    cases hcounts with
    | recorded hfound hp =>
      obtain ⟨lane, hlane, hle, hlt⟩ := hp
      rw [recordsNothing, hfound] at hrecords
      have hlane' := of_decide_eq_true (List.all_eq_true.1 hrecords lane hlane)
      omega
    | @loaded u stream found hstream hfound hp =>
      have hnothing := (h _ _ hstream).loaded
      cases u with
      | handler i =>
        rw [Task.stream, hfound] at hnothing
        cases hnothing.1
      | writer i =>
        rw [Task.stream, hfound] at hnothing
        cases hnothing.2
    | live hstream hlive hle hlt =>
      have huntouched := h _ _ hstream
      rcases hlive with ⟨-, hphase | ⟨args, hw, -⟩⟩
      · rcases huntouched.handler with hidle | ⟨resume, hopened, hresume⟩
        · rw [hidle] at hphase
          cases hphase
        · rw [hopened] at hphase
          cases hphase
          omega
      · rw [huntouched.absent] at hw
        cases hw
    | reached hstream hreached =>
      have huntouched := h _ _ hstream
      cases hreached with
      | written hphase =>
        rw [huntouched.writer] at hphase
        cases hphase
      | flushed hphase =>
        rw [huntouched.writer] at hphase
        cases hphase
      | joined _ _ hw =>
        rw [huntouched.absent] at hw
        cases hw
      | received _ hphase =>
        rcases huntouched.handler with hidle | ⟨resume, hopened, -⟩
        · rw [hidle] at hphase
          cases hphase
        · rw [hopened] at hphase
          cases hphase
    | @whole u stream hstream hwhole =>
      have huntouched := h _ _ hstream
      cases u with
      | handler i =>
        rcases huntouched.handler with hidle | ⟨resume, hopened, -⟩
        · rw [Task.stream] at hidle
          rw [hidle] at hwhole
          exact hwhole
        · rw [Task.stream] at hopened
          rw [hopened] at hwhole
          exact hwhole
      | writer i =>
        have hwriter := huntouched.writer
        rw [Task.stream] at hwriter
        rw [hwriter] at hwhole
        exact hwhole
  opened i stream f hstream hopen := by
    have huntouched := h _ _ hstream
    rcases hopen with ⟨resume, hphase⟩ | ⟨args, hw, -⟩
    · rcases huntouched.handler with hidle | ⟨resume', hopened, -⟩
      · rw [hidle] at hphase
        cases hphase
      · rw [hopened] at hphase
        cases hphase
    · rw [huntouched.absent] at hw
      cases hw

/-- Steps of sessions of both lanes: the staging file is made before anything is received,
nothing is at the final path, and no write has failed. -/
def sessions (s : Tracked Task Point State) (t : Task) (o : Op) (_ : Choice) : Bool :=
  match o with
  | .openStaging => s.shared.disk.staging.isSome ||
    (untouched s 0 (lane [7, 8] 2 0) && untouched s 1 (lane [7, 8] 2 1) &&
      recordsNothing s.shared.disk)
  | .readCheckpoint => s.shared.disk.checkpoint.all (fun c => c.totalLanes = 2) &&
    !s.shared.writeFailed t.stream
  | .stagingLen | .removeFinal => false
  | _ => true

theorem stream_of_bothLanes {i : Nat} {stream : LaneStream}
    (h : (pair bothLanes).streams i = some stream) :
    (i = 0 ∧ stream = lane [7, 8] 2 0) ∨ i = 1 ∧ stream = lane [7, 8] 2 1 := by
  match i with
  | 0 => exact .inl ⟨rfl, (Option.some.inj h).symm⟩
  | 1 => exact .inr ⟨rfl, (Option.some.inj h).symm⟩
  | _ + 2 => cases h

theorem safe_of_sessions (s : Tracked Task Point State) (t : Task) (o : Op) (c : Choice)
    (h : sessions s t o c = true) : (pair bothLanes).Safe [7, 8] s t o c := by
  refine .inr ⟨fun ho => ?_, fun ho hnone => ?_, fun ho => ?_, fun ho i stream found _ hstream
    hfound => ?_, fun ho i ht _ => ?_⟩
  · subst ho
    cases h
  · subst ho
    simp only [sessions, hnone, Option.isSome_none, Bool.false_or, Bool.and_eq_true] at h
    obtain ⟨⟨hfirst, hsecond⟩, hrecords⟩ := h
    refine unused_of_untouched hrecords fun i stream hstream => ?_
    rcases stream_of_bothLanes hstream with ⟨rfl, rfl⟩ | ⟨rfl, rfl⟩
    · exact of_untouched hfirst
    · exact of_untouched hsecond
  · subst ho
    cases h
  · subst ho
    rw [sessions, hfound, Bool.and_eq_true] at h
    have hlanes : found.totalLanes = 2 := of_decide_eq_true h.1
    rw [hlanes]
    rcases stream_of_bothLanes hstream with ⟨-, rfl⟩ | ⟨-, rfl⟩
    · rfl
    · rfl
  · subst ho ht
    rw [sessions, Bool.and_eq_true] at h
    exact Bool.not_eq_true' _ ▸ h.2

/-- The operation completes the transfer. -/
def completes : Op → Bool
  | .setStatus .completed _ => true
  | _ => false

theorem of_completes {o : Op} (h : completes o = true) :
    ∃ bytes, o = .setStatus .completed bytes := by
  unfold completes at h
  split at h
  · exact ⟨_, rfl⟩
  · cases h

end Scenario

open Scenario in
/-- Two lanes are opened and cut off before anything is received.  The single lane of the
next session takes the length of the staging file for what has been received: **the transfer
is completed with zeros**. -/
theorem zeros_delivered :
    (pair twoSessions).Honest [7, 8] ∧
      ∃ cfg, Config.Reaches machine (fun _ _ _ _ => True)
          (server (transfer [7, 8] true .queued) noFiles twoSessions) cfg ∧
        cfg.shared.transfer.status = .completed ∧
        cfg.shared.disk.finalContent = some [0, 0] := by
  have hrun : ((server (transfer [7, 8] true .queued) noFiles twoSessions).runIf machine
      (fun _ _ _ _ => true)
      (turns [(.handler 0, 17), (.writer 0, 3), (.handler 0, 8), (.handler 1, 17), (.writer 1, 3),
        (.handler 1, 8), (.handler 2, 10), (.writer 2, 3), (.handler 2, 9)])).any
      (fun cfg => decide (cfg.shared.transfer.status = .completed ∧
        cfg.shared.disk.finalContent = some [0, 0])) = true := by
    decide +kernel
  obtain ⟨cfg, hto, hcfg⟩ := Config.reaches_of_runIf_any (fun _ _ _ _ _ => trivial) hrun
  exact ⟨honest_twoSessions, cfg, hto, of_decide_eq_true hcfg⟩

open Scenario in
/-- Both lanes are received, and the transfer is about to be completed. -/
theorem delivered_intact_sample :
    ∃ cfg bytes k, RunsTo (pair bothLanes) ((pair bothLanes).Safe [7, 8])
        (starting (pair bothLanes) (transfer [7, 8] true .queued) noFiles) cfg ∧
      cfg.pool (.handler 1) = .act (.setStatus .completed bytes) k ∧
      cfg.shared.shared.disk.finalContent = some [7, 8] := by
  have hrun : ((starting (pair bothLanes) (transfer [7, 8] true .queued) noFiles).runIf
      (machine.track (protocol (pair bothLanes))) sessions
      (turns [(.handler 0, 17), (.writer 0, 11), (.handler 1, 17), (.writer 1, 11),
        (.handler 1, 11)])).any (Config.nextIs completes (.handler 1)) = true := by
    decide +kernel
  obtain ⟨cfg, hto, hnext⟩ := Config.reaches_of_runIf_any safe_of_sessions hrun
  obtain ⟨o, k, hpool, ho⟩ := Config.of_nextIs hnext
  obtain ⟨bytes, rfl⟩ := of_completes ho
  have hfresh : noFiles.Fresh := ⟨rfl, rfl, rfl, fun f hf => by cases hf⟩
  exact ⟨cfg, bytes, k, hto, hpool,
    delivered_intact _ _ _ [7, 8] honest_bothLanes hfresh hto hpool⟩

end Metra.Server
