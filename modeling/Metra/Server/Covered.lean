import Metra.Server.Overlap

/-!
# What the leases cover

A lane that is not in the table of active writers has been given back, and is free to be taken
by another stream.  Nobody should be able to write to its range then, or to record an offset of
it.

* `Setup.CanWriteTo` — a task may still write to a position of the staging file;
* `Setup.LeasesCover` — nobody can write to the range of a lane that has no active writer, and
  no lane has two writers;
* `lease_covers_writer` — so it is in runs in which the receive pipeline is left only when its
  writer has ended, if a lane that is asked for overlaps no other one;
* `written_without_lease` — a frame that does not open ends the handler but not its writer: the
  lane is opened again and has two writers;
* `written_across_lanes` — a stream of the whole file writes to the range of a lane of two.
-/

namespace Metra.Server

open Interleave

/-! ## The ranges of the lanes -/

/-- The positions of a lane, where the file is divided into so many. -/
def laneSpan (size lanes lane : Nat) : Set Nat :=
  Set.Ico (laneStart size lanes lane) (laneStart size lanes (lane + 1))

/-- The file is divided into so many lanes, by a request that is admitted or by the
checkpoint. -/
def Setup.Divides (setup : Setup) (disk : Disk) (lanes : Nat) : Prop :=
  (∃ i stream, setup.streams i = some stream ∧ setup.Admits stream.request ∧
      requestedLanes stream.request = lanes) ∨
    ∃ found, disk.checkpoint = some found ∧ found.totalLanes = lanes

/-- The positions of the staging file that a task may still write to: a handler that holds its
lease, those of its lane; a writer, those that are left of its range. -/
def Setup.CanWriteTo (setup : Setup) (s : Tracked Task Point State) (t : Task)
    (stream : LaneStream) (p : Nat) : Prop :=
  match t with
  | .handler i => (s.point (.handler i)).phase.HasLease ∧
      p ∈ laneSpan setup.size (requestedLanes stream.request) stream.request.laneIndex
  | .writer i => setup.discards = false ∧ ∃ args, s.shared.writers i = .running args ∧
      args.resumeOffset ≤ p ∧ p < requestedEnd stream.request

/-- The leases cover all that can write.  Of a lane that has no active writer, no stream can
write or record an offset; nobody can write to its range, in whichever division of the file; and
one writer task at most is running for every lane. -/
structure Setup.LeasesCover (setup : Setup) (s : Tracked Task Point State) : Prop where
  covered : ∀ t stream, setup.streams t.stream = some stream →
    stream.request.laneIndex ∉ s.shared.activeLaneWriters → ¬ CanWrite s t
  ranges : ∀ t stream lanes lane, setup.streams t.stream = some stream →
    setup.Divides s.shared.disk lanes → lane < lanes → lane ∉ s.shared.activeLaneWriters →
    ∀ p ∈ laneSpan setup.size lanes lane, ¬ setup.CanWriteTo s t stream p
  single : ∀ i j stream stream', setup.streams i = some stream →
    setup.streams j = some stream' →
    stream.request.laneIndex = stream'.request.laneIndex →
    CanWrite s (.writer i) → CanWrite s (.writer j) → i = j

/-- A lane that a request asks for overlaps at most the one of its own index, in whichever
division of the file. -/
def Setup.LanesAgree (setup : Setup) (disk : Disk) : Prop :=
  ∀ i stream lanes lane, setup.streams i = some stream → setup.Admits stream.request →
    setup.Divides disk lanes → lane < lanes → lane ≠ stream.request.laneIndex →
    Disjoint (laneSpan setup.size (requestedLanes stream.request) stream.request.laneIndex)
      (laneSpan setup.size lanes lane)

section

variable {setup : Setup} {s : Tracked Task Point State} {t : Task} {stream : LaneStream} {o : Op}
  {c : Choice} {r : o.Reply} {s' : State} {pt : Point} {disk : Disk}

/-- Different lanes of one division do not overlap. -/
theorem disjoint_laneSpan {size lanes i j : Nat} (hne : i ≠ j) :
    Disjoint (laneSpan size lanes i) (laneSpan size lanes j) := by
  refine Set.disjoint_left.2 fun p hp hp' => ?_
  obtain ⟨hle, hlt⟩ := hp
  obtain ⟨hle', hlt'⟩ := hp'
  rcases Nat.lt_or_gt_of_ne hne with hlane | hlane
  · have hmono : laneStart size lanes (i + 1) ≤ laneStart size lanes j := laneStart_mono hlane
    omega
  · have hmono : laneStart size lanes (j + 1) ≤ laneStart size lanes i := laneStart_mono hlane
    omega

/-- Lanes of one division agree. -/
theorem lanesAgree_of_divides {total : Nat} (h : ∀ lanes, setup.Divides disk lanes →
    lanes = total) : setup.LanesAgree disk := by
  intro i stream lanes lane hstream hadmits hdivides _ hne
  rw [h _ hdivides, h _ (.inl ⟨i, stream, hstream, hadmits, rfl⟩)]
  exact disjoint_laneSpan hne.symm

/-- What a live stream writes to is in the span of its lane. -/
theorem LaneRange.mem_laneSpan {size resume p : Nat} {request : QuicTransferOpen}
    (h : LaneRange size request resume) (hle : resume ≤ p) (hlt : p < requestedEnd request) :
    p ∈ laneSpan size (requestedLanes request) request.laneIndex :=
  ⟨Nat.le_trans h.start hle, h.stop ▸ hlt⟩

/-- A writer can write to where it writes. -/
theorem canWriteTo_of_write (hbase : Baseline setup s) (hdisk : setup.discards = false) {i : Nat}
    (hstream : setup.streams i = some stream) {f offset : Nat} {chunk : List UInt8}
    (henabled : Enabled setup (.writer i) (s.point (.writer i)) (.writeAll f offset chunk))
    {p : Nat} (hle : offset ≤ p) (hlt : p < offset + chunk.length) :
    setup.CanWriteTo s (.writer i) stream p := by
  generalize hpt : s.point (.writer i) = pt at henabled
  cases henabled with
  | @write _ w d args _ rest synced =>
    obtain ⟨hw, ⟨admission, hrequest, hargs⟩, front, hchunks, hfront⟩ :=
      running_of_writing hbase hstream (congrArg Point.phase hpt)
    obtain ⟨-, -, hend, -⟩ := of_admitRequest hrequest
    have hlen : args.chunks.flatten.length ≤ admission.rangeEndExclusive - args.resumeOffset := by
      rw [hargs]
      exact length_receiveLane_le _
    rw [hchunks, List.flatten_append, List.length_append, List.flatten_cons, List.length_append,
      hfront, hend] at hlen
    exact ⟨hdisk, args, hw, by omega, by omega⟩

/-! ## The invariant -/

/-- What the leases rest on, if these were the files at the start. -/
structure Setup.Covering (setup : Setup) (disk : Disk) (s : Tracked Task Point State) : Prop where
  inRange : setup.InRange s
  joined : setup.Joined s
  divides : ∀ lanes, setup.Divides s.shared.disk lanes → setup.Divides disk lanes
  loaded : ∀ u found, (s.point u).loaded = .found found → setup.Divides disk found.totalLanes

/-- What is stored is of the lanes that were asked for, or of those that were read. -/
theorem divides_of_persist (h : setup.Covering disk s) {next : TransferCheckpoint}
    (henabled : Enabled setup t (s.point t) (.persistCheckpoint next)) :
    setup.Divides disk next.totalLanes := by
  have hloaded := h.loaded t
  have hstored := h.inRange.stored.loaded t
  have hadmitted : ∀ i stream, t = .handler i → setup.streams i = some stream →
      (s.point t).phase.HasLease → setup.Admits stream.request := by
    rintro i stream rfl hstream hlease
    exact h.inRange.admitted i stream hstream hlease
  generalize s.point t = pt at henabled hloaded hstored hadmitted
  cases henabled with
  | persistFresh hstream =>
    exact .inl ⟨_, _, hstream, hadmitted _ _ rfl hstream trivial, rfl⟩
  | persistRounded _ _ _ hround =>
    rw [(hstored _ rfl).roundLane hround]
    exact hloaded _ rfl
  | persistDiscarded _ _ hadvance =>
    rw [TransferCheckpoint.totalLanes_of_advanceLane hadvance]
    exact hloaded _ rfl
  | persistWriting _ hadvance =>
    rw [TransferCheckpoint.totalLanes_of_advanceLane hadvance]
    exact hloaded _ rfl

theorem divides_step (h : setup.Covering disk s) (henabled : Enabled setup t (s.point t) o)
    (hexec : exec t o c s.shared = some (r, s')) {lanes : Nat}
    (hdivides : setup.Divides s'.disk lanes) : setup.Divides disk lanes := by
  rcases hdivides with hasked | ⟨found, hfound, rfl⟩
  · exact .inl hasked
  · rcases versions_of_exec hexec with heq | ⟨next, rfl, heq⟩ | ⟨-, hnil⟩
    · rw [Disk.checkpoint, heq] at hfound
      exact h.divides _ (.inr ⟨found, hfound, rfl⟩)
    · rw [Disk.checkpoint, heq, List.getLast?_concat] at hfound
      cases hfound
      exact divides_of_persist h henabled
    · rw [Disk.checkpoint, hnil] at hfound
      cases hfound

theorem Setup.Covering.step (h : setup.Covering disk s)
    (hstream : setup.streams t.stream = some stream) (henabled : Enabled setup t (s.point t) o)
    (hallowed : JoinsWriter s t o c) (hexec : exec t o c s.shared = some (r, s')) :
    setup.Covering disk (moved s t (advance setup stream (s.point t) o r) s') where
  inRange := h.inRange.step hstream henabled hexec
  joined := joined_step h.joined hstream henabled hallowed hexec
  divides _ hdivides := divides_step h henabled hexec hdivides
  loaded := by
    refine forall_moved (P := fun _ pt => ∀ found, pt.loaded = .found found →
      setup.Divides disk found.totalLanes) ?_ fun u _ => h.loaded u
    intro found hfound
    rcases loaded_of_advance hexec hfound with hbefore | ⟨-, hread⟩ | rfl
    · exact h.loaded t found hbefore
    · exact h.divides _ (.inr ⟨found, hread, rfl⟩)
    · exact divides_of_persist h henabled

/-- Who can write holds a lease, or its handler does. -/
theorem Setup.Covering.hasLease (h : setup.Covering disk s)
    (hstream : setup.streams t.stream = some stream) (hwrite : CanWrite s t) :
    (s.point (.handler t.stream)).phase.HasLease := by
  cases t with
  | handler i => exact hwrite
  | writer i =>
    obtain ⟨resume, hdraining⟩ := h.joined i stream hstream hwrite
    rw [Task.stream, hdraining]
    trivial

/-- Where a task can write to is in the span of its lane. -/
theorem Setup.Covering.mem_laneSpan (h : setup.Covering disk s)
    (hstream : setup.streams t.stream = some stream) {p : Nat}
    (hwrite : setup.CanWriteTo s t stream p) : CanWrite s t ∧
      p ∈ laneSpan setup.size (requestedLanes stream.request) stream.request.laneIndex := by
  cases t with
  | handler i => exact hwrite
  | writer i =>
    obtain ⟨hdisk, args, hw, hle, hlt⟩ := hwrite
    have hrange := h.inRange.range i stream _ hstream ⟨hdisk, .inr ⟨args, hw, rfl⟩⟩
    exact ⟨⟨args, hw⟩, hrange.mem_laneSpan hle hlt⟩

/-- Leases that are held by all who can write cover them. -/
theorem Setup.Covering.cover (h : setup.Covering disk s) (hagree : setup.LanesAgree disk) :
    setup.LeasesCover s where
  covered t stream hstream hfree hwrite :=
    hfree (h.inRange.leased.active _ stream hstream (h.hasLease hstream hwrite))
  ranges t stream lanes lane hstream hdivides hlane hfree p hp hwrite := by
    obtain ⟨hcan, hp'⟩ := h.mem_laneSpan hstream hwrite
    have hlease := h.hasLease hstream hcan
    have hactive := h.inRange.leased.active _ stream hstream hlease
    have hne : lane ≠ stream.request.laneIndex := by
      rintro rfl
      exact hfree hactive
    have hadmits := h.inRange.admitted _ stream hstream hlease
    exact Set.disjoint_left.1
      (hagree _ stream lanes lane hstream hadmits (h.divides lanes hdivides) hlane hne) hp' hp
  single i j stream stream' hstream hstream' hlane hi hj :=
    h.inRange.leased.alone i j stream stream' hstream hstream' hlane
      (h.hasLease (t := .writer i) hstream hi) (h.hasLease (t := .writer j) hstream' hj)

end

/-! ## Runs -/

/-- **The lease covers the writer's whole life** in runs in which the receive pipeline is
left only when its writer has ended, if a lane that is asked for overlaps no other one. -/
theorem lease_covers_writer (ctx : Context) (transfer : TransferSummary)
    (streams : Nat → Option LaneStream) {disk : Disk} (hdisk : Remains ctx transfer disk)
    (hagree : (unreliable ctx transfer streams).LanesAgree disk)
    {cfg : Config Task Op Op.Reply (Tracked Task Point State) (Except String Unit)}
    (hreaches : RunsTo (unreliable ctx transfer streams) JoinsWriter
      (starting (unreliable ctx transfer streams) transfer disk) cfg) :
    (unreliable ctx transfer streams).LeasesCover cfg.shared := by
  have hcovering : (unreliable ctx transfer streams).Covering disk cfg.shared := by
    refine (reaches_invariant trivial ?_ (sameTransfer_refl transfer) ?_ hreaches).2.2
    · intro s t stream o c r s' _ h hstream henabled hallowed hexec
      exact h.step hstream henabled hallowed hexec
    · refine ⟨inRange_start hdisk.wf, held_start.joined, fun _ hdivides => hdivides, ?_⟩
      intro u found hfound
      cases u <;> cases hfound
  exact hcovering.cover hagree

/-! ## Samples -/

namespace Scenario

/-- A cipher that also checks the tag. -/
def checkingCrypto : AeadCrypto where
  blake3 bytes := bytes
  encrypt _ _ _ msg := some (msg ++ List.replicate appPayloadAeadTagBytes 0)
  decrypt _ _ _ msg :=
    if msg.drop (msg.length - appPayloadAeadTagBytes) = List.replicate appPayloadAeadTagBytes 0 then
      some (msg.take (msg.length - appPayloadAeadTagBytes))
    else none

/-- A sealed frame of one byte, with a tag. -/
def sealedFrame (byte tag : UInt8) : List UInt8 :=
  Bytes.toLeBytes 4 1 ++ Metra.Sample.nonce.bytes ++ [byte] ++
    List.replicate appPayloadAeadTagBytes tag

/-- A stream of two sealed frames, the second of which does not open. -/
def tampered : LaneStream where
  request := { (lane [7, 8] 1 0).request with payloadCodec := "aead-chacha20poly1305-v1" }
  incoming _ := sealedFrame 7 0 ++ sealedFrame 8 1

/-- A single lane whose second frame does not open, and the stream that opens it again. -/
def tamperedServer : Config Task Op Op.Reply State (Except String Unit) :=
  ⟨start (transfer [7, 8] true .queued) noFiles,
    program { ctx with crypto := checkingCrypto } fun i => [tampered, tampered][i]?⟩

/-- The writer of a stream is running. -/
def hasWriter (s : State) (i : Nat) : Bool :=
  match s.writers i with
  | .running _ => true
  | _ => false

end Scenario

open Scenario in
/-- The second frame of a stream does not open.  Its handler fails the transfer and gives
the lease back, while the writer has not written the first frame yet; the lane is opened
again and has two writers. -/
theorem written_without_lease :
    ∃ cfg cfg', Config.Reaches machine (fun _ _ _ _ => True) tamperedServer cfg ∧
      (decide (cfg.shared.activeLaneWriters = []) && hasWriter cfg.shared 0) = true ∧
      Config.Reaches machine (fun _ _ _ _ => True) cfg cfg' ∧
      (hasWriter cfg'.shared 0 && hasWriter cfg'.shared 1) = true :=
  Config.exists_run_then (fun _ _ _ _ => true)
    (turns [(.handler 0, 17)]) (turns [(.handler 1, 10)])
    (fun _ _ _ _ _ => trivial) (by decide +kernel) (by decide +kernel)

/-- The operations other than the look at the status of a stream that fails. -/
def Scenario.succeeds (_ : Tracked Task Point State) (_ : Task) (o : Op) (_ : Choice) : Bool :=
  match o with
  | .checkRunning => false
  | _ => true

theorem Scenario.joinsWriter_of_succeeds (s : Tracked Task Point State) (t : Task) (o : Op)
    (c : Choice) (h : succeeds s t o c = true) : JoinsWriter s t o c := by
  rintro resume - rfl
  cases h

open Scenario in
/-- Both lanes are being written. -/
theorem lease_covers_writer_sample :
    ∃ cfg, RunsTo twoLanes JoinsWriter (starting twoLanes (transfer [7, 8] true .queued) noFiles)
        cfg ∧
      (hasWriter cfg.shared.shared 0 && hasWriter cfg.shared.shared 1) = true ∧
      twoLanes.LeasesCover cfg.shared := by
  have hagree : twoLanes.LanesAgree noFiles := by
    refine lanesAgree_of_divides (show ∀ lanes, twoLanes.Divides noFiles lanes → lanes = 2 from ?_)
    rintro lanes (⟨i, stream, hstream, -, rfl⟩ | ⟨found, hfound, -⟩)
    · match i with
      | 0 | 1 =>
        cases hstream
        rfl
      | _ + 2 => cases hstream
    · cases hfound
  have hrun : ((starting twoLanes (transfer [7, 8] true .queued) noFiles).runIf
      (machine.track (protocol twoLanes)) succeeds
      (turns [(.handler 0, 17), (.handler 1, 17)])).any
      (fun cfg => hasWriter cfg.shared.shared 0 && hasWriter cfg.shared.shared 1) = true := by
    decide +kernel
  obtain ⟨cfg, hto, hwriters⟩ := Config.reaches_of_runIf_any joinsWriter_of_succeeds hrun
  exact ⟨cfg, hto, hwriters, lease_covers_writer _ _ _ (.fresh rfl) hagree hto⟩

open Scenario in
/-- A stream of the whole file is being received, and the second lane of two has not been opened
yet: the writer of the one can write to the range of the other. -/
theorem written_across_lanes :
    ∃ cfg, RunsTo mixed JoinsWriter (starting mixed (transfer [7, 8] true .queued) noFiles) cfg ∧
      ¬ mixed.LeasesCover cfg.shared := by
  have hrun : ((starting mixed (transfer [7, 8] true .queued) noFiles).runIf
      (machine.track (protocol mixed)) succeeds (turns [(.handler 0, 10)])).any
      (fun cfg => writesFrom cfg.shared.shared 0 0 &&
        decide (1 ∉ cfg.shared.shared.activeLaneWriters)) = true := by
    decide +kernel
  obtain ⟨cfg, hto, htest⟩ := Config.reaches_of_runIf_any joinsWriter_of_succeeds hrun
  obtain ⟨hwriter, hfree⟩ := Bool.and_eq_true_iff.1 htest
  have hdisk : mixed.discards = false := by decide +kernel
  refine ⟨cfg, hto, fun h => ?_⟩
  obtain ⟨-, args, hw, hresume⟩ : mixed.discards = false ∧ ∃ args,
      cfg.shared.shared.writers 0 = .running args ∧ args.resumeOffset = 0 :=
    ⟨hdisk, running_of_writesFrom hwriter⟩
  refine h.ranges (.writer 0) (lane [7, 8] 1 0) 2 1 rfl
    (.inl ⟨1, lane [7, 8] 2 1, rfl, ⟨⟨_, rfl⟩, rfl⟩, rfl⟩) (by decide) (of_decide_eq_true hfree) 1
    ⟨by decide, by decide⟩ ?_
  exact ⟨hdisk, args, hw, by omega, by decide⟩

end Metra.Server
