import Mathlib.Order.CompletePartialOrder
import Mathlib.Order.Interval.Set.Defs
import Metra.Server.Lease
import Metra.Server.Updates

/-!
# The ranges of live streams

A stream that writes to disk is live from the moment that it has its resume offset until
its writer has ended; it then writes from that offset to the end of its range.

* `Setup.LiveAt` — the stream is live, and where it resumed;
* `live_ranges_disjoint` — in a run in which a stream gets its resume offset only while all
  other live streams divide the file into as many lanes, and no writer of its lane is left
  over, the ranges of the live streams are disjoint;
* `live_ranges_overlap` — a stream of the whole file, which has no checkpoint to agree
  with, next to the second lane of two.
-/

namespace Metra.Server

open Interleave

/-- The resume offset of a handler that has one and has not received its payload yet. -/
def Phase.resume? : Phase → Option Nat
  | .resumed resume | .opened resume | .presizing resume _ | .presized resume
  | .accepted resume | .receiving resume _ | .draining resume => some resume
  | _ => none

/-- The stream is live: it is going to write, or is writing, to the staging file from the
resume offset on. -/
def Setup.LiveAt (setup : Setup) (s : Tracked Task Point State) (i resume : Nat) : Prop :=
  setup.discards = false ∧ ((s.point (.handler i)).phase.resume? = some resume ∨
    ∃ args, s.shared.writers i = .running args ∧ args.resumeOffset = resume)

/-- The ranges of two live streams are disjoint. -/
def Setup.LiveDisjoint (setup : Setup) (s : Tracked Task Point State) : Prop :=
  ∀ i j stream stream' resume resume', i ≠ j → setup.streams i = some stream →
    setup.streams j = some stream' → setup.LiveAt s i resume → setup.LiveAt s j resume' →
    Disjoint (Set.Ico resume (requestedEnd stream.request))
      (Set.Ico resume' (requestedEnd stream'.request))

/-! ## The condition -/

/-- The step in which a stream may get its resume offset: it looks at the length of the
staging file, which is not complete, or stores the checkpoint that it found. -/
def Setup.MayResume (setup : Setup) (s : Tracked Task Point State) (t : Task) (o : Op) : Prop :=
  (o = .stagingLen ∧
      ((s.shared.disk.staging.map fun f => (s.shared.disk.inode f).data.length).getD 0) <
        setup.size) ∨
    ∃ b found next, (s.point t).phase = .leased b ∧ (s.point t).loaded = .found found ∧
      o = .persistCheckpoint next

/-- A stream gets its resume offset only while all other live streams that have something
left to write divide the file into as many lanes, and no writer of its lane runs. -/
def Setup.KeepsApart (setup : Setup) (s : Tracked Task Point State) (t : Task) (o : Op)
    (_ : Choice) : Prop :=
  setup.MayResume s t o → ∀ j stream stream' resume, j ≠ t.stream →
    setup.streams t.stream = some stream → setup.streams j = some stream' →
    setup.LiveAt s j resume → resume < requestedEnd stream'.request →
    requestedLanes stream'.request = requestedLanes stream.request ∧
      (stream'.request.laneIndex = stream.request.laneIndex → ¬ CanWrite s (.writer j))

/-! ## The invariant -/

/-- The range of a live stream is that of its lane. -/
structure LaneRange (size : Nat) (request : QuicTransferOpen) (resume : Nat) : Prop where
  lane : request.laneIndex < requestedLanes request
  start : laneStart size (requestedLanes request) request.laneIndex ≤ resume
  stop : requestedEnd request = laneStart size (requestedLanes request) (request.laneIndex + 1)

/-- The request was admitted, and is for a file of the transfer's size. -/
def Setup.Admits (setup : Setup) (request : QuicTransferOpen) : Prop :=
  (∃ admission, admitRequest request = .ok admission) ∧ request.fileSizeBytes = setup.size

/-- Who holds a lease was admitted, and who is live writes to the range of its lane. -/
structure Setup.InRange (setup : Setup) (s : Tracked Task Point State) : Prop where
  leased : setup.Leased s
  stored : setup.StoredWf s
  admitted : ∀ i stream, setup.streams i = some stream →
    (s.point (.handler i)).phase.HasLease → setup.Admits stream.request
  range : ∀ i stream resume, setup.streams i = some stream → setup.LiveAt s i resume →
    LaneRange setup.size stream.request resume

/-- Live streams that have something left to write are of different lanes of one division. -/
structure Setup.Apart (setup : Setup) (s : Tracked Task Point State) : Prop where
  inRange : setup.InRange s
  apart : ∀ i j stream stream' resume resume', i ≠ j → setup.streams i = some stream →
    setup.streams j = some stream' → setup.LiveAt s i resume → setup.LiveAt s j resume' →
    resume < requestedEnd stream.request → resume' < requestedEnd stream'.request →
    requestedLanes stream.request = requestedLanes stream'.request ∧
      stream.request.laneIndex ≠ stream'.request.laneIndex

section

variable {setup : Setup} {s : Tracked Task Point State} {t : Task} {stream : LaneStream} {o : Op}
  {c : Choice} {r : o.Reply} {s' : State} {pt : Point} {ph : Phase}

/-- Different lanes of one division have disjoint ranges. -/
theorem LaneRange.disjoint {size resume resume' : Nat} {request request' : QuicTransferOpen}
    (h : LaneRange size request resume) (h' : LaneRange size request' resume')
    (hlanes : requestedLanes request = requestedLanes request')
    (hne : request.laneIndex ≠ request'.laneIndex) :
    Disjoint (Set.Ico resume (requestedEnd request)) (Set.Ico resume' (requestedEnd request')) := by
  have hstart := h.start
  have hstop := h.stop
  rw [hlanes] at hstart hstop
  have hstart' := h'.start
  have hstop' := h'.stop
  refine Set.disjoint_left.2 fun x hx hx' => ?_
  obtain ⟨hle, hlt⟩ := hx
  obtain ⟨hle', hlt'⟩ := hx'
  rcases Nat.lt_or_gt_of_ne hne with hlane | hlane
  · have hmono : laneStart size (requestedLanes request') (request.laneIndex + 1) ≤
        laneStart size (requestedLanes request') request'.laneIndex := laneStart_mono hlane
    omega
  · have hmono : laneStart size (requestedLanes request') (request'.laneIndex + 1) ≤
        laneStart size (requestedLanes request') request.laneIndex := laneStart_mono hlane
    omega

/-- The range of a stream that has found its lane in a checkpoint. -/
theorem laneRange_of_fits {found next : TransferCheckpoint} {offset : Nat}
    (hwf : setup.WfCheckpoint found) (hlayout : setup.Fits stream found)
    (hround : found.roundLane stream.request.laneIndex = some (offset, next)) :
    LaneRange setup.size stream.request offset := by
  obtain ⟨lanes, hwf⟩ := hwf
  obtain ⟨offsets, hfound, hdurable⟩ := hwf.eq_ofOffsets
  obtain ⟨-, htotal, lane, hlane, -, hstop⟩ := TransferCheckpoint.of_validateLayout hlayout
  rw [hwf.totalLanes] at htotal
  subst htotal
  rw [hfound] at hlane hround
  by_cases hi : stream.request.laneIndex < requestedLanes stream.request
  · rw [TransferCheckpoint.lane?_ofOffsets hi] at hlane
    rw [TransferCheckpoint.roundLane_ofOffsets hdurable hi] at hround
    cases hlane
    cases hround
    exact ⟨hi, hdurable.le _ hi, hstop.symm⟩
  · rw [TransferCheckpoint.lane?_ofOffsets_of_le (by omega)] at hlane
    cases hlane

/-- The range of a stream that asks for the whole file. -/
theorem laneRange_single {admission : Admission} {resume : Nat}
    (hstriped : isStriped stream.request = false)
    (hrequest : admitRequest stream.request = .ok admission)
    (hsize : stream.request.fileSizeBytes = setup.size) :
    LaneRange setup.size stream.request resume ∧
      requestedEnd stream.request = setup.size := by
  obtain ⟨-, -, -, -, hlane, -⟩ := of_admitRequest hrequest
  simp only [isStriped, Bool.or_eq_false_iff, decide_eq_false_iff_not, bne_eq_false_iff_eq]
    at hstriped
  obtain ⟨⟨hone, -⟩, hend⟩ := hstriped
  have hlanes : requestedLanes stream.request = 1 := by omega
  have hzero : stream.request.laneIndex = 0 := by omega
  rw [hsize] at hend
  refine ⟨⟨hlane, ?_, ?_⟩, hend⟩
  · rw [hzero, laneStart_zero]
    exact Nat.zero_le _
  · rw [hend, hlanes, hzero]
    exact (laneStart_self Nat.one_pos).symm

/-- A handler gets its resume offset from the checkpoint or from the staging file. -/
theorem resume_of_moves {i resume : Nat} (h : Moves setup stream (.handler i) pt o r ph)
    (hph : ph.resume? = some resume) (hdisk : setup.discards = false) :
    pt.phase.resume? = some resume ∨
      (∃ b found next, pt.phase = .leased b ∧ pt.loaded = .found found ∧
        o = .persistCheckpoint next ∧ setup.Fits stream found ∧
        found.roundLane stream.request.laneIndex = some (resume, next)) ∨
      ∃ b len, pt.phase = .leased b ∧ isStriped stream.request = false ∧ resume ≤ setup.size ∧
        o = .stagingLen ∧ HEq r (some len : Option (Option Nat)) ∧ resume = len.getD 0 := by
  cases h with
  | resumed hstriped hlayout hround hlane =>
    cases hph
    exact .inr (.inl ⟨_, _, _, rfl, rfl, rfl, hlayout, hround⟩)
  | resumedStaging hstriped _ hlen =>
    cases hph
    exact .inr (.inr ⟨_, _, rfl, hstriped, hlen, rfl, HEq.rfl, rfl⟩)
  | openedDiscard _ hdiscards =>
    rw [hdisk] at hdiscards
    cases hdiscards
  | opened => exact .inl hph
  | presizing => exact .inl hph
  | presized => exact .inl hph
  | acceptedPresized => exact .inl hph
  | accepted => exact .inl hph
  | receiving => exact .inl hph
  | draining => exact .inl hph
  | _ => cases hph

/-- A running writer was running before a step, or is spawned by it. -/
theorem running_step {i : Nat} {args : WriterArgs} (henabled : Enabled setup t (s.point t) o)
    (hexec : exec t o c s.shared = some (r, s')) (hw : s'.writers i = .running args) :
    s.shared.writers i = .running args ∨
      t = .handler i ∧ (s.point (.handler i)).phase.resume? = some args.resumeOffset := by
  rcases running_of_exec hexec hw with hbefore | ⟨rfl, rfl⟩
  · exact .inl hbefore
  · refine .inr ?_
    revert henabled
    cases t with
    | handler i =>
      intro henabled
      refine ⟨rfl, ?_⟩
      show (s.point (Task.handler i)).phase.resume? = some args.resumeOffset
      revert henabled
      generalize s.point (Task.handler i) = pt
      intro henabled
      cases henabled with
      | spawn _ _ hresume =>
        subst hresume
        rfl
    | writer i =>
      generalize s.point (Task.writer i) = pt
      intro henabled
      cases henabled

/-- A live stream was live before a step, or gets its resume offset. -/
theorem liveAt_step {i resume : Nat} (hstream : setup.streams t.stream = some stream)
    (henabled : Enabled setup t (s.point t) o) (hexec : exec t o c s.shared = some (r, s'))
    (hlive : setup.LiveAt (moved s t (advance setup stream (s.point t) o r) s') i resume) :
    setup.LiveAt s i resume ∨ t = .handler i ∧ ∃ b, (s.point t).phase = .leased b ∧
      ((∃ found next, (s.point t).loaded = .found found ∧ o = .persistCheckpoint next ∧
          setup.Fits stream found ∧
          found.roundLane stream.request.laneIndex = some (resume, next)) ∨
        isStriped stream.request = false ∧ resume ≤ setup.size ∧ o = .stagingLen ∧
          resume = (s.shared.disk.staging.map fun f =>
            (s.shared.disk.inode f).data.length).getD 0) := by
  obtain ⟨hdisk, hphase | ⟨args, hw, hresume⟩⟩ := hlive
  · rcases henabled.moves_moved hstream r s' (.handler i) with hsame | ⟨rfl, hmoves⟩
    · rw [hsame] at hphase
      exact .inl ⟨hdisk, .inl hphase⟩
    · rcases resume_of_moves hmoves hphase hdisk with hbefore |
        ⟨b, found, next, hb, hfound, ho, hfits, hround⟩ |
        ⟨b, len, hb, hstriped, hle, rfl, hr, hlen⟩
      · exact .inl ⟨hdisk, .inl hbefore⟩
      · exact .inr ⟨rfl, b, hb, .inl ⟨found, next, hfound, ho, hfits, hround⟩⟩
      · cases hr
        rw [(stagingLen_of_exec hexec).2 _ rfl] at hlen
        exact .inr ⟨rfl, b, hb, .inr ⟨hstriped, hle, rfl, hlen⟩⟩
  · rw [moved_shared] at hw
    rcases running_step henabled hexec hw with hbefore | ⟨-, hreceiving⟩
    · exact .inl ⟨hdisk, .inr ⟨args, hbefore, hresume⟩⟩
    · rw [hresume] at hreceiving
      exact .inl ⟨hdisk, .inl hreceiving⟩

theorem hasLease_of_resume {resume : Nat} (h : ph.resume? = some resume) : ph.HasLease := by
  cases ph <;> trivial

theorem admitted_step (h : setup.InRange s) (hstream : setup.streams t.stream = some stream)
    (henabled : Enabled setup t (s.point t) o) :
    ∀ i stream', setup.streams i = some stream' →
      ((moved s t (advance setup stream (s.point t) o r) s').point (.handler i)).phase.HasLease →
      setup.Admits stream'.request := by
  intro i stream' hstream' hlease
  rcases henabled.moves_moved hstream r s' (.handler i) with hsame | ⟨rfl, hmoves⟩
  · rw [hsame] at hlease
    exact h.admitted i stream' hstream' hlease
  · rcases hasLease_of_moves hmoves hlease with hbefore | ⟨-, lane, rfl, -⟩
    · exact h.admitted i stream' hstream' hbefore
    · revert henabled
      generalize s.point (Task.handler i) = pt
      intro henabled
      cases henabled with
      | acquire hstream'' hrequest hsize =>
        obtain rfl := Option.some.inj (hstream''.symm.trans hstream')
        exact ⟨⟨_, hrequest⟩, hsize⟩

theorem range_step (h : setup.InRange s) (hstream : setup.streams t.stream = some stream)
    (henabled : Enabled setup t (s.point t) o) (hexec : exec t o c s.shared = some (r, s')) :
    ∀ i stream' resume, setup.streams i = some stream' →
      setup.LiveAt (moved s t (advance setup stream (s.point t) o r) s') i resume →
      LaneRange setup.size stream'.request resume := by
  intro i stream' resume hstream' hlive
  rcases liveAt_step hstream henabled hexec hlive with hbefore | ⟨rfl, b, hb, hcase⟩
  · exact h.range i stream' resume hstream' hbefore
  · obtain rfl := Option.some.inj (hstream'.symm.trans hstream)
    rcases hcase with ⟨found, next, hfound, -, hfits, hround⟩ | ⟨hstriped, -, -⟩
    · exact laneRange_of_fits (h.stored.loaded _ _ hfound) hfits hround
    · obtain ⟨⟨admission, hrequest⟩, hsize⟩ := h.admitted i stream' hstream' (by rw [hb]; trivial)
      exact (laneRange_single hstriped hrequest hsize).1

theorem Setup.InRange.step (h : setup.InRange s)
    (hstream : setup.streams t.stream = some stream)
    (henabled : Enabled setup t (s.point t) o) (hexec : exec t o c s.shared = some (r, s')) :
    setup.InRange (moved s t (advance setup stream (s.point t) o r) s') where
  leased := h.leased.step hstream henabled hexec
  stored := h.stored.step henabled hexec
  admitted := admitted_step h hstream henabled
  range := range_step h hstream henabled hexec

/-- A stream that gets its resume offset has another lane than all that are live. -/
theorem apart_of_resume (h : setup.InRange s) {i j : Nat} {stream' : LaneStream}
    {resume resume' b : Nat} (hallowed : setup.KeepsApart s (.handler i) o c)
    (hij : j ≠ i) (hstream : setup.streams i = some stream)
    (hstream' : setup.streams j = some stream') (hb : (s.point (.handler i)).phase = .leased b)
    (hcase : (∃ found next, (s.point (.handler i)).loaded = .found found ∧
        o = .persistCheckpoint next ∧ setup.Fits stream found ∧
        found.roundLane stream.request.laneIndex = some (resume, next)) ∨
      isStriped stream.request = false ∧ resume ≤ setup.size ∧ o = .stagingLen ∧
        resume = (s.shared.disk.staging.map fun f => (s.shared.disk.inode f).data.length).getD 0)
    (hrest : resume < requestedEnd stream.request) (hlive : setup.LiveAt s j resume')
    (hrest' : resume' < requestedEnd stream'.request) :
    requestedLanes stream'.request = requestedLanes stream.request ∧
      stream'.request.laneIndex ≠ stream.request.laneIndex := by
  have hlease : (s.point (.handler i)).phase.HasLease := by
    rw [hb]
    trivial
  have hmay : setup.MayResume s (.handler i) o := by
    rcases hcase with ⟨found, next, hfound, ho, -, -⟩ | ⟨hstriped, -, ho, hresume⟩
    · exact .inr ⟨b, found, next, hb, hfound, ho⟩
    · obtain ⟨⟨admission, hrequest⟩, hsize⟩ := h.admitted i stream hstream hlease
      have hrange : LaneRange setup.size stream.request resume ∧
          requestedEnd stream.request = setup.size := laneRange_single hstriped hrequest hsize
      rw [hrange.2, hresume] at hrest
      exact .inl ⟨ho, hrest⟩
  obtain ⟨hlanes, hwriter⟩ :=
    hallowed hmay j stream stream' resume' hij hstream hstream' hlive hrest'
  refine ⟨hlanes, fun heq => ?_⟩
  obtain ⟨-, hphase | ⟨args, hw, -⟩⟩ := hlive
  · exact hij (h.leased.alone j i stream' stream hstream' hstream heq
      (hasLease_of_resume hphase) hlease)
  · exact hwriter heq ⟨args, hw⟩

theorem Setup.Apart.step (h : setup.Apart s)
    (hstream : setup.streams t.stream = some stream)
    (henabled : Enabled setup t (s.point t) o) (hallowed : setup.KeepsApart s t o c)
    (hexec : exec t o c s.shared = some (r, s')) :
    setup.Apart (moved s t (advance setup stream (s.point t) o r) s') where
  inRange := h.inRange.step hstream henabled hexec
  apart i j stream' stream'' resume resume' hij hstream' hstream'' hi hj hrest hrest' := by
    rcases liveAt_step hstream henabled hexec hi with hibefore | ⟨rfl, b, hb, hcase⟩
    · rcases liveAt_step hstream henabled hexec hj with hjbefore | ⟨rfl, b, hb, hcase⟩
      · exact h.apart i j stream' stream'' resume resume' hij hstream' hstream'' hibefore hjbefore
          hrest hrest'
      · obtain rfl := Option.some.inj (hstream''.symm.trans hstream)
        exact apart_of_resume h.inRange hallowed hij hstream'' hstream' hb hcase hrest' hibefore
          hrest
    · obtain rfl := Option.some.inj (hstream'.symm.trans hstream)
      rcases liveAt_step hstream henabled hexec hj with hjbefore | ⟨hsame, -⟩
      · obtain ⟨hlanes, hne⟩ := apart_of_resume h.inRange hallowed hij.symm hstream' hstream'' hb
          hcase hrest hjbefore hrest'
        exact ⟨hlanes.symm, hne.symm⟩
      · cases hsame
        exact absurd rfl hij

/-- Live streams that are kept apart write to disjoint ranges. -/
theorem Setup.Apart.disjoint (h : setup.Apart s) : setup.LiveDisjoint s := by
  intro i j stream stream' resume resume' hij hstream hstream' hi hj
  by_cases hrest : resume < requestedEnd stream.request
  · by_cases hrest' : resume' < requestedEnd stream'.request
    · obtain ⟨hlanes, hne⟩ := h.apart i j stream stream' resume resume' hij hstream hstream' hi hj
        hrest hrest'
      exact (h.inRange.range i stream resume hstream hi).disjoint
        (h.inRange.range j stream' resume' hstream' hj)
        hlanes hne
    · rw [Set.Ico_eq_empty hrest']
      exact disjoint_bot_right
  · rw [Set.Ico_eq_empty hrest]
    exact disjoint_bot_left

end

/-! ## What a server finds -/

/-- The files that a server may find when it starts: none of its own, or what remains of
them from some moment of an earlier run for the same transfer. -/
inductive Remains (ctx : Context) (transfer : TransferSummary) : Disk → Prop
  | fresh {disk : Disk} (h : disk.versions = []) : Remains ctx transfer disk
  | left {streams : Nat → Option LaneStream} {stored : TransferSummary} {disk disk' : Disk}
      {cfg : Config Task Op Op.Reply (Tracked Task Point State) (Except String Unit)}
      (hdisk : Remains ctx transfer disk) (hstored : SameTransfer transfer stored)
      (hreaches : RunsTo (unreliable ctx transfer streams) (fun _ _ _ _ => True)
        (starting (unreliable ctx transfer streams) stored disk) cfg)
      (hversions : ∀ found ∈ disk'.versions, found ∈ cfg.shared.shared.disk.versions) :
      Remains ctx transfer disk'

theorem storedWf_start {setup : Setup} {stored : TransferSummary} {disk : Disk}
    (h : ∀ found ∈ disk.versions, setup.WfCheckpoint found) :
    setup.StoredWf ⟨start stored disk, startPoint⟩ where
  versions := h
  loaded u found hfound := by
    cases u <;> cases hfound

theorem not_live_start {setup : Setup} {stored : TransferSummary} {disk : Disk} (i resume : Nat) :
    ¬ setup.LiveAt ⟨start stored disk, startPoint⟩ i resume := by
  rintro ⟨-, h | ⟨args, h, -⟩⟩ <;> cases h

theorem inRange_start {setup : Setup} {stored : TransferSummary} {disk : Disk}
    (h : ∀ found ∈ disk.versions, setup.WfCheckpoint found) :
    setup.InRange ⟨start stored disk, startPoint⟩ where
  leased := held_start.leased
  stored := storedWf_start h
  admitted _ _ _ hlease := hlease.elim
  range i _ resume _ hlive := absurd hlive (not_live_start i resume)

/-- The checkpoints that a server finds are well formed. -/
theorem Remains.wf {ctx : Context} {transfer : TransferSummary} {disk : Disk}
    (h : Remains ctx transfer disk) :
    ∀ found ∈ disk.versions, ∃ lanes, found.Wf transfer.fileSizeBytes lanes := by
  induction h with
  | fresh h => simp [h]
  | @left streams stored disk disk' cfg _ hstored hreaches hversions ih =>
    have hwf : (unreliable ctx transfer streams).StoredWf cfg.shared := by
      refine (reaches_invariant trivial ?_ hstored (storedWf_start ih) hreaches).2.2
      intro s t stream o c r s' _ h _ henabled _ hexec
      exact h.step henabled hexec
    exact fun found hfound => hwf.versions found (hversions found hfound)

/-- **The ranges of live streams are disjoint** in runs that keep them apart. -/
theorem live_ranges_disjoint (ctx : Context) (transfer : TransferSummary)
    (streams : Nat → Option LaneStream) {disk : Disk} (hdisk : Remains ctx transfer disk)
    {cfg : Config Task Op Op.Reply (Tracked Task Point State) (Except String Unit)}
    (hreaches : RunsTo (unreliable ctx transfer streams)
      (unreliable ctx transfer streams).KeepsApart
      (starting (unreliable ctx transfer streams) transfer disk) cfg) :
    (unreliable ctx transfer streams).LiveDisjoint cfg.shared := by
  have hapart : (unreliable ctx transfer streams).Apart cfg.shared := by
    refine (reaches_invariant trivial ?_ (sameTransfer_refl transfer) ?_ hreaches).2.2
    · intro s t stream o c r s' _ h hstream henabled hallowed hexec
      exact h.step hstream henabled hallowed hexec
    · exact ⟨inRange_start hdisk.wf, fun i _ _ _ resume _ _ _ _ h => absurd h (not_live_start _ _)⟩
  exact hapart.disjoint

/-! ## Samples -/

namespace Scenario

/-- A stream of the whole file, and one of the second lane of two. -/
def mixed : Setup :=
  unreliable ctx (transfer [7, 8] true .queued) fun i => [lane [7, 8] 1 0, lane [7, 8] 2 1][i]?

/-- The writer of a stream runs, and started at an offset. -/
def writesFrom (s : State) (i resume : Nat) : Bool :=
  match s.writers i with
  | .running args => args.resumeOffset = resume
  | _ => false

theorem running_of_writesFrom {s : State} {i resume : Nat} (h : writesFrom s i resume = true) :
    ∃ args, s.writers i = .running args ∧ args.resumeOffset = resume := by
  unfold writesFrom at h
  split at h
  · rename_i args hw
    exact ⟨args, hw, of_decide_eq_true h⟩
  · cases h

theorem liveAt_of_writesFrom {setup : Setup} {s : Tracked Task Point State} {i resume : Nat}
    (hdisk : setup.discards = false) (h : writesFrom s.shared i resume = true) :
    setup.LiveAt s i resume :=
  ⟨hdisk, .inr (running_of_writesFrom h)⟩

end Scenario

open Scenario in
/-- The writer of the whole file and that of the second half run at once: both are going to
write the last byte. -/
theorem live_ranges_overlap :
    ∃ cfg, RunsTo mixed (fun _ _ _ _ => True)
        (starting mixed (transfer [7, 8] true .queued) noFiles) cfg ∧
      ¬ mixed.LiveDisjoint cfg.shared := by
  have hrun : ((starting mixed (transfer [7, 8] true .queued) noFiles).runIf
      (machine.track (protocol mixed)) (fun _ _ _ _ => true)
      (turns [(.handler 0, 10), (.handler 1, 17)])).any
      (fun cfg => writesFrom cfg.shared.shared 0 0 && writesFrom cfg.shared.shared 1 1) = true := by
    decide +kernel
  obtain ⟨cfg, hto, hwriters⟩ := Config.reaches_of_runIf_any (fun _ _ _ _ _ => trivial) hrun
  obtain ⟨hfirst, hsecond⟩ := Bool.and_eq_true_iff.1 hwriters
  have hdisk : mixed.discards = false := by decide +kernel
  refine ⟨cfg, hto, fun h => ?_⟩
  have hdisjoint := h 0 1 _ _ 0 1 (by decide) rfl rfl (liveAt_of_writesFrom hdisk hfirst)
    (liveAt_of_writesFrom hdisk hsecond)
  exact Set.disjoint_left.1 hdisjoint (show 1 ∈ Set.Ico 0 2 from ⟨by decide, by decide⟩)
    (show 1 ∈ Set.Ico 1 2 from ⟨by decide, by decide⟩)

open Scenario in
/-- Both lanes of two are being written. -/
theorem live_ranges_disjoint_sample :
    ∃ cfg, RunsTo twoLanes twoLanes.KeepsApart
        (starting twoLanes (transfer [7, 8] true .queued) noFiles) cfg ∧
      (writesFrom cfg.shared.shared 0 0 && writesFrom cfg.shared.shared 1 1) = true ∧
      twoLanes.LiveDisjoint cfg.shared := by
  have hstreams : ∀ i stream, twoLanes.streams i = some stream →
      stream.request.laneIndex = i ∧ requestedLanes stream.request = 2 := by
    rintro (_ | _ | i) stream h
    · cases h
      exact ⟨rfl, rfl⟩
    · cases h
      exact ⟨rfl, rfl⟩
    · cases h
  have hstep : ∀ s t o c, true = true → twoLanes.KeepsApart s t o c := by
    intro s t o c _ _ j stream stream' resume hne hstream hstream' _ _
    obtain ⟨hlane, hlanes⟩ := hstreams _ _ hstream
    obtain ⟨hlane', hlanes'⟩ := hstreams _ _ hstream'
    exact ⟨hlanes'.trans hlanes.symm, fun heq => absurd (by rw [← hlane', heq, hlane]) hne⟩
  have hrun : ((starting twoLanes (transfer [7, 8] true .queued) noFiles).runIf
      (machine.track (protocol twoLanes)) (fun _ _ _ _ => true)
      (turns [(.handler 0, 17), (.handler 1, 17)])).any
      (fun cfg => writesFrom cfg.shared.shared 0 0 && writesFrom cfg.shared.shared 1 1) = true := by
    decide +kernel
  obtain ⟨cfg, hto, hwriters⟩ := Config.reaches_of_runIf_any hstep hrun
  exact ⟨cfg, hto, hwriters, live_ranges_disjoint _ _ _ (.fresh rfl) hto⟩

end Metra.Server
