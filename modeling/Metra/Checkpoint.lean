import Metra.Ranges

/-!
# The checkpoint of a striped transfer

What the server records of the lanes of a striped transfer: for each lane its
range and the offset up to which its data is durable.

* `TransferCheckpoint.Wf` — the representation invariant: the lanes are those of
  `split_ranges`, each offset lies in its lane and is a fixed point of
  `durable_resume_offset`;
* `wf_newCheckpoint`, `Wf.roundLane` and `Wf.advanceLane` — the only ways a
  checkpoint is made keep it, and `advanceLane_extends` says that no offset ever
  goes back;
* `Wf.totalTransferred_le` and `Wf.allLanesComplete_iff` — the byte total shown
  to users and the test for completion agree.

`ofOffsets` is the checkpoint whose lanes have given offsets; every well-formed
checkpoint is one (`Wf.eq_ofOffsets`), so the proofs are about functions from
lanes to offsets.
-/

namespace Metra

/-- How far a lane has come: the bytes of its range before `offset` are on disk. -/
structure LaneCheckpoint where
  laneIndex : Nat
  rangeStart : Nat
  rangeEndExclusive : Nat
  offset : Nat
  deriving DecidableEq

/-- The checkpoint of a transfer: how far each of its lanes has come. -/
structure TransferCheckpoint where
  transferId : Uuid
  fileSizeBytes : Nat
  totalLanes : Nat
  lanes : List LaneCheckpoint
  deriving DecidableEq

namespace TransferCheckpoint

/-- The sum is one of `u64`: past its end it wraps around, as it does without overflow checks. -/
def totalTransferred (c : TransferCheckpoint) : Nat :=
  (c.lanes.map fun lane => lane.offset - lane.rangeStart).sum % 2 ^ 64

/-- Every lane has come to the end of its range. -/
def allLanesComplete (c : TransferCheckpoint) : Bool :=
  c.lanes.all fun lane => lane.offset ≥ lane.rangeEndExclusive

/-- The lane `lane_mut` gives access to: the first with the index. -/
def lane? (c : TransferCheckpoint) (laneIndex : Nat) : Option LaneCheckpoint :=
  c.lanes.find? fun lane => lane.laneIndex == laneIndex

/-- Write back the lane `lane_mut` gave access to. -/
def putLaneIn (lane : LaneCheckpoint) : List LaneCheckpoint → List LaneCheckpoint
  | [] => []
  | l :: ls => if l.laneIndex == lane.laneIndex then lane :: ls else l :: putLaneIn lane ls

/-- Replace the entry of a lane. -/
def putLane (c : TransferCheckpoint) (lane : LaneCheckpoint) : TransferCheckpoint :=
  { c with lanes := putLaneIn lane c.lanes }

/-- A checkpoint fits an open message when it is of the same size and number of lanes and has the
lane with the same range. -/
def validateLayout (c : TransferCheckpoint)
    (fileSizeBytes totalLanes rangeStart rangeEndExclusive laneIndex : Nat) :
    Except String Unit :=
  if c.fileSizeBytes ≠ fileSizeBytes then
    .error s!"checkpoint file size mismatch: {c.fileSizeBytes} != {fileSizeBytes}"
  else if c.totalLanes ≠ totalLanes then
    .error s!"checkpoint lane count mismatch: {c.totalLanes} != {totalLanes}"
  else
    match c.lane? laneIndex with
    | none => .error s!"checkpoint missing lane {laneIndex}"
    | some lane =>
      if lane.rangeStart ≠ rangeStart ∨ lane.rangeEndExclusive ≠ rangeEndExclusive then
        .error (s!"checkpoint lane range mismatch: lane {laneIndex} expected " ++
          s!"{rangeStart}..{rangeEndExclusive} found " ++
          s!"{lane.rangeStart}..{lane.rangeEndExclusive}")
      else .ok ()

/-- What `load_or_init_lane_resume` does with a checkpoint: round the lane's
offset, and give it together with the checkpoint to store. -/
def roundLane (c : TransferCheckpoint) (laneIndex : Nat) : Option (Nat × TransferCheckpoint) :=
  (c.lane? laneIndex).map fun lane =>
    let offset := durableResumeOffset lane.offset lane.rangeStart lane.rangeEndExclusive
    (offset, c.putLane { lane with offset := offset })

/-- What `update_checkpoint_offset` does with a checkpoint: merge the rounded new
offset into the lane's. -/
def advanceLane (c : TransferCheckpoint) (laneIndex newOffset : Nat) :
    Option TransferCheckpoint :=
  (c.lane? laneIndex).map fun lane =>
    let durableOffset := durableResumeOffset newOffset lane.rangeStart lane.rangeEndExclusive
    c.putLane { lane with offset := max lane.offset durableOffset }

end TransferCheckpoint

/-- The checkpoint of a transfer of which nothing has been received. -/
def newCheckpoint (transferId : Uuid) (fileSizeBytes totalLanes : Nat) : TransferCheckpoint where
  transferId := transferId
  fileSizeBytes := fileSizeBytes
  totalLanes := totalLanes
  lanes := (splitRanges fileSizeBytes totalLanes).mapIdx fun laneIndex range =>
    { laneIndex := laneIndex, rangeStart := range.1, rangeEndExclusive := range.2,
      offset := range.1 }

namespace TransferCheckpoint

/-! ## The representation invariant -/

/-- The lanes are those of `split_ranges`, with durable offsets inside them. -/
structure Wf (size lanes : Nat) (c : TransferCheckpoint) : Prop where
  fileSizeBytes : c.fileSizeBytes = size
  totalLanes : c.totalLanes = lanes
  ranges : c.lanes.map (fun lane => (lane.rangeStart, lane.rangeEndExclusive)) =
    splitRanges size lanes
  indices : c.lanes.map LaneCheckpoint.laneIndex = List.range lanes
  offset_mem : ∀ lane ∈ c.lanes,
    lane.rangeStart ≤ lane.offset ∧ lane.offset ≤ lane.rangeEndExclusive
  durable : ∀ lane ∈ c.lanes,
    durableResumeOffset lane.offset lane.rangeStart lane.rangeEndExclusive = lane.offset

/-- `c'` has the lanes of `c`, none of them with a smaller offset. -/
def Extends (c c' : TransferCheckpoint) : Prop :=
  List.Forall₂ (fun lane lane' => lane'.laneIndex = lane.laneIndex ∧
    lane'.rangeStart = lane.rangeStart ∧ lane'.rangeEndExclusive = lane.rangeEndExclusive ∧
    lane.offset ≤ lane'.offset) c.lanes c'.lanes

/-! ## Checkpoints as functions from lanes to offsets -/

/-- Lane `i` with a given offset. -/
def laneAt (size lanes : Nat) (offsets : Nat → Nat) (i : Nat) : LaneCheckpoint where
  laneIndex := i
  rangeStart := laneStart size lanes i
  rangeEndExclusive := laneStart size lanes (i + 1)
  offset := offsets i

/-- The checkpoint with the lanes of `split_ranges` and the given offsets. -/
def ofOffsets (transferId : Uuid) (size lanes : Nat) (offsets : Nat → Nat) :
    TransferCheckpoint where
  transferId := transferId
  fileSizeBytes := size
  totalLanes := lanes
  lanes := (List.range lanes).map (laneAt size lanes offsets)

variable {transferId : Uuid} {size lanes : Nat} {offsets offsets' : Nat → Nat}

/-- Only the offsets of the lanes matter. -/
theorem ofOffsets_congr (h : ∀ i < lanes, offsets i = offsets' i) :
    ofOffsets transferId size lanes offsets = ofOffsets transferId size lanes offsets' := by
  unfold ofOffsets
  congr 1
  refine List.map_congr_left fun i hi => ?_
  rw [laneAt, laneAt, h i (List.mem_range.1 hi)]

theorem newCheckpoint_eq (transferId : Uuid) (size lanes : Nat) :
    newCheckpoint transferId size lanes =
      ofOffsets transferId size lanes (laneStart size lanes) := by
  simp only [newCheckpoint, ofOffsets, splitRanges_eq]
  congr 1
  refine List.ext_getElem? fun i => ?_
  simp only [List.getElem?_mapIdx, List.getElem?_map]
  by_cases hi : i < lanes
  · simp [hi, laneAt]
  · simp [hi]

theorem mem_lanes_ofOffsets {lane : LaneCheckpoint} :
    lane ∈ (ofOffsets transferId size lanes offsets).lanes ↔
      ∃ i < lanes, lane = laneAt size lanes offsets i := by
  simp [ofOffsets, eq_comm]

theorem lane?_ofOffsets {i : Nat} (h : i < lanes) :
    (ofOffsets transferId size lanes offsets).lane? i = some (laneAt size lanes offsets i) := by
  rw [lane?, List.find?_eq_some_iff_getElem]
  refine ⟨by simp [laneAt], i, by simpa [ofOffsets] using h, by simp [ofOffsets], ?_⟩
  intro j hj
  have : j ≠ i := by omega
  simpa [ofOffsets, laneAt] using this

theorem lane?_ofOffsets_of_le {i : Nat} (h : lanes ≤ i) :
    (ofOffsets transferId size lanes offsets).lane? i = none := by
  rw [lane?, List.find?_eq_none]
  intro lane hlane
  obtain ⟨j, hj, rfl⟩ := mem_lanes_ofOffsets.1 hlane
  have : j ≠ i := by omega
  simpa [laneAt] using this

theorem putLaneIn_map_range' (offsets : Nat → Nat) (i o : Nat) :
    ∀ count start, putLaneIn { laneAt size lanes offsets i with offset := o }
        ((List.range' start count).map (laneAt size lanes offsets)) =
      (List.range' start count).map (laneAt size lanes (Function.update offsets i o)) := by
  intro count
  induction count with
  | zero => intro start; rfl
  | succ count ih =>
    intro start
    rw [List.range'_succ, List.map_cons, List.map_cons, putLaneIn]
    by_cases h : start = i
    · subst h
      have htail : ∀ j ∈ List.range' (start + 1) count,
          laneAt size lanes offsets j =
            laneAt size lanes (Function.update offsets start o) j := by
        intro j hj
        have hne : j ≠ start := by
          have := List.mem_range'_1.1 hj
          omega
        simp [laneAt, Function.update_of_ne hne]
      rw [if_pos (by simp [laneAt]), List.map_congr_left htail]
      simp [laneAt]
    · rw [if_neg (by simpa [laneAt] using h), ih (start + 1)]
      simp [laneAt, Function.update_of_ne h]

theorem putLane_ofOffsets (i o : Nat) :
    (ofOffsets transferId size lanes offsets).putLane
        { laneAt size lanes offsets i with offset := o } =
      ofOffsets transferId size lanes (Function.update offsets i o) := by
  simp only [putLane, ofOffsets, List.range_eq_range']
  rw [putLaneIn_map_range']

/-- The lane that was put back is the one found. -/
theorem find?_putLaneIn {lane : LaneCheckpoint} :
    ∀ {lanes : List LaneCheckpoint} {old : LaneCheckpoint},
      lanes.find? (fun l => l.laneIndex == lane.laneIndex) = some old →
      (putLaneIn lane lanes).find? (fun l => l.laneIndex == lane.laneIndex) = some lane := by
  intro lanes
  induction lanes with
  | nil => intro old h; cases h
  | cons head tail ih =>
    intro old h
    by_cases hhead : (head.laneIndex == lane.laneIndex) = true
    · simp [putLaneIn, hhead]
    · rw [Bool.not_eq_true] at hhead
      rw [List.find?_cons_of_neg (by simp [hhead])] at h
      simp [putLaneIn, hhead, ih h]

theorem lane?_putLane {c : TransferCheckpoint} {lane old : LaneCheckpoint}
    (h : c.lane? lane.laneIndex = some old) :
    (c.putLane lane).lane? lane.laneIndex = some lane := find?_putLaneIn h

/-- The lanes with another index stay. -/
theorem find?_putLaneIn_of_ne {lane : LaneCheckpoint} {i : Nat} (hne : lane.laneIndex ≠ i)
    (lanes : List LaneCheckpoint) :
    (putLaneIn lane lanes).find? (fun l => l.laneIndex == i) =
      lanes.find? fun l => l.laneIndex == i := by
  induction lanes with
  | nil => rfl
  | cons head tail ih =>
    rw [putLaneIn]
    split
    · rename_i hhead
      rw [List.find?_cons_of_neg (by simpa using hne),
        List.find?_cons_of_neg (by simpa [eq_of_beq hhead] using hne)]
    · rw [List.find?_cons, List.find?_cons, ih]

theorem laneIndex_of_lane? {c : TransferCheckpoint} {i : Nat} {lane : LaneCheckpoint}
    (h : c.lane? i = some lane) : lane.laneIndex = i := by
  have := List.find?_some h
  simpa using this

/-- The lane that `load_or_init_lane_resume` stores has the resume offset. -/
theorem lane?_of_roundLane {c c' : TransferCheckpoint} {i r : Nat}
    (h : c.roundLane i = some (r, c')) : ∃ lane, c'.lane? i = some lane ∧ lane.offset = r := by
  obtain ⟨lane, hlane, heq⟩ := Option.map_eq_some_iff.1 h
  cases heq
  have hindex := laneIndex_of_lane? hlane
  subst hindex
  exact ⟨_, lane?_putLane hlane, rfl⟩

/-- `c'` is what opening or advancing one of its lanes makes of `c`. -/
def Touches (c c' : TransferCheckpoint) : Prop :=
  ∃ i, (∃ r, c.roundLane i = some (r, c')) ∨ ∃ offset, c.advanceLane i offset = some c'

/-- No lane's range changes. -/
theorem Touches.range {c c' : TransferCheckpoint} (h : c.Touches c') {i : Nat}
    {lane : LaneCheckpoint} (hlane : c.lane? i = some lane) :
    ∃ lane', c'.lane? i = some lane' ∧ lane'.rangeStart = lane.rangeStart ∧
      lane'.rangeEndExclusive = lane.rangeEndExclusive := by
  obtain ⟨old, new, hold, hstart, hend, rfl⟩ : ∃ old new : LaneCheckpoint,
      c.lane? new.laneIndex = some old ∧ new.rangeStart = old.rangeStart ∧
      new.rangeEndExclusive = old.rangeEndExclusive ∧
      c' = c.putLane new := by
    obtain ⟨j, ⟨r, hround⟩ | ⟨offset, hadvance⟩⟩ := h
    · obtain ⟨old, hold, heq⟩ := Option.map_eq_some_iff.1 hround
      cases heq
      have hindex := laneIndex_of_lane? hold
      subst hindex
      exact ⟨old, { old with offset := durableResumeOffset old.offset _ _ }, hold, rfl, rfl, rfl⟩
    · obtain ⟨old, hold, rfl⟩ := Option.map_eq_some_iff.1 hadvance
      have hindex := laneIndex_of_lane? hold
      subst hindex
      exact ⟨old, { old with offset := max old.offset (durableResumeOffset offset _ _) }, hold, rfl,
        rfl, rfl⟩
  by_cases hi : new.laneIndex = i
  · subst hi
    rw [← Option.some.inj (hold.symm.trans hlane)]
    exact ⟨new, lane?_putLane hold, hstart, hend⟩
  · exact ⟨lane, (find?_putLaneIn_of_ne hi c.lanes).trans hlane, rfl, rfl⟩

/-- Whatever lanes are opened and advanced, a lane keeps its range. -/
theorem range_of_touched {c c' : TransferCheckpoint} {i rangeStart rangeEnd : Nat}
    (hlane : ∃ lane, c.lane? i = some lane ∧ lane.rangeStart = rangeStart ∧
      lane.rangeEndExclusive = rangeEnd) (h : Relation.ReflTransGen Touches c c') :
    ∃ lane, c'.lane? i = some lane ∧ lane.rangeStart = rangeStart ∧
      lane.rangeEndExclusive = rangeEnd := by
  induction h with
  | refl => exact hlane
  | tail _ htouch ih =>
    obtain ⟨lane, hfound, hstart, hend⟩ := ih
    obtain ⟨lane', hlane', hstart', hend'⟩ := htouch.range hfound
    exact ⟨lane', hlane', hstart'.trans hstart, hend'.trans hend⟩

theorem totalTransferred_ofOffsets :
    (ofOffsets transferId size lanes offsets).totalTransferred =
      (∑ i ∈ Finset.range lanes, (offsets i - laneStart size lanes i)) % 2 ^ 64 := by
  simp only [totalTransferred, ofOffsets, List.map_map, Function.comp_def, laneAt]
  rfl

theorem allLanesComplete_ofOffsets :
    (ofOffsets transferId size lanes offsets).allLanesComplete = true ↔
      ∀ i < lanes, laneStart size lanes (i + 1) ≤ offsets i := by
  simp only [allLanesComplete, List.all_eq_true, decide_eq_true_eq]
  constructor
  · intro h i hi
    exact h _ (mem_lanes_ofOffsets.2 ⟨i, hi, rfl⟩)
  · intro h lane hlane
    obtain ⟨i, hi, rfl⟩ := mem_lanes_ofOffsets.1 hlane
    exact h i hi

theorem validateLayout_ofOffsets {i : Nat} (h : i < lanes) :
    (ofOffsets transferId size lanes offsets).validateLayout size lanes
      (laneStart size lanes i) (laneStart size lanes (i + 1)) i = .ok () := by
  simp only [validateLayout, lane?_ofOffsets h]
  simp [ofOffsets, laneAt]

/-- An accepted layout is that of a lane of the checkpoint. -/
theorem of_validateLayout {c : TransferCheckpoint}
    {fileSize total rangeStart rangeEnd laneIndex : Nat}
    (h : c.validateLayout fileSize total rangeStart rangeEnd laneIndex = .ok ()) :
    c.fileSizeBytes = fileSize ∧ c.totalLanes = total ∧
      ∃ lane, c.lane? laneIndex = some lane ∧ lane.rangeStart = rangeStart ∧
        lane.rangeEndExclusive = rangeEnd := by
  unfold validateLayout at h
  split at h
  · cases h
  rename_i hsize
  split at h
  · cases h
  rename_i htotal
  split at h
  · cases h
  rename_i lane hlane
  split at h
  · cases h
  rename_i hrange
  push Not at hsize htotal hrange
  exact ⟨hsize, htotal, lane, hlane, hrange⟩

theorem extends_ofOffsets :
    (ofOffsets transferId size lanes offsets).Extends
        (ofOffsets transferId size lanes offsets') ↔ ∀ i < lanes, offsets i ≤ offsets' i := by
  simp [Extends, ofOffsets, List.forall₂_map_left_iff, List.forall₂_map_right_iff,
    List.forall₂_same, laneAt]

/-! ## Well-formed checkpoints -/

/-- Offsets that lie in their lanes and are durable. -/
structure DurableOffsets (size lanes : Nat) (offsets : Nat → Nat) : Prop where
  le : ∀ i < lanes, laneStart size lanes i ≤ offsets i
  ge : ∀ i < lanes, offsets i ≤ laneStart size lanes (i + 1)
  fixed : ∀ i < lanes,
    durableResumeOffset (offsets i) (laneStart size lanes i) (laneStart size lanes (i + 1)) =
      offsets i

theorem DurableOffsets.wf (h : DurableOffsets size lanes offsets) :
    (ofOffsets transferId size lanes offsets).Wf size lanes where
  fileSizeBytes := rfl
  totalLanes := rfl
  ranges := by simp [ofOffsets, laneAt, splitRanges_eq]
  indices := by
    refine List.ext_getElem? fun i => ?_
    by_cases hi : i < lanes <;> simp [ofOffsets, laneAt, hi]
  offset_mem := by
    intro lane hlane
    obtain ⟨i, hi, rfl⟩ := mem_lanes_ofOffsets.1 hlane
    exact ⟨h.le i hi, h.ge i hi⟩
  durable := by
    intro lane hlane
    obtain ⟨i, hi, rfl⟩ := mem_lanes_ofOffsets.1 hlane
    exact h.fixed i hi

/-- Every well-formed checkpoint is given by its offsets. -/
theorem Wf.eq_ofOffsets {c : TransferCheckpoint} (h : c.Wf size lanes) :
    ∃ offsets, c = ofOffsets c.transferId size lanes offsets ∧
      DurableOffsets size lanes offsets := by
  have hlen : c.lanes.length = lanes := by
    have := congrArg List.length h.indices
    simpa using this
  let offsets : Nat → Nat := fun i => (c.lanes[i]?.map LaneCheckpoint.offset).getD 0
  have hlane : ∀ i < lanes, c.lanes[i]? = some (laneAt size lanes offsets i) := by
    intro i hi
    obtain ⟨lane, hl⟩ : ∃ lane, c.lanes[i]? = some lane := by
      rw [List.getElem?_eq_getElem (by omega)]
      exact ⟨_, rfl⟩
    have hr : (lane.rangeStart, lane.rangeEndExclusive) =
        (laneStart size lanes i, laneStart size lanes (i + 1)) := by
      have := congrArg (fun l => l[i]?) h.ranges
      simpa [hl, getElem?_splitRanges hi] using this
    have hi' : lane.laneIndex = i := by
      have := congrArg (fun l => l[i]?) h.indices
      simpa [hl, hi] using this
    have ho : offsets i = lane.offset := by simp [offsets, hl]
    rw [hl, laneAt, ho]
    obtain ⟨idx, rs, re, off⟩ := lane
    simp only [Prod.mk.injEq] at hr hi'
    rw [hr.1, hr.2, hi']
  have heq : c = ofOffsets c.transferId size lanes offsets := by
    have hlanes : c.lanes = (List.range lanes).map (laneAt size lanes offsets) := by
      refine List.ext_getElem? fun i => ?_
      by_cases hi : i < lanes
      · rw [hlane i hi]
        simp [hi]
      · rw [List.getElem?_eq_none (by omega), List.getElem?_eq_none (by simpa using hi)]
    rw [ofOffsets, ← hlanes, ← h.fileSizeBytes, ← h.totalLanes]
  have hmem : ∀ i < lanes, laneAt size lanes offsets i ∈ c.lanes :=
    fun i hi => List.mem_of_getElem? (hlane i hi)
  exact ⟨offsets, heq, fun i hi => (h.offset_mem _ (hmem i hi)).1,
    fun i hi => (h.offset_mem _ (hmem i hi)).2, fun i hi => h.durable _ (hmem i hi)⟩

/-- A fresh checkpoint is well formed. -/
theorem wf_newCheckpoint (transferId : Uuid) (size lanes : Nat) :
    (newCheckpoint transferId size lanes).Wf size lanes := by
  rw [newCheckpoint_eq]
  refine DurableOffsets.wf ⟨fun i _ => le_rfl, fun i _ => laneStart_le_succ size lanes i,
    fun i _ => durableResumeOffset_start (laneStart_le_succ size lanes i)⟩

/-- Rounding the offset of a lane of a well-formed checkpoint changes nothing. -/
theorem roundLane_ofOffsets {i : Nat} (h : DurableOffsets size lanes offsets) (hi : i < lanes) :
    (ofOffsets transferId size lanes offsets).roundLane i =
      some (offsets i, ofOffsets transferId size lanes offsets) := by
  have hput : (ofOffsets transferId size lanes offsets).putLane
      { laneAt size lanes offsets i with offset := offsets i } =
      ofOffsets transferId size lanes offsets := by
    rw [putLane_ofOffsets, Function.update_eq_self]
  have hfix : durableResumeOffset (laneAt size lanes offsets i).offset
      (laneAt size lanes offsets i).rangeStart (laneAt size lanes offsets i).rangeEndExclusive =
      offsets i := h.fixed i hi
  simp only [roundLane, lane?_ofOffsets hi, Option.map_some, hfix, hput]

/-- Where advancing a lane of a checkpoint leads. -/
theorem advanceLane_ofOffsets {i newOffset : Nat} (hi : i < lanes) :
    (ofOffsets transferId size lanes offsets).advanceLane i newOffset =
      some (ofOffsets transferId size lanes (Function.update offsets i
        (max (offsets i) (durableResumeOffset newOffset (laneStart size lanes i)
          (laneStart size lanes (i + 1)))))) := by
  simp only [advanceLane, lane?_ofOffsets hi, Option.map_some]
  rw [← putLane_ofOffsets]
  rfl

theorem DurableOffsets.advance (h : DurableOffsets size lanes offsets) (i newOffset : Nat) :
    DurableOffsets size lanes (Function.update offsets i
      (max (offsets i) (durableResumeOffset newOffset (laneStart size lanes i)
        (laneStart size lanes (i + 1))))) := by
  have hle := laneStart_le_succ size lanes i
  have hmem : laneStart size lanes i ≤ durableResumeOffset newOffset (laneStart size lanes i)
        (laneStart size lanes (i + 1)) ∧
      durableResumeOffset newOffset (laneStart size lanes i) (laneStart size lanes (i + 1)) ≤
        laneStart size lanes (i + 1) := durableResumeOffset_mem hle
  refine ⟨fun j hj => ?_, fun j hj => ?_, fun j hj => ?_⟩ <;> by_cases hji : j = i
  · subst hji
    rw [Function.update_self]
    exact le_trans hmem.1 (le_max_right _ _)
  · rw [Function.update_of_ne hji]
    exact h.le j hj
  · subst hji
    rw [Function.update_self]
    exact max_le (h.ge j hj) hmem.2
  · rw [Function.update_of_ne hji]
    exact h.ge j hj
  · subst hji
    rw [Function.update_self]
    rcases max_choice (offsets j) (durableResumeOffset newOffset (laneStart size lanes j)
        (laneStart size lanes (j + 1))) with hmax | hmax
    · rw [hmax]
      exact h.fixed j hj
    · rw [hmax]
      exact durableResumeOffset_idem hle
  · rw [Function.update_of_ne hji]
    exact h.fixed j hj

variable {c c' : TransferCheckpoint}

theorem totalLanes_of_advanceLane {i newOffset : Nat} (ha : c.advanceLane i newOffset = some c') :
    c'.totalLanes = c.totalLanes := by
  obtain ⟨lane, -, rfl⟩ := Option.map_eq_some_iff.1 ha
  rfl

/-- What `load_or_init_lane_resume` stores is the checkpoint it found. -/
theorem Wf.roundLane_eq (h : c.Wf size lanes) {i o : Nat} (hr : c.roundLane i = some (o, c')) :
    c' = c ∧ ∃ lane, c.lane? i = some lane ∧ o = lane.offset := by
  obtain ⟨offsets, hc, hd⟩ := h.eq_ofOffsets
  rw [hc] at hr ⊢
  by_cases hi : i < lanes
  · rw [roundLane_ofOffsets hd hi] at hr
    cases hr
    exact ⟨rfl, _, lane?_ofOffsets hi, rfl⟩
  · rw [roundLane, lane?_ofOffsets_of_le (by omega)] at hr
    cases hr

/-- What `update_checkpoint_offset` stores is well formed. -/
theorem Wf.advanceLane (h : c.Wf size lanes) {i newOffset : Nat}
    (ha : c.advanceLane i newOffset = some c') : c'.Wf size lanes := by
  obtain ⟨offsets, hc, hd⟩ := h.eq_ofOffsets
  rw [hc] at ha
  by_cases hi : i < lanes
  · rw [advanceLane_ofOffsets hi] at ha
    cases ha
    exact (hd.advance i newOffset).wf
  · rw [TransferCheckpoint.advanceLane, lane?_ofOffsets_of_le (by omega)] at ha
    cases ha

/-- What `update_checkpoint_offset` stores has no smaller offset. -/
theorem Wf.advanceLane_extends (h : c.Wf size lanes) {i newOffset : Nat}
    (ha : c.advanceLane i newOffset = some c') : c.Extends c' := by
  obtain ⟨offsets, hc, hd⟩ := h.eq_ofOffsets
  rw [hc] at ha ⊢
  by_cases hi : i < lanes
  · rw [advanceLane_ofOffsets hi] at ha
    cases ha
    refine extends_ofOffsets.2 fun j hj => ?_
    by_cases hji : j = i
    · subst hji
      simp
    · simp [Function.update_of_ne hji]
  · rw [TransferCheckpoint.advanceLane, lane?_ofOffsets_of_le (by omega)] at ha
    cases ha

theorem extends_refl (c : TransferCheckpoint) : c.Extends c :=
  List.forall₂_same.2 fun _ _ => ⟨rfl, rfl, rfl, le_rfl⟩

theorem forall₂_trans {α : Type} {R : α → α → Prop} (hR : ∀ x y z, R x y → R y z → R x z) :
    ∀ {l₁ l₂ l₃ : List α}, List.Forall₂ R l₁ l₂ → List.Forall₂ R l₂ l₃ → List.Forall₂ R l₁ l₃
  | _, _, _, .nil, .nil => .nil
  | _, _, _, .cons h t, .cons h' t' => .cons (hR _ _ _ h h') (forall₂_trans hR t t')

theorem Extends.trans {c'' : TransferCheckpoint} (h : c.Extends c') (h' : c'.Extends c'') :
    c.Extends c'' := by
  refine forall₂_trans ?_ h h'
  rintro lane lane' lane'' ⟨hi, hs, he, ho⟩ ⟨hi', hs', he', ho'⟩
  exact ⟨hi'.trans hi, hs'.trans hs, he'.trans he, le_trans ho ho'⟩

/-- A later checkpoint has each lane, with an offset at least as large. -/
theorem Extends.lane? (h : c.Extends c') {i : Nat} {lane : LaneCheckpoint}
    (hlane : c.lane? i = some lane) : ∃ lane', c'.lane? i = some lane' ∧
      lane.offset ≤ lane'.offset := by
  unfold TransferCheckpoint.lane? at hlane ⊢
  unfold Extends at h
  revert hlane
  generalize c.lanes = lanes, c'.lanes = lanes' at h
  induction h with
  | nil => exact fun hlane => by cases hlane
  | @cons head head' tail tail' hhead _ ih =>
    intro hlane
    rw [List.find?_cons] at hlane ⊢
    rw [hhead.1]
    cases hi : head.laneIndex == i with
    | true =>
      rw [hi] at hlane
      cases hlane
      exact ⟨head', rfl, hhead.2.2.2⟩
    | false =>
      rw [hi] at hlane
      exact ih hlane

/-- The bytes before the offsets are at most those of the lanes. -/
theorem DurableOffsets.sum_le (h : DurableOffsets size lanes offsets) (hpos : 0 < lanes) :
    ∑ i ∈ Finset.range lanes, (offsets i - laneStart size lanes i) ≤ size := by
  calc ∑ i ∈ Finset.range lanes, (offsets i - laneStart size lanes i)
      ≤ ∑ i ∈ Finset.range lanes, (laneStart size lanes (i + 1) - laneStart size lanes i) := by
        refine Finset.sum_le_sum fun i hi => ?_
        have := h.ge i (Finset.mem_range.1 hi)
        omega
    _ = size := by rw [sum_laneLen, laneStart_self hpos]

/-- The byte total never exceeds the file size. -/
theorem Wf.totalTransferred_le (h : c.Wf size lanes) (hpos : 0 < lanes) :
    c.totalTransferred ≤ size := by
  obtain ⟨offsets, hc, hd⟩ := h.eq_ofOffsets
  rw [hc, totalTransferred_ofOffsets]
  exact (Nat.mod_le _ _).trans (hd.sum_le hpos)

/-- All lanes are complete exactly when the byte total is the file size. -/
theorem Wf.allLanesComplete_iff (h : c.Wf size lanes) (hpos : 0 < lanes)
    (hsize : size < 2 ^ 64) : c.allLanesComplete = true ↔ c.totalTransferred = size := by
  obtain ⟨offsets, hc, hd⟩ := h.eq_ofOffsets
  have hsum : ∑ i ∈ Finset.range lanes, (laneStart size lanes (i + 1) - laneStart size lanes i) =
      size := by rw [sum_laneLen, laneStart_self hpos]
  have hle : ∀ i ∈ Finset.range lanes, offsets i - laneStart size lanes i ≤
      laneStart size lanes (i + 1) - laneStart size lanes i := by
    intro i hi
    have := hd.ge i (Finset.mem_range.1 hi)
    omega
  have hiff := Finset.sum_eq_sum_iff_of_le hle
  rw [hsum] at hiff
  -- the sum does not wrap around
  have hlt := (hd.sum_le hpos).trans_lt hsize
  rw [hc, allLanesComplete_ofOffsets, totalTransferred_ofOffsets, Nat.mod_eq_of_lt hlt, hiff]
  constructor
  · intro hall i hi
    have h₁ := hall i (Finset.mem_range.1 hi)
    have h₂ := hd.ge i (Finset.mem_range.1 hi)
    omega
  · intro hall i hi
    have h₁ := hall i (Finset.mem_range.2 hi)
    have h₂ := hd.le i hi
    have h₃ := hd.ge i hi
    omega

/-! ## The positions that are recorded -/

/-- The position is recorded as durable. -/
def Records (c : TransferCheckpoint) (p : Nat) : Prop :=
  ∃ lane ∈ c.lanes, lane.rangeStart ≤ p ∧ p < lane.offset

theorem records_ofOffsets {p : Nat} : (ofOffsets transferId size lanes offsets).Records p ↔
    ∃ i < lanes, laneStart size lanes i ≤ p ∧ p < offsets i := by
  constructor
  · rintro ⟨lane, hlane, hp⟩
    obtain ⟨i, hi, rfl⟩ := mem_lanes_ofOffsets.1 hlane
    exact ⟨i, hi, hp⟩
  · rintro ⟨i, hi, hp⟩
    exact ⟨laneAt size lanes offsets i, mem_lanes_ofOffsets.2 ⟨i, hi, rfl⟩, hp⟩

theorem not_records_newCheckpoint {p : Nat} :
    ¬ (newCheckpoint transferId size lanes).Records p := by
  rw [newCheckpoint_eq, records_ofOffsets]
  rintro ⟨i, -, hle, hlt⟩
  omega

/-- Every position lies in a lane. -/
theorem exists_lane {p : Nat} (hp : p < size) (hpos : 0 < lanes) :
    ∃ i < lanes, laneStart size lanes i ≤ p ∧ p < laneStart size lanes (i + 1) := by
  have hall : ∀ n, p < laneStart size lanes n →
      ∃ i < n, laneStart size lanes i ≤ p ∧ p < laneStart size lanes (i + 1) := by
    intro n
    induction n with
    | zero =>
      intro h
      simp at h
    | succ n ih =>
      intro h
      by_cases hn : p < laneStart size lanes n
      · obtain ⟨i, hi, hlane⟩ := ih hn
        exact ⟨i, by omega, hlane⟩
      · exact ⟨n, Nat.lt_succ_self n, not_lt.1 hn, h⟩
  refine hall lanes ?_
  rw [laneStart_self hpos]
  exact hp

/-- A complete checkpoint records the whole file. -/
theorem Wf.records_of_complete (h : c.Wf size lanes) (hpos : 0 < lanes)
    (hcomplete : c.allLanesComplete = true) {p : Nat} (hp : p < size) : c.Records p := by
  obtain ⟨offsets, hc, -⟩ := h.eq_ofOffsets
  rw [hc] at hcomplete ⊢
  obtain ⟨i, hi, hle, hlt⟩ := exists_lane hp hpos
  have hend := allLanesComplete_ofOffsets.1 hcomplete i hi
  exact records_ofOffsets.2 ⟨i, hi, hle, by omega⟩

/-- What is recorded after a lane is advanced was recorded before, or lies in the lane before
the new offset. -/
theorem Wf.records_advanceLane (h : c.Wf size lanes) {i newOffset : Nat}
    (ha : c.advanceLane i newOffset = some c') {p : Nat} (hp : c'.Records p) :
    c.Records p ∨ laneStart size lanes i ≤ p ∧ p < newOffset := by
  obtain ⟨offsets, hc, -⟩ := h.eq_ofOffsets
  rw [hc] at ha ⊢
  by_cases hi : i < lanes
  · rw [advanceLane_ofOffsets hi] at ha
    cases ha
    obtain ⟨j, hj, hle, hlt⟩ := records_ofOffsets.1 hp
    by_cases hji : j = i
    · subst hji
      rw [Function.update_self] at hlt
      have hmax : durableResumeOffset newOffset (laneStart size lanes j)
          (laneStart size lanes (j + 1)) ≤ max newOffset (laneStart size lanes j) :=
        durableResumeOffset_le_max
      by_cases hold : p < offsets j
      · exact .inl (records_ofOffsets.2 ⟨j, hj, hle, hold⟩)
      · exact .inr ⟨hle, by omega⟩
    · rw [Function.update_of_ne hji] at hlt
      exact .inl (records_ofOffsets.2 ⟨j, hj, hle, hlt⟩)
  · rw [TransferCheckpoint.advanceLane, lane?_ofOffsets_of_le (by omega)] at ha
    cases ha

/-- A lane that is found records what lies before its offset. -/
theorem records_of_lane? {i : Nat} {lane : LaneCheckpoint} (hlane : c.lane? i = some lane) {p : Nat}
    (hle : lane.rangeStart ≤ p) (hlt : p < lane.offset) : c.Records p :=
  ⟨lane, List.mem_of_find?_eq_some hlane, hle, hlt⟩

end TransferCheckpoint

end Metra
