import Mathlib.Algebra.BigOperators.Group.Finset.Basic
import Mathlib.Algebra.Order.BigOperators.Group.Finset
import Mathlib.Tactic.Ring
import Metra.Proto

/-!
# Lane ranges and durable offsets

`splitRanges` divides a file among lanes and `durableResumeOffset` rounds an
offset down to what a resumed lane may start from.

* `getElem?_splitRanges` — the loop in closed form: lane `i` owns the positions
  from `laneStart i` up to `laneStart (i + 1)`;
* `sum_laneLen` — the lanes' lengths add up to the file size;
* `splitRanges_balanced` — the lanes are a balanced partition of the file, found
  without an addition that exceeds a `u64`;
* `durableResumeOffset_mem`, `durableResumeOffset_idem` and
  `durableResumeOffset_eq_end_iff` — the rounding stays in the range, is a
  projection, and reaches the end of the range only from there;
* `durableResumeOffset_safe` — these together, with monotonicity and how much is lost.
-/

namespace Metra

/-! ## Splitting a file among lanes -/

/-- The body of the `for lane in 0..lanes` loop of `split_ranges`, with `count`
iterations to go. -/
def splitRangesLoop (base remainder : Nat) : (count lane start : Nat) → List (Nat × Nat)
  | 0, _, _ => []
  | count + 1, lane, start =>
    let laneLen := base + if lane < remainder then 1 else 0
    (start, start + laneLen) :: splitRangesLoop base remainder count (lane + 1) (start + laneLen)

/-- The ranges of so many lanes, of which the first ones are longer by a byte where the size asks
for it. -/
def splitRanges (fileSizeBytes lanes : Nat) : List (Nat × Nat) :=
  splitRangesLoop (fileSizeBytes / lanes) (fileSizeBytes % lanes) lanes 0 0

/-- The client's own copy of `split_ranges`. -/
def Client.splitRanges (fileSizeBytes lanes : Nat) : List (Nat × Nat) :=
  splitRangesLoop (fileSizeBytes / lanes) (fileSizeBytes % lanes) lanes 0 0

theorem Client.splitRanges_eq (fileSizeBytes lanes : Nat) :
    Client.splitRanges fileSizeBytes lanes = Metra.splitRanges fileSizeBytes lanes := rfl

/-- Where lane `lane` of `lanes` starts. -/
def laneStart (fileSizeBytes lanes lane : Nat) : Nat :=
  lane * (fileSizeBytes / lanes) + min lane (fileSizeBytes % lanes)

variable {size lanes : Nat}

theorem laneStart_succ (size lanes lane : Nat) :
    laneStart size lanes (lane + 1) =
      laneStart size lanes lane + (size / lanes + if lane < size % lanes then 1 else 0) := by
  simp only [laneStart, Nat.succ_mul]
  split <;> omega

@[simp] theorem laneStart_zero (size lanes : Nat) : laneStart size lanes 0 = 0 := by
  simp [laneStart]

/-- The last lane ends where the file ends. -/
theorem laneStart_self (h : 0 < lanes) : laneStart size lanes lanes = size := by
  have hmod : size % lanes < lanes := Nat.mod_lt size h
  rw [laneStart, Nat.min_eq_right (by omega), Nat.div_add_mod]

theorem laneStart_le_succ (size lanes lane : Nat) :
    laneStart size lanes lane ≤ laneStart size lanes (lane + 1) := by
  rw [laneStart_succ]
  exact Nat.le_add_right _ _

theorem laneStart_mono {i j : Nat} (h : i ≤ j) :
    laneStart size lanes i ≤ laneStart size lanes j := by
  induction j, h using Nat.le_induction with
  | base => exact le_rfl
  | succ j _ ih => exact le_trans ih (laneStart_le_succ size lanes j)

theorem laneStart_le_size {lane : Nat} (h : lane ≤ lanes) : laneStart size lanes lane ≤ size := by
  rcases Nat.eq_zero_or_pos lanes with h0 | hpos
  · have : lane = 0 := by omega
    simp [this]
  · calc laneStart size lanes lane ≤ laneStart size lanes lanes := laneStart_mono h
      _ = size := laneStart_self hpos

/-- With at least one byte for every lane, no lane is empty. -/
theorem laneStart_lt_succ (hsize : lanes ≤ size) {lane : Nat} (h : lane < lanes) :
    laneStart size lanes lane < laneStart size lanes (lane + 1) := by
  have hbase : 0 < size / lanes := Nat.div_pos hsize (by omega)
  rw [laneStart_succ]
  omega

theorem splitRangesLoop_eq (size lanes : Nat) :
    ∀ count lane, splitRangesLoop (size / lanes) (size % lanes) count lane
        (laneStart size lanes lane) =
      (List.range' lane count).map fun i =>
        (laneStart size lanes i, laneStart size lanes (i + 1)) := by
  intro count
  induction count with
  | zero => intro lane; rfl
  | succ count ih =>
    intro lane
    rw [splitRangesLoop, List.range'_succ, List.map_cons, ← ih (lane + 1), laneStart_succ]

/-- `split_ranges` in closed form. -/
theorem splitRanges_eq (size lanes : Nat) :
    splitRanges size lanes =
      (List.range lanes).map fun i => (laneStart size lanes i, laneStart size lanes (i + 1)) := by
  have h := splitRangesLoop_eq size lanes lanes 0
  rw [laneStart_zero] at h
  rw [splitRanges, h, List.range_eq_range']

@[simp] theorem length_splitRanges (size lanes : Nat) :
    (splitRanges size lanes).length = lanes := by
  simp [splitRanges_eq]

theorem getElem?_splitRanges {i : Nat} (h : i < lanes) :
    (splitRanges size lanes)[i]? =
      some (laneStart size lanes i, laneStart size lanes (i + 1)) := by
  simp [splitRanges_eq, h]

/-- The lengths of the lanes add up to where the last one ends. -/
theorem sum_laneLen (size lanes k : Nat) :
    ∑ i ∈ Finset.range k, (laneStart size lanes (i + 1) - laneStart size lanes i) =
      laneStart size lanes k := by
  induction k with
  | zero => simp
  | succ k ih =>
    rw [Finset.sum_range_succ, ih]
    have := laneStart_le_succ size lanes k
    omega

/-! ## A balanced partition -/

/-- What a division of `size` bytes among `lanes` lanes should be. -/
structure BalancedPartition (size lanes : Nat) (ranges : List (Nat × Nat)) : Prop where
  length : ranges.length = lanes
  first : ranges.head?.map Prod.fst = some 0
  last : ranges.getLast?.map Prod.snd = some size
  contiguous : ∀ (i : Nat) (r r' : Nat × Nat),
    ranges[i]? = some r → ranges[i + 1]? = some r' → r'.1 = r.2
  ordered : ∀ r ∈ ranges, r.1 ≤ r.2 ∧ r.2 ≤ size
  covers : ∀ pos < size, ∃! i : Nat, ∃ r : Nat × Nat,
    ranges[i]? = some r ∧ r.1 ≤ pos ∧ pos < r.2
  balanced : ∀ (i j : Nat) (r r' : Nat × Nat), i ≤ j →
    ranges[i]? = some r → ranges[j]? = some r' →
    r'.2 - r'.1 ≤ r.2 - r.1 ∧ r.2 - r.1 ≤ r'.2 - r'.1 + 1
  nonempty : lanes ≤ size → ∀ r ∈ ranges, r.1 < r.2

/-- Which ranges there are. -/
theorem getElem?_splitRanges_eq_some {i : Nat} {r : Nat × Nat} :
    (splitRanges size lanes)[i]? = some r ↔
      i < lanes ∧ r = (laneStart size lanes i, laneStart size lanes (i + 1)) := by
  constructor
  · intro h
    have hi : i < lanes := by
      have := (List.getElem?_eq_some_iff.1 h).1
      rwa [length_splitRanges] at this
    rw [getElem?_splitRanges hi, Option.some.injEq] at h
    exact ⟨hi, h.symm⟩
  · rintro ⟨hi, rfl⟩
    exact getElem?_splitRanges hi

theorem mem_splitRanges {r : Nat × Nat} :
    r ∈ splitRanges size lanes ↔
      ∃ i < lanes, r = (laneStart size lanes i, laneStart size lanes (i + 1)) := by
  rw [List.mem_iff_getElem?]
  exact exists_congr fun i => getElem?_splitRanges_eq_some

theorem laneLen_eq (size lanes lane : Nat) :
    laneStart size lanes (lane + 1) - laneStart size lanes lane =
      size / lanes + if lane < size % lanes then 1 else 0 := by
  rw [laneStart_succ]
  exact Nat.add_sub_cancel_left _ _

/-- Every byte is in some lane. -/
theorem exists_lane_of_lt (k : Nat) {pos : Nat} (h : pos < laneStart size lanes k) :
    ∃ i < k, laneStart size lanes i ≤ pos ∧ pos < laneStart size lanes (i + 1) := by
  induction k with
  | zero => simp at h
  | succ k ih =>
    by_cases hk : pos < laneStart size lanes k
    · obtain ⟨i, hi, hin⟩ := ih hk
      exact ⟨i, by omega, hin⟩
    · exact ⟨k, by omega, not_lt.1 hk, h⟩

/-- No byte is in two lanes. -/
theorem lane_unique {pos i j : Nat}
    (hi : laneStart size lanes i ≤ pos) (hi' : pos < laneStart size lanes (i + 1))
    (hj : laneStart size lanes j ≤ pos) (hj' : pos < laneStart size lanes (j + 1)) : i = j := by
  rcases lt_trichotomy i j with hlt | heq | hgt
  · have := @laneStart_mono size lanes (i + 1) j hlt
    omega
  · exact heq
  · have := @laneStart_mono size lanes (j + 1) i hgt
    omega

theorem balancedPartition_splitRanges (h : 0 < lanes) :
    BalancedPartition size lanes (splitRanges size lanes) where
  length := length_splitRanges size lanes
  first := by
    rw [List.head?_eq_getElem?, getElem?_splitRanges h]
    simp
  last := by
    rw [List.getLast?_eq_getElem?, length_splitRanges, getElem?_splitRanges (by omega),
      Nat.sub_add_cancel h, laneStart_self h]
    rfl
  contiguous := by
    intro i r r' hr hr'
    obtain ⟨-, rfl⟩ := getElem?_splitRanges_eq_some.1 hr
    obtain ⟨-, rfl⟩ := getElem?_splitRanges_eq_some.1 hr'
    rfl
  ordered := by
    intro r hr
    obtain ⟨i, hi, rfl⟩ := mem_splitRanges.1 hr
    exact ⟨laneStart_le_succ size lanes i, laneStart_le_size hi⟩
  covers := by
    intro pos hpos
    rw [← @laneStart_self size lanes h] at hpos
    obtain ⟨i, hi, hlow, hhigh⟩ := exists_lane_of_lt lanes hpos
    refine ⟨i, ⟨_, getElem?_splitRanges hi, hlow, hhigh⟩, ?_⟩
    rintro j ⟨r, hr, hlow', hhigh'⟩
    obtain ⟨-, rfl⟩ := getElem?_splitRanges_eq_some.1 hr
    exact lane_unique hlow' hhigh' hlow hhigh
  balanced := by
    intro i j r r' hij hr hr'
    obtain ⟨-, rfl⟩ := getElem?_splitRanges_eq_some.1 hr
    obtain ⟨-, rfl⟩ := getElem?_splitRanges_eq_some.1 hr'
    -- the lanes that are a byte longer are the first `remainder` ones
    simp only [laneLen_eq]
    split_ifs <;> omega
  nonempty := by
    intro hsize r hr
    obtain ⟨i, hi, rfl⟩ := mem_splitRanges.1 hr
    exact laneStart_lt_succ hsize hi

/-! ## The additions of the loop -/

/-- An addition of two `u64`s, `none` when the sum is not one. -/
def addU64 (a b : Nat) : Option Nat := if a + b < 2 ^ 64 then some (a + b) else none

/-- `splitRangesLoop` with every addition checked. -/
def splitRangesLoopU64 (base remainder : Nat) :
    (count lane start : Nat) → Option (List (Nat × Nat))
  | 0, _, _ => some []
  | count + 1, lane, start => do
    let laneLen ← addU64 base (if lane < remainder then 1 else 0)
    let stop ← addU64 start laneLen
    let ranges ← splitRangesLoopU64 base remainder count (lane + 1) stop
    return (start, stop) :: ranges

/-- `split_ranges` on machine integers: a division by zero or an addition that
overflows is `none`. -/
def splitRangesU64 (fileSizeBytes lanes : Nat) : Option (List (Nat × Nat)) :=
  if lanes = 0 then none
  else splitRangesLoopU64 (fileSizeBytes / lanes) (fileSizeBytes % lanes) lanes 0 0

/-- The client's own copy. -/
def Client.splitRangesU64 (fileSizeBytes lanes : Nat) : Option (List (Nat × Nat)) :=
  if lanes = 0 then none
  else splitRangesLoopU64 (fileSizeBytes / lanes) (fileSizeBytes % lanes) lanes 0 0

/-- The running start is where the lane starts, so every sum is at most the file size. -/
theorem splitRangesLoopU64_eq (hsize : size < 2 ^ 64) :
    ∀ count lane, lane + count = lanes →
      splitRangesLoopU64 (size / lanes) (size % lanes) count lane (laneStart size lanes lane) =
        some (splitRangesLoop (size / lanes) (size % lanes) count lane
          (laneStart size lanes lane)) := by
  intro count
  induction count with
  | zero => intro lane _; rfl
  | succ count ih =>
    intro lane hlane
    have hend : laneStart size lanes (lane + 1) ≤ size := laneStart_le_size (by omega)
    rw [laneStart_succ] at hend
    have hlen : addU64 (size / lanes) (if lane < size % lanes then 1 else 0) =
        some (size / lanes + if lane < size % lanes then 1 else 0) := by
      rw [addU64, if_pos (by omega)]
    have hstop : addU64 (laneStart size lanes lane)
          (size / lanes + if lane < size % lanes then 1 else 0) =
        some (laneStart size lanes (lane + 1)) := by
      rw [addU64, if_pos (by omega), laneStart_succ]
    rw [splitRangesLoopU64, splitRangesLoop, hlen, Option.bind_eq_bind, Option.bind_some, hstop,
      Option.bind_eq_bind, Option.bind_some, ih (lane + 1) (by omega), ← laneStart_succ]
    rfl

theorem splitRangesU64_eq (hsize : size < 2 ^ 64) (h : 0 < lanes) :
    splitRangesU64 size lanes = some (splitRanges size lanes) := by
  have hloop := splitRangesLoopU64_eq hsize lanes 0 (Nat.zero_add lanes)
  rw [laneStart_zero] at hloop
  rw [splitRangesU64, if_neg (by omega), hloop, splitRanges]

/-- **`split_ranges` is an exact balanced partition**, the same one in the client and in the
server, and none of its additions overflows. -/
theorem splitRanges_balanced (size lanes : Nat) (hsize : size < 2 ^ 64) (hlanes : 1 ≤ lanes) :
    splitRangesU64 size lanes = some (splitRanges size lanes) ∧
      Client.splitRangesU64 size lanes = some (Client.splitRanges size lanes) ∧
      Client.splitRanges size lanes = splitRanges size lanes ∧
      BalancedPartition size lanes (splitRanges size lanes) :=
  ⟨splitRangesU64_eq hsize hlanes, splitRangesU64_eq hsize hlanes,
    Client.splitRanges_eq size lanes, balancedPartition_splitRanges hlanes⟩

/-- The largest file among three lanes. -/
theorem splitRanges_balanced_max :
    splitRangesU64 (2 ^ 64 - 1) 3 = some (splitRanges (2 ^ 64 - 1) 3) ∧
      Client.splitRangesU64 (2 ^ 64 - 1) 3 = some (Client.splitRanges (2 ^ 64 - 1) 3) ∧
      Client.splitRanges (2 ^ 64 - 1) 3 = splitRanges (2 ^ 64 - 1) 3 ∧
      BalancedPartition (2 ^ 64 - 1) 3 (splitRanges (2 ^ 64 - 1) 3) :=
  splitRanges_balanced (2 ^ 64 - 1) 3 (by decide) (by decide)

example : splitRanges 11 4 = [(0, 3), (3, 6), (6, 9), (9, 11)] := by decide

/-! ## Durable offsets -/

/-- Rust's `clamp`, which wants `lo ≤ hi`. -/
def clamp (x lo hi : Nat) : Nat := if x < lo then lo else if hi < x then hi else x

/-- Where a lane resumes: its offset, moved into the range and rounded down to whole chunks unless
the lane is complete. -/
def durableResumeOffset (offset rangeStart rangeEndExclusive : Nat) : Nat :=
  let clamped := clamp offset rangeStart rangeEndExclusive
  if clamped ≥ rangeEndExclusive then rangeEndExclusive
  else
    let aligned := clamped - clamped % resumeChunkSizeBytes
    clamp aligned rangeStart rangeEndExclusive

theorem clamp_mem {x lo hi : Nat} (h : lo ≤ hi) : lo ≤ clamp x lo hi ∧ clamp x lo hi ≤ hi := by
  unfold clamp
  split_ifs <;> omega

variable {offset a b : Nat}

/-- The rounded offset lies in the lane's range. -/
theorem durableResumeOffset_mem (h : a ≤ b) :
    a ≤ durableResumeOffset offset a b ∧ durableResumeOffset offset a b ≤ b := by
  simp only [durableResumeOffset]
  split_ifs
  · exact ⟨h, le_rfl⟩
  · exact clamp_mem h

/-- The rounded offset is at most the offset, except that it is never before the range. -/
theorem durableResumeOffset_le_max : durableResumeOffset offset a b ≤ max offset a := by
  simp only [durableResumeOffset, clamp]
  split_ifs <;> omega

/-- The end of the range is reached only from there. -/
theorem durableResumeOffset_eq_end_iff (h : a < b) :
    durableResumeOffset offset a b = b ↔ b ≤ offset := by
  simp only [durableResumeOffset, clamp]
  split_ifs <;> omega

theorem durableResumeOffset_of_end_le (h : a ≤ b) (hb : b ≤ offset) :
    durableResumeOffset offset a b = b := by
  simp only [durableResumeOffset, clamp]
  split_ifs <;> omega

/-- Less than a chunk is lost by rounding. -/
theorem lt_durableResumeOffset_add (ha : a ≤ offset) (hb : offset ≤ b) :
    offset < durableResumeOffset offset a b + resumeChunkSizeBytes := by
  have hmod := Nat.mod_lt offset (show 0 < resumeChunkSizeBytes by decide)
  simp only [durableResumeOffset, clamp]
  split_ifs <;> omega

/-- Strictly inside the range the rounded offset is the start or a chunk boundary. -/
theorem durableResumeOffset_eq_start_or_dvd (h : a < b) (hoff : offset < b) :
    durableResumeOffset offset a b = a ∨
      resumeChunkSizeBytes ∣ durableResumeOffset offset a b := by
  have hdvd : ∀ x : Nat, resumeChunkSizeBytes ∣ x - x % resumeChunkSizeBytes := Nat.dvd_sub_mod
  have hlt : ¬ clamp offset a b ≥ b := by
    unfold clamp
    split_ifs <;> omega
  simp only [durableResumeOffset, if_neg hlt]
  by_cases hlow : clamp offset a b - clamp offset a b % resumeChunkSizeBytes < a
  · exact .inl (by rw [clamp, if_pos hlow])
  · refine .inr ?_
    rw [clamp, if_neg hlow, if_neg (by omega)]
    exact hdvd _

/-- Rounding sees only the offset that is clamped into the range. -/
theorem durableResumeOffset_clamp (h : a ≤ b) :
    durableResumeOffset (clamp offset a b) a b = durableResumeOffset offset a b := by
  have hmem := clamp_mem (x := offset) h
  have hsame : clamp (clamp offset a b) a b = clamp offset a b := by
    rw [clamp, if_neg (by omega), if_neg (by omega)]
  simp only [durableResumeOffset, hsame]

/-- The start of a range is durable. -/
theorem durableResumeOffset_start (h : a ≤ b) : durableResumeOffset a a b = a := by
  simp only [durableResumeOffset, clamp]
  split_ifs <;> omega

/-- Rounding is a projection. -/
theorem durableResumeOffset_idem (h : a ≤ b) :
    durableResumeOffset (durableResumeOffset offset a b) a b = durableResumeOffset offset a b := by
  have halign : ∀ x : Nat, (x - x % resumeChunkSizeBytes) % resumeChunkSizeBytes = 0 := by
    intro x
    exact Nat.mod_eq_zero_of_dvd (Nat.dvd_sub_mod x)
  set c := clamp offset a b with hc
  have hmem : a ≤ c ∧ c ≤ b := clamp_mem h
  by_cases hend : c ≥ b
  · have hres : durableResumeOffset offset a b = b := by
      simp only [durableResumeOffset, ← hc, if_pos hend]
    rw [hres]
    exact durableResumeOffset_of_end_le h le_rfl
  · have hres : durableResumeOffset offset a b = clamp (c - c % resumeChunkSizeBytes) a b := by
      simp only [durableResumeOffset, ← hc, if_neg hend]
    by_cases hlow : c - c % resumeChunkSizeBytes < a
    · have hstart : clamp (c - c % resumeChunkSizeBytes) a b = a := by simp [clamp, hlow]
      rw [hres, hstart]
      exact durableResumeOffset_start h
    · have hkeep : clamp (c - c % resumeChunkSizeBytes) a b = c - c % resumeChunkSizeBytes := by
        unfold clamp
        split_ifs <;> omega
      rw [hres, hkeep]
      have hsame : clamp (c - c % resumeChunkSizeBytes) a b = c - c % resumeChunkSizeBytes := hkeep
      have hlt : ¬ c - c % resumeChunkSizeBytes ≥ b := by omega
      simp only [durableResumeOffset, hsame, if_neg hlt, halign, Nat.sub_zero]

/-- Rounding is monotone in the offset. -/
theorem durableResumeOffset_mono {offset' : Nat} (hab : a ≤ b) (h : offset ≤ offset') :
    durableResumeOffset offset a b ≤ durableResumeOffset offset' a b := by
  have hmod : ∀ x : Nat,
      x - x % resumeChunkSizeBytes = resumeChunkSizeBytes * (x / resumeChunkSizeBytes) := by
    intro x
    have := Nat.div_add_mod x resumeChunkSizeBytes
    omega
  have hdiv : ∀ x y : Nat, x ≤ y →
      x - x % resumeChunkSizeBytes ≤ y - y % resumeChunkSizeBytes := by
    intro x y hxy
    rw [hmod, hmod]
    exact Nat.mul_le_mul_left _ (Nat.div_le_div_right hxy)
  have hclamp : clamp offset a b ≤ clamp offset' a b := by
    unfold clamp
    split_ifs <;> omega
  have hal := hdiv _ _ hclamp
  simp only [durableResumeOffset]
  generalize clamp offset a b = c at *
  generalize clamp offset' a b = c' at *
  split_ifs
  · exact le_rfl
  · omega
  · exact (clamp_mem hab).2
  · generalize c - c % resumeChunkSizeBytes = x at *
    generalize c' - c' % resumeChunkSizeBytes = x' at *
    unfold clamp
    split_ifs <;> omega

/-- What the rounding of offsets in a lane's range should do. -/
structure SafeRounding (round : Nat → Nat) (rangeStart rangeEndExclusive : Nat) : Prop where
  mem : ∀ offset, rangeStart ≤ round offset ∧ round offset ≤ rangeEndExclusive
  le_max : ∀ offset, round offset ≤ max offset rangeStart
  eq_end_iff : ∀ offset, round offset = rangeEndExclusive ↔ rangeEndExclusive ≤ offset
  start_or_dvd : ∀ offset < rangeEndExclusive,
    round offset = rangeStart ∨ resumeChunkSizeBytes ∣ round offset
  near : ∀ offset, round offset ≤ clamp offset rangeStart rangeEndExclusive ∧
    clamp offset rangeStart rangeEndExclusive - round offset < resumeChunkSizeBytes
  mono : ∀ offset offset', offset ≤ offset' → round offset ≤ round offset'
  idem : ∀ offset, round (round offset) = round offset

/-- **Rounding is safe** in every range that is not empty. -/
theorem durableResumeOffset_safe (rangeStart rangeEndExclusive : Nat)
    (h : rangeStart < rangeEndExclusive) :
    SafeRounding (fun offset => durableResumeOffset offset rangeStart rangeEndExclusive)
      rangeStart rangeEndExclusive where
  mem _ := durableResumeOffset_mem (Nat.le_of_lt h)
  le_max _ := durableResumeOffset_le_max
  eq_end_iff _ := durableResumeOffset_eq_end_iff h
  start_or_dvd _ hoff := durableResumeOffset_eq_start_or_dvd h hoff
  near := by
    intro offset
    have hmem := clamp_mem (x := offset) (Nat.le_of_lt h)
    have hbelow := @durableResumeOffset_le_max (clamp offset rangeStart rangeEndExclusive)
      rangeStart rangeEndExclusive
    have hnear := lt_durableResumeOffset_add hmem.1 hmem.2
    rw [durableResumeOffset_clamp (Nat.le_of_lt h)] at hbelow hnear
    constructor <;> omega
  mono _ _ hle := durableResumeOffset_mono (Nat.le_of_lt h) hle
  idem _ := durableResumeOffset_idem (Nat.le_of_lt h)

/-- A range that starts and ends inside the same chunk. -/
theorem durableResumeOffset_safe_same_chunk :
    SafeRounding (fun offset => durableResumeOffset offset 1048586 1048636) 1048586 1048636 :=
  durableResumeOffset_safe 1048586 1048636 (by decide)

end Metra
