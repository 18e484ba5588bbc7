import Mathlib.Data.List.Basic
import Mathlib.Tactic.Common

/-!
# The bytes of a file

The content of a file is a list of bytes, changed by `setLen` (truncate, or pad
with zeros) and `writeAt` (write at an offset, padding a gap with zeros).

`Covers d src a b` says that `d` holds what `src` holds on the positions from
`a` up to `b`.  A write of bytes of `src` to their own position never loses such
agreement, whoever made it and wherever it lies, which is what makes the writes
of independent writers compose.
-/

namespace Bytes

/-- Truncate to `n` bytes, or pad with zeros up to `n`. -/
def setLen (n : Nat) (d : List UInt8) : List UInt8 := d.take n ++ List.replicate (n - d.length) 0

/-- Write `bs` at the offset `off`; a gap before it is filled with zeros. -/
def writeAt (off : Nat) (bs d : List UInt8) : List UInt8 :=
  if bs = [] then d
  else (d ++ List.replicate (off - d.length) 0).take off ++ bs ++ d.drop (off + bs.length)

@[simp] theorem length_setLen (n : Nat) (d : List UInt8) : (setLen n d).length = n := by
  simp only [setLen, List.length_append, List.length_take, List.length_replicate]
  omega

theorem length_writeAt {off : Nat} {bs : List UInt8} (d : List UInt8) (h : bs ≠ []) :
    (writeAt off bs d).length = max d.length (off + bs.length) := by
  simp only [writeAt, if_neg h, List.length_append, List.length_take, List.length_replicate,
    List.length_drop]
  omega

theorem length_writeAt_le {off n : Nat} {bs d : List UInt8} (hd : d.length ≤ n)
    (h : off + bs.length ≤ n) : (writeAt off bs d).length ≤ n := by
  by_cases hbs : bs = []
  · simpa [writeAt, hbs] using hd
  · rw [length_writeAt d hbs]
    omega

theorem getElem?_setLen_of_lt {n p : Nat} {d : List UInt8} (hn : d.length ≤ n)
    (hp : p < d.length) : (setLen n d)[p]? = d[p]? := by
  rw [setLen, List.take_of_length_le hn, List.getElem?_append_left hp]

/-- Inside the written range a write reads back. -/
theorem getElem?_writeAt_inside {off p : Nat} {bs : List UInt8} (d : List UInt8)
    (hp : off ≤ p) (hp' : p < off + bs.length) : (writeAt off bs d)[p]? = bs[p - off]? := by
  have hbs : bs ≠ [] := by
    rintro rfl
    simp at hp'
    omega
  have hlen : ((d ++ List.replicate (off - d.length) 0).take off).length = off := by
    simp only [List.length_take, List.length_append, List.length_replicate]
    omega
  rw [writeAt, if_neg hbs, List.append_assoc, List.getElem?_append_right (by omega), hlen,
    List.getElem?_append_left (by omega)]

/-- Outside the written range a write keeps what was there. -/
theorem getElem?_writeAt_outside {off p : Nat} {bs d : List UInt8} (hd : p < d.length)
    (hp : p < off ∨ off + bs.length ≤ p) : (writeAt off bs d)[p]? = d[p]? := by
  by_cases hbs : bs = []
  · simp [writeAt, hbs]
  have hlen : ((d ++ List.replicate (off - d.length) 0).take off).length = off := by
    simp only [List.length_take, List.length_append, List.length_replicate]
    omega
  rw [writeAt, if_neg hbs, List.append_assoc]
  rcases hp with hp | hp
  · rw [List.getElem?_append_left (by omega), List.getElem?_take_of_lt hp,
      List.getElem?_append_left hd]
  · rw [List.getElem?_append_right (by omega), hlen, List.getElem?_append_right (by omega),
      List.getElem?_drop]
    congr 1
    omega

/-- Two writes, the second where the first ended, are one write. -/
theorem writeAt_append (off : Nat) (bs cs d : List UInt8) :
    writeAt (off + bs.length) cs (writeAt off bs d) = writeAt off (bs ++ cs) d := by
  by_cases hbs : bs = []
  · subst hbs
    simp [writeAt]
  by_cases hcs : cs = []
  · subst hcs
    simp [writeAt]
  have hhead : ((d ++ List.replicate (off - d.length) 0).take off ++ bs).length =
      off + bs.length := by
    simp only [List.length_append, List.length_take, List.length_replicate]
    omega
  have hgap : off + bs.length - (writeAt off bs d).length = 0 := by
    rw [length_writeAt d hbs]
    omega
  have hfirst : writeAt off bs d =
      ((d ++ List.replicate (off - d.length) 0).take off ++ bs) ++ d.drop (off + bs.length) := by
    rw [writeAt, if_neg hbs]
  rw [writeAt, if_neg hcs, hgap, List.replicate_zero, List.append_nil, hfirst,
    List.take_left' hhead, writeAt, if_neg (by simp [hbs])]
  simp only [List.append_assoc, List.length_append]
  congr 3
  rw [← List.append_assoc, List.drop_append, List.drop_eq_nil_of_le (by omega), List.nil_append,
    hhead, List.drop_drop]
  congr 1
  omega

/-! ## Agreement with a source -/

/-- `d` holds the bytes of `src` at every position from `a` up to `b`. -/
def Covers (d src : List UInt8) (a b : Nat) : Prop :=
  ∀ p, a ≤ p → p < b → d[p]? = src[p]?

/-- The bytes of `src` from `a` up to `b`. -/
def slice (src : List UInt8) (a b : Nat) : List UInt8 := (src.drop a).take (b - a)

theorem length_slice {src : List UInt8} {a b : Nat} (h : b ≤ src.length) :
    (slice src a b).length = b - a := by
  simp only [slice, List.length_take, List.length_drop]
  omega

theorem getElem?_slice {src : List UInt8} {a b p : Nat} (hp : a ≤ p) (hp' : p < b) :
    (slice src a b)[p - a]? = src[p]? := by
  rw [slice, List.getElem?_take_of_lt (by omega), List.getElem?_drop]
  congr 1
  omega

theorem slice_append_slice {src : List UInt8} {a b c : Nat} (hab : a ≤ b) (hbc : b ≤ c) :
    slice src a b ++ slice src b c = slice src a c := by
  rw [slice, slice, slice, ← List.take_append_drop (b - a) ((src.drop a).take (c - a)),
    List.take_take, List.drop_take, List.drop_drop, Nat.min_eq_left (by omega)]
  congr 2
  · omega
  · congr 1
    omega

theorem Covers.mono {d src : List UInt8} {a b a' b' : Nat} (h : Covers d src a b)
    (ha : a ≤ a') (hb : b' ≤ b) : Covers d src a' b' :=
  fun p hp hp' => h p (by omega) (by omega)

theorem Covers.empty {d src : List UInt8} {a b : Nat} (h : b ≤ a) : Covers d src a b :=
  fun p hp hp' => absurd hp (by omega)

theorem Covers.append {d src : List UInt8} {a b c : Nat} (h : Covers d src a b)
    (h' : Covers d src b c) : Covers d src a c := by
  intro p hp hp'
  by_cases hpb : p < b
  · exact h p hp hpb
  · exact h' p (by omega) hp'

theorem Covers.lt_length {d src : List UInt8} {a b p : Nat} (h : Covers d src a b)
    (hb : b ≤ src.length) (hp : a ≤ p) (hp' : p < b) : p < d.length := by
  have := h p hp hp'
  rw [List.getElem?_eq_getElem (by omega : p < src.length)] at this
  exact (List.getElem?_eq_some_iff.1 this).1

/-- A file no longer than the source that covers all of it is the source. -/
theorem Covers.eq {d src : List UInt8} (h : Covers d src 0 src.length)
    (hlen : d.length ≤ src.length) : d = src := by
  refine List.ext_getElem? fun p => ?_
  by_cases hp : p < src.length
  · exact h p (Nat.zero_le p) hp
  · rw [List.getElem?_eq_none (by omega), List.getElem?_eq_none (by omega)]

theorem covers_of_isPrefix {d src : List UInt8} (h : d <+: src) : Covers d src 0 d.length := by
  intro p _ hp
  obtain ⟨rest, rfl⟩ := h
  rw [List.getElem?_append_left hp]

/-- Growing a file keeps the agreement it has. -/
theorem Covers.setLen {d src : List UInt8} {a b n : Nat} (h : Covers d src a b)
    (hb : b ≤ src.length) (hn : d.length ≤ n) : Covers (Bytes.setLen n d) src a b := by
  intro p hp hp'
  rw [getElem?_setLen_of_lt hn (h.lt_length hb hp hp')]
  exact h p hp hp'

/-- Writing bytes of the source to their own place keeps the agreement there is. -/
theorem Covers.writeAt {d src : List UInt8} {a b off k : Nat} (h : Covers d src a b)
    (hb : b ≤ src.length) (hk : k ≤ src.length) :
    Covers (Bytes.writeAt off (slice src off k) d) src a b := by
  intro p hp hp'
  have hd := h.lt_length hb hp hp'
  by_cases hin : off ≤ p ∧ p < off + (slice src off k).length
  · have hk' : p < k := by
      have := length_slice (a := off) hk
      omega
    rw [getElem?_writeAt_inside d hin.1 hin.2, getElem?_slice hin.1 hk']
  · rw [getElem?_writeAt_outside hd (by omega)]
    exact h p hp hp'

/-- Writing bytes of the source to their own place makes the file agree there. -/
theorem covers_writeAt_slice (d : List UInt8) {src : List UInt8} {off k : Nat}
    (hk : k ≤ src.length) : Covers (Bytes.writeAt off (slice src off k) d) src off k := by
  intro p hp hp'
  have := length_slice (a := off) hk
  rw [getElem?_writeAt_inside d hp (by omega), getElem?_slice hp hp']

/-! ## Changes that keep the agreement -/

/-- When `d` is no longer than `src`, then `d'` is not either, and agrees with `src` wherever
`d` does. -/
def Tracks (src d d' : List UInt8) : Prop :=
  d.length ≤ src.length →
    d'.length ≤ src.length ∧ ∀ p < src.length, d[p]? = src[p]? → d'[p]? = src[p]?

theorem tracks_self (src d : List UInt8) : Tracks src d d := fun h => ⟨h, fun _ _ hp => hp⟩

theorem covers_of_getElem? {d src : List UInt8} {p : Nat} (h : d[p]? = src[p]?) :
    Covers d src p (p + 1) := by
  intro q hq hq'
  obtain rfl : q = p := by omega
  exact h

theorem tracks_setLen (src d : List UInt8) : Tracks src d (setLen src.length d) := by
  intro hlen
  refine ⟨Nat.le_of_eq (length_setLen _ _), fun p hp h => ?_⟩
  exact (covers_of_getElem? h).setLen hp hlen p (Nat.le_refl p) (Nat.lt_succ_self p)

theorem tracks_writeAt (d : List UInt8) {src : List UInt8} {off k : Nat} (hk : k ≤ src.length) :
    Tracks src d (Bytes.writeAt off (slice src off k) d) := by
  intro hlen
  refine ⟨?_, fun p hp h => ?_⟩
  · by_cases hs : slice src off k = []
    · simpa [writeAt, hs] using hlen
    · have hslice := length_slice (a := off) hk
      have hpos := List.length_pos_of_ne_nil hs
      exact length_writeAt_le hlen (by omega)
  · exact (covers_of_getElem? h).writeAt hp hk p (Nat.le_refl p) (Nat.lt_succ_self p)

/-- A file that is the source stays so. -/
theorem Tracks.eq {src d d' : List UInt8} (h : Tracks src d d') (hd : d = src) : d' = src := by
  subst hd
  obtain ⟨hlen, hall⟩ := h (Nat.le_refl _)
  exact Covers.eq (fun p _ hp => hall p hp rfl) hlen

theorem slice_take {src : List UInt8} {a b : Nat} (n : Nat) :
    (slice src a b).take n = slice src a (min b (a + n)) := by
  rw [slice, slice, List.take_take]
  congr 1
  omega

/-! ## Beginnings of a source -/

/-- A file that agrees with the source as far as it goes is a beginning of it. -/
theorem isPrefix_of_covers {d src : List UInt8} (h : Covers d src 0 d.length)
    (hlen : d.length ≤ src.length) : d <+: src := by
  refine List.prefix_iff_eq_take.2 (List.ext_getElem? fun p => ?_)
  by_cases hp : p < d.length
  · rw [h p (Nat.zero_le p) hp, List.getElem?_take_of_lt hp]
  · rw [List.getElem?_eq_none (by omega), List.getElem?_eq_none]
    rw [List.length_take]
    omega

/-- A write does not make a file shorter, and reaches as far as it goes. -/
theorem le_length_writeAt (off : Nat) (bs d : List UInt8) :
    d.length ≤ (writeAt off bs d).length ∧
      (bs ≠ [] → off + bs.length ≤ (writeAt off bs d).length) := by
  by_cases hbs : bs = []
  · simp [writeAt, hbs]
  · rw [length_writeAt d hbs]
    exact ⟨Nat.le_max_left _ _, fun _ => Nat.le_max_right _ _⟩

/-- Bytes of the source that are written to their own place, no further than where a beginning
of it ends, leave a beginning. -/
theorem isPrefix_writeAt {d src : List UInt8} {off k : Nat} (h : d <+: src)
    (hoff : off ≤ d.length) (hk : k ≤ src.length) :
    writeAt off (slice src off k) d <+: src := by
  have hlen : (writeAt off (slice src off k) d).length ≤ src.length :=
    (tracks_writeAt d hk h.length_le).1
  refine isPrefix_of_covers ?_ hlen
  by_cases hs : slice src off k = []
  · simp only [writeAt, hs, if_pos]
    exact covers_of_isPrefix h
  · have hkept : Covers (writeAt off (slice src off k) d) src 0 d.length :=
      (covers_of_isPrefix h).writeAt h.length_le hk
    have hwritten := @covers_writeAt_slice d src off k hk
    have hslice := length_slice (a := off) hk
    rw [length_writeAt d hs]
    intro p hp hp'
    by_cases hin : p < d.length
    · exact hkept p hp hin
    · exact hwritten p (by omega) (by omega)

/-! ## What a power loss leaves -/

/-- What may be left of a file that holds `d` and held `synced` when it was synced last: a byte
that was synced and has not been changed since is still there, of the others nothing is sure. -/
structure Remains (synced d left : List UInt8) : Prop where
  length_le : left.length ≤ max synced.length d.length
  kept : ∀ (p : Nat) (b : UInt8), synced[p]? = some b → d[p]? = some b → left[p]? = some b

section

variable {src synced d left : List UInt8} {p : Nat}

/-- All that was not synced may be lost. -/
theorem remains_synced (synced d : List UInt8) : Remains synced d synced :=
  ⟨Nat.le_max_left _ _, fun _ _ hsynced _ => hsynced⟩

theorem Remains.getElem?_eq (h : Remains synced d left) (hp : p < src.length)
    (hsynced : synced[p]? = src[p]?) (hd : d[p]? = src[p]?) : left[p]? = src[p]? := by
  have hsome : src[p]? = some src[p] := List.getElem?_eq_getElem hp
  rw [hsome] at hsynced hd ⊢
  exact h.kept p src[p] hsynced hd

/-- Of a file that is the source and has been synced, nothing is lost. -/
theorem Remains.eq (h : Remains synced d left) (hsynced : synced = src) (hd : d = src) :
    left = src := by
  subst hsynced hd
  refine Covers.eq (fun p _ hp => h.getElem?_eq hp rfl rfl) ?_
  have hle := h.length_le
  rwa [Nat.max_self] at hle

end

end Bytes
