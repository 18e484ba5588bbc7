import Mathlib.Algebra.GroupWithZero.Nat
import Mathlib.Data.List.DropRight
import Mathlib.Tactic.Common

/-!
# Strings as lists of characters

The operations on UTF-8 strings that parsers of line-based files are written with.  A slice
is taken between byte offsets and there is none when they are in the wrong order, out of
bounds or inside a character.

* `slice?_inner` — the slice between two characters of one byte each is what they enclose;
* `slice?_eq_none_of_lt` — there is no slice whose end is before its start;
* `trimBy_trimBy` — trimming twice is trimming once.
-/

namespace Text

/-- A string as its characters. -/
abbrev Str : Type := List Char

/-! ## Slices -/

/-- `str::len`: the length in bytes. -/
def utf8Len (s : Str) : Nat := (s.map Char.utf8Size).sum

/-- What is behind the first `n` bytes. -/
def dropBytes? : Nat → Str → Option Str
  | 0, s => some s
  | _ + 1, [] => none
  | n + 1, c :: s => if c.utf8Size ≤ n + 1 then dropBytes? (n + 1 - c.utf8Size) s else none

/-- The first `n` bytes. -/
def takeBytes? : Nat → Str → Option Str
  | 0, _ => some []
  | _ + 1, [] => none
  | n + 1, c :: s =>
    if c.utf8Size ≤ n + 1 then (takeBytes? (n + 1 - c.utf8Size) s).map (c :: ·) else none

/-- `&s[start..stop]`. -/
def slice? (s : Str) (start stop : Nat) : Option Str :=
  if start ≤ stop then (dropBytes? start s).bind (takeBytes? (stop - start)) else none

variable {s : Str} {start stop : Nat}

@[simp] theorem dropBytes?_zero (s : Str) : dropBytes? 0 s = some s := by
  cases s <;> rfl

theorem slice?_eq_none_of_lt (h : stop < start) : slice? s start stop = none :=
  if_neg (Nat.not_le.2 h)

theorem takeBytes?_utf8Len (s t : Str) : takeBytes? (utf8Len s) (s ++ t) = some s := by
  induction s with
  | nil =>
    rw [utf8Len, List.map_nil, List.sum_nil, takeBytes?]
  | cons c s ih =>
    obtain ⟨n, hn⟩ : ∃ n, utf8Len (c :: s) = n + 1 :=
      Nat.exists_eq_add_one.2 (by
        have := c.utf8Size_pos
        simp only [utf8Len, List.map_cons, List.sum_cons]
        omega)
    have hlen : utf8Len (c :: s) = c.utf8Size + utf8Len s := by
      simp only [utf8Len, List.map_cons, List.sum_cons]
    have hrest : n + 1 - c.utf8Size = utf8Len s := by omega
    rw [hn, List.cons_append, takeBytes?, if_pos (by omega), hrest, ih, Option.map_some]

theorem utf8Len_append (s t : Str) : utf8Len (s ++ t) = utf8Len s + utf8Len t := by
  simp only [utf8Len, List.map_append, List.sum_append]

/-- **The slice between two characters of one byte** is what they enclose. -/
theorem slice?_inner {a b : Char} (ha : a.utf8Size = 1) (hb : b.utf8Size = 1) (mid : Str) :
    slice? (a :: (mid ++ [b])) 1 (utf8Len (a :: (mid ++ [b])) - 1) = some mid := by
  have hone : utf8Len [b] = 1 := by simp [utf8Len, hb]
  have hlen : utf8Len (a :: (mid ++ [b])) - 1 = 1 + utf8Len mid := by
    have hcons : utf8Len (a :: (mid ++ [b])) = 1 + utf8Len (mid ++ [b]) := by
      simp only [utf8Len, List.map_cons, List.sum_cons, ha]
    rw [hcons, utf8Len_append, hone]
    omega
  have hdrop : dropBytes? 1 (a :: (mid ++ [b])) = some (mid ++ [b]) := by
    rw [dropBytes?, if_pos (by omega), ha]
    exact dropBytes?_zero _
  rw [hlen, slice?, if_pos (by omega), hdrop, Option.bind_some, Nat.add_sub_cancel_left,
    takeBytes?_utf8Len]

/-! ## Searching -/

/-- `str::trim`, for the characters that `p` holds of. -/
def trimBy (p : Char → Bool) (s : Str) : Str := (s.dropWhile p).rdropWhile p

/-- **Trimming is a projection.** -/
theorem trimBy_trimBy (p : Char → Bool) (s : Str) : trimBy p (trimBy p s) = trimBy p s := by
  have hhead : (trimBy p s).dropWhile p = trimBy p s := by
    cases h : trimBy p s with
    | nil => rfl
    | cons c rest =>
      -- the first character is the first one of what is left in front
      have hprefix : trimBy p s <+: s.dropWhile p :=
        List.rdropWhile_prefix p _
      rw [h] at hprefix
      obtain ⟨tail, htail⟩ := hprefix
      have hc : p c = false := by
        have hne : s.dropWhile p ≠ [] := by
          rw [← htail]
          simp
        have := List.head_dropWhile_not p hne
        simpa [← htail] using this
      rw [List.dropWhile_cons, hc]
      simp
  rw [trimBy, hhead, trimBy, List.rdropWhile_idempotent]

/-- `str::split_once`: what is before and behind the first separator. -/
def splitOnce (separator : Char) : Str → Option (Str × Str)
  | [] => none
  | c :: s =>
    if c = separator then some ([], s)
    else (splitOnce separator s).map fun parts => (c :: parts.1, parts.2)

/-- `str::strip_prefix`. -/
def stripPrefix (pat s : Str) : Option Str :=
  if pat.isPrefixOf s then some (s.drop pat.length) else none

/-- `str::contains`. -/
def containsStr (s pat : Str) : Bool := s.tails.any pat.isPrefixOf

/-- `str::replace` of a pattern that is not empty, with `skip` characters of an occurrence
that is replaced already. -/
def replaceFrom (pat new : Str) : (skip : Nat) → Str → Str
  | _, [] => []
  | skip + 1, _ :: s => replaceFrom pat new skip s
  | 0, c :: s =>
    if pat.isPrefixOf (c :: s) then new ++ replaceFrom pat new (pat.length - 1) s
    else c :: replaceFrom pat new 0 s

/-- Put another string in the place of each occurrence. -/
def replace (s pat new : Str) : Str := replaceFrom pat new 0 s

/-- A string has a suffix. -/
def endsWith (s pat : Str) : Bool := pat.reverse.isPrefixOf s.reverse

/-! ## Lines -/

/-- A line that ended with a line feed loses the carriage return before it. -/
def stripCarriageReturn (line : Str) : Str :=
  if line.getLast? = some '\r' then line.dropLast else line

/-- `str::lines`, with the part of the current line that has been read. -/
def linesFrom (line : Str) : Str → List Str
  | [] => if line = [] then [] else [line]
  | c :: s =>
    if c = '\n' then stripCarriageReturn line :: linesFrom [] s else linesFrom (line ++ [c]) s

/-- The lines of a text, without their ends. -/
def lines (s : Str) : List Str := linesFrom [] s

example : lines "a\r\n\nb".toList = ["a".toList, [], "b".toList] := by decide

end Text
