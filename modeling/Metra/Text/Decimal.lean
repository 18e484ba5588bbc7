import Metra.Text.Str

/-!
# Numbers in names

Names are put together from numbers and from texts that stand after them.  A number that is
followed by something that does not begin with a digit can be read back, and so can all the
numbers of a name.

* `digits_append_inj` — one number and what follows it;
* `filled_injective` — **a name gives back its numbers**.
-/

namespace Text

/-- A number as it is displayed. -/
def digits (n : Nat) : Str := (toString n).toList

variable {m n : Nat} {s t : Str}

theorem digits_eq_toDigits (n : Nat) : digits n = Nat.toDigits 10 n := by
  rw [digits, Nat.toString_eq_repr, Nat.toList_repr]

theorem isDigit_of_mem_digits {c : Char} (h : c ∈ digits n) : c.isDigit = true := by
  rw [digits_eq_toDigits] at h
  exact Nat.isDigit_of_mem_toDigits (by decide) (by decide) h

theorem digits_injective : Function.Injective digits := by
  intro m n h
  have hread : Nat.ofDigitChars 10 (digits m) 0 = Nat.ofDigitChars 10 (digits n) 0 := by rw [h]
  simpa [digits_eq_toDigits] using hread

/-- The text begins with something else than a digit. -/
def Separates : Str → Bool
  | [] => false
  | c :: _ => !c.isDigit

theorem separates_append (h : Separates s = true) (t : Str) : Separates (s ++ t) = true := by
  cases s with
  | nil => simp [Separates] at h
  | cons c s => exact h

/-- A number is all that comes before the text that separates it. -/
theorem takeWhile_digits_append (h : Separates s = true) :
    (digits n ++ s).takeWhile Char.isDigit = digits n := by
  have hdigits : ∀ c ∈ digits n, c.isDigit = true := by
    intro c hc
    exact isDigit_of_mem_digits hc
  have hnone : s.takeWhile Char.isDigit = [] := by
    cases s with
    | nil => rfl
    | cons c s =>
      simp only [Separates, Bool.not_eq_true'] at h
      simp [h]
  rw [List.takeWhile_append_of_pos hdigits, hnone, List.append_nil]

theorem digits_append_inj (hs : Separates s = true) (ht : Separates t = true)
    (h : digits m ++ s = digits n ++ t) : m = n ∧ s = t := by
  have hdigits : digits m = digits n := by
    rw [← takeWhile_digits_append hs, h, takeWhile_digits_append ht]
  refine ⟨digits_injective hdigits, ?_⟩
  rw [hdigits] at h
  exact List.append_cancel_left h

/-! ## Names -/

/-- Each number with the text that stands after it. -/
def filled : List Nat → List Str → Str
  | n :: numbers, text :: texts => digits n ++ (text ++ filled numbers texts)
  | _, _ => []

/-- A name is made of digits and of the characters of the texts. -/
theorem mem_filled {numbers : List Nat} {texts : List Str} {c : Char}
    (h : c ∈ filled numbers texts) : c.isDigit = true ∨ ∃ text ∈ texts, c ∈ text := by
  induction numbers generalizing texts with
  | nil => simp [filled] at h
  | cons n numbers ih =>
    cases texts with
    | nil => simp [filled] at h
    | cons text texts =>
      simp only [filled, List.mem_append] at h
      rcases h with h | h | h
      · exact .inl (isDigit_of_mem_digits h)
      · exact .inr ⟨text, by simp, h⟩
      · rcases ih h with hdigit | ⟨text', htext', hc⟩
        · exact .inl hdigit
        · exact .inr ⟨text', by simp [htext'], hc⟩

/-- **A name gives back its numbers**, if each is followed by a text that separates it. -/
theorem filled_injective {texts : List Str} (htexts : ∀ text ∈ texts, Separates text = true)
    {numbers numbers' : List Nat} (hlength : numbers.length = texts.length)
    (hlength' : numbers'.length = texts.length) (h : filled numbers texts = filled numbers' texts) :
    numbers = numbers' := by
  induction texts generalizing numbers numbers' with
  | nil =>
    rw [List.eq_nil_of_length_eq_zero hlength, List.eq_nil_of_length_eq_zero hlength']
  | cons text texts ih =>
    cases numbers with
    | nil => simp at hlength
    | cons n numbers =>
      cases numbers' with
      | nil => simp at hlength'
      | cons n' numbers' =>
        have htext : Separates text = true := htexts text (by simp)
        have hrest : ∀ text' ∈ texts, Separates text' = true := by
          intro text' htext'
          exact htexts text' (by simp [htext'])
        obtain ⟨rfl, hafter⟩ := digits_append_inj (separates_append htext _)
          (separates_append htext _) h
        rw [ih hrest (by simpa using hlength) (by simpa using hlength')
          (List.append_cancel_left hafter)]

end Text
