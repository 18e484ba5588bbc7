import Mathlib.Algebra.GroupWithZero.Nat

/-!
# Fixed-width words as bytes, and reading from a byte stream

* `toLeBytes`, `ofLeBytes` — a natural number as `k` base-256 digits, lowest
  first, and back; `toBeBytes`, `ofBeBytes` are the same with the highest first;
* `readExact` — take exactly `n` bytes off the front of a stream, or fail when
  the stream ends before that.
-/

namespace Bytes

/-! ## Little- and big-endian words -/

/-- The `k` lowest base-256 digits of `n`, lowest first. -/
def toLeBytes : Nat → Nat → List UInt8
  | 0, _ => []
  | k + 1, n => UInt8.ofNat (n % 256) :: toLeBytes k (n / 256)

/-- The number whose base-256 digits, lowest first, are the given bytes. -/
def ofLeBytes : List UInt8 → Nat
  | [] => 0
  | b :: bs => b.toNat + 256 * ofLeBytes bs

/-- The `k` lowest base-256 digits of `n`, highest first. -/
def toBeBytes (k n : Nat) : List UInt8 := (toLeBytes k n).reverse

/-- The number whose base-256 digits, highest first, are the given bytes. -/
def ofBeBytes (bs : List UInt8) : Nat := ofLeBytes bs.reverse

@[simp] theorem length_toLeBytes (k n : Nat) : (toLeBytes k n).length = k := by
  induction k generalizing n with
  | zero => rfl
  | succ k ih => simp [toLeBytes, ih]

@[simp] theorem length_toBeBytes (k n : Nat) : (toBeBytes k n).length = k := by
  simp [toBeBytes]

theorem ofLeBytes_toLeBytes {k n : Nat} (h : n < 256 ^ k) : ofLeBytes (toLeBytes k n) = n := by
  induction k generalizing n with
  | zero =>
    have : n = 0 := by simpa using h
    simp [toLeBytes, ofLeBytes, this]
  | succ k ih =>
    have hdiv : n / 256 < 256 ^ k := by
      rw [Nat.pow_succ] at h
      exact Nat.div_lt_of_lt_mul (by omega)
    have hdigit : (UInt8.ofNat (n % 256)).toNat = n % 256 := by simp
    rw [toLeBytes, ofLeBytes, ih hdiv, hdigit]
    omega

theorem ofBeBytes_toBeBytes {k n : Nat} (h : n < 256 ^ k) : ofBeBytes (toBeBytes k n) = n := by
  rw [ofBeBytes, toBeBytes, List.reverse_reverse, ofLeBytes_toLeBytes h]

/-- Numbers that fit the word are told apart by their bytes. -/
theorem toBeBytes_inj {k m n : Nat} (hm : m < 256 ^ k) (hn : n < 256 ^ k)
    (h : toBeBytes k m = toBeBytes k n) : m = n := by
  have hback := congrArg ofBeBytes h
  rwa [ofBeBytes_toBeBytes hm, ofBeBytes_toBeBytes hn] at hback

/-- A list of bytes is the encoding of the number it encodes. -/
theorem toLeBytes_ofLeBytes (bs : List UInt8) : toLeBytes bs.length (ofLeBytes bs) = bs := by
  induction bs with
  | nil => rfl
  | cons b bs ih =>
    have hb : b.toNat < 256 := b.toNat_lt
    have hmod : (b.toNat + 256 * ofLeBytes bs) % 256 = b.toNat := by omega
    have hdiv : (b.toNat + 256 * ofLeBytes bs) / 256 = ofLeBytes bs := by omega
    simp only [List.length_cons, ofLeBytes, toLeBytes, hmod, hdiv, ih]
    simp

/-! ## Reading from a stream -/

/-- The first `n` bytes of a stream and what follows them. -/
def readExact (n : Nat) (stream : List UInt8) : Option (List UInt8 × List UInt8) :=
  if n ≤ stream.length then some (stream.take n, stream.drop n) else none

/-- What was put in front of a stream is read back, and the rest is untouched. -/
theorem readExact_append {bs rest : List UInt8} {n : Nat} (h : bs.length = n) :
    readExact n (bs ++ rest) = some (bs, rest) := by
  subst h
  simp [readExact]

theorem readExact_eq_some {n : Nat} {stream bs rest : List UInt8}
    (h : readExact n stream = some (bs, rest)) : stream = bs ++ rest ∧ bs.length = n := by
  unfold readExact at h
  split at h
  · rename_i hle
    cases h
    exact ⟨(List.take_append_drop n stream).symm, by rw [List.length_take]; omega⟩
  · cases h

end Bytes
