import Mathlib.Algebra.Field.Rat
import Mathlib.Algebra.Order.Ring.Unbundled.Rat
import Metra.Text.Str

/-!
# Floating point numbers

An `f64` is an element of a linear order, that of `total_cmp`; what is computed with it is a
parameter (`FloatOps`).  `exactOps` is that arithmetic without rounding, for samples.
-/

namespace Metra.Client

open Text

/-- What the code computes with `f64` values, other than comparing them by `total_cmp`. -/
structure FloatOps (F : Type) where
  /-- `n as f64`, and the literals without a fraction. -/
  ofNat : Nat → F
  /-- The literal `n / 100`. -/
  hundredths : Nat → F
  /-- `<=`, which is not that of `total_cmp`. -/
  le : F → F → Bool
  max : F → F → F
  clamp : F → F → F → F
  add : F → F → F
  sub : F → F → F
  mul : F → F → F
  div : F → F → F
  sum : List F → F
  floor : F → Nat
  ceil : F → Nat
  /-- `{:.n}`. -/
  fixed : Nat → F → String
  /-- `str::parse`. -/
  parse : Str → Option F

/-! ## Throughput -/

/-- The statistics of a list of throughputs. -/
structure ThroughputStats (F : Type) where
  min : F
  p50 : F
  p95 : F
  max : F
  mean : F
  deriving DecidableEq

variable {F : Type} [LinearOrder F] (ops : FloatOps F)

/-- A percentile of a sorted list, between its two nearest values. -/
def percentile (sorted : List F) (quantile : F) : F :=
  if sorted.isEmpty then ops.ofNat 0
  else if sorted.length = 1 then sorted.getD 0 (ops.ofNat 0)
  else
    let rank := ops.mul (ops.clamp quantile (ops.ofNat 0) (ops.ofNat 1))
      (ops.sub (ops.ofNat sorted.length) (ops.ofNat 1))
    let lower := ops.floor rank
    let upper := ops.ceil rank
    let atLower := sorted.getD lower (ops.ofNat 0)
    if lower = upper then atLower
    else
      let weight := ops.sub rank (ops.ofNat lower)
      ops.add atLower (ops.mul (ops.sub (sorted.getD upper (ops.ofNat 0)) atLower) weight)

/-- The statistics of a list; all are 0 when it is empty. -/
def summarizeValues (values : List F) : ThroughputStats F :=
  let sorted := values.mergeSort fun left right => decide (left ≤ right)
  if sorted.isEmpty then
    ⟨ops.ofNat 0, ops.ofNat 0, ops.ofNat 0, ops.ofNat 0, ops.ofNat 0⟩
  else
    { min := sorted.headD (ops.ofNat 0)
      p50 := percentile ops sorted (ops.hundredths 50)
      p95 := percentile ops sorted (ops.hundredths 95)
      max := sorted.getLastD (ops.ofNat 0)
      mean := ops.div (ops.sum sorted) (ops.ofNat sorted.length) }

/-! ## Without rounding -/

/-- Arithmetic that does not round; of the numbers only those made of digits are read. -/
def exactOps : FloatOps ℚ where
  ofNat n := n
  hundredths n := n / 100
  le x y := decide (x ≤ y)
  max x y := Max.max x y
  clamp x lo hi := if x < lo then lo else if hi < x then hi else x
  add x y := x + y
  sub x y := x - y
  mul x y := x * y
  div x y := x / y
  sum := List.sum
  floor x := x.floor.toNat
  ceil x := x.ceil.toNat
  fixed n x :=
    let scaled := (x * 10 ^ n + 1 / 2).floor.toNat
    let fraction := toString (scaled % 10 ^ n)
    toString (scaled / 10 ^ n) ++ "." ++ "".pushn '0' (n - fraction.length) ++ fraction
  parse s :=
    if s ≠ [] ∧ s.all Char.isDigit then
      some (s.foldl (fun n c => 10 * n + (c.toNat - 48) : Nat → Char → Nat) 0 : Nat)
    else none

end Metra.Client
