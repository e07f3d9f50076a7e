/-!
# Double-precision numbers

A double is given by its bits. Equality is that of the numbers and not of the bits: the two zeros
are equal, and what is not a number equals nothing, not even itself. So it is neither reflexive nor
finer than what can be told apart by writing a number down.

A decimal in a document is read as a significand below `2 ^ 64` and a power of ten, and scaled by
one floating-point step. A double is written with the fewest digits that are nearer to it than to
any other double, with an exponent only below `1e-5` and from `1e16` on; a double that is no finite
number is written as `null`.
-/

namespace Regen.Double

/-- The double nearest to `10 ^ e`. -/
def powerOfTen (e : Nat) : Float :=
  Float.ofScientific 1 false e

/-- The largest exponent of ten that a finite double has. -/
def maxExponent : Nat := 308

/-- Divide by `10 ^ e`, in steps of the largest power of ten until nothing is left. -/
def scaleDown (f : Float) (e : Nat) : Float :=
  if e ≤ maxExponent then f / powerOfTen e
  else if f == 0.0 then f
  else scaleDown (f / powerOfTen maxExponent) (e - maxExponent)
termination_by e
decreasing_by simp only [maxExponent] at *; omega

/-- Multiply by `10 ^ e`; a result that is too large is refused. -/
def scaleUp? (f : Float) (e : Nat) : Option Float :=
  if e ≤ maxExponent then
    let scaled := f * powerOfTen e
    if scaled.isInf then none else some scaled
  else if f == 0.0 then some f
  else none

/-- The double that a decimal with this sign, significand and exponent of ten reads as. -/
def ofDecimal? (negative : Bool) (significand : Nat) (exponent : Int) : Option UInt64 :=
  let f := significand.toUInt64.toFloat
  let magnitude? := if exponent < 0 then some (scaleDown f exponent.natAbs)
    else scaleUp? f exponent.natAbs
  magnitude?.map fun magnitude => (if negative then -magnitude else magnitude).toBits

/-- The bits of the double without its sign. -/
def magnitude (bits : UInt64) : Nat :=
  bits.toNat % 0x8000000000000000

def isNegative (bits : UInt64) : Bool :=
  0x8000000000000000 ≤ bits.toNat

/-- The bits of infinity. Beyond them nothing is a number. -/
def infinity : Nat := 0x7ff0000000000000

/-- Whether two doubles are equal as numbers. -/
def equal (a b : UInt64) : Bool :=
  magnitude a ≤ infinity && magnitude b ≤ infinity &&
    (a == b || magnitude a == 0 && magnitude b == 0)

/-- The number `quarters * 2 ^ power` that a finite double above zero is, with the numbers halfway
to its neighbours. These still read as the double if its significand is even. -/
structure Span where
  below : Nat
  quarters : Nat
  above : Nat
  power : Int
  closed : Bool

/-- The span of the double with this magnitude. -/
def span (magnitude : Nat) : Span :=
  let hidden := 0x10000000000000
  let exponent := magnitude / hidden
  let fraction := magnitude % hidden
  let significand := if exponent = 0 then fraction else fraction + hidden
  -- the neighbour below a power of two is half as far away
  let below := if fraction = 0 ∧ 1 < exponent then 4 * significand - 1 else 4 * significand - 2
  ⟨below, 4 * significand, 4 * significand + 2, (max exponent 1 : Nat) - 1077,
    significand % 2 == 0⟩

/-- The multiple of `10 ^ e` nearest to a double, if it reads as the double; of two that are
equally near the even one. -/
def Span.multiple? (span : Span) (e : Int) : Option Nat :=
  let step := Nat.pow 10 e.toNat * Nat.pow 2 (-span.power).toNat
  let unit := Nat.pow 10 (-e).toNat * Nat.pow 2 span.power.toNat
  let reads (n : Nat) : Bool :=
    if span.closed then span.below * unit ≤ n * step && n * step ≤ span.above * unit
    else span.below * unit < n * step && n * step < span.above * unit
  let n := span.quarters * unit / step
  let rest := 2 * (span.quarters * unit % step)
  let nearest := if step < rest ∨ step = rest ∧ n % 2 = 1 then n + 1 else n
  if reads nearest then some nearest else if reads n then some n
  else if reads (n + 1) then some (n + 1) else none

/-- The decimal with the fewest digits that reads as the double, as `n * 10 ^ e`. Grids are searched
from `10 ^ (k - 345)` downwards. -/
def Span.shortest (span : Span) : (k : Nat) → Nat × Int
  | 0 => (0, 0)
  | k + 1 =>
    let e : Int := k - 345
    match span.multiple? e with
    | some n => (n, e)
    | none => span.shortest k

/-- Write `n * 10 ^ e`. -/
def written (n : Nat) (e : Int) : String :=
  let digits := (toString n).toList
  let point : Int := digits.length + e
  let zeros (count : Int) : String := String.ofList (List.replicate count.toNat '0')
  let before := String.ofList (digits.take point.toNat)
  let after := String.ofList (digits.drop point.toNat)
  if 16 < point ∨ point ≤ -5 then
    let fraction := String.ofList (digits.drop 1)
    String.ofList (digits.take 1) ++ (if fraction.isEmpty then "" else "." ++ fraction) ++ "e" ++
      toString (point - 1)
  else if 0 ≤ e then before ++ zeros e ++ ".0"
  else if 0 < point then before ++ "." ++ after
  else "0." ++ zeros (-point) ++ after

/-- The text of the double with these bits. -/
def text (bits : UInt64) : String :=
  let sign := if isNegative bits then "-" else ""
  if infinity ≤ magnitude bits then "null"
  else if magnitude bits = 0 then sign ++ "0.0"
  else
    let (n, e) := (span (magnitude bits)).shortest 660
    sign ++ written n e

example : equal 0 0x8000000000000000 = true ∧
    equal 0x7ff8000000000000 0x7ff8000000000000 = false := by
  decide

end Regen.Double
