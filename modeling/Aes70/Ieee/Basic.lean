import Mathlib.Algebra.Order.Ring.Int
import Mathlib.Data.Nat.Log
import Mathlib.Order.Lattice

/-!
# Binary interchange formats

Floating-point data by their bit patterns, for every exponent width `e` and fraction width `m`.
The value of a finite datum is the dyadic number `± T * 2 ^ E`; comparison is done on an integer
key that orders the encodings the way their values are ordered, and every rounding operation is
round-half-even into the format.

* `Binary e m` : a datum; `Single` and `Double` are the two formats in use.
* `Binary.lt`, `Binary.eqv` : the order comparisons, false as soon as an operand is not a number.
* `Binary.ofDyadic` : correctly rounded construction from a dyadic number.
* `Binary.convert` : conversion between formats (exact when widening).
* `Binary.trunc` : the integer obtained by dropping the fraction.

Payloads of not-a-number data are dropped by `convert`.
-/

namespace Ieee

/-- A datum of the format with `e` exponent bits and `m` fraction bits. -/
structure Binary (e m : ℕ) where
  /-- The interchange encoding: sign bit, biased exponent, fraction. -/
  bits : BitVec (e + m + 1)
deriving DecidableEq

/-- Single precision. -/
abbrev Single := Binary 8 23

/-- Double precision. -/
abbrev Double := Binary 11 52

namespace Binary

variable {e m : ℕ}

/-- The sign bit. -/
def sign (x : Binary e m) : Bool := x.bits.msb

/-- Exponent and fraction fields read as one number; it grows with the absolute value. -/
def mag (x : Binary e m) : ℕ := x.bits.toNat % 2 ^ (e + m)

/-- The magnitude field of the infinities. -/
def infMag (e m : ℕ) : ℕ := (2 ^ e - 1) * 2 ^ m

/-- Not a number: the magnitude field lies above that of the infinities. -/
def isNaN (x : Binary e m) : Bool := decide (infMag e m < x.mag)

/-- The integer that orders the data which are numbers; both zeros have key 0. -/
def key (x : Binary e m) : ℤ := if x.sign then -(x.mag : ℤ) else x.mag

/-- `x < y`. -/
def lt (x y : Binary e m) : Bool := !x.isNaN && !y.isNaN && decide (x.key < y.key)

/-- `x == y`. -/
def eqv (x y : Binary e m) : Bool := !x.isNaN && !y.isNaN && decide (x.key = y.key)

/-- The datum with the given sign and magnitude field. -/
def pack (s : Bool) (mag : ℕ) : Binary e m := ⟨BitVec.ofNat _ (s.toNat * 2 ^ (e + m) + mag)⟩

/-- Positive zero, the all-zero pattern. -/
def zero : Binary e m := ⟨0⟩

instance : Inhabited (Binary e m) := ⟨zero⟩

/-- The exponent of the least significant bit of a subnormal datum. -/
def qmin (e m : ℕ) : ℤ := 2 - 2 ^ (e - 1) - m

/-- The significand and exponent of the absolute value of a finite datum. -/
def toDyadic (x : Binary e m) : ℕ × ℤ :=
  let expo := x.mag / 2 ^ m
  let frac := x.mag % 2 ^ m
  if expo = 0 then (frac, qmin e m) else (2 ^ m + frac, qmin e m + (expo - 1 : ℕ))

/-- `n / 2 ^ k` rounded to the nearest integer, ties to even. -/
def shiftRound (n k : ℕ) : ℕ :=
  let q := n / 2 ^ k
  let r := n % 2 ^ k
  if 2 * r < 2 ^ k then q else if 2 * r = 2 ^ k then q + q % 2 else q + 1

/-- The datum nearest to `± M * 2 ^ E`. -/
def ofDyadic (s : Bool) (M : ℕ) (E : ℤ) : Binary e m :=
  if M = 0 then pack s 0 else
    let q := max ((Nat.log2 M : ℤ) + E - m) (qmin e m)
    let T := if q ≤ E then M * 2 ^ (E - q).toNat else shiftRound M (q - E).toNat
    pack s (min ((q - qmin e m).toNat * 2 ^ m + T) (infMag e m))

/-- Conversion to another format. -/
def convert {e' m' : ℕ} (x : Binary e m) : Binary e' m' :=
  if x.isNaN then pack x.sign (infMag e' m' + 2 ^ (m' - 1))
  else if x.mag = infMag e m then pack x.sign (infMag e' m')
  else ofDyadic x.sign x.toDyadic.1 x.toDyadic.2

/-- The datum nearest to a natural number. -/
def ofNat (n : ℕ) : Binary e m := ofDyadic false n 0

/-- The datum nearest to an integer. -/
def ofInt (z : ℤ) : Binary e m := ofDyadic (decide (z < 0)) z.natAbs 0

/-- Truncation toward zero; 0 for a datum without an integer part. -/
def trunc (x : Binary e m) : ℤ :=
  if infMag e m ≤ x.mag then 0 else
    let (M, E) := x.toDyadic
    let n : ℕ := if 0 ≤ E then M * 2 ^ E.toNat else M / 2 ^ (-E).toNat
    if x.sign then -(n : ℤ) else n

/-- The datum lies in `[lo, hi]` as the comparison `!(x < lo || x > hi)` decides it. -/
def within (x lo hi : Binary e m) : Bool := !(x.lt lo || hi.lt x)

end Binary

example : (Binary.ofNat 1000 : Single).bits = 0x447A0000#32 := by decide
example : (Binary.ofInt (-20) : Single).bits = 0xC1A00000#32 := by decide
example : ((Binary.ofInt (-20) : Single).convert : Double).bits = 0xC034000000000000#64 := by decide
example : ((⟨0x3FB999999999999A#64⟩ : Double).convert : Single).bits = 0x3DCCCCCD#32 := by decide
example : (⟨0xC034000000000000#64⟩ : Double).trunc = -20 := by decide

end Ieee
