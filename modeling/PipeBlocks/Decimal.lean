import PipeBlocks.Text.Number

/-! Decimal numbers as binary floating point, and back.

`Binary.ofDecimal?` rounds a decimal number to the nearest value of 64-bit binary
floating point, a half to the even neighbour; `Binary.shortest` gives the fewest
decimal digits that still round to the value. All arithmetic is exact. -/
namespace PipeBlocks.Decimal

/-- The number `mantissa * 2 ^ exponent`, with a mantissa below `2 ^ 53`. -/
structure Binary where
  mantissa : Nat
  exponent : Int
deriving DecidableEq, Repr

def minExponent : Int := -1074

def maxExponent : Int := 971

/-- A fraction over `2 ^ k`, as numerator and denominator. -/
def overPow2 (a b : Nat) (k : Int) : Nat × Nat :=
  if 0 ≤ k then (a, b * Nat.pow 2 k.toNat) else (a * Nat.pow 2 (-k).toNat, b)

/-- A fraction over `10 ^ k`, as numerator and denominator. -/
def overPow10 (a b : Nat) (k : Int) : Nat × Nat :=
  if 0 ≤ k then (a, b * Nat.pow 10 k.toNat) else (a * Nat.pow 10 (-k).toNat, b)

/-- The whole number nearest to `a / b`, a half going to the even one. -/
def roundDiv (a b : Nat) : Nat :=
  let q := a / b
  let r := a % b
  if 2 * r < b || (2 * r = b && q % 2 = 0) then q else q + 1

namespace Binary

/-- The value nearest to `n * 10 ^ e`, unless that is beyond all of them. -/
def ofDecimal? (n : Nat) (e : Int) : Option Binary :=
  let size : Int := (Nat.toDigits 10 n).length + e
  if n = 0 || size < -330 then some ⟨0, minExponent⟩
  else if size > 310 then none
  else
    let (a, b) := overPow10 n 1 (-e)
    -- the least exponent that leaves less than 2 ^ 53
    let guess : Int := (a.log2 : Int) - b.log2 - 53
    let (c, d) := overPow2 a b (guess + 53)
    let q := max (if c < d then guess else guess + 1) minExponent
    let (c, d) := overPow2 a b q
    let m := roundDiv c d
    let rounded : Binary := if m = Nat.pow 2 53 then ⟨Nat.pow 2 52, q + 1⟩ else ⟨m, q⟩
    if rounded.exponent > maxExponent then none else some rounded

/-- Whether the fraction `a / b` rounds to the value. -/
def covers (x : Binary) (a b : Nat) : Bool :=
  -- in quarters of the last place, the bounds are whole
  let below := 4 * x.mantissa - (if x.mantissa = Nat.pow 2 52 && minExponent < x.exponent then 1 else 2)
  let above := 4 * x.mantissa + 2
  let (a, b) := overPow2 a b (x.exponent - 2)
  if x.mantissa % 2 = 0 then below * b ≤ a && a ≤ above * b else below * b < a && a < above * b

/-- The multiple of `10 ^ k` nearest to the value, of those that round to it. -/
def onGrid? (x : Binary) (k : Int) : Option Nat :=
  let (a, b) := overPow2 x.mantissa 1 (-x.exponent)
  let (a, b) := overPow10 a b k
  let lower := a / b
  let (c, d) := overPow10 1 1 (-k)
  let lowerFits := x.covers (lower * c) d
  let upperFits := x.covers ((lower + 1) * c) d
  if lowerFits && (!upperFits || 2 * (a % b) < b) then some lower
  else if upperFits then some (lower + 1)
  else none

/-- Digits and exponent of the shortest decimal number that rounds to the value. -/
def shortest (x : Binary) : Nat × Int :=
  if x.mantissa = 0 then (0, 0)
  else
    ((List.range 640).findSome? fun (i : Nat) =>
      let k : Int := 310 - i
      (x.onGrid? k).map fun n => (n, k)).getD (0, 0)

/-- The shortest digits without an exponent, and with at least one of them after the point. -/
def toText (x : Binary) : Text :=
  let (n, k) := x.shortest
  let digits := Text.ofNat n
  if 0 ≤ k then digits ++ List.replicate k.toNat '0' ++ ".0".toList
  else
    let places := (-k).toNat
    let digits := List.replicate (places + 1 - digits.length) '0' ++ digits
    let whole := digits.length - places
    digits.take whole ++ '.' :: digits.drop whole

end Binary

/-- A decimal number with a point or an exponent, as digits and a power of ten. -/
def parse? (t : Text) : Option (Nat × Int) :=
  let whole := t.takeWhile Char.isDigit
  let afterWhole := t.dropWhile Char.isDigit
  let (places, rest) := match afterWhole with
    | '.' :: r => (r.takeWhile Char.isDigit, r.dropWhile Char.isDigit)
    | r => ([], r)
  let exponent? : Option Int := match rest with
    | [] => some 0
    | c :: r =>
      if c = 'e' || c = 'E' then
        match r with
        | '-' :: r => (Text.toNat? 10 r).map fun n => -(n : Int)
        | '+' :: r => (Text.toNat? 10 r).map (↑·)
        | r => (Text.toNat? 10 r).map (↑·)
      else none
  match Text.toNat? 10 (whole ++ places), exponent? with
  | some n, some e => some (n, e - places.length)
  | _, _ => none

end PipeBlocks.Decimal
