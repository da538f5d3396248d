/-!
# Doubles from decimal parts

A decimal number is read as an integer of at most twenty digits and a power of ten, and
the double is the integer multiplied or divided by the power: one rounding for the
integer, one for the power and one for the operation.
-/

namespace Classwright.Decimal

/-- The double nearest to a power of ten. -/
def powerOfTen (n : Nat) : Float :=
  Float.ofScientific 1 false n

/-- `x * 10 ^ exponent`. A power beyond the range of doubles is applied in two or three
steps if it is negative; `none` stands for a number out of range. -/
def scale? : Nat → Float → Int → Option Float
  | 0, x, _ => some x
  | steps + 1, x, exponent =>
    if exponent.natAbs ≤ 308 then
      if 0 ≤ exponent then
        let y := x * powerOfTen exponent.toNat
        if y.isInf then none else some y
      else some (x / powerOfTen exponent.natAbs)
    else if x == 0.0 then some x
    else if 0 ≤ exponent then none
    else scale? steps (x / powerOfTen 308) (exponent + 308)

/-- The bits of the double with the given sign, integer part (below `2 ^ 64`) and power
of ten. -/
def assemble? (negative : Bool) (significand : Nat) (exponent : Int) : Option UInt64 :=
  (scale? 4 significand.toUInt64.toFloat exponent).map fun x => (if negative then -x else x).toBits

end Classwright.Decimal
