/-!
# The shortest decimal text of a double

A finite double stands for a dyadic number `significand * 2 ^ exponent`, and all reals
nearer to it than to its neighbours read as the same double. `shortest` finds the
coarsest power of ten on whose grid one of the two neighbours of the number lies in that
interval, and of two such neighbours the nearer one.

`Form` says how the digits are laid out as text.
-/

namespace Classwright.Decimal

/-- A positive dyadic number `significand * 2 ^ exponent`; below it the next double may
be only half as far. -/
structure Dyadic where
  /-- The integer part of the number in units of the last place. -/
  significand : Nat
  /-- The unit of the last place, as a power of two. -/
  exponent : Int
  /-- Whether the gap below is half the gap above. -/
  narrowBelow : Bool
deriving DecidableEq, Repr

/-- A positive decimal number `digits * 10 ^ exponent`. -/
structure Scaled where
  /-- The digits, read as one integer. -/
  digits : Nat
  /-- The unit of the last digit, as a power of ten. -/
  exponent : Int
deriving DecidableEq, Repr

/-- The neighbour of `x` on the grid of `10 ^ k` that reads back as `x`, the nearer one
if both do. -/
def Dyadic.onGrid? (x : Dyadic) (k : Int) : Option Scaled :=
  let q := x.exponent - 2
  let scale := Nat.pow 2 q.toNat * Nat.pow 10 (-k).toNat
  let unit := Nat.pow 2 (-q).toNat * Nat.pow 10 k.toNat
  let value := 4 * x.significand * scale
  let low := (4 * x.significand - if x.narrowBelow then 1 else 2) * scale
  let high := (4 * x.significand + 2) * scale
  let closed := x.significand % 2 == 0
  let reads := fun c => if closed then low ≤ c * unit && c * unit ≤ high else low < c * unit &&
    c * unit < high
  let below := value / unit
  let above := below + 1
  let belowGap := value - below * unit
  let aboveGap := above * unit - value
  let preferBelow := belowGap < aboveGap || (belowGap == aboveGap && below % 2 == 0)
  if reads below && (preferBelow || !reads above) then some ⟨below, k⟩
  else if reads above then some ⟨above, k⟩
  else none

/-- The number on the coarsest grid that reads back as `x`. -/
def Dyadic.shortest (x : Dyadic) : Scaled :=
  let bits : Int := Nat.log2 x.significand + 1 + x.exponent
  let top : Int := bits * 30103 / 100000 + 2
  ((List.range 24).findSome? fun (i : Nat) => x.onGrid? (top - (i : Int))).getD ⟨x.significand, 0⟩

/-- The digits of a natural number. -/
def digitsOf (n : Nat) : List Char :=
  Nat.toDigits 10 n

/-- How a decimal number is laid out. -/
structure Form where
  /-- The least power of ten of the first digit that is written without an exponent. -/
  least : Int
  /-- The greatest power of ten of the first digit that is written without an exponent. -/
  greatest : Int
  /-- What stands between the digits and a positive exponent. -/
  positive : List Char
  /-- What stands between the digits and a negative exponent. -/
  negative : List Char

/-- A digit, and the other digits after a point if there are any. -/
def pointed : List Char → List Char
  | [] => []
  | [d] => [d]
  | d :: rest => d :: '.' :: rest

/-- The text of a positive decimal number. -/
def Scaled.text (layout : Form) (x : Scaled) : List Char :=
  let digits := digitsOf x.digits
  let lead : Int := x.exponent + digits.length - 1
  if layout.least ≤ lead && lead ≤ layout.greatest then
    if lead < 0 then '0' :: '.' :: List.replicate (-lead - 1).toNat '0' ++ digits
    else if 0 ≤ x.exponent then digits ++ List.replicate x.exponent.toNat '0' ++ ['.', '0']
    else digits.take (lead.toNat + 1) ++ '.' :: digits.drop (lead.toNat + 1)
  else if lead < 0 then pointed digits ++ layout.negative ++ digitsOf (-lead).toNat
  else pointed digits ++ layout.positive ++ digitsOf lead.toNat

/-- What a double is, read off its bits. -/
inductive Kind where
  | nan
  | infinite
  | zero
  | finite (x : Dyadic)
deriving DecidableEq, Repr

/-- Whether the sign bit is set. -/
def isNegative (bits : UInt64) : Bool :=
  Nat.pow 2 63 ≤ bits.toNat

/-- The magnitude that the bits of a double stand for. -/
def kindOf (bits : UInt64) : Kind :=
  let magnitude := bits.toNat % Nat.pow 2 63
  let biased := magnitude / Nat.pow 2 52
  let fraction := magnitude % Nat.pow 2 52
  if biased == 2047 then if fraction == 0 then .infinite else .nan
  else if biased == 0 then if fraction == 0 then .zero else .finite ⟨fraction, -1074, false⟩
  else .finite ⟨Nat.pow 2 52 + fraction, Int.ofNat biased - 1075, fraction == 0 && 1 < biased⟩

/-- The text of a double in a layout. -/
def textOf (layout : Form) (bits : UInt64) : String :=
  let sign := if isNegative bits then ['-'] else []
  match kindOf bits with
  | .nan => "NaN"
  | .infinite => String.ofList (sign ++ ['i', 'n', 'f'])
  | .zero => String.ofList (sign ++ ['0', '.', '0'])
  | .finite x => String.ofList (sign ++ x.shortest.text layout)

end Classwright.Decimal
