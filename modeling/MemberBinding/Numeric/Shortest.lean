import MemberBinding.Numeric.Binary64

/-!
# The shortest decimal that reads back

For one significant digit, then two, and so on, the two neighbours of the number on the grid of
that many digits are tried; the first grid with a neighbour that rounds to the number wins, and of
two neighbours the nearer.
-/

namespace MemberBinding.Binary64

/-- `digits * 10 ^ exponent`. -/
structure Decimal where
  digits : Nat
  exponent : Int
  deriving DecidableEq, Repr

/-- The distances, in quarters of a unit, to the ends of the interval that rounds to the number. -/
structure Margins where
  below : Nat
  above : Nat
  closed : Bool

def margins (x : Binary64) : Margins :=
  let spare := spareBits x.units
  let step := Nat.pow 2 spare
  let mantissa := x.units / step
  { below := if mantissa = Nat.pow 2 52 ∧ 0 < spare then step else 2 * step
    above := 2 * step
    closed := mantissa % 2 = 0 }

/-- The power of ten of the leading digit. -/
def leadingPower (x : Binary64) : Int :=
  ((x.units * Nat.pow 10 400 / unitsPerOne).repr.length : Int) - 401

/-- How far `num / den`, in quarters of a unit, is from `x`, if it rounds to `x`; scaled by `den`. -/
def distance? (x : Binary64) (num den : Nat) : Option Nat :=
  let m := x.margins
  let target := 4 * x.units * den
  let d := max num target - min num target
  let limit := (if num < target then m.below else m.above) * den
  if d < limit || (m.closed && d == limit) then some d else none

/-- The decimal with a last digit that is not zero: only a power of ten reaches a new length. -/
def candidate? (x : Binary64) (count : Nat) (exponent : Int) (digits : Nat) :
    Option (Nat × Decimal) :=
  let num := 4 * digits * unitsPerOne * Nat.pow 10 exponent.toNat
  let den := Nat.pow 10 (-exponent).toNat
  (x.distance? num den).map
    (·, if digits = Nat.pow 10 count then ⟨1, exponent + count⟩ else ⟨digits, exponent⟩)

def shortestOf? (x : Binary64) (count : Nat) : Option Decimal :=
  let exponent := x.leadingPower + 1 - count
  let floor := x.units * Nat.pow 10 (-exponent).toNat / (unitsPerOne * Nat.pow 10 exponent.toNat)
  match x.candidate? count exponent floor, x.candidate? count exponent (floor + 1) with
  | some (d, low), some (e, high) =>
    if d < e || (d == e && floor % 2 == 0) then some low else some high
  | some (_, low), none => some low
  | none, some (_, high) => some high
  | none, none => none

/-- Seventeen digits always suffice. -/
def shortest (x : Binary64) : Decimal :=
  ((List.range 17).findSome? fun n => x.shortestOf? (n + 1)).getD ⟨0, 0⟩

private def zeros (n : Nat) : String := String.ofList (List.replicate n '0')

/-- Positional from `10 ^ -5` up to `10 ^ 16`, with a point in every case; beyond, one digit before
the point and an exponent with its sign. -/
def text (x : Binary64) : String :=
  if x.isZero then "0.0"
  else
    let d := x.shortest
    let digits := d.digits.repr
    let point : Int := digits.length + d.exponent
    if 0 ≤ d.exponent ∧ point ≤ 16 then digits ++ zeros d.exponent.toNat ++ ".0"
    else if 0 < point ∧ point ≤ 16 then
      String.ofList (digits.toList.take point.toNat) ++ "." ++
        String.ofList (digits.toList.drop point.toNat)
    else if -5 < point ∧ point ≤ 0 then "0." ++ zeros (-point).toNat ++ digits
    else
      let tail := String.ofList (digits.toList.drop 1)
      String.ofList (digits.toList.take 1) ++ (if tail.isEmpty then "" else "." ++ tail) ++
        (if 0 < point then "e+" ++ (point - 1).toNat.repr else "e-" ++ (1 - point).toNat.repr)

end MemberBinding.Binary64
