/-!
# Double precision numbers that are not negative

A number is held as a multiple of `2 ^ -1074`, the smallest one above zero. Rounding goes to the
nearest number of 53 significant bits, and a tie to the even one.
-/

namespace MemberBinding

structure Binary64 where
  units : Nat
  deriving DecidableEq, Repr

namespace Binary64

def unitsPerOne : Nat := Nat.pow 2 1074

def isZero (x : Binary64) : Bool := x.units == 0

/-- The integer nearest to `num / den`. -/
def roundDiv (num den : Nat) : Nat :=
  let q := num / den
  let twice := 2 * (num % den)
  if twice > den || (twice == den && q % 2 == 1) then q + 1 else q

/-- How many low bits of `units` a number of that size does without. -/
def spareBits (units : Nat) : Nat := units.log2 + 1 - 53

/-- The number nearest to `num / den`, unless it is too large. -/
def ofRatio? (num den : Nat) : Option Binary64 :=
  let scaled := num * unitsPerOne
  let step := Nat.pow 2 (spareBits (scaled / den))
  let units := roundDiv scaled (den * step) * step
  if units < Nat.pow 2 1024 * unitsPerOne then some ⟨units⟩ else none

def ofNat? (n : Nat) : Option Binary64 := ofRatio? n 1

def mul? (x y : Binary64) : Option Binary64 := ofRatio? (x.units * y.units) (unitsPerOne * unitsPerOne)

def div? (x y : Binary64) : Option Binary64 := ofRatio? x.units y.units

def powerOfTen? (k : Nat) : Option Binary64 := ofNat? (Nat.pow 10 k)

/-- Divides by `10 ^ k`, by at most `10 ^ 308` at a time. -/
def scaleDown? (x : Binary64) (k : Nat) : Option Binary64 :=
  if x.isZero then some x
  else if k ≤ 308 then powerOfTen? k >>= x.div?
  else (powerOfTen? 308 >>= x.div?) >>= (·.scaleDown? (k - 308))
termination_by k

def scaleUp? (x : Binary64) (k : Nat) : Option Binary64 :=
  if x.isZero then some x else if k ≤ 308 then powerOfTen? k >>= x.mul? else none

/-- `significand * 10 ^ exponent`, rounded once for the significand, once for the power of ten and
once for their product or quotient. -/
def ofScientific? (significand : Nat) (exponent : Int) : Option Binary64 :=
  ofNat? significand >>= fun x =>
    match exponent with
    | .ofNat k => x.scaleUp? k
    | .negSucc k => x.scaleDown? (k + 1)

end Binary64
end MemberBinding
