import MemberBinding.Numeric.Shortest

/-!
# Numbers in JSON

An integer of at most 64 bits is kept as it is. Any other number, and minus zero, is a double; one
that is too large for a double is no number.
-/

namespace MemberBinding

inductive Number
  | natural (n : Nat)
  /-- The number `-n`, for `n` above zero. -/
  | negative (n : Nat)
  | real (minus : Bool) (magnitude : Binary64)
  deriving DecidableEq, Repr

namespace Number

/-- Appends digits to a significand of 64 bits until one no longer fits; also counts the digits left
over. -/
def absorb (significand : Nat) : List Nat → Nat × Nat
  | [] => (significand, 0)
  | d :: ds =>
    if significand * 10 + d < Nat.pow 2 64 then absorb (significand * 10 + d) ds
    else (significand, ds.length + 1)

def ofInteger? (minus : Bool) (n : Nat) : Option Number :=
  if !minus then some (natural n)
  else if 0 < n ∧ n ≤ Nat.pow 2 63 then some (negative n)
  else (Binary64.ofNat? n).map (real true)

/-- The number with the given digits before the point, after it, and the given exponent. -/
def ofParts? (minus : Bool) (whole : List Nat) (fraction : Option (List Nat))
    (exponent : Option Int) : Option Number :=
  let (significand, excess) := absorb 0 whole
  if excess = 0 ∧ fraction.isNone ∧ exponent.isNone then ofInteger? minus significand
  else
    let digits := fraction.getD []
    let (significand, left) := absorb significand digits
    let shift : Int := (excess : Int) - ((digits.length - left : Nat) : Int)
    (Binary64.ofScientific? significand (shift + exponent.getD 0)).map (real minus)

def text : Number → String
  | natural n => n.repr
  | negative n => "-" ++ n.repr
  | real minus x => (if minus then "-" else "") ++ x.text

end Number
end MemberBinding
