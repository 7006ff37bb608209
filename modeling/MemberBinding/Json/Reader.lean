import MemberBinding.Json.Reading

/-!
# Reading JSON

One pass from left to right. `Step.rest` is what follows a value, or nothing once reading can not
go on. The number of steps is bounded by the length of the text.
-/

namespace MemberBinding.Reading

structure Step where
  value : Reading
  rest : Option (List Char)

def isBlank (c : Char) : Bool := c == ' ' || c == '\t' || c == '\n' || c == '\r'

def skipBlank (cs : List Char) : List Char := cs.dropWhile isBlank

/-- A fault that also ends skipping. -/
def stop (opening : Opening) (fault skipped : Fault) : Step :=
  ⟨.spoilt opening fault (some skipped), none⟩

/-! ## Literals -/

/-- The rest of a literal. -/
def literal (value : Reading) : (letters : List Char) → List Char → Step
  | [], cs => ⟨value, some cs⟩
  | _ :: _, [] => stop .other .truncated .truncated
  | l :: ls, c :: cs => if c = l then literal value ls cs else stop .other .malformed .malformed

/-! ## Numbers -/

def digitValue (c : Char) : Nat := c.toNat - '0'.toNat

def spanDigits (cs : List Char) : List Nat × List Char :=
  ((cs.takeWhile Char.isDigit).map digitValue, cs.dropWhile Char.isDigit)

/-- Skipping a number that ends too early finds it malformed. -/
def missingDigit : List Char → Step
  | [] => stop .other .truncated .malformed
  | _ :: _ => stop .other .malformed .malformed

def finishNumber (minus : Bool) (whole : List Nat) (fraction : Option (List Nat))
    (exponent : Option Int) (cs : List Char) : Step :=
  match Number.ofParts? minus whole fraction exponent with
  | some n => ⟨.number n, some cs⟩
  | none => ⟨.spoilt .other .malformed none, some cs⟩

def exponentPart (minus : Bool) (whole : List Nat) (fraction : Option (List Nat))
    (cs : List Char) : Step :=
  let (down, cs) : Bool × List Char :=
    match cs with
    | '+' :: cs => (false, cs)
    | '-' :: cs => (true, cs)
    | cs => (false, cs)
  match spanDigits cs with
  | ([], cs) => missingDigit cs
  | (ds, cs) =>
    let n : Int := (ds.foldl (fun n d => 10 * n + d) 0 : Nat)
    finishNumber minus whole fraction (some (if down then -n else n)) cs

def afterFraction (minus : Bool) (whole : List Nat) (fraction : Option (List Nat)) :
    List Char → Step
  | 'e' :: cs => exponentPart minus whole fraction cs
  | 'E' :: cs => exponentPart minus whole fraction cs
  | cs => finishNumber minus whole fraction none cs

def afterWhole (minus : Bool) (whole : List Nat) : List Char → Step
  | '.' :: cs =>
    match spanDigits cs with
    | ([], cs) => missingDigit cs
    | (ds, cs) => afterFraction minus whole (some ds) cs
  | cs => afterFraction minus whole none cs

/-- A leading zero stands alone. -/
def unsignedNumber (minus : Bool) (cs : List Char) : Step :=
  match spanDigits cs with
  | ([], cs) => missingDigit cs
  | (0 :: _ :: _, _) => stop .other .malformed .malformed
  | (ds, cs) => afterWhole minus ds cs

/-! ## Strings -/

def hexValue? (c : Char) : Option Nat :=
  if c.isDigit then some (c.toNat - '0'.toNat)
  else if 'a' ≤ c ∧ c ≤ 'f' then some (c.toNat - 'a'.toNat + 10)
  else if 'A' ≤ c ∧ c ≤ 'F' then some (c.toNat - 'A'.toNat + 10)
  else none

def fourHex? (a b c d : Char) : Option Nat := do
  some (((← hexValue? a) * 16 + (← hexValue? b)) * 256 + (← hexValue? c) * 16 + (← hexValue? d))

/-- The code unit of four hexadecimal digits. A text of less than four bytes is cut short, whatever
they are. -/
def codeUnit : List Char → Except Fault (Nat × List Char)
  | a :: b :: c :: d :: cs =>
    match fourHex? a b c d with
    | some n => .ok (n, cs)
    | none => .error .malformed
  | cs => .error (if 4 ≤ (String.ofList cs).utf8ByteSize then .malformed else .truncated)

def isLeading (n : Nat) : Bool := 0xD800 ≤ n && n ≤ 0xDBFF

def isTrailing (n : Nat) : Bool := 0xDC00 ≤ n && n ≤ 0xDFFF

/-- The escaped second half of a character. -/
def secondHalf : List Char → Except Fault (Nat × List Char)
  | [] => .error .truncated
  | ['\\'] => .error .truncated
  | '\\' :: 'u' :: cs =>
    match codeUnit cs with
    | .ok (n, cs) => if isTrailing n then .ok (n, cs) else .error .malformed
    | .error fault => .error fault
  | _ => .error .malformed

def joinHalves (first second : Nat) : Char :=
  Char.ofNat ((first - 0xD800) * 0x400 + (second - 0xDC00) + 0x10000)

def letterEscape? : Char → Option Char
  | '"' => some '"'
  | '\\' => some '\\'
  | '/' => some '/'
  | 'b' => some '\x08'
  | 'f' => some '\x0c'
  | 'n' => some '\n'
  | 'r' => some '\r'
  | 't' => some '\t'
  | _ => none

def stopText (flaw : Option Fault) (fault : Fault) : Step := stop .quote (flaw.getD fault) fault

/-- The rest of a string. `done` holds its characters so far, the last one first, and `flaw` the
fault that skipping would forgive. -/
def text : Nat → (done : List Char) → (flaw : Option Fault) → List Char → Step
  | 0, _, flaw, _ => stopText flaw .truncated
  | fuel + 1, done, flaw, cs =>
    match cs with
    | [] => stopText flaw .truncated
    | '"' :: cs =>
      match flaw with
      | none => ⟨.string (String.ofList done.reverse), some cs⟩
      | some fault => ⟨.spoilt .quote fault none, some cs⟩
    | ['\\'] => stopText flaw .truncated
    | '\\' :: 'u' :: cs =>
      match codeUnit cs with
      | .error fault => stopText flaw fault
      | .ok (n, cs) =>
        if isLeading n then
          match secondHalf cs with
          | .ok (m, cs) => text fuel (joinHalves n m :: done) flaw cs
          | .error fault => text fuel done (flaw.or (some fault)) cs
        else if isTrailing n then text fuel done (flaw.or (some .malformed)) cs
        else text fuel (Char.ofNat n :: done) flaw cs
    | '\\' :: c :: cs =>
      match letterEscape? c with
      | some d => text fuel (d :: done) flaw cs
      | none => stopText flaw .malformed
    | c :: cs =>
      if c.toNat < 0x20 then stopText flaw .malformed else text fuel (c :: done) flaw cs

/-! ## Values -/

mutual

def value : Nat → List Char → Step
  | 0, _ => stop .nothing .truncated .truncated
  | fuel + 1, cs =>
    match skipBlank cs with
    | [] => stop .nothing .truncated .truncated
    | '"' :: cs => text fuel [] none cs
    | '[' :: cs =>
      match skipBlank cs with
      | [] => ⟨.array [] (some .truncated), none⟩
      | ']' :: cs => ⟨.array [] none, some cs⟩
      | cs => items fuel [] cs
    | '\x7b' :: cs =>
      match skipBlank cs with
      | [] => ⟨.object [] (some .truncated), none⟩
      | '\x7d' :: cs => ⟨.object [] none, some cs⟩
      | cs => fields fuel [] cs
    | 'n' :: cs => literal .null ['u', 'l', 'l'] cs
    | 't' :: cs => literal (.bool true) ['r', 'u', 'e'] cs
    | 'f' :: cs => literal (.bool false) ['a', 'l', 's', 'e'] cs
    | '-' :: cs => unsignedNumber true cs
    | c :: cs =>
      if c.isDigit then unsignedNumber false (c :: cs) else stop .other .malformed .malformed

/-- From an item on. -/
def items : Nat → (done : List Reading) → List Char → Step
  | 0, done, _ => ⟨.array done.reverse (some .truncated), none⟩
  | fuel + 1, done, cs =>
    let step := value fuel cs
    let done := step.value :: done
    match step.rest with
    | none => ⟨.array done.reverse none, none⟩
    | some cs =>
      match skipBlank cs with
      | [] => ⟨.array done.reverse (some .truncated), none⟩
      | ']' :: cs => ⟨.array done.reverse none, some cs⟩
      | ',' :: cs => items fuel done cs
      | _ => ⟨.array done.reverse (some .malformed), none⟩

/-- From a key on. -/
def fields : Nat → (done : List (Reading × Reading)) → List Char → Step
  | 0, done, _ => ⟨.object done.reverse (some .truncated), none⟩
  | fuel + 1, done, cs =>
    let stopAt (key value : Reading) : Step := ⟨.object ((key, value) :: done).reverse none, none⟩
    match skipBlank cs with
    | '"' :: cs =>
      let key := text fuel [] none cs
      match key.rest with
      | none => stopAt key.value .null
      | some cs =>
        match skipBlank cs with
        | [] => stopAt key.value (.spoilt .nothing .truncated (some .truncated))
        | ':' :: cs =>
          let step := value fuel cs
          let done := (key.value, step.value) :: done
          match step.rest with
          | none => ⟨.object done.reverse none, none⟩
          | some cs =>
            match skipBlank cs with
            | [] => ⟨.object done.reverse (some .truncated), none⟩
            | '\x7d' :: cs => ⟨.object done.reverse none, some cs⟩
            | ',' :: cs => fields fuel done cs
            | _ => ⟨.object done.reverse (some .malformed), none⟩
        | _ => stopAt key.value (.spoilt .other .malformed (some .malformed))
    | cs => stopAt (value fuel cs).value .null

end

/-- A text as a value, and whether anything but blanks follows it. -/
structure Document where
  value : Reading
  followed : Bool

def ofText (text : String) : Document :=
  let cs := text.toList
  let step := value (2 * cs.length + 1) cs
  ⟨step.value, step.rest.any fun cs => !(skipBlank cs).isEmpty⟩

end MemberBinding.Reading
