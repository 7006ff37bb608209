import MemberBinding.BindingKind
import MemberBinding.Violation

/-!
# Collected violations

In the order of their first report, each message once. A run ends with its result when nothing was
reported, and otherwise with one failure that lists everything.
-/

namespace MemberBinding

structure Failure where
  kind : BindingKind
  violations : List Violation
  deriving DecidableEq, Repr

namespace Failure

def messages (f : Failure) : List String := f.violations.map Violation.message

def numbered (messages : List String) : String :=
  String.join (messages.zipIdx.map fun e => s!"\n{e.2 + 1}. {e.1}")

def message (f : Failure) : String :=
  s!"internal errors of {f.kind.label} patching:" ++ numbered f.messages

def hasCategory (f : Failure) (c : Category) : Bool := f.violations.any (·.category == c)

end Failure

/-- `seen` holds the messages of `kept`, so that none is rendered twice. -/
structure Diagnostics where
  kept : List Violation := []
  seen : List String := []
  deriving DecidableEq, Repr

namespace Diagnostics

/-- Two violations are the same when their messages are. -/
def push (d : Diagnostics) (v : Violation) : Diagnostics :=
  let text := v.message
  if d.seen.contains text then d else ⟨d.kept ++ [v], d.seen ++ [text]⟩

def extend (d : Diagnostics) (vs : List Violation) : Diagnostics := vs.foldl push d

def ofList (vs : List Violation) : Diagnostics := extend {} vs

def isEmpty (d : Diagnostics) : Bool := d.kept.isEmpty

def size (d : Diagnostics) : Nat := d.kept.length

def finish {α : Type} (d : Diagnostics) (kind : BindingKind) (result : α) : Except Failure α :=
  if d.isEmpty then .ok result else .error ⟨kind, d.kept⟩

@[simp] theorem extend_nil (d : Diagnostics) : d.extend [] = d := rfl

@[simp] theorem extend_cons (d : Diagnostics) (v : Violation) (vs : List Violation) :
    d.extend (v :: vs) = (d.push v).extend vs := rfl

theorem extend_append (d : Diagnostics) (vs ws : List Violation) :
    d.extend (vs ++ ws) = (d.extend vs).extend ws := List.foldl_append

end Diagnostics
end MemberBinding
