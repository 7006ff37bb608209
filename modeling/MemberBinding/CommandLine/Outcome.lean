import MemberBinding.Codec.Bindings
import MemberBinding.CommandLine.Arguments
import MemberBinding.Json.Printer

/-!
# Running a command

A snapshot that can not be had ends a command; names and members that break the rules are an
outcome like any other.
-/

namespace MemberBinding

inductive ReadFault
  | notFound
  | invalidText
  deriving DecidableEq, Repr

def ReadFault.message : ReadFault → String
  | notFound => "no such file"
  | invalidText => "stream did not contain valid UTF-8"

/-- Why no snapshot could be had from a path. -/
inductive LoadFault
  | unreadable (path : String) (cause : ReadFault)
  | unparsable (path : String) (cause : DecodeError)
  deriving DecidableEq, Repr

def LoadFault.message : LoadFault → String
  | unreadable path _ => s!"Failed to read snapshot {path}"
  | unparsable path _ => s!"Failed to parse snapshot {path}"

def LoadFault.cause : LoadFault → String
  | unreadable _ fault => fault.message
  | unparsable _ e => e.message

inductive Outcome
  | success (text : String)
  | rejected (text : String)
  deriving DecidableEq, Repr

namespace Outcome

def isSuccess : Outcome → Bool
  | success _ => true
  | rejected _ => false

def text : Outcome → String
  | success t | rejected t => t

end Outcome

/-- The bytes of a file, if there is one. -/
abbrev Content := Option ByteArray

def Content.text (content : Content) : Except ReadFault String :=
  match content with
  | none => .error .notFound
  | some bytes =>
    match String.fromUTF8? bytes with
    | some text => .ok text
    | none => .error .invalidText

def Snapshot.load (path : String) (content : Content) : Except LoadFault Snapshot := do
  let text ← content.text.mapError (.unreadable path)
  (Snapshot.decode.ofText text).mapError (.unparsable path)

def Bindings.render (json : Bool) (bs : Bindings) : String :=
  if json then bs.toJson.prettyText else "\n".intercalate bs.lines

namespace ResolveRequest

/-- The outcome for a snapshot, under the standard conventions and type names. -/
def outcome (r : ResolveRequest) (s : Snapshot) : Outcome :=
  match Bindings.resolve r.kind { options := r.options } s r.mode with
  | .ok bs => .success (bs.render r.json)
  | .error failure => .rejected failure.message

def run (r : ResolveRequest) (content : Content) : Except LoadFault Outcome :=
  (Snapshot.load r.snapshot content).map r.outcome

end ResolveRequest

/-- The outcome of a name conversion under the standard conventions. -/
def convertOutcome (name : String) (source target : Role) : Outcome :=
  match Conventions.standard.convert name source target with
  | .ok converted => .success converted
  | .error fault => .rejected fault.message

def version : String := "0.1.0"

/-- How the program ends. -/
inductive Report
  | printed (text : String)
  | rejected (text : String)
  | misused
  | failed (fault : LoadFault)
  deriving DecidableEq, Repr

namespace Report

def ofOutcome : Outcome → Report
  | .success text => printed text
  | .rejected text => rejected text

def exitCode : Report → Nat
  | printed _ => 0
  | rejected _ => 1
  | misused | failed _ => 2

/-- An empty text prints no line. -/
def stdout : Report → String
  | printed text => if text.isEmpty then "" else text ++ "\n"
  | _ => ""

def stderr : Report → String
  | printed _ => ""
  | rejected text => text ++ "\n"
  | misused => "error: wrong arguments\n"
  | failed fault => s!"Error: {fault.message}: {fault.cause}\n"

end Report

namespace Invocation

/-- The path that a command reads. -/
def path? : Invocation → Option String
  | resolve r => some r.snapshot
  | _ => none

def run (content : Content) : Invocation → Report
  | version => .printed s!"binder {MemberBinding.version}"
  | resolve r =>
    match r.run content with
    | .ok outcome => .ofOutcome outcome
    | .error fault => .failed fault
  | convert name source target => .ofOutcome (convertOutcome name source target)

/-- What the program does with its arguments, given the content of the file at their path. -/
def report (command : Option Invocation) (content : Content) : Report :=
  match command with
  | some c => c.run content
  | none => .misused

end Invocation
end MemberBinding
