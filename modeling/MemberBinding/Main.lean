import MemberBinding.CommandLine.Outcome

/-! # The program -/

namespace MemberBinding

def readContent (path : String) : IO Content := do
  try
    some <$> IO.FS.readBinFile path
  catch _ =>
    pure none

end MemberBinding

open MemberBinding

def main (args : List String) : IO UInt32 := do
  let command := Invocation.parse? args
  let content ←
    match command >>= Invocation.path? with
    | some path => readContent path
    | none => pure none
  let report := Invocation.report command content
  IO.print report.stdout
  IO.eprint report.stderr
  return report.exitCode.toUInt32
