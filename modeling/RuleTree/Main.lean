import RuleTree.CommandLine.Outcome

/-! The program: reads the files that its arguments name and writes the outcome. -/
namespace RuleTree.CommandLine

/-- The content of a file, if it can be read as text. -/
def readFile? (name : String) : IO (Option String) := do
  try
    return some (← IO.FS.readFile name)
  catch _ =>
    return none

end RuleTree.CommandLine

def main (args : List String) : IO UInt32 := do
  let names := RuleTree.CommandLine.filesNeeded args
  let contents ← names.mapM RuleTree.CommandLine.readFile?
  let outcome := RuleTree.CommandLine.answer args fun name =>
    ((names.zip contents).lookup name).join
  IO.print outcome.stdout
  IO.eprint outcome.stderr
  return outcome.code.toUInt32
