import PropertyFinance.CommandLine.Run

/-! The program: looks up what the command asks for, runs it and prints the outcome. -/

namespace PropertyFinance.CommandLine
set_option autoImplicit false

/-- The number of the system error for a directory in the place of a file. -/
def isADirectory : UInt32 := 21

def entryOnDisk (path : String) : IO Entry := do
  try
    pure (.file (← IO.FS.readFile path))
  catch
    | .noFileOrDirectory .. => pure .missing
    | .inappropriateType _ code _ => pure (if code = isADirectory then .notAFile else .missing)
    | _ => pure .unreadable

/-- Reads no more than the source asks for; a terminal counts as empty. -/
def surroundingsOf (source : Source) : IO Surroundings := do
  let directory := (← IO.currentDir).toString
  match source with
  | .arguments => pure ⟨directory, "", fun _ => .missing⟩
  | .stdin =>
    let stdin ← IO.getStdin
    let text ← if ← stdin.isTty then pure "" else stdin.readToEnd
    pure ⟨directory, text, fun _ => .missing⟩
  | .file path =>
    let entry ← entryOnDisk (absolutePath directory path)
    pure ⟨directory, "", fun _ => entry⟩

/-- Prints the outcome, with the time since the start. -/
def conclude (start : Nat) (exit : Exit) : IO UInt8 := do
  match exit with
  | .success output => IO.print (output (((← IO.monoNanosNow) - start) / 1000))
  | .failure message => IO.eprintln ("error: " ++ message)
  | .misuse error => IO.eprintln ("error: " ++ error.message)
  | .crash fault => IO.eprintln fault.message
  pure exit.status

def runProgram (args : List String) : IO UInt8 := do
  match Invocation.ofArguments args with
  | .error cause => conclude 0 (.misuse cause)
  | .ok invocation =>
    let around ← surroundingsOf invocation.source
    let start ← IO.monoNanosNow
    conclude start (invocation.execute around)

end PropertyFinance.CommandLine

def main (args : List String) : IO UInt32 := do
  pure (← PropertyFinance.CommandLine.runProgram args).toUInt32
