import MemLogic.CommandLine.Run

/-! The program: carries out what a run of the command line decides. -/

open MemLogic CommandLine

def main (args : List String) : IO UInt32 := do
  let argv := args.map String.toList
  let input ← if readsInput argv then (← IO.getStdin).readToEnd else pure ""
  let outcome := run .ok argv input.toList
  IO.print (String.ofList outcome.stdout)
  if let some (path, content) := outcome.file then
    IO.FS.writeFile (String.ofList path) (String.ofList content)
  IO.eprint (String.ofList (Text.lines outcome.stderr))
  match outcome.status with
  | .ok status => return status.toUInt32
  | .error fault =>
    IO.eprintln (String.ofList fault.message)
    return 1
