import TypeBridge.CommandLine.Run

/-!
The command line: converts each type that it is given and prints one line for it.
-/

/-- Runs the command line and hands over its exit code. -/
def main (arguments : List String) : IO UInt32 := do
  let out ← IO.getStdout
  let err ← IO.getStderr
  match TypeBridge.runArguments (arguments.map String.toList) with
  | .error breakdown =>
    err.putStrLn (String.ofList breakdown.message)
    return 1
  | .ok outcome =>
    out.putStr (String.ofList outcome.out)
    err.putStr (String.ofList outcome.err)
    return UInt32.ofNat outcome.exitCode
