import TypeSig.CommandLine.Run

open TypeSig.CommandLine in
def main (arguments : List String) : IO UInt32 := do
  let outcome := run (arguments.map String.toList)
  (← IO.getStdout).putStr outcome.stdout
  (← IO.getStderr).putStr outcome.stderr
  return outcome.exit.toUInt32
