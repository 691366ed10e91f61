import CurvePlot.Command.Run
/-!
# The program

The command line of the plotter, over the files of the machine.
-/

open CurvePlot

/-- The files of the machine. -/
def machineFiles : FileSystem IO where
  read path := try return some (← IO.FS.readFile path) catch _ => return none
  write path content := try IO.FS.writeFile path content; return true catch _ => return false
  makeFolder path := try IO.FS.createDirAll path; return true catch _ => return false

/-- Runs the program and prints what is to be printed. -/
def main (args : List String) : IO UInt32 := do
  let ending ← Command.run machineFiles args
  let out ← IO.getStdout
  out.putStr ending.printed
  out.flush
  return ending.exitCode.toUInt32
