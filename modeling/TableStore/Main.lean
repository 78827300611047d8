import Std.Time.DateTime.Timestamp
import TableStore.CommandLine

/-!
# The program

The thin layer around `CommandLine.run`: it reads arguments, environment variables, files and the
clock, and writes down what the run says. A program that listens takes requests from standard
input, one a line: a method, an address, and what is left of the line as the body. The end of the
input interrupts it.
-/

namespace TableStore.Console

/-- The environment variables that the program looks at. -/
def variableNames : List String :=
  LogFilter.variableName :: Config.variableNames

/-- The environment variables that are set. -/
def readEnvironment : IO (List (String × String)) := do
  variableNames.filterMapM fun name => do
    return (← IO.getEnv name).map fun value => (name, value)

/-- The files that are there, of those with the given names. -/
def readFiles (names : List String) : IO (List (String × String)) :=
  names.filterMapM fun (name : String) => do
    match ← (IO.FS.readFile name).toBaseIO with
    | .ok text => return some (Disk.plainName name, text)
    | .error _ => return none

def clock : IO Timestamp := do
  return ⟨(← Std.Time.Timestamp.now).toMillisecondsSinceUnixEpoch.val⟩

/-- Identifiers drawn by chance, as many as one request can need. -/
def drawIdentifiers (count : Nat) : IO (Nat → Uuid) := do
  let ids ← (List.range count).mapM fun _ => do
    return Uuid.ofRandom ((← IO.getRandomBytes 16).toList.map UInt8.toNat)
  return fun k => ids.getD k ⟨0⟩

def writeLog (format : LogFormat) (lines : List LogLine) : IO Unit := do
  let now ← clock
  for line in lines do
    IO.println (format.render now line)

/-- Answers requests until the input ends. -/
partial def serve (format : LogFormat) (filter : LogFilter) (l : Http.Listener) : IO Unit := do
  let line ← (← IO.getStdin).getLine
  if line.isEmpty then return
  let r := Http.Request.ofLine line
  let (response, log, l) := l.answer (← clock) (← drawIdentifiers (r.body.length + 2)) r
  writeLog format (log.filter filter.shows)
  IO.println response.line
  (← IO.getStdout).flush
  serve format filter l

end TableStore.Console

open TableStore in
/-- Runs the program and answers its exit code. -/
def main (arguments : List String) : IO UInt32 := do
  let environment ← Console.readEnvironment
  let run := CommandLine.run arguments environment
    (← Console.readFiles (CommandLine.fileNames arguments))
  IO.print run.output
  Console.writeLog run.format run.log
  match run.ending with
  | .exited code => return code.toUInt32
  | .listening listener =>
    Console.serve run.format (.ofEnvironment environment) listener
    Console.writeLog run.format (CommandLine.interrupted environment)
    return 0
