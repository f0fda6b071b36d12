import Deferral.Config.Path
import Deferral.Probe.Basic

/-!
# The program

The command line of the probe. It reads the environment and the configuration file, lets the time
pass that each trial takes by its schedule and measures it, and prints the verdict.
-/

namespace Deferral.Probe

/-- The environment variables that the probe looks at. -/
def variableNames : List String :=
  ["HOME", "XDG_CONFIG_HOME", Environment.workersVariable, Environment.threadNameVariable,
    Environment.stackSizeVariable, Environment.graceVariable]

/-- The environment variables that are set. -/
def readVariables : IO (List (String × ByteArray)) :=
  variableNames.filterMapM fun name => do
    return (← IO.getEnv name).map fun v => (name, v.toUTF8)

/-- What stands at a path. -/
def readFileState (path : String) : IO FileState := do
  try
    return .bytes (← IO.FS.readBinFile path)
  catch
    | .inappropriateType _ code _ => return if code = 21 then .directory else .absent
    | _ => return .absent

/-- The longest time, in milliseconds, for which the program sleeps at once. -/
def longestSleep : Nat := 1000000000

/-- Let time pass. -/
def sleepFor (d : Duration) : IO Unit := do
  let n := (d.nanoseconds + Duration.millisecond - 1) / Duration.millisecond
  for _ in [0 : n / longestSleep] do
    IO.sleep longestSleep.toUInt32
  IO.sleep (n % longestSleep).toUInt32

/-- Let the time of a trial pass and measure it. -/
def measure (t : Trial) : IO Duration := do
  let start ← IO.monoNanosNow
  sleepFor t.scheduled
  return ⟨(← IO.monoNanosNow) - start⟩

/-- Print a verdict, and give the exit status. -/
def report (v : Verdict) : IO UInt32 := do
  IO.print v.output
  match v.error with
  | some e => IO.eprintln ("Error: " ++ e)
  | none => pure ()
  return v.status.toUInt32

end Deferral.Probe

open Deferral Probe in
/-- Run the probe with command line arguments. -/
def main (arguments : List String) : IO UInt32 := do
  let bindings ← readVariables
  let path := defaultPath (Environment.ofList bindings)
  let asked := match Options.read arguments bindings with
    | .ok o => o.config <|> path
    | .error _ => none
  let state ← match asked with
    | some p => readFileState p
    | none => pure .absent
  match course path (fun _ => state) bindings arguments with
  | .over v => report v
  | .trials o ts => report (conclude o ts (← ts.mapM measure))
  | .endless => throw (IO.userError "the computation never ends")
