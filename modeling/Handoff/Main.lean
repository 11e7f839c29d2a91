import Handoff.Command.Run
import Handoff.Timestamp
import Std.Time

/-!
# Command line

The command with the files of the system and its clock.
-/

namespace Handoff.Main

/-- The result of an operation that may fail. -/
def succeeds (operation : IO Unit) : IO Bool := do
  try
    operation
    return true
  catch _ => return false

instance : FileAccess IO where
  read path := do
    try
      return some (← IO.FS.readFile path)
    catch _ => return none
  isThere path := do
    try
      (← IO.FS.realPath path).pathExists
    catch _ => return false
  makeFolder path := if path = "" then return true else succeeds (IO.FS.createDirAll path)
  write path text := succeeds (IO.FS.writeFile path text)

/-- The time as text. -/
def now : IO String := do
  let time ← Std.Time.Timestamp.now
  return Timestamp.ofMillis time.toMillisecondsSinceUnixEpoch.toInt

end Handoff.Main

/-- Runs the command. -/
def main (args : List String) : IO UInt32 := do
  let outcome : Handoff.Command.Outcome ← Handoff.Command.run (← Handoff.Main.now) args
  IO.print outcome.stdout
  for line in outcome.stderr do
    IO.eprintln line
  return outcome.exitCode.toUInt32
