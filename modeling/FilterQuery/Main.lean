import FilterQuery.CommandLine.Program
import Std.Time.DateTime.Timestamp

/-!
# The command line

Looks at files, variables and the clock for a run of the program, and writes what the run comes to.
-/

namespace FilterQuery.Main

/-- What there is at a path that names no file: a directory, or nothing because the path leads
through a file. -/
def noFile (code : UInt32) : FileState :=
  if code = 21 then .unreadable "Is a directory (os error 21)"
  else .missing "Not a directory (os error 20)"

/-- The files of the machine. -/
def files : FileAccess IO where
  look path := do
    try
      let content ← IO.FS.readFile path
      pure (.text content)
    catch
      | .noFileOrDirectory .. => pure .absent
      | .inappropriateType _ code _ => pure (noFile code)
      | error => pure (.unreadable (toString error))

/-- The environment variables that the program knows. -/
def environment : IO Environment := do
  let mut found := Environment.mk []
  for name in "HOME" :: CommandOption.shared.filterMap CommandOption.environmentName? do
    if let some value ← IO.getEnv name then
      found := found.add name value
  pure found

/-- The present time. -/
def now : IO Instant := do
  let t ← Std.Time.Timestamp.now
  let nanos := t.toNanosecondsSinceUnixEpoch.val
  pure ⟨nanos / 1000000000, (nanos % 1000000000).toNat⟩

/-- What a run finds when it starts. -/
def surroundings : IO Surroundings := do
  let environment ← environment
  let current ← IO.currentDir
  pure ⟨⟨(environment.get? "HOME").getD "/", current.toString⟩, environment, ← now⟩

end FilterQuery.Main

open FilterQuery in
/-- Runs the program with the words of the command line. -/
def main (words : List String) : IO UInt32 := do
  let outcome ← Program.run Main.files (← Main.surroundings) words
  match outcome with
  | .success output => IO.print output
  | .failure error => IO.eprintln s!"\nError: {error.message}\n"
  | .misuse error => IO.eprintln s!"error: {error.message}"
  pure (UInt32.ofNat outcome.exitCode)
