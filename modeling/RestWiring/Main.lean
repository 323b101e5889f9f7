import RestWiring.CommandLine

/-!
# The program

Reads the template of a call from the disk, makes the call, and writes the files that it leaves.
-/
open RestWiring

/-- Takes a file from the disk into a store. -/
def takeFile (files : FileStore) (path : String) : IO FileStore := do
  let found ← try
      pure (some (FileEntry.ofBytes (← IO.FS.readBinFile path)))
    catch
      | .noFileOrDirectory .. => pure none
      | _ => pure (some .folder)
  return (found.bind fun entry => (files.put path entry).toOption).getD files

/-- Writes what differs between two stores to the disk. -/
def writeChanges (before after : FileStore) : IO Unit := do
  for (names, entry) in after.entries.entries do
    if before.entries.find? names != some entry then
      let path := "/" ++ "/".intercalate names
      match entry with
      | .text content => IO.FS.writeFile path content
      | .folder => IO.FS.createDirAll path
      | .binary => pure ()

/-- A random name for a deployment. -/
def randomId : IO String := do
  let digits ← (List.range 32).mapM fun _ => do return Json.hexDigit (← IO.rand 0 15)
  return String.ofList digits

def main (args : List String) : IO UInt32 := do
  let home := (← IO.getEnv "HOME").getD "."
  let here := (FilePath.parts (← IO.currentDir).toString).filter (· != "")
  let start : FileStore := { here }
  let before ← match CommandLine.Invocation.ofArguments? args with
    | some (.run (some command) _) => takeFile start command.template
    | _ => pure start
  let outcome := CommandLine.run args before home (← randomId)
  writeChanges before outcome.files
  (← IO.getStdout).putStr outcome.output
  (← IO.getStderr).putStr outcome.errors
  return outcome.exitCode.toUInt32
