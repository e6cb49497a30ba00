import AccessControl.Program

/-!
# The executable

Hands the arguments, the environment and the files that the arguments name to the program, and
writes what the run has to say.
-/

namespace AccessControl

/-- The text of a file. -/
def readFileText (path : String) : IO FileText := do
  try
    return .ofBytes (← IO.FS.readBinFile path)
  catch
    | .noFileOrDirectory .. => return .error .missing
    | .permissionDenied .. => return .error .forbidden
    | .inappropriateType (some _) .. => return .error .notDirectory
    | .invalidArgument .. => return .error .nameTooLong
    | _ => return .error .directory

/-- The environment of the process. -/
def readEnvironment : IO Environment := do
  let values ← Setting.all.mapM fun setting => do
    return (setting, ← IO.getEnv setting.variableName)
  return fun setting => (values.lookup setting).join

end AccessControl

open AccessControl in
/-- Runs the program. -/
def main (arguments : List String) : IO UInt32 := do
  let files ← (Program.filePaths arguments).mapM fun path => do
    return (path, ← readFileText path)
  let file := fun path => (files.lookup path).getD (.error .missing)
  let result := Program.run arguments file (← readEnvironment)
  IO.print result.output
  unless result.complaint.isEmpty do IO.eprintln result.complaint
  return result.code
