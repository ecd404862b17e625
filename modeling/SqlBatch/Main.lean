import SqlBatch.Cli.Program
import SqlBatch.Session.Live

/-! The program on the command line: it gathers the environment and the files that a call may need,
runs the call, and writes what it leaves behind. -/

namespace SqlBatch.Cli

def problemOf : IO.Error → FileProblem
  | .noFileOrDirectory .. => .notFound
  | .permissionDenied .. => .noPermission
  | .inappropriateType .. | .illegalOperation .. => .isDirectory
  | .invalidArgument .. => .nameTooLong
  | _ => .notDirectory

def gatherFile (path : String) : IO (String × Except FileProblem (List UInt8)) := do
  try
    let bytes ← IO.FS.readBinFile path
    return (path, .ok bytes.toList)
  catch e => return (path, .error (problemOf e))

def pathsOf (args : List String) (environment : String → Option String) : List String :=
  match Call.read args environment with
  | .ok call => call.given.config.toList ++ call.files
  | .error _ => []

def gatherVariables (names : List String) : IO (List (String × String)) :=
  names.filterMapM fun name => do return (← IO.getEnv name).map (name, ·)

end SqlBatch.Cli

open SqlBatch Cli in
def main (args : List String) : IO UInt32 := do
  let found ← gatherVariables (Arg.all.map Arg.variableName)
  let environment (name : String) : Option String := found.lookup name
  let files ← (pathsOf args environment).mapM gatherFile
  let read (path : String) := (files.lookup path).getD (.error .notFound)
  let ending := run
    ⟨environment, read, Session.Live.provider .nobodyListens, (), ← IO.getEnv "RUST_LOG"⟩ args
  ending.log.forM IO.println
  ending.complaint.forM IO.eprintln
  return ending.code
