import SqlBatch.Cli.Filter
import SqlBatch.Cli.Layers
import SqlBatch.Cli.LogLine
import SqlBatch.Run.Processor

/-! The program: settle the settings, read every file, run them, and report. What the outside world
answers comes in as functions: the variables of the environment, the bytes of a file, and a source
of connections. -/

namespace SqlBatch.Cli

open Run

structure World (π σ : Type) where
  environment : String → Option String
  read : String → Except FileProblem (List UInt8)
  source : Provider π σ
  state : π
  filter : Option String := none

structure Ending where
  code : UInt32
  log : List String := []
  complaint : Option String := none
  deriving DecidableEq, Repr

variable {π σ : Type}

def setIn (margin : String) (text : String) : String :=
  String.ofList (text.toList.flatMap fun c => if c = '\n' then '\n' :: margin.toList else [c])

/-- A cause on lines of its own; its later lines are set in as deep as its first. -/
def causeText (number : Option Nat) (cause : String) : String :=
  match number with
  | none => "\n    " ++ setIn "    " cause
  | some n =>
    let digits := toString n
    "\n" ++ String.ofList (List.replicate (5 - digits.length) ' ') ++ digits ++ ": " ++
      setIn "       " cause

def causesText (causes : Chain) : String :=
  match causes with
  | [cause] => causeText none cause
  | _ => String.join (causes.zipIdx.map fun c => causeText (some c.2) c.1)

def complaintOf : Chain → String
  | [] => "Error: "
  | [only] => "Error: " ++ only
  | first :: causes => "Error: " ++ first ++ "\n\nCaused by:" ++ causesText causes

def readScripts (read : String → Except FileProblem (List UInt8)) (paths : List String) :
    Except Chain (List Script.Buffer) :=
  paths.mapM fun path =>
    match read path with
    | .ok bytes => .ok (.ofBytes path bytes)
    | .error p => .error ["failed to read " ++ path, p.message]

def closingNotes (reports : List Report) : List Event :=
  let failed := reports.foldl (fun failed r => failed + r.failed) 0
  if failed = 0 then [] else [.log (.someFailed failed)]

def runWith (w : World π σ) (c : Config) (paths : List String) :
    List Event × Except Chain (List Report) :=
  match Processor.ofConfig c with
  | .error p => ([], .error (Failure.configuration p).chain)
  | .ok processor =>
    match readScripts w.read paths with
    | .error chain => ([], .error chain)
    | .ok scripts =>
      let all := processor.processAll w.source w.state scripts
      match all.result with
      | .ok reports => (all.events ++ closingNotes reports, .ok reports)
      | .error f => (all.events, .error f.chain)

def usageEnding : UsageError → Ending
  | .displayHelp | .displayVersion => { code := 0 }
  | _ => { code := 2 }

def shownNotes (filter : Filter) (events : List Event) : List String :=
  events.filterMap fun
    | .log n => if filter.shows n then some (noteText n) else none
    | _ => none

def run (w : World π σ) (args : List String) : Ending :=
  match Call.read args w.environment with
  | .error e => usageEnding e
  | .ok call =>
    match call.settings w.read with
    | .error chain => { code := 1, complaint := some (complaintOf chain) }
    | .ok config =>
      let (events, result) := runWith w config call.files
      let log := shownNotes (.ofText w.filter) events
      match result with
      | .ok _ => { code := 0, log := log }
      | .error chain => { code := 1, log := log, complaint := some (complaintOf chain) }

end SqlBatch.Cli
