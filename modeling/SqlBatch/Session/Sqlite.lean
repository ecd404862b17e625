import SqlBatch.Session.Sqlite.Command
import SqlBatch.Session.Sqlite.Dispatch
import SqlBatch.Session.Turns

/-! SQLite sessions: how a statement goes on a connection of its own, and which databases can be
opened. -/

namespace SqlBatch.Session.Sqlite

open Run

/-- How a statement goes when it is alone on its connection and nothing delays its task. -/
def courseOf : Verdict → List Move
  | .succeeds => [.takeTurn, .obtain, .begin, .finish .done, .join]
  | .neverEnds =>
    [.takeTurn, .obtain, .begin, .expire, .flag, .interrupt, .finish (.failed "interrupted"), .join]
  | .rejected detail => [.takeTurn, .obtain, .begin, .finish (.failed detail), .join]

/-- A statement that is alone, and the state that it leaves. -/
def run (job : Job) : List Event × Outcome × List Dispatch :=
  let trace := (courseOf (judge job.sql)).map fun m => (0, m)
  let ds := (moves? (handedOver [job]) trace).getD []
  ((notes (handedOver [job]) trace).map .log,
    (answer? ds 0).getD (.error (.timeout job.bound)), ds)

/-- The connection itself is closed when the last task that has a hold on it has ended. -/
def close (ds : List Dispatch) : List Event :=
  .log .closingSqlite :: if ds.any Dispatch.isAtWork then [.log .sqliteStillInUse] else []

/-- The names on the way that a path takes. Two dots take the name before them away, whatever it
names. -/
def namesOf (path : String) : List (List Char) :=
  (path.toList.splitOn '/').foldl (fun names part =>
    if part = [] ∨ part = ['.'] then names
    else if part = ['.', '.'] then names.dropLast
    else names ++ [part]) []

def nameLimit : Nat := 255

/-- A database is in memory, in a temporary file or in a file of the working directory. -/
def isOpenable (path : String) : Bool :=
  path.isEmpty || path = ":memory:" ||
    match namesOf path with
    | [name] => Text.byteSize name ≤ nameLimit
    | _ => false

def openProblem? (path : String) : Option String :=
  if path.toList.contains '\x00' then
    some ("nul byte found in provided data at position: " ++
      toString (Text.byteSize (path.toList.takeWhile (· ≠ '\x00'))))
  else if isOpenable path then none
  else some ("unable to open database file: " ++ path)

end SqlBatch.Session.Sqlite
