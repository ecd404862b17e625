import SqlBatch.Policy
import SqlBatch.Run.Report
import SqlBatch.Run.Session
import SqlBatch.Script.Statement

/-! Running the statements of one file on a session. In serial mode each statement is answered
before the next is handed over; in concurrent mode all are handed over in source order and settled
as their answers come. A blank statement counts as executed and is never handed over. Without
force the first failure ends the run, and nothing happens on the session after that. -/

namespace SqlBatch.Run

/-- The note that announces a statement, from the verbosity on that lists statements; it shows
their text only at full verbosity. -/
def announcement? (v : Verbosity) (file : String) (s : Statement) : Option Note :=
  match v with
  | .none | .summary => none
  | .statements => some (.executing file s.index none)
  | .full => some (.executing file s.index (some s.sql))

/-- A run under way; `ended` holds the failure that ended it. -/
structure Course (σ : Type) where
  session : σ
  report : Report
  trace : Array Event := #[]
  ended : Option Failure := none

namespace Course

variable {σ : Type}

def note (c : Course σ) (n : Note) : Course σ := { c with trace := c.trace.push (.log n) }

def progress (c : Course σ) (p : Policy) (v : Verbosity) (n : Note) : Course σ :=
  if p.wants v then c.note n else c

def observe (c : Course σ) (events : List Event) : Course σ :=
  { c with trace := c.trace.appendList events }

def unlessEnded (c : Course σ) (f : Course σ → Course σ) : Course σ :=
  if c.ended.isSome then c else f c

def result (c : Course σ) : Except Failure Report :=
  match c.ended with
  | some f => .error f
  | none => .ok c.report

def announce (c : Course σ) (p : Policy) (file : String) (s : Statement) : Course σ :=
  match announcement? p.verbosity file s with
  | some n => c.note n
  | none => c

def settle (c : Course σ) (p : Policy) (file : String) (index : Nat) (outcome : Outcome) :
    Course σ :=
  match outcome with
  | .ok () =>
    { c with report := c.report.countSuccess }.progress p .statements (.executed file index)
  | .error f =>
    let noted := c.note (.statementFailed file index f.message)
    if p.force then { noted with report := c.report.addFailure ⟨index, f.message⟩ }
    else { noted with ended := some (.statement file index f.message) }

def skipBlank (c : Course σ) (p : Policy) (file : String) (s : Statement) : Course σ :=
  (c.note (.skippingBlank s.index)).settle p file s.index (.ok ())

def countAttempts (c : Course σ) (n : Nat) : Course σ :=
  { c with report := c.report.countAttempts n }

def ask (s : Session σ) (c : Course σ) (job : Job) : Course σ × Outcome :=
  let answer := s.ask c.session job
  ({ c with session := answer.session }.observe answer.events, answer.outcome)

def jobOf (p : Policy) (s : Statement) : Job := ⟨s.index, s.sql, p.timeout⟩

def runSerial (s : Session σ) (p : Policy) (file : String) (c : Course σ) (st : Statement) :
    Course σ :=
  let started := (c.announce p file st).countAttempts 1
  if st.isEmpty then started.skipBlank p file st
  else
    let answered := ask s started (jobOf p st)
    answered.1.settle p file st.index answered.2

def serial (s : Session σ) (p : Policy) (file : String) (statements : List Statement)
    (c : Course σ) : Course σ :=
  statements.foldl (fun c st => c.unlessEnded fun c => runSerial s p file c st) c

/-- Hands over one of many; an answer that is there at once is settled at once. -/
def handOver (s : Session σ) (p : Policy) (file : String) (c : Course σ) (st : Statement) :
    Course σ :=
  if st.isEmpty then c.skipBlank p file st
  else
    let submission := s.submit c.session (jobOf p st)
    let handed := { c with session := submission.session }.observe submission.events
    match submission.outcome with
    | some outcome => handed.settle p file st.index outcome
    | none => handed

/-- Settles up to `n` answers as they come. -/
def drain (s : Session σ) (p : Policy) (file : String) : Nat → Course σ → Course σ
  | 0, c => c
  | n + 1, c =>
    if c.ended.isSome then c
    else
      match s.next? c.session with
      | none => c
      | some answer =>
        drain s p file n
          (({ c with session := answer.session }.observe answer.events).settle p file
            answer.index answer.outcome)

def concurrent (s : Session σ) (p : Policy) (file : String) (statements : List Statement)
    (c : Course σ) : Course σ :=
  let announced := statements.foldl (fun c st => c.announce p file st) c
  let handed := statements.foldl (fun c st => c.unlessEnded fun c => handOver s p file c st)
    (announced.countAttempts statements.length)
  drain s p file statements.length handed

def selectDatabase (s : Session σ) (p : Policy) (c : Course σ) : Course σ :=
  match p.database with
  | none => c
  | some database =>
    match (s.backend c.session).useDatabase? database with
    | none => c.note (.cannotSwitch (s.backend c.session) database)
    | some sql =>
      let asked := ask s (c.progress p .statements (.settingDatabase database))
        ⟨0, sql, p.timeout⟩
      match asked.2 with
      | .ok () => asked.1.progress p .statements .databaseSet
      | .error f =>
        let noted := asked.1.note (.switchFailed f.message)
        if p.force then
          { noted with report := { noted.report with databaseError := some f.message } }
        else { noted with ended := some (.useDatabase database f.message) }

def runStatements (s : Session σ) (p : Policy) (file : String) (statements : List Statement)
    (c : Course σ) : Course σ :=
  match p.mode with
  | .serial => serial s p file statements c
  | .concurrent => concurrent s p file statements c

def conclude (p : Policy) (file : String) (c : Course σ) : Course σ :=
  let r := c.report.sorted
  { c with report := r }.progress p .summary (.finished file r.attempted r.succeeded)

def start (p : Policy) (file : String) (st : σ) : Course σ :=
  ({ session := st, report := { file := file } } : Course σ).progress p .summary (.starting file)

end Course

def execute {σ : Type} (s : Session σ) (p : Policy) (file : String)
    (statements : List Statement) (st : σ) : Course σ :=
  (((Course.start p file st).selectDatabase s p).unlessEnded
    (Course.runStatements s p file statements)).unlessEnded (Course.conclude p file)

end SqlBatch.Run
