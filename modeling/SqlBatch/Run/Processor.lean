import SqlBatch.Config
import SqlBatch.Run.Executor
import SqlBatch.Script.Buffer

/-! Running script files one after the other, each on a connection of its own. The connection is
closed however the run of its statements went; a failure of the run takes precedence over a failure
to close. The first failure ends the whole sequence. -/

namespace SqlBatch.Run

/-- A source of connections. Its state is what outlives a connection. -/
structure Provider (π σ : Type) where
  session : Session σ
  connect : π → Config → Attempt π σ
  close : π → σ → Attempt π Unit

structure Processor where
  config : Config
  valid : config.validate = .ok ()

namespace Processor

def ofConfig (c : Config) : Except SettingProblem Processor :=
  match h : c.validate with
  | .ok () => .ok ⟨c, h⟩
  | .error e => .error e

variable {π σ : Type}

/-- A run's result and the result of closing, as one. -/
def settleClose {α : Type} (run : Except Failure α) (closing : Except Failure Unit) :
    Except Failure α :=
  match run, closing with
  | .error f, _ => .error f
  | .ok _, .error f => .error f
  | .ok a, .ok () => .ok a

def process (p : Processor) (source : Provider π σ) (st : π) (b : Script.Buffer) :
    Attempt π Report :=
  let statements := b.statements
  let tokenized := Event.log (.tokenized b.name statements.length)
  let opened := source.connect st p.config
  match opened.result with
  | .error f => ⟨tokenized :: opened.events, .error f, opened.state⟩
  | .ok connection =>
    let course := execute source.session p.config.policy b.name statements connection
    -- what the run leaves outstanding goes before its connection is closed
    let closed := source.close opened.state (source.session.abandon course.session)
    ⟨tokenized :: (opened.events ++ course.trace.toList ++ closed.events),
      settleClose course.result closed.result, closed.state⟩

def processAll (p : Processor) (source : Provider π σ) (st : π) :
    List Script.Buffer → Attempt π (List Report)
  | [] => ⟨[], .ok [], st⟩
  | b :: bs =>
    let first := p.process source st b
    match first.result with
    | .error f => ⟨first.events, .error f, first.state⟩
    | .ok report =>
      let rest := p.processAll source first.state bs
      ⟨first.events ++ rest.events, rest.result.map (report :: ·), rest.state⟩

end Processor
end SqlBatch.Run
