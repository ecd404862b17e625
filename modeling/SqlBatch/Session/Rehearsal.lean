import SqlBatch.Run.Processor
import SqlBatch.Session.Virtual

/-! Connections to databases on a virtual clock, numbered from 1 in the order in which they are
asked for. Some numbers are refused, and some fail to close. -/

namespace SqlBatch.Session.Rehearsal

open Run

structure Behaviour where
  refused : List Nat := []
  failToClose : List Nat := []

structure Connection where
  number : Nat
  database : Virtual.State

def session : Session Connection where
  backend c := c.database.backend
  submit c job :=
    let s := Virtual.submit c.database job
    ⟨s.events, s.outcome, { c with database := s.session }⟩
  next? c :=
    (Virtual.next? c.database).map fun a =>
      ⟨a.events, a.index, a.outcome, { c with database := a.session }⟩
  abandon c := { c with database := Virtual.abandon c.database }

/-- The state is how many connections were asked for. -/
def connect (behaviour : Behaviour) (asked : Nat) (config : Config) : Attempt Nat Connection :=
  let number := asked + 1
  let event := Event.connect config.backend config.effectiveHost config.effectivePort
  if behaviour.refused.contains number then
    ⟨[event], .error (.connection ("connection refused by " ++ config.effectiveHost)), number⟩
  else ⟨[event], .ok ⟨number, { backend := config.backend }⟩, number⟩

def close (behaviour : Behaviour) (asked : Nat) (c : Connection) : Attempt Nat Unit :=
  if behaviour.failToClose.contains c.number then
    ⟨[.close], .error (.connection "mock close failed"), asked⟩
  else ⟨[.close], .ok (), asked⟩

def provider (behaviour : Behaviour) : Provider Nat Connection :=
  ⟨session, connect behaviour, close behaviour⟩

end SqlBatch.Session.Rehearsal
