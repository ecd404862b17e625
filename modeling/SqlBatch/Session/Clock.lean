import SqlBatch.Run.Session

/-! Statements that are handed to one session at the same time, and the clock that their time is
counted on. A dispatcher is such a session: its states, the moves of its statements, and how each
statement stands. The clock notes when a statement starts, when its answer is there, and when its
bound has passed.

What a clock does not let happen is what does not happen to a program in a runtime that is on time.
The turn goes to the statements in the order in which they came for it. A bound is found to have
passed neither early nor late, and not once the answer is there; an answer that comes just when the
bound passes is seen first. And nobody gives a statement up. -/

namespace SqlBatch.Session

open Run

inductive Signal where
  | starts
  | comes (outcome : Outcome)
  | expires
  | abandons
  | passes

inductive Ticket where
  | queued
  | waiting
  | ready (outcome : Outcome)
  /-- The bound has passed; an answer may have come behind it. -/
  | late (came? : Option Outcome)
  | answered (outcome : Outcome)
  | dropped

def Ticket.hasTurn : Ticket → Bool
  | .waiting | .ready _ | .late _ => true
  | .queued | .answered _ | .dropped => false

structure Dispatcher (σ μ : Type) where
  handedOver : List Job → σ
  move? : σ → Nat → μ → Option σ
  signal : μ → Signal
  tickets : σ → List Ticket

/-- The times of one statement, in nanoseconds since all were handed over. -/
structure Watch where
  bound : Duration
  started? : Option Nat := none
  came? : Option (Nat × Outcome) := none
  expired : Bool := false

namespace Watch

def deadline (w : Watch) : Nat := w.started?.getD 0 + w.bound.nanoseconds

def isTicking (w : Watch) : Bool := w.started?.isSome && w.came?.isNone && !w.expired

def isInTime (w : Watch) : Bool := w.came?.any fun (t, _) => t ≤ w.deadline

def see (w : Watch) (t : Nat) : Signal → Watch
  | .starts => { w with started? := some t }
  | .comes outcome => { w with came? := some (t, outcome) }
  | .expires => { w with expired := true }
  | .abandons | .passes => w

def allows (w : Watch) (t : Nat) : Signal → Bool
  | .starts | .passes => true
  | .comes _ => !w.expired || w.deadline < t
  | .expires => w.isTicking && w.deadline ≤ t
  | .abandons => false

end Watch

/-- `order` is the order in which the statements started. -/
structure Clock where
  now : Nat := 0
  order : List Nat := []
  watches : List Watch

namespace Clock

def start (jobs : List Job) : Clock := { watches := jobs.map fun job => { bound := job.bound } }

/-- No bound that is still waited for has passed by the time `t`. -/
def isOnTime (c : Clock) (t : Nat) : Bool :=
  c.now ≤ t && c.watches.all fun w => !w.isTicking || t ≤ w.deadline

def orderBehind (c : Clock) (i : Nat) : Signal → List Nat
  | .starts => c.order ++ [i]
  | _ => c.order

def isInOrder (c : Clock) (i : Nat) : Signal → Bool
  | .starts => i = c.order.length
  | _ => true

def tick? (c : Clock) (t i : Nat) (signal : Signal) : Option Clock :=
  match c.watches[i]? with
  | some w =>
    if c.isOnTime t && c.isInOrder i signal && w.allows t signal then
      some ⟨t, c.orderBehind i signal, c.watches.set i (w.see t signal)⟩
    else none
  | none => none

end Clock

structure Timed (μ : Type) where
  time : Nat
  place : Nat
  move : μ

namespace Dispatcher

variable {σ μ : Type} (D : Dispatcher σ μ)

def step? (x : σ × Clock) (m : Timed μ) : Option (σ × Clock) := do
  let clock ← x.2.tick? m.time m.place (D.signal m.move)
  let st ← D.move? x.1 m.place m.move
  return (st, clock)

def run? (jobs : List Job) (trace : List (Timed μ)) : Option (σ × Clock) :=
  trace.foldlM D.step? (D.handedOver jobs, .start jobs)

/-- Nothing can happen any more, at whatever time. -/
def IsOver (x : σ × Clock) : Prop := ∀ m, D.step? x m = none

end Dispatcher
end SqlBatch.Session
