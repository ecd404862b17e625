import SqlBatch.Session.Network
import SqlBatch.Session.Virtual

/-! A network server, as far as its clients can tell: whether it can be reached, whether it denies
log-ins, and how it responds to a statement. It goes by the words in the statement: one that begins
with `HANG` is never answered, one that contains `DIE` makes the server hang up, one that contains
`FAIL` is rejected, and any other succeeds. A contact is a connection to such a server. -/

namespace SqlBatch.Session

open Run

inductive Reach where
  | networkUnreachable
  | nobodyListens
  | server (denies : Bool)
  deriving DecidableEq, Repr

namespace Server

inductive Response where
  | silence
  | hangup
  | rejection
  | success
  deriving DecidableEq, Repr

def respond (sql : String) : Response :=
  if (Text.after? ['H', 'A', 'N', 'G'] sql.toList).isSome then .silence
  else if Virtual.contains ['D', 'I', 'E'] sql.toList then .hangup
  else if Virtual.rejects sql then .rejection
  else .success

end Server

/-- A link to the server, the reply to what was sent last, if one comes, and all that was seen. -/
structure Contact (ℓ : Type) where
  link : ℓ
  reply? : Option (Except String Unit) := none
  told : List Event := []

namespace Contact

structure Sending (ℓ : Type) where
  told : List Event
  reply? : Option (Except String Unit)
  link : ℓ

variable {ℓ : Type}

/-- Statements are sent by `send`; a call that is dropped leaves the link as `lose` has it. -/
def driver (send : ℓ → String → Sending ℓ) (lose : ℓ → ℓ) (cancelling : List Event) :
    Network.Driver (Contact ℓ) where
  call c sql :=
    let sending := send c.link sql
    ⟨sending.link, sending.reply?, c.told ++ sending.told⟩
  resolve c result :=
    match c.reply?, result with
    | some (.ok ()), .ok () => some { c with reply? := none }
    | some (.error e), .error e' => if e = e' then some { c with reply? := none } else none
    | _, _ => none
  drop c := { c with link := lose c.link, reply? := none }
  cancel c
    | none => { c with told := c.told ++ cancelling }
    | some _ => c

def run (p : Network.Protocol) (driver : Network.Driver (Contact ℓ)) (link : ℓ) (job : Job) :
    List Event × Outcome × ℓ :=
  let reply? := (driver.call ⟨link, none, []⟩ job.sql).reply?
  let (notes, outcome, left) := Network.run p driver ⟨link, none, []⟩ job reply?
  (left.told ++ notes.map .log, outcome, left.link)

end Contact
end SqlBatch.Session
