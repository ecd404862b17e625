import SqlBatch.Script.Scanner
import SqlBatch.Text.Utf8

/-! A script as it is handed over: the name of its file and its text. -/

namespace SqlBatch.Script

structure Buffer where
  name : String
  text : String
  deriving DecidableEq, Repr

namespace Buffer

def ofBytes (name : String) (bytes : List UInt8) : Buffer := ⟨name, Text.Utf8.decodeLossy bytes⟩

def statements (b : Buffer) : List Statement := tokenize b.text Statement.defaultDelimiter

end Buffer
end SqlBatch.Script
