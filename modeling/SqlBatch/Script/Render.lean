import SqlBatch.Script.Statement

/-! Writing statements as a script: each is followed by its delimiter and a line feed, and a
directive line stands wherever the delimiter changes. -/

namespace SqlBatch.Script

def directiveLine (delimiter : String) : String := "DELIMITER " ++ delimiter ++ "\n"

def renderStatement (active : String) (s : Statement) : String :=
  (if s.delimiter = active then "" else directiveLine s.delimiter) ++ s.sql ++ s.delimiter ++ "\n"

/-- The written statements, the first of them while `active` is in force. -/
def pieces : String → List Statement → List String
  | _, [] => []
  | active, s :: rest => renderStatement active s :: pieces s.delimiter rest

def render (statements : List Statement) : String :=
  String.join (pieces Statement.defaultDelimiter statements)

end SqlBatch.Script
