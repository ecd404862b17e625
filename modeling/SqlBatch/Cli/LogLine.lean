import SqlBatch.Run.Event

/-! Log notes as text: the level, the message and the fields. What a terminal would take for a
command is written out in the message; quoted fields have no such characters. -/

namespace SqlBatch.Cli

open Run

def levelText : Level → String
  | .debug => "DEBUG"
  | .info => "INFO"
  | .warn => "WARN"
  | .error => "ERROR"

def fieldText : Field → String
  | .number n => toString n
  | .quoted s => Text.quoted s
  | .bare s => s

def messageChar (c : Char) : List Char :=
  if c = '\x1b' then ['\\', 'x', '1', 'b']
  else if c = '\x07' then ['\\', 'x', '0', '7']
  else if c = '\x08' then ['\\', 'x', '0', '8']
  else if c = '\x0c' then ['\\', 'x', '0', 'c']
  else if c = '\x7f' then ['\\', 'x', '7', 'f']
  else if 0x80 ≤ c.toNat ∧ c.toNat ≤ 0x9F then ['\\', 'u', '{'] ++ Text.hexDigits c.toNat ++ ['}']
  else [c]

def messageText (s : String) : String := String.ofList (s.toList.flatMap messageChar)

def noteText (n : Note) : String :=
  levelText n.level ++ " " ++ messageText n.text ++
    String.join (n.fields.map fun f => " " ++ f.1 ++ "=" ++ fieldText f.2)

end SqlBatch.Cli
