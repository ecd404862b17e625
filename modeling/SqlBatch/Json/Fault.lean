/-! Where and why a text is not JSON. Lines count from 1; a column is the number of bytes read of
its line, which is 0 right after a line feed. -/

namespace SqlBatch.Json

inductive Fault where
  | endInValue
  | endInObject
  | endInList
  | endInString
  | expectedValue
  | expectedWord
  | expectedColon
  | expectedListEnd
  | expectedObjectEnd
  | nameNotString
  | trailingComma
  | trailingText
  | controlCharacter
  | badEscape
  | endOfHexEscape
  | loneSurrogate
  | badNumber
  | numberTooLarge
  | tooDeep
  deriving DecidableEq, Repr

def Fault.text : Fault → String
  | endInValue => "EOF while parsing a value"
  | endInObject => "EOF while parsing an object"
  | endInList => "EOF while parsing a list"
  | endInString => "EOF while parsing a string"
  | expectedValue => "expected value"
  | expectedWord => "expected ident"
  | expectedColon => "expected `:`"
  | expectedListEnd => "expected `,` or `]`"
  | expectedObjectEnd => "expected `,` or `\x7d`"
  | nameNotString => "key must be a string"
  | trailingComma => "trailing comma"
  | trailingText => "trailing characters"
  | controlCharacter => "control character (\\u0000-\\u001F) found while parsing a string"
  | badEscape => "invalid escape"
  | endOfHexEscape => "unexpected end of hex escape"
  | loneSurrogate => "lone leading surrogate in hex escape"
  | badNumber => "invalid number"
  | numberTooLarge => "number out of range"
  | tooDeep => "recursion limit exceeded"

structure Position where
  line : Nat
  column : Nat
  deriving DecidableEq, Repr

structure SyntaxError where
  fault : Fault
  position : Position
  deriving DecidableEq, Repr

def SyntaxError.message (e : SyntaxError) : String :=
  e.fault.text ++ " at line " ++ toString e.position.line ++ " column " ++
    toString e.position.column

def Position.after (bytes : List UInt8) : Position :=
  let newline : UInt8 := 0x0A
  ⟨bytes.count newline + 1, (bytes.reverse.takeWhile (· != newline)).length⟩

end SqlBatch.Json
