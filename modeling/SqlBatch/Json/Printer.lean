import SqlBatch.Decimal.Shortest
import SqlBatch.Json.Basic

/-! JSON text without spaces. A floating-point number always shows a point or an exponent; it is
written positionally from 1e-5 up to 1e16. In strings only the quotation mark, the backslash and
control characters below U+0020 are escaped. -/

namespace SqlBatch.Json

open Decimal

def zeros (n : Nat) : String := String.ofList (List.replicate n '0')

/-- `digits * 10 ^ tens` as text, with the point where its size asks for it. -/
def scaledText (x : Scaled) : String :=
  let digits := (toString x.digits).toList
  let count := digits.length
  let point : Int := count + x.tens
  if 0 ≤ x.tens ∧ point ≤ 16 then
    String.ofList digits ++ zeros x.tens.toNat ++ ".0"
  else if 0 < point ∧ point ≤ 16 then
    String.ofList (digits.take point.toNat) ++ "." ++ String.ofList (digits.drop point.toNat)
  else if -5 < point ∧ point ≤ 0 then
    "0." ++ zeros (-point).toNat ++ String.ofList digits
  else
    let exponent := point - 1
    String.ofList (digits.take 1) ++
      (if count = 1 then "" else "." ++ String.ofList (digits.drop 1)) ++
      (if exponent < 0 then "e-" else "e+") ++ toString exponent.natAbs

def floatText (x : Binary64) : String :=
  (if x.negative then "-" else "") ++
    (if x.magnitude.isZero then "0.0" else scaledText x.magnitude.shortest)

def hexDigit (n : Nat) : Char := if n < 10 then Char.ofNat (48 + n) else Char.ofNat (87 + n)

def escapeChar (c : Char) : List Char :=
  if c = '"' then ['\\', '"']
  else if c = '\\' then ['\\', '\\']
  else if c = '\n' then ['\\', 'n']
  else if c = '\t' then ['\\', 't']
  else if c = '\r' then ['\\', 'r']
  else if c = '\x08' then ['\\', 'b']
  else if c = '\x0c' then ['\\', 'f']
  else if c.toNat < 0x20 then
    ['\\', 'u', '0', '0', hexDigit (c.toNat / 16), hexDigit (c.toNat % 16)]
  else [c]

def quote (s : String) : String :=
  "\"" ++ String.ofList (s.toList.flatMap escapeChar) ++ "\""

mutual

def text : Json → String
  | .null => "null"
  | .bool true => "true"
  | .bool false => "false"
  | .int n => toString n
  | .float x => floatText x
  | .str s => quote s
  | .arr items => "[" ++ ",".intercalate (texts items) ++ "]"
  | .obj members => "\x7b" ++ ",".intercalate (memberTexts members) ++ "\x7d"

def texts : List Json → List String
  | [] => []
  | v :: vs => text v :: texts vs

def memberTexts : List (String × Json) → List String
  | [] => []
  | (name, v) :: ms => (quote name ++ ":" ++ text v) :: memberTexts ms

end

end SqlBatch.Json
