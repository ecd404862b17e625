import SqlBatch.Json.Printer
import SqlBatch.Text.Quoted

/-! Values that do not have the wanted form, and readers for the common forms. -/

namespace SqlBatch.Json

inductive Mismatch where
  | wrongType (got : Json) (want : String)
  | outOfRange (got : Int) (want : String)
  | unknownName (got : String) (known : List String)
  | notSingleName
  | noAlternative (form : String)
  /-- The value has the right form, and its own reader refuses it. -/
  | refused (reason : String)
  deriving Repr

def found : Json → String
  | .null => "null"
  | .bool true => "boolean `true`"
  | .bool false => "boolean `false`"
  | .int n => "integer `" ++ toString n ++ "`"
  | .float x => "floating point `" ++ floatText x ++ "`"
  | .str s => "string " ++ Text.quoted s
  | .arr _ => "sequence"
  | .obj _ => "map"

def choices (known : List String) : String :=
  match known.map fun n => "`" ++ n ++ "`" with
  | [a, b] => a ++ " or " ++ b
  | names => (if 2 < names.length then "one of " else "") ++ ", ".intercalate names

def Mismatch.message : Mismatch → String
  | wrongType got want => "invalid type: " ++ got.found ++ ", expected " ++ want
  | outOfRange got want => "invalid value: integer `" ++ toString got ++ "`, expected " ++ want
  | unknownName got known => "unknown variant `" ++ got ++ "`, expected " ++ choices known
  | notSingleName => "invalid value: map, expected map with a single key"
  | noAlternative form => "data did not match any variant of untagged enum " ++ form
  | refused reason => reason

def readString : Json → Except Mismatch String
  | .str s => .ok s
  | v => .error (.wrongType v "a string")

def readBool : Json → Except Mismatch Bool
  | .bool b => .ok b
  | v => .error (.wrongType v "a boolean")

def readOption {α : Type} (read : Json → Except Mismatch α) : Json → Except Mismatch (Option α)
  | .null => .ok none
  | v => (read v).map some

def readPort : Json → Except Mismatch UInt16
  | .int n =>
    if 0 ≤ n ∧ n < 65536 then .ok n.toNat.toUInt16 else .error (.outOfRange n "u16")
  | v => .error (.wrongType v "u16")

theorem readOption_ofString? (s : Option String) :
    readOption readString (.ofString? s) = .ok s := by
  cases s <;> rfl

theorem readPort_nat (p : UInt16) : readPort (.nat p.toNat) = .ok p := by
  have h := p.toNat_lt
  have h₁ : (0 : Int) ≤ p.toNat ∧ (p.toNat : Int) < 65536 := by omega
  simp [readPort, nat, h₁]

def readUnit : Json → Except Mismatch Unit
  | .null => .ok ()
  | v => .error (.wrongType v "unit")

def choose {α : Type} (names : List (String × α)) (name : String) : Except Mismatch α :=
  match names.lookup name with
  | some a => .ok a
  | none => .error (.unknownName name (names.map Prod.fst))

/-- One of the named values: its name, or an object with the name as its only key and null. -/
def readChoice {α : Type} (names : List (String × α)) : Json → Except Mismatch α
  | .str name => choose names name
  | .obj [(name, v)] => do
    let a ← choose names name
    readUnit v
    pure a
  | .obj _ => .error .notSingleName
  | v => .error (.wrongType v "string or map")

end SqlBatch.Json
