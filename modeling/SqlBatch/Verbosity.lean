import SqlBatch.Failure
import SqlBatch.Text.Blank
import SqlBatch.Text.Natural

/-! How much progress is reported: nothing, the start and end of each file, also each statement, or
also the text of each statement. A verbosity is written as its level and read from a level or a
name. -/

namespace SqlBatch

inductive Verbosity where
  | none
  | summary
  | statements
  | full
  deriving DecidableEq, Repr, Inhabited

namespace Verbosity

def level : Verbosity → Nat
  | none => 0
  | summary => 1
  | statements => 2
  | full => 3

instance : LE Verbosity := ⟨fun a b => a.level ≤ b.level⟩

instance (a b : Verbosity) : Decidable (a ≤ b) :=
  inferInstanceAs (Decidable (a.level ≤ b.level))

def ofLevel? : Nat → Option Verbosity
  | 0 => some none
  | 1 => some summary
  | 2 => some statements
  | 3 => some full
  | _ => .none

def ofLevel (n : Nat) : Except SettingProblem Verbosity :=
  match ofLevel? n with
  | some v => .ok v
  | .none => .error (.verbosityLevel n)

/-- The capital of a letter of a name; the dotless i has the capital of i. -/
def capital (c : Char) : Char := if c = 'ı' then 'I' else c.toUpper

def names : List (String × Verbosity) :=
  [("NONE", none), ("N", none), ("LOW", summary), ("L", summary), ("MED", statements),
    ("MEDIUM", statements), ("M", statements), ("FULL", full), ("F", full)]

def ofName? (name : List Char) : Option Verbosity :=
  names.lookup (String.ofList (name.map capital))

def ofText (text : String) : Except SettingProblem Verbosity :=
  let inner := Text.trim text.toList
  match Text.natural? 255 inner with
  | some n => ofLevel n
  | .none =>
    match ofName? inner with
    | some v => .ok v
    | .none => .error (.verbosityName text)

def toJson (v : Verbosity) : Json := .nat v.level

def refuse (p : SettingProblem) : Json.Mismatch := .refused (Failure.configuration p).message

def ofJson : Json → Except Json.Mismatch Verbosity
  | .int n =>
    if 0 ≤ n ∧ n < 256 then (ofLevel n.toNat).mapError refuse
    else .error (.noAlternative "VerbosityRepr")
  | .str s => (ofText s).mapError refuse
  | _ => .error (.noAlternative "VerbosityRepr")

theorem ofJson_toJson (v : Verbosity) : ofJson v.toJson = .ok v := by
  cases v <;> rfl

end Verbosity
end SqlBatch
