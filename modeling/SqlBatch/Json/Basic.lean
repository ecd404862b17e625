import SqlBatch.Decimal.Binary64

/-! JSON values. The members of an object are kept in the order of their names, each name once;
`insert` keeps that order, and a later member replaces an earlier one of its name. -/

namespace SqlBatch

inductive Json where
  | null
  | bool (value : Bool)
  /-- A number written without a point and an exponent that fits 64 bits. -/
  | int (value : Int)
  | float (value : Decimal.Binary64)
  | str (value : String)
  | arr (items : List Json)
  | obj (members : List (String × Json))
  deriving Repr, Inhabited

namespace Json

abbrev Members := List (String × Json)

def Members.Sorted (ms : Members) : Prop := (ms.map Prod.fst).Pairwise (· < ·)

/-- Adds a member at its place, or replaces the one of its name. -/
def Members.insert : Members → String → Json → Members
  | [], name, value => [(name, value)]
  | (n, v) :: ms, name, value =>
    if name < n then (name, value) :: (n, v) :: ms
    else if name = n then (name, value) :: ms
    else (n, v) :: Members.insert ms name value

def Members.get? (ms : Members) (name : String) : Option Json := ms.lookup name

def ofMembers (ms : List (String × Json)) : Json :=
  .obj (ms.foldl (fun acc m => Members.insert acc m.1 m.2) [])

def nat (n : Nat) : Json := .int n

def ofString? : Option String → Json
  | some s => .str s
  | none => .null

end Json
end SqlBatch
