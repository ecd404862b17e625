/-! Lengths of time in nanoseconds, and their text: in the largest unit that makes the number at
least one, with the exact decimal fraction and no trailing zeros. -/

namespace SqlBatch

structure Duration where
  nanoseconds : Nat
  deriving DecidableEq, Repr, Inhabited

namespace Duration

def ofParts (seconds nanoseconds : Nat) : Duration := ⟨seconds * 1000000000 + nanoseconds⟩

def ofSeconds (n : Nat) : Duration := ⟨n * 1000000000⟩

def ofMilliseconds (n : Nat) : Duration := ⟨n * 1000000⟩

instance : LE Duration := ⟨fun a b => a.nanoseconds ≤ b.nanoseconds⟩

instance (a b : Duration) : Decidable (a ≤ b) :=
  inferInstanceAs (Decidable (a.nanoseconds ≤ b.nanoseconds))

instance : LT Duration := ⟨fun a b => a.nanoseconds < b.nanoseconds⟩

instance (a b : Duration) : Decidable (a < b) :=
  inferInstanceAs (Decidable (a.nanoseconds < b.nanoseconds))

def padded (width n : Nat) : List Char :=
  let digits := (toString n).toList
  List.replicate (width - digits.length) '0' ++ digits

/-- The decimal number `n / 10 ^ places`, without trailing zeros. -/
def decimal (places n : Nat) : String :=
  let unit := Nat.pow 10 places
  let fraction := ((padded places (n % unit)).reverse.dropWhile (· = '0')).reverse
  toString (n / unit) ++
    (if n % unit = 0 then "" else "." ++ String.ofList fraction)

def text (d : Duration) : String :=
  let n := d.nanoseconds
  if 1000000000 ≤ n then decimal 9 n ++ "s"
  else if 1000000 ≤ n then decimal 6 n ++ "ms"
  else if 1000 ≤ n then decimal 3 n ++ "µs"
  else toString n ++ "ns"

end Duration
end SqlBatch
