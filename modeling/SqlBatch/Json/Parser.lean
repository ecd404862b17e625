import SqlBatch.Json.Fault
import SqlBatch.Json.Numeral
import SqlBatch.Text.Utf8

/-! Reading JSON text. Every reader returns its value with the unread rest and a proof that the
rest is shorter, so reading ends without a bound given from outside; `depth` bounds only how deep
lists and objects may nest. A reader that fails says where it stood and how many bytes beyond that
it had looked at. -/

namespace SqlBatch.Json

/-- A failed reading: what was unread when it failed, and how many bytes of that count as read. -/
structure Stop where
  fault : Fault
  unread : List Char
  ahead : Nat

/-- What is unread after reading something of `cs`. -/
abbrev Rest (cs : List Char) := { rest : List Char // rest.length < cs.length }

abbrev Read (cs : List Char) (α : Type) := Except Stop (α × Rest cs)

def failHere {α : Type} (fault : Fault) (unread : List Char) : Except Stop α :=
  .error ⟨fault, unread, 0⟩

def failNext {α : Type} (fault : Fault) (unread : List Char) : Except Stop α :=
  .error ⟨fault, unread, 1⟩

def Read.weaken {α : Type} {cs ds : List Char} (h : cs.length ≤ ds.length) : Read cs α → Read ds α
  | .error e => .error e
  | .ok (a, rest) => .ok (a, ⟨rest.1, Nat.lt_of_lt_of_le rest.2 h⟩)

def isSpace (c : Char) : Bool := c = ' ' || c = '\n' || c = '\t' || c = '\r'

def skip (cs : List Char) : List Char := cs.dropWhile isSpace

theorem skip_length_le (cs : List Char) : (skip cs).length ≤ cs.length :=
  (List.dropWhile_sublist _).length_le

def word : List Char → List Char → Except Stop (List Char)
  | [], cs => .ok cs
  | _ :: _, [] => failHere .endInValue []
  | l :: ls, c :: cs => if l = c then word ls cs else failNext .expectedWord (c :: cs)

theorem word_length_le {ls cs rest : List Char} (h : word ls cs = .ok rest) :
    rest.length ≤ cs.length := by
  induction ls generalizing cs with
  | nil => simp_all [word]
  | cons l ls ih =>
    cases cs with
    | nil => simp [word, failHere] at h
    | cons c cs =>
      simp only [word] at h
      split at h
      · have := ih h
        simp only [List.length_cons]
        omega
      · simp [failNext] at h

def literal (value : Json) (letters : List Char) (c : Char) (cs : List Char) :
    Read (c :: cs) Json :=
  match h : word letters cs with
  | .error e => .error e
  | .ok rest =>
    .ok (value, ⟨rest, by
      have := word_length_le h
      simp only [List.length_cons]
      omega⟩)

def hexValue? (c : Char) : Option Nat :=
  let n := c.toNat
  if 48 ≤ n ∧ n ≤ 57 then some (n - 48)
  else if 65 ≤ n ∧ n ≤ 70 then some (n - 55)
  else if 97 ≤ n ∧ n ≤ 102 then some (n - 87)
  else none

def hexFour : (cs : List Char) → Except Stop (Nat × { rest : List Char // rest.length ≤ cs.length })
  | a :: b :: c :: d :: cs =>
    match hexValue? a, hexValue? b, hexValue? c, hexValue? d with
    | some a, some b, some c, some d =>
      .ok (((a * 16 + b) * 16 + c) * 16 + d, ⟨cs, by simp only [List.length_cons]; omega⟩)
    | _, _, _, _ => .error ⟨.badEscape, a :: b :: c :: d :: cs, 4⟩
  | cs =>
    if (Text.Utf8.encode (String.ofList cs)).length < 4 then failHere .endInString []
    else .error ⟨.badEscape, cs, 4⟩

def isHighSurrogate (n : Nat) : Bool := 0xD800 ≤ n && n ≤ 0xDBFF

def isLowSurrogate (n : Nat) : Bool := 0xDC00 ≤ n && n ≤ 0xDFFF

def lowHalf (high : Nat) :
    (cs : List Char) → Except Stop (Char × { rest : List Char // rest.length ≤ cs.length })
  | [] => failHere .endInString []
  | ['\\'] => failHere .endInString []
  | '\\' :: 'u' :: cs =>
    match hexFour cs with
    | .error e => .error e
    | .ok (low, rest) =>
      if isLowSurrogate low then
        .ok (Char.ofNat (0x10000 + (high - 0xD800) * 0x400 + (low - 0xDC00)),
          ⟨rest.1, by have := rest.2; simp only [List.length_cons]; omega⟩)
      else failHere .loneSurrogate rest.1
  | '\\' :: cs => failNext .endOfHexEscape cs
  | cs => failNext .endOfHexEscape cs

def unicodeEscape (cs : List Char) :
    Except Stop (Char × { rest : List Char // rest.length ≤ cs.length }) :=
  match hexFour cs with
  | .error e => .error e
  | .ok (n, rest) =>
    if isLowSurrogate n then failHere .loneSurrogate rest.1
    else if isHighSurrogate n then
      match lowHalf n rest.1 with
      | .error e => .error e
      | .ok (c, rest') => .ok (c, ⟨rest'.1, Nat.le_trans rest'.2 rest.2⟩)
    else .ok (Char.ofNat n, rest)

def simpleEscape? (c : Char) : Option Char :=
  if c = '"' ∨ c = '\\' ∨ c = '/' then some c
  else if c = 'b' then some '\x08'
  else if c = 'f' then some '\x0c'
  else if c = 'n' then some '\n'
  else if c = 'r' then some '\r'
  else if c = 't' then some '\t'
  else none

def escape : (cs : List Char) → Except Stop (Char × Rest cs)
  | [] => failHere .endInString []
  | c :: cs =>
    match simpleEscape? c with
    | some x => .ok (x, ⟨cs, by simp⟩)
    | none =>
      if c = 'u' then
        match unicodeEscape cs with
        | .error e => .error e
        | .ok (x, rest) =>
          .ok (x, ⟨rest.1, by have := rest.2; simp only [List.length_cons]; omega⟩)
      else failNext .badEscape (c :: cs)

/-- The characters of a string up to its closing quotation mark; `acc` holds those read so far,
newest first. -/
def stringFrom (acc : List Char) (cs : List Char) : Read cs String :=
  match cs with
  | [] => failHere .endInString []
  | c :: cs =>
    if c = '"' then .ok (String.ofList acc.reverse, ⟨cs, by simp⟩)
    else if c = '\\' then
      match escape cs with
      | .error e => .error e
      | .ok (x, rest) =>
        Read.weaken (by have := rest.2; simp only [List.length_cons]; omega)
          (stringFrom (x :: acc) rest.1)
    else if c.toNat < 0x20 then failHere .controlCharacter cs
    else Read.weaken (by simp) (stringFrom (c :: acc) cs)
termination_by cs.length
decreasing_by
  · have := rest.2
    simp only [List.length_cons]
    omega
  · simp

def digits (cs : List Char) : List Nat × List Char :=
  ((cs.takeWhile Char.isDigit).map (·.toNat - 48), cs.dropWhile Char.isDigit)

theorem digits_length_le (cs : List Char) : (digits cs).2.length ≤ cs.length :=
  (List.dropWhile_sublist _).length_le

def fraction (cs : List Char) :
    Except Stop (Option (List Nat) × { rest : List Char // rest.length ≤ cs.length }) :=
  match cs with
  | '.' :: cs =>
    if (digits cs).1.isEmpty then
      match cs with
      | [] => failHere .endInValue []
      | cs => failNext .badNumber cs
    else
      .ok (some (digits cs).1,
        ⟨(digits cs).2, by have := digits_length_le cs; simp only [List.length_cons]; omega⟩)
  | cs => .ok (none, ⟨cs, Nat.le_refl _⟩)

def exponentDigits (acc : Nat) : List Char → Nat × Option (List Char)
  | [] => (acc, none)
  | c :: cs =>
    if c.isDigit then
      let n := acc * 10 + (c.toNat - 48)
      if exponentBound ≤ n then (n, some cs) else exponentDigits n cs
    else (acc, none)

def exponentSign : List Char → Bool × List Char
  | '+' :: cs => (false, cs)
  | '-' :: cs => (true, cs)
  | cs => (false, cs)

theorem exponentSign_length_le (cs : List Char) : (exponentSign cs).2.length ≤ cs.length := by
  fun_cases exponentSign cs <;> simp

/-- A written exponent; the last part is there if it passes the bound. -/
structure Exponent where
  negative : Bool
  value : Nat
  beyond : Option (List Char)

def exponent (cs : List Char) :
    Except Stop (Option Exponent × { rest : List Char // rest.length ≤ cs.length }) :=
  match cs with
  | c :: cs =>
    if c = 'e' ∨ c = 'E' then
      match h : (exponentSign cs).2 with
      | [] => failHere .endInValue []
      | d :: ds =>
        if d.isDigit then
          let (value, beyond) := exponentDigits 0 (d :: ds)
          .ok (some ⟨(exponentSign cs).1, value, beyond⟩,
            ⟨(digits (d :: ds)).2, by
              have h₁ := digits_length_le (d :: ds)
              have h₂ := exponentSign_length_le cs
              rw [h] at h₂
              simp only [List.length_cons] at *
              omega⟩)
        else failNext .badNumber (d :: ds)
    else .ok (none, ⟨c :: cs, Nat.le_refl _⟩)
  | [] => .ok (none, ⟨[], Nat.le_refl _⟩)

def numberValue (negative : Bool) (whole : List Nat) (fraction : Option (List Nat))
    (exponent : Option Exponent) (rest : List Char) : Except Stop Json :=
  let numeral : Numeral := ⟨negative, whole, fraction, exponent.map fun e => (e.negative, e.value)⟩
  match exponent.bind Exponent.beyond with
  | none =>
    match numeral.value? with
    | some v => .ok v
    | none => failHere .numberTooLarge rest
  | some beyond =>
    if numeral.significand.1 ≠ 0 ∧ !numeral.writtenExponent < 0 then
      failHere .numberTooLarge beyond
    else .ok (.float ⟨negative, .zero⟩)

def number (negative : Bool) : (cs : List Char) → Read cs Json
  | [] => failHere .endInValue []
  | c :: cs =>
    if !c.isDigit then failNext .badNumber (c :: cs)
    else if c = '0' ∧ cs.head?.any Char.isDigit then failNext .badNumber cs
    else
      match fraction (digits cs).2 with
      | .error e => .error e
      | .ok (frac, rest₁) =>
        match exponent rest₁.1 with
        | .error e => .error e
        | .ok (exp, rest₂) =>
          match numberValue negative ((c.toNat - 48) :: (digits cs).1) frac exp rest₂.1 with
          | .error e => .error e
          | .ok v =>
            .ok (v, ⟨rest₂.1, by
              have h₀ := digits_length_le cs
              have h₁ := rest₁.2
              have h₂ := rest₂.2
              simp only [List.length_cons]
              omega⟩)

def depthLimit : Nat := 127

def name (cs : List Char) : Read cs String :=
  match stringFrom [] cs with
  | .error e => .error e
  | .ok (s, rest) =>
    match h : skip rest.1 with
    | [] => failHere .endInObject []
    | ':' :: tail =>
      .ok (s, ⟨tail, by
        have h₁ := skip_length_le rest.1
        have h₂ := rest.2
        rw [h] at h₁
        simp only [List.length_cons] at h₁
        omega⟩)
    | tail => failNext .expectedColon tail

mutual

def value (depth : Nat) (cs : List Char) : Read cs Json :=
  match h : skip cs with
  | [] => failHere .endInValue []
  | c :: rest =>
    have hle : (c :: rest).length ≤ cs.length := h ▸ skip_length_le cs
    if c = 'n' then Read.weaken hle (literal .null ['u', 'l', 'l'] c rest)
    else if c = 't' then Read.weaken hle (literal (.bool true) ['r', 'u', 'e'] c rest)
    else if c = 'f' then Read.weaken hle (literal (.bool false) ['a', 'l', 's', 'e'] c rest)
    else if c = '-' then
      Read.weaken (Nat.le_of_lt hle) (number true rest)
    else if c.isDigit then Read.weaken hle (number false (c :: rest))
    else if c = '"' then
      match stringFrom [] rest with
      | .error e => .error e
      | .ok (s, tail) => Read.weaken (Nat.le_of_lt hle) (.ok (.str s, tail))
    else if c = '[' then
      match depth with
      | 0 => failNext .tooDeep (c :: rest)
      | d + 1 =>
        match items d true rest with
        | .error e => .error e
        | .ok (vs, tail) => Read.weaken (Nat.le_of_lt hle) (.ok (.arr vs, tail))
    else if c = '{' then
      match depth with
      | 0 => failNext .tooDeep (c :: rest)
      | d + 1 =>
        match members d true [] rest with
        | .error e => .error e
        | .ok (ms, tail) => Read.weaken (Nat.le_of_lt hle) (.ok (.obj ms, tail))
    else failNext .expectedValue (c :: rest)
termination_by 3 * cs.length
decreasing_by
  all_goals
    simp only [List.length_cons] at hle
    omega

def items (depth : Nat) (first : Bool) (cs : List Char) : Read cs (List Json) :=
  match h : skip cs with
  | [] => failHere .endInList []
  | c :: rest =>
    have hle : (c :: rest).length ≤ cs.length := h ▸ skip_length_le cs
    if c = ']' then .ok ([], ⟨rest, hle⟩)
    else if first then itemThen depth cs
    else if c = ',' then
      match skip rest with
      | [] => failHere .endInValue []
      | ']' :: tail => failNext .trailingComma (']' :: tail)
      | _ => Read.weaken (Nat.le_of_lt hle) (itemThen depth rest)
    else failNext .expectedListEnd (c :: rest)
termination_by 3 * cs.length + 2
decreasing_by
  all_goals
    simp only [List.length_cons] at hle
    omega

def itemThen (depth : Nat) (cs : List Char) : Read cs (List Json) :=
  match value depth cs with
  | .error e => .error e
  | .ok (v, rest) =>
    match items depth false rest.1 with
    | .error e => .error e
    | .ok (vs, tail) => Read.weaken (Nat.le_of_lt rest.2) (.ok (v :: vs, tail))
termination_by 3 * cs.length + 1
decreasing_by
  · omega
  · have := rest.2
    omega

def members (depth : Nat) (first : Bool) (acc : Members) (cs : List Char) : Read cs Members :=
  match h : skip cs with
  | [] => failHere .endInObject []
  | c :: rest =>
    have hle : (c :: rest).length ≤ cs.length := h ▸ skip_length_le cs
    if c = '}' then .ok (acc, ⟨rest, hle⟩)
    else if first then
      if c = '"' then Read.weaken (Nat.le_of_lt hle) (memberThen depth acc rest)
      else failNext .nameNotString (c :: rest)
    else if c = ',' then
      match h' : skip rest with
      | [] => failHere .endInValue []
      | '"' :: tail =>
        Read.weaken (by
            have h₁ := skip_length_le rest
            rw [h'] at h₁
            simp only [List.length_cons] at h₁ hle
            omega)
          (memberThen depth acc tail)
      | '}' :: tail => failNext .trailingComma ('}' :: tail)
      | tail => failNext .nameNotString tail
    else failNext .expectedObjectEnd (c :: rest)
termination_by 3 * cs.length + 1
decreasing_by
  · simp only [List.length_cons] at hle
    omega
  · have h₁ := skip_length_le rest
    rw [h'] at h₁
    simp only [List.length_cons] at h₁ hle
    omega

def memberThen (depth : Nat) (acc : Members) (cs : List Char) : Read cs Members :=
  match name cs with
  | .error e => .error e
  | .ok (n, rest₁) =>
    match value depth rest₁.1 with
    | .error e => .error e
    | .ok (v, rest₂) =>
      Read.weaken (Nat.le_of_lt (Nat.lt_trans rest₂.2 rest₁.2))
        (members depth false (acc.insert n v) rest₂.1)
termination_by 3 * cs.length
decreasing_by
  · have := rest₁.2
    omega
  · omega

end

def Stop.locate (stop : Stop) (whole : String) : SyntaxError :=
  let bytes := Text.Utf8.encode whole
  let unread := (Text.Utf8.encode (String.ofList stop.unread)).length
  ⟨stop.fault, Position.after (bytes.take (bytes.length - unread + stop.ahead))⟩

def parse (text : String) : Except SyntaxError Json :=
  match value depthLimit text.toList with
  | .error stop => .error (stop.locate text)
  | .ok (v, rest) =>
    match skip rest.1 with
    | [] => .ok v
    | tail => .error (Stop.locate ⟨.trailingText, tail, 1⟩ text)

end SqlBatch.Json
