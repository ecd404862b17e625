/-! Reading bytes as UTF-8. Reading goes over the bytes from left to right and yields one item for
each well-formed character and one for each maximal piece that no character can begin with; the
strict reader accepts text without such pieces, the tolerant one puts U+FFFD in their place. A byte
order mark is a character like any other. -/

namespace SqlBatch.Text.Utf8

/-- What a first byte promises: how many bytes follow, the range of the next one, and the bits of
the first byte that belong to the character. -/
structure Lead where
  following : Nat
  low : UInt8
  high : UInt8
  bits : Nat

def lead? (b : UInt8) : Option Lead :=
  if b ≤ 0x7F then some ⟨0, 0x80, 0xBF, b.toNat⟩
  else if 0xC2 ≤ b ∧ b ≤ 0xDF then some ⟨1, 0x80, 0xBF, b.toNat - 0xC0⟩
  else if b = 0xE0 then some ⟨2, 0xA0, 0xBF, 0⟩
  else if b = 0xED then some ⟨2, 0x80, 0x9F, 0xD⟩
  else if 0xE1 ≤ b ∧ b ≤ 0xEF then some ⟨2, 0x80, 0xBF, b.toNat - 0xE0⟩
  else if b = 0xF0 then some ⟨3, 0x90, 0xBF, 0⟩
  else if 0xF1 ≤ b ∧ b ≤ 0xF3 then some ⟨3, 0x80, 0xBF, b.toNat - 0xF0⟩
  else if b = 0xF4 then some ⟨3, 0x80, 0x8F, 4⟩
  else none

def follow : Nat → UInt8 → UInt8 → Nat → List UInt8 → Option Char × List UInt8
  | 0, _, _, bits, bs => (some (Char.ofNat bits), bs)
  | _ + 1, _, _, _, [] => (none, [])
  | n + 1, low, high, bits, b :: bs =>
    if low ≤ b ∧ b ≤ high then follow n 0x80 0xBF (bits * 64 + (b.toNat - 0x80)) bs
    else (none, b :: bs)

/-- One character, or nothing for a malformed piece, and the bytes after it. -/
def next (b : UInt8) (bs : List UInt8) : Option Char × List UInt8 :=
  match lead? b with
  | some l => follow l.following l.low l.high l.bits bs
  | none => (none, bs)

theorem follow_rest_length_le (n : Nat) (low high : UInt8) (bits : Nat) (bs : List UInt8) :
    (follow n low high bits bs).2.length ≤ bs.length := by
  induction n generalizing low high bits bs with
  | zero => simp [follow]
  | succ n ih =>
    cases bs with
    | nil => simp [follow]
    | cons b bs =>
      simp only [follow]
      split
      · have := ih 0x80 0xBF (bits * 64 + (b.toNat - 0x80)) bs
        simp only [List.length_cons]
        omega
      · exact Nat.le_refl _

theorem next_rest_length_le (b : UInt8) (bs : List UInt8) : (next b bs).2.length ≤ bs.length := by
  unfold next
  split
  · exact follow_rest_length_le ..
  · exact Nat.le_refl _

def items : List UInt8 → List (Option Char)
  | [] => []
  | b :: bs => (next b bs).1 :: items (next b bs).2
termination_by bs => bs.length
decreasing_by
  have := next_rest_length_le b bs
  simp only [List.length_cons]
  omega

def decode? (bytes : List UInt8) : Option String :=
  ((items bytes).mapM id).map String.ofList

/-- Reads any bytes, with U+FFFD for each malformed piece. -/
def decodeLossy (bytes : List UInt8) : String :=
  String.ofList ((items bytes).map (·.getD '\uFFFD'))

def encode (text : String) : List UInt8 := text.toUTF8.toList

end SqlBatch.Text.Utf8
