import SqlBatch.Proofs.Script.WellFormed
import SqlBatch.Script.ByteScanner

/-! The scanner seen through its flags. On the flags of a scanner whose delimiter is not empty, each
function with flags and bytes does what the function of the scanner does, reads the same text, and
meets no bad place. -/

namespace SqlBatch.Script

open Text

theorem utf8Size_toLower (c : Char) : c.toLower.utf8Size = c.utf8Size := by
  unfold Char.toLower
  split
  · rename_i h
    -- a capital and its small letter both have one byte
    have hcapital : c.val.toNat ≤ 90 := UInt32.le_iff_toNat_le.1 h.2
    have hstep : ('a'.val - 'A'.val).toNat = 32 := rfl
    have hc : c.utf8Size = 1 := Char.utf8Size_eq_one_iff.2 (UInt32.le_trans h.2 (by decide))
    rw [hc, Char.utf8Size_eq_one_iff, UInt32.le_iff_toNat_le, UInt32.toNat_add, hstep]
    change _ ≤ 127
    omega
  · rfl

theorem byteSize_map_toLower (cs : List Char) : byteSize (cs.map Char.toLower) = byteSize cs := by
  induction cs with
  | nil => rfl
  | cons c cs ih => rw [List.map_cons, byteSize, byteSize, utf8Size_toLower, ih]

theorem byteSize_of_word {word : List Char} (h : word.map Char.toLower = keyword) :
    byteSize word = byteSize keyword := by
  rw [← h, byteSize_map_toLower]

namespace ByteScanner

theorem isPrefixOf_pair {a b c : Char} {cs : List Char} :
    [a, b].isPrefixOf (c :: cs) = true ↔ c = a ∧ cs.head? = some b := by
  rw [List.isPrefixOf_iff_prefix, List.cons_prefix_cons, eq_comm]
  cases cs with
  | nil => simp
  | cons d ds =>
    rw [List.cons_prefix_cons, List.head?_cons, Option.some_inj, @eq_comm _ b]
    simp

theorem any_not_isBlank (x : Option Char) : x.any (!isBlank ·) = !x.all isBlank := by
  cases x <;> rfl

theorem exists_terminatorSize (rest : List Char) (h : ∀ c ∈ rest.head?, isBreak c = true) :
    ∃ terminator, rest = terminator ++ dropTerminator rest ∧
      byteSize terminator = terminatorSize rest := by
  fun_cases dropTerminator rest with
  | case1 cs => exact ⟨['\r', '\n'], rfl, rfl⟩
  | case2 c cs hpair =>
    refine ⟨[c], rfl, ?_⟩
    have hno : ['\r', '\n'].isPrefixOf (c :: cs) = false := by
      rw [Bool.eq_false_iff, ne_eq, isPrefixOf_pair]
      rintro ⟨rfl, hhead⟩
      obtain ⟨cs', rfl⟩ := List.head?_eq_some_iff.1 hhead
      exact hpair cs' rfl rfl
    have hc := h c rfl
    simp only [isBreak, Bool.or_eq_true, decide_eq_true_eq] at hc
    rw [terminatorSize, if_neg (by simp [hno])]
    rcases hc with rfl | rfl <;> rfl
  | case3 => exact ⟨[], rfl, rfl⟩

section
variable (s : ByteScanner) {cs : List Char}

theorem directive_of_none (h : Directive.read? cs = none) : s.directive cs = .ok none := by
  unfold directive
  split
  · rfl
  · rename_i word hword
    split
    · rfl
    · rename_i hletters
      split
      · rfl
      · obtain ⟨after, rfl, hsize⟩ := eq_of_upTo hword
        rw [not_not] at hletters
        have hblank := Directive.read?_eq_none.1 h word after rfl hletters
        rw [← hsize, behind_append]
        change (if after.head?.any (!isBlank ·) then _ else _) = _
        rw [any_not_isBlank, hblank]
        rfl

theorem directive_of_some {d : Directive} (h : Directive.read? cs = some d) :
    ∃ front, cs = front ++ d.rest ∧ s.directive cs =
      .ok (if s.lineStart || allBlank s.current then some (s.redefine d.token, byteSize front)
        else none) := by
  obtain ⟨word, after, rfl, hword, hblank, htoken, hrest⟩ := Directive.read?_eq_some.1 h
  obtain ⟨terminator, hterminator, hsize⟩ :=
    exists_terminatorSize (line after).2 fun c hc => isBreak_head_line_rest hc
  have hafter : after = (line after).1 ++ (line after).2 := (line_append after).symm
  refine ⟨word ++ ((line after).1 ++ terminator), ?_, ?_⟩
  · rw [hrest, List.append_assoc, List.append_assoc, ← hterminator, ← hafter]
  · have hplace : byteSize keyword = byteSize word := (byteSize_of_word hword).symm
    have hname : upTo (byteSize (line after).1) after = .ok (line after).1 :=
      (congrArg (upTo _) hafter).trans (upTo_append _ _)
    have hbehind : behind (byteSize (line after).1) after = .ok (line after).2 :=
      (congrArg (behind _) hafter).trans (behind_append _ _)
    unfold directive
    rw [hplace, upTo_append, behind_append]
    simp only [bind, Except.bind, pure, Except.pure, any_not_isBlank, hblank, breakPlace?_getD,
      hname, hbehind, hword, ne_eq, not_true_eq_false, if_false, Bool.not_true, Bool.false_eq_true]
    rw [byteSize_append, byteSize_append, hsize, htoken, Nat.add_assoc]
    cases s.lineStart <;> cases allBlank s.current <;> rfl

theorem exists_directive (cs : List Char) : ∃ taken, s.directive cs = .ok taken := by
  cases h : Directive.read? cs with
  | none => exact ⟨none, s.directive_of_none h⟩
  | some d =>
    obtain ⟨front, -, hdirective⟩ := s.directive_of_some h
    exact ⟨_, hdirective⟩

end

theorem startsLineComment_cons (c : Char) (cs : List Char) :
    startsLineComment (c :: cs) = .ok (Scanner.startsLineComment c cs) := by
  unfold startsLineComment markerSize?
  by_cases hdashes : c = '-' ∧ cs.head? = some '-'
  · obtain ⟨rfl, hhead⟩ := hdashes
    obtain ⟨rest, rfl⟩ := List.head?_eq_some_iff.1 hhead
    have hbehind : behind 2 ('-' :: '-' :: rest) = .ok rest := behind_append ['-', '-'] rest
    rw [if_pos (isPrefixOf_pair.2 ⟨rfl, rfl⟩)]
    simp only [hbehind]
    cases rest <;> rfl
  · rw [if_neg (fun h => hdashes (isPrefixOf_pair.1 h))]
    by_cases hsign : c = '#'
    · subst hsign
      have hbehind : behind 1 ('#' :: cs) = .ok cs := behind_append ['#'] cs
      rw [if_pos (by simp)]
      simp only [hbehind]
      cases cs <;> rfl
    · rw [if_neg (by simpa using Ne.symm hsign)]
      cases hline : Scanner.startsLineComment c cs with
      | false => rfl
      | true =>
        exfalso
        obtain ⟨e, rest, -, ⟨hc, -⟩ | ⟨hc, hcs⟩⟩ := Scanner.startsLineComment_eq_true.1 hline
        · exact hsign hc
        · exact hdashes ⟨hc, by rw [hcs, List.head?_cons]⟩

end ByteScanner

namespace Context

/-- The mark of the literal that is open, also while a character of it is escaped. -/
def quote? : Context → Option Char
  | literal quote => some quote
  | escape inside => inside
  | _ => none

def isEscape : Context → Bool
  | escape _ => true
  | _ => false

def depth : Context → Nat
  | comment enclosing => enclosing + 1
  | _ => 0

end Context

namespace Scanner

def inBytes (s : Scanner) : ByteScanner where
  delimiter := s.delimiter
  quote := s.context.quote?
  escaped := s.context.isEscape
  commentDepth := s.context.depth
  lineStart := s.lineStart
  escapeFloor := byteSize s.kept.guarded
  current := s.kept.text
  statements := s.statements

variable (s : Scanner) (c : Char) (cs : List Char) (context : Context)

theorem inBytes_quote : s.inBytes.quote = s.context.quote? := rfl

theorem inBytes_escaped : s.inBytes.escaped = s.context.isEscape := rfl

theorem inBytes_commentDepth : s.inBytes.commentDepth = s.context.depth := rfl

theorem inBytes_keep : { s.keep c with context := context }.inBytes =
    { s.inBytes.push c with
      quote := context.quote?, escaped := context.isEscape, commentDepth := context.depth } := by
  have hkept : { s.keep c with context := context }.kept = s.kept.push [c] := s.kept_keep c
  have htext : (s.kept.push [c]).text = s.kept.text ++ [c] := Kept.text_push _ _
  simp only [inBytes, hkept, htext]
  rfl

theorem inBytes_keepMarker (first second : Char) :
    { s.keepMarker first second with context := context }.inBytes =
    { s.inBytes.pushMarker [first, second] with
      quote := context.quote?, escaped := context.isEscape, commentDepth := context.depth } := by
  have hkept : { s.keepMarker first second with context := context }.kept =
      s.kept.push [first, second] := s.kept_keepMarker first second
  have htext : (s.kept.push [first, second]).text = s.kept.text ++ [first, second] :=
    Kept.text_push _ _
  simp only [inBytes, hkept, htext]
  rfl

theorem inBytes_keepEscaped : { s.keepEscaped c with context := context }.inBytes =
    { s.inBytes.stepEscaped c with
      quote := context.quote?, escaped := context.isEscape, commentDepth := context.depth } := by
  have hkept : { s.keepEscaped c with context := context }.kept = s.kept.pushGuarded [c] :=
    s.kept_keepEscaped c
  have htext : (s.kept.pushGuarded [c]).text = s.kept.text ++ [c] := Kept.text_pushGuarded _ _
  simp only [inBytes, hkept, htext]
  rfl

theorem commit_inBytes : s.inBytes.commit = .ok s.commit.inBytes := by
  obtain ⟨tail, -, hloose⟩ := exists_trimEnd_append s.kept.loose
  have hbehind : behind s.inBytes.escapeFloor s.inBytes.current = .ok s.kept.loose :=
    behind_append s.kept.guarded s.kept.loose
  have htext : s.kept.text = (s.kept.guarded ++ trimEnd s.kept.loose) ++ tail := by
    rw [List.append_assoc, ← hloose, Kept.text]
  have hsize : byteSize (s.kept.guarded ++ trimEnd s.kept.loose) =
      s.inBytes.escapeFloor + byteSize (trimEnd s.kept.loose) := byteSize_append _ _
  have hsql : upTo (s.inBytes.escapeFloor + byteSize (trimEnd s.kept.loose)) s.inBytes.current =
      .ok (s.kept.guarded ++ trimEnd s.kept.loose) := by
    rw [← hsize]
    exact (congrArg (upTo _) htext).trans (upTo_append _ _)
  have hclosed : s.commit.inBytes = { s.inBytes with
      current := [], escapeFloor := 0
      statements := s.statements.push
        ⟨s.statements.size + 1, String.ofList s.kept.trimmed, String.ofList s.delimiter⟩ } := by
    rw [← statements_commit]
    rfl
  unfold ByteScanner.commit
  rw [hbehind]
  simp only [bind, Except.bind, hsql, pure, Except.pure]
  rw [hclosed]
  rfl

/-- The flags end up as the scanner does, and the size is that of the text that it reads. -/
def SameStep (text : List Char) (next : Scanner × List Char)
    (result : Except BadPlace (ByteScanner × Nat)) : Prop :=
  ∃ front, text = front ++ next.2 ∧ result = .ok (next.1.inBytes, byteSize front)

theorem SameStep.of_one {c : Char} {cs : List Char} {s' : Scanner} {flags : ByteScanner}
    (h : s'.inBytes = flags) : SameStep (c :: cs) (s', cs) (.ok (flags, c.utf8Size)) :=
  ⟨[c], rfl, by rw [h]; rfl⟩

section
variable {s : Scanner}

theorem directive_inBytes_of_some {d : Directive} (h : s.directive? cs = some d) :
    ∃ front, cs = front ++ d.rest ∧
      s.inBytes.directive cs = .ok (some ((s.redefine d.token).inBytes, byteSize front)) := by
  have hread := read?_of_directive? h
  obtain ⟨front, htext, hdirective⟩ := s.inBytes.directive_of_some hread
  have hplace : (s.lineStart || allBlank s.kept.text) = true := by
    rw [← isBlank_eq]
    by_contra hno
    rw [directive?, hread] at h
    simp [hno] at h
  refine ⟨front, htext, hdirective.trans ?_⟩
  exact congrArg Except.ok (if_pos hplace)

theorem directive_inBytes_of_none (h : s.directive? cs = none) :
    s.inBytes.directive cs = .ok none := by
  cases hread : Directive.read? cs with
  | none => exact s.inBytes.directive_of_none hread
  | some d =>
    obtain ⟨front, -, hdirective⟩ := s.inBytes.directive_of_some hread
    have hplace : ¬(s.lineStart || allBlank s.kept.text) = true := by
      rw [← isBlank_eq]
      intro hyes
      rw [directive?, hread] at h
      simp [hyes] at h
    exact hdirective.trans (congrArg Except.ok (if_neg hplace))

theorem isPrefixOf_delimiter (hdelimiter : s.delimiter ≠ []) :
    s.inBytes.delimiter.isPrefixOf (c :: cs) = (s.afterDelimiter? c cs).isSome := by
  rw [Bool.eq_iff_iff, List.isPrefixOf_iff_prefix, Option.isSome_iff_exists]
  constructor
  · rintro ⟨rest, hrest⟩
    exact ⟨rest, afterDelimiter?_eq_some.2 ⟨hdelimiter, hrest.symm⟩⟩
  · rintro ⟨rest, hrest⟩
    exact ⟨rest, (afterDelimiter?_eq_some.1 hrest).2.symm⟩

theorem stepBare_inBytes (hdelimiter : s.delimiter ≠ []) :
    SameStep (c :: cs) (s.stepBare c cs) (s.inBytes.stepBare c (c :: cs)) := by
  unfold stepBare ByteScanner.stepBare
  cases hd : s.directive? (c :: cs) with
  | some d =>
    obtain ⟨front, htext, hdirective⟩ := directive_inBytes_of_some _ hd
    rw [hdirective]
    exact ⟨front, htext, rfl⟩
  | none =>
    rw [directive_inBytes_of_none _ hd]
    simp only [bind, Except.bind, isPrefixOf_delimiter c cs hdelimiter]
    cases hafter : s.afterDelimiter? c cs with
    | some rest =>
      simp only [Option.isSome_some, if_true, commit_inBytes]
      exact ⟨s.delimiter, (afterDelimiter?_eq_some.1 hafter).2, rfl⟩
    | none =>
      simp only [Option.isSome_none, Bool.false_eq_true, if_false]
      exact .of_one (s.inBytes_keep c s.context)

theorem line_of_startsLineComment (h : startsLineComment c cs = true) :
    line (c :: cs) = (c :: (line cs).1, (line cs).2) := by
  have hbreak : isBreak c = false := by
    cases hc : isBreak c with
    | false => rfl
    | true => rw [← isBlank_of_isBreak hc, not_isBlank_of_startsLineComment h]
  simp [line, hbreak]

theorem stepPlain_inBytes (hplain : s.context = .plain) (hdelimiter : s.delimiter ≠ []) :
    SameStep (c :: cs) (s.stepPlain c cs) (s.inBytes.stepPlain c (c :: cs)) := by
  unfold stepPlain ByteScanner.stepPlain
  simp only [ByteScanner.isPrefixOf_pair, ByteScanner.startsLineComment_cons, bind, Except.bind]
  split
  · refine .of_one ?_
    rw [inBytes_keep, inBytes, hplain]
    rfl
  · split
    · rename_i hopen
      obtain ⟨rfl, hhead⟩ := hopen
      obtain ⟨rest, rfl⟩ := List.head?_eq_some_iff.1 hhead
      refine ⟨['/', '*'], rfl, ?_⟩
      rw [inBytes_keepMarker, inBytes, hplain]
      rfl
    · split
      · rename_i hline
        have hsplit := line_of_startsLineComment c cs hline
        refine ⟨c :: (line cs).1, by rw [List.cons_append, line_append], ?_⟩
        rw [breakPlace?_getD, hsplit]
        rfl
      · split
        · refine .of_one ?_
          rw [inBytes_keep, inBytes, hplain]
          rfl
        · exact stepBare_inBytes c cs hdelimiter

theorem stepComment_inBytes {enclosing : Nat} (hinside : s.context = .comment enclosing) :
    SameStep (c :: cs) (s.stepComment enclosing c cs)
      (.ok (s.inBytes.stepComment c (c :: cs))) := by
  unfold stepComment ByteScanner.stepComment
  simp only [ByteScanner.isPrefixOf_pair]
  split
  · rename_i hopen
    obtain ⟨rfl, hhead⟩ := hopen
    obtain ⟨rest, rfl⟩ := List.head?_eq_some_iff.1 hhead
    refine ⟨['/', '*'], rfl, ?_⟩
    rw [inBytes_keepMarker, inBytes, hinside]
    rfl
  · split
    · rename_i hclose
      obtain ⟨rfl, hhead⟩ := hclose
      obtain ⟨rest, rfl⟩ := List.head?_eq_some_iff.1 hhead
      refine ⟨['*', '/'], rfl, ?_⟩
      rw [inBytes_keepMarker, inBytes, hinside]
      cases enclosing <;> rfl
    · exact .of_one (s.inBytes_keep c s.context)

theorem stepLiteral_inBytes {quote : Char} (hinside : s.context = .literal quote) :
    (s.stepLiteral quote c).inBytes = s.inBytes.stepLiteral quote c := by
  unfold stepLiteral ByteScanner.stepLiteral
  rw [inBytes_keep, inBytes, hinside]
  split
  · rfl
  · split <;> rfl

/-- On the flags of a scanner a step reads what the scanner reads, and no place is bad. -/
theorem step_inBytes (hdelimiter : s.delimiter ≠ []) :
    SameStep (c :: cs) (s.step c cs) (s.inBytes.step (c :: cs)) := by
  rw [step, ByteScanner.step, inBytes_escaped, inBytes_commentDepth, inBytes_quote]
  cases hcontext : s.context with
  | plain => exact stepPlain_inBytes c cs hcontext hdelimiter
  | escape inside =>
    refine .of_one ?_
    rw [inBytes_keepEscaped, inBytes, hcontext]
    cases inside <;> rfl
  | literal quote => exact .of_one (stepLiteral_inBytes c hcontext)
  | comment enclosing => exact stepComment_inBytes c cs hcontext

example : ∃ s', ({ delimiter := [] } : ByteScanner).step ['a'] = .ok (s', 0) := ⟨_, rfl⟩

theorem finish_inBytes (s : Scanner) : s.inBytes.finish = .ok s.finish := by
  have hblank : allBlank s.inBytes.current = s.isBlank := s.isBlank_eq.symm
  unfold ByteScanner.finish finish
  rw [hblank, s.commit_inBytes]
  cases s.isBlank <;> rfl

end
end Scanner
end SqlBatch.Script
