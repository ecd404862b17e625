import SqlBatch.Proofs.Script.Concatenation
import SqlBatch.Proofs.Script.Echo
import SqlBatch.Proofs.Text.LineEnding

/-! A script whose lines end with a line feed, and the same script with a carriage return in front
of each. The two scans go side by side: where the one keeps a line feed the other keeps both, and
every other step is the same. So the statements differ in the line breaks of their text only. -/

namespace SqlBatch

/-- The statement with a carriage return in front of every line feed of its text. -/
def Statement.crlf (x : Statement) : Statement := { x with sql := Text.crlfString x.sql }

namespace Script

open Text

theorem afterLetters?_crlf {letters cs : List Char} (h : ∀ l ∈ letters, isBlank l = false) :
    afterLetters? letters (crlf cs) = (afterLetters? letters cs).map crlf := by
  induction letters generalizing cs with
  | nil => rfl
  | cons l letters ih =>
    have hl : isBlank l = false := h l List.mem_cons_self
    have hletters {cs : List Char} := @ih cs fun c hc => h c (List.mem_cons_of_mem l hc)
    cases cs with
    | nil => rfl
    | cons c cs =>
      by_cases hc : c = '\n'
      · subst hc
        have hreturn : '\r'.toLower ≠ l := by
          rintro rfl
          exact absurd hl (by decide)
        have hfeed : '\n'.toLower ≠ l := by
          rintro rfl
          exact absurd hl (by decide)
        rw [crlf_lineFeed, afterLetters?, afterLetters?, if_neg hreturn, if_neg hfeed]
        rfl
      · rw [crlf_cons hc]
        by_cases hsame : c.toLower = l
        · simpa [afterLetters?, hsame] using hletters
        · simp [afterLetters?, hsame]

theorem dropTerminator_crlf {cs : List Char} (hreturn : '\r' ∉ cs)
    (hbreak : ∀ c ∈ cs.head?, isBreak c = true) :
    dropTerminator (crlf cs) = crlf (dropTerminator cs) := by
  cases cs with
  | nil => rfl
  | cons b rest =>
    have hfeed : b = '\n' := eq_lineFeed hreturn List.mem_cons_self (hbreak b rfl)
    rw [hfeed, crlf_lineFeed, dropTerminator_lineFeed]
    rfl

theorem read?_crlf {cs : List Char} (h : '\r' ∉ cs) : Directive.read? (crlf cs) =
    (Directive.read? cs).map fun d => ⟨d.token, crlf d.rest⟩ := by
  have hkeyword : ∀ l ∈ keyword, isBlank l = false := forall_mem_of_all (by decide)
  unfold Directive.read?
  rw [afterLetters?_crlf hkeyword]
  cases hafter : afterLetters? keyword cs with
  | none => rfl
  | some after =>
    obtain ⟨word, hcs, -⟩ := afterLetters?_eq_some.1 hafter
    have hreturn : '\r' ∉ (line after).2 := by
      intro hmem
      have hline : (line after).2 <:+ after := ⟨(line after).1, line_append after⟩
      exact h (hcs ▸ List.mem_append_right word (hline.mem hmem))
    have hhead : (crlf after).head?.all isBlank = after.head?.all isBlank := by
      cases after with
      | nil => rfl
      | cons c after =>
        by_cases hc : c = '\n'
        · subst hc
          rfl
        · rw [crlf_cons hc, List.head?_cons, List.head?_cons]
    have hdrop := dropTerminator_crlf hreturn fun c hc => isBreak_head_line_rest hc
    simp only [Option.map_some, hhead, line_crlf, hdrop]
    split <;> rfl

namespace Kept

def crlf (k : Kept) : Kept := ⟨Text.crlf k.guarded, Text.crlf k.loose⟩

@[simp] theorem text_crlf (k : Kept) : k.crlf.text = Text.crlf k.text := (crlf_append _ _).symm

theorem crlf_push (k : Kept) (cs : List Char) :
    (k.push cs).crlf = k.crlf.push (Text.crlf cs) := by
  simp [crlf, push]

theorem crlf_pushGuarded (k : Kept) (cs : List Char) :
    (k.pushGuarded cs).crlf = k.crlf.pushGuarded (Text.crlf cs) := by
  simp [crlf, pushGuarded, text]

theorem trimmed_crlf (k : Kept) : k.crlf.trimmed = Text.crlf k.trimmed := by
  rw [trimmed_eq, trimmed_eq, ← trimStart_crlf, crlf_append, ← trimEnd_crlf]
  rfl

end Kept

namespace Scanner

/-- What is asked of the unread text `cs`: its lines end with a bare line feed, and no backslash
stands in front of one, read or unread. -/
structure LineFeeds (s : Scanner) (cs : List Char) : Prop where
  proper : s.context.IsProper
  delimiter : ∀ c ∈ s.delimiter, isBreak c = false
  noReturn : '\r' ∉ cs
  noEscape : ¬['\\', '\n'] <:+: cs
  pending : ∀ inside, s.context = .escape inside → cs.head? ≠ some '\n'

/-- `t` is where `s` is, in the text with a carriage return in front of every line feed. -/
structure Mirrors (s t : Scanner) : Prop where
  delimiter : t.delimiter = s.delimiter
  context : t.context = s.context
  lineStart : t.lineStart = s.lineStart
  kept : t.kept = s.kept.crlf
  statements : t.statements.toList = s.statements.toList.map Statement.crlf

section
variable {s t : Scanner} {c : Char} {cs : List Char}

theorem LineFeeds.step (h : LineFeeds s (c :: cs)) : LineFeeds (s.step c cs).1 (s.step c cs).2 := by
  have hsuffix := step_suffix s c cs
  refine ⟨isProper_step h.proper, ?_, fun hmem => h.noReturn (hsuffix.mem hmem),
    fun hfound => h.noEscape (hfound.trans hsuffix.isInfix), ?_⟩
  · have hexit := exit_step s c cs
    generalize s.step c cs = next at hexit
    obtain ⟨s', rest⟩ := next
    cases hexit with
    | keep hkeeps => exact hkeeps.delimiter ▸ h.delimiter
    | marker _ _ _ _ hkeeps => exact hkeeps.delimiter ▸ h.delimiter
    | stop hstop =>
      cases hstop with
      | comment => exact h.delimiter
      | @directive d _ hd =>
        cases htoken : d.token with
        | nil => exact h.delimiter
        | cons e es =>
          rw [← htoken]
          have hname := nameable_token (read?_of_directive? hd) (by simp [htoken])
          simpa [redefine, htoken] using hname.line
      | close => exact h.delimiter
  · intro inside hescape hhead
    obtain ⟨rfl, hrest⟩ := step_escape hescape
    rw [hrest] at hhead
    obtain ⟨rest, rfl⟩ := List.head?_eq_some_iff.1 hhead
    exact h.noEscape ⟨[], rest, rfl⟩

namespace Mirrors

theorem isBlank (h : Mirrors s t) : t.isBlank = s.isBlank := by
  rw [isBlank_eq, isBlank_eq, h.kept, Kept.text_crlf, allBlank_crlf]

theorem enter (h : Mirrors s t) (context : Context) :
    Mirrors { s with context := context } { t with context := context } :=
  { h with context := rfl }

theorem keep (h : Mirrors s t) (hc : c ≠ '\n') : Mirrors (s.keep c) (t.keep c) := by
  refine ⟨h.delimiter, h.context, congrArg (lineStartAfter c) h.lineStart, ?_, h.statements⟩
  rw [kept_keep, kept_keep, h.kept, Kept.crlf_push, crlf_cons hc, crlf_nil]

theorem keepMarker (h : Mirrors s t) {first second : Char} (hfirst : first ≠ '\n')
    (hsecond : second ≠ '\n') :
    Mirrors (s.keepMarker first second) (t.keepMarker first second) := by
  refine ⟨h.delimiter, h.context, rfl, ?_, h.statements⟩
  rw [kept_keepMarker, kept_keepMarker, h.kept, Kept.crlf_push, crlf_cons hfirst,
    crlf_cons hsecond, crlf_nil]

theorem keepEscaped (h : Mirrors s t) (hc : c ≠ '\n') :
    Mirrors (s.keepEscaped c) (t.keepEscaped c) := by
  refine ⟨h.delimiter, h.context, congrArg (lineStartAfter c) h.lineStart, ?_, h.statements⟩
  rw [kept_keepEscaped, kept_keepEscaped, h.kept, Kept.crlf_pushGuarded, crlf_cons hc, crlf_nil]

theorem lineFeed (h : Mirrors s t) : Mirrors (s.keep '\n') ((t.keep '\r').keep '\n') := by
  refine ⟨h.delimiter, h.context, rfl, ?_, h.statements⟩
  rw [kept_keep, kept_keep, kept_keep, h.kept, Kept.push_push, Kept.crlf_push]
  rfl

theorem commit (h : Mirrors s t) : Mirrors s.commit t.commit := by
  have hsize : t.statements.size = s.statements.size := by
    have hlength := congrArg List.length h.statements
    rwa [List.length_map, Array.length_toList, Array.length_toList] at hlength
  refine ⟨h.delimiter, h.context, h.lineStart, rfl, ?_⟩
  rw [statements_commit, statements_commit, Array.toList_push, Array.toList_push, h.statements,
    h.delimiter, h.kept, Kept.trimmed_crlf, hsize, List.map_append]
  simp [Statement.crlf, crlfString]

theorem redefine (h : Mirrors s t) (token : List Char) :
    Mirrors (s.redefine token) (t.redefine token) := by
  refine ⟨?_, h.context, rfl, h.kept, h.statements⟩
  rw [Scanner.redefine, Scanner.redefine, h.delimiter]

theorem directive?_eq (h : Mirrors s t) {cs : List Char} (hcs : '\r' ∉ cs) :
    t.directive? (crlf cs) = (s.directive? cs).map fun d => ⟨d.token, crlf d.rest⟩ := by
  unfold directive?
  rw [read?_crlf hcs, h.lineStart, h.isBlank]
  cases Directive.read? cs with
  | none => rfl
  | some d =>
    simp only [Option.map_some]
    split <;> rfl

theorem afterDelimiter?_eq (h : Mirrors s t) (hs : ∀ c ∈ s.delimiter, isBreak c = false) :
    t.afterDelimiter? c (crlf cs) = (s.afterDelimiter? c cs).map crlf := by
  unfold afterDelimiter?
  rw [h.delimiter]
  cases hd : s.delimiter with
  | nil => rfl
  | cons d ds =>
    have hds : ∀ c ∈ ds, isBreak c = false := fun c hc =>
      hs c (hd ▸ List.mem_cons_of_mem d hc)
    simp only [after?_crlf hds]
    split <;> rfl

theorem stepBare (h : Mirrors s t) (hcs : LineFeeds s (c :: cs)) (hc : c ≠ '\n') :
    (t.stepBare c (crlf cs)).2 = crlf (s.stepBare c cs).2 ∧
      Mirrors (s.stepBare c cs).1 (t.stepBare c (crlf cs)).1 := by
  have hdirective := h.directive?_eq hcs.noReturn
  rw [crlf_cons hc] at hdirective
  rw [Scanner.stepBare, Scanner.stepBare, hdirective, h.afterDelimiter?_eq hcs.delimiter]
  cases s.directive? (c :: cs) with
  | some d => exact ⟨rfl, h.redefine d.token⟩
  | none =>
    cases s.afterDelimiter? c cs with
    | some rest => exact ⟨rfl, h.commit⟩
    | none => exact ⟨rfl, h.keep hc⟩

end Mirrors

theorem startsLineComment_crlf (c : Char) (cs : List Char) :
    startsLineComment c (crlf cs) = startsLineComment c cs := by
  have hhyphen : isBreak '-' = false := rfl
  rw [Bool.eq_iff_iff, startsLineComment_eq_true, startsLineComment_eq_true]
  constructor
  · rintro ⟨e, rest, he, ⟨hc, hcs⟩ | ⟨hc, hcs⟩⟩
    · obtain ⟨rest', hrest, -⟩ := (crlf_eq_cons (not_isBreak_of_isSpaceOrTab he)).1 hcs
      exact ⟨e, rest', he, Or.inl ⟨hc, hrest⟩⟩
    · obtain ⟨rest', hrest, htail⟩ := (crlf_eq_cons hhyphen).1 hcs
      obtain ⟨rest'', hrest', -⟩ := (crlf_eq_cons (not_isBreak_of_isSpaceOrTab he)).1 htail.symm
      exact ⟨e, rest'', he, Or.inr ⟨hc, by rw [hrest, hrest']⟩⟩
  · rintro ⟨e, rest, he, ⟨hc, hcs⟩ | ⟨hc, hcs⟩⟩
    · have hspace : crlf (e :: rest) = e :: crlf rest :=
        (crlf_eq_cons (not_isBreak_of_isSpaceOrTab he)).2 ⟨rest, rfl, rfl⟩
      exact ⟨e, crlf rest, he, Or.inl ⟨hc, by rw [hcs, hspace]⟩⟩
    · have hspace : crlf (e :: rest) = e :: crlf rest :=
        (crlf_eq_cons (not_isBreak_of_isSpaceOrTab he)).2 ⟨rest, rfl, rfl⟩
      have hdash : crlf ('-' :: e :: rest) = '-' :: crlf (e :: rest) :=
        (crlf_eq_cons hhyphen).2 ⟨e :: rest, rfl, rfl⟩
      exact ⟨e, crlf rest, he, Or.inr ⟨hc, by rw [hcs, hdash, hspace]⟩⟩

namespace Mirrors

theorem stepPlain (h : Mirrors s t) (hcs : LineFeeds s (c :: cs)) (hc : c ≠ '\n') :
    (t.stepPlain c (crlf cs)).2 = crlf (s.stepPlain c cs).2 ∧
      Mirrors (s.stepPlain c cs).1 (t.stepPlain c (crlf cs)).1 := by
  have hstar : isBreak '*' = false := rfl
  unfold Scanner.stepPlain
  simp only [head?_crlf hstar, startsLineComment_crlf]
  split
  · exact ⟨rfl, (h.keep hc).enter _⟩
  · split
    · rename_i hopen
      exact ⟨tail_crlf hstar hopen.2, (h.keepMarker (by decide) (by decide)).enter _⟩
    · split
      · exact ⟨by rw [line_crlf], h⟩
      · split
        · exact ⟨rfl, (h.keep hc).enter _⟩
        · exact h.stepBare hcs hc

theorem stepComment (h : Mirrors s t) (hc : c ≠ '\n') (enclosing : Nat) :
    (t.stepComment enclosing c (crlf cs)).2 = crlf (s.stepComment enclosing c cs).2 ∧
      Mirrors (s.stepComment enclosing c cs).1 (t.stepComment enclosing c (crlf cs)).1 := by
  have hstar : isBreak '*' = false := rfl
  have hslash : isBreak '/' = false := rfl
  unfold Scanner.stepComment
  simp only [head?_crlf hstar, head?_crlf hslash]
  split
  · rename_i hopen
    exact ⟨tail_crlf hstar hopen.2, (h.keepMarker (by decide) (by decide)).enter _⟩
  · split
    · rename_i hclose
      exact ⟨tail_crlf hslash hclose.2, (h.keepMarker (by decide) (by decide)).enter _⟩
    · exact ⟨rfl, h.keep hc⟩

theorem step (h : Mirrors s t) (hcs : LineFeeds s (c :: cs)) (hc : c ≠ '\n') :
    (t.step c (crlf cs)).2 = crlf (s.step c cs).2 ∧
      Mirrors (s.step c cs).1 (t.step c (crlf cs)).1 := by
  unfold Scanner.step
  rw [h.context]
  cases s.context with
  | plain => exact h.stepPlain hcs hc
  | escape inside => exact ⟨rfl, (h.keepEscaped hc).enter _⟩
  | literal quote => exact ⟨rfl, (h.keep hc).enter _⟩
  | comment enclosing => exact h.stepComment hc enclosing

end Mirrors

theorem step_of_isBreak {b : Char} (hb : isBreak b = true) (hproper : s.context.IsProper)
    (hs : ∀ c ∈ s.delimiter, isBreak c = false) (hescape : ∀ inside, s.context ≠ .escape inside)
    (cs : List Char) : s.step b cs = (s.keep b, cs) := by
  apply step_of_isBlank (isBlank_of_isBreak hb) hproper hescape
  exact afterDelimiter?_of_isBreak hs hb cs

namespace Mirrors

theorem scan_lineFeed (h : Mirrors s t) (hcs : LineFeeds s ('\n' :: cs)) :
    s.step '\n' cs = (s.keep '\n', cs) ∧
      t.scan (crlf ('\n' :: cs)) = ((t.keep '\r').keep '\n').scan (crlf cs) := by
  have hescape : ∀ inside, s.context ≠ .escape inside := fun inside hinside =>
    hcs.pending inside hinside rfl
  have hproper : t.context.IsProper := h.context ▸ hcs.proper
  have hline : ∀ c ∈ t.delimiter, isBreak c = false := h.delimiter ▸ hcs.delimiter
  have hplain : ∀ inside, t.context ≠ .escape inside := h.context ▸ hescape
  have hreturn := step_of_isBreak (b := '\r') rfl hproper hline hplain ('\n' :: crlf cs)
  have hfeed := step_of_isBreak (s := t.keep '\r') (b := '\n') rfl hproper hline hplain (crlf cs)
  refine ⟨step_of_isBreak rfl hcs.proper hcs.delimiter hescape cs, ?_⟩
  rw [crlf_lineFeed, scan_cons, hreturn, scan_cons, hfeed]

theorem scan (h : Mirrors s t) (hcs : LineFeeds s cs) :
    Mirrors (s.scan cs) (t.scan (crlf cs)) := by
  fun_induction Scanner.scan s cs generalizing t with
  | case1 s => rwa [crlf_nil, scan_nil]
  | case2 s c cs next =>
    rename_i ih
    by_cases hc : c = '\n'
    · subst hc
      obtain ⟨hstep, hscan⟩ := h.scan_lineFeed hcs
      have hnext : Mirrors next.1 ((t.keep '\r').keep '\n') := by
        rw [show next = (s.keep '\n', cs) from hstep]
        exact h.lineFeed
      have hrest : next.2 = cs := congrArg Prod.snd hstep
      rw [hscan, ← hrest]
      exact ih hnext hcs.step
    · obtain ⟨hrest, hnext⟩ := h.step hcs hc
      rw [crlf_cons hc, scan_cons, hrest]
      exact ih hnext hcs.step

theorem finish (h : Mirrors s t) : t.finish = s.finish.map Statement.crlf := by
  unfold Scanner.finish
  rw [h.isBlank]
  split
  · exact h.statements
  · exact h.commit.statements

end Mirrors
end
end Scanner

/-- Where no line feed is escaped, a carriage return in front of each changes the statements of a
script in this only, that their texts have them too. -/
theorem tokenize_crlf {script delimiter : String} (hreturn : '\r' ∉ script.toList)
    (hescape : ¬['\\', '\n'] <:+: script.toList)
    (hdelimiter : ∀ c ∈ delimiter.toList, isBreak c = false) :
    tokenize (crlfString script) delimiter =
      (tokenize script delimiter).map Statement.crlf := by
  have hline : ∀ c ∈ (Scanner.start delimiter).delimiter, isBreak c = false := by
    unfold Scanner.start
    split
    · exact forall_mem_of_all (by decide)
    · exact hdelimiter
  have hfeeds : Scanner.LineFeeds (Scanner.start delimiter) script.toList :=
    ⟨trivial, hline, hreturn, hescape, fun inside hinside => by simp at hinside⟩
  have hstart : Scanner.Mirrors (Scanner.start delimiter) (Scanner.start delimiter) :=
    ⟨rfl, rfl, rfl, rfl, rfl⟩
  have hscan := hstart.scan hfeeds
  rw [tokenize, tokenize, crlfString, String.toList_ofList]
  exact hscan.finish

/-- Line feeds in a literal, behind a line comment and a directive, and at both ends of a text. -/
def manyLines : String := "\nSELECT 'a\nb'\n; -- done\nDELIMITER //\nSELECT\t\\;\n//x \n"

theorem tokenize_crlf_manyLines :
    '\r' ∉ manyLines.toList ∧ ¬['\\', '\n'] <:+: manyLines.toList ∧
    (∀ c ∈ ";".toList, isBreak c = false) ∧
    tokenize (crlfString manyLines) ";" =
      [⟨1, "SELECT 'a\r\nb'", ";"⟩, ⟨2, "SELECT\t\\;", "//"⟩, ⟨3, "x", "//"⟩] := by
  have hreturn : '\r' ∉ manyLines.toList := by decide +kernel
  have hescape : ¬['\\', '\n'] <:+: manyLines.toList := by decide +kernel
  have hdelimiter : ∀ c ∈ ";".toList, isBreak c = false := forall_mem_of_all (by decide)
  refine ⟨hreturn, hescape, hdelimiter, ?_⟩
  rw [tokenize_crlf hreturn hescape hdelimiter]
  decide +kernel

end Script
end SqlBatch
