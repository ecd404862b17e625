import SqlBatch.Proofs.Script.Concatenation
import SqlBatch.Proofs.Script.Contiguous
import SqlBatch.Proofs.Script.Items

/-! Where the letters of the keyword stand in plain text. They are taken as a directive if they
stand at the start of a line or of a statement and a blank character or the end of the script is
behind them, and a line break is a blank character. Otherwise they are kept, up to the active
delimiter if that begins among them. -/

namespace SqlBatch.Script

open Text

namespace Scanner
variable {s s' : Scanner} {c : Char} {cs rest before text : List Char}

/-- The record of the line start agrees with the script read so far, the latest character first,
except where it cannot matter: while only blanks are kept, and in front of a line break. -/
def Placed (before : List Char) (s : Scanner) (cs : List Char) : Prop :=
  allBlank s.kept.text = true ∨ s.lineStart = startsLine before ∨
    ∀ c ∈ cs.head?, isBreak c = true

theorem Placed.keep (h : Placed before s (c :: cs)) (hkeeps : Keeps s [c] s') :
    Placed (c :: before) s' cs := by
  have hline : s'.lineStart = lineStartAfter c s.lineStart := hkeeps.lineStart
  cases hc : Text.isBlank c with
  | false =>
    refine Or.inr (Or.inl ?_)
    rw [hline, startsLine_cons, lineStartAfter_of_not_isBlank hc, lineStartAfter_of_not_isBlank hc]
  | true =>
    rcases h with hblank | hsame | hbreak
    · refine Or.inl ?_
      rw [hkeeps.text, allBlank_append, hblank]
      simpa using hc
    · exact Or.inr (Or.inl (by rw [hline, startsLine_cons, hsame]))
    · have hb : isBreak c = true := hbreak c rfl
      refine Or.inr (Or.inl ?_)
      rw [hline, startsLine_cons, lineStartAfter, lineStartAfter, if_pos hb, if_pos hb]

theorem Placed.exit (h : Placed before s (c :: cs)) (hexit : Exit s c cs s' rest)
    (htext : c :: cs = text ++ rest) : Placed (text.reverse ++ before) s' rest := by
  cases hexit with
  | keep hkeeps =>
    have hone : [c] ++ cs = text ++ cs := htext
    obtain rfl : [c] = text := List.append_cancel_right hone
    exact h.keep hkeeps
  | @marker d rest s' hcs hc hd _ hkeeps =>
    have hboth : [c, d] ++ rest = text ++ rest := by rw [← htext, hcs]; rfl
    obtain rfl : [c, d] = text := List.append_cancel_right hboth
    refine Or.inr (Or.inl ?_)
    have hline : s'.lineStart = false :=
      hkeeps.lineStart.trans (lineStartAfter_of_not_isBlank hd.not_isBlank _)
    rw [hline]
    exact (startsLine_of_ends [c] before hd.not_isBlank).symm
  | stop hstop =>
    cases hstop with
    | comment => exact Or.inr (Or.inr fun d hd => isBreak_head_line_rest hd)
    | directive _ hd =>
      obtain ⟨text', htext', hend⟩ := Directive.exists_text (read?_of_directive? hd)
      obtain rfl : text' = text := List.append_cancel_right (htext'.symm.trans htext)
      rcases hend with hnil | ⟨front, b, rfl, hb⟩
      · exact Or.inr (Or.inr (by simp [hnil]))
      · refine Or.inr (Or.inl ?_)
        rw [List.reverse_append, List.reverse_singleton, List.singleton_append, List.cons_append,
          startsLine_cons, lineStartAfter, if_pos hb]
        rfl
    | close => exact Or.inl rfl

theorem Placed.runs (hrun : Runs s cs s' rest) (h : Placed before s cs)
    (htext : cs = text ++ rest) : Placed (text.reverse ++ before) s' rest := by
  induction hrun generalizing before text with
  | refl s cs =>
    obtain rfl : text = [] := List.self_eq_append_left.1 htext
    exact h
  | @step s s' c cs rest hrun ih =>
    -- the text of the run is the text of its first step and the text of the others
    obtain ⟨first, hfirst⟩ := step_suffix s c cs
    obtain ⟨more, hmore⟩ := hrun.suffix
    have hnext := h.exit (exit_step s c cs) hfirst.symm
    have hall := ih hnext hmore.symm
    have hboth : text ++ rest = first ++ more ++ rest := by
      rw [← htext, ← hfirst, ← hmore, List.append_assoc]
    rw [List.append_cancel_right hboth, List.reverse_append, List.append_assoc]
    exact hall

theorem place_of_runs {delimiter : String}
    (hrun : Runs (start delimiter) (text ++ c :: cs) s (c :: cs)) (hc : isBreak c = false) :
    (s.lineStart || s.isBlank) = (startsLine text.reverse || allBlank s.kept.text) := by
  have hstart : Placed [] (start delimiter) (text ++ c :: cs) := Or.inl rfl
  have hplaced := hstart.runs hrun rfl
  rw [List.append_nil] at hplaced
  rw [isBlank_eq]
  rcases hplaced with hblank | hsame | hbreak
  · simp [hblank]
  · rw [hsame]
  · rw [hbreak c rfl] at hc
    exact Bool.noConfusion hc

theorem bare_of_letter (hc : c.toLower ∈ keyword) (cs : List Char) : Bare c cs := by
  have hsafe : IsSafe c := Or.inr hc
  refine ⟨hsafe.ne (by decide) (by decide), ?_, ?_, hsafe.not_isQuote⟩
  · rintro ⟨hslash, -⟩
    exact hsafe.ne (by decide) (by decide) hslash
  · cases hline : startsLineComment c cs with
    | false => rfl
    | true =>
      obtain ⟨-, -, -, ⟨hsign, -⟩ | ⟨hhyphen, -⟩⟩ := startsLineComment_eq_true.1 hline
      · exact absurd hsign (hsafe.ne (by decide) (by decide))
      · exact absurd hhyphen (hsafe.ne (by decide) (by decide))

theorem directive?_of_letter (hc : c.toLower ≠ 'd') (cs : List Char) :
    s.directive? (c :: cs) = none := by
  cases hd : s.directive? (c :: cs) with
  | none => rfl
  | some d => exact absurd (Directive.toLower_head_of_read? (read?_of_directive? hd)) hc

end Scanner

/-- In plain text the letters of the keyword stand, behind `before` and in front of `after`. -/
structure MeetsKeyword (script delimiter : String) (before word after : List Char)
    (s : Scanner) : Prop where
  script_eq : script.toList = before ++ (word ++ after)
  runs : Scanner.Runs (Scanner.start delimiter) script.toList s (word ++ after)
  plain : s.context = .plain
  letters : word.map Char.toLower = keyword

/-- The word, the rest of its line and the line's terminator are passed over. The line names the
delimiter unless it is blank, and nothing is kept. -/
def TakenAsDirective (s : Scanner) (word after : List Char) : Prop :=
  ∃ c cs name terminator rest, word ++ after = c :: cs ∧ after = name ++ terminator ++ rest ∧
    (∀ e ∈ name, isBreak e = false) ∧
    (terminator = [] ∧ rest = [] ∨ terminator ∈ [['\r', '\n'], ['\r'], ['\n']]) ∧
    s.step c cs = (s.redefine (trim name), rest)

/-- The word is kept, unless the active delimiter begins in it: then it is kept up to there, where
the statement is closed. -/
def KeptAsText (s : Scanner) (word after : List Char) : Prop :=
  ∃ front back s', word = front ++ back ∧ Scanner.Copies s front s' (back ++ after) ∧
    (back = [] ∨ ∃ c cs rest, back ++ after = c :: cs ∧ back ++ after = s.delimiter ++ rest ∧
      s'.step c cs = (s'.commit, rest))

section
variable {script delimiter : String} {before word after : List Char} {s : Scanner}

theorem keptAsText_of_letters (hplain : s.context = .plain)
    (hletters : ∀ c ∈ word, c.toLower ∈ keyword) (htail : ∀ c ∈ word.tail, c.toLower ≠ 'd')
    (hdirective : word ≠ [] → s.directive? (word ++ after) = none) : KeptAsText s word after := by
  induction word generalizing s with
  | nil => exact ⟨[], [], s, rfl, .refl s _, Or.inl rfl⟩
  | cons c word ih =>
    obtain ⟨hc, hword⟩ := List.forall_mem_cons.1 hletters
    have hbare := Scanner.bare_of_letter hc (word ++ after)
    have hnone := hdirective (List.cons_ne_nil c word)
    rw [List.cons_append] at hnone
    cases hafter : s.afterDelimiter? c (word ++ after) with
    | some rest =>
      obtain ⟨-, htext⟩ := Scanner.afterDelimiter?_eq_some.1 hafter
      refine ⟨[], c :: word, s, rfl, .refl s _, Or.inr ⟨c, word ++ after, rest, rfl, htext, ?_⟩⟩
      exact Scanner.step_of_close hplain hbare hnone hafter
    | none =>
      have hstep : s.step c (word ++ after) = (s.keep c, word ++ after) := by
        rw [Scanner.step_of_bare hplain hbare, Scanner.stepBare, hnone, hafter]
      have hnext : word ≠ [] → (s.keep c).directive? (word ++ after) = none := by
        intro hne
        obtain ⟨e, more, rfl⟩ := List.exists_cons_of_ne_nil hne
        exact Scanner.directive?_of_letter (htail e List.mem_cons_self) _
      obtain ⟨front, back, s', rfl, hcopies, hend⟩ := ih (s := s.keep c) hplain hword
        (fun e he => htail e (List.mem_of_mem_tail he)) hnext
      refine ⟨c :: front, back, s', rfl, ?_, hend⟩
      rw [List.append_assoc] at hstep
      exact .keep hstep (Scanner.keeps_keep s.context) hcopies

theorem TakenAsDirective.not_keptAsText (h : TakenAsDirective s word after) (hne : word ≠ []) :
    ¬KeptAsText s word after := by
  obtain ⟨c, cs, name, terminator, rest, htext, -, -, -, hstep⟩ := h
  rintro ⟨front, back, s', rfl, hcopies, hend⟩
  cases hcopies with
  | refl =>
    obtain ⟨c', cs', rest', htext', -, hclose⟩ := hend.resolve_left hne
    obtain ⟨rfl, rfl⟩ := List.cons.inj (htext'.symm.trans htext)
    have hsame : s.commit = s.redefine (trim name) := (Prod.mk.inj (hclose.symm.trans hstep)).1
    have hsize : s.statements.size + 1 = s.statements.size := by
      rw [← Array.size_push, ← Scanner.statements_commit, hsame]
      rfl
    omega
  | @keep _ s₁ _ e text _ hkeep hkeeps _ =>
    rw [List.append_assoc, List.cons_append] at htext
    obtain ⟨rfl, rfl⟩ := List.cons.inj htext
    have hsame : s₁ = s.redefine (trim name) := (Prod.mk.inj (hkeep.symm.trans hstep)).1
    have hkept := hkeeps.text
    rw [hsame, Scanner.kept_redefine] at hkept
    simp at hkept
  | @marker _ s₁ _ e f text _ _ _ hkeep hkeeps _ =>
    rw [List.append_assoc, List.cons_append, List.cons_append] at htext
    obtain ⟨rfl, rfl⟩ := List.cons.inj htext
    have hsame : s₁ = s.redefine (trim name) := (Prod.mk.inj ((hkeep _).symm.trans hstep)).1
    have hkept := hkeeps.text
    rw [hsame, Scanner.kept_redefine] at hkept
    simp at hkept

theorem MeetsKeyword.taken (h : MeetsKeyword script delimiter before word after s)
    (hplace : startsLine before.reverse = true ∨ allBlank s.kept.text = true)
    (hblank : after.head?.all isBlank = true) : TakenAsDirective s word after := by
  obtain ⟨c, letters, rfl⟩ := List.exists_cons_of_ne_nil (ne_nil_of_word h.letters)
  have hrun := h.runs
  rw [h.script_eq] at hrun
  have hread : Directive.read? (c :: letters ++ after) =
      some ⟨trim (line after).1, dropTerminator (line after).2⟩ :=
    Directive.read?_eq_some.2 ⟨c :: letters, after, rfl, h.letters, hblank, rfl, rfl⟩
  have hmay : (s.lineStart || s.isBlank) = true := by
    rw [Scanner.place_of_runs hrun (not_isBreak_of_mem_word h.letters List.mem_cons_self),
      Bool.or_eq_true]
    exact hplace
  have hdirective : s.directive? (c :: letters ++ after) =
      some ⟨trim (line after).1, dropTerminator (line after).2⟩ := by
    rw [Scanner.directive?, hread, hmay]
    rfl
  obtain ⟨terminator, hafter, hend⟩ := exists_line_terminator after
  exact ⟨c, letters ++ after, (line after).1, terminator, _, rfl, hafter,
    fun e he => not_isBreak_of_mem_line he, hend, Scanner.step_of_directive? h.plain hdirective⟩

theorem MeetsKeyword.kept (h : MeetsKeyword script delimiter before word after s)
    (hnot : ¬((startsLine before.reverse = true ∨ allBlank s.kept.text = true) ∧
      after.head?.all isBlank = true)) : KeptAsText s word after := by
  have hletters : ∀ c ∈ word, c.toLower ∈ keyword :=
    fun c hc => h.letters ▸ List.mem_map_of_mem hc
  have htail : ∀ c ∈ word.tail, c.toLower ≠ 'd' := by
    intro c hc
    have hmem : c.toLower ∈ keyword.tail := by
      rw [← h.letters, ← List.map_tail]
      exact List.mem_map_of_mem hc
    rintro hd
    rw [hd] at hmem
    exact absurd hmem (by decide)
  refine keptAsText_of_letters h.plain hletters htail fun hne => ?_
  obtain ⟨c, letters, rfl⟩ := List.exists_cons_of_ne_nil hne
  have hrun := h.runs
  rw [h.script_eq] at hrun
  have hmay := Scanner.place_of_runs hrun (not_isBreak_of_mem_word h.letters List.mem_cons_self)
  rw [not_and_or] at hnot
  unfold Scanner.directive?
  rcases hnot with hplace | hbehind
  · rw [hmay]
    have hfalse : (startsLine before.reverse || allBlank s.kept.text) = false := by
      simpa using hplace
    rw [hfalse]
    cases Directive.read? (c :: letters ++ after) <;> rfl
  · cases hread : Directive.read? (c :: letters ++ after) with
    | none => rfl
    | some d =>
      obtain ⟨word', after', htext, hword', hblank, -, -⟩ := Directive.read?_eq_some.1 hread
      have hlength : (c :: letters).length = word'.length := by
        have hsame := congrArg List.length (h.letters.trans hword'.symm)
        simpa using hsame
      obtain ⟨-, rfl⟩ := List.append_inj htext hlength
      exact absurd hblank hbehind

/-- The keyword in plain text is taken as a directive or kept, and which of the two depends on where
it stands and on the character behind it alone. -/
theorem taken_iff_and_kept_iff (h : MeetsKeyword script delimiter before word after s) :
    (TakenAsDirective s word after ↔
      (startsLine before.reverse = true ∨ allBlank s.kept.text = true) ∧
        after.head?.all isBlank = true) ∧
    (KeptAsText s word after ↔ ¬TakenAsDirective s word after) := by
  have hne : word ≠ [] := ne_nil_of_word h.letters
  have hiff : TakenAsDirective s word after ↔
      (startsLine before.reverse = true ∨ allBlank s.kept.text = true) ∧
        after.head?.all isBlank = true := by
    constructor
    · intro htaken
      by_contra hnot
      exact htaken.not_keptAsText hne (h.kept hnot)
    · rintro ⟨hplace, hblank⟩
      exact h.taken hplace hblank
  refine ⟨hiff, fun hkept htaken => htaken.not_keptAsText hne hkept, fun hnot => ?_⟩
  exact h.kept fun hboth => hnot (hiff.2 hboth)

end

def brokenSelect : String := "SELECT\ndelimiter\nFROM t;"

theorem taken_iff_and_kept_iff_brokenSelect :
    ∃ s, MeetsKeyword brokenSelect Statement.defaultDelimiter "SELECT\n".toList
        "delimiter".toList "\nFROM t;".toList s ∧
      TakenAsDirective s "delimiter".toList "\nFROM t;".toList ∧
      ¬KeptAsText s "delimiter".toList "\nFROM t;".toList := by
  have hstart : Scanner.Sane (Scanner.start Statement.defaultDelimiter) :=
    Scanner.sane_start (by decide)
  have hrun := (Scanner.runs_scan (Scanner.start Statement.defaultDelimiter)
    "SELECT\n".toList).append hstart (Or.inr ⟨"SELECT".toList, by decide⟩)
    "delimiter\nFROM t;".toList
  have hmeets : MeetsKeyword brokenSelect Statement.defaultDelimiter "SELECT\n".toList
      "delimiter".toList "\nFROM t;".toList
      ((Scanner.start Statement.defaultDelimiter).scan "SELECT\n".toList) :=
    ⟨by decide, hrun, by decide +kernel, by decide⟩
  obtain ⟨htaken, hkept⟩ := taken_iff_and_kept_iff hmeets
  have hdirective := htaken.2 ⟨Or.inl (by decide), by decide⟩
  exact ⟨_, hmeets, hdirective, fun h => hkept.1 h hdirective⟩

theorem tokenize_brokenSelect : tokenize brokenSelect Statement.defaultDelimiter =
    [⟨1, "SELECT\nFROM t", ";"⟩] := by
  decide +kernel

end SqlBatch.Script
