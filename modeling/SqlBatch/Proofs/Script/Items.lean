import SqlBatch.Proofs.Script.Exit

/-! The scanner, which reads one character at a time in a context, finds the statements that reading
whole items finds. While the scanner stands in plain text, both sides hold the same kept text, the
same delimiter and the same statements. The scanner's record of the line start is compared with the
script itself only while it can matter: not while nothing but blanks is kept, and not in front of a
line break. -/

namespace SqlBatch.Script

open Text

namespace Kept

/-- Adds `cs`, whose first `n` characters end with an escaped one if there are any. -/
def addUpTo (k : Kept) (cs : List Char) (n : Nat) : Kept :=
  if n = 0 then k.push cs else ⟨k.text ++ cs.take n, cs.drop n⟩

theorem add_eq (k : Kept) (i : Item) : k.add i = k.addUpTo i.text i.guarded := rfl

@[simp] theorem text_addUpTo (k : Kept) (cs : List Char) (n : Nat) :
    (k.addUpTo cs n).text = k.text ++ cs := by
  unfold addUpTo
  split
  · exact text_push k cs
  · simp [text]

theorem addUpTo_push (k : Kept) {cs : List Char} {n : Nat} (h : n ≤ cs.length) (c : Char) :
    (k.addUpTo cs n).push [c] = k.addUpTo (cs ++ [c]) n := by
  unfold addUpTo
  split
  · exact push_push k cs [c]
  · rw [push, List.take_append_of_le_length h, List.drop_append_of_le_length h]

theorem addUpTo_pushGuarded (k : Kept) (cs : List Char) (n : Nat) (c : Char) :
    ((k.addUpTo cs n).push ['\\']).pushGuarded [c] =
      k.addUpTo (cs ++ ['\\', c]) (cs.length + 2) := by
  have hlen : cs.length + 2 = (cs ++ ['\\', c]).length := by simp
  rw [pushGuarded, text_push, text_addUpTo, addUpTo, if_neg (by omega), hlen, List.take_length,
    List.drop_length]
  simp

end Kept

theorem Item.guardedIn_cons {c : Char} {cs : List Char} (h : c = '\\' → cs = [])
    (place last : Nat) :
    Item.guarded.guardedIn (c :: cs) place last = Item.guarded.guardedIn cs (place + 1) last := by
  by_cases hc : c = '\\'
  · rw [h hc, hc]
    rfl
  · rw [Item.guarded.guardedIn]
    exact fun _ _ heq => absurd heq hc

namespace Scanner

/-- `s'` is `s` with `k` as its kept text, in any context. -/
structure Gathers (s s' : Scanner) (k : Kept) : Prop where
  delimiter : s'.delimiter = s.delimiter
  statements : s'.statements = s.statements
  kept : s'.kept = k

theorem scan_comment (depth : Nat) (cs : List Char) (s : Scanner)
    (h : s.context = .comment depth) :
    ∃ s', s.scan cs = s'.scan (Item.blockBody depth cs).2 ∧
      Gathers s s' (s.kept.push (Item.blockBody depth cs).1) ∧
      ((Item.blockBody depth cs).2 = [] ∨ s'.context = .plain ∧ s'.lineStart = false) := by
  fun_induction Item.blockBody depth cs generalizing s with
  | case1 depth => exact ⟨s, rfl, ⟨rfl, rfl, by simp⟩, Or.inl rfl⟩
  | case2 depth cs body rest hbody ih =>
    rw [hbody] at ih
    obtain ⟨s', hscan, hgathers, hend⟩ :=
      ih { s.keepMarker '/' '*' with context := .comment (depth + 1) } rfl
    refine ⟨s', ?_, ⟨hgathers.delimiter, hgathers.statements, ?_⟩, hend⟩
    · rw [scan_cons, ← hscan]
      simp [step, h, stepComment]
    · rw [hgathers.kept]
      exact (congrArg (Kept.push · _) (kept_keepMarker s '/' '*')).trans (by simp)
  | case3 cs =>
    refine ⟨{ s.keepMarker '*' '/' with context := .plain }, ?_, ⟨rfl, rfl, ?_⟩, ?_⟩
    · rw [scan_cons]
      simp [step, h, stepComment, leave]
    · exact kept_keepMarker s '*' '/'
    · exact Or.inr ⟨rfl, rfl⟩
  | case4 depth cs body rest hbody ih =>
    rw [hbody] at ih
    obtain ⟨s', hscan, hgathers, hend⟩ :=
      ih { s.keepMarker '*' '/' with context := .comment depth } rfl
    refine ⟨s', ?_, ⟨hgathers.delimiter, hgathers.statements, ?_⟩, hend⟩
    · rw [scan_cons, ← hscan]
      simp [step, h, stepComment, leave]
    · rw [hgathers.kept]
      exact (congrArg (Kept.push · _) (kept_keepMarker s '*' '/')).trans (by simp)
  | case5 depth c cs hopen hclose hclose' body rest hbody ih =>
    rw [hbody] at ih
    obtain ⟨s', hscan, hgathers, hend⟩ := ih (s.keep c) h
    refine ⟨s', ?_, ⟨hgathers.delimiter, hgathers.statements, ?_⟩, hend⟩
    · have hnotOpen : ¬(c = '/' ∧ cs.head? = some '*') := by
        rintro ⟨rfl, hhead⟩
        obtain ⟨tail, rfl⟩ := List.head?_eq_some_iff.1 hhead
        exact hopen tail rfl rfl
      have hnotClose : ¬(c = '*' ∧ cs.head? = some '/') := by
        rintro ⟨rfl, hhead⟩
        obtain ⟨tail, rfl⟩ := List.head?_eq_some_iff.1 hhead
        cases depth with
        | zero => exact hclose tail rfl rfl rfl
        | succ n => exact hclose' n tail rfl rfl rfl
      rw [scan_cons, ← hscan]
      simp only [step, h, stepComment, if_neg hnotOpen, if_neg hnotClose]
    · rw [hgathers.kept, kept_keep]
      simp

theorem scan_literal {quote : Char} (hquote : isQuote quote = true) (cs : List Char)
    (s : Scanner) (k : Kept) (seen : List Char) (n : Nat) (hn : n ≤ seen.length)
    (hcontext : s.context = .literal quote) (hkept : s.kept = k.addUpTo seen n) :
    ∃ s', s.scan cs = s'.scan (Item.literalBody quote cs).2 ∧
      Gathers s s' (k.addUpTo (seen ++ (Item.literalBody quote cs).1)
        (Item.guarded.guardedIn (Item.literalBody quote cs).1 seen.length n)) ∧
      ((Item.literalBody quote cs).2 = [] ∨ s'.context = .plain ∧ s'.lineStart = false) := by
  have hescape : quote ≠ '\\' := by
    rintro rfl
    simp [isQuote] at hquote
  fun_induction Item.literalBody quote cs generalizing s seen n with
  | case1 => exact ⟨s, rfl, ⟨rfl, rfl, by simp [hkept, Item.guarded.guardedIn]⟩, Or.inl rfl⟩
  | case2 c cs body rest hbody ih =>
    rw [hbody] at ih
    obtain ⟨s', hscan, hgathers, hend⟩ :=
      ih { ({ s.keep '\\' with context := .escape (some quote) } : Scanner).keepEscaped c with
        context := .literal quote } (seen ++ ['\\', c]) (seen.length + 2) (by simp) rfl
        (by
          rw [← Kept.addUpTo_pushGuarded, ← hkept, ← kept_keep]
          exact kept_keepEscaped { s.keep '\\' with context := .escape (some quote) } c)
    refine ⟨s', ?_, ⟨hgathers.delimiter, hgathers.statements, ?_⟩, hend⟩
    · rw [scan_cons, ← hscan]
      simp only [step, hcontext, stepLiteral, if_true]
      rw [scan_cons]
      simp only [step, resume]
    · rw [hgathers.kept]
      simp [Item.guarded.guardedIn]
  | case3 cs hnot =>
    refine ⟨{ s.keep quote with context := .plain }, ?_, ⟨rfl, rfl, ?_⟩, Or.inr ⟨rfl, ?_⟩⟩
    · rw [scan_cons]
      simp [step, hcontext, stepLiteral, hescape]
    · rw [Item.guardedIn_cons fun _ => rfl, Item.guarded.guardedIn, ← Kept.addUpTo_push k hn,
        ← hkept]
      exact kept_keep s quote
    · refine lineStartAfter_of_not_isBlank ?_ _
      simp only [isQuote, Bool.or_eq_true, decide_eq_true_eq] at hquote
      rcases hquote with (rfl | rfl) | rfl <;> decide
  | case4 c cs hnot hc body rest hbody ih =>
    rw [hbody] at ih
    by_cases hlast : c = '\\'
    · -- the script ends behind the backslash, before the character that it would escape
      obtain rfl : cs = [] := by
        cases cs with
        | nil => rfl
        | cons d ds => exact (hnot d ds hlast rfl).elim
      obtain ⟨rfl, rfl⟩ : body = [] ∧ rest = [] := by simpa [Item.literalBody] using hbody.symm
      refine ⟨{ s.keep c with context := .escape (some quote) }, ?_, ⟨rfl, rfl, ?_⟩, Or.inl rfl⟩
      · rw [scan_cons]
        simp only [step, hcontext, stepLiteral, hlast, if_true]
      · rw [Item.guardedIn_cons fun _ => rfl, Item.guarded.guardedIn, ← Kept.addUpTo_push k hn,
          ← hkept]
        exact kept_keep s c
    · obtain ⟨s', hscan, hgathers, hend⟩ :=
        ih { s.keep c with context := .literal quote } (seen ++ [c]) n (by simp; omega) rfl
          (by rw [← Kept.addUpTo_push k hn, ← hkept]; exact kept_keep s c)
      refine ⟨s', ?_, ⟨hgathers.delimiter, hgathers.statements, ?_⟩, hend⟩
      · rw [scan_cons, ← hscan]
        simp only [step, hcontext, stepLiteral, if_neg hlast, if_neg hc]
      · rw [hgathers.kept, Item.guardedIn_cons fun h => absurd h hlast]
        simp

end Scanner

/-- The scanner and the reader of items hold the same. -/
structure Agree (s : Scanner) (t : Items) : Prop where
  delimiter : s.delimiter = t.active
  statements : s.statements = t.statements
  text : s.kept.text = t.kept.text
  trimmed : s.kept.trimmed = t.kept.trimmed

theorem Agree.finish_eq {s : Scanner} {t : Items} (h : Agree s t) : s.finish = t.finish := by
  unfold Scanner.finish Items.finish
  rw [Scanner.isBlank_eq, h.text]
  split
  · rw [h.statements]
  · rw [Scanner.statements_commit, h.statements, h.trimmed, h.delimiter]
    rfl

/-- In front of `cs` the scanner stands in plain text and holds the same as the reader of items. -/
structure Follows (s : Scanner) (t : Items) (cs : List Char) : Prop where
  delimiter : s.delimiter = t.active
  statements : s.statements = t.statements
  kept : s.kept = t.kept
  context : s.context = .plain
  lineStart : allBlank t.kept.text = true ∨ s.lineStart = startsLine t.before ∨
    ∀ c ∈ cs.head?, isBreak c = true

theorem Follows.agree {s : Scanner} {t : Items} {cs : List Char} (h : Follows s t cs) :
    Agree s t :=
  ⟨h.delimiter, h.statements, by rw [h.kept], by rw [h.kept]⟩

/-- After the text of an item the scanner follows the reader again, or the script is over. -/
def Resumes (s : Scanner) (cs : List Char) (t : Items) (rest : List Char) : Prop :=
  ∃ s', s.scan cs = s'.scan rest ∧ (Follows s' t rest ∨ rest = [] ∧ Agree s' t)

theorem startsLine_cons (c : Char) (before : List Char) :
    startsLine (c :: before) = Scanner.lineStartAfter c (startsLine before) := by
  by_cases hspace : isSpaceOrTab c = true
  · simp [startsLine, Scanner.lineStartAfter, hspace, not_isBreak_of_isSpaceOrTab hspace]
  · cases hbreak : isBreak c <;> simp [startsLine, Scanner.lineStartAfter, hspace, hbreak]

theorem startsLine_of_ends (front before : List Char) {c : Char} (h : isBlank c = false) :
    startsLine ((front ++ [c]).reverse ++ before) = false := by
  rw [List.reverse_append, List.reverse_singleton, List.singleton_append, List.cons_append,
    startsLine_cons, Scanner.lineStartAfter_of_not_isBlank h]

theorem blockBody_ends (depth : Nat) (cs : List Char) : (Item.blockBody depth cs).2 = [] ∨
    ∃ front, (Item.blockBody depth cs).1 = front ++ ['/'] := by
  fun_induction Item.blockBody depth cs with
  | case1 => exact Or.inl rfl
  | case3 cs => exact Or.inr ⟨['*'], rfl⟩
  | case2 depth cs body rest hbody ih =>
    rw [hbody] at ih
    rcases ih with hrest | ⟨front, rfl⟩
    · exact Or.inl hrest
    · exact Or.inr ⟨'/' :: '*' :: front, rfl⟩
  | case4 depth cs body rest hbody ih =>
    rw [hbody] at ih
    rcases ih with hrest | ⟨front, rfl⟩
    · exact Or.inl hrest
    · exact Or.inr ⟨'*' :: '/' :: front, rfl⟩
  | case5 depth c cs _ _ _ body rest hbody ih =>
    rw [hbody] at ih
    rcases ih with hrest | ⟨front, rfl⟩
    · exact Or.inl hrest
    · exact Or.inr ⟨c :: front, rfl⟩

theorem literalBody_ends (quote : Char) (cs : List Char) : (Item.literalBody quote cs).2 = [] ∨
    ∃ front, (Item.literalBody quote cs).1 = front ++ [quote] := by
  fun_induction Item.literalBody quote cs with
  | case1 => exact Or.inl rfl
  | case2 c cs body rest hbody ih =>
    rw [hbody] at ih
    rcases ih with hrest | ⟨front, rfl⟩
    · exact Or.inl hrest
    · exact Or.inr ⟨'\\' :: c :: front, rfl⟩
  | case3 => exact Or.inr ⟨[], rfl⟩
  | case4 c cs _ _ body rest hbody ih =>
    rw [hbody] at ih
    rcases ih with hrest | ⟨front, rfl⟩
    · exact Or.inl hrest
    · exact Or.inr ⟨c :: front, rfl⟩

section
variable {s : Scanner} {t : Items} {c : Char} {cs : List Char}

theorem Follows.escaped (h : Follows s t ('\\' :: cs)) :
    Resumes s ('\\' :: cs) (t.add (.escaped ('\\' :: cs.take 1))) (cs.drop 1) := by
  have hstep : ∀ cs, s.scan ('\\' :: cs) =
      Scanner.scan { s.keep '\\' with context := .escape none } cs := by
    intro cs
    rw [Scanner.scan_cons]
    simp only [Scanner.step, h.context, Scanner.stepPlain, if_true]
  cases cs with
  | nil =>
    refine ⟨_, hstep [], Or.inr ⟨rfl, h.delimiter, h.statements, ?_, ?_⟩⟩
    · exact (congrArg Kept.text (Scanner.kept_keep s '\\')).trans (by simp [h.kept, Items.add,
        Kept.add_eq, Item.text])
    · have hkept : (t.add (.escaped ['\\'])).kept = t.kept.pushGuarded ['\\'] := rfl
      refine (congrArg Kept.trimmed (Scanner.kept_keep s '\\')).trans ?_
      rw [Kept.trimmed_push_singleton _ (by decide), List.take_nil, hkept,
        Kept.trimmed_pushGuarded, Kept.text_push, Kept.text_pushGuarded, h.kept]
  | cons d ds =>
    refine ⟨{ ({ s.keep '\\' with context := .escape none } : Scanner).keepEscaped d with
      context := .plain }, ?_, Or.inl ⟨h.delimiter, h.statements, ?_, rfl, ?_⟩⟩
    · rw [hstep, Scanner.scan_cons]
      rfl
    · have hguarded := Kept.addUpTo_pushGuarded t.kept [] 0 d
      simp only [Kept.addUpTo, if_true, Kept.push_nil, List.nil_append, List.length_nil] at hguarded
      refine (Scanner.kept_keepEscaped _ d).trans ?_
      refine (congrArg (Kept.pushGuarded · [d]) (Scanner.kept_keep s '\\')).trans ?_
      rw [h.kept, hguarded]
      rfl
    · refine Or.inr (Or.inl ?_)
      change Scanner.lineStartAfter d (Scanner.lineStartAfter '\\' s.lineStart) =
        startsLine (d :: '\\' :: t.before)
      have hslash : ∀ before, Scanner.lineStartAfter '\\' before = false :=
        Scanner.lineStartAfter_of_not_isBlank (by decide)
      rw [startsLine_cons, startsLine_cons, hslash, hslash]

theorem Follows.block (h : Follows s t ('/' :: '*' :: cs)) :
    Resumes s ('/' :: '*' :: cs) (t.add (.block ('/' :: '*' :: (Item.blockBody 0 cs).1)))
      (Item.blockBody 0 cs).2 := by
  obtain ⟨s', hscan, hgathers, hend⟩ := Scanner.scan_comment 0 cs
    { s.keepMarker '/' '*' with context := .comment 0 } rfl
  have hkept : s'.kept = (t.add (.block ('/' :: '*' :: (Item.blockBody 0 cs).1))).kept := by
    rw [hgathers.kept]
    refine (congrArg (Kept.push · _) (Scanner.kept_keepMarker s '/' '*')).trans ?_
    rw [h.kept, Kept.push_push]
    rfl
  have hdelimiter := hgathers.delimiter.trans h.delimiter
  have hstatements := hgathers.statements.trans h.statements
  refine ⟨s', ?_, ?_⟩
  · rw [Scanner.scan_cons, ← hscan]
    simp [Scanner.step, h.context, Scanner.stepPlain]
  · rcases hend with hrest | ⟨hcontext, hline⟩
    · exact Or.inr ⟨hrest, hdelimiter, hstatements, by rw [hkept], by rw [hkept]⟩
    · rcases blockBody_ends 0 cs with hrest | ⟨front, hbody⟩
      · exact Or.inr ⟨hrest, hdelimiter, hstatements, by rw [hkept], by rw [hkept]⟩
      · refine Or.inl ⟨hdelimiter, hstatements, hkept, hcontext, Or.inr (Or.inl ?_)⟩
        rw [hline, hbody]
        exact (startsLine_of_ends ('/' :: '*' :: front) t.before (by decide)).symm

theorem Follows.literal (hquote : Scanner.isQuote c = true) (h : Follows s t (c :: cs)) :
    Resumes s (c :: cs) (t.add (.literal (c :: (Item.literalBody c cs).1)))
      (Item.literalBody c cs).2 := by
  have hc := hquote
  simp only [Scanner.isQuote, Bool.or_eq_true, decide_eq_true_eq] at hc
  obtain ⟨s', hscan, hgathers, hend⟩ := Scanner.scan_literal hquote cs
    { s.keep c with context := .literal c } t.kept [c] 0 (Nat.zero_le _) rfl
    ((Scanner.kept_keep s c).trans (by rw [h.kept]; rfl))
  have hkept : s'.kept = (t.add (.literal (c :: (Item.literalBody c cs).1))).kept :=
    hgathers.kept
  have hdelimiter := hgathers.delimiter.trans h.delimiter
  have hstatements := hgathers.statements.trans h.statements
  refine ⟨s', ?_, ?_⟩
  · rw [Scanner.scan_cons, ← hscan]
    rcases hc with (rfl | rfl) | rfl <;>
      simp [Scanner.step, h.context, Scanner.stepPlain, Scanner.startsLineComment,
        Scanner.isQuote]
  · rcases hend with hrest | ⟨hcontext, hline⟩
    · exact Or.inr ⟨hrest, hdelimiter, hstatements, by rw [hkept], by rw [hkept]⟩
    · rcases literalBody_ends c cs with hrest | ⟨front, hbody⟩
      · exact Or.inr ⟨hrest, hdelimiter, hstatements, by rw [hkept], by rw [hkept]⟩
      · refine Or.inl ⟨hdelimiter, hstatements, hkept, hcontext, Or.inr (Or.inl ?_)⟩
        rw [hline, hbody]
        refine (startsLine_of_ends (c :: front) t.before ?_).symm
        rcases hc with (rfl | rfl) | rfl <;> decide

theorem opensLineComment_eq (c : Char) (cs : List Char) :
    Item.opensLineComment c cs = Scanner.startsLineComment c cs := by
  unfold Item.opensLineComment
  fun_cases Scanner.startsLineComment c cs with
  | case1 d ds => simp
  | case2 d ds => simp
  | case3 c cs hsign hhyphens =>
    simp only [Bool.or_eq_false_iff, Bool.and_eq_false_iff, decide_eq_false_iff_not]
    constructor
    · by_cases hc : c = '#'
      · cases cs with
        | nil => simp
        | cons d ds => exact (hsign d ds hc rfl).elim
      · exact Or.inl hc
    · rcases cs with _ | ⟨d, _ | ⟨e, es⟩⟩
      · simp
      · simp
      · by_cases hc : c = '-' ∧ d = '-'
        · exact (hhyphens e es hc.1 (by rw [hc.2])).elim
        · rw [not_and_or] at hc
          simpa using Or.inl hc

theorem Follows.lineComment (hcomment : Scanner.startsLineComment c cs = true)
    (h : Follows s t (c :: cs)) :
    Resumes s (c :: cs) (t.add (.lineComment (c :: (line cs).1))) (line cs).2 := by
  refine ⟨s, ?_, Or.inl ⟨h.delimiter, h.statements, h.kept, h.context, Or.inr (Or.inr ?_)⟩⟩
  · have hc : c ≠ '\\' ∧ c ≠ '/' := by
      constructor <;> rintro rfl <;> simp [Scanner.startsLineComment] at hcomment
    rw [Scanner.scan_cons]
    simp [Scanner.step, h.context, Scanner.stepPlain, hc, hcomment]
  · exact fun d hd => isBreak_head_line_rest (Option.mem_def.1 hd)

theorem Follows.directive?_eq (h : Follows s t (c :: cs)) : s.directive? (c :: cs) =
    if t.mayRedefine then Directive.read? (c :: cs) else none := by
  unfold Scanner.directive?
  cases hread : Directive.read? (c :: cs) with
  | none => simp
  | some d =>
    have hplace : (s.lineStart || s.isBlank) = t.mayRedefine := by
      rw [Scanner.isBlank_eq, h.kept, Items.mayRedefine]
      rcases h.lineStart with hblank | hline | hbreak
      · simp [hblank]
      · rw [hline]
      · have hletter := Directive.toLower_head_of_read? hread
        have hc := hbreak c rfl
        simp only [isBreak, Bool.or_eq_true, decide_eq_true_eq] at hc
        rcases hc with rfl | rfl <;> exact absurd hletter (by decide)
    rw [hplace]

theorem Follows.directive {d : Directive} (hbare : s.step c cs = s.stepBare c cs)
    (hread : (if t.mayRedefine then Directive.read? (c :: cs) else none) = some d)
    (h : Follows s t (c :: cs)) : Resumes s (c :: cs)
      (t.add (.directive ((c :: cs).take ((c :: cs).length - d.rest.length)) d.token)) d.rest := by
  have hstep : s.step c cs = (s.redefine d.token, d.rest) := by
    rw [hbare, Scanner.stepBare, h.directive?_eq, hread]
  obtain ⟨text, htext, hend⟩ : ∃ text, c :: cs = text ++ d.rest ∧
      (d.rest = [] ∨ ∃ front b, text = front ++ [b] ∧ isBreak b = true) := by
    split at hread
    · exact Directive.exists_text hread
    · simp at hread
  have htake : (c :: cs).take ((c :: cs).length - d.rest.length) = text := by
    rw [htext, List.length_append, Nat.add_sub_cancel, List.take_left]
  have hadd : t.add (.directive text d.token) =
      { t with
        before := text.reverse ++ t.before
        active := if d.token.isEmpty then t.active else d.token } := by
    cases hempty : d.token.isEmpty <;> simp [Items.add, Item.text, hempty]
  rw [htake, hadd]
  refine ⟨s.redefine d.token, ?_, Or.inl ⟨?_, h.statements, h.kept, h.context, Or.inr ?_⟩⟩
  · rw [Scanner.scan_cons, hstep]
  · rw [Scanner.redefine, h.delimiter]
  · rcases hend with hrest | ⟨front, b, rfl, hb⟩
    · exact Or.inr (by simp [hrest])
    · refine Or.inl ?_
      rw [List.reverse_append, List.reverse_singleton, List.singleton_append, List.cons_append,
        startsLine_cons, Scanner.lineStartAfter, if_pos hb]
      rfl

theorem Follows.close {rest : List Char} (hbare : s.step c cs = s.stepBare c cs)
    (hread : (if t.mayRedefine then Directive.read? (c :: cs) else none) = none)
    (hafter : s.afterDelimiter? c cs = some rest) (h : Follows s t (c :: cs)) :
    Resumes s (c :: cs) (t.add (.delimiter t.active)) rest := by
  have hstep : s.step c cs = (s.commit, rest) := by
    rw [hbare, Scanner.stepBare, h.directive?_eq, hread, hafter]
  refine ⟨s.commit, ?_, Or.inl ⟨h.delimiter, ?_, Scanner.kept_commit s, h.context, Or.inl rfl⟩⟩
  · rw [Scanner.scan_cons, hstep]
  · rw [Scanner.statements_commit, h.statements, h.kept, h.delimiter]
    rfl

theorem Follows.character (hbare : s.step c cs = s.stepBare c cs)
    (hread : (if t.mayRedefine then Directive.read? (c :: cs) else none) = none)
    (hafter : s.afterDelimiter? c cs = none) (h : Follows s t (c :: cs)) :
    Resumes s (c :: cs) (t.add (.character c)) cs := by
  have hstep : s.step c cs = (s.keep c, cs) := by
    rw [hbare, Scanner.stepBare, h.directive?_eq, hread, hafter]
  have hkept : (s.keep c).kept = (t.add (.character c)).kept := by
    rw [Scanner.kept_keep, h.kept]
    rfl
  refine ⟨s.keep c, ?_, Or.inl ⟨h.delimiter, h.statements, hkept, h.context, ?_⟩⟩
  · rw [Scanner.scan_cons, hstep]
  · change allBlank (t.kept.push [c]).text = true ∨
      Scanner.lineStartAfter c s.lineStart = startsLine (c :: t.before) ∨ _
    rw [startsLine_cons, Kept.text_push, allBlank_append]
    cases hc : isBlank c with
    | false =>
      rw [Scanner.lineStartAfter_of_not_isBlank hc, Scanner.lineStartAfter_of_not_isBlank hc]
      exact Or.inr (Or.inl rfl)
    | true =>
      rcases h.lineStart with hblank | hline | hbreak
      · exact Or.inl (by simp [hblank, hc])
      · exact Or.inr (Or.inl (by rw [hline]))
      · refine Or.inr (Or.inl ?_)
        rw [Scanner.lineStartAfter, Scanner.lineStartAfter, if_pos (hbreak c rfl),
          if_pos (hbreak c rfl)]

theorem Follows.afterDelimiter?_eq (h : Follows s t (c :: cs)) : s.afterDelimiter? c cs =
    if t.active.isEmpty then none else after? t.active (c :: cs) := by
  rw [Scanner.afterDelimiter?, h.delimiter]
  cases t.active with
  | nil => rfl
  | cons d ds => simp [after?]

theorem Follows.item (h : Follows s t (c :: cs)) :
    Resumes s (c :: cs) (t.add (Item.read t.active t.mayRedefine c cs).1)
      (Item.read t.active t.mayRedefine c cs).2 := by
  have hplain : s.step c cs = s.stepPlain c cs := by
    simp only [Scanner.step, h.context]
  unfold Item.read
  by_cases hescape : c = '\\'
  · subst hescape
    simpa using h.escaped
  rw [if_neg hescape]
  by_cases hblock : c = '/' ∧ cs.head? = some '*'
  · obtain ⟨rfl, hhead⟩ := hblock
    obtain ⟨rest, rfl⟩ := List.head?_eq_some_iff.1 hhead
    simpa using h.block
  rw [if_neg hblock, opensLineComment_eq]
  by_cases hcomment : Scanner.startsLineComment c cs = true
  · rw [if_pos hcomment]
    exact h.lineComment hcomment
  rw [if_neg hcomment]
  by_cases hquote : Scanner.isQuote c = true
  · rw [if_pos (show Item.opensLiteral c = true from hquote)]
    exact h.literal hquote
  rw [if_neg (show ¬Item.opensLiteral c = true from hquote)]
  have hbare : s.step c cs = s.stepBare c cs := by
    rw [hplain, Scanner.stepPlain, if_neg hescape, if_neg hblock, if_neg hcomment, if_neg hquote]
  split
  · rename_i d hread
    exact h.directive hbare hread
  · rename_i hread
    rw [← h.afterDelimiter?_eq]
    split
    · rename_i rest hafter
      exact h.close hbare hread hafter
    · rename_i hafter
      exact h.character hbare hread hafter

end

theorem Follows.scan_finish {s : Scanner} {t : Items} {cs : List Char} (h : Follows s t cs) :
    (s.scan cs).finish = (t.scan cs).finish := by
  fun_induction Items.scan t cs generalizing s with
  | case1 t => rw [Scanner.scan_nil, h.agree.finish_eq]
  | case2 t c cs next =>
    rename_i ih
    obtain ⟨s', hscan, hfollows | ⟨hrest, hagree⟩⟩ := h.item
    · rw [hscan]
      exact ih hfollows
    · rw [hscan, hrest, Scanner.scan_nil, Items.scan, hagree.finish_eq]

theorem tokenize_eq_splitItems (script delimiter : String) :
    tokenize script delimiter = splitItems script delimiter :=
  Follows.scan_finish ⟨rfl, rfl, rfl, rfl, Or.inl rfl⟩

end SqlBatch.Script
