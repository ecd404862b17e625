import Mathlib.Data.List.Forall2
import SqlBatch.Proofs.Script.WellFormed

/-! Scripts divided into pieces: kept text, line comments, directive lines and closing delimiters.
The scanner passes over a script piece by piece. What it keeps between two closing pieces is, but
for blanks at the ends, the text of the statement that the second one closes, so nothing of the
script is lost, read twice or made up. -/

namespace SqlBatch.Script

open Text

inductive Piece where
  | kept (text : List Char)
  | comment (text : List Char)
  | directive (text : List Char)
  | closing (text : List Char)
  deriving DecidableEq, Repr

namespace Piece

def text : Piece → List Char
  | kept cs | comment cs | directive cs | closing cs => cs

def keptText : Piece → List Char
  | kept cs => cs
  | comment _ | directive _ | closing _ => []

def isKept : Piece → Bool
  | kept _ => true
  | comment _ | directive _ | closing _ => false

def closing? : Piece → Option (List Char)
  | closing cs => some cs
  | kept _ | comment _ | directive _ => none

/-- How a piece is written in front of `behind`: a line comment extends up to a line break, and a
directive takes one line with its terminator. -/
def WrittenBefore (behind : List Char) : Piece → Prop
  | kept cs => cs ≠ []
  | comment cs =>
    (∃ blank more, isSpaceOrTab blank = true ∧
      (cs = '#' :: blank :: more ∨ cs = '-' :: '-' :: blank :: more)) ∧
    (∀ c ∈ cs, isBreak c = false) ∧ ∀ c ∈ behind.head?, isBreak c = true
  | directive cs => ∃ word name terminator, cs = word ++ name ++ terminator ∧
    word.map Char.toLower = keyword ∧ (∀ c ∈ name, isBreak c = false) ∧
    (terminator = [] ∧ behind = [] ∨ terminator ∈ [['\r', '\n'], ['\r'], ['\n']])
  | closing cs => cs ≠ []

def script (ps : List Piece) : List Char := ps.flatMap text

/-- The kept text up to the first closing piece, between one closing piece and the next, and behind
the last. -/
def stretches (ps : List Piece) : List (List Char) :=
  (ps.splitOnP fun p => p.closing?.isSome).map fun stretch => stretch.flatMap keptText

@[simp] theorem script_nil : script [] = [] := rfl

@[simp] theorem script_cons (p : Piece) (ps : List Piece) : script (p :: ps) = p.text ++ script ps :=
  List.flatMap_cons

theorem stretches_nil : stretches [] = [[]] := rfl

theorem modifyHead_nil_append (xss : List (List Char)) : xss.modifyHead ([] ++ ·) = xss := by
  cases xss <;> rfl

theorem stretches_closing (cs : List Char) (ps : List Piece) :
    stretches (closing cs :: ps) = [] :: stretches ps := by
  simp [stretches, List.splitOnP_cons_eq_if_modifyHead, closing?]

theorem stretches_cons {p : Piece} (h : p.closing? = none) (ps : List Piece) :
    stretches (p :: ps) = (stretches ps).modifyHead (p.keptText ++ ·) := by
  unfold stretches
  rw [List.splitOnP_cons_eq_if_modifyHead, if_neg (by simp [h])]
  cases ps.splitOnP fun p => p.closing?.isSome with
  | nil => rfl
  | cons stretch more => simp

end Piece

theorem Scanner.writtenBefore_of_startsLineComment {c : Char} {cs : List Char}
    (h : startsLineComment c cs = true) :
    (Piece.comment (c :: (line cs).1)).WrittenBefore (line cs).2 := by
  refine ⟨?_, ?_, fun d hd => isBreak_head_line_rest hd⟩
  · obtain ⟨blank, rest, hblank, ⟨rfl, rfl⟩ | ⟨rfl, rfl⟩⟩ := startsLineComment_eq_true.1 h
    · exact ⟨blank, (line rest).1, hblank, Or.inl (by
        simp [line, not_isBreak_of_isSpaceOrTab hblank])⟩
    · refine ⟨blank, (line rest).1, hblank, Or.inr ?_⟩
      simp [line, not_isBreak_of_isSpaceOrTab hblank, show isBreak '-' = false from rfl]
  · intro d hd
    rcases List.mem_cons.1 hd with rfl | hd
    · cases hbreak : isBreak d with
      | false => rfl
      | true => rw [← not_isBlank_of_startsLineComment h, isBlank_of_isBreak hbreak]
    · exact not_isBreak_of_mem_line hd

/-- `sql` is `kept` without the blanks at its ends; an escaped blank at the end stays. -/
structure TrimOf (kept sql : List Char) : Prop where
  exists_ends : ∃ lead tail, allBlank lead = true ∧ allBlank tail = true ∧ kept = lead ++ sql ++ tail
  starts : ∀ c ∈ sql.head?, isBlank c = false
  ends : EndsGuarded sql

namespace Scanner

theorem Guards.trimOf {s : Scanner} (h : Guards s) : TrimOf s.kept.text s.kept.trimmed :=
  ⟨s.kept.exists_text_eq, fun _ hc => s.kept.not_isBlank_head_trimmed hc,
    fun _ _ htrimmed hc => h.guarded.ends htrimmed hc⟩

/-- What the scanner makes of one piece. Only kept text may begin inside a literal, in a block
comment or right after a backslash. -/
inductive Takes (s : Scanner) : Piece → Scanner → Prop where
  | kept {cs : List Char} {s' : Scanner} (h : Keeps s cs s') : Takes s (.kept cs) s'
  | comment {cs : List Char} (hplain : s.context = .plain) : Takes s (.comment cs) s
  | directive {cs : List Char} (token : List Char) (hplain : s.context = .plain) :
      Takes s (.directive cs) (s.redefine token)
  | closing (hplain : s.context = .plain) : Takes s (.closing s.delimiter) s.commit

/-- The scanner passes over the pieces one by one. -/
inductive Passes : Scanner → List Piece → Scanner → Prop where
  | nil (s : Scanner) : Passes s [] s
  | cons {s s₁ s' : Scanner} {p : Piece} {ps : List Piece}
      (hrun : Runs s (p.text ++ Piece.script ps) s₁ (Piece.script ps))
      (hwritten : p.WrittenBefore (Piece.script ps)) (htakes : Takes s p s₁)
      (h : Passes s₁ ps s') : Passes s (p :: ps) s'

section
variable {s s' : Scanner} {c : Char} {cs rest : List Char}

theorem Exit.exists_takes (h : Exit s c cs s' rest) :
    ∃ p : Piece, c :: cs = p.text ++ rest ∧ p.WrittenBefore rest ∧ Takes s p s' := by
  cases h with
  | keep hkeeps => exact ⟨.kept [c], rfl, by simp [Piece.WrittenBefore], .kept hkeeps⟩
  | @marker d rest s' hcs _ _ _ hkeeps =>
    exact ⟨.kept [c, d], by rw [hcs]; rfl, by simp [Piece.WrittenBefore], .kept hkeeps⟩
  | stop hstop =>
    cases hstop with
    | comment hplain hline =>
      refine ⟨.comment (c :: (line cs).1), ?_, writtenBefore_of_startsLineComment hline,
        .comment hplain⟩
      exact congrArg (c :: ·) (line_append cs).symm
    | @directive d hplain hd =>
      obtain ⟨word, name, terminator, htext, hwritten⟩ :=
        Directive.exists_line (read?_of_directive? hd)
      exact ⟨.directive (word ++ name ++ terminator), htext,
        ⟨word, name, terminator, rfl, hwritten⟩, .directive d.token hplain⟩
    | close hplain _ _ hafter =>
      obtain ⟨hne, htext⟩ := afterDelimiter?_eq_some.1 hafter
      exact ⟨.closing s.delimiter, htext, hne, .closing hplain⟩

theorem exists_passes (s : Scanner) (cs : List Char) :
    ∃ ps, Piece.script ps = cs ∧ Passes s ps (s.scan cs) := by
  fun_induction scan s cs with
  | case1 s => exact ⟨[], rfl, .nil s⟩
  | case2 s c cs next =>
    rename_i ih
    obtain ⟨ps, hps, hpasses⟩ := ih
    obtain ⟨p, htext, hwritten, htakes⟩ := (exit_step s c cs).exists_takes
    -- the piece is what the step has read, and the pieces behind it make up the rest
    have hrun : Runs s (c :: cs) next.1 next.2 := .step (.refl _ _)
    rw [htext] at hrun
    refine ⟨p :: ps, ?_, .cons ?_ ?_ htakes hpasses⟩
    · rw [Piece.script_cons, hps, htext]
    · rw [hps]
      exact hrun
    · rw [hps]
      exact hwritten

end

namespace Passes
variable {s s' : Scanner} {ps : List Piece}

theorem exists_takes (h : Passes s ps s') {front behind : List Piece} {p : Piece}
    (hps : ps = front ++ p :: behind) : p.WrittenBefore (Piece.script behind) ∧
      ∃ s₁ s₂, Runs s (Piece.script ps) s₁ (Piece.script (p :: behind)) ∧ Takes s₁ p s₂ := by
  induction h generalizing front with
  | nil => simp at hps
  | @cons s s₁ s' q qs hrun hwritten htakes _ ih =>
    cases front with
    | nil =>
      obtain ⟨rfl, rfl⟩ := List.cons.inj hps
      exact ⟨hwritten, s, s₁, .refl _ _, htakes⟩
    | cons f front =>
      obtain ⟨rfl, rfl⟩ := List.cons.inj hps
      obtain ⟨hwritten', s₂, s₃, hrun', htakes'⟩ := ih rfl
      refine ⟨hwritten', s₂, s₃, ?_, htakes'⟩
      rw [Piece.script_cons]
      exact hrun.trans hrun'

theorem exists_closed (h : Passes s ps s') (hguards : Guards s) :
    ∃ closed stretches, (Piece.stretches ps).modifyHead (s.kept.text ++ ·) =
        stretches ++ [s'.kept.text] ∧
      s'.statements.toList = s.statements.toList ++ closed ∧
      closed.map (fun x => x.delimiter.toList) = ps.filterMap Piece.closing? ∧
      List.Forall₂ (fun x kept => TrimOf kept x.sql.toList) closed stretches := by
  induction h with
  | nil s => exact ⟨[], [], by simp [Piece.stretches_nil], by simp, rfl, .nil⟩
  | @cons s s₁ s' p ps hrun _ htakes _ ih =>
    obtain ⟨closed, stretches, hstretches, hstatements, hdelimiters, htrims⟩ :=
      ih (hguards.of_runs hrun)
    cases htakes with
    | @kept cs _ hkeeps =>
      refine ⟨closed, stretches, ?_, by rw [hstatements, hkeeps.statements], hdelimiters, htrims⟩
      rw [← hstretches, Piece.stretches_cons rfl, List.modifyHead_modifyHead, hkeeps.text]
      congr 1
      funext stretch
      exact (List.append_assoc _ _ _).symm
    | comment =>
      refine ⟨closed, stretches, ?_, hstatements, hdelimiters, htrims⟩
      rw [← hstretches, Piece.stretches_cons rfl, List.modifyHead_modifyHead]
      rfl
    | directive =>
      refine ⟨closed, stretches, ?_, hstatements, hdelimiters, htrims⟩
      rw [← hstretches, Piece.stretches_cons rfl, List.modifyHead_modifyHead]
      rfl
    | closing =>
      -- what was kept so far is a stretch of its own, and the next one begins empty
      refine ⟨_ :: closed, s.kept.text :: stretches, ?_,
        by rw [hstatements, statements_commit, Array.toList_push, List.append_assoc]; rfl, ?_,
        .cons ?_ htrims⟩
      · have hnext : Piece.stretches ps = stretches ++ [s'.kept.text] :=
          (Piece.modifyHead_nil_append _).symm.trans hstretches
        rw [Piece.stretches_closing, hnext, List.modifyHead_cons, List.append_nil]
        rfl
      · rw [List.map_cons, hdelimiters, String.toList_ofList]
        rfl
      · rw [String.toList_ofList]
        exact hguards.trimOf

end Passes
end Scanner

/-- Pieces that account for all of a script and all of its statements. -/
structure Divides (script delimiter : String) (ps : List Piece) : Prop where
  script_eq : Piece.script ps = script.toList
  written : ∀ front p behind, ps = front ++ p :: behind → p.WrittenBefore (Piece.script behind)
  plain : ∀ front p behind, ps = front ++ p :: behind → p.isKept = false →
    ∃ s, Scanner.Runs (Scanner.start delimiter) script.toList s (Piece.script (p :: behind)) ∧
      s.context = .plain
  statements : ∃ closed stretches left,
    Piece.stretches ps = stretches ++ [left] ∧
    closed.map (fun x => x.delimiter.toList) = ps.filterMap Piece.closing? ∧
    List.Forall₂ (fun x kept => TrimOf kept x.sql.toList) closed stretches ∧
    if allBlank left then tokenize script delimiter = closed
    else ∃ last, tokenize script delimiter = closed ++ [last] ∧ TrimOf left last.sql.toList ∧
      last.delimiter.toList = ((Scanner.start delimiter).scan script.toList).delimiter

theorem exists_divides (script delimiter : String) : ∃ ps, Divides script delimiter ps := by
  obtain ⟨ps, hscript, hpasses⟩ :=
    Scanner.exists_passes (Scanner.start delimiter) script.toList
  have hguards : Scanner.Guards (Scanner.start delimiter) := ⟨by simp, Or.inl rfl⟩
  refine ⟨ps, hscript, ?_, ?_, ?_⟩
  · intro front p behind hps
    exact (hpasses.exists_takes hps).1
  · intro front p behind hps hkept
    obtain ⟨-, s, s', hrun, htakes⟩ := hpasses.exists_takes hps
    -- of the four ways to take a piece, only that of kept text does not ask for a plain context
    refine ⟨s, hscript ▸ hrun, ?_⟩
    cases htakes with
    | kept => simp [Piece.isKept] at hkept
    | comment hplain => exact hplain
    | directive _ hplain => exact hplain
    | closing hplain => exact hplain
  · obtain ⟨closed, stretches, hstretches, hstatements, hdelimiters, htrims⟩ :=
      hpasses.exists_closed hguards
    have hend := hguards.of_runs (Scanner.runs_scan _ script.toList)
    have hfinish : tokenize script delimiter =
        ((Scanner.start delimiter).scan script.toList).finish := rfl
    generalize (Scanner.start delimiter).scan script.toList = s' at *
    refine ⟨closed, stretches, s'.kept.text, ?_, hdelimiters, htrims, ?_⟩
    · exact (Piece.modifyHead_nil_append _).symm.trans hstretches
    · rw [Scanner.start_statements, List.nil_append] at hstatements
      rw [← Scanner.isBlank_eq]
      split
      · rename_i hblank
        rw [hfinish, Scanner.finish, if_pos hblank, hstatements]
      · rename_i hopen
        refine ⟨_, by rw [hfinish, Scanner.finish, if_neg hopen, Scanner.statements_commit,
          Array.toList_push, hstatements], ?_, ?_⟩
        · rw [String.toList_ofList]
          exact hend.trimOf
        · exact String.toList_ofList

end SqlBatch.Script
