import SqlBatch.Proofs.Script.Echo
import SqlBatch.Proofs.Text.Segments

/-! Scripts without special syntax. Where nothing in a script can start a literal, an escape, a
comment or a directive, every step keeps a character or closes a statement, and the statements are
the segments between the delimiters. -/

namespace SqlBatch.Script

open Text

/-- Nothing but the delimiter has a meaning in the text. -/
structure Prose (cs : List Char) : Prop where
  quote : ∀ c ∈ cs, Scanner.isQuote c = false
  escape : '\\' ∉ cs
  block : ¬['/', '*'] <:+: cs
  dashes : ∀ b ∈ [' ', '\t'], ¬['-', '-', b] <:+: cs
  number : ∀ b ∈ [' ', '\t'], ¬['#', b] <:+: cs
  keyword : ¬Mentions cs

theorem mem_of_isSpaceOrTab {b : Char} (h : isSpaceOrTab b = true) : b ∈ [' ', '\t'] := by
  simpa [isSpaceOrTab] using h

namespace Prose
variable {c : Char} {cs : List Char}

theorem mono (h : Prose cs) {part : List Char} (hpart : part <:+: cs) : Prose part where
  quote e he := h.quote e (hpart.subset he)
  escape he := h.escape (hpart.subset he)
  block hblock := h.block (hblock.trans hpart)
  dashes b hb hdashes := h.dashes b hb (hdashes.trans hpart)
  number b hb hnumber := h.number b hb (hnumber.trans hpart)
  keyword hmentions := h.keyword (hmentions.mono hpart)

theorem bare (h : Prose (c :: cs)) : Scanner.Bare c cs where
  escape := by
    rintro rfl
    exact h.escape List.mem_cons_self
  block := by
    rintro ⟨rfl, hhead⟩
    obtain ⟨rest, rfl⟩ := List.head?_eq_some_iff.1 hhead
    exact h.block (List.prefix_append ['/', '*'] rest).isInfix
  line := by
    cases hline : Scanner.startsLineComment c cs with
    | false => rfl
    | true =>
      obtain ⟨e, rest, he, ⟨rfl, rfl⟩ | ⟨rfl, rfl⟩⟩ := Scanner.startsLineComment_eq_true.1 hline
      · exact absurd (List.prefix_append ['#', e] rest).isInfix
          (h.number e (mem_of_isSpaceOrTab he))
      · exact absurd (List.prefix_append ['-', '-', e] rest).isInfix
          (h.dashes e (mem_of_isSpaceOrTab he))
  quote := h.quote c List.mem_cons_self

theorem directive?_eq_none (h : Prose cs) (s : Scanner) : s.directive? cs = none := by
  have hread : Directive.read? cs = none :=
    (ReadsLike.of_front (d := []) (List.prefix_refl cs)).read?_eq_none h.keyword
  rw [Scanner.directive?, hread]

end Prose

def dropBlankEnd (segments : List (List Char)) : List (List Char) :=
  if allBlank (segments.getLast?.getD []) then segments.dropLast else segments

theorem dropBlankEnd_cons (p : List Char) {ps : List (List Char)} (h : ps ≠ []) :
    dropBlankEnd (p :: ps) = p :: dropBlankEnd ps := by
  obtain ⟨q, qs, rfl⟩ := List.exists_cons_of_ne_nil h
  unfold dropBlankEnd
  rw [List.getLast?_cons_cons, List.dropLast_cons_cons]
  split <;> rfl

theorem length_dropBlankEnd (segments : List (List Char)) : (dropBlankEnd segments).length =
    if allBlank (segments.getLast?.getD []) then segments.length - 1 else segments.length := by
  unfold dropBlankEnd
  split
  · exact List.length_dropLast
  · rfl

def statementsOf (delimiter : List Char) (n : Nat) (texts : List (List Char)) : List Statement :=
  texts.mapIdx fun i text => ⟨n + i + 1, String.ofList (trim text), String.ofList delimiter⟩

theorem statementsOf_cons (delimiter : List Char) (n : Nat) (p : List Char)
    (ps : List (List Char)) : statementsOf delimiter n (p :: ps) =
      ⟨n + 1, String.ofList (trim p), String.ofList delimiter⟩ ::
        statementsOf delimiter (n + 1) ps := by
  simp only [statementsOf, List.mapIdx_cons, Nat.add_zero, Nat.add_right_comm, ← Nat.add_assoc]

namespace Scanner

theorem statements_commit_of_loose {s : Scanner} (h : s.guarded = []) :
    s.commit.statements.toList = s.statements.toList ++ [⟨s.statements.size + 1,
      String.ofList (trim s.loose.reverse), String.ofList s.delimiter⟩] := by
  have htrimmed : s.kept.trimmed = trim s.loose.reverse := by
    rw [Kept.trimmed_eq, kept, h, List.reverse_nil, List.nil_append, trimStart_trimEnd]
  rw [statements_commit, Array.toList_push, htrimmed]

theorem finish_scan_of_prose {s : Scanner} {cs : List Char} (hprose : Prose cs)
    (hplain : s.context = .plain) (hguarded : s.guarded = []) (hdelimiter : s.delimiter ≠ []) :
    (s.scan cs).finish = s.statements.toList ++ statementsOf s.delimiter s.statements.size
      (dropBlankEnd ((segments s.delimiter cs).modifyHead (s.loose.reverse ++ ·))) := by
  generalize hd : s.delimiter = d at hdelimiter ⊢
  fun_induction segments d cs generalizing s with
  | case1 =>
    have hblank : s.isBlank = allBlank s.loose.reverse := by
      rw [isBlank_eq, kept, Kept.text, hguarded, List.reverse_nil, List.nil_append]
    rw [scan_nil, finish, hblank, List.modifyHead_cons, List.append_nil]
    unfold dropBlankEnd
    rw [List.getLast?_singleton, Option.getD_some]
    cases allBlank s.loose.reverse with
    | true => exact (List.append_nil _).symm
    | false =>
      change s.commit.statements.toList = _
      rw [statements_commit_of_loose hguarded, hd]
      rfl
  | case2 c cs h ih =>
    obtain ⟨rest, hrest⟩ := h.2
    have hafter : s.afterDelimiter? c cs = some rest :=
      afterDelimiter?_eq_some.2 ⟨hd ▸ h.1, by rw [hd, hrest]⟩
    have hdrop : (c :: cs).drop d.length = rest := by rw [← hrest, List.drop_left]
    have hrest' : Prose rest := hprose.mono (hrest ▸ (List.suffix_append d rest).isInfix)
    obtain ⟨p, ps, hps⟩ := exists_segments_eq d rest
    rw [hdrop, hps] at ih ⊢
    have hsize : s.commit.statements.size = s.statements.size + 1 := by
      rw [statements_commit, Array.size_push]
    have hnext : (s.commit.scan rest).finish = s.commit.statements.toList ++
        statementsOf d s.commit.statements.size (dropBlankEnd (p :: ps)) :=
      ih (s := s.commit) hrest' hplain rfl hd
    rw [scan_cons, step_of_close hplain hprose.bare (hprose.directive?_eq_none s) hafter, hnext,
      statements_commit_of_loose hguarded, hsize, hd, List.modifyHead_cons, List.append_nil,
      dropBlankEnd_cons _ (List.cons_ne_nil p ps), statementsOf_cons, List.append_assoc]
    rfl
  | case3 c cs h ih =>
    have hafter : s.afterDelimiter? c cs = none := by
      rw [Option.eq_none_iff_forall_ne_some]
      intro rest hrest
      obtain ⟨-, htext⟩ := afterDelimiter?_eq_some.1 hrest
      exact h ⟨hdelimiter, rest, by rw [htext, hd]⟩
    have hstep : s.step c cs = (s.keep c, cs) := by
      rw [step_of_bare hplain hprose.bare, stepBare, hprose.directive?_eq_none, hafter]
    have hnext := ih (s := s.keep c) (hprose.mono (List.suffix_cons c cs).isInfix) hplain
      hguarded hd
    have hkept : (fun x => s.loose.reverse ++ x) ∘ (fun x => c :: x) =
        fun x => (s.keep c).loose.reverse ++ x := by
      funext x
      simp [keep]
    rw [scan_cons, hstep, hnext, List.modifyHead_modifyHead, hkept]
    rfl

end Scanner

/-- A script without special syntax is split at its delimiter. Each of its segments is a statement,
but for a blank one at its end. -/
theorem tokenize_eq_segments {script delimiter : String} (hprose : Prose script.toList)
    (hdelimiter : delimiter ≠ "") :
    tokenize script delimiter =
      (dropBlankEnd (segments delimiter.toList script.toList)).mapIdx
        (fun i text => ⟨i + 1, String.ofList (trim text), delimiter⟩) ∧
    (delimiter = ";" → (tokenize script delimiter).length = script.toList.count ';' +
      if allBlank (script.toList.rtakeWhile (· ≠ ';')) then 0 else 1) := by
  have hne : delimiter.toList ≠ [] := by simpa using hdelimiter
  have hstart : Scanner.start delimiter = { delimiter := delimiter.toList } := by
    simp [Scanner.start, hdelimiter]
  have hscan := Scanner.finish_scan_of_prose (s := Scanner.start delimiter) hprose
    (by rw [hstart]) (by rw [hstart]) (by rwa [hstart])
  rw [hstart] at hscan
  have hall : tokenize script delimiter =
      (dropBlankEnd (segments delimiter.toList script.toList)).mapIdx
        (fun i text => ⟨i + 1, String.ofList (trim text), delimiter⟩) := by
    rw [tokenize, hstart, hscan]
    obtain ⟨p, ps, hps⟩ := exists_segments_eq delimiter.toList script.toList
    simp [hps, statementsOf]
  refine ⟨hall, ?_⟩
  rintro rfl
  rw [hall, List.length_mapIdx, length_dropBlankEnd]
  change (if allBlank ((segments [';'] _).getLast?.getD []) then (segments [';'] _).length - 1
    else (segments [';'] _).length) = _
  rw [getLast?_segments_singleton, length_segments_singleton, Option.getD_some]
  split <;> rfl

def semicolons : String := "a;;;b -;c#d;; \n"

theorem tokenize_eq_segments_semicolons :
    Prose semicolons.toList ∧ segments ";;".toList semicolons.toList =
      ["a".toList, ";b -;c#d".toList, " \n".toList] ∧
    tokenize semicolons ";;" = [⟨1, "a", ";;"⟩, ⟨2, ";b -;c#d", ";;"⟩] := by
  have hprose : Prose semicolons.toList :=
    { quote := forall_mem_of_all (by decide +kernel)
      escape := by decide +kernel
      block := by decide +kernel
      dashes := List.forall_mem_cons.2
        ⟨by decide +kernel, List.forall_mem_singleton.2 (by decide +kernel)⟩
      number := List.forall_mem_cons.2
        ⟨by decide +kernel, List.forall_mem_singleton.2 (by decide +kernel)⟩
      keyword := by decide +kernel }
  have hsegments : segments ";;".toList semicolons.toList =
      ["a".toList, ";b -;c#d".toList, " \n".toList] := by
    decide +kernel
  refine ⟨hprose, hsegments, ?_⟩
  rw [(tokenize_eq_segments hprose (by decide)).1, hsegments]
  decide +kernel

end SqlBatch.Script
