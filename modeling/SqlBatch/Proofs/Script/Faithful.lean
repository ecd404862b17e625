import SqlBatch.Proofs.Script.Ready
import SqlBatch.Proofs.Script.Weight

/-! Statements that read back. A statement is faithful if its text with its delimiter behind it, and
nothing else, is read as that one statement. In a rendered script it follows a line feed, maybe a
directive, and other text stands behind it; none of this changes how it is read. -/

namespace SqlBatch.Script

open Text

/-- The text and the delimiter, read alone, are closed as one statement and leave nothing behind. -/
structure Faithful (sql delimiter : String) : Prop where
  nameable : Nameable delimiter.toList
  statements : ((Scanner.start delimiter).scan (sql ++ delimiter).toList).statements =
    #[⟨1, sql, delimiter⟩]
  current : ((Scanner.start delimiter).scan (sql ++ delimiter).toList).current = []

instance (sql delimiter : String) : Decidable (Faithful sql delimiter) :=
  decidable_of_iff
    (Nameable delimiter.toList ∧
      ((Scanner.start delimiter).scan (sql ++ delimiter).toList).statements =
        #[⟨1, sql, delimiter⟩] ∧
      ((Scanner.start delimiter).scan (sql ++ delimiter).toList).current = [])
    ⟨fun ⟨hname, hstatements, hcurrent⟩ => ⟨hname, hstatements, hcurrent⟩,
      fun h => ⟨h.nameable, h.statements, h.current⟩⟩

/-- The scan of `sql`, its delimiter and `rest` copies `sql` and stands as `s` where the delimiter
closes the statement. -/
structure Reads (sql delimiter : String) (rest : List Char) (s : Scanner) : Prop where
  copies : Scanner.Copies (Scanner.start delimiter) sql.toList s (delimiter.toList ++ rest)
  plain : s.context = .plain
  bare : ∀ c cs, delimiter.toList = c :: cs → Scanner.Bare c (cs ++ rest)
  directive : s.directive? (delimiter.toList ++ rest) = none
  trimmed : s.kept.trimmed = sql.toList

namespace Reads
variable {sql delimiter : String} {rest rest' : List Char} {s : Scanner}

theorem delimiter_eq (hname : Nameable delimiter.toList) (h : Reads sql delimiter rest s) :
    s.delimiter = delimiter.toList := by
  rw [h.copies.delimiter, Scanner.start_delimiter hname]

theorem runs (hname : Nameable delimiter.toList) (h : Reads sql delimiter rest s) :
    Scanner.Runs (Scanner.start delimiter) (sql.toList ++ (delimiter.toList ++ rest)) s.commit
      rest := by
  refine h.copies.runs.trans ?_
  obtain ⟨c, cs, hd⟩ := List.exists_cons_of_ne_nil hname.nonempty
  have hdirective := h.directive
  have hafter : s.afterDelimiter? c (cs ++ rest) = some rest :=
    Scanner.afterDelimiter?_eq_some.2
      ⟨by rw [h.delimiter_eq hname]; exact hname.nonempty, by rw [h.delimiter_eq hname, hd]; rfl⟩
  rw [hd, List.cons_append] at hdirective ⊢
  exact .of_step (Scanner.step_of_close h.plain (h.bare c cs hd) hdirective hafter) (.refl _ _)

theorem statements_commit (hname : Nameable delimiter.toList) (h : Reads sql delimiter rest s) :
    s.commit.statements = #[⟨1, sql, delimiter⟩] := by
  rw [Scanner.statements_commit, h.copies.statements, h.trimmed, h.delimiter_eq hname,
    String.ofList_toList, String.ofList_toList]
  rfl

theorem in_front_of (hname : Nameable delimiter.toList) (h : Reads sql delimiter rest s)
    (hlike : ReadsLike delimiter.toList rest rest')
    (hread : ∀ front, Directive.read? (front ++ rest) = none →
      Directive.read? (front ++ rest') = none) : Reads sql delimiter rest' s := by
  refine ⟨?_, h.plain, ?_, ?_, h.trimmed⟩
  · refine h.copies.in_front_of ?_ fun front => ?_
    · rw [Scanner.start_delimiter hname]
      exact hlike.append_left _
    · rw [← List.append_assoc, ← List.append_assoc]
      exact hread _
  · intro c cs hd
    exact (hlike.append_left cs).bare (h.bare c cs hd)
  · exact Scanner.directive?_eq_none (hread _) h.directive

theorem in_front_of_break (hname : Nameable delimiter.toList) (h : Reads sql delimiter [] s)
    {b : Char} (hb : isBreak b = true) (rest : List Char) :
    Reads sql delimiter (b :: rest) s := by
  have hends : EndsLook delimiter.toList b := by
    refine ⟨Or.inl hb, fun hmem => ?_⟩
    rw [hname.line b (List.mem_of_mem_tail hmem)] at hb
    exact Bool.noConfusion hb
  refine h.in_front_of hname (.of_endsLook hends rest) fun front hread => ?_
  rw [List.append_nil] at hread
  exact (Directive.read?_append_eq_none hb rest).2 hread

theorem alone (hname : Nameable delimiter.toList) {b : Char} (hb : isBreak b = true)
    (h : Reads sql delimiter (b :: rest) s) : Reads sql delimiter [] s := by
  refine h.in_front_of hname (.of_front List.nil_prefix) fun front hread => ?_
  rw [List.append_nil]
  exact (Directive.read?_append_eq_none hb rest).1 hread

theorem faithful (hname : Nameable delimiter.toList) (h : Reads sql delimiter [] s) :
    Faithful sql delimiter := by
  have hscan := (h.runs hname).scan_eq
  rw [List.append_nil, ← String.toList_append, Scanner.scan_nil] at hscan
  refine ⟨hname, ?_, ?_⟩
  · rw [hscan, h.statements_commit hname]
  · rw [hscan, Scanner.current_eq, Scanner.kept_commit]
    rfl

end Reads

theorem eq_trimmed_of_append_eq {d : List Char} (hname : Nameable d) {k : Kept}
    {rest rest' : List Char} (h : k.text ++ (d ++ rest) = k.trimmed ++ (d ++ rest')) :
    k.text = k.trimmed ∧ rest = rest' := by
  obtain ⟨lead, tail, hlead, htail, htext⟩ := k.exists_text_eq
  have hhead : ∀ more, ∀ c ∈ (d ++ more).head?, isBlank c = false := by
    intro more c hc
    obtain ⟨e, es, hd⟩ := List.exists_cons_of_ne_nil hname.nonempty
    refine hname.not_isBlank_head (c := c) ?_
    rw [hd] at hc ⊢
    exact hc
  have hleadNil : lead = [] := by
    refine eq_nil_of_allBlank (k.trimmed ++ tail ++ (d ++ rest)) hlead fun c hc => ?_
    have hfront : lead ++ (k.trimmed ++ tail ++ (d ++ rest)) = k.trimmed ++ (d ++ rest') := by
      rw [← h, htext]
      simp
    rw [hfront] at hc
    cases htrimmed : k.trimmed with
    | nil => exact hhead rest' c (by rwa [htrimmed] at hc)
    | cons e es =>
      rw [htrimmed] at hc
      refine k.not_isBlank_head_trimmed ?_
      rw [htrimmed]
      exact hc
  rw [htext, hleadNil, List.nil_append, List.append_assoc, List.append_cancel_left_eq] at h
  have htailNil : tail = [] := by
    refine eq_nil_of_allBlank (d ++ rest) htail ?_
    rw [h]
    exact hhead rest'
  rw [htailNil, List.nil_append, List.append_cancel_left_eq] at h
  exact ⟨by rw [htext, hleadNil, htailNil, List.nil_append, List.append_nil], h⟩

theorem reads_of_copies {sql delimiter : String} {text cs rest behind : List Char} {s : Scanner}
    {c : Char} (hname : Nameable delimiter.toList)
    (htext : sql.toList ++ (delimiter.toList ++ rest) = text ++ c :: cs)
    (hcopies : Scanner.Copies (Scanner.start delimiter) text s (c :: cs))
    (hplain : s.context = .plain) (hbare : Scanner.Bare c cs)
    (hdirective : s.directive? (c :: cs) = none) (hafter : s.afterDelimiter? c cs = some behind)
    (hsql : s.kept.trimmed = sql.toList) : Reads sql delimiter rest s := by
  have hdelimiter : s.delimiter = delimiter.toList := by
    rw [hcopies.delimiter, Scanner.start_delimiter hname]
  have hkept : s.kept.text = text := hcopies.text_eq
  obtain ⟨-, hfront⟩ := Scanner.afterDelimiter?_eq_some.1 hafter
  rw [hfront, hdelimiter, ← hkept, ← hsql] at htext
  obtain ⟨hcopied, rfl⟩ := eq_trimmed_of_append_eq hname htext.symm
  refine ⟨?_, hplain, ?_, ?_, hsql⟩
  · rw [← hsql, ← hcopied, hkept, ← hdelimiter, ← hfront]
    exact hcopies
  · intro e es hd
    rw [hdelimiter, hd, List.cons_append, List.cons.injEq] at hfront
    obtain ⟨rfl, rfl⟩ := hfront
    exact hbare
  · rw [← hdelimiter, ← hfront]
    exact hdirective

/-- The first statement that a scan closes is read where it stands, unless a comment or a directive
in front of its delimiter is passed over. -/
theorem reads_or_stops {x : Statement} {xs : List Statement} {rest : List Char} {final : Scanner}
    (hname : Nameable x.delimiter.toList)
    (hscan :
      (Scanner.start x.delimiter).scan (x.sql.toList ++ (x.delimiter.toList ++ rest)) = final)
    (hstatements : final.statements.toList = x :: xs) :
    (∃ s, Reads x.sql x.delimiter rest s) ∨ ∃ s c cs s₁ unread, Scanner.Stop s c cs s₁ unread ∧
      s.statements = #[] ∧ s₁.statements = #[] ∧ s.delimiter = x.delimiter.toList ∧
      s.kept.text ++ c :: cs = x.sql.toList ++ (x.delimiter.toList ++ rest) ∧
      s₁.scan unread = final := by
  obtain ⟨text, s, behind, htext, hcopies, hend⟩ := Scanner.exists_copies
    (Scanner.start x.delimiter) (x.sql.toList ++ (x.delimiter.toList ++ rest))
  have hopen : s.statements = #[] := hcopies.statements
  have hdelimiter : s.delimiter = x.delimiter.toList := by
    rw [hcopies.delimiter, Scanner.start_delimiter hname]
  have hkept : s.kept.text = text := hcopies.text_eq
  rw [htext, hcopies.runs.scan_eq] at hscan
  rcases hend with rfl | ⟨c, cs, rfl, hstop⟩
  · rw [Scanner.scan_nil] at hscan
    rw [← hscan, hopen] at hstatements
    exact absurd hstatements (by simp)
  · rw [Scanner.scan_cons] at hscan
    have hplace : s.kept.text ++ c :: cs = x.sql.toList ++ (x.delimiter.toList ++ rest) := by
      rw [hkept, htext]
    generalize (s.step c cs).1 = s₁ at hstop hscan
    generalize (s.step c cs).2 = unread at hstop hscan
    have hlost := hstop
    cases hstop with
    | comment => exact Or.inr ⟨s, c, cs, _, _, hlost, hopen, hopen, hdelimiter, hplace, hscan⟩
    | directive => exact Or.inr ⟨s, c, cs, _, _, hlost, hopen, hopen, hdelimiter, hplace, hscan⟩
    | close hplain hbare hdirective hafter =>
      obtain ⟨closed, hclosed, -⟩ := (Scanner.runs_scan s.commit unread).budget
      rw [hscan, hstatements, Scanner.statements_commit, hopen] at hclosed
      simp only [List.push_toArray, List.nil_append, List.cons_append, List.cons.injEq] at hclosed
      have hsql : s.kept.trimmed = x.sql.toList := by rw [hclosed.1, String.toList_ofList]
      exact Or.inl ⟨s, reads_of_copies hname htext hcopies hplain hbare hdirective hafter hsql⟩

theorem exists_reads {x : Statement} {xs : List Statement} {rest : List Char} {final : Scanner}
    (hname : Nameable x.delimiter.toList)
    (hscan :
      (Scanner.start x.delimiter).scan (x.sql.toList ++ (x.delimiter.toList ++ rest)) = final)
    (hstatements : final.statements.toList = x :: xs)
    (hweight : weight (x.sql.toList ++ (x.delimiter.toList ++ rest)) ≤
      toll x.delimiter.toList (x :: xs) final.delimiter + weight final.kept.text) :
    ∃ s, Reads x.sql x.delimiter rest s := by
  rcases reads_or_stops hname hscan hstatements with
    hreads | ⟨s, c, cs, s₁, unread, hstop, hopen, hsame, hdelimiter, htext, hagain⟩
  · exact hreads
  · exfalso
    have hlt := hstop.weight_lt (hsame.trans hopen.symm) hdelimiter.symm xs final.delimiter
    obtain ⟨closed, hclosed, hbudget⟩ := (Scanner.runs_scan s₁ unread).budget
    rw [hagain, hstatements, hsame, List.nil_append] at hclosed
    rw [hagain, ← hclosed, weight_nil] at hbudget
    rw [← htext, weight_append] at hweight
    rw [hdelimiter] at hlt
    omega

theorem Faithful.reads {sql delimiter : String} (h : Faithful sql delimiter) :
    ∃ s, Reads sql delimiter [] s := by
  have hstatements := congrArg Array.toList h.statements
  have hkept := h.current
  rw [Scanner.current_eq] at hkept
  refine @exists_reads ⟨1, sql, delimiter⟩ [] _ _ h.nameable
    (by rw [List.append_nil, ← String.toList_append]) hstatements ?_
  simp only [toll, change_self, weight_append, weight_nil]
  omega

end SqlBatch.Script
