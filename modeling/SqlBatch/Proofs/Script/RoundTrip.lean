import SqlBatch.Proofs.Script.Aligned

/-! When a rendered script is read back as the statements it was rendered from: when every statement
in front of the last one is faithful, and the last one is what is read of it alone. It need not be
closed, since text that is left at the end of a script is a statement, too. -/

namespace SqlBatch.Script

open Text

theorem weight_written_le (active : String) (xs : List Statement) (final : List Char) :
    weight (written active xs) ≤ toll active.toList xs final := by
  induction xs generalizing active with
  | nil => exact Nat.zero_le _
  | cons x xs ih =>
    have hx := ih x.delimiter
    rw [written_cons, weight_append, weight_switch, weight_glued, toll]
    omega

theorem written_map_behind (n : Nat) (active : String) (xs ys : List Statement) :
    written active (xs.map (Statement.behind n) ++ ys) = written active (xs ++ ys) := by
  induction xs generalizing active with
  | nil => rfl
  | cons x xs ih =>
    have hx := ih x.delimiter
    rw [List.map_cons, List.cons_append, List.cons_append, written_cons, written_cons, ← hx]
    rfl

theorem WellFormed.of_behind {n : Nat} {x : Statement} (h : WellFormed (x.behind n)) :
    WellFormed x :=
  ⟨h.nameable, h.starts, h.ends⟩

namespace Scanner
variable {earlier : List Statement} {active : String} {t : Scanner}

/-- If each statement, read from the start, is closed where it was written, all are faithful. -/
theorem Continues.faithful_of_reads {xs : List Statement} (rest : List Statement) {final : Scanner}
    (h : Continues earlier (start active) t) (hgood : ∀ x ∈ xs, WellFormed x)
    (hscan : t.scan (Script.written active (xs ++ rest)) = final)
    (hstatements : final.statements.toList = earlier ++ xs)
    (hreads : ∀ (x : Statement) (ys : List Statement) (s : Scanner),
      (∀ y ∈ x :: ys, WellFormed y) →
      (start x.delimiter).scan (x.sql.toList ++ (x.delimiter.toList ++
        '\n' :: Script.written x.delimiter (ys ++ rest))) = s →
      s.statements.toList = x :: ys → s.kept.trimmed = final.kept.trimmed →
      s.delimiter = final.delimiter →
        ∃ s', Reads x.sql x.delimiter ('\n' :: Script.written x.delimiter (ys ++ rest)) s') :
    ∀ x ∈ xs, Faithful x.sql x.delimiter := by
  induction xs generalizing active earlier t with
  | nil => simp
  | cons x xs ih =>
    obtain ⟨hwell, hrest⟩ := List.forall_mem_cons.1 hgood
    have hname := hwell.nameable
    rw [List.cons_append, written_cons] at hscan
    obtain ⟨t₁, hswitch, h₁⟩ := h.switch hname (x.sql.toList ++ (x.delimiter.toList ++
      '\n' :: Script.written x.delimiter (xs ++ rest)))
    rw [hswitch.scan_eq] at hscan
    have halone := h₁.scan (x.sql.toList ++ (x.delimiter.toList ++
      '\n' :: Script.written x.delimiter (xs ++ rest)))
    rw [hscan] at halone
    generalize hs : (start x.delimiter).scan (x.sql.toList ++ (x.delimiter.toList ++
      '\n' :: Script.written x.delimiter (xs ++ rest))) = s at halone
    have hsame : x :: xs = s.statements.toList.map (Statement.behind earlier.length) := by
      rw [halone.statements] at hstatements
      exact (List.append_cancel_left hstatements).symm
    -- read from the start, the statements have other places
    cases hclosed : s.statements.toList with
    | nil => simp [hclosed] at hsame
    | cons y ys =>
      rw [hclosed, List.map_cons, List.cons.injEq] at hsame
      obtain ⟨hfirst, hothers⟩ := hsame
      have hsql : x.sql = y.sql := by rw [hfirst]; rfl
      have hdelimiter : x.delimiter = y.delimiter := by rw [hfirst]; rfl
      have hgood' : ∀ w ∈ y :: ys, WellFormed w := by
        intro w hw
        refine WellFormed.of_behind (n := earlier.length) (hgood _ ?_)
        rw [hfirst, hothers, ← List.map_cons]
        exact List.mem_map_of_mem hw
      have hplace : Script.written x.delimiter (xs ++ rest) =
          Script.written y.delimiter (ys ++ rest) := by
        rw [hothers, written_map_behind, hdelimiter]
      rw [hsql, hplace, hdelimiter] at hs
      obtain ⟨s', hy⟩ := hreads y ys s hgood' hs hclosed halone.trimmed.symm halone.delimiter.symm
      rw [← hplace, ← hsql, ← hdelimiter] at hy
      obtain ⟨t₂, hclose, h₂⟩ := h₁.reads hname hy
      rw [hclose.scan_eq] at hscan
      have hprefix := (h₂.scan (Script.written x.delimiter (xs ++ rest))).statements
      rw [hscan, hstatements, List.append_assoc, List.append_cancel_left_eq,
        List.singleton_append, List.cons.injEq] at hprefix
      intro w hw
      rcases List.mem_cons.1 hw with rfl | hw
      · exact (hy.alone hname (by decide : isBreak '\n' = true)).faithful hname
      · refine ih h₂ hrest hscan ?_ w hw
        rw [hstatements, ← hprefix.1, List.append_assoc, List.singleton_append]

theorem Continues.faithful_of_closed {xs : List Statement} (h : Continues earlier (start active) t)
    (hgood : ∀ x ∈ xs, WellFormed x)
    (hstatements : (t.scan (Script.written active xs)).statements.toList = earlier ++ xs) :
    ∀ x ∈ xs, Faithful x.sql x.delimiter := by
  refine h.faithful_of_reads [] hgood rfl (by rwa [List.append_nil]) ?_
  intro x ys s hgood hs hclosed _ _
  refine exists_reads (hgood x List.mem_cons_self).nameable hs hclosed ?_
  have hle := weight_written_le x.delimiter ys s.delimiter
  rw [List.append_nil, weight_glued]
  simp only [toll, change_self]
  omega

theorem Continues.faithful_of_leaves {xs : List Statement} {z : Statement}
    (h : Continues earlier (start active) t) (hgood : ∀ x ∈ xs ++ [z], WellFormed x)
    (hstatements : (t.scan (Script.written active (xs ++ [z]))).statements.toList = earlier ++ xs)
    (htrimmed : (t.scan (Script.written active (xs ++ [z]))).kept.trimmed = z.sql.toList)
    (hdelimiter : (t.scan (Script.written active (xs ++ [z]))).delimiter = z.delimiter.toList) :
    ∀ x ∈ xs, Faithful x.sql x.delimiter := by
  obtain ⟨hxs, hz⟩ := List.forall_mem_append.1 hgood
  refine h.faithful_of_reads [z] hxs rfl hstatements ?_
  intro x ys s hgood hs hclosed hkept hlast
  refine Leaves.reads (List.forall_mem_append.2 ⟨hgood, hz⟩) ⟨?_, ?_, ?_⟩
  · rw [hs, hclosed]
    rfl
  · rw [hs, hkept, htrimmed]
  · rw [hs, hlast, hdelimiter]

end Scanner

theorem tokenize_render_concat_eq_iff {xs : List Statement} {z : Statement}
    (hgood : ∀ x ∈ xs ++ [z], WellFormed x)
    (hindex : (xs ++ [z]).map Statement.index = List.range' 1 (xs ++ [z]).length) :
    tokenize (render (xs ++ [z])) Statement.defaultDelimiter = xs ++ [z] ↔
      (∀ x ∈ xs, Faithful x.sql x.delimiter) ∧
        tokenize (z.sql ++ z.delimiter ++ "\n") z.delimiter = [⟨1, z.sql, z.delimiter⟩] := by
  have hname : Nameable z.delimiter.toList := (hgood z (by simp)).nameable
  obtain ⟨hfront, hlast⟩ : xs.map Statement.index = List.range' 1 xs.length ∧
      z.index = xs.length + 1 := by
    rw [List.map_append, List.length_append, List.length_singleton, List.range'_concat] at hindex
    have hsplit := List.append_inj' hindex rfl
    refine ⟨hsplit.1, ?_⟩
    have hz : z.index = 1 + 1 * xs.length := by simpa using hsplit.2
    omega
  have hstart := Scanner.continues_start Statement.defaultDelimiter
  have hfaithful : tokenize (render (xs ++ [z])) Statement.defaultDelimiter = xs ++ [z] →
      ∀ x ∈ xs, Faithful x.sql x.delimiter := by
    intro hagain
    rw [tokenize, toList_render, Scanner.finish] at hagain
    split at hagain
    · have hall := hstart.faithful_of_closed hgood hagain
      exact fun x hx => hall x (List.mem_append_left _ hx)
    · rw [Scanner.statements_commit, Array.toList_push] at hagain
      obtain ⟨hstatements, hz⟩ := List.append_inj' hagain rfl
      have hz := List.singleton_inj.1 hz
      have hsql := congrArg (fun x => x.sql.toList) hz
      have hdelimiter := congrArg (fun x => x.delimiter.toList) hz
      rw [String.toList_ofList] at hsql hdelimiter
      exact hstart.faithful_of_leaves hgood hstatements hsql hdelimiter
  constructor
  · intro hagain
    have hxs := hfaithful hagain
    refine ⟨hxs, ?_⟩
    rw [tokenize_render_concat hxs hfront z hname, List.append_cancel_left_eq] at hagain
    obtain ⟨y, hy, hbehind⟩ := List.map_eq_singleton_iff.1 hagain
    have hplace : y.index = 1 := by
      have hsame : xs.length + y.index = z.index := congrArg Statement.index hbehind
      omega
    rw [hy, ← hbehind]
    exact congrArg (fun n => [(⟨n, y.sql, y.delimiter⟩ : Statement)]) hplace
  · rintro ⟨hxs, halone⟩
    rw [tokenize_render_concat hxs hfront z hname, halone, List.map_singleton, Statement.behind,
      ← hlast]

/-- The statements of a script, written as a script, are read as themselves if and only if all but
the last one are faithful and the last one is what is read of it alone. -/
theorem tokenize_render_eq_iff (script : String) :
    tokenize (render (tokenize script Statement.defaultDelimiter)) Statement.defaultDelimiter =
        tokenize script Statement.defaultDelimiter ↔
      (∀ x ∈ (tokenize script Statement.defaultDelimiter).dropLast, Faithful x.sql x.delimiter) ∧
        ∀ x ∈ (tokenize script Statement.defaultDelimiter).getLast?,
          tokenize (x.sql ++ x.delimiter ++ "\n") x.delimiter = [⟨1, x.sql, x.delimiter⟩] := by
  have hgood : ∀ x ∈ tokenize script Statement.defaultDelimiter, WellFormed x :=
    fun x hx => wellFormed_of_mem_tokenize (by decide) hx
  have hindex : (tokenize script Statement.defaultDelimiter).map Statement.index =
      List.range' 1 (tokenize script Statement.defaultDelimiter).length :=
    Scanner.map_index_finish Statement.defaultDelimiter script.toList
  generalize tokenize script Statement.defaultDelimiter = first at hgood hindex ⊢
  rcases List.eq_nil_or_concat' first with rfl | ⟨xs, z, rfl⟩
  · simp
    decide +kernel
  · rw [tokenize_render_concat_eq_iff hgood hindex]
    simp

def overlappingScript : String := "DELIMITER ;;\nSELECT 1; ;;"

theorem tokenize_render_overlappingScript :
    let first := tokenize overlappingScript Statement.defaultDelimiter
    ((Scanner.start Statement.defaultDelimiter).scan overlappingScript.toList).context = .plain ∧
      first = [⟨1, "SELECT 1;", ";;"⟩] ∧
      tokenize (render first) Statement.defaultDelimiter ≠ first := by
  decide +kernel

end SqlBatch.Script
