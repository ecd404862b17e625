import SqlBatch.Proofs.Script.Faithful

/-! Rendered scripts. Faithful statements compose: whatever the mixture of their delimiters, a
script written from them is read as them again. -/

namespace SqlBatch.Script

open Text

/-- The characters of the statements as written, the first of them while `active` is in force. -/
def written (active : String) (xs : List Statement) : List Char :=
  (String.join (pieces active xs)).toList

def switch (active delimiter : String) : List Char :=
  if delimiter = active then [] else (directiveLine delimiter).toList

@[simp] theorem written_nil (active : String) : written active [] = [] := by
  simp [written, pieces]

theorem written_cons (active : String) (x : Statement) (xs : List Statement) :
    written active (x :: xs) = switch active x.delimiter ++
      (x.sql.toList ++ (x.delimiter.toList ++ '\n' :: written x.delimiter xs)) := by
  by_cases h : x.delimiter = active
  · simp [written, pieces, renderStatement, switch, h]
  · simp [written, pieces, renderStatement, switch, h]

theorem toList_render (xs : List Statement) :
    (render xs).toList = written Statement.defaultDelimiter xs := rfl

/-- The delimiter in force behind statements that are written while `active` is. -/
def lastDelimiter : String → List Statement → String
  | active, [] => active
  | _, x :: xs => lastDelimiter x.delimiter xs

theorem written_append {active : String} {xs : List Statement} (ys : List Statement) :
    written active (xs ++ ys) = written active xs ++ written (lastDelimiter active xs) ys := by
  induction xs generalizing active with
  | nil => rw [written_nil]; rfl
  | cons x xs ih =>
    rw [List.cons_append, written_cons, written_cons, ih, lastDelimiter]
    simp

namespace Scanner
variable {earlier : List Statement} {active : String} {t : Scanner}

theorem Continues.switch {delimiter : String} (hdelimiter : Nameable delimiter.toList)
    (h : Continues earlier (start active) t) (rest : List Char) :
    ∃ t', Runs t (Script.switch active delimiter ++ rest) t' rest ∧
      Continues earlier (start delimiter) t' := by
  unfold Script.switch
  split
  · rename_i hsame
    exact ⟨t, .refl t rest, hsame ▸ h⟩
  · exact h.directiveLine hdelimiter rest

theorem Continues.reads {sql delimiter : String} {rest : List Char} {s : Scanner}
    (hname : Nameable delimiter.toList) (hreads : Reads sql delimiter ('\n' :: rest) s)
    (h : Continues earlier (start delimiter) t) :
    ∃ t', Runs t (sql.toList ++ (delimiter.toList ++ '\n' :: rest)) t' rest ∧
      Continues (earlier ++ [⟨earlier.length + 1, sql, delimiter⟩]) (start delimiter) t' := by
  obtain ⟨t₁, hrun, hclosed⟩ := h.runs (hreads.runs hname)
  have hready := hclosed.restart hreads.plain (kept_commit s)
    ((hreads.delimiter_eq hname).trans (start_delimiter hname).symm)
  rw [hreads.statements_commit hname] at hready
  obtain ⟨t', hfeed, hend⟩ := hready.lineFeed hname rest
  exact ⟨t', hrun.trans hfeed, hend⟩

theorem Continues.written {xs : List Statement} (h : Continues earlier (start active) t)
    (hfaithful : ∀ x ∈ xs, Faithful x.sql x.delimiter)
    (hindex : xs.map Statement.index = List.range' (earlier.length + 1) xs.length)
    (rest : List Char) :
    ∃ t', Runs t (Script.written active xs ++ rest) t' rest ∧
      Continues (earlier ++ xs) (start (lastDelimiter active xs)) t' := by
  induction xs generalizing active earlier t with
  | nil => exact ⟨t, by rw [written_nil]; exact .refl t rest, by rwa [List.append_nil]⟩
  | cons x xs ih =>
    obtain ⟨hx, hxs⟩ := List.forall_mem_cons.1 hfaithful
    rw [List.map_cons, List.length_cons, List.range'_succ, List.cons.injEq] at hindex
    obtain ⟨s, hreads⟩ := hx.reads
    have hreads' := hreads.in_front_of_break hx.nameable (by decide : isBreak '\n' = true)
      (Script.written x.delimiter xs ++ rest)
    obtain ⟨t₁, hswitch, h₁⟩ := h.switch hx.nameable
      (x.sql.toList ++ (x.delimiter.toList ++ '\n' :: (Script.written x.delimiter xs ++ rest)))
    obtain ⟨t₂, hclose, h₂⟩ := h₁.reads hx.nameable hreads'
    have hsame : earlier ++ [⟨earlier.length + 1, x.sql, x.delimiter⟩] ++ xs =
        earlier ++ x :: xs := by
      rw [← hindex.1, List.append_assoc, List.singleton_append]
    obtain ⟨t', hrun, hend⟩ := ih h₂ hxs
      (by rw [List.length_append, List.length_singleton]; exact hindex.2)
    rw [hsame] at hend
    refine ⟨t', ?_, hend⟩
    rw [written_cons]
    simp only [List.append_assoc, List.cons_append]
    exact (hswitch.trans hclose).trans hrun

theorem continues_start (active : String) : Continues [] (start active) (start active) :=
  ⟨rfl, rfl, rfl, ⟨[], rfl, rfl⟩, Or.inl rfl⟩

theorem Continues.finish_start (h : Continues earlier (start active) t) : t.finish = earlier := by
  rw [h.finish]
  exact List.append_nil _

theorem finish_written {xs : List Statement}
    (hfaithful : ∀ x ∈ xs, Faithful x.sql x.delimiter)
    (hindex : xs.map Statement.index = List.range' 1 xs.length) :
    ((start active).scan (Script.written active xs)).finish = xs := by
  obtain ⟨t, hrun, hend⟩ := (continues_start active).written hfaithful hindex []
  rw [← List.append_nil (Script.written _ _), hrun.scan_eq, scan_nil, hend.finish_start,
    List.nil_append]

end Scanner

theorem tokenize_render_concat {xs : List Statement}
    (hfaithful : ∀ x ∈ xs, Faithful x.sql x.delimiter)
    (hindex : xs.map Statement.index = List.range' 1 xs.length) (x : Statement)
    (hx : Nameable x.delimiter.toList) :
    tokenize (render (xs ++ [x])) Statement.defaultDelimiter =
      xs ++ (tokenize (x.sql ++ x.delimiter ++ "\n") x.delimiter).map
        (Statement.behind xs.length) := by
  obtain ⟨t, hrun, hend⟩ := (Scanner.continues_start Statement.defaultDelimiter).written hfaithful
    hindex (written (lastDelimiter Statement.defaultDelimiter xs) [x])
  obtain ⟨t', hswitch, hready⟩ := hend.switch hx (x.sql ++ x.delimiter ++ "\n").toList
  have hwritten : written (lastDelimiter Statement.defaultDelimiter xs) [x] =
      switch (lastDelimiter Statement.defaultDelimiter xs) x.delimiter ++
        (x.sql ++ x.delimiter ++ "\n").toList := by
    rw [written_cons, written_nil]
    simp
  rw [tokenize, toList_render, written_append, hrun.scan_eq, hwritten, hswitch.scan_eq]
  exact (hready.scan _).finish

theorem tokenize_render_of_faithful (xs : List Statement)
    (hindex : xs.map Statement.index = List.range' 1 xs.length)
    (hfaithful : ∀ x ∈ xs, Faithful x.sql x.delimiter) :
    tokenize (render xs) Statement.defaultDelimiter = xs :=
  Scanner.finish_written hfaithful hindex

/-- Three delimiters, a blank statement, and text in which another delimiter stands. -/
def mixedStatements : List Statement :=
  [⟨1, "SELECT 1", ";"⟩, ⟨2, "BEGIN; SELECT '$$'; END", "$$"⟩, ⟨3, "", "$$"⟩,
    ⟨4, "/* ; */ SELECT 2", "//"⟩, ⟨5, "SELECT `;`", ";"⟩]

theorem tokenize_render_mixedStatements :
    mixedStatements.map Statement.index = List.range' 1 mixedStatements.length ∧
      (∀ x ∈ mixedStatements, Faithful x.sql x.delimiter) ∧
      tokenize (render mixedStatements) Statement.defaultDelimiter = mixedStatements :=
  ⟨by decide, by decide +kernel, tokenize_render_of_faithful _ (by decide) (by decide +kernel)⟩

end SqlBatch.Script
