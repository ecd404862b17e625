import SqlBatch.Proofs.Script.Places
import SqlBatch.Proofs.Script.Weight

/-! What holds of the flags in every state of a scan. A literal and a comment are never open at
once, an escape is pending only right behind a kept backslash, and the escape floor stands right
behind an escaped character. So the end of a statement is trimmed at a place between two characters.
The statements that are closed stay as they are, numbered and with delimiters that are not empty. -/

namespace SqlBatch.Script

open Text

namespace ByteScanner

structure Coherent (s : ByteScanner) : Prop where
  delimiter : s.delimiter ≠ []
  apart : s.quote = none ∨ s.commentDepth = 0
  escaped : s.escaped = true → s.commentDepth = 0 ∧ ∃ front, s.current = front ++ ['\\']
  floor : s.escapeFloor = 0 ∨ ∃ front c more, s.current = front ++ '\\' :: c :: more ∧
    s.escapeFloor = byteSize (front ++ ['\\', c])
  inside : s.escapeFloor ≤ byteSize s.current ∧ ∃ parts, cut? s.escapeFloor s.current = some parts
  closes : ∃ closed, s.commit = .ok closed
  indices : s.statements.toList.map Statement.index = List.range' 1 s.statements.size
  delimiters : ∀ x ∈ s.statements.toList, x.delimiter ≠ ""

theorem eq_of_directive {s s' : ByteScanner} {cs : List Char} {size : Nat}
    (h : s.directive cs = .ok (some (s', size))) :
    s' = { s with delimiter := s'.delimiter, lineStart := true } := by
  cases hread : Directive.read? cs with
  | none =>
    rw [s.directive_of_none hread] at h
    exact nomatch h
  | some d =>
    obtain ⟨front, -, hdirective⟩ := s.directive_of_some hread
    have htaken := Except.ok.inj (hdirective.symm.trans h)
    split at htaken
    · obtain rfl : s.redefine d.token = s' := congrArg Prod.fst (Option.some.inj htaken)
      rfl
    · contradiction

end ByteScanner

namespace Scanner
variable {s s' : Scanner} {c : Char} {cs rest : List Char}

/-- All delimiters are there, the one in force and those of the closed statements. -/
structure Delimited (s : Scanner) : Prop where
  active : s.delimiter ≠ []
  closed : ∀ x ∈ s.statements.toList, x.delimiter ≠ ""

theorem Delimited.exit (hexit : Exit s c cs s' rest) (h : Delimited s) : Delimited s' := by
  refine ⟨hexit.delimiter_ne_nil h.active, ?_⟩
  cases hexit with
  | keep hkeeps => rw [hkeeps.statements]; exact h.closed
  | marker _ _ _ _ hkeeps => rw [hkeeps.statements]; exact h.closed
  | stop hstop =>
    cases hstop with
    | comment => exact h.closed
    | directive => exact h.closed
    | close =>
      intro x hx
      rw [statements_commit, Array.toList_push, List.mem_append, List.mem_singleton] at hx
      rcases hx with hx | rfl
      · exact h.closed x hx
      · intro hempty
        exact h.active (String.ofList_injective hempty)

theorem Guards.coherent (h : Guards s) (hdelimited : Delimited s) (hnumbered : Numbered s) :
    s.inBytes.Coherent where
  delimiter := hdelimited.active
  apart := by
    rw [inBytes_quote, inBytes_commentDepth]
    cases s.context with
    | plain => exact Or.inl rfl
    | escape inside => exact Or.inr rfl
    | literal quote => exact Or.inr rfl
    | comment enclosing => exact Or.inl rfl
  escaped := by
    rw [inBytes_escaped, inBytes_commentDepth]
    cases hcontext : s.context with
    | escape inside => exact fun _ => ⟨rfl, h.escape inside hcontext⟩
    | _ => exact fun hescape => Bool.noConfusion hescape
  floor := by
    rcases h.guarded with hnone | ⟨front, c, hguarded⟩
    · exact Or.inl (congrArg byteSize hnone)
    · refine Or.inr ⟨front, c, s.kept.loose, ?_, congrArg byteSize hguarded⟩
      change s.kept.guarded ++ s.kept.loose = _
      rw [hguarded, List.append_assoc]
      rfl
  inside := by
    refine ⟨?_, (s.kept.guarded, s.kept.loose), cut?_eq_some.2 ⟨rfl, rfl⟩⟩
    change byteSize s.kept.guarded ≤ byteSize (s.kept.guarded ++ s.kept.loose)
    rw [byteSize_append]
    exact Nat.le_add_right _ _
  closes := ⟨_, s.commit_inBytes⟩
  indices := hnumbered
  delimiters := hdelimited.closed

end Scanner

/-- The flags are coherent in every state of a scan, which are the flags of the scanner; what is
closed in one is never changed by later steps; and a directive changes only the delimiter and the
start of a line. -/
theorem scan_coherent (script delimiter : String) :
    (∀ n s place, ByteScanner.Steps script.toList (.start delimiter) 0 n s place →
      s.Coherent ∧
      (∃ r rest, Scanner.Runs (Scanner.start delimiter) script.toList r rest ∧ s = r.inBytes) ∧
      ∀ m s' place', ByteScanner.Steps script.toList s place m s' place' →
        s.statements.toList <+: s'.statements.toList) ∧
    ∀ (s s' : ByteScanner) rest size, s.directive rest = .ok (some (s', size)) →
      s' = { s with delimiter := s'.delimiter, lineStart := true } := by
  refine ⟨fun n s place hsteps => ?_, fun s s' rest size h => ByteScanner.eq_of_directive h⟩
  obtain ⟨r, read, rest, rfl, hscript, rfl, -, hrun, hdelimiter⟩ :=
    Scanner.exists_runs_start hsteps
  refine ⟨?_, ⟨r, rest, hrun, rfl⟩, fun m s' place' hlater => ?_⟩
  · have hguards := (Scanner.guards_start delimiter).of_runs hrun
    have hnumbered : r.Numbered :=
      hrun.invariant (fun _ _ _ _ _ hexit h => h.exit hexit) rfl
    have hdelimited : r.Delimited :=
      hrun.invariant (fun _ _ _ _ _ hexit h => h.exit hexit)
        ⟨Scanner.start_delimiter_ne_nil delimiter, fun x hx => nomatch hx⟩
    exact hguards.coherent hdelimited hnumbered
  · obtain ⟨r', _, _, rfl, -, -, -, hrun', -⟩ :=
      Scanner.exists_runs r read rest hlater rfl hscript rfl hdelimiter
    obtain ⟨closed, hclosed, -⟩ := hrun'.budget
    exact ⟨closed, hclosed.symm⟩

end SqlBatch.Script
