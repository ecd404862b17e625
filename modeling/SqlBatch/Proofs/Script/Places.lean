import SqlBatch.Proofs.Script.Bytes
import SqlBatch.Proofs.Script.Concatenation

/-! The places that a scan comes to. The loop over bytes goes from the flags of one scanner to those
of the next and stands behind what that has read; each step reads at least one character, so there
are no more steps than characters, and each place stands between two of them. -/

namespace SqlBatch.Script

open Text ByteScanner

namespace Scanner
variable {s s' : Scanner} {c : Char} {cs rest : List Char}

theorem Exit.delimiter_ne_nil (h : Exit s c cs s' rest) (hdelimiter : s.delimiter ≠ []) :
    s'.delimiter ≠ [] := by
  cases h with
  | keep hkeeps => rwa [hkeeps.delimiter]
  | marker _ _ _ _ hkeeps => rwa [hkeeps.delimiter]
  | stop hstop =>
    cases hstop with
    | comment => exact hdelimiter
    | @directive d =>
      cases htoken : d.token with
      | nil => exact hdelimiter
      | cons e es => exact List.cons_ne_nil e es
    | close => exact hdelimiter

theorem start_delimiter_ne_nil (delimiter : String) : (start delimiter).delimiter ≠ [] := by
  change (if delimiter.isEmpty then _ else _) ≠ []
  split
  · decide
  · rename_i hempty
    intro hnil
    exact hempty (String.isEmpty_iff.2 (String.toList_eq_nil_iff.1 hnil))

theorem exists_front (hdelimiter : s.delimiter ≠ []) (c : Char) (cs : List Char) :
    ∃ front, front ≠ [] ∧ c :: cs = front ++ (s.step c cs).2 ∧
      s.inBytes.step (c :: cs) = .ok ((s.step c cs).1.inBytes, byteSize front) := by
  obtain ⟨front, htext, hstep⟩ := step_inBytes c cs hdelimiter
  refine ⟨front, ?_, htext, hstep⟩
  rintro rfl
  have hlength := step_rest_length_le s c cs
  rw [← List.nil_append (s.step c cs).2, ← htext, List.length_cons] at hlength
  omega

theorem advance_inBytes {front : List Char} (read : List Char)
    (hstep : s.inBytes.step cs = .ok (s'.inBytes, byteSize front)) :
    advance (read ++ cs) s.inBytes (byteSize read) =
      .ok (s'.inBytes, byteSize (read ++ front)) := by
  rw [advance, behind_append, byteSize_append]
  simp only [bind, Except.bind, hstep]
  rfl

theorem exists_runs (s : Scanner) (read cs : List Char) {script : List Char}
    {f f' : ByteScanner} {place n place' : Nat} (h : Steps script f place n f' place')
    (hflags : f = s.inBytes) (hscript : script = read ++ cs) (hplace : place = byteSize read)
    (hdelimiter : s.delimiter ≠ []) : ∃ s' more rest, f' = s'.inBytes ∧ cs = more ++ rest ∧
      place' = byteSize (read ++ more) ∧ n ≤ more.length ∧ Runs s cs s' rest ∧
      s'.delimiter ≠ [] := by
  induction h generalizing s read cs with
  | refl f place =>
    refine ⟨s, [], cs, hflags, rfl, ?_, Nat.le_refl 0, .refl s cs, hdelimiter⟩
    rw [List.append_nil, hplace]
  | step hlt hadvance _ ih =>
    cases cs with
    | nil =>
      rw [hscript, hplace, List.append_nil] at hlt
      exact absurd hlt (Nat.lt_irrefl _)
    | cons c cs =>
      obtain ⟨front, hfront, htext, hstep⟩ := exists_front hdelimiter c cs
      rw [hflags, hscript, hplace, advance_inBytes read hstep] at hadvance
      obtain ⟨hflags₁, hplace₁⟩ := Prod.mk.inj (Except.ok.inj hadvance)
      obtain ⟨s', more, rest, hs', hcs, hplace', hn, hrun, hdelimiter'⟩ :=
        ih _ (read ++ front) _ hflags₁.symm (by rw [hscript, htext, List.append_assoc]) hplace₁.symm
          ((exit_step s c cs).delimiter_ne_nil hdelimiter)
      have hpos := List.length_pos_iff.2 hfront
      refine ⟨s', front ++ more, rest, hs', by rw [htext, hcs, List.append_assoc], ?_, ?_,
        .step hrun, hdelimiter'⟩
      · rw [hplace', List.append_assoc]
      · rw [List.length_append]
        omega

theorem exists_runs_start {script delimiter : String} {f : ByteScanner} {n place : Nat}
    (h : Steps script.toList (.start delimiter) 0 n f place) : ∃ s read rest, f = s.inBytes ∧
      script.toList = read ++ rest ∧ place = byteSize read ∧ n ≤ read.length ∧
      Runs (start delimiter) script.toList s rest ∧ s.delimiter ≠ [] :=
  exists_runs (start delimiter) [] script.toList h rfl rfl rfl (start_delimiter_ne_nil delimiter)

theorem exists_steps (h : Runs s cs s' rest) (hdelimiter : s.delimiter ≠ []) (read : List Char) :
    ∃ n more, cs = more ++ rest ∧ n ≤ more.length ∧
      Steps (read ++ cs) s.inBytes (byteSize read) n s'.inBytes (byteSize (read ++ more)) := by
  induction h generalizing read with
  | refl s cs =>
    refine ⟨0, [], rfl, Nat.le_refl 0, ?_⟩
    rw [List.append_nil]
    exact .refl _ _
  | @step s s' c cs rest _ ih =>
    obtain ⟨front, hfront, htext, hstep⟩ := exists_front hdelimiter c cs
    obtain ⟨n, more, hmore, hn, hsteps⟩ :=
      ih ((exit_step s c cs).delimiter_ne_nil hdelimiter) (read ++ front)
    have hpos := List.length_pos_iff.2 hfront
    have hlt : byteSize read < byteSize (read ++ c :: cs) := by
      rw [byteSize_append]
      exact Nat.lt_add_of_pos_right (byteSize_pos (List.cons_ne_nil c cs))
    rw [List.append_assoc, List.append_assoc, ← htext] at hsteps
    refine ⟨n + 1, front ++ more, by rw [htext, hmore, List.append_assoc], ?_,
      .step hlt (advance_inBytes read hstep) hsteps⟩
    rw [List.length_append]
    omega

end Scanner

/-- The loop at a place of a script, which is a position between two characters. If the script goes
on there, a step reads some of its characters, at least one and none behind its end; and all places
that are worked out on the way are positions, too. -/
structure Proceeds (script : String) (s : ByteScanner) (place : Nat) : Prop where
  position : String.Pos.Raw.IsValid script ⟨place⟩
  commit : ∃ closed, s.commit = .ok closed
  step : place < script.utf8ByteSize → ∃ rest, behind place script.toList = .ok rest ∧
    (∃ opens, startsLineComment rest = .ok opens) ∧ (∃ taken, s.directive rest = .ok taken) ∧
    ∃ s' size, s.step rest = .ok (s', size) ∧ 0 < size ∧ size ≤ byteSize rest ∧
      ∃ front behind, rest = front ++ behind ∧ byteSize front = size

theorem proceeds_inBytes {script : String} {r : Scanner} {read rest : List Char}
    (hscript : script.toList = read ++ rest) (hdelimiter : r.delimiter ≠ []) :
    Proceeds script r.inBytes (byteSize read) := by
  refine ⟨?_, ⟨_, r.commit_inBytes⟩, fun hlt => ⟨rest, ?_, ?_⟩⟩
  · exact (isValid_iff_cut? script _).2 ⟨(read, rest), cut?_eq_some.2 ⟨hscript, rfl⟩⟩
  · rw [hscript, behind_append]
  · cases rest with
    | nil =>
      rw [← byteSize_toList, hscript, List.append_nil] at hlt
      exact absurd hlt (Nat.lt_irrefl _)
    | cons c cs =>
      obtain ⟨front, hfront, htext, hstep⟩ := Scanner.exists_front hdelimiter c cs
      refine ⟨⟨_, ByteScanner.startsLineComment_cons c cs⟩, r.inBytes.exists_directive _, _, _,
        hstep, byteSize_pos hfront, ?_, front, _, htext, rfl⟩
      rw [htext, byteSize_append]
      exact Nat.le_add_right _ _

/-- The loop over the bytes of a script ends, with the statements that the scanner finds. It makes
no more steps than the script has characters, and it never comes to a place, nor works one out, that
is no position between two of them. -/
theorem scan_proceeds (script delimiter : String) :
    (∀ n s place, Steps script.toList (.start delimiter) 0 n s place →
      n ≤ script.length ∧ Proceeds script s place) ∧
    ∃ n s, n ≤ script.length ∧
      Steps script.toList (.start delimiter) 0 n s script.utf8ByteSize ∧
      s.finish = .ok (tokenize script delimiter) := by
  constructor
  · intro n s place hsteps
    obtain ⟨r, read, rest, rfl, hscript, rfl, hn, -, hdelimiter⟩ :=
      Scanner.exists_runs_start hsteps
    refine ⟨?_, proceeds_inBytes hscript hdelimiter⟩
    rw [← String.length_toList, hscript, List.length_append]
    omega
  · have hrun := Scanner.runs_scan (Scanner.start delimiter) script.toList
    obtain ⟨n, more, hmore, hn, hsteps⟩ :=
      Scanner.exists_steps hrun (Scanner.start_delimiter_ne_nil delimiter) []
    rw [List.append_nil] at hmore
    subst hmore
    refine ⟨n, _, ?_, ?_, Scanner.finish_inBytes _⟩
    · rwa [← String.length_toList]
    · rw [← byteSize_toList]
      exact hsteps

end SqlBatch.Script
