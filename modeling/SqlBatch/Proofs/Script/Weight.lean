import SqlBatch.Proofs.Script.Runs

/-! What a run can produce from a text. The weight of a text is its number of characters that are
not blank. A run never gains weight: the statements it closes, the directives that their delimiters
require, the text still kept and the text still unread together weigh no more than what was there
at its start. -/

namespace SqlBatch.Script

open Text

def weight (cs : List Char) : Nat := cs.countP fun c => !isBlank c

@[simp] theorem weight_nil : weight [] = 0 := rfl

@[simp] theorem weight_append (as bs : List Char) : weight (as ++ bs) = weight as + weight bs :=
  List.countP_append

theorem weight_cons_of_isBlank {c : Char} (h : isBlank c = true) (cs : List Char) :
    weight (c :: cs) = weight cs :=
  List.countP_cons_of_neg (by simp [h])

theorem weight_cons_of_not_isBlank {c : Char} (h : isBlank c = false) (cs : List Char) :
    weight (c :: cs) = weight cs + 1 :=
  List.countP_cons_of_pos (by simp [h])

theorem weight_eq_zero {cs : List Char} : weight cs = 0 ↔ allBlank cs = true := by
  rw [weight, List.countP_eq_zero, allBlank, List.all_eq_true]
  simp

theorem weight_cons (c : Char) (cs : List Char) : weight (c :: cs) = weight [c] + weight cs :=
  weight_append [c] cs

theorem weight_le_of_suffix {cs cs' : List Char} (h : cs <:+ cs') : weight cs ≤ weight cs' :=
  h.sublist.countP_le

theorem weight_le_of_front {cs cs' : List Char} (h : cs <+: cs') : weight cs ≤ weight cs' :=
  h.sublist.countP_le

theorem weight_line (cs : List Char) : weight (line cs).1 + weight (line cs).2 = weight cs := by
  rw [← weight_append, line_append]

@[simp] theorem weight_trim (cs : List Char) : weight (trim cs) = weight cs := by
  obtain ⟨lead, hlead, hstart⟩ := exists_append_trimStart cs
  obtain ⟨tail, htail, hend⟩ := exists_trimEnd_append (trimStart cs)
  calc weight (trim cs) = weight (trimEnd (trimStart cs) ++ tail) := by
        rw [weight_append, weight_eq_zero.2 htail, Nat.add_zero, trim]
    _ = weight (lead ++ trimStart cs) := by
        rw [← hend, weight_append, weight_eq_zero.2 hlead, Nat.zero_add]
    _ = weight cs := by rw [← hstart]

@[simp] theorem weight_trimmed (k : Kept) : weight k.trimmed = weight k.text := by
  obtain ⟨lead, tail, hlead, htail, htext⟩ := k.exists_text_eq
  rw [htext, weight_append, weight_append, weight_eq_zero.2 hlead, weight_eq_zero.2 htail]
  omega

theorem weight_text_of_trimmed {k : Kept} {text : List Char} (h : k.trimmed = text) :
    weight k.text = weight text := by
  rw [← h, weight_trimmed]

theorem weight_glued (text delimiter rest : List Char) :
    weight (text ++ (delimiter ++ '\n' :: rest)) =
      weight text + (weight delimiter + weight rest) := by
  rw [weight_append, weight_append, weight_cons_of_isBlank isBlank_lineFeed]

theorem weight_keyword : weight keyword = 9 := by decide

theorem weight_of_keyword {word : List Char} (h : word.map Char.toLower = keyword) :
    weight word = weight keyword := by
  have hall : weight word = word.length := by
    rw [weight, List.countP_eq_length]
    intro c hc
    simp [not_isBlank_of_mem_word h hc]
  rw [hall, ← List.length_map, h]
  decide

theorem weight_dropTerminator {cs : List Char} (h : ∀ c ∈ cs.head?, isBreak c = true) :
    weight (dropTerminator cs) = weight cs := by
  fun_cases dropTerminator cs with
  | case1 cs =>
    rw [weight_cons_of_isBlank (by decide), weight_cons_of_isBlank (by decide)]
  | case2 c cs => rw [weight_cons_of_isBlank (isBlank_of_isBreak (h c rfl))]
  | case3 => rfl

theorem weight_of_read? {cs : List Char} {d : Directive} (h : Directive.read? cs = some d) :
    weight cs = weight keyword + weight d.token + weight d.rest := by
  obtain ⟨word, after, rfl, hword, -, htoken, hrest⟩ := Directive.read?_eq_some.1 h
  have hbreak : ∀ c ∈ (line after).2.head?, isBreak c = true :=
    fun c hc => isBreak_head_line_rest hc
  rw [weight_append, weight_of_keyword hword, htoken, hrest, weight_trim,
    weight_dropTerminator hbreak, Nat.add_assoc, weight_line]

theorem weight_of_startsLineComment {c : Char} {cs : List Char}
    (h : Scanner.startsLineComment c cs = true) : weight (line cs).2 < weight (c :: cs) := by
  have hline := weight_line cs
  rw [weight_cons_of_not_isBlank (Scanner.not_isBlank_of_startsLineComment h)]
  omega

/-- The weight of the directive that changes the delimiter from `active` to `d`, if it changes. -/
def change (active d : List Char) : Nat := if d = active then 0 else weight keyword + weight d

/-- The weight of statements, with a directive wherever the delimiter changes, the last one to
`final`. -/
def toll : List Char → List Statement → List Char → Nat
  | active, [], final => change active final
  | active, x :: xs, final =>
    change active x.delimiter.toList + (weight x.sql.toList + weight x.delimiter.toList) +
      toll x.delimiter.toList xs final

@[simp] theorem change_self (d : List Char) : change d d = 0 := by simp [change]

theorem change_le (active token d : List Char) :
    change active d ≤ weight keyword + weight token + change token d := by
  unfold change
  by_cases hd : d = token
  · subst hd
    split <;> omega
  · rw [if_neg hd]
    split <;> omega

theorem toll_le (active token : List Char) (xs : List Statement) (final : List Char) :
    toll active xs final ≤ weight keyword + weight token + toll token xs final := by
  have hchange := change_le active token
  cases xs with
  | nil => exact hchange final
  | cons x xs =>
    have hx := hchange x.delimiter.toList
    simp only [toll]
    omega

namespace Scanner

theorem Exit.budget {s s' : Scanner} {c : Char} {cs rest : List Char} (h : Exit s c cs s' rest) :
    ∃ closed, s'.statements.toList = s.statements.toList ++ closed ∧
      ∀ xs final, toll s.delimiter (closed ++ xs) final + weight s'.kept.text + weight rest ≤
        toll s'.delimiter xs final + weight s.kept.text + weight (c :: cs) := by
  cases h with
  | keep hkeeps =>
    refine ⟨[], by rw [hkeeps.statements, List.append_nil], fun xs final => ?_⟩
    rw [hkeeps.text, hkeeps.delimiter, weight_append, weight_cons c cs, List.nil_append]
    omega
  | @marker d _ _ hcs hc hd hstep hkeeps =>
    refine ⟨[], by rw [hkeeps.statements, List.append_nil], fun xs final => ?_⟩
    have hfront : weight (c :: d :: rest) = weight [c, d] + weight rest := weight_append [c, d] rest
    rw [hkeeps.text, hkeeps.delimiter, hcs, hfront, weight_append, List.nil_append]
    omega
  | stop hstop =>
    cases hstop with
    | comment hplain hline =>
      have := weight_of_startsLineComment hline
      refine ⟨[], by rw [List.append_nil], fun xs final => ?_⟩
      rw [List.nil_append]
      omega
    | @directive d hplain hd =>
      have hweight := weight_of_read? (read?_of_directive? hd)
      refine ⟨[], by rw [redefine, List.append_nil], fun xs final => ?_⟩
      have htoll := toll_le s.delimiter (s.redefine d.token).delimiter xs final
      have htoken : d.token = [] ∨ (s.redefine d.token).delimiter = d.token := by
        cases hempty : d.token with
        | nil => exact Or.inl rfl
        | cons => exact Or.inr rfl
      rw [kept_redefine, List.nil_append]
      rcases htoken with hnil | htoken
      · have hsame : (s.redefine d.token).delimiter = s.delimiter := by rw [hnil]; rfl
        rw [hsame]
        omega
      · rw [htoken] at htoll ⊢
        omega
    | close hplain hbare hdirective hafter =>
      obtain ⟨-, hfront⟩ := afterDelimiter?_eq_some.1 hafter
      refine ⟨[⟨s.statements.size + 1, String.ofList s.kept.trimmed, String.ofList s.delimiter⟩],
        by rw [statements_commit, Array.toList_push], fun xs final => ?_⟩
      rw [hfront, weight_append, kept_commit]
      simp only [List.singleton_append, toll, String.toList_ofList, change_self, weight_trimmed]
      have hempty : weight ({} : Kept).text = 0 := rfl
      have hsame : s.commit.delimiter = s.delimiter := rfl
      rw [hempty, hsame]
      omega

/-- A run gains no weight. -/
theorem Runs.budget {s s' : Scanner} {cs rest : List Char} (h : Runs s cs s' rest) :
    ∃ closed, s'.statements.toList = s.statements.toList ++ closed ∧
      toll s.delimiter closed s'.delimiter + weight s'.kept.text + weight rest ≤
        weight s.kept.text + weight cs := by
  induction h with
  | refl s cs => exact ⟨[], by simp, by simp [toll]⟩
  | @step s s' c cs rest hrun ih =>
    obtain ⟨closed, hclosed, hstep⟩ := (exit_step s c cs).budget
    obtain ⟨more, hmore, hweight⟩ := ih
    refine ⟨closed ++ more, by rw [hmore, hclosed, List.append_assoc], ?_⟩
    have := hstep more s'.delimiter
    omega

theorem Stop.weight_lt {s s' : Scanner} {c : Char} {cs rest : List Char} (h : Stop s c cs s' rest)
    (hopen : s'.statements = s.statements) {x : Statement} (hx : x.delimiter.toList = s.delimiter)
    (xs : List Statement) (final : List Char) :
    toll s.delimiter (x :: xs) final + weight s'.kept.text + weight rest <
      toll s'.delimiter (x :: xs) final + weight s.kept.text + weight (c :: cs) := by
  cases h with
  | comment hplain hline =>
    have := weight_of_startsLineComment hline
    omega
  | @directive d hplain hd =>
    have hweight := weight_of_read? (read?_of_directive? hd)
    rw [weight_keyword] at hweight
    rw [kept_redefine]
    simp only [toll, hx, change_self]
    omega
  | close =>
    have hsize := congrArg Array.size hopen
    rw [statements_commit, Array.size_push] at hsize
    omega

end Scanner
end SqlBatch.Script
