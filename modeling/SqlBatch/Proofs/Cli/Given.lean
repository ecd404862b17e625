import SqlBatch.Cli.Arguments
import SqlBatch.Proofs.Config.Keys

/-! What an accepted command line and its environment give to each setting. -/

namespace SqlBatch

namespace Config.Key

def arg : Key → Cli.Arg
  | backend => .backend
  | database => .database
  | force => .noForce
  | host => .host
  | password => .password
  | port => .port
  | secure => .secure
  | serial => .serial
  | setDb => .setDb
  | username => .user
  | verbosity => .verbosity

def isFlag (key : Key) : Bool := key.arg.isFlag

def readText? : (key : Key) → String → Option key.Value
  | backend, text => (Backend.ofText text).toOption
  | force, text => (Cli.truth? text).map (!·)
  | host, text => some text
  | port, text => (Cli.portNumber? text).map some
  | verbosity, text => (Verbosity.ofText text).toOption
  | database, text | password, text | username, text => some (some text)
  | secure, text | serial, text | setDb, text => Cli.truth? text

def inEnvironment? (key : Key) (environment : String → Option String) : Option key.Value :=
  (environment key.arg.variableName).bind key.readText?

end Config.Key

namespace Cli

open Config (Key)

namespace Given

def get? (g : Given) : (key : Key) → Option key.Value
  | .backend => g.backend
  | .database => g.database.map some
  | .force => g.noForce.map (!·)
  | .host => g.host
  | .password => g.password.map some
  | .port => g.port.map some
  | .secure => g.secure
  | .serial => g.serial
  | .setDb => g.setDb
  | .username => g.user.map some
  | .verbosity => g.verbosity

theorem has_arg (g : Given) (key : Key) : g.has key.arg = (g.get? key).isSome := by
  cases key <;> first | rfl | exact Option.isSome_map.symm

theorem get?_of_has {g : Given} {key : Key} (h : g.has key.arg = true) (below : Option key.Value) :
    (g.get? key <|> below) = g.get? key := by
  rw [has_arg, Option.isSome_iff_exists] at h
  obtain ⟨x, hx⟩ := h
  rw [hx]
  rfl

theorem get?_of_not_has {g : Given} {key : Key} (h : g.has key.arg = false) :
    g.get? key = none := by
  rwa [has_arg, Option.isSome_eq_false_iff, Option.isNone_iff_eq_none] at h

end Given

/-- The argument is set to what its text says, and nothing else is changed. -/
structure Arg.Sets (a : Arg) (text : String) (change : Given → Given) : Prop where
  config : ∀ g, (change g).config = if a = .config then some text else g.config
  get? : ∀ g (key : Key),
    (change g).get? key = if key.arg = a then key.readText? text else g.get? key

theorem Arg.sets_of_read {a : Arg} {text : String} {change : Given → Given}
    (h : a.read text = .ok change) : a.Sets text change := by
  cases a with
  | config =>
    simp only [Arg.read] at h
    split at h
    · contradiction
    · obtain rfl := Except.ok.inj h
      exact ⟨fun _ => rfl, fun _ key => by cases key <;> rfl⟩
  | user | password | host | database =>
    obtain rfl := Except.ok.inj h
    exact ⟨fun _ => rfl, fun _ key => by cases key <;> rfl⟩
  | backend =>
    cases hx : Backend.ofText text with
    | error e => simp [Arg.read, hx] at h
    | ok x =>
      simp only [Arg.read, hx, Except.ok.injEq] at h
      subst h
      refine ⟨fun _ => rfl, fun _ key => ?_⟩
      cases key <;> first | rfl | exact (congrArg Except.toOption hx).symm
  | verbosity =>
    cases hx : Verbosity.ofText text with
    | error e => simp [Arg.read, hx] at h
    | ok x =>
      simp only [Arg.read, hx, Except.ok.injEq] at h
      subst h
      refine ⟨fun _ => rfl, fun _ key => ?_⟩
      cases key <;> first | rfl | exact (congrArg Except.toOption hx).symm
  | port =>
    cases hx : portNumber? text with
    | none => simp [Arg.read, hx] at h
    | some x =>
      simp only [Arg.read, hx, Except.ok.injEq] at h
      subst h
      refine ⟨fun _ => rfl, fun _ key => ?_⟩
      cases key <;> first | rfl | exact (congrArg (Option.map some) hx).symm
  | noForce =>
    cases hx : truth? text with
    | none => simp [Arg.read, hx] at h
    | some x =>
      simp only [Arg.read, hx, Except.ok.injEq] at h
      subst h
      refine ⟨fun _ => rfl, fun _ key => ?_⟩
      cases key <;> first | rfl | exact (congrArg (Option.map (!·)) hx).symm
  | serial | setDb | secure =>
    cases hx : truth? text with
    | none => simp [Arg.read, hx] at h
    | some x =>
      simp only [Arg.read, hx, Except.ok.injEq] at h
      subst h
      refine ⟨fun _ => rfl, fun _ key => ?_⟩
      cases key <;> first | rfl | exact hx.symm

namespace Given
variable {environment : String → Option String} {g g' : Given} {a : Arg} {text : String}

theorem exists_sets_of_take (h : g.take a text = .ok g') :
    ∃ change, a.Sets text change ∧ change g = g' := by
  unfold take at h
  split at h
  · contradiction
  · obtain ⟨change, hread, hchange⟩ := exists_of_map_eq_ok h
    exact ⟨change, Arg.sets_of_read hread, hchange⟩

theorem takeVariable_cases (h : g.takeVariable environment a = .ok g') :
    (g.has a = true ∧ g' = g) ∨
    (g.has a = false ∧ environment a.variableName = none ∧ g' = g) ∨
    (g.has a = false ∧ ∃ text change, environment a.variableName = some text ∧
      a.Sets text change ∧ change g = g') := by
  unfold takeVariable at h
  cases hhas : g.has a with
  | true =>
    rw [if_pos hhas] at h
    exact Or.inl ⟨rfl, (Except.ok.inj h).symm⟩
  | false =>
    rw [if_neg (by simp [hhas])] at h
    cases hvariable : environment a.variableName with
    | none =>
      rw [hvariable] at h
      exact Or.inr (Or.inl ⟨rfl, rfl, (Except.ok.inj h).symm⟩)
    | some text =>
      simp only [hvariable] at h
      obtain ⟨change, hread, hchange⟩ := exists_of_map_eq_ok h
      exact Or.inr (Or.inr ⟨rfl, text, change, rfl, Arg.sets_of_read hread, hchange⟩)

theorem get?_takeVariable (h : g.takeVariable environment a = .ok g') (key : Key) : g'.get? key =
    if key.arg = a then g.get? key <|> key.inEnvironment? environment else g.get? key := by
  split
  · rename_i harg
    subst harg
    rcases takeVariable_cases h with
      ⟨hhas, rfl⟩ | ⟨hnot, hunset, rfl⟩ | ⟨hnot, text, change, hvariable, hsets, rfl⟩
    · exact (get?_of_has hhas _).symm
    · rw [get?_of_not_has hnot, Key.inEnvironment?, hunset]
      rfl
    · rw [get?_of_not_has hnot, Key.inEnvironment?, hvariable, hsets.get?, if_pos rfl]
      rfl
  · rename_i harg
    rcases takeVariable_cases h with ⟨-, rfl⟩ | ⟨-, -, rfl⟩ | ⟨-, text, change, -, hsets, rfl⟩
    · rfl
    · rfl
    · rw [hsets.get?, if_neg harg]

theorem config_takeVariable (h : g.takeVariable environment a = .ok g') : g'.config =
    if .config = a then g.config <|> environment Arg.config.variableName else g.config := by
  split
  · rename_i harg
    subst harg
    rcases takeVariable_cases h with
      ⟨hhas, rfl⟩ | ⟨hnot, hunset, rfl⟩ | ⟨hnot, text, change, hvariable, hsets, rfl⟩
    · obtain ⟨path, hpath⟩ := Option.isSome_iff_exists.1 hhas
      rw [hpath]
      rfl
    · rw [hunset]
      cases g'.config <;> rfl
    · have hnone : g.config = none :=
        Option.isNone_iff_eq_none.1 (Option.isSome_eq_false_iff.1 hnot)
      rw [hsets.config, if_pos rfl, hnone, hvariable]
      rfl
  · rename_i harg
    rcases takeVariable_cases h with ⟨-, rfl⟩ | ⟨-, -, rfl⟩ | ⟨-, text, change, -, hsets, rfl⟩
    · rfl
    · rfl
    · rw [hsets.config, if_neg (Ne.symm harg)]

theorem foldlM_takeVariable {α : Type} {see : Given → Option α} {own : Arg} {value : Option α}
    (hsee : ∀ {g g' : Given} {a : Arg}, g.takeVariable environment a = .ok g' →
      see g' = if own = a then see g <|> value else see g)
    {args : List Arg} (h : args.foldlM (takeVariable environment) g = .ok g') :
    see g' = if own ∈ args then see g <|> value else see g := by
  induction args generalizing g with
  | nil =>
    obtain rfl : g = g' := Except.ok.inj h
    rfl
  | cons a args ih =>
    obtain ⟨next, hfirst, hrest⟩ := exists_of_foldlM_cons_eq_ok h
    rw [ih hrest, hsee hfirst]
    by_cases ha : own = a
    · -- a variable that is searched for twice counts once
      rw [if_pos ha, if_pos (List.mem_cons.2 (Or.inl ha))]
      cases see g <;> cases value <;> simp
    · simp [ha]

theorem get?_takeVariables (h : g.takeVariables environment = .ok g') (key : Key) :
    g'.get? key = (g.get? key <|> key.inEnvironment? environment) := by
  have hall : key.arg ∈ Arg.all := by cases key <;> decide
  rw [foldlM_takeVariable (fun h => get?_takeVariable h key) h, if_pos hall]

theorem config_takeVariables (h : g.takeVariables environment = .ok g') :
    g'.config = (g.config <|> environment Arg.config.variableName) :=
  foldlM_takeVariable config_takeVariable h

theorem takeVariables_none (g : Given) : g.takeVariables (fun _ => none) = .ok g := by
  have hstep : ∀ g a, takeVariable (fun _ => none) g a = .ok g := by
    intro g a
    unfold takeVariable
    split <;> rfl
  unfold takeVariables
  induction Arg.all with
  | nil => rfl
  | cons a args ih =>
    rw [List.foldlM_cons, hstep]
    exact ih

end Given

/-- What a call is made of: the command line alone is accepted too, and the variables stand in for
what is absent from it. -/
theorem Call.read_cases {args : List String} {environment : String → Option String} {call : Call}
    (h : Call.read args environment = .ok call) :
    ∃ r r' : Reading, args.foldlM Reading.step {} = .ok r ∧ r.settle = .ok r' ∧
      r'.given.takeVariables environment = .ok call.given ∧
      Call.read args (fun _ => none) = .ok ⟨r'.given, call.files⟩ := by
  obtain ⟨r, hfold, h⟩ := exists_of_bind_eq_ok h
  obtain ⟨r', hsettle, h⟩ := exists_of_bind_eq_ok h
  obtain ⟨given, hvariables, h⟩ := exists_of_bind_eq_ok h
  cases hfiles : r'.files.isEmpty with
  | true => simp [hfiles, bind, Except.bind] at h
  | false =>
    rw [hfiles, if_neg Bool.false_ne_true] at h
    obtain rfl : ⟨given, r'.files⟩ = call := Except.ok.inj h
    refine ⟨r, r', hfold, hsettle, hvariables, ?_⟩
    simp [Call.read, hfold, hsettle, hfiles, Given.takeVariables_none, bind, Except.bind, pure,
      Except.pure]

/-! On the command line a flag can only be raised: it takes no value there. -/

def Given.Raises (g : Given) : Prop :=
  ∀ key : Key, key.isFlag = true → g.get? key ≠ some (({} : Config).get key)

theorem Given.Raises.take {g g' : Given} {a : Arg} {text : String} (hg : g.Raises)
    (h : g.take a text = .ok g') (htext : a.isFlag = true → text = "true") : g'.Raises := by
  obtain ⟨change, hsets, rfl⟩ := exists_sets_of_take h
  intro key hkey
  rw [hsets.get?]
  split
  · rename_i harg
    obtain rfl : text = "true" := htext (harg ▸ hkey)
    cases key <;> first | contradiction | decide
  · exact hg key hkey

def Pending.TakesValue : Pending → Prop
  | .wanting a | .value a _ => a.isFlag = false
  | .nothing | .paths _ => True

namespace Reading
variable {r r' : Reading} {a : Arg} {text : String}

structure Raises (r : Reading) : Prop where
  given : r.given.Raises
  pending : r.pending.TakesValue

theorem raises_empty : Raises {} where
  given := by
    intro key _
    rw [show ({} : Given).get? key = none by cases key <;> rfl]
    exact nofun
  pending := trivial

theorem Raises.settle (hr : r.Raises) (h : r.settle = .ok r') : r'.Raises := by
  unfold Reading.settle at h
  have hpending := hr.pending
  cases hheld : r.pending with
  | nothing =>
    rw [hheld] at h
    exact Except.ok.inj h ▸ hr
  | wanting a =>
    rw [hheld] at h
    contradiction
  | value a text =>
    rw [hheld] at h hpending
    obtain ⟨g, htake, rfl⟩ := exists_of_map_eq_ok h
    exact ⟨hr.given.take htake fun hflag => absurd hflag (Bool.eq_false_iff.1 hpending), trivial⟩
  | paths latestFirst =>
    simp only [hheld] at h
    split at h
    · contradiction
    · obtain rfl := Except.ok.inj h
      exact ⟨hr.given, trivial⟩

theorem Raises.takeNow (hr : r.Raises) (h : r.takeNow a text = .ok r')
    (htext : a.isFlag = true → text = "true") : r'.Raises := by
  obtain ⟨settled, hsettle, h⟩ := exists_of_bind_eq_ok h
  obtain ⟨g, htake, h⟩ := exists_of_bind_eq_ok h
  obtain rfl := Except.ok.inj h
  exact ⟨(hr.settle hsettle).given.take htake htext, (hr.settle hsettle).pending⟩

theorem Raises.option (hr : r.Raises) (ha : a.isFlag = false) {attached : Option String}
    (h : r.option a attached = .ok r') : r'.Raises := by
  cases attached with
  | some text => exact hr.takeNow h fun hflag => absurd hflag (Bool.eq_false_iff.1 ha)
  | none =>
    obtain ⟨settled, hsettle, rfl⟩ := exists_of_map_eq_ok h
    exact ⟨(hr.settle hsettle).given, ha⟩

theorem stop_ne_ok {why : UsageError} : r.stop why ≠ .ok r' := by
  intro h
  obtain ⟨-, -, hthrow⟩ := exists_of_bind_eq_ok h
  exact nomatch hthrow

theorem Raises.long (hr : r.Raises) {body : List Char} (h : r.long body = .ok r') : r'.Raises := by
  unfold Reading.long at h
  extract_lets name attached at h
  clear_value attached
  split at h
  · rename_i a _
    cases hflag : a.isFlag with
    | false =>
      rw [hflag, Bool.not_false, if_pos rfl] at h
      exact hr.option hflag h
    | true =>
      rw [hflag, Bool.not_true, if_neg Bool.false_ne_true] at h
      split at h
      · contradiction
      · exact hr.takeNow h fun _ => rfl
  · split at h
    · split at h
      · contradiction
      · exact absurd h stop_ne_ok
    · contradiction

theorem isFlag_of_ofShort? {c : Char} (h : Arg.ofShort? c = some a) : a.isFlag = false := by
  have hshort : a.short? = some c := by simpa using List.find?_some h
  cases a <;> first | rfl | contradiction

theorem Raises.short (hr : r.Raises) {c : Char} {rest : List Char}
    (h : r.short c rest = .ok r') : r'.Raises := by
  unfold Reading.short at h
  split at h
  · rename_i a ha
    exact hr.option (isFlag_of_ofShort? ha) h
  · split at h
    · exact absurd h stop_ne_ok
    · split at h
      · exact absurd h stop_ne_ok
      · contradiction

theorem Raises.path (hr : r.Raises) (h : r.path text = .ok r') : r'.Raises := by
  unfold Reading.path at h
  split at h
  · obtain rfl := Except.ok.inj h
    exact ⟨hr.given, trivial⟩
  · obtain ⟨settled, hsettle, rfl⟩ := exists_of_map_eq_ok h
    exact ⟨(hr.settle hsettle).given, trivial⟩

theorem Raises.plain (hr : r.Raises) (h : r.plain text = .ok r') : r'.Raises := by
  unfold Reading.plain at h
  split at h
  · rename_i a hwanting
    obtain rfl := Except.ok.inj h
    have hpending := hr.pending
    rw [hwanting] at hpending
    exact ⟨hr.given, hpending⟩
  · exact hr.path h

theorem Raises.step (hr : r.Raises) (h : r.step text = .ok r') : r'.Raises := by
  unfold Reading.step at h
  split at h
  · exact hr.path h
  · split at h
    · obtain rfl := Except.ok.inj h
      exact ⟨hr.given, hr.pending⟩
    · exact hr.long h
    · exact hr.short h
    · exact hr.plain h

theorem Raises.foldlM (hr : r.Raises) {args : List String}
    (h : args.foldlM Reading.step r = .ok r') : r'.Raises := by
  induction args generalizing r with
  | nil => exact Except.ok.inj h ▸ hr
  | cons text args ih =>
    obtain ⟨next, hstep, hrest⟩ := exists_of_foldlM_cons_eq_ok h
    exact ih (hr.step hstep) hrest

end Reading

end Cli
end SqlBatch
