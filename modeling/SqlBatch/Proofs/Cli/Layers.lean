import SqlBatch.Cli.Files
import SqlBatch.Cli.Layers
import SqlBatch.Proofs.Cli.Given

/-! Which layer a setting comes from. A setting is a function of what the command line, its variable
and the configuration file give to it, and of nothing else. It is what the first of them gives that
gives anything, but for a flag that its variable takes back: such a flag stays as the file has
it. -/

namespace SqlBatch

namespace Config.Key

def default (key : Key) : key.Value := ({} : Config).get key

/-- What a call gives to the key, over the value below. A flag adds its effect to that value. -/
def overlay : (key : Key) → Option key.Value → key.Value → key.Value
  | force, given, below => (below : Bool) && given.getD true
  | secure, given, below | serial, given, below | setDb, given, below =>
    (below : Bool) || given.getD false
  | _, given, below => given.getD below

section
variable (key : Key) (line env file : Option key.Value)

def layered : key.Value := (line <|> env <|> file).getD key.default

def effective : key.Value := key.overlay (line <|> env) (file.getD key.default)

/-- The variable of a flag takes back what the configuration file sets. -/
structure TakesBack : Prop where
  flag : key.isFlag = true
  line : line = none
  env : env = some key.default
  file : ∃ x, file = some x ∧ x ≠ key.default

end

section
variable {key : Key} {line env file : Option key.Value}

theorem overlay_of_not_isFlag (h : key.isFlag = false) (given : Option key.Value)
    (below : key.Value) : key.overlay given below = given.getD below := by
  cases key <;> first | rfl | contradiction

theorem overlay_none (below : key.Value) : key.overlay none below = below := by
  cases key with
  | force => exact Bool.and_true _
  | secure | serial | setDb => exact Bool.or_false _
  | _ => rfl

theorem overlay_some_default (h : key.isFlag = true) (below : key.Value) :
    key.overlay (some key.default) below = below := by
  cases key with
  | force => exact Bool.and_true _
  | secure | serial | setDb => exact Bool.or_false _
  | _ => contradiction

theorem overlay_some_of_ne (h : key.isFlag = true) {x : key.Value} (hx : x ≠ key.default)
    (below : key.Value) : key.overlay (some x) below = x := by
  cases key with
  | force =>
    obtain rfl : x = false := Bool.eq_false_iff.2 hx
    exact Bool.and_false _
  | secure | serial | setDb =>
    obtain rfl : x = true := eq_true_of_ne_false hx
    exact Bool.or_true _
  | _ => contradiction

theorem effective_of_not_isFlag (h : key.isFlag = false) :
    key.effective line env file = key.layered line env file := by
  rw [effective, overlay_of_not_isFlag h, layered]
  cases line <;> cases env <;> rfl

theorem effective_eq_layered_iff (hline : key.isFlag = true → line ≠ some key.default) :
    key.effective line env file = key.layered line env file ↔
      ¬key.TakesBack line env file := by
  cases hflag : key.isFlag with
  | false =>
    refine iff_of_true (effective_of_not_isFlag hflag) fun h => ?_
    exact absurd (hflag.symm.trans h.flag) Bool.false_ne_true
  | true =>
    cases line with
    | some x =>
      have hx : x ≠ key.default := fun hx => hline hflag (congrArg some hx)
      exact iff_of_true (overlay_some_of_ne hflag hx _) fun h => nomatch h.line
    | none =>
      cases env with
      | none => exact iff_of_true (overlay_none _) fun h => nomatch h.env
      | some y =>
        by_cases hy : y = key.default
        · subst hy
          -- the variable takes nothing back where the file leaves the flag at its default
          change key.overlay (some key.default) (file.getD key.default) = key.default ↔ _
          rw [overlay_some_default hflag]
          constructor
          · rintro heq ⟨-, -, -, x, rfl, hx⟩
            exact hx heq
          · intro h
            cases file with
            | none => rfl
            | some x => exact Classical.byContradiction fun hx => h ⟨hflag, rfl, rfl, x, rfl, hx⟩
        · exact iff_of_true (overlay_some_of_ne hflag hy _) fun h => hy (Option.some.inj h.env)

end

end Config.Key

namespace Cli

open Config (Key)

theorem Given.get_over (g : Given) (c : Config) (key : Key) :
    (g.over c).get key = key.overlay (g.get? key) (c.get key) := by
  cases key with
  | force =>
    change (c.force && !g.noForce.getD false) = (c.force && (g.noForce.map (!·)).getD true)
    cases g.noForce <;> rfl
  | database =>
    change (g.database <|> c.database) = (g.database.map some).getD c.database
    cases g.database <;> rfl
  | password =>
    change (g.password <|> c.password) = (g.password.map some).getD c.password
    cases g.password <;> rfl
  | port =>
    change (g.port <|> c.port) = (g.port.map some).getD c.port
    cases g.port <;> rfl
  | username =>
    change (g.user <|> c.username) = (g.user.map some).getD c.username
    cases g.user <;> rfl
  | _ => rfl

/-- What a configuration file holds, where one is named. -/
inductive FileHolds (read : String → Except FileProblem (List UInt8)) :
    Option String → Json.Members → Prop
  | none : FileHolds read none []
  | some {path text : String} {bytes : List UInt8} {members : Json.Members}
      (hread : read path = .ok bytes) (htext : Text.Utf8.decode? bytes = some text)
      (hparse : Json.parse text = .ok (.obj members)) : FileHolds read (some path) members

theorem Given.get_base {g : Given} {read : String → Except FileProblem (List UInt8)} {c : Config}
    (h : g.base read = .ok c) : ∃ members, FileHolds read g.config members ∧
      ∀ key : Key, c.get key = (key.given? members).getD key.default := by
  unfold base at h
  cases hconfig : g.config with
  | none =>
    rw [hconfig] at h
    obtain rfl : {} = c := Except.ok.inj h
    exact ⟨[], .none, fun _ => rfl⟩
  | some path =>
    cases hread : read path with
    | error e => simp [hconfig, hread] at h
    | ok bytes =>
      simp only [hconfig, hread] at h
      obtain ⟨text, members, htext, hparse, hmembers⟩ :=
        Config.exists_of_ofBytes (eq_ok_of_mapError h)
      exact ⟨members, .some hread htext hparse, Config.get_readMembers hmembers⟩

/-- Every setting of a call comes from its own inputs alone: what the command line gives to it, its
variable and the member of its name in the configuration file. It is that of the first of them that
is there, exactly when its variable does not take back a flag that the file sets. -/
theorem Call.settings_layered {args : List String} {environment : String → Option String}
    {read : String → Except FileProblem (List UInt8)} {call : Call} {config : Config}
    (hcall : Call.read args environment = .ok call) (hconfig : call.settings read = .ok config) :
    ∃ line members, Call.read args (fun _ => none) = .ok ⟨line, call.files⟩ ∧
      FileHolds read (line.config <|> environment Arg.config.variableName) members ∧
      ∀ key : Key,
        let env := key.inEnvironment? environment
        let file := key.given? members
        config.get key = key.effective (line.get? key) env file ∧
        (config.get key = key.layered (line.get? key) env file ↔
          ¬key.TakesBack (line.get? key) env file) := by
  obtain ⟨r, r', hfold, hsettle, hvariables, hline⟩ := Call.read_cases hcall
  have hraises : r'.given.Raises :=
    ((Reading.raises_empty.foldlM hfold).settle hsettle).given
  obtain ⟨base, hbase, rfl⟩ := exists_of_map_eq_ok hconfig
  obtain ⟨members, hholds, hfile⟩ := Given.get_base hbase
  refine ⟨r'.given, members, hline, ?_, fun key => ?_⟩
  · rwa [← Given.config_takeVariables hvariables]
  · have heffective : (call.given.over base).get key = key.effective (r'.given.get? key)
        (key.inEnvironment? environment) (key.given? members) := by
      rw [Given.get_over, Given.get?_takeVariables hvariables, hfile]
      rfl
    exact ⟨heffective, by rw [heffective, Key.effective_eq_layered_iff (hraises key)]⟩

/-! A file that asks for the serial mode, and a variable that does not want it. -/

def dispatch : List String := ["--config", "c.json", "-u", "u", "-p", "p", "a.sql"]

def reluctant (name : String) : Option String :=
  if name = "SQLSCRIPT_SERIAL" then some "false" else none

def desk : Files := [("c.json", .file (Text.Utf8.encode "\x7b\"serial\": true\x7d"))]

def Call.dispatched : Call where
  given :=
    { config := some "c.json", user := some "u", password := some "p", serial := some false }
  files := ["a.sql"]

def Call.dispatchedSettings : Config :=
  { username := some "u", password := some "p", serial := true }

theorem Call.settings_dispatched :
    Call.dispatched.settings desk.read = .ok Call.dispatchedSettings := by
  have hsettings :
      (Call.dispatched.settings desk.read).toOption = some Call.dispatchedSettings := by
    decide +kernel
  cases h : Call.dispatched.settings desk.read with
  | error e =>
    rw [h] at hsettings
    contradiction
  | ok config =>
    rw [h] at hsettings
    exact congrArg Except.ok (Option.some.inj hsettings)

theorem Call.settings_layered_dispatched :
    Call.read dispatch reluctant = .ok Call.dispatched ∧
    Call.dispatched.settings desk.read = .ok Call.dispatchedSettings ∧
    ∃ members, FileHolds desk.read (some "c.json") members ∧
      Call.dispatchedSettings.username =
        Key.layered .username (some (some "u")) none (Key.given? .username members) ∧
      Key.TakesBack .serial none (some false) (Key.given? .serial members) := by
  have hread : Call.read dispatch reluctant = .ok Call.dispatched := rfl
  obtain ⟨line, members, hline, hholds, hall⟩ :=
    Call.settings_layered hread Call.settings_dispatched
  obtain rfl : { config := some "c.json", user := some "u", password := some "p" } = line :=
    congrArg Call.given (Except.ok.inj hline)
  refine ⟨hread, Call.settings_dispatched, members, hholds, ?_, ?_⟩
  · exact (hall .username).2.2 fun h => Bool.false_ne_true h.flag
  · exact Classical.byContradiction fun h => Bool.noConfusion ((hall .serial).2.2 h)

theorem Call.serial_of_reluctant : ∃ members,
    Call.read dispatch reluctant = .ok Call.dispatched ∧
    Call.dispatched.settings desk.read = .ok Call.dispatchedSettings ∧
    Call.dispatchedSettings.validate = .ok () ∧
    Call.read dispatch (fun _ => none) =
      .ok ⟨{ Call.dispatched.given with serial := none }, Call.dispatched.files⟩ ∧
    FileHolds desk.read (some "c.json") members ∧
    Call.dispatchedSettings.get .serial ≠ Key.layered .serial none
      (Key.inEnvironment? .serial reluctant) (Key.given? .serial members) := by
  obtain ⟨base, hbase, -⟩ := exists_of_map_eq_ok Call.settings_dispatched
  obtain ⟨members, hholds, -⟩ := Given.get_base hbase
  exact ⟨members, rfl, Call.settings_dispatched, rfl, rfl, hholds, Bool.false_ne_true.symm⟩

end Cli
end SqlBatch
