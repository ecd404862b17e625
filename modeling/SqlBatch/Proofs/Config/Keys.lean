import SqlBatch.Config
import SqlBatch.Proofs.Except

/-! Settings by their keys: what a key can be set to, its value in a configuration, and the value
that the members of an object give to it. -/

namespace SqlBatch.Config

namespace Key

def Value : Key → Type
  | backend => Backend
  | host => String
  | port => Option UInt16
  | verbosity => Verbosity
  | database | password | username => Option String
  | force | secure | serial | setDb => Bool

instance : (key : Key) → DecidableEq key.Value
  | backend => inferInstanceAs (DecidableEq Backend)
  | host => inferInstanceAs (DecidableEq String)
  | port => inferInstanceAs (DecidableEq (Option UInt16))
  | verbosity => inferInstanceAs (DecidableEq Verbosity)
  | database | password | username => inferInstanceAs (DecidableEq (Option String))
  | force | secure | serial | setDb => inferInstanceAs (DecidableEq Bool)

def readValue : (key : Key) → Json → Except Json.Mismatch key.Value
  | backend => Backend.ofJson
  | host => Json.readString
  | port => Json.readOption Json.readPort
  | verbosity => Verbosity.ofJson
  | database | password | username => Json.readOption Json.readString
  | force | secure | serial | setDb => Json.readBool

/-- The value that the members of an object give to the key: the last one of its name counts. -/
def given? (key : Key) : Json.Members → Option key.Value
  | [] => none
  | (name, v) :: ms =>
    key.given? ms <|> if name = key.name then (key.readValue v).toOption else none

theorem name_injective : Function.Injective name := by
  intro a b h
  cases a <;> cases b <;> first | rfl | simp [name] at h

end Key

variable {c c' : Config} {key : Key}

def get (c : Config) : (key : Key) → key.Value
  | .backend => c.backend
  | .database => c.database
  | .force => c.force
  | .host => c.host
  | .password => c.password
  | .port => c.port
  | .secure => c.secure
  | .serial => c.serial
  | .setDb => c.setDb
  | .username => c.username
  | .verbosity => c.verbosity

def set (c : Config) : (key : Key) → key.Value → Config
  | .backend, x => { c with backend := x }
  | .database, x => { c with database := x }
  | .force, x => { c with force := x }
  | .host, x => { c with host := x }
  | .password, x => { c with password := x }
  | .port, x => { c with port := x }
  | .secure, x => { c with secure := x }
  | .serial, x => { c with serial := x }
  | .setDb, x => { c with setDb := x }
  | .username, x => { c with username := x }
  | .verbosity, x => { c with verbosity := x }

@[simp] theorem get_set (c : Config) (key : Key) (x : key.Value) : (c.set key x).get key = x := by
  cases key <;> rfl

theorem get_set_of_ne {other : Key} (h : key ≠ other) (c : Config) (x : key.Value) :
    (c.set key x).get other = c.get other := by
  cases key <;> cases other <;> first | rfl | exact absurd rfl h

theorem ext_get (h : ∀ key, c.get key = c'.get key) : c = c' := by
  cases c
  cases c'
  rw [mk.injEq]
  exact ⟨h .backend, h .username, h .password, h .host, h .port, h .database, h .verbosity,
    h .force, h .serial, h .setDb, h .secure⟩

theorem Key.read_eq (key : Key) (v : Json) :
    key.read v = (key.readValue v).map fun x c => c.set key x := by
  cases key <;> rfl

theorem ofName?_name (key : Key) : Key.ofName? key.name = some key := by
  cases key <;> decide

theorem name_of_ofName? {name : String} (h : Key.ofName? name = some key) : key.name = name := by
  simpa using List.find?_some h

theorem get_readMember {name : String} {v : Json} (h : c.readMember name v = .ok c')
    (key : Key) : c'.get key =
      (if name = key.name then (key.readValue v).toOption else none).getD (c.get key) := by
  unfold readMember at h
  cases hname : Key.ofName? name with
  | none =>
    obtain rfl : c = c' := by simpa [hname] using h
    have hne : name ≠ key.name := by
      rintro rfl
      rw [ofName?_name] at hname
      contradiction
    rw [if_neg hne]
    rfl
  | some found =>
    obtain rfl : found.name = name := name_of_ofName? hname
    simp only [hname, Key.read_eq] at h
    obtain ⟨change, hchange, rfl⟩ := exists_of_map_eq_ok h
    obtain ⟨x, hv, rfl⟩ := exists_of_map_eq_ok hchange
    by_cases hkey : found = key
    · subst hkey
      simp [hv, Except.toOption]
    · rw [if_neg fun hnames => hkey (Key.name_injective hnames), get_set_of_ne hkey]
      rfl

theorem get_readMembers {ms : Json.Members} (h : c.readMembers ms = .ok c') (key : Key) :
    c'.get key = (key.given? ms).getD (c.get key) := by
  induction ms generalizing c with
  | nil =>
    obtain rfl : c = c' := Except.ok.inj h
    rfl
  | cons m ms ih =>
    obtain ⟨name, v⟩ := m
    unfold readMembers at h
    cases hmember : c.readMember name v with
    | error e => simp [hmember] at h
    | ok next =>
      rw [hmember] at h
      rw [ih h, get_readMember hmember, Key.given?]
      cases key.given? ms <;> rfl

theorem exists_of_ofBytes {bytes : List UInt8} (h : ofBytes bytes = .ok c) :
    ∃ text ms, Text.Utf8.decode? bytes = some text ∧ Json.parse text = .ok (.obj ms) ∧
      readMembers {} ms = .ok c := by
  unfold ofBytes at h
  split at h
  · contradiction
  · rename_i text htext
    split at h
    · contradiction
    · rename_i v hparse
      have hv : ofJson v = .ok c := eq_ok_of_mapError h
      cases v with
      | obj ms => exact ⟨text, ms, htext, hparse, eq_ok_of_mapError hv⟩
      | _ => exact nomatch hv

end SqlBatch.Config
