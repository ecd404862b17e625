import SqlBatch.Proofs.Config.Independence

/-! Settings that are written and read again. Every key is written, in the order of the names, and
what is written at a key is read as the value that the key had. -/

namespace SqlBatch.Config

open Json (Members)

theorem Key.readValue_write (key : Key) (c : Config) :
    key.readValue (key.write c) = .ok (c.get key) := by
  cases key with
  | backend => exact Backend.ofJson_toJson c.backend
  | database => exact Json.readOption_ofString? c.database
  | password => exact Json.readOption_ofString? c.password
  | username => exact Json.readOption_ofString? c.username
  | port =>
    change Json.readOption Json.readPort (c.port.elim .null fun p => .nat p.toNat) = .ok c.port
    cases c.port with
    | none => rfl
    | some p =>
      change (Json.readPort (.nat p.toNat)).map some = .ok (some p)
      rw [Json.readPort_nat]
      rfl
  | verbosity => exact Verbosity.ofJson_toJson c.verbosity
  | force | host | secure | serial | setDb => rfl

def members (c : Config) : Members := Key.all.map fun key => (key.name, key.write c)

theorem toJson_eq (c : Config) : c.toJson = .obj c.members := rfl

theorem sorted_members (c : Config) : c.members.Sorted := by
  have hnames : (Key.all.map Key.name).Pairwise (· < ·) := by decide
  rwa [Members.Sorted, members, List.map_map]

theorem Key.mem_all (key : Key) : key ∈ all := by
  cases key <;> decide

theorem get?_members (c : Config) (key : Key) : c.members.get? key.name = some (key.write c) :=
  c.sorted_members.get?_eq_some_iff.2 (List.mem_map_of_mem key.mem_all)

theorem ofJson_toJson (c : Config) : ofJson c.toJson = .ok c := by
  have haccepted : c.members.findSome? refusal? = none := by
    rw [List.findSome?_eq_none_iff]
    intro m hm
    obtain ⟨key, -, rfl⟩ := List.mem_map.1 hm
    rw [refusal?, ofName?_name]
    simp only [Key.readValue_write]
  obtain ⟨c', hc'⟩ := exists_ofJson_iff.2 haccepted
  have hsame : c' = c := ext_get fun key => by
    rw [get_ofJson hc', given?_of_get? c.sorted_members (c.get?_members key), Key.readValue_write]
    rfl
  rw [toJson_eq, hc', hsame]

/-- Settings are the same after they were written and read again, with all that follows from them;
so to write and read once more what was read from any value changes nothing. -/
theorem settings_survive_writing (c : Config) (v : Json) :
    (∃ members : Members, c.toJson = .obj members ∧ members.Sorted ∧
      ∀ key : Key, members.get? key.name = some (key.write c)) ∧
    (∃ c', ofJson c.toJson = .ok c' ∧ c' = c ∧ c'.effectiveHost = c.effectiveHost ∧
      c'.effectivePort = c.effectivePort ∧ c'.validate = c.validate ∧ c'.policy = c.policy) ∧
    (ofJson v >>= fun read => ofJson read.toJson) = ofJson v := by
  refine ⟨⟨c.members, rfl, c.sorted_members, c.get?_members⟩,
    ⟨c, c.ofJson_toJson, rfl, rfl, rfl, rfl, rfl⟩, ?_⟩
  cases hread : ofJson v with
  | error p => rfl
  | ok read => exact read.ofJson_toJson

end SqlBatch.Config
