import SqlBatch.Proofs.Config.Keys
import Mathlib.Data.String.Basic

/-! Settings that are read key by key. What an object makes of a key is what the member of that name
makes of it alone; an object is refused exactly when one of its members is refused alone, and then
as the first of those is. So neither the other members nor names that are no keys matter. -/

namespace SqlBatch

namespace Json.Members

instance (ms : Members) : Decidable ms.Sorted :=
  inferInstanceAs (Decidable ((ms.map Prod.fst).Pairwise (· < ·)))

variable {ms : Members} {name : String} {v : Json}

theorem Sorted.get?_eq_some_iff (h : ms.Sorted) : ms.get? name = some v ↔ (name, v) ∈ ms := by
  constructor
  · intro hget
    obtain ⟨front, behind, rfl, -⟩ := List.lookup_eq_some_iff.1 hget
    exact List.mem_append_right _ (List.mem_cons_self ..)
  · intro hmem
    obtain ⟨front, behind, rfl⟩ := List.append_of_mem hmem
    refine List.lookup_eq_some_iff.2 ⟨front, behind, rfl, fun m hm => ?_⟩
    have hlt : m.1 < name := by
      unfold Sorted at h
      rw [List.map_append, List.pairwise_append] at h
      exact h.2.2 m.1 (List.mem_map_of_mem hm) name (by simp)
    exact bne_iff_ne.2 (ne_of_gt hlt)

theorem get?_eq_none_iff : ms.get? name = none ↔ ∀ m ∈ ms, m.1 ≠ name := by
  refine List.lookup_eq_none_iff.trans (forall₂_congr fun m _ => ?_)
  rw [bne_iff_ne, ne_comm]

theorem Sorted.mem_front {front behind : Members} {m n : String × Json}
    (h : Sorted (front ++ m :: behind)) (hn : n ∈ front ++ m :: behind) (hlt : n.1 < m.1) :
    n ∈ front := by
  unfold Sorted at h
  rw [List.map_append, List.map_cons, List.pairwise_append, List.pairwise_cons] at h
  rcases List.mem_append.1 hn with hfront | hrest
  · exact hfront
  · exfalso
    rcases List.mem_cons.1 hrest with rfl | hbehind
    · exact lt_irrefl _ hlt
    · exact lt_asymm hlt (h.2.1.1 n.1 (List.mem_map_of_mem hbehind))

end Json.Members

namespace Config

open Json (Members)

def refusal? (m : String × Json) : Option Json.Mismatch :=
  match Key.ofName? m.1 with
  | none => none
  | some key =>
    match key.readValue m.2 with
    | .ok _ => none
    | .error e => some e

def alone (key : Key) (v : Json) : Except SettingProblem Config := ofJson (.obj [(key.name, v)])

section
variable {c : Config} {name : String} {v : Json} {e : Json.Mismatch}

theorem readMember_of_refusal? (h : refusal? (name, v) = some e) :
    c.readMember name v = .error e := by
  unfold refusal? at h
  split at h
  · contradiction
  · rename_i key hkey
    split at h
    · contradiction
    · rename_i e' hread
      obtain rfl : e' = e := Option.some.inj h
      rw [readMember, hkey]
      simp only [Key.read_eq, hread]
      rfl

theorem exists_readMember (h : refusal? (name, v) = none) :
    ∃ c', c.readMember name v = .ok c' := by
  unfold refusal? at h
  split at h
  · rename_i hkey
    exact ⟨c, by rw [readMember, hkey]⟩
  · rename_i key hkey
    split at h
    · rename_i x hread
      refine ⟨c.set key x, ?_⟩
      rw [readMember, hkey]
      simp only [Key.read_eq, hread]
      rfl
    · contradiction

/-- The first member that is refused decides, whatever was read in front of it. -/
theorem readMembers_of_findSome? {ms : Members} (h : ms.findSome? refusal? = some e) :
    c.readMembers ms = .error e := by
  induction ms generalizing c with
  | nil => contradiction
  | cons m ms ih =>
    obtain ⟨name, v⟩ := m
    rw [List.findSome?_cons] at h
    cases hrefusal : refusal? (name, v) with
    | some e' =>
      rw [hrefusal] at h
      obtain rfl : e' = e := Option.some.inj h
      rw [readMembers, readMember_of_refusal? hrefusal]
    | none =>
      rw [hrefusal] at h
      obtain ⟨c', hmember⟩ := exists_readMember (c := c) hrefusal
      rw [readMembers, hmember]
      exact ih h

theorem exists_readMembers {ms : Members} (h : ms.findSome? refusal? = none) :
    ∃ c', c.readMembers ms = .ok c' := by
  induction ms generalizing c with
  | nil => exact ⟨c, rfl⟩
  | cons m ms ih =>
    obtain ⟨name, v⟩ := m
    rw [List.findSome?_eq_none_iff] at h
    obtain ⟨c', hmember⟩ := exists_readMember (c := c) (h (name, v) (List.mem_cons_self ..))
    rw [readMembers, hmember]
    exact ih (List.findSome?_eq_none_iff.2 fun m hm => h m (List.mem_cons_of_mem _ hm))

end

section
variable {ms : Members} {e : Json.Mismatch} {key : Key} {v : Json}

theorem ofJson_of_findSome? (h : ms.findSome? refusal? = some e) :
    ofJson (.obj ms) = .error (.member e) := by
  rw [ofJson, readMembers_of_findSome? h]
  rfl

theorem exists_ofJson_iff : (∃ c, ofJson (.obj ms) = .ok c) ↔ ms.findSome? refusal? = none := by
  constructor
  · rintro ⟨c, hc⟩
    cases hfind : ms.findSome? refusal? with
    | none => rfl
    | some e =>
      rw [ofJson_of_findSome? hfind] at hc
      contradiction
  · intro h
    obtain ⟨c, hc⟩ := exists_readMembers (c := {}) h
    exact ⟨c, by rw [ofJson, hc]; rfl⟩

theorem findSome?_of_ofJson {p : SettingProblem} (h : ofJson (.obj ms) = .error p) :
    ∃ e, ms.findSome? refusal? = some e ∧ p = .member e := by
  cases hfind : ms.findSome? refusal? with
  | none =>
    obtain ⟨c, hc⟩ := exists_ofJson_iff.2 hfind
    rw [hc] at h
    contradiction
  | some e =>
    rw [ofJson_of_findSome? hfind] at h
    exact ⟨e, rfl, (Except.error.inj h).symm⟩

theorem get_ofJson {c : Config} (h : ofJson (.obj ms) = .ok c) (key : Key) :
    c.get key = (key.given? ms).getD (({} : Config).get key) :=
  get_readMembers (eq_ok_of_mapError h) key

theorem exists_alone_iff : (∃ c, alone key v = .ok c) ↔ refusal? (key.name, v) = none := by
  refine exists_ofJson_iff.trans ?_
  rw [List.findSome?_eq_none_iff, List.forall_mem_singleton]

theorem alone_of_refusal? (h : refusal? (key.name, v) = some e) :
    alone key v = .error (.member e) :=
  ofJson_of_findSome? (by rw [List.findSome?_cons, h])

theorem exists_key_of_refusal? {name : String} (h : refusal? (name, v) = some e) :
    ∃ key : Key, key.name = name := by
  unfold refusal? at h
  split at h
  · contradiction
  · rename_i key hkey
    exact ⟨key, name_of_ofName? hkey⟩

theorem given?_of_forall_ne (h : ∀ m ∈ ms, m.1 ≠ key.name) : key.given? ms = none := by
  induction ms with
  | nil => rfl
  | cons m ms ih =>
    obtain ⟨hname, hrest⟩ := List.forall_mem_cons.1 h
    rw [Key.given?, ih hrest, if_neg hname]
    rfl

theorem given?_of_get? (hsorted : ms.Sorted) (h : ms.get? key.name = some v) :
    key.given? ms = (key.readValue v).toOption := by
  induction ms with
  | nil => contradiction
  | cons m ms ih =>
    obtain ⟨name, w⟩ := m
    obtain ⟨hlt, hrest⟩ := List.pairwise_cons.1 hsorted
    rw [Key.given?]
    by_cases hname : name = key.name
    · subst hname
      obtain rfl : w = v := Option.some.inj (List.lookup_cons_self.symm.trans h)
      have hbehind : key.given? ms = none :=
        given?_of_forall_ne fun m hm => ne_of_gt (hlt m.1 (List.mem_map_of_mem hm))
      rw [hbehind, if_pos rfl]
      rfl
    · have hget : Members.get? ms key.name = some v := by
        rw [Members.Sorted.get?_eq_some_iff hsorted] at h
        have hmem := (List.mem_cons.1 h).resolve_left fun heq => hname (congrArg Prod.fst heq).symm
        exact (Members.Sorted.get?_eq_some_iff hrest).2 hmem
      rw [ih hrest hget, if_neg hname]
      cases (key.readValue v).toOption <;> rfl

/-- What an object makes of its keys, each by the member of its name alone. -/
structure ReadByKeys (ms : Members) : Prop where
  accepted : (∃ c, ofJson (.obj ms) = .ok c) ↔
    ∀ (key : Key) v, ms.get? key.name = some v → ∃ c, alone key v = .ok c
  given : ∀ c, ofJson (.obj ms) = .ok c → ∀ (key : Key) v, ms.get? key.name = some v →
    ∃ c', alone key v = .ok c' ∧ c.get key = c'.get key
  absent : ∀ c, ofJson (.obj ms) = .ok c → ∀ key : Key, ms.get? key.name = none →
    c.get key = ({} : Config).get key
  refused : ∀ p, ofJson (.obj ms) = .error p → ∃ (key : Key) (v : Json),
    ms.get? key.name = some v ∧ alone key v = .error p ∧
      ∀ (other : Key) w, other.name < key.name → ms.get? other.name = some w →
        ∃ c, alone other w = .ok c

theorem readByKeys (hsorted : ms.Sorted) : ReadByKeys ms where
  accepted := by
    rw [exists_ofJson_iff, List.findSome?_eq_none_iff]
    constructor
    · intro h key v hget
      exact exists_alone_iff.2 (h _ (hsorted.get?_eq_some_iff.1 hget))
    · rintro h ⟨name, v⟩ hmem
      cases hrefusal : refusal? (name, v) with
      | none => rfl
      | some e =>
        obtain ⟨key, rfl⟩ := exists_key_of_refusal? hrefusal
        have hnone := exists_alone_iff.1 (h key v (hsorted.get?_eq_some_iff.2 hmem))
        rw [hnone] at hrefusal
        contradiction
  given := by
    intro c hc key v hget
    have hnone := exists_ofJson_iff.1 ⟨c, hc⟩
    rw [List.findSome?_eq_none_iff] at hnone
    obtain ⟨c', hc'⟩ := exists_alone_iff.2 (hnone _ (hsorted.get?_eq_some_iff.1 hget))
    refine ⟨c', hc', ?_⟩
    have hone : Members.Sorted [(key.name, v)] := List.pairwise_singleton _ _
    rw [get_ofJson hc, get_ofJson hc', given?_of_get? hsorted hget,
      given?_of_get? hone List.lookup_cons_self]
  absent := by
    intro c hc key hget
    rw [get_ofJson hc, given?_of_forall_ne (Members.get?_eq_none_iff.1 hget)]
    rfl
  refused := by
    intro p hp
    obtain ⟨e, hfind, rfl⟩ := findSome?_of_ofJson hp
    obtain ⟨front, ⟨name, v⟩, behind, rfl, hrefusal, hfront⟩ := List.findSome?_eq_some_iff.1 hfind
    obtain ⟨key, rfl⟩ := exists_key_of_refusal? hrefusal
    refine ⟨key, v, hsorted.get?_eq_some_iff.2 (by simp), alone_of_refusal? hrefusal, ?_⟩
    intro other w hlt hget
    have hmem := hsorted.mem_front (hsorted.get?_eq_some_iff.1 hget) hlt
    exact exists_alone_iff.2 (hfront _ hmem)

namespace ReadByKeys
variable {others : Members} {c c' : Config} {p p' : SettingProblem}

theorem eq_of_ok (h : ReadByKeys ms) (h' : ReadByKeys others)
    (hget : ∀ key : Key, others.get? key.name = ms.get? key.name)
    (hc : ofJson (.obj ms) = .ok c) (hc' : ofJson (.obj others) = .ok c') : c' = c := by
  refine ext_get fun key => ?_
  cases hv : ms.get? key.name with
  | none => rw [h.absent c hc key hv, h'.absent c' hc' key ((hget key).trans hv)]
  | some v =>
    obtain ⟨one, hone, hvalue⟩ := h.given c hc key v hv
    obtain ⟨one', hone', hvalue'⟩ := h'.given c' hc' key v ((hget key).trans hv)
    obtain rfl : one = one' := Except.ok.inj (hone.symm.trans hone')
    rw [hvalue, hvalue']

theorem eq_of_error (h : ReadByKeys ms) (h' : ReadByKeys others)
    (hget : ∀ key : Key, others.get? key.name = ms.get? key.name)
    (hp : ofJson (.obj ms) = .error p) (hp' : ofJson (.obj others) = .error p') : p' = p := by
  obtain ⟨key, v, hv, halone, hbefore⟩ := h.refused p hp
  obtain ⟨key', v', hv', halone', hbefore'⟩ := h'.refused p' hp'
  rcases lt_trichotomy key.name key'.name with hlt | heq | hgt
  · obtain ⟨c, hc⟩ := hbefore' key v hlt ((hget key).trans hv)
    rw [hc] at halone
    contradiction
  · obtain rfl := Key.name_injective heq
    obtain rfl : v = v' := Option.some.inj (hv.symm.trans ((hget key).symm.trans hv'))
    exact Except.error.inj (halone'.symm.trans halone)
  · obtain ⟨c, hc⟩ := hbefore key' v' hgt ((hget key').symm.trans hv')
    rw [hc] at halone'
    contradiction

theorem ok_of_ok (h : ReadByKeys ms) (h' : ReadByKeys others)
    (hget : ∀ key : Key, others.get? key.name = ms.get? key.name)
    (hc : ofJson (.obj ms) = .ok c) : ∃ c', ofJson (.obj others) = .ok c' :=
  h'.accepted.2 fun key v hv => h.accepted.1 ⟨c, hc⟩ key v ((hget key).symm.trans hv)

theorem ofJson_eq (h : ReadByKeys ms) (h' : ReadByKeys others)
    (hget : ∀ key : Key, others.get? key.name = ms.get? key.name) :
    ofJson (.obj others) = ofJson (.obj ms) := by
  cases hms : ofJson (.obj ms) with
  | ok c =>
    obtain ⟨c', hc'⟩ := h.ok_of_ok h' hget hms
    rw [hc', h.eq_of_ok h' hget hms hc']
  | error p =>
    cases hothers : ofJson (.obj others) with
    | ok c' =>
      obtain ⟨c, hc⟩ := h'.ok_of_ok h (fun key => (hget key).symm) hothers
      rw [hms] at hc
      contradiction
    | error p' => rw [h.eq_of_error h' hget hms hothers]

end ReadByKeys
end

/-- An object is read key by key: each key has the value that the member of its name gives to it
alone, or else its default, and the first key in the order of names that is refused alone is the
reason for which the whole is. Members of other names do not matter. What is no object is
refused. -/
theorem ofJson_reads_by_keys {ms : Members} (hsorted : ms.Sorted) :
    ReadByKeys ms ∧
    (∀ others : Members, others.Sorted → (∀ key : Key, others.get? key.name = ms.get? key.name) →
      ofJson (.obj others) = ofJson (.obj ms)) ∧
    ∀ v : Json, (∀ members, v ≠ .obj members) → ∃ p, ofJson v = .error p ∧
      (Failure.configuration p).message =
        "Configuration error: configuration must be a JSON object, got " ++ v.text := by
  have h : ReadByKeys ms := readByKeys hsorted
  refine ⟨h, fun others hothers hget => h.ofJson_eq (readByKeys hothers) hget, fun v hv => ?_⟩
  have hrefused : ofJson v = .error (.notObject v) := by
    cases v with
    | obj members => exact absurd rfl (hv members)
    | _ => rfl
  exact ⟨.notObject v, hrefused, String.append_assoc.symm⟩

def twoFaults : Members := [("colour", .str "green"), ("host", .null), ("port", .int 65536)]

theorem ofJson_reads_by_keys_twoFaults : twoFaults.Sorted ∧
    ofJson (.obj twoFaults) = alone .host .null ∧
    ofJson (.obj [("host", .null), ("port", .int 65536)]) = ofJson (.obj twoFaults) := by
  have hsorted : twoFaults.Sorted := by decide
  obtain ⟨hkeys, hothers, -⟩ := ofJson_reads_by_keys hsorted
  refine ⟨hsorted, ?_, hothers _ (by decide) fun key => by cases key <;> rfl⟩
  obtain ⟨key, v, hv, halone, hbefore⟩ := hkeys.refused _ rfl
  cases key with
  | host =>
    obtain rfl : .null = v := Option.some.inj hv
    exact halone.symm
  | port =>
    obtain ⟨c, hc⟩ := hbefore .host .null (by decide) rfl
    exact nomatch hc
  | _ => exact nomatch hv

end Config
end SqlBatch
