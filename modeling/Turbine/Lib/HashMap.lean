import Mathlib.Data.List.AList
import Mathlib.Data.List.Perm.Subperm

/-!
# Hash maps with an iteration order

A hash map is an association list with distinct keys.  The order of its entries is
the order in which one iteration over it would visit them: a statement about every
`HashMap` is a statement about every map *and* every order of iterating it.

Mathlib's `AList` has the lookups and the insertion; what it lacks is `retain`.
-/

namespace Turbine

/-- A hash map, together with the order in which it is iterated. -/
abbrev HashMap (κ ν : Type*) := AList fun _ : κ => ν

namespace HashMap

variable {κ ν : Type*} [DecidableEq κ]

/-- Filtering by a condition on keys, seen by a lookup. -/
theorem dlookup_filter_key (p : κ → Bool) (a : κ) (l : List (Σ _ : κ, ν)) :
    (l.filter fun e => p e.1).dlookup a = if p a then l.dlookup a else none := by
  induction l with
  | nil => simp
  | cons e l ih =>
    obtain ⟨b, v⟩ := e
    by_cases hab : a = b
    · subst hab
      cases hp : p a with
      | true => simp [hp]
      | false => simpa [List.filter_cons, hp] using ih
    · rw [List.dlookup_cons_ne l _ hab, ← ih, List.filter_cons]
      split
      · exact List.dlookup_cons_ne _ _ hab
      · rfl

theorem dlookup_cons_eq_none {a b : κ} {v : ν} {l : List (Σ _ : κ, ν)}
    (h : (⟨a, v⟩ :: l : List (Σ _ : κ, ν)).dlookup b = none) : b ≠ a ∧ l.dlookup b = none := by
  rw [List.dlookup_eq_none, List.keys_cons, List.mem_cons, not_or] at h
  exact ⟨h.1, List.dlookup_eq_none.mpr h.2⟩

/-- `HashMap::retain`, with a condition on keys. -/
def retain (p : κ → Bool) (m : HashMap κ ν) : HashMap κ ν :=
  ⟨m.entries.filter fun e => p e.1, m.nodupKeys.sublist List.filter_sublist⟩

theorem lookup_retain (p : κ → Bool) (a : κ) (m : HashMap κ ν) :
    (retain p m).lookup a = if p a then m.lookup a else none :=
  dlookup_filter_key p a m.entries

/-- The entries of a map are what its lookups find. -/
theorem mem_entries_iff {m : HashMap κ ν} {a : κ} {v : ν} :
    (⟨a, v⟩ : Σ _ : κ, ν) ∈ m.entries ↔ m.lookup a = some v :=
  (AList.mem_lookup_iff (s := m)).symm

/-- Of the entries those with such a value. -/
def retainValues (p : ν → Bool) (m : HashMap κ ν) : HashMap κ ν :=
  ⟨m.entries.filter fun e => p e.2, m.nodupKeys.sublist List.filter_sublist⟩

theorem lookup_retainValues {p : ν → Bool} {m : HashMap κ ν} {a : κ} {v : ν} :
    (retainValues p m).lookup a = some v ↔ m.lookup a = some v ∧ p v = true := by
  rw [← mem_entries_iff, ← mem_entries_iff, retainValues, List.mem_filter]

/-- A map has no more entries than a list that has all its keys. -/
theorem length_entries_le {m : HashMap κ ν} {l : List κ} (h : ∀ a v, m.lookup a = some v → a ∈ l) :
    m.entries.length ≤ l.length := by
  have hsubset : m.entries.keys ⊆ l := by
    intro a ha
    obtain ⟨v, hv⟩ := Option.isSome_iff_exists.mp (AList.lookup_isSome.mpr ha)
    exact h a v hv
  have hnodup : m.entries.keys.Nodup := m.nodupKeys
  have hle := (List.subperm_of_subset hnodup hsubset).length_le
  rwa [List.keys, List.length_map] at hle

/-- An insertion changes nothing exactly if the entry is there already. -/
theorem lookup_insert_eq_iff {m : HashMap κ ν} {a : κ} {v : ν} :
    (∀ k, (m.insert a v).lookup k = m.lookup k) ↔ m.lookup a = some v := by
  constructor
  · intro h
    rw [← h a, AList.lookup_insert]
  · intro h k
    by_cases hk : k = a
    · rw [hk, AList.lookup_insert, h]
    · exact AList.lookup_insert_ne hk

/-! ## What a map still has after insertions -/

/-- The lookups find all these entries. -/
def Holds (m : HashMap κ ν) (l : List (κ × ν)) : Prop := ∀ x ∈ l, m.lookup x.1 = some x.2

theorem holds_append {m : HashMap κ ν} {l l' : List (κ × ν)} :
    Holds m (l ++ l') ↔ Holds m l ∧ Holds m l' := by
  simp only [Holds, List.mem_append, or_imp, forall_and]

/-- An insertion of a value that is nowhere among the entries leaves them in place exactly if
it does not overwrite one of them. -/
theorem holds_insert {m : HashMap κ ν} {l : List (κ × ν)} {a : κ} {v : ν}
    (hv : v ∉ l.map Prod.snd) :
    Holds (m.insert a v) l ↔ Holds m l ∧ a ∉ l.map Prod.fst := by
  constructor
  · intro h
    have hne : ∀ x ∈ l, x.1 ≠ a := by
      rintro x hx rfl
      have hlookup := h x hx
      rw [AList.lookup_insert] at hlookup
      exact hv (Option.some.inj hlookup ▸ List.mem_map_of_mem hx)
    refine ⟨fun x hx => ?_, fun hmem => ?_⟩
    · rw [← AList.lookup_insert_ne (hne x hx)]
      exact h x hx
    · obtain ⟨x, hx, heq⟩ := List.mem_map.mp hmem
      exact hne x hx heq
  · rintro ⟨h, ha⟩ x hx
    have hne : x.1 ≠ a := fun heq => ha (heq ▸ List.mem_map_of_mem hx)
    rw [AList.lookup_insert_ne hne]
    exact h x hx

/-- And then the new entry is there too. -/
theorem holds_insert_snoc {m : HashMap κ ν} {l : List (κ × ν)} {a : κ} {v : ν}
    (hv : v ∉ l.map Prod.snd) :
    Holds (m.insert a v) (l ++ [(a, v)]) ↔ Holds m l ∧ a ∉ l.map Prod.fst := by
  have hnew : Holds (m.insert a v) [(a, v)] := by
    intro x hx
    rw [List.mem_singleton.mp hx]
    exact AList.lookup_insert m
  rw [holds_append, holds_insert hv]
  exact and_iff_left hnew

end HashMap
end Turbine
