import Mathlib.Data.List.Induction
import Mathlib.Data.List.Nodup
import Mathlib.Data.List.Perm.Subperm
import TraceRepair.Mapping.Bijection

namespace TraceRepair.SortedMap

variable {κ α : Type} [Ord κ] [Std.LawfulEqOrd κ]

theorem mem_of_seek? {key : κ} {value : α} {l : List (κ × α)} (h : seek? key l = some value) :
    (key, value) ∈ l := by
  induction l with
  | nil => cases h
  | cons hd tl ih =>
    obtain ⟨other, held⟩ := hd
    unfold seek? at h
    split at h
    · cases h
    · rename_i heq
      cases h
      rw [Std.LawfulEqCmp.eq_of_compare heq]
      exact List.mem_cons_self
    · exact List.mem_cons_of_mem _ (ih h)

theorem mem_values_of_find? {m : SortedMap κ α} {key : κ} {value : α}
    (h : m.find? key = some value) : value ∈ m.values :=
  List.mem_map.mpr ⟨(key, value), mem_of_seek? h, rfl⟩

variable [Std.TransOrd κ]

/-- The search gets past the smaller keys that stand before the one it looks for. -/
theorem seek?_of_mem {key : κ} {value : α} {l : List (κ × α)}
    (ascending : l.Pairwise fun a b => compare a.1 b.1 = .lt) (h : (key, value) ∈ l) :
    seek? key l = some value := by
  induction l with
  | nil => cases h
  | cons hd tl ih =>
    obtain ⟨other, held⟩ := hd
    obtain ⟨first, later⟩ := List.pairwise_cons.mp ascending
    rcases List.mem_cons.mp h with h | h
    · obtain ⟨rfl, rfl⟩ := Prod.mk.inj h
      simp [seek?]
    · have hgt : compare key other = .gt := Std.OrientedCmp.gt_of_lt (first _ h)
      simp only [seek?, hgt]
      exact ih later h

/-- A map finds exactly its entries. -/
theorem find?_eq_some_iff {m : SortedMap κ α} {key : κ} {value : α} :
    m.find? key = some value ↔ (key, value) ∈ m.entries :=
  ⟨mem_of_seek?, seek?_of_mem m.ascending⟩

theorem find?_isSome_iff {m : SortedMap κ α} {key : κ} :
    (m.find? key).isSome = true ↔ key ∈ m.keys := by
  rw [Option.isSome_iff_exists, keys, List.mem_map]
  constructor
  · rintro ⟨value, h⟩
    exact ⟨(key, value), find?_eq_some_iff.mp h, rfl⟩
  · rintro ⟨⟨_, value⟩, h, rfl⟩
    exact ⟨value, find?_eq_some_iff.mpr h⟩

omit [Std.TransOrd κ] in
theorem nodup_keys (m : SortedMap κ α) : m.keys.Nodup := by
  refine List.Pairwise.map Prod.fst (fun a b h he => ?_) m.ascending
  rw [he, Std.ReflOrd.compare_self] at h
  cases h

/-- Both lists are in order and hold the same entries. -/
theorem ext_find? {m n : SortedMap κ α} (h : ∀ key, m.find? key = n.find? key) : m = n := by
  have perm : m.entries.Perm n.entries := by
    refine (List.perm_ext_iff_of_nodup (nodup_keys m).of_map (nodup_keys n).of_map).mpr ?_
    rintro ⟨key, value⟩
    rw [← find?_eq_some_iff, ← find?_eq_some_iff, h key]
  have same : m.entries = n.entries := by
    refine perm.eq_of_pairwise (fun a b _ _ hab hba => ?_) m.ascending n.ascending
    rw [Std.OrientedCmp.gt_of_lt hab] at hba
    cases hba
  cases m
  cases n
  congr

theorem ofList_concat (l : List (κ × α)) (key : κ) (value : α) :
    ofList (l ++ [(key, value)]) = (ofList l).insert key value := by
  simp [ofList, List.foldl_append]

theorem mem_of_mem_ofList {l : List (κ × α)} {e : κ × α} (member : e ∈ (ofList l).entries) :
    e ∈ l := by
  induction l using List.reverseRecOn with
  | nil => cases member
  | append_singleton l last ih =>
    obtain ⟨key, value⟩ := last
    rw [ofList_concat] at member
    rcases mem_insertEntry member with rfl | member
    · exact List.mem_append_right l List.mem_cons_self
    · exact List.mem_append_left _ (ih member)

/-- In a list without repeated keys each entry is found. -/
theorem find?_ofList {l : List (κ × α)} (unique : (l.map Prod.fst).Nodup) {key : κ} {value : α} :
    (ofList l).find? key = some value ↔ (key, value) ∈ l := by
  induction l using List.reverseRecOn with
  | nil => exact ⟨nofun, nofun⟩
  | append_singleton l e ih =>
    obtain ⟨last, held⟩ := e
    rw [List.map_append, List.nodup_append] at unique
    obtain ⟨unique, -, apart⟩ := unique
    rw [ofList_concat, List.mem_append, List.mem_singleton]
    by_cases hkey : key = last
    · subst hkey
      have absent : (key, value) ∉ l := by
        intro hm
        exact apart key (List.mem_map.mpr ⟨_, hm, rfl⟩) key (by simp) rfl
      simp [absent, eq_comm]
    · simp [find?_insert_of_ne hkey, ih unique, hkey]

theorem ofList_entries (m : SortedMap κ α) : ofList m.entries = m := by
  refine ext_find? fun key => Option.ext fun value => ?_
  rw [find?_ofList (nodup_keys m), find?_eq_some_iff]

omit [Std.TransOrd κ] [Std.LawfulEqOrd κ] in
theorem ascending_keys (m : SortedMap κ α) : m.keys.Pairwise fun a b => compare a b = .lt := by
  rw [keys, List.pairwise_map]
  exact m.ascending

section Keys

variable {β : Type} {m : SortedMap κ α} {n : SortedMap κ β}

omit [Std.TransOrd κ] [Std.LawfulEqOrd κ] in
theorem length_keys (m : SortedMap κ α) : m.keys.length = m.size := List.length_map _

omit [Std.LawfulEqOrd κ] in
/-- Ascending keys can only stand in one order. -/
theorem keys_eq_of_perm (perm : m.keys.Perm n.keys) : m.keys = n.keys := by
  refine perm.eq_of_pairwise (fun a b _ _ hab hba => ?_) m.ascending_keys n.ascending_keys
  rw [Std.OrientedCmp.gt_of_lt hab] at hba
  cases hba

/-- Both lists are in order and hold the same keys. -/
theorem keys_eq_of_contains (h : ∀ key, m.contains key = n.contains key) : m.keys = n.keys := by
  refine keys_eq_of_perm ?_
  refine (List.perm_ext_iff_of_nodup (nodup_keys m) (nodup_keys n)).mpr fun key => ?_
  rw [← find?_isSome_iff, ← find?_isSome_iff]
  exact Bool.eq_iff_iff.mp (h key)

/-- Where there are no more keys than were found, none is left over. -/
theorem keys_eq_of_subset (size : m.size = n.size) (h : m.keys ⊆ n.keys) : m.keys = n.keys := by
  refine keys_eq_of_perm (((nodup_keys m).subperm h).perm_of_length_le (Nat.le_of_eq ?_))
  rw [length_keys, length_keys, size]

end Keys

omit [Std.TransOrd κ] [Std.LawfulEqOrd κ] in
/-- The last key is one of the keys, and all others come before it. -/
theorem lastKey?_greatest {m : SortedMap κ α} {last : κ} (h : m.lastKey? = some last) :
    last ∈ m.keys ∧ ∀ key ∈ m.keys, key = last ∨ compare key last = .lt := by
  have ends : m.keys.getLast? = some last := by
    rw [keys, List.getLast?_map]
    exact h
  obtain ⟨front, split⟩ := List.getLast?_eq_some_iff.mp ends
  have ordered := m.ascending_keys
  rw [split, List.pairwise_append] at ordered
  rw [split]
  refine ⟨List.mem_append_right _ List.mem_cons_self, fun key member => ?_⟩
  rcases List.mem_append.mp member with before | here
  · exact .inr (ordered.2.2 key before last List.mem_cons_self)
  · exact .inl (List.mem_singleton.mp here)

theorem find?_erase_self (m : SortedMap κ α) (key : κ) : (m.erase key).find? key = none := by
  refine Option.eq_none_iff_forall_ne_some.mpr fun value found => ?_
  have kept := (List.mem_filter.mp (find?_eq_some_iff.mp found)).2
  simp at kept

/-- Other keys are found as before. -/
theorem find?_erase_of_ne {key other : κ} (hne : other ≠ key) (m : SortedMap κ α) :
    (m.erase key).find? other = m.find? other := by
  have kept : (compare key other != .eq) = true :=
    bne_iff_ne.mpr fun h => hne (Std.LawfulEqCmp.eq_of_compare h).symm
  refine Option.ext fun value => ?_
  rw [find?_eq_some_iff, find?_eq_some_iff, erase, List.mem_filter]
  exact and_iff_left kept

theorem contains_insert_self (m : SortedMap κ α) (key : κ) (value : α) :
    (m.insert key value).contains key = true := by
  rw [contains, find?_insert_self]
  rfl

theorem contains_erase_self (m : SortedMap κ α) (key : κ) : (m.erase key).contains key = false := by
  rw [contains, find?_erase_self]
  rfl

theorem erase_of_absent {m : SortedMap κ α} {key : κ} (absent : m.find? key = none) :
    m.erase key = m := by
  refine ext_find? fun other => ?_
  by_cases hkey : other = key
  · rw [hkey, find?_erase_self, absent]
  · exact find?_erase_of_ne hkey m

end TraceRepair.SortedMap

namespace TraceRepair.Bijection

theorem pair_of_find? {b : Bijection} {v w : Variable} (h : b.find? v = some w) :
    ∃ p ∈ b.pairs, p.1.unprimedName = v.unprimedName ∧ p.2 = w := by
  obtain ⟨p, hp, rfl⟩ := Option.map_eq_some_iff.mp h
  exact ⟨p, SortedMap.mem_values_of_find? hp, unprimedName_of_seek b.keyed hp, rfl⟩

theorem entries_ofPairs (pairs : List (Variable × Variable)) :
    (ofPairs pairs).entries = SortedMap.ofList (pairs.map fun p => (p.1.unprimedName, p)) := by
  induction pairs using List.reverseRecOn with
  | nil => rfl
  | append_singleton pairs last ih =>
    rw [List.map_append, List.map_singleton, SortedMap.ofList_concat, ← ih, ofPairs,
      List.foldl_append]
    rfl

theorem mem_of_mem_ofPairs {pairs : List (Variable × Variable)} {p : Variable × Variable}
    (h : p ∈ (ofPairs pairs).pairs) : p ∈ pairs := by
  obtain ⟨e, he, rfl⟩ := List.mem_map.mp h
  rw [entries_ofPairs] at he
  obtain ⟨p, hp, rfl⟩ := List.mem_map.mp (SortedMap.mem_of_mem_ofList he)
  exact hp

/-- Pairs with names of their own are all kept. -/
theorem mem_pairs_ofPairs {pairs : List (Variable × Variable)}
    (unique : (pairs.map fun p => p.1.unprimedName).Nodup) {p : Variable × Variable} :
    p ∈ (ofPairs pairs).pairs ↔ p ∈ pairs := by
  refine ⟨mem_of_mem_ofPairs, fun h => ?_⟩
  have keys : ((pairs.map fun p => (p.1.unprimedName, p)).map Prod.fst).Nodup := by
    rwa [List.map_map]
  have found := (SortedMap.find?_ofList keys).mpr (List.mem_map_of_mem h)
  rw [← entries_ofPairs] at found
  exact SortedMap.mem_values_of_find? found

/-- Two pairs never share the name of their reference variables. -/
theorem nodup_pairs (b : Bijection) : (b.pairs.map fun p => p.1.unprimedName).Nodup := by
  have named : (b.pairs.map fun p => p.1.unprimedName) = b.entries.keys := by
    rw [pairs, SortedMap.values, List.map_map]
    exact List.map_congr_left b.keyed
  rw [named]
  exact SortedMap.nodup_keys b.entries

end TraceRepair.Bijection
