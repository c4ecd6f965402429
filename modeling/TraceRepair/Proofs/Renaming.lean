import Mathlib.Data.Set.Function
import TraceRepair.Execution
import TraceRepair.Proofs.Calls
import TraceRepair.Proofs.Lookup

namespace TraceRepair

namespace SortedMap

section Values

variable {κ α β : Type} [Ord κ]

def mapEntries (f : κ → α → β) (m : SortedMap κ α) : SortedMap κ β where
  entries := m.entries.map fun e => (e.1, f e.1 e.2)
  ascending := by
    rw [List.pairwise_map]
    exact m.ascending

variable [Std.LawfulEqOrd κ]

theorem find?_mapEntries (f : κ → α → β) (m : SortedMap κ α) (key : κ) :
    (m.mapEntries f).find? key = (m.find? key).map (f key) := by
  unfold find? mapEntries
  dsimp only
  induction m.entries with
  | nil => rfl
  | cons e l ih =>
    simp only [List.map_cons, seek?]
    cases h : compare key e.1 with
    | lt => rfl
    | eq => rw [Std.LawfulEqCmp.eq_of_compare h, Option.map_some]
    | gt => exact ih

theorem find?_mapValues (f : α → β) (m : SortedMap κ α) (key : κ) :
    (m.mapValues f).find? key = (m.find? key).map f :=
  find?_mapEntries (fun _ => f) m key

end Values

section Keys

variable {κ ι α : Type} [Ord κ] [Std.TransOrd κ] [Std.LawfulEqOrd κ] [Ord ι] [Std.TransOrd ι]
  [Std.LawfulEqOrd ι]

/-- The entries under other keys; where two keys become one, the later entry stays. -/
def mapKeys (f : κ → ι) (m : SortedMap κ α) : SortedMap ι α :=
  ofList (m.entries.map fun e => (f e.1, e.2))

def KeysIn (m : SortedMap κ α) (domain : Set κ) : Prop := ∀ key ∈ m.keys, key ∈ domain

omit [Std.TransOrd κ] [Std.LawfulEqOrd κ] in
theorem keysIn_empty (domain : Set κ) : (empty : SortedMap κ α).KeysIn domain := by
  intro key h
  cases h

theorem KeysIn.mem {m : SortedMap κ α} {domain : Set κ} (h : m.KeysIn domain) {key : κ} {value : α}
    (found : m.find? key = some value) : key ∈ domain :=
  h key (find?_isSome_iff.mp (found ▸ rfl))

theorem KeysIn.insert {m : SortedMap κ α} {domain : Set κ} (h : m.KeysIn domain) {key : κ}
    (hk : key ∈ domain) (value : α) : (m.insert key value).KeysIn domain := by
  intro other ho
  by_cases hne : other = key
  · exact hne ▸ hk
  · rw [← find?_isSome_iff, find?_insert_of_ne hne] at ho
    exact h other (find?_isSome_iff.mp ho)

variable {f : κ → ι} {domain : Set κ} (hf : Set.InjOn f domain) {m : SortedMap κ α}
  (hm : m.KeysIn domain)
include hf hm

theorem find?_mapKeys_iff {key : ι} {value : α} :
    (m.mapKeys f).find? key = some value ↔ ∃ k, m.find? k = some value ∧ f k = key := by
  have unique : ((m.entries.map fun e => (f e.1, e.2)).map Prod.fst).Nodup := by
    have := (nodup_keys m).map_on fun a ha b hb => hf (hm a ha) (hm b hb)
    rw [keys, List.map_map] at this
    rw [List.map_map]
    exact this
  rw [mapKeys, find?_ofList unique, List.mem_map]
  constructor
  · rintro ⟨⟨k, _⟩, he, h⟩
    obtain ⟨rfl, rfl⟩ := Prod.mk.inj h
    exact ⟨k, find?_eq_some_iff.mpr he, rfl⟩
  · rintro ⟨k, hk, rfl⟩
    exact ⟨(k, value), find?_eq_some_iff.mp hk, rfl⟩

/-- Keys that are told apart find their own values. -/
theorem find?_mapKeys {key : κ} (hk : key ∈ domain) :
    (m.mapKeys f).find? (f key) = m.find? key := by
  refine Option.ext fun value => ?_
  rw [find?_mapKeys_iff hf hm]
  constructor
  · rintro ⟨k, found, same⟩
    exact hf (hm.mem found) hk same ▸ found
  · exact fun found => ⟨key, found, rfl⟩

theorem mapKeys_insert {key : κ} (hk : key ∈ domain) (value : α) :
    (m.insert key value).mapKeys f = (m.mapKeys f).insert (f key) value := by
  refine ext_find? fun other => ?_
  by_cases ho : ∃ k ∈ domain, f k = other
  · obtain ⟨k, hkd, rfl⟩ := ho
    rw [find?_mapKeys hf (hm.insert hk value) hkd]
    by_cases hne : k = key
    · rw [hne, find?_insert_self, find?_insert_self]
    · rw [find?_insert_of_ne hne, find?_insert_of_ne fun h => hne (hf hkd hk h),
        find?_mapKeys hf hm hkd]
  · -- Nothing is held under a key that no key of the domain becomes.
    have outside : ∀ {n : SortedMap κ α}, n.KeysIn domain → (n.mapKeys f).find? other = none := by
      intro n hn
      refine Option.eq_none_iff_forall_not_mem.mpr fun v hv => ho ?_
      obtain ⟨k, found, same⟩ := (find?_mapKeys_iff hf hn).mp hv
      exact ⟨k, hn.mem found, same⟩
    rw [outside (hm.insert hk value), find?_insert_of_ne fun h => ho ⟨key, hk, h.symm⟩, outside hm]

end Keys

end SortedMap

/-- Other names for the variables of a function and other numbers for its locations, told apart on
all that the function mentions. Reserved variables keep their names. -/
structure Renaming where
  names : Set String
  name : String → String
  name_injOn : Set.InjOn name names
  reserved : ∀ x ∈ Reserved.all, x ∈ names ∧ name x = x
  places : Set Loc
  place : Loc → Loc
  place_injOn : Set.InjOn place places

namespace Renaming

def identity : Renaming where
  names := Set.univ
  name x := x
  name_injOn _ _ _ _ h := h
  reserved _ _ := ⟨trivial, rfl⟩
  places := Set.univ
  place loc := loc
  place_injOn _ _ _ _ h := h

theorem stream_mem (r : Renaming) {stream : String} (h : stream ∈ streams) : stream ∈ r.names := by
  rcases mem_streams.mp h with rfl | rfl <;> exact (r.reserved _ (by decide)).1

/-- Streams are reserved, so they keep their names. -/
theorem name_stream (r : Renaming) {stream : String} (h : stream ∈ streams) :
    r.name stream = stream := by
  rcases mem_streams.mp h with rfl | rfl <;> exact (r.reserved _ (by decide)).2

end Renaming

def Parameter.renamed (r : Renaming) (x : Parameter) : Parameter := { x with name := r.name x.name }

def Transition.renamed (r : Renaming) (t : Transition) : Transition :=
  ⟨t.onTrue.map r.place, t.onFalse.map r.place⟩

@[simp]
theorem Parameter.renamed_identity (x : Parameter) : x.renamed .identity = x := rfl

@[simp]
theorem Transition.renamed_identity (t : Transition) : t.renamed .identity = t := by
  simp [Transition.renamed, Renaming.identity]

namespace Memory

def renamed (r : Renaming) (m : Memory) : Memory := m.mapKeys r.name

abbrev Within (r : Renaming) (m : Memory) : Prop := m.KeysIn r.names

variable {r : Renaming} {m : Memory}

theorem find?_renamed (hm : m.Within r) {name : String} (h : name ∈ r.names) :
    (m.renamed r).find? (r.name name) = m.find? name :=
  SortedMap.find?_mapKeys r.name_injOn hm h

theorem find?_renamed_reserved (hm : m.Within r) (name : String) (h : name ∈ Reserved.all) :
    (m.renamed r).find? name = m.find? name := by
  obtain ⟨hn, same⟩ := r.reserved name h
  have := find?_renamed hm hn
  rwa [same] at this

/-- Writing a variable before or after the renaming. -/
theorem renamed_insert (hm : m.Within r) {name : String} (h : name ∈ r.names) (v : Value) :
    Memory.renamed r (m.insert name v) = (m.renamed r).insert (r.name name) v :=
  SortedMap.mapKeys_insert r.name_injOn hm h v

/-- The order in which values are written is the same under both names. -/
theorem renamed_foldl (hm : m.Within r) {l : List (String × Value)} (hl : ∀ e ∈ l, e.1 ∈ r.names) :
    Memory.Within r (l.foldl (fun n e => n.insert e.1 e.2) m) ∧
      Memory.renamed r (l.foldl (fun n e => n.insert e.1 e.2) m) =
        (l.map fun e => (r.name e.1, e.2)).foldl (fun n e => n.insert e.1 e.2) (m.renamed r) := by
  induction l generalizing m with
  | nil => exact ⟨hm, rfl⟩
  | cons e l ih =>
    have he := hl e List.mem_cons_self
    have rest := ih (hm.insert he e.2) fun d hd => hl d (List.mem_cons_of_mem e hd)
    rw [renamed_insert hm he] at rest
    exact rest

theorem renamed_ofList {l : List (String × Value)} (hl : ∀ e ∈ l, e.1 ∈ r.names) :
    Memory.Within r (SortedMap.ofList l) ∧
      Memory.renamed r (SortedMap.ofList l) =
        SortedMap.ofList (l.map fun e => (r.name e.1, e.2)) :=
  renamed_foldl (SortedMap.keysIn_empty _) hl

end Memory

section Streams

variable {r r' : Renaming} {source target : Memory}

theorem passOn_renamed (hs : source.Within r) (ht : target.Within r') {stream : String}
    (h : stream ∈ streams) :
    (passOn stream source target).Within r' ∧
      (passOn stream source target).renamed r' =
        passOn stream (source.renamed r) (target.renamed r') := by
  have hfind := Memory.find?_renamed hs (r.stream_mem h)
  rw [r.name_stream h] at hfind
  unfold passOn
  rw [hfind]
  cases source.find? stream with
  | none => exact ⟨ht, rfl⟩
  | some v =>
    have hinsert := Memory.renamed_insert ht (r'.stream_mem h) v
    rw [r'.name_stream h] at hinsert
    exact ⟨ht.insert (r'.stream_mem h) v, hinsert⟩

/-- Two functions may rename differently, but neither renames a stream. -/
theorem copyStreams_renamed (hs : source.Within r) (ht : target.Within r') :
    (copyStreams source target).Within r' ∧
      (copyStreams source target).renamed r' =
        copyStreams (source.renamed r) (target.renamed r') := by
  obtain ⟨hm, hinput⟩ := passOn_renamed hs ht (mem_streams.mpr (.inl rfl))
  obtain ⟨hm', houtput⟩ := passOn_renamed hs hm (mem_streams.mpr (.inr rfl))
  rw [copyStreams_eq, copyStreams_eq, houtput, hinput]
  exact ⟨hm', rfl⟩

end Streams

/-- The condition is reserved, so both sides take the same branch. -/
theorem nextLoc_renamed {r : Renaming} {m : Memory} (hm : m.Within r) (t : Transition) :
    FlowGraph.nextLoc (t.renamed r) (m.renamed r) = (FlowGraph.nextLoc t m).map r.place := by
  have hcond := Memory.find?_renamed_reserved hm Reserved.condition (by decide)
  obtain ⟨onTrue, onFalse⟩ := t
  cases onTrue with
  | none => cases onFalse <;> rfl
  | some yes =>
    cases onFalse with
    | none => rfl
    | some no =>
      simp only [Transition.renamed, Option.map_some, FlowGraph.nextLoc, hcond]
      split <;> rfl

def Visit.renamed (ρ : String → Renaming) (v : Visit) : Visit :=
  ⟨v.function, (ρ v.function).place v.loc, v.memory.renamed (ρ v.function)⟩

def Trace.renamed (ρ : String → Renaming) (t : Trace) : Trace :=
  { t with visits := t.visits.map (Visit.renamed ρ) }

end TraceRepair
