import TraceRepair.Proofs.SynthesisFailures

namespace TraceRepair

/-- A reserved variable that is not mapped stands for itself, with its primes. -/
theorem Bijection.resolve_unmapped {b : Bijection} {name : String}
    (reserved : isReserved name = true) (unmapped : b.find? (.reference name) = none) :
    b.resolve (.reference name) = .ok (.reference name) := by
  unfold Bijection.resolve
  rw [unmapped, isReserved_reference, reserved]
  rfl

inductive Suspect.Founded (b : Bijection) (m : Suspect) : Prop where
  | mapped (found : b.find? m.reference = some m.target)
  | reserved (name : String) (known : isReserved name = true)
      (unmapped : b.find? (.reference name) = none) (reference : m.reference = .reference name)
      (target : m.target = .reference name)

namespace Suspect.Founded

variable {b : Bijection} {m m' : Suspect}

theorem resolve (h : m.Founded b) : b.resolve m.reference = .ok m.target := by
  cases h with
  | mapped found => rw [Bijection.resolve, found]
  | reserved name known unmapped reference target =>
    rw [reference, target]
    exact Bijection.resolve_unmapped known unmapped

/-- Mappings know variables by their unprimed names, and reserved variables have no lines. -/
theorem line_eq (h : m.Founded b) (h' : m'.Founded b)
    (same : m.reference.unprimedName = m'.reference.unprimedName) :
    m.target.line = m'.target.line := by
  have found : b.find? m.reference = b.find? m'.reference := by
    rw [Bijection.find?, Bijection.pair?, same, ← Bijection.pair?, ← Bijection.find?]
  have line : ∀ name, (Variable.reference name).line = 0 := by
    intro name
    unfold Variable.reference Variable.ofOrigin
    cases stripPrime? name <;> rfl
  cases h with
  | mapped here =>
    cases h' with
    | mapped there => rw [Option.some.inj (here.symm.trans (found.trans there))]
    | reserved name _ unmapped reference _ =>
      rw [found, reference, unmapped] at here
      cases here
  | reserved name _ unmapped reference target =>
    cases h' with
    | mapped there =>
      rw [← found, reference, unmapped] at there
      cases there
    | reserved name' _ _ _ target' => rw [target, target', line, line]

end Suspect.Founded

section Founding

variable {reference submission : FlowGraph} {b : Bijection}

/-- Where the values of mapped variables differ. -/
theorem Divergence.founded_of_suspects {d : Divergence}
    (mapped : ∀ r ∈ d.differing, b.contains r = true) {ms : List Suspect}
    (h : d.suspects reference submission b = .ok ms) {m : Suspect} (hm : m ∈ ms) :
    m.Founded b := by
  cases (Divergence.namedBy_of_suspects h hm).1 with
  | value differs resolved =>
    obtain ⟨p, hp⟩ := Option.isSome_iff_exists.mp (mapped m.reference differs)
    have found : b.find? m.reference = some p.2 := by rw [Bijection.find?, hp, Option.map_some]
    rw [Bijection.resolve, found] at resolved
    exact .mapped (found.trans (congrArg some (Except.ok.inj resolved)))
  | mapped pair =>
    have found := Bijection.find?_of_mem_pairs pair
    exact .mapped found
  | reserved name known unmapped reference target =>
    refine .reserved name known ?_ reference target
    simpa [Bijection.contains, Bijection.find?] using unmapped

/-- An edit looks at the two names only, and at the line of the target. -/
theorem Suspect.edit_congr {m m' : Suspect} (refLoc : m.refLoc = m'.refLoc)
    (subLoc : m.subLoc = m'.subLoc)
    (named : m.reference.unprimedName = m'.reference.unprimedName)
    (target : m.target.unprimedName = m'.target.unprimedName)
    (line : m.target.line = m'.target.line) :
    m.edit reference submission b = m'.edit reference submission b := by
  have unmarked : m.target.toUnprimed = m'.target.toUnprimed := by
    rw [Variable.toUnprimed, target, line, Variable.toUnprimed]
  unfold Suspect.edit Synthesis.localRepair?
  rw [refLoc, subLoc, named, target, unmarked]

/-- Suspects that are settled together call for one edit. -/
theorem Suspect.edit_eq_of_key_eq (injective : b.ResolvesInjectively) {m m' : Suspect}
    (h : m.Founded b) (h' : m'.Founded b) (same : m.key = m'.key) :
    m.edit reference submission b = m'.edit reference submission b := by
  obtain ⟨key, refLoc, subLoc⟩ : m.target.key = m'.target.key ∧ m.refLoc = m'.refLoc ∧
      m.subLoc = m'.subLoc := by
    simpa [Suspect.key] using same
  have target : m.target.unprimedName = m'.target.unprimedName := congrArg Variable.Key.name key
  have named := injective _ _ _ _ h.resolve h'.resolve target
  exact Suspect.edit_congr refLoc subLoc named target (h.line_eq h' named)

end Founding

section Order

variable {reference submission : FlowGraph} {b : Bijection} {seen seen' : Synthesis.Seen}
  {ms : List Suspect} {repairs : List (LocalRepair Nat)}

def Coherent (reference submission : FlowGraph) (b : Bijection) (ms : List Suspect) : Prop :=
  ∀ m ∈ ms, ∀ m' ∈ ms, m.key = m'.key →
    m.edit reference submission b = m'.edit reference submission b

/-- No edit of a key that was not settled before has failed. -/
theorem Emits.exists_edit (h : Emits reference submission b seen ms repairs seen')
    (coherent : Coherent reference submission b ms) {m : Suspect} (hm : m ∈ ms)
    (unsettled : m.key ∉ seen) : ∃ found, m.edit reference submission b = .ok found := by
  induction h with
  | done seen => cases hm
  | @again seen seen' first ms later known rest ih =>
    rcases List.mem_cons.mp hm with rfl | hm
    · exact absurd known unsettled
    · exact ih (fun m hm m' hm' => coherent m (.tail _ hm) m' (.tail _ hm')) hm unsettled
  | @first seen seen' first ms found later new edit rest ih =>
    -- A later suspect with the key of the first one calls for the edit that was made.
    by_cases same : m.key = first.key
    · exact ⟨found, (coherent m hm first List.mem_cons_self same).trans edit⟩
    · rcases List.mem_cons.mp hm with rfl | hm
      · exact absurd rfl same
      · exact ih (fun m hm m' hm' => coherent m (.tail _ hm) m' (.tail _ hm')) hm
          (by simp [same, unsettled])

/-- The repairs are the edits of the keys that were not settled before, key by key. -/
theorem Emits.exists_keys (h : Emits reference submission b seen ms repairs seen') :
    ∃ keys : Synthesis.Seen, keys.Nodup ∧
      (∀ k, k ∈ keys ↔ k ∈ ms.map Suspect.key ∧ k ∉ seen) ∧
      ∀ edits : (Variable.Key × Loc × Loc) → List (LocalRepair Nat),
        (∀ m ∈ ms, ∀ found, m.edit reference submission b = .ok found →
          edits m.key = found.toList) →
        repairs = keys.flatMap edits := by
  induction h with
  | done seen => exact ⟨[], .nil, by simp, fun _ _ => rfl⟩
  | @again seen seen' m ms later known rest ih =>
    obtain ⟨keys, nodup, members, emitted⟩ := ih
    refine ⟨keys, nodup, fun k => ?_, fun edits he =>
      emitted edits fun m hm => he m (List.mem_cons_of_mem _ hm)⟩
    rw [members, List.map_cons, List.mem_cons]
    constructor
    · exact fun ⟨hk, new⟩ => ⟨.inr hk, new⟩
    · rintro ⟨rfl | hk, new⟩
      · exact absurd known new
      · exact ⟨hk, new⟩
  | @first seen seen' m ms found later new edit rest ih =>
    obtain ⟨keys, nodup, members, emitted⟩ := ih
    refine ⟨m.key :: keys, List.nodup_cons.mpr ⟨?_, nodup⟩, fun k => ?_, fun edits he => ?_⟩
    · rw [members]
      exact fun h => h.2 List.mem_cons_self
    · rw [List.mem_cons, members, List.map_cons, List.mem_cons, List.mem_cons, not_or]
      by_cases same : k = m.key
      · simp [same, new]
      · simp [same]
    · rw [List.flatMap_cons, he m List.mem_cons_self found edit,
        ← emitted edits fun m hm => he m (List.mem_cons_of_mem _ hm)]

variable (reference submission b ms) in
def editsOf (k : Variable.Key × Loc × Loc) : List (LocalRepair Nat) :=
  match ms.find? (·.key = k) with
  | some m => ((m.edit reference submission b).toOption.bind id).toList
  | none => []

/-- Any suspect with the key tells what the edits of the key are. -/
theorem editsOf_eq (coherent : Coherent reference submission b ms) {m : Suspect} (hm : m ∈ ms)
    {found : Option (LocalRepair Nat)} (edit : m.edit reference submission b = .ok found) :
    editsOf reference submission b ms m.key = found.toList := by
  unfold editsOf
  cases hfirst : ms.find? (·.key = m.key) with
  | none => exact absurd (List.find?_eq_none.mp hfirst m hm) (by simp)
  | some first =>
    have key : first.key = m.key := by simpa using List.find?_some hfirst
    have same := coherent first (List.mem_of_find?_eq_some hfirst) m hm key
    simp [same, edit, Except.toOption]

/-- The same suspects in another order, and mentioned any number of times. -/
theorem Emits.perm {ms' : List Suspect} {repairs' : List (LocalRepair Nat)}
    {last last' : Synthesis.Seen} (h : Emits reference submission b [] ms repairs last)
    (h' : Emits reference submission b [] ms' repairs' last')
    (coherent : Coherent reference submission b ms) (same : ∀ m, m ∈ ms ↔ m ∈ ms') :
    repairs.Perm repairs' := by
  obtain ⟨keys, nodup, members, emitted⟩ := h.exists_keys
  obtain ⟨keys', nodup', members', emitted'⟩ := h'.exists_keys
  have perm : keys.Perm keys' := by
    refine (List.perm_ext_iff_of_nodup nodup nodup').mpr fun k => ?_
    rw [members, members']
    simp [same]
  rw [emitted _ fun m hm found => editsOf_eq coherent hm,
    emitted' _ fun m hm found => editsOf_eq coherent ((same m).mpr hm)]
  exact perm.flatMap_right _

end Order

/-- Both syntheses fail, or they make the same repairs, which may come in another order. -/
inductive SameEdits : Except SynthesisError (List (LocalRepair Nat)) →
    Except SynthesisError (List (LocalRepair Nat)) → Prop where
  | dropped (e e' : SynthesisError) : SameEdits (.error e) (.error e')
  | repaired {repairs repairs' : List (LocalRepair Nat)} (perm : repairs.Perm repairs') :
      SameEdits (.ok repairs) (.ok repairs')

section Candidates

variable {reference submission : FlowGraph} {b : Bijection} {ds ds' : List Divergence}
  {ms : List Suspect}

theorem mem_suspectsOf (h : suspectsOf reference submission b ds = .ok ms) {m : Suspect} :
    m ∈ ms ↔ ∃ d ∈ ds, ∃ part, d.suspects reference submission b = .ok part ∧ m ∈ part := by
  obtain ⟨parts, hparts, he⟩ := Except.bind_eq_ok.mp h
  cases he
  rw [List.mem_flatten]
  constructor
  · rintro ⟨part, hpart, hm⟩
    obtain ⟨d, hd, hsuspects⟩ := (Except.mem_of_mapM hparts).mp hpart
    exact ⟨d, hd, part, hsuspects, hm⟩
  · rintro ⟨d, hd, part, hsuspects, hm⟩
    exact ⟨part, (Except.mem_of_mapM hparts).mpr ⟨d, hd, hsuspects⟩, hm⟩

/-- All differing values are values of mapped variables. -/
def Mapped (b : Bijection) (ds : List Divergence) : Prop :=
  ∀ d ∈ ds, ∀ r ∈ d.differing, b.contains r = true

/-- Two suspects with one key have one pair, as no counterpart belongs to two variables. -/
theorem coherent_of_mapped (injective : b.ResolvesInjectively) (mapped : Mapped b ds)
    (h : suspectsOf reference submission b ds = .ok ms) : Coherent reference submission b ms := by
  have founded : ∀ m ∈ ms, m.Founded b := by
    intro m hm
    obtain ⟨d, hd, part, hpart, hm⟩ := (mem_suspectsOf h).mp hm
    exact Divergence.founded_of_suspects (mapped d hd) hpart hm
  exact fun m hm m' hm' => Suspect.edit_eq_of_key_eq injective (founded m hm) (founded m' hm')

/-- A synthesis succeeds wherever one with at least these divergences does. -/
theorem exists_repairs (injective : b.ResolvesInjectively) (mapped : Mapped b ds)
    (sub : ∀ d ∈ ds', d ∈ ds) {repairs : List (LocalRepair Nat)}
    (h : Synthesis.repairDivergences reference submission b ds [] = .ok repairs) :
    ∃ repairs', Synthesis.repairDivergences reference submission b ds' [] = .ok repairs' := by
  obtain ⟨ms, last, hms, emits⟩ := emits_repairDivergences h
  have coherent := coherent_of_mapped injective mapped hms
  -- Whatever is named or edited here was named and edited before, and did not fail.
  have never : FailsOnly (fun _ => False)
      (Synthesis.repairDivergences reference submission b ds' []) := by
    refine Synthesis.failsOnly_repairDivergences (fun d hd e he => ?_)
      (fun d hd part hpart m hm e he => ?_) []
    · obtain ⟨parts, hparts, -⟩ := Except.bind_eq_ok.mp hms
      obtain ⟨part, -, hpart⟩ := Except.exists_of_mapM hparts (sub d hd)
      cases hpart.symm.trans he
    · have member := (mem_suspectsOf hms).mpr ⟨d, sub d hd, part, hpart, hm⟩
      obtain ⟨found, edit⟩ := emits.exists_edit coherent member nofun
      cases edit.symm.trans he
  cases hresult : Synthesis.repairDivergences reference submission b ds' [] with
  | error e => exact (never e hresult).elim
  | ok repairs' => exact ⟨repairs', rfl⟩

/-- The divergences may come in any order and any number of times. -/
theorem sameEdits_repairDivergences (injective : b.ResolvesInjectively) (mapped : Mapped b ds)
    (same : ∀ d, d ∈ ds ↔ d ∈ ds') :
    SameEdits (Synthesis.repairDivergences reference submission b ds [])
      (Synthesis.repairDivergences reference submission b ds' []) := by
  have mapped' : Mapped b ds' := fun d hd => mapped d ((same d).mpr hd)
  cases h : Synthesis.repairDivergences reference submission b ds [] with
  | error e =>
    cases h' : Synthesis.repairDivergences reference submission b ds' [] with
    | error e' => exact .dropped e e'
    | ok repairs' =>
      obtain ⟨repairs, found⟩ := exists_repairs injective mapped' (fun d => (same d).mp) h'
      cases h.symm.trans found
  | ok repairs =>
    obtain ⟨repairs', h'⟩ := exists_repairs injective mapped (fun d => (same d).mpr) h
    rw [h']
    obtain ⟨ms, last, hms, emits⟩ := emits_repairDivergences h
    obtain ⟨ms', last', hms', emits'⟩ := emits_repairDivergences h'
    refine .repaired (emits.perm emits' (coherent_of_mapped injective mapped hms) fun m => ?_)
    rw [mem_suspectsOf hms, mem_suspectsOf hms']
    simp only [same]

end Candidates

end TraceRepair
