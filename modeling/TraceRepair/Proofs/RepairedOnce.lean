import TraceRepair.Proofs.AlignedLocations
import TraceRepair.Proofs.InputOrder

namespace TraceRepair

def Suspect.repaired (m : Suspect) : Place := (m.target.toUnprimed.unprimedName, m.refLoc, m.subLoc)

section Emission

variable {reference submission : FlowGraph} {b : Bijection} {seen seen' : Synthesis.Seen}
  {ms : List Suspect} {repairs : List (LocalRepair Nat)}

theorem Suspect.place_of_edit {m : Suspect} {found : Option (LocalRepair Nat)}
    (edit : m.edit reference submission b = .ok found) :
    found.toList.map LocalRepair.place = [] ∨
      found.toList.map LocalRepair.place = [m.repaired] := by
  obtain ⟨old, new, -, rfl⟩ := exists_sides_of_localRepair edit
  cases RepairAction.between? old new with
  | none => exact .inl rfl
  | some action => exact .inr rfl

/-- Each repair is that of a suspect of its own, and no two of these have one key. -/
theorem Emits.exists_suspects (h : Emits reference submission b seen ms repairs seen') :
    ∃ ns : List Suspect, ns.Sublist ms ∧ (ns.map Suspect.key).Nodup ∧ (∀ n ∈ ns, n.key ∉ seen) ∧
      repairs.map LocalRepair.place = ns.map Suspect.repaired := by
  induction h with
  | done seen => exact ⟨[], .refl _, .nil, nofun, rfl⟩
  | again known rest ih =>
    obtain ⟨ns, sublist, nodup, unsettled, places⟩ := ih
    exact ⟨ns, sublist.cons _, nodup, unsettled, places⟩
  | @first seen seen' m ms found later new edit rest ih =>
    obtain ⟨ns, sublist, nodup, unsettled, places⟩ := ih
    -- Whatever is repaired behind this suspect was not settled with it.
    have apart : m.key ∉ ns.map Suspect.key := by
      intro settled
      obtain ⟨n, hn, same⟩ := List.mem_map.mp settled
      exact unsettled n hn (same ▸ List.mem_cons_self)
    have behind : ∀ n ∈ ns, n.key ∉ seen := fun n hn known =>
      unsettled n hn (List.mem_cons_of_mem _ known)
    rw [List.map_append, places]
    rcases Suspect.place_of_edit edit with none | one
    · exact ⟨ns, sublist.cons m, nodup, behind, by rw [none, List.nil_append]⟩
    · refine ⟨m :: ns, sublist.cons_cons m, List.nodup_cons.mpr ⟨apart, nodup⟩, ?_, ?_⟩
      · exact List.forall_mem_cons.mpr ⟨new, behind⟩
      · rw [one, List.map_cons, List.singleton_append]

/-- Where suspects that are shown alike are settled together. -/
theorem Emits.nodup_places (h : Emits reference submission b seen ms repairs seen')
    (apart : ∀ m ∈ ms, ∀ n ∈ ms, m.repaired = n.repaired → m.key = n.key) :
    (repairs.map LocalRepair.place).Nodup := by
  obtain ⟨ns, sublist, nodup, -, places⟩ := h.exists_suspects
  rw [places]
  rw [List.Nodup, List.pairwise_map] at nodup ⊢
  refine nodup.imp_of_mem fun hm hn differ same => differ ?_
  exact apart _ (sublist.subset hm) _ (sublist.subset hn) same

end Emission

section Targets

variable {g h : FlowGraph} {b : Bijection}

theorem FlowGraph.mem_firstOccurrences {name : String} {names : List String} :
    name ∈ firstOccurrences names ↔ name ∈ names := by
  induction names using List.reverseRecOn with
  | nil => exact Iff.rfl
  | append_singleton names last ih =>
    unfold firstOccurrences at ih ⊢
    rw [List.foldl_append, List.foldl_cons, List.foldl_nil, List.mem_append, List.mem_singleton]
    split
    · rename_i seen
      rw [ih]
      constructor
      · exact .inl
      · rintro (member | rfl)
        · exact member
        · exact ih.mp (List.contains_iff_mem.mp seen)
    · rw [List.mem_append, List.mem_singleton, ih]

theorem FlowGraph.mem_assignedVariables {loc : Loc} {block : List Assignment}
    (found : g.block loc = .ok block) {name : String} (member : name ∈ block.map (·.1)) :
    name ∈ g.assignedVariables := by
  have there : block ∈ g.blocks.values :=
    SortedMap.mem_values_of_find? (FlowGraph.required_eq_ok.mp found)
  obtain ⟨a, ha, rfl⟩ := List.mem_map.mp member
  exact FlowGraph.mem_firstOccurrences.mpr
    (List.mem_map.mpr ⟨a, List.mem_flatten_of_mem there ha, rfl⟩)

def Bijection.unmappedReserved (b : Bijection) (g h : FlowGraph) : List Variable :=
  ((g.assignedVariables ++ h.assignedVariables).filter fun name =>
    isReserved name && !b.contains (.reference name)).map Variable.reference

/-- The variables that a candidate may repair. -/
def Bijection.targets (b : Bijection) (g h : FlowGraph) : List Variable :=
  b.pairs.map (·.2) ++ b.unmappedReserved g h

/-- Assigned variables are mapped ones or reserved ones. -/
theorem mem_targets_of_assignedPairs {refLoc subLoc : Loc} {pairs : List (Variable × Variable)}
    (named : Synthesis.assignedPairs g h b refLoc subLoc = .ok pairs) {p : Variable × Variable}
    (hp : p ∈ pairs) : p.2 ∈ b.targets g h := by
  obtain ⟨ours, hours, named⟩ := Except.bind_eq_ok.mp named
  obtain ⟨theirs, htheirs, named⟩ := Except.bind_eq_ok.mp named
  cases named
  rcases List.mem_append.mp hp with hp | hp
  · exact List.mem_append_left _ (List.mem_map_of_mem (List.mem_filter.mp hp).1)
  · obtain ⟨name, hname, rfl⟩ := List.mem_map.mp hp
    obtain ⟨member, known⟩ := List.mem_filter.mp hname
    obtain ⟨e, he, rfl⟩ := List.mem_map.mp member
    obtain ⟨name, assigned, rfl⟩ := List.mem_map.mp (SortedMap.mem_of_mem_ofList he)
    refine List.mem_append_right _ (List.mem_map_of_mem (List.mem_filter.mpr ⟨?_, known⟩))
    rcases List.mem_append.mp assigned with assigned | assigned
    · have found := Synthesis.eq_of_ofModel hours
      exact List.mem_append_left _ (FlowGraph.mem_assignedVariables found assigned)
    · have found := Synthesis.eq_of_ofModel htheirs
      exact List.mem_append_right _ (FlowGraph.mem_assignedVariables found assigned)

theorem Divergence.mem_targets_of_suspects {d : Divergence}
    (mapped : ∀ r ∈ d.differing, b.contains r = true) {ms : List Suspect}
    (named : d.suspects g h b = .ok ms) {m : Suspect} (hm : m ∈ ms) : m.target ∈ b.targets g h := by
  unfold Divergence.suspects at named
  split at named
  · rename_i differing loc hkind found
    obtain ⟨r, hr, hm⟩ := Except.exists_of_mem_mapM named hm
    obtain ⟨s, resolved, he⟩ := Except.bind_eq_ok.mp hm
    cases he
    obtain ⟨p, hp⟩ := Option.isSome_iff_exists.mp (mapped r (by rwa [Divergence.differing, hkind]))
    have counterpart : b.find? r = some p.2 := by rw [Bijection.find?, hp, Option.map_some]
    rw [Bijection.resolve, counterpart] at resolved
    cases resolved
    exact List.mem_append_left _ (List.mem_map_of_mem (SortedMap.mem_values_of_find? hp))
  · obtain ⟨pairs, hpairs, he⟩ := Except.bind_eq_ok.mp named
    cases he
    obtain ⟨p, hp, rfl⟩ := List.mem_map.mp hm
    exact mem_targets_of_assignedPairs hpairs hp
  · cases named
    cases hm

/-- What may be repaired under one name has one origin. -/
def Bijection.OneOrigin (b : Bijection) (g h : FlowGraph) : Prop :=
  ∀ v ∈ b.targets g h, ∀ w ∈ b.targets g h,
    v.toUnprimed.unprimedName = w.toUnprimed.unprimedName → v.key = w.key

instance (b : Bijection) (g h : FlowGraph) : Decidable (b.OneOrigin g h) :=
  inferInstanceAs (Decidable (∀ v ∈ b.targets g h, ∀ w ∈ b.targets g h,
    v.toUnprimed.unprimedName = w.toUnprimed.unprimedName → v.key = w.key))

/-- Where nothing carries a prime, there is only one origin. -/
theorem Bijection.oneOrigin_of_unprimed (unprimed : ∀ v ∈ b.targets g h, v.isPrimed = false) :
    b.OneOrigin g h := by
  intro v hv w hw same
  rw [Variable.unprimedName_toUnprimed (Variable.stripPrime?_of_unprimed (unprimed v hv)),
    Variable.unprimedName_toUnprimed (Variable.stripPrime?_of_unprimed (unprimed w hw))] at same
  rw [Variable.key, Variable.key, same, unprimed v hv, unprimed w hw]

/-- Variables of one printed name are known by one key, so that the second one is passed over. -/
theorem Synthesis.nodup_places_of_repairCandidate {c : CandidateDivergences}
    (origin : c.bijection.OneOrigin g h) (mapped : Mapped c.bijection c.divergences)
    {repairs : List (LocalRepair Nat)} (made : repairCandidate g h c = .ok repairs) :
    (repairs.map LocalRepair.place).Nodup := by
  obtain ⟨ms, last, named, emits⟩ := emits_repairDivergences made
  have targets : ∀ m ∈ ms, m.target ∈ c.bijection.targets g h := by
    intro m hm
    obtain ⟨d, hd, part, hpart, hm⟩ := (mem_suspectsOf named).mp hm
    exact Divergence.mem_targets_of_suspects (mapped d hd) hpart hm
  refine emits.nodup_places fun m hm n hn same => ?_
  obtain ⟨name, refLoc, subLoc⟩ : m.target.toUnprimed.unprimedName =
      n.target.toUnprimed.unprimedName ∧ m.refLoc = n.refLoc ∧ m.subLoc = n.subLoc := by
    simpa [Suspect.repaired] using same
  rw [Suspect.key, Suspect.key, origin _ (targets m hm) _ (targets n hn) name, refLoc, subLoc]

end Targets

/-- A candidate comes of a synthesis that was completed. -/
theorem Synthesis.exists_of_repaired {reference submission : Program} {l : Localisation}
    {pairing : VariableMapping} {k : RepairCandidate Nat}
    (member : k ∈ (repair reference submission l pairing).1) :
    ∃ f, ∃ c ∈ l.candidates f, ∃ g h, reference.function? f = some g ∧
      submission.function? f = some h ∧ repairCandidate g h c = .ok k.repairs := by
  obtain ⟨found, hfound, member⟩ := List.mem_flatMap.mp member
  obtain ⟨⟨f, stored⟩, hentry, rfl⟩ := List.mem_map.mp hfound
  unfold repairFunction at member
  split at member
  · rename_i g h hg hh
    obtain ⟨_, houtcome, member⟩ := List.mem_flatMap.mp member
    obtain ⟨⟨c, i⟩, hc, rfl⟩ := List.mem_map.mp houtcome
    dsimp only at member
    unfold outcome at member
    split at member
    · cases member
    · rename_i repairs _ made
      obtain rfl := List.mem_singleton.mp member
      refine ⟨f, c, ?_, g, h, hg, hh, made⟩
      rw [Localisation.candidates, SortedMap.find?_eq_some_iff.mpr hentry]
      exact List.fst_mem_of_mem_zipIdx hc
    · cases member
  · cases member

section Localise

variable {reference submission : Program} {function : String} {pairing : VariableMapping}

theorem nodup_places_ofRuns
    (origin : ∀ g h, reference.function? function = some g →
      submission.function? function = some h → ∀ b ∈ pairing.candidates function, b.OneOrigin g h)
    (structural : StructuralMapping) (runs : List PairedRun) (current : VariableMapping) :
    ∀ k ∈ (Synthesis.repair reference submission
      (.ofRuns function structural pairing runs) current).1,
      (k.repairs.map LocalRepair.place).Nodup := by
  intro k member
  obtain ⟨f, c, hc, g, h, hg, hh, made⟩ := Synthesis.exists_of_repaired member
  rw [Localisation.candidates_ofRuns] at hc
  split at hc
  · rename_i asked
    obtain rfl := asked
    obtain ⟨b, hb, rfl⟩ := List.mem_map.mp hc
    exact Synthesis.nodup_places_of_repairCandidate (origin g h hg hh b hb)
      (mapped_candidateDivergences b) made
  · cases hc

/-- Where the targets of a pairing write each name with one origin only, no candidate repairs one
variable at one location twice. Runs may watch clocks, and the mapping may have become another one
in between. -/
theorem localise_repairedOnce
    (origin : ∀ g h, reference.function? function = some g →
      submission.function? function = some h → ∀ b ∈ pairing.candidates function, b.OneOrigin g h)
    (limits : Limits) (structural : StructuralMapping) (current : VariableMapping) :
    (∀ inputs l,
      (localise reference submission limits inputs function structural pairing).1 = .ok l →
        ∀ k ∈ (Synthesis.repair reference submission l current).1,
          (k.repairs.map LocalRepair.place).Nodup) ∧
    ∀ inputs l, localiseBy reference submission limits inputs function structural pairing = .ok l →
      ∀ k ∈ (Synthesis.repair reference submission l current).1,
        (k.repairs.map LocalRepair.place).Nodup := by
  have timed : ∀ inputs l,
      localiseBy reference submission limits inputs function structural pairing = .ok l →
        ∀ k ∈ (Synthesis.repair reference submission l current).1,
          (k.repairs.map LocalRepair.place).Nodup := by
    intro inputs l h
    obtain ⟨-, runs, -, rfl⟩ := Localisation.afterRuns_eq_ok.mp h
    exact nodup_places_ofRuns origin structural runs current
  refine ⟨fun inputs l h => timed (inputs.map .untimed) l ?_, timed⟩
  rw [localiseBy_untimed, h]

end Localise

def twoOrigins : VariableMapping :=
  VariableMapping.empty.put "main"
    [.ofPairs [(.reference "a", .reference "x"), (.reference "b", .submission "x")]]

def twoNames : Program :=
  Program.empty.addFunction (blockOf [("a", .constant "1" 1), ("b", .constant "2" 2)])

def oneName : Program := Program.empty.addFunction (blockOf [("x", .constant "3" 1)])

/-- The repair of `x` by `b` is made although `x` has been repaired by `a`. -/
theorem localise_repairedTwice :
    ∃ l k, (localise twoNames oneName {} [{}] "main" lettersPlaces twoOrigins).1 = .ok l ∧
      k ∈ (Synthesis.repair twoNames oneName l twoOrigins).1 ∧
      k.repairs.map (fun r => (r.place, r.display)) =
        [(("x", 1, 1), "Change x = 3 to x = 1 at location 1"),
          (("x", 1, 1), "Change x = 3 to x = 2 at location 1")] ∧
      ¬(k.repairs.map LocalRepair.place).Nodup := by
  have seen : (localise twoNames oneName {} [{}] "main" lettersPlaces twoOrigins).1.toOption.map
      (fun l => (Synthesis.repair twoNames oneName l twoOrigins).1.map fun k =>
        k.repairs.map fun r => (r.place, r.display)) =
      some [[(("x", 1, 1), "Change x = 3 to x = 1 at location 1"),
        (("x", 1, 1), "Change x = 3 to x = 2 at location 1")]] := by decide +kernel
  obtain ⟨l, hl, outline⟩ := Except.ok_of_seen seen
  obtain ⟨k, others, made, shown, -⟩ := List.map_eq_cons_iff.mp outline
  have places : k.repairs.map LocalRepair.place = [("x", 1, 1), ("x", 1, 1)] := by
    have firsts := congrArg (List.map Prod.fst) shown
    rwa [List.map_map] at firsts
  refine ⟨l, k, hl, made ▸ List.mem_cons_self, shown, ?_⟩
  rw [places]
  decide

/-- Three repairs, at three places. -/
theorem localise_repairedOnce_letters :
    (∀ b ∈ lettersPairing.candidates "main", b.OneOrigin expectedBlock submittedBlock) ∧
    ∃ l k, localiseBy expectedLetters submittedLetters {} lettersTimed "main" lettersPlaces
        lettersPairing = .ok l ∧
      k ∈ (Synthesis.repair expectedLetters submittedLetters l lettersPairing).1 ∧
      k.repairs.length = 3 ∧ (k.repairs.map LocalRepair.place).Nodup := by
  have origin : ∀ b ∈ lettersPairing.candidates "main",
      b.OneOrigin expectedBlock submittedBlock := by
    intro b hb
    refine Bijection.oneOrigin_of_unprimed ?_
    revert b
    decide +kernel
  have seen : (localiseBy expectedLetters submittedLetters {} lettersTimed "main" lettersPlaces
      lettersPairing).toOption.map (fun l =>
        (Synthesis.repair expectedLetters submittedLetters l lettersPairing).1.map fun k =>
          k.repairs.length) = some [3] := by decide +kernel
  obtain ⟨l, hl, outline⟩ := Except.ok_of_seen seen
  obtain ⟨k, others, made, count, -⟩ := List.map_eq_cons_iff.mp outline
  have member : k ∈ (Synthesis.repair expectedLetters submittedLetters l lettersPairing).1 :=
    made ▸ List.mem_cons_self
  have found : expectedLetters.function? "main" = some expectedBlock := rfl
  have found' : submittedLetters.function? "main" = some submittedBlock := rfl
  refine ⟨origin, l, k, hl, member, count, (localise_repairedOnce ?_ {} lettersPlaces _).2 _ l hl
    k member⟩
  intro g h hg hh
  obtain rfl := Option.some.inj (found.symm.trans hg)
  obtain rfl := Option.some.inj (found'.symm.trans hh)
  exact origin

end TraceRepair
