import TraceRepair.Proofs.SameCode
import TraceRepair.Proofs.SynthesisFailures

namespace TraceRepair

theorem FlowGraph.block_of_mem {g : FlowGraph} {loc : Loc} (h : loc ∈ g.locations) :
    ∃ block, g.block loc = .ok block := by
  obtain ⟨block, found⟩ := Option.isSome_iff_exists.mp (SortedMap.find?_isSome_iff.mpr h)
  exact ⟨block, by rw [FlowGraph.block, found, FlowGraph.required]⟩

namespace Alignment

variable {reference submission : Program} {mapping : StructuralMapping}

/-- Aligned functions have the same locations. -/
theorem exists_of_structuralMapping (h : structuralMapping reference submission = .ok mapping)
    {f : String} {g : FlowGraph} (hf : reference.function? f = some g) :
    ∃ other, submission.function? f = some other ∧ other.locations = g.locations := by
  obtain ⟨shape, -⟩ := structuralMapping_eq_ok.mp h
  have known := shape.functions f
  rw [hf, Option.isSome_some, eq_comm, Option.isSome_iff_exists] at known
  obtain ⟨other, found⟩ := known
  have same := (shape.graphs f g other hf found).locations
  exact ⟨other, found, (FlowGraph.locations_eq_iff.mpr same).symm⟩

end Alignment

/-- A run visits locations of its program only. -/
theorem mem_locations_of_execute {p : Program} (keyed : p.Keyed) {limits : Limits}
    {input : RunInput} {t : Trace} (h : (p.execute limits input).1 = .ok t) {f : String}
    {g : FlowGraph} (hf : p.function? f = some g) : ∀ v ∈ t.visitsIn f, v.loc ∈ g.locations := by
  intro v hv
  obtain ⟨hvisit, hfun⟩ := List.mem_filter.mp hv
  obtain rfl := eq_of_beq hfun
  -- The program mirrors itself, and the runs of mirrored programs visit known locations.
  obtain ⟨g', hg', member⟩ :=
    ((execute_mirrored (Program.mirrored_of_code keyed rfl) limits input).2 t h v hvisit).block
  obtain rfl := Option.some.inj (hf.symm.trans hg')
  exact member

structure Divergence.Located (locations : List Loc) (d : Divergence) : Prop where
  matched : ∀ cause, d.kind ≠ .unmatched cause
  same : d.submission = some d.reference
  member : d.reference ∈ locations

/-- What a visit shows stands where the visit took place. -/
theorem Visit.Shows.located {f : String} {mapping : StructuralMapping} {watched : List Watched}
    {v : Visit} {d : Divergence} (shows : v.Shows f mapping watched d) {locations : List Loc}
    (places : ∀ loc ∈ locations, mapping.matching? f loc = some loc) (member : v.loc ∈ locations) :
    d.Located locations := by
  have itself := places v.loc member
  cases shows with
  | unmatched cause nowhere => cases nowhere.symm.trans itself
  | missing matched =>
    obtain rfl := Option.some.inj (matched.symm.trans itself)
    exact ⟨nofun, rfl, member⟩
  | values matched other =>
    obtain rfl := Option.some.inj (matched.symm.trans itself)
    exact ⟨nofun, rfl, member⟩

def SynthesisError.IsUnresolved (e : SynthesisError) : Prop := ∃ name, e = .unresolved name

section Synthesis

variable {b : Bijection}

theorem Bijection.resolve_failsOnly (b : Bijection) (v : Variable) :
    FailsOnly SynthesisError.IsUnresolved (b.resolve v) := by
  unfold Bijection.resolve
  split
  · exact .ok _
  · split
    · exact .ok _
    · exact .error ⟨_, rfl⟩

mutual

/-- Only a variable without a counterpart keeps an expression from being rewritten. -/
theorem Expr.transfer_failsOnly (b : Bijection) : ∀ e : Expr,
    FailsOnly SynthesisError.IsUnresolved (e.transfer b)
  | .constant _ _ => .ok _
  | .variable v => (b.resolve_failsOnly v).bind fun _ _ => .ok _
  | .operation name [] line => .ok _
  | .operation name (callee :: rest) line => by
    have later : ∀ first, FailsOnly SynthesisError.IsUnresolved (do
        let others ← Expr.transferAll b rest
        return Expr.operation name (first :: others) line) :=
      fun _ => (Expr.transferAll_failsOnly b rest).bind fun _ _ => .ok _
    rw [Expr.transfer]
    split
    · exact later callee
    · exact (Expr.transfer_failsOnly b callee).bind fun first _ => later first

theorem Expr.transferAll_failsOnly (b : Bijection) : ∀ es : List Expr,
    FailsOnly SynthesisError.IsUnresolved (Expr.transferAll b es)
  | [] => .ok _
  | e :: es => (Expr.transfer_failsOnly b e).bind fun _ _ =>
    (Expr.transferAll_failsOnly b es).bind fun _ _ => .ok _

end

variable {g h : FlowGraph} {loc : Loc}

/-- Blocks that are there are found. -/
theorem Synthesis.block_failsOnly (member : loc ∈ g.locations) :
    FailsOnly SynthesisError.IsUnresolved (ofModel (g.block loc)) := by
  obtain ⟨block, found⟩ := FlowGraph.block_of_mem member
  rw [found]
  exact .ok block

theorem Synthesis.assigned_failsOnly (member : loc ∈ g.locations) (target : String) :
    FailsOnly SynthesisError.IsUnresolved (ofModel (g.assigned loc target)) := by
  obtain ⟨block, found⟩ := FlowGraph.block_of_mem member
  rw [FlowGraph.assigned, found]
  exact .ok (FlowGraph.lastAssigned target block)

theorem Suspect.edit_failsOnly (b : Bijection) {m : Suspect} (hg : m.refLoc ∈ g.locations)
    (hh : m.subLoc ∈ h.locations) : FailsOnly SynthesisError.IsUnresolved (m.edit g h b) := by
  refine (Synthesis.assigned_failsOnly hh _).bind fun old _ => ?_
  refine (Synthesis.assigned_failsOnly hg _).bind fun assigned _ => ?_
  cases assigned with
  | none => exact .ok _
  | some e =>
    have rewritten : FailsOnly SynthesisError.IsUnresolved ((e.transfer b).map some) :=
      (Expr.transfer_failsOnly b e).bind fun _ _ => .ok _
    exact rewritten.bind fun _ _ => .ok _

theorem Divergence.suspects_failsOnly (b : Bijection) {d : Divergence}
    (located : d.Located g.locations) (same : h.locations = g.locations) :
    FailsOnly SynthesisError.IsUnresolved (d.suspects g h b) := by
  unfold Divergence.suspects
  split
  · exact .mapM fun r _ => (b.resolve_failsOnly r).bind fun _ _ => .ok _
  · rename_i found
    obtain rfl := Option.some.inj (located.same.symm.trans found)
    have assigned : FailsOnly SynthesisError.IsUnresolved
        (Synthesis.assignedPairs g h b d.reference d.reference) :=
      (Synthesis.block_failsOnly located.member).bind fun _ _ =>
        (Synthesis.block_failsOnly (same ▸ located.member)).bind fun _ _ => .ok _
    exact assigned.bind fun _ _ => .ok _
  · exact .ok _

/-- At locations that both functions have, nothing else can go wrong. -/
theorem Synthesis.repairCandidate_failsOnly {c : CandidateDivergences}
    (same : h.locations = g.locations) (located : ∀ d ∈ c.divergences, d.Located g.locations) :
    FailsOnly SynthesisError.IsUnresolved (repairCandidate g h c) := by
  refine failsOnly_repairDivergences
    (fun d hd => Divergence.suspects_failsOnly c.bijection (located d hd) same)
    (fun d hd ms hms m hm => ?_) []
  obtain ⟨-, hrefLoc, hsubLoc⟩ := Divergence.namedBy_of_suspects hms hm
  have member := (located d hd).member
  have hsame := Option.some.inj (hsubLoc.symm.trans (located d hd).same)
  exact Suspect.edit_failsOnly c.bijection (hrefLoc ▸ member) (same ▸ hsame ▸ member)

/-- A candidate is dropped with the failure of its own synthesis. -/
theorem Synthesis.exists_of_dropped {reference submission : Program} {l : Localisation}
    {pairing : VariableMapping} {f : String} {n : Nat} {text : String}
    (dropped : .dropped f n text ∈ (Synthesis.repair reference submission l pairing).2) :
    ∃ c ∈ l.candidates f, ∃ g h e, reference.function? f = some g ∧
      submission.function? f = some h ∧ repairCandidate g h c = .error e ∧ text = e.message := by
  obtain ⟨found, hfound, dropped⟩ := List.mem_flatMap.mp dropped
  obtain ⟨entry, hentry, rfl⟩ := List.mem_map.mp hfound
  unfold repairFunction at dropped
  split at dropped
  · rename_i g h hg hh
    rcases List.mem_append.mp dropped with recounted | dropped
    · split at recounted
      · cases List.mem_singleton.mp recounted
      · cases recounted
    · obtain ⟨_, houtcome, dropped⟩ := List.mem_flatMap.mp dropped
      obtain ⟨⟨c, i⟩, hc, rfl⟩ := List.mem_map.mp houtcome
      dsimp only at dropped
      unfold outcome at dropped
      split at dropped
      · cases dropped
      · cases dropped
      · rename_i e failed
        cases List.mem_singleton.mp dropped
        refine ⟨c, ?_, g, h, e, hg, hh, failed, rfl⟩
        rw [Localisation.candidates, SortedMap.find?_eq_some_iff.mpr hentry]
        exact List.fst_mem_of_mem_zipIdx hc
  · cases List.mem_singleton.mp dropped

end Synthesis

/-- Every location is matched with itself, and only variables can keep a candidate from being
repaired. -/
structure Localisation.Aligned (reference submission : Program) (l : Localisation) : Prop where
  matched : ∀ f, ∀ c ∈ l.candidates f, ∀ d ∈ c.divergences,
    (∀ cause, d.kind ≠ .unmatched cause) ∧ d.submission = some d.reference
  repaired : ∀ f, ∀ c ∈ l.candidates f, ∃ g h, reference.function? f = some g ∧
    submission.function? f = some h ∧
    ∀ e, Synthesis.repairCandidate g h c = .error e → e.IsUnresolved
  dropped : ∀ pairing f n text,
    .dropped f n text ∈ (Synthesis.repair reference submission l pairing).2 →
      ∃ e : SynthesisError, e.IsUnresolved ∧ text = e.message

section Localise

variable {reference submission : Program} {structural : StructuralMapping}

variable {function : String} {g : FlowGraph} {runs : List PairedRun}

theorem located_candidateDivergences (keyed : reference.Keyed)
    (hf : reference.function? function = some g)
    (places : ∀ loc ∈ g.locations, structural.matching? function loc = some loc)
    (ran : ∀ r ∈ runs, ∃ limits input, (reference.execute limits input).1 = .ok r.reference)
    (b : Bijection) :
    ∀ d ∈ (candidateDivergences function structural runs b).divergences, d.Located g.locations := by
  intro d hd
  obtain ⟨r, hr, v, hv, found, shows, rfl⟩ := exists_shows_of_candidate hd
  obtain ⟨limits, input, hrun⟩ := ran r hr
  have here := shows.located places (mem_locations_of_execute keyed hrun hf v hv)
  exact ⟨here.matched, here.same, here.member⟩

theorem aligned_ofRuns (keyed : reference.Keyed)
    (aligned : Alignment.structuralMapping reference submission = .ok structural)
    (hf : reference.function? function = some g)
    (ran : ∀ r ∈ runs, ∃ limits input, (reference.execute limits input).1 = .ok r.reference)
    (pairing : VariableMapping) :
    (Localisation.ofRuns function structural pairing runs).Aligned reference submission := by
  obtain ⟨h, hh, same⟩ := Alignment.exists_of_structuralMapping aligned hf
  have places := Alignment.matching?_structuralMapping aligned hf
  have located : ∀ f, ∀ c ∈ (Localisation.ofRuns function structural pairing runs).candidates f,
      f = function ∧ ∀ d ∈ c.divergences, d.Located g.locations := by
    intro f c hc
    rw [Localisation.candidates_ofRuns] at hc
    split at hc
    · rename_i asked
      obtain ⟨b, -, rfl⟩ := List.mem_map.mp hc
      exact ⟨asked, located_candidateDivergences keyed hf places ran b⟩
    · cases hc
  have repaired : ∀ f, ∀ c ∈ (Localisation.ofRuns function structural pairing runs).candidates f,
      ∃ g h, reference.function? f = some g ∧ submission.function? f = some h ∧
        ∀ e, Synthesis.repairCandidate g h c = .error e → e.IsUnresolved := by
    intro f c hc
    obtain ⟨rfl, here⟩ := located f c hc
    exact ⟨g, h, hf, hh, Synthesis.repairCandidate_failsOnly same here⟩
  refine ⟨fun f c hc d hd => ?_, repaired, fun pairing f n text dropped => ?_⟩
  · have here := (located f c hc).2 d hd
    exact ⟨here.matched, here.same⟩
  · obtain ⟨c, hc, g, h, e, hg, hh, failed, rfl⟩ := Synthesis.exists_of_dropped dropped
    obtain ⟨g', h', hg', hh', unresolved⟩ := repaired f c hc
    obtain rfl := Option.some.inj (hg.symm.trans hg')
    obtain rfl := Option.some.inj (hh.symm.trans hh')
    exact ⟨e, unresolved e failed, rfl⟩

/-- What localisation finds along an alignment by name stands at one location on both sides, and
candidates are dropped only for a variable without a counterpart. Runs may watch clocks. -/
theorem localise_aligned (keyed : reference.Keyed)
    (aligned : Alignment.structuralMapping reference submission = .ok structural)
    (limits : Limits) (function : String) (pairing : VariableMapping) :
    (∀ inputs l,
      (localise reference submission limits inputs function structural pairing).1 = .ok l →
        l.Aligned reference submission) ∧
    ∀ inputs l, localiseBy reference submission limits inputs function structural pairing = .ok l →
      l.Aligned reference submission := by
  have timed : ∀ inputs l,
      localiseBy reference submission limits inputs function structural pairing = .ok l →
        l.Aligned reference submission := by
    intro inputs l h
    obtain ⟨⟨g, hf⟩, runs, hruns, rfl⟩ := Localisation.afterRuns_eq_ok.mp h
    refine aligned_ofRuns keyed aligned hf (fun r hr => ?_) pairing
    obtain ⟨input, -, hrun⟩ := Except.exists_of_mem_mapM hruns hr
    obtain ⟨steps, -, hexpected, -⟩ := execute_of_pairRunBy hrun
    exact ⟨_, input.input, hexpected⟩
  refine ⟨fun inputs l h => timed (inputs.map .untimed) l ?_, timed⟩
  rw [localiseBy_untimed, h]

end Localise

def expectedLetters : Program := Program.empty.addFunction expectedBlock

def submittedLetters : Program := Program.empty.addFunction submittedBlock

def lettersPairing : VariableMapping :=
  VariableMapping.empty.put "main" [lettersPaired, .ofPairs [(.reference "y", .reference "d")]]

/-- The submission's first run is stopped before its only visit, the second one is not. -/
def lettersTimed : List TimedInput := [⟨{}, Clock.never, fun _ => true⟩, .untimed {}]

def lettersPlaces : StructuralMapping :=
  StructuralMapping.empty.put "main" (Alignment.identity [1])

/-- Both candidates miss the visit before which the first run was stopped. The second one is
dropped, as it does not know `x`. -/
theorem localise_aligned_letters :
    expectedLetters.Keyed ∧
    Alignment.structuralMapping expectedLetters submittedLetters = .ok lettersPlaces ∧
    ∃ l, localiseBy expectedLetters submittedLetters {} lettersTimed "main" lettersPlaces
        lettersPairing = .ok l ∧
      (l.candidates "main").map (·.divergences.map (·.kind)) =
        [[.visits, .values [.reference "w", .reference "z"]],
          [.visits, .values [.reference "y"]]] ∧
      (Synthesis.repair expectedLetters submittedLetters l lettersPairing).2.map Notice.message =
        ["dropping candidate #1 of `main`: variable `x` has no counterpart in the mapping"] ∧
      l.Aligned expectedLetters submittedLetters := by
  have keyed : expectedLetters.Keyed := by
    unfold Program.Keyed
    decide +kernel
  have aligned : Alignment.structuralMapping expectedLetters submittedLetters =
      .ok lettersPlaces := rfl
  have seen : (localiseBy expectedLetters submittedLetters {} lettersTimed "main" lettersPlaces
      lettersPairing).toOption.map (fun l =>
        ((l.candidates "main").map (·.divergences.map (·.kind)),
          (Synthesis.repair expectedLetters submittedLetters l lettersPairing).2.map
            Notice.message)) =
      some ([[.visits, .values [.reference "w", .reference "z"]],
          [.visits, .values [.reference "y"]]],
        ["dropping candidate #1 of `main`: variable `x` has no counterpart in the mapping"]) := by
    decide +kernel
  obtain ⟨l, hl, outline⟩ := Except.ok_of_seen seen
  obtain ⟨kinds, notices⟩ := Prod.mk.inj outline
  exact ⟨keyed, aligned, l, hl, kinds, notices,
    (localise_aligned keyed aligned {} "main" lettersPairing).2 lettersTimed l hl⟩

end TraceRepair
