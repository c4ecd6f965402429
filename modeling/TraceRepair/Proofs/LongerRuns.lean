import TraceRepair.Proofs.Budget
import TraceRepair.Proofs.LocalisedRuns
import TraceRepair.Proofs.Pairing

namespace TraceRepair

theorem getElem?_of_isPrefix {α : Type} {xs ys : List α} (h : xs <+: ys) {i : Nat} {a : α}
    (found : xs[i]? = some a) : ys[i]? = some a := by
  obtain ⟨rest, rfl⟩ := h
  rw [List.getElem?_append_left (List.getElem?_eq_some_iff.mp found).1, found]

namespace DivergenceKind

def isValues : DivergenceKind → Bool
  | .values _ => true
  | _ => false

end DivergenceKind

namespace Pairing

def records (c : Pairing) : List Divergence := (List.range c.length).filterMap c.record?

theorem isValues_of_mem_records {c : Pairing} {d : Divergence} (h : d ∈ c.records) :
    d.kind.isValues = true := by
  obtain ⟨i, hi, shown⟩ := List.mem_filterMap.mp h
  obtain ⟨visit, loc, other, hvisit, hloc, hother⟩ := exists_counterpart (List.mem_range.mp hi)
  rw [record?_eq hvisit hloc hother] at shown
  generalize c.differing visit other = found at shown
  cases found with
  | nil => cases shown
  | cons => cases shown; rfl

/-- A walk ends behind all visits, where a visit is missing, or where a location has no image. -/
theorem ending_cases (c : Pairing) :
    c.ending = [] ∨ ∃ d, c.ending = [d] ∧
      (d.kind = .visits ∨ d.kind ≠ .visits ∧ c.length < c.visits.length ∧
        c.image? c.length = none) := by
  unfold ending
  cases hvisit : c.visits[c.length]? with
  | none => exact .inl rfl
  | some visit =>
    cases c.image? c.length with
    | none => exact .inr ⟨_, rfl, .inr ⟨nofun, (List.getElem?_eq_some_iff.mp hvisit).1, rfl⟩⟩
    | some loc => exact .inr ⟨_, rfl, .inl rfl⟩

theorem isValues_of_mem_ending {c : Pairing} {d : Divergence} (h : d ∈ c.ending) :
    d.kind.isValues = false := by
  unfold ending at h
  split at h
  · cases h
  · cases List.mem_singleton.mp h
    rfl
  · cases List.mem_singleton.mp h
    rfl

/-- Only pairs show differing values. -/
theorem filter_isValues (c : Pairing) :
    c.divergences.filter (·.kind.isValues) = c.records := by
  have all : c.records.filter (·.kind.isValues) = c.records :=
    List.filter_eq_self.mpr fun _ h => isValues_of_mem_records h
  have none : c.ending.filter (·.kind.isValues) = [] :=
    List.filter_eq_nil_iff.mpr fun d h => by rw [isValues_of_mem_ending h]; exact Bool.false_ne_true
  rw [divergences, List.filter_append, ← records, all, none, List.append_nil]

def ofTraces (c : Pairing) (reference submission : Trace) : Pairing :=
  { c with reference, submission }

/-- A visit with its counterpart ends no walk. -/
theorem isUnpaired_eq_false {c : Pairing} {i : Nat} {loc : Loc} {other : Visit}
    (hloc : c.image? i = some loc)
    (hother : (c.counterparts loc)[c.before i loc]? = some other) : c.isUnpaired i = false := by
  have := (List.getElem?_eq_some_iff.mp hother).1
  simp only [isUnpaired, hloc, turn_eq hloc, decide_eq_false_iff_not]
  omega

section Longer

variable {c : Pairing} {t s : Trace} {i : Nat}

theorem visits_ofTraces (ht : c.reference.visits <+: t.visits) :
    c.visits <+: (c.ofTraces t s).visits :=
  ht.filter _

theorem counterparts_ofTraces (hs : c.submission.visits <+: s.visits) (loc : Loc) :
    c.counterparts loc <+: (c.ofTraces t s).counterparts loc :=
  hs.filter _

/-- Visits that were there have the images that they had. -/
theorem image?_ofTraces (ht : c.reference.visits <+: t.visits) (hi : i < c.visits.length) :
    (c.ofTraces t s).image? i = c.image? i := by
  have here := List.getElem?_eq_getElem hi
  rw [image?_of_visit here, image?_of_visit (getElem?_of_isPrefix (visits_ofTraces ht) here)]
  rfl

theorem before_ofTraces (ht : c.reference.visits <+: t.visits) (hi : i ≤ c.visits.length)
    (loc : Loc) : (c.ofTraces t s).before i loc = c.before i loc := by
  refine List.countP_congr fun j hj => ?_
  rw [image?_ofTraces ht (Nat.lt_of_lt_of_le (List.mem_range.mp hj) hi)]

/-- A pair that was made is made again. -/
theorem exists_counterpart_ofTraces (ht : c.reference.visits <+: t.visits)
    (hs : c.submission.visits <+: s.visits) (hi : i < c.length) :
    (c.ofTraces t s).isUnpaired i = false ∧ (c.ofTraces t s).record? i = c.record? i := by
  obtain ⟨visit, loc, other, hvisit, hloc, hother⟩ := exists_counterpart hi
  have within : i < c.visits.length := Nat.lt_of_lt_of_le hi c.length_le
  have hvisit' := getElem?_of_isPrefix (visits_ofTraces (s := s) ht) hvisit
  have hloc' := (image?_ofTraces (s := s) ht within).trans hloc
  have hother' := getElem?_of_isPrefix (counterparts_ofTraces (t := t) hs loc) hother
  rw [← before_ofTraces ht (Nat.le_of_lt within) loc] at hother'
  refine ⟨isUnpaired_eq_false hloc' hother', ?_⟩
  rw [record?_eq hvisit hloc hother, record?_eq hvisit' hloc' hother']
  rfl

/-- The walk gets at least as far. -/
theorem length_le_ofTraces (ht : c.reference.visits <+: t.visits)
    (hs : c.submission.visits <+: s.visits) : c.length ≤ (c.ofTraces t s).length := by
  refine Nat.le_of_not_lt fun short => ?_
  have more : c.visits.length ≤ (c.ofTraces t s).visits.length := (visits_ofTraces ht).length_le
  -- It would end at a visit that has its counterpart already.
  have ends := isUnpaired_length (Nat.lt_of_lt_of_le short (Nat.le_trans c.length_le more))
  rw [(exists_counterpart_ofTraces ht hs short).1] at ends
  cases ends

/-- What was shown is shown again. -/
theorem filterMap_record?_ofTraces (ht : c.reference.visits <+: t.visits)
    (hs : c.submission.visits <+: s.visits) :
    (List.range c.length).filterMap (c.ofTraces t s).record? = c.records :=
  List.filterMap_congr fun _ hi => (exists_counterpart_ofTraces ht hs (List.mem_range.mp hi)).2

/-- Pairs that were made are made again, and more may follow. -/
theorem records_ofTraces (ht : c.reference.visits <+: t.visits)
    (hs : c.submission.visits <+: s.visits) : c.records <+: (c.ofTraces t s).records := by
  rw [← filterMap_record?_ofTraces ht hs]
  refine List.IsPrefix.filterMap _ (List.prefix_iff_eq_take.mpr ?_)
  rw [List.length_range, List.take_range, Nat.min_eq_left (length_le_ofTraces ht hs)]

/-- A location without an image ends the walk for good. -/
theorem ending_ofTraces (ht : c.reference.visits <+: t.visits)
    (hs : c.submission.visits <+: s.visits) (hi : c.length < c.visits.length)
    (hloc : c.image? c.length = none) :
    (c.ofTraces t s).length = c.length ∧ (c.ofTraces t s).ending = c.ending := by
  have hloc' := (image?_ofTraces (s := s) ht hi).trans hloc
  have same : (c.ofTraces t s).length = c.length := by
    refine Nat.le_antisymm (Nat.le_of_not_lt fun further => ?_) (length_le_ofTraces ht hs)
    have paired := isUnpaired_of_lt further
    rw [isUnpaired, hloc'] at paired
    cases paired
  have here := List.getElem?_eq_getElem hi
  refine ⟨same, ?_⟩
  unfold ending
  rw [same, hloc, hloc', here, getElem?_of_isPrefix (visits_ofTraces ht) here]
  rfl

/-- Only a visit that was missing may have come. -/
theorem kept_ofTraces (ht : c.reference.visits <+: t.visits)
    (hs : c.submission.visits <+: s.visits) :
    c.divergences.filter (·.kind ≠ .visits) <+: (c.ofTraces t s).divergences := by
  have paired : c.records.filter (·.kind ≠ .visits) = c.records := by
    refine List.filter_eq_self.mpr fun d h => decide_eq_true fun missing => ?_
    have values := isValues_of_mem_records h
    rw [missing] at values
    cases values
  rw [divergences, List.filter_append, ← records, paired]
  rcases c.ending_cases with none | ⟨d, last, missing | ⟨unmatched, within, hloc⟩⟩
  · rw [none, List.filter_nil, List.append_nil]
    exact (records_ofTraces ht hs).trans (List.prefix_append _ _)
  · have gone : c.ending.filter (·.kind ≠ .visits) = [] := by simp [last, missing]
    rw [gone, List.append_nil]
    exact (records_ofTraces ht hs).trans (List.prefix_append _ _)
  · -- Both walks end at the same visit, so nothing differs at all.
    obtain ⟨length, ending⟩ := ending_ofTraces ht hs within hloc
    rw [divergences, length, filterMap_record?_ofTraces ht hs, ending, last]
    simp [unmatched]

end Longer

end Pairing

/-- What was found is found again, apart from a visit that was missing. -/
structure CandidateDivergences.ContinuedBy (c c' : CandidateDivergences) : Prop where
  bijection : c'.bijection = c.bijection
  values : c.divergences.filter (·.kind.isValues) <+: c'.divergences.filter (·.kind.isValues)
  unmatched : ∀ d ∈ c.divergences, ∀ cause, d.kind = .unmatched cause → d ∈ c'.divergences
  kept : c.divergences.filter (·.kind ≠ .visits) <+: c'.divergences

def Pairing.candidate (c : Pairing) (input : RunInput) : CandidateDivergences where
  bijection := c.bijection
  divergences := c.divergences.map fun d => { d with input := some input }

/-- All that a pairing shows is kept, but for the visit that was missing. -/
theorem Pairing.continuedBy_candidate {c : Pairing} {t s : Trace}
    (ht : c.reference.visits <+: t.visits) (hs : c.submission.visits <+: s.visits)
    (input : RunInput) : (c.candidate input).ContinuedBy ((c.ofTraces t s).candidate input) := by
  have kept : (c.candidate input).divergences.filter (·.kind ≠ .visits) <+:
      ((c.ofTraces t s).candidate input).divergences := by
    unfold candidate
    rw [List.filter_map]
    exact (kept_ofTraces ht hs).map _
  refine ⟨rfl, ?_, fun d hd cause unmatched => ?_, kept⟩
  · have values : c.records <+: (c.ofTraces t s).records := records_ofTraces ht hs
    rw [← filter_isValues, ← filter_isValues] at values
    unfold candidate
    rw [List.filter_map, List.filter_map]
    exact values.map _
  · exact kept.mem (List.mem_filter.mpr ⟨hd, by simp [unmatched]⟩)

section Localise

variable {function : String} {structural : StructuralMapping} {r r' : PairedRun}

theorem candidateDivergences_singleton (r : PairedRun) (b : Bijection) :
    candidateDivergences function structural [r] b =
      (r.pairing function structural b).candidate r.input := by
  rw [candidateDivergences_eq]
  unfold pairedCandidate Pairing.candidate
  rw [List.flatMap_singleton]
  rfl

/-- A successful run has all visits of a successful run with a smaller budget. -/
theorem visits_of_le {p : Program} {limits : Limits} {input : RunInput} {n m : Nat} {t t' : Trace}
    (h : n ≤ m) (hn : (p.execute { limits with steps := n } input).1 = .ok t)
    (hm : (p.execute { limits with steps := m } input).1 = .ok t') : t.visits <+: t'.visits := by
  have he : Extends n (.ok t) (.ok t') := hn ▸ hm ▸ extends_executeWithin p limits input h
  cases he with
  | finished => exact List.prefix_refl _
  | further longer _ => exact longer

/-- With a larger budget each candidate keeps the values that differ and the visits without a place
to go, in their order. A missing visit is the one behind the last pair, so it can only move to a
later one. -/
theorem localise_longer {reference submission : Program} (limits : Limits) {input : RunInput}
    {pairing : VariableMapping} {n m : Nat} {l l' : Localisation} (h : n ≤ m)
    (hn : (localise reference submission { limits with steps := n } [input] function structural
      pairing).1 = .ok l)
    (hm : (localise reference submission { limits with steps := m } [input] function structural
      pairing).1 = .ok l') :
    (∀ f, List.Forall₂ CandidateDivergences.ContinuedBy (l.candidates f) (l'.candidates f)) ∧
    ∃ r r', pairRun reference submission { limits with steps := n } input = .ok r ∧
      pairRun reference submission { limits with steps := m } input = .ok r' ∧
      ∀ b, (r.pairing function structural b).length ≤
        (r'.pairing function structural b).length := by
  rw [localise_eq, Localisation.afterRuns_eq_ok] at hn hm
  obtain ⟨-, runs, ran, rfl⟩ := hn
  obtain ⟨-, runs', ran', rfl⟩ := hm
  obtain ⟨r, hr, rfl⟩ := Except.mapM_singleton_eq_ok.mp ran
  obtain ⟨r', hr', rfl⟩ := Except.mapM_singleton_eq_ok.mp ran'
  obtain ⟨given, hexpected, hfound⟩ := pairRun_eq_ok.mp hr
  obtain ⟨given', hexpected', hfound'⟩ := pairRun_eq_ok.mp hr'
  have ht := visits_of_le h hexpected hexpected'
  have hs := visits_of_le h hfound hfound'
  refine ⟨fun f => ?_, r, r', hr, hr', fun b => Pairing.length_le_ofTraces ht hs⟩
  rw [Localisation.candidates_ofRuns, Localisation.candidates_ofRuns]
  split
  · rw [List.forall₂_map_left_iff, List.forall₂_map_right_iff]
    refine List.forall₂_same.mpr fun b _ => ?_
    rw [candidateDivergences_singleton, candidateDivergences_singleton, given, given']
    exact Pairing.continuedBy_candidate ht hs input
  · exact .nil

end Localise

def localisedTalking (steps : Nat) : Except Failure Localisation :=
  (localise (assigning ["\"ho\"", "\"hi\""]) talking { steps } [{}] "main"
    (StructuralMapping.empty.put "main" (SortedMap.ofList [(1, 1), (2, 2)]))
    (VariableMapping.empty.put "main" [.ofPairs [(.reference "y", .submission "word")]])).1

/-- The second word is only said when the budget pays for it. The first one differs either way. -/
theorem localise_longer_talking :
    ∃ l l', localisedTalking 3 = .ok l ∧ localisedTalking 4 = .ok l' ∧
      (l.candidates "main").map (·.divergences.map (·.kind)) =
        [[.values [.reference "y"], .visits]] ∧
      (l'.candidates "main").map (·.divergences.map (·.kind)) = [[.values [.reference "y"]]] ∧
      ∀ f, List.Forall₂ CandidateDivergences.ContinuedBy (l.candidates f) (l'.candidates f) := by
  have seen : (localisedTalking 3).toOption.map
      (fun l => (l.candidates "main").map (·.divergences.map (·.kind))) =
        some [[.values [.reference "y"], .visits]] := by decide +kernel
  have seen' : (localisedTalking 4).toOption.map
      (fun l => (l.candidates "main").map (·.divergences.map (·.kind))) =
        some [[.values [.reference "y"]]] := by decide +kernel
  obtain ⟨l, hl, kinds⟩ := Except.ok_of_seen seen
  obtain ⟨l', hl', kinds'⟩ := Except.ok_of_seen seen'
  exact ⟨l, l', hl, hl', kinds, kinds', (localise_longer {} (Nat.le_succ 3) hl hl').1⟩

end TraceRepair
