import TraceRepair.Proofs.CursorView
import TraceRepair.Proofs.LocalisedRuns

namespace TraceRepair

/-- Two traces that are compared at the locations of one function. -/
structure Pairing where
  function : String
  structural : StructuralMapping
  bijection : Bijection
  reference : Trace
  submission : Trace

namespace Pairing

def visits (c : Pairing) : List Visit := c.reference.visitsIn c.function

def image? (c : Pairing) (i : Nat) : Option Loc :=
  (c.visits[i]?).bind fun v => c.structural.matching? c.function v.loc

/-- How many visits up to this one have the same image. -/
def turn (c : Pairing) (i : Nat) : Nat :=
  (List.range (i + 1)).countP fun j => c.image? j == c.image? i

def counterparts (c : Pairing) (loc : Loc) : List Visit := c.submission.visitsAt c.function loc

def isUnpaired (c : Pairing) (i : Nat) : Bool :=
  match c.image? i with
  | none => true
  | some loc => (c.counterparts loc).length < c.turn i

/-- The first visit without a counterpart, or the number of visits if each has one. -/
def length (c : Pairing) : Nat := (List.range c.visits.length).findIdx c.isUnpaired

def differing (c : Pairing) (visit other : Visit) : List Variable :=
  (c.bijection.pairs.filter fun p => !Value.alikeOption (visit.memory.find? p.1.unprimedName)
    (other.memory.find? p.2.unprimedName)).map (·.1)

def record? (c : Pairing) (i : Nat) : Option Divergence := do
  let visit ← c.visits[i]?
  let loc ← c.image? i
  let other ← (c.counterparts loc)[c.turn i - 1]?
  match c.differing visit other with
  | [] => none
  | found => some { kind := .values found, reference := visit.loc, submission := some loc }

/-- What the first visit without a counterpart shows. -/
def ending (c : Pairing) : List Divergence :=
  match c.visits[c.length]?, c.image? c.length with
  | none, _ => []
  | some visit, some loc => [{ kind := .visits, reference := visit.loc, submission := some loc }]
  | some visit, none =>
    let cause := match c.structural.mapping? c.function with
      | none => .function c.function
      | some _ => .location c.function visit.loc
    [{ kind := .unmatched cause, reference := visit.loc, submission := none }]

def divergences (c : Pairing) : List Divergence :=
  (List.range c.length).filterMap c.record? ++ c.ending

variable {c : Pairing} {i : Nat}

theorem length_le (c : Pairing) : c.length ≤ c.visits.length :=
  Nat.le_trans List.findIdx_le_length (Nat.le_of_eq List.length_range)

theorem isUnpaired_of_lt (h : i < c.length) : c.isUnpaired i = false := by
  have := List.not_of_lt_findIdx h
  rwa [List.getElem_range] at this

/-- The comparison ends because this visit has no counterpart. -/
theorem isUnpaired_length (h : c.length < c.visits.length) : c.isUnpaired c.length = true := by
  have hlt : (List.range c.visits.length).findIdx c.isUnpaired <
      (List.range c.visits.length).length := List.length_range.symm ▸ h
  have := List.findIdx_getElem (w := hlt)
  rwa [List.getElem_range] at this

def before (c : Pairing) (i : Nat) (loc : Loc) : Nat :=
  (List.range i).countP fun j => c.image? j == some loc

theorem before_succ (c : Pairing) (i : Nat) (loc : Loc) :
    c.before (i + 1) loc = c.before i loc + if c.image? i = some loc then 1 else 0 := by
  unfold before
  rw [List.range_succ, List.countP_append, List.countP_singleton]
  simp

/-- The turn of a visit counts the visit itself. -/
theorem turn_eq {loc : Loc} (h : c.image? i = some loc) : c.turn i = c.before i loc + 1 := by
  have := c.before_succ i loc
  rw [if_pos h] at this
  unfold turn
  rw [h]
  exact this

theorem image?_of_visit {visit : Visit} (h : c.visits[i]? = some visit) :
    c.image? i = c.structural.matching? c.function visit.loc := by
  rw [image?, h, Option.bind_some]

/-- Up to the first visit without a counterpart, each one has its own. -/
theorem exists_counterpart (h : i < c.length) :
    ∃ visit loc other, c.visits[i]? = some visit ∧ c.image? i = some loc ∧
      (c.counterparts loc)[c.before i loc]? = some other := by
  have hi : i < c.visits.length := Nat.lt_of_lt_of_le h c.length_le
  have hu := isUnpaired_of_lt h
  unfold isUnpaired at hu
  cases hloc : c.image? i with
  | none =>
    rw [hloc] at hu
    cases hu
  | some loc =>
    simp only [hloc, turn_eq hloc, decide_eq_false_iff_not] at hu
    have hlen : c.before i loc < (c.counterparts loc).length := by omega
    exact ⟨_, loc, _, List.getElem?_eq_getElem hi, rfl, List.getElem?_eq_getElem hlen⟩

/-- A cursor behind the counterparts of the first visits. -/
def Passed (c : Pairing) (i : Nat) (cursor : Cursor) : Prop :=
  ∀ loc, cursor.upcoming c.function loc = (c.counterparts loc).drop (c.before i loc)

theorem passed_cursor (c : Pairing) : c.Passed 0 c.submission.cursor :=
  fun loc => Cursor.upcoming_cursor c.submission c.function loc

/-- A visit that is paired takes its counterpart from the cursor, and nothing else. -/
theorem Passed.next {cursor : Cursor} (h : c.Passed i cursor) {loc : Loc} {other : Visit}
    (hloc : c.image? i = some loc)
    (hother : (c.counterparts loc)[c.before i loc]? = some other) :
    ∃ cursor', cursor.next? c.function loc = (some other, cursor') ∧ c.Passed (i + 1) cursor' := by
  obtain ⟨hlt, rfl⟩ := List.getElem?_eq_some_iff.mp hother
  have hup := h loc
  rw [List.drop_eq_getElem_cons hlt] at hup
  obtain ⟨cursor', hnext, hleft⟩ := Cursor.next?_of_cons hup
  refine ⟨cursor', hnext, fun l => ?_⟩
  rw [hleft, before_succ, hloc]
  by_cases hl : l = loc
  · subst hl
    simp
  · have : ¬(some loc = some l) := fun h => hl (Option.some.inj h).symm
    simp [hl, this, h l]

theorem differing_watched (b : Bijection) (m m' : Memory) :
    TraceRepair.differing b.watched m m' =
      (b.pairs.filter fun p => !Value.alikeOption (m.find? p.1.unprimedName)
        (m'.find? p.2.unprimedName)).map (·.1) := by
  unfold TraceRepair.differing Bijection.watched
  rw [List.filter_map, List.map_map]
  rfl

/-- What a pair shows, when its two visits are known. -/
theorem record?_eq {visit other : Visit} {loc : Loc} (hvisit : c.visits[i]? = some visit)
    (hloc : c.image? i = some loc)
    (hother : (c.counterparts loc)[c.before i loc]? = some other) :
    c.record? i = match c.differing visit other with
      | [] => none
      | found =>
        some { kind := .values found, reference := visit.loc, submission := some loc } := by
  unfold record?
  rw [hvisit, hloc, turn_eq hloc]
  simp only [Option.bind_eq_bind, Option.bind_some, Nat.add_sub_cancel, hother]

theorem drop_visits {visit : Visit} (h : c.visits[i]? = some visit) :
    c.visits.drop i = visit :: c.visits.drop (i + 1) := by
  obtain ⟨hlt, rfl⟩ := List.getElem?_eq_some_iff.mp h
  exact List.drop_eq_getElem_cons hlt

/-- The walk ends at the first visit without a counterpart. -/
theorem compareVisits_drop_length (c : Pairing) {cursor : Cursor} (h : c.Passed c.length cursor) :
    compareVisits c.function c.structural c.bijection.watched (c.visits.drop c.length) cursor =
      c.ending := by
  unfold ending
  cases hvisit : c.visits[c.length]? with
  | none =>
    rw [List.drop_eq_nil_of_le (List.getElem?_eq_none_iff.mp hvisit)]
    rfl
  | some visit =>
    have hmatching := image?_of_visit hvisit
    have hu := isUnpaired_length (List.getElem?_eq_some_iff.mp hvisit).1
    rw [drop_visits hvisit, compareVisits, ← hmatching]
    cases hloc : c.image? c.length with
    | none =>
      dsimp only
      cases c.structural.mapping? c.function <;> rfl
    | some loc =>
      simp only [isUnpaired, hloc, turn_eq hloc, decide_eq_true_eq] at hu
      have hup := h loc
      rw [List.drop_eq_nil_of_le (by omega)] at hup
      dsimp only
      rw [Cursor.next?_of_nil hup]

/-- The walk with a cursor, from any visit on. -/
theorem compareVisits_drop (c : Pairing) {m : Nat} (hm : c.length = i + m) {cursor : Cursor}
    (h : c.Passed i cursor) :
    compareVisits c.function c.structural c.bijection.watched (c.visits.drop i) cursor =
      (List.range' i m).filterMap c.record? ++ c.ending := by
  induction m generalizing i cursor with
  | zero =>
    rw [Nat.add_zero] at hm
    subst hm
    exact compareVisits_drop_length c h
  | succ m ih =>
    obtain ⟨visit, loc, other, hvisit, hloc, hother⟩ :=
      exists_counterpart (c := c) (i := i) (by omega)
    obtain ⟨cursor', hnext, hpassed⟩ := h.next hloc hother
    have rest := ih (by omega) hpassed
    rw [drop_visits hvisit, compareVisits, (image?_of_visit hvisit).symm.trans hloc]
    dsimp only
    rw [hnext]
    dsimp only
    rw [rest, List.range'_succ, List.filterMap_cons, record?_eq hvisit hloc hother,
      differing_watched]
    unfold differing
    generalize List.map _ _ = found
    cases found <;> rfl

/-- The walk with a cursor finds what the numbered pairs show. -/
theorem compareVisits_eq (c : Pairing) :
    compareVisits c.function c.structural c.bijection.watched c.visits c.submission.cursor =
      c.divergences := by
  have := compareVisits_drop c (Nat.zero_add c.length).symm c.passed_cursor
  rwa [← List.range_eq_range'] at this

end Pairing

def PairedRun.pairing (r : PairedRun) (function : String) (structural : StructuralMapping)
    (b : Bijection) : Pairing :=
  ⟨function, structural, b, r.reference, r.submission⟩

/-- A candidate with what its pairings show, in the order of the runs. -/
def pairedCandidate (function : String) (structural : StructuralMapping) (runs : List PairedRun)
    (b : Bijection) : CandidateDivergences where
  bijection := b
  divergences := runs.flatMap fun r =>
    (r.pairing function structural b).divergences.map fun d => { d with input := some r.input }

theorem candidateDivergences_eq (function : String) (structural : StructuralMapping)
    (runs : List PairedRun) (b : Bijection) :
    candidateDivergences function structural runs b =
      pairedCandidate function structural runs b := by
  unfold candidateDivergences pairedCandidate
  simp only [PairedRun.divergences, ← Pairing.compareVisits_eq]
  rfl

/-- The runs of two programs on an input come to these traces, each under its own clock. -/
structure TimedInput.Ran (reference submission : Program) (limits : Limits) (timed : TimedInput)
    (r : PairedRun) : Prop where
  input : r.input = timed.input
  expected : reference.executeBy timed.reference limits timed.input = .ok r.reference
  found : submission.executeBy timed.submission limits timed.input = .ok r.submission

section Localise

variable {reference submission : Program} {limits : Limits} {inputs : List TimedInput}

theorem TimedInput.Ran.pairRunBy_eq {timed : TimedInput} {r : PairedRun}
    (ran : timed.Ran reference submission limits r) :
    pairRunBy reference submission limits timed = .ok r := by
  unfold pairRunBy
  rw [ran.expected, ran.found, ← ran.input]
  rfl

/-- Runs that all succeed make a list of pairs of traces. -/
theorem exists_ran (succeed : ∀ timed ∈ inputs,
      (∃ t, reference.executeBy timed.reference limits timed.input = .ok t) ∧
      ∃ t, submission.executeBy timed.submission limits timed.input = .ok t) :
    ∃ runs, List.Forall₂ (TimedInput.Ran reference submission limits) inputs runs := by
  induction inputs with
  | nil => exact ⟨[], .nil⟩
  | cons timed inputs ih =>
    obtain ⟨⟨expected, hr⟩, found, hs⟩ := succeed timed List.mem_cons_self
    obtain ⟨runs, ran⟩ := ih fun later member => succeed later (List.mem_cons_of_mem _ member)
    exact ⟨⟨timed.input, expected, found⟩ :: runs, .cons ⟨rfl, hr, hs⟩ ran⟩

/-- Localisation finds for each candidate what pairing the visits of the two traces shows, one run
after the other. Runs may be stopped by their clocks, also at different visits on one input that is
given twice. -/
theorem localise_candidates {g : FlowGraph} {function : String}
    (hf : reference.function function = .ok g) (structural : StructuralMapping)
    (pairing : VariableMapping) (succeed : ∀ timed ∈ inputs,
      (∃ t, reference.executeBy timed.reference limits timed.input = .ok t) ∧
      ∃ t, submission.executeBy timed.submission limits timed.input = .ok t) :
    ∃ l runs, List.Forall₂ (TimedInput.Ran reference submission limits) inputs runs ∧
      localiseBy reference submission limits inputs function structural pairing = .ok l ∧
      (∀ untimed, inputs = untimed.map .untimed →
        (localise reference submission limits untimed function structural pairing).1 = .ok l) ∧
      ∀ f, l.candidates f =
        if f = function then
          (pairing.candidates function).map (pairedCandidate function structural runs)
        else [] := by
  obtain ⟨runs, ran⟩ := exists_ran succeed
  have traced : inputs.mapM (pairRunBy reference submission limits) = .ok runs :=
    Except.mapM_eq_ok.mpr (ran.imp fun _ _ => TimedInput.Ran.pairRunBy_eq)
  have localised : localiseBy reference submission limits inputs function structural pairing =
      .ok (.ofRuns function structural pairing runs) := by
    unfold localiseBy Localisation.afterRuns
    rw [hf, traced]
  refine ⟨_, runs, ran, localised, ?_, fun f => ?_⟩
  · rintro untimed rfl
    rw [← localiseBy_untimed, localised]
  · rw [Localisation.candidates_ofRuns]
    simp only [funext (candidateDivergences_eq function structural runs)]

end Localise

def assigning (values : List String) : Program :=
  let main : FlowGraph := { name := "main", returnType := "int", entry := 1, params := [] }
  Program.empty.addFunction
    { main with
      blocks := SortedMap.ofList (values.zipIdx.map fun e => (e.2 + 1, [("y", .constant e.1 1)]))
      edges := SortedMap.ofList (values.zipIdx.map fun e =>
        (e.2 + 1, { onTrue := if e.2 + 1 < values.length then some (e.2 + 2) else none })) }

def assigningTimed : List TimedInput := [.untimed {}, ⟨{}, (· == 1), Clock.never⟩]

def assigningPlaces : StructuralMapping :=
  StructuralMapping.empty.put "main" (SortedMap.ofList [(1, 1), (2, 1)])

def assigningPairing : VariableMapping :=
  VariableMapping.empty.put "main" [.ofPairs [(.reference "y", .submission "y")]]

/-- Both locations of the first program stand for the one of the second, where only the first visit
finds a counterpart. -/
theorem localise_candidates_assigning :
    ∃ l runs, List.Forall₂ (TimedInput.Ran (assigning ["1", "1"]) (assigning ["2"]) {})
        assigningTimed runs ∧
      localiseBy (assigning ["1", "1"]) (assigning ["2"]) {} assigningTimed "main" assigningPlaces
        assigningPairing = .ok l ∧
      l.candidates "main" = (assigningPairing.candidates "main").map
        (pairedCandidate "main" assigningPlaces runs) ∧
      (l.candidates "main").map (·.divergences) =
        [[{ kind := .values [.reference "y"], reference := 1, submission := some 1
            input := some {} },
          { kind := .visits, reference := 2, submission := some 1, input := some {} },
          { kind := .values [.reference "y"], reference := 1, submission := some 1
            input := some {} }]] := by
  obtain ⟨g, hf⟩ : ∃ g, (assigning ["1", "1"]).function "main" = .ok g := ⟨_, rfl⟩
  have succeed : ∀ timed ∈ assigningTimed,
      (∃ t, (assigning ["1", "1"]).executeBy timed.reference {} timed.input = .ok t) ∧
      ∃ t, (assigning ["2"]).executeBy timed.submission {} timed.input = .ok t := by
    intro timed member
    rcases List.mem_pair.mp member with rfl | rfl
    · exact ⟨Except.ok_of_isOk (by decide +kernel), Except.ok_of_isOk (by decide +kernel)⟩
    · exact ⟨Except.ok_of_isOk (by decide +kernel), Except.ok_of_isOk (by decide +kernel)⟩
  obtain ⟨l, runs, ran, localised, -, candidates⟩ :=
    localise_candidates hf assigningPlaces assigningPairing succeed
  have seen : (localiseBy (assigning ["1", "1"]) (assigning ["2"]) {} assigningTimed "main"
      assigningPlaces assigningPairing).toOption.map
        (fun l => (l.candidates "main").map (·.divergences)) =
      some [[{ kind := .values [.reference "y"], reference := 1, submission := some 1
               input := some {} },
          { kind := .visits, reference := 2, submission := some 1, input := some {} },
          { kind := .values [.reference "y"], reference := 1, submission := some 1
            input := some {} }]] := by decide +kernel
  rw [localised] at seen
  exact ⟨l, runs, ran, localised, by rw [candidates, if_pos rfl], Option.some.inj seen⟩

end TraceRepair
