import TraceRepair.Proofs.CursorView
import TraceRepair.Proofs.EqualValues
import TraceRepair.Proofs.Equivariance
import TraceRepair.Proofs.LocalisedRuns

namespace TraceRepair

section Visits

variable {f : String} {mapping : StructuralMapping} {watched : List Watched}

structure Unremarkable (f : String) (mapping : StructuralMapping) (watched : List Watched)
    (v w : Visit) : Prop where
  function : w.function = f
  matching : mapping.matching? f v.loc = some w.loc
  values : differing watched v.memory w.memory = []

/-- Each visit takes its counterpart from the cursor, and the later ones are still to come. -/
theorem compareVisits_eq_nil {vs ws : List Visit}
    (each : List.Forall₂ (Unremarkable f mapping watched) vs ws) {cursor : Cursor}
    (upcoming : ∀ loc, cursor.upcoming f loc = ws.filter (·.isAt f loc)) :
    compareVisits f mapping watched vs cursor = [] := by
  induction each generalizing cursor with
  | nil => rfl
  | @cons v w vs ws first _ ih =>
    have here : w.isAt f w.loc = true := by simp [Visit.isAt, first.function]
    have next : cursor.upcoming f w.loc = w :: ws.filter (·.isAt f w.loc) :=
      (upcoming w.loc).trans (List.filter_cons_of_pos here)
    obtain ⟨cursor', hnext, left⟩ := Cursor.next?_of_cons next
    have rest : compareVisits f mapping watched vs cursor' = [] := ih fun loc => by
      rw [left, upcoming loc]
      by_cases hloc : loc = w.loc
      · rw [if_pos (by rw [hloc]), hloc]
      · have elsewhere : w.isAt f loc = false := by
          simp [Visit.isAt, Ne.symm hloc]
        rw [if_neg fun h => hloc (Prod.mk.inj h).2, List.filter_cons_of_neg (by simp [elsewhere])]
    rw [compareVisits, first.matching]
    dsimp only
    rw [hnext]
    dsimp only
    rw [first.values, rest]

end Visits

/-- The renaming of a function takes each variable of the reference to its counterpart. -/
def Bijection.ContainedIn (b : Bijection) (r : Renaming) : Prop :=
  ∀ e ∈ b.pairs, e.1.unprimedName ∈ r.names ∧ e.2.unprimedName = r.name e.1.unprimedName

theorem differing_renamed {b : Bijection} {r : Renaming} (h : b.ContainedIn r) {m : Memory}
    (hm : m.Within r) : differing b.watched m (m.renamed r) = [] := by
  unfold differing
  rw [List.map_eq_nil_iff, List.filter_eq_nil_iff]
  intro w hw
  obtain ⟨e, he, rfl⟩ := List.mem_map.mp hw
  obtain ⟨known, counterpart⟩ := h e he
  dsimp only
  rw [counterpart, Memory.find?_renamed hm known, Value.alikeOption_refl]
  decide

/-- A counted visit of one function has its place among the visits of that function. -/
theorem visitsAt_renamed (ρ : String → Renaming) (t : Trace) (f : String) (loc : Loc) :
    (t.renamed ρ).visitsAt f loc =
      ((t.visitsIn f).map (Visit.renamed ρ)).filter (·.isAt f loc) := by
  unfold Trace.visitsAt Trace.visitsIn Trace.renamed
  rw [List.filter_map, List.filter_map, List.filter_filter]
  congr 1
  refine List.filter_congr fun v _ => ?_
  simp only [Function.comp_apply, Visit.isAt, Visit.renamed]
  cases v.function == f <;> simp

section Runs

variable {p q : Program} {limits : Limits} {inputs : List RunInput}

/-- Both programs have to run on every input, and nothing else can fail. -/
theorem runPairs_isOk (p q : Program) (limits : Limits) (inputs : List RunInput) :
    (runPairs p q limits inputs).1.isOk = inputs.all fun i =>
      (p.execute limits i).1.isOk && (q.execute limits i).1.isOk := by
  rw [runPairs_eq, Except.isOk_mapM]
  congr 1
  funext i
  unfold pairRun
  cases (p.execute limits i).1 with
  | error e => rfl
  | ok expected => cases (q.execute limits i).1 <;> rfl

theorem execute_of_runPairs {runs : List PairedRun}
    (h : (runPairs p q limits inputs).1 = .ok runs) :
    ∀ r ∈ runs, (p.execute limits r.input).1 = .ok r.reference ∧
      (q.execute limits r.input).1 = .ok r.submission := by
  intro r hr
  rw [runPairs_eq] at h
  obtain ⟨i, -, hi⟩ := Except.exists_of_mem_mapM h hr
  obtain ⟨rfl, ran⟩ := pairRun_eq_ok.mp hi
  exact ran

variable {function : String} {structural : StructuralMapping} {pairing : VariableMapping}

theorem localise_isOk {g : FlowGraph} (hf : p.function? function = some g) :
    (localise p q limits inputs function structural pairing).1.isOk =
      inputs.all fun i => (p.execute limits i).1.isOk && (q.execute limits i).1.isOk := by
  rw [← runPairs_isOk]
  unfold localise Program.function
  rw [hf]
  dsimp only
  obtain ⟨runs, notices⟩ := runPairs p q limits inputs
  cases runs with
  | error e => rfl
  | ok runs => dsimp only; split <;> rfl

/-- All that a localisation records, it records of the function that it was asked for. -/
theorem mem_of_localise {l : Localisation}
    (h : (localise p q limits inputs function structural pairing).1 = .ok l) :
    ∃ g runs, p.function? function = some g ∧ (runPairs p q limits inputs).1 = .ok runs ∧
      ∀ e ∈ l.functions.entries, ∀ c ∈ e.2, ∃ b ∈ pairing.candidates function,
        candidateDivergences function structural runs b = c := by
  rw [localise_eq, Localisation.afterRuns_eq_ok, ← runPairs_eq] at h
  obtain ⟨⟨g, hf⟩, runs, ran, rfl⟩ := h
  refine ⟨g, runs, hf, ran, fun e he c hc => ?_⟩
  rw [Localisation.entries_ofRuns] at he
  split at he
  · cases he
  · obtain rfl := List.mem_singleton.mp he
    exact List.mem_map.mp hc

end Runs

def Localisation.Clean (l : Localisation) : Prop :=
  ∀ e ∈ l.functions.entries, ∀ c ∈ e.2, c.divergences = []

theorem Localisation.Clean.length_eq {l : Localisation} (h : l.Clean) : l.length = 0 := by
  have each : ∀ c ∈ l.functions.values.flatten, c.divergences = [] := by
    intro c hc
    obtain ⟨cs, hcs, hc⟩ := List.mem_flatten.mp hc
    obtain ⟨e, he, rfl⟩ := List.mem_map.mp hcs
    exact h e he c hc
  unfold length
  generalize l.functions.values.flatten = cs at each
  induction cs with
  | nil => rfl
  | cons c cs ih =>
    rw [List.foldl_cons, each c List.mem_cons_self]
    exact ih fun d hd => each d (List.mem_cons_of_mem c hd)

section Mirrored

variable {ρ : String → Renaming} {p q : Program} {limits : Limits} {inputs : List RunInput}
  {function : String} {g : FlowGraph} {structural : StructuralMapping} {pairing : VariableMapping}

/-- By induction on the visits: each one finds its own image, and no value differs there. -/
theorem compareVisits_mirrored {b : Bijection} {t : Trace} (known : ∀ v ∈ t.visits, v.Known ρ p)
    (hf : p.function? function = some g)
    (places : ∀ loc ∈ g.locations,
      structural.matching? function loc = some ((ρ function).place loc))
    (contained : b.ContainedIn (ρ function)) :
    compareVisits function structural b.watched (t.visitsIn function) (t.renamed ρ).cursor =
      [] := by
  have each : List.Forall₂ (Unremarkable function structural b.watched) (t.visitsIn function)
      ((t.visitsIn function).map (Visit.renamed ρ)) := by
    rw [List.forall₂_map_right_iff, List.forall₂_same]
    intro v hv
    obtain ⟨hvisit, hfun⟩ := List.mem_filter.mp hv
    obtain rfl := eq_of_beq hfun
    obtain ⟨within, g', hg', hblock⟩ := known v hvisit
    obtain rfl := Option.some.inj (hf.symm.trans hg')
    exact ⟨rfl, places v.loc hblock, differing_renamed contained within⟩
  refine compareVisits_eq_nil each fun loc => ?_
  rw [Cursor.upcoming_cursor, visitsAt_renamed]

/-- A mirrored program diverges nowhere, under any pairing of variables that the renaming
contains. -/
theorem localise_mirrored (mirrored : Program.Mirrored ρ p q)
    (hf : p.function? function = some g)
    (places : ∀ loc ∈ g.locations,
      structural.matching? function loc = some ((ρ function).place loc))
    (contained : ∀ b ∈ pairing.candidates function, b.ContainedIn (ρ function)) {l : Localisation}
    (h : (localise p q limits inputs function structural pairing).1 = .ok l) : l.Clean := by
  obtain ⟨_, runs, _, hruns, recorded⟩ := mem_of_localise h
  intro e he c hc
  obtain ⟨b, hb, rfl⟩ := recorded e he c hc
  unfold candidateDivergences
  rw [List.flatMap_eq_nil_iff]
  intro r hr
  obtain ⟨hp, hq⟩ := execute_of_runPairs hruns r hr
  obtain ⟨traces, known⟩ := execute_mirrored mirrored limits r.input
  rw [hp, hq] at traces
  have renamed : r.submission = r.reference.renamed ρ := Option.some.inj traces
  rw [List.map_eq_nil_iff, PairedRun.divergences, renamed]
  exact compareVisits_mirrored (known _ hp) hf places (contained b hb)

end Mirrored

end TraceRepair
