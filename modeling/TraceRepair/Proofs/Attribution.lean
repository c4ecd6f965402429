import TraceRepair.Persisted.Program
import TraceRepair.Proofs.Clock
import TraceRepair.Proofs.Equivariance
import TraceRepair.Proofs.GraphEdits
import TraceRepair.Proofs.OpenCalls

namespace TraceRepair

inductive FlowGraph.Edit (g : FlowGraph) : FlowGraph → Prop where
  | located (loc : Option Loc) (description : String) : Edit g (g.addLocation loc description).2
  | block {loc : Loc} {edit : List Assignment → List Assignment} {h : FlowGraph}
      (done : g.editBlock loc edit = .ok h) : Edit g h
  | edges {loc : Loc} {onTrue onFalse : Option Loc} {h : FlowGraph}
      (done : g.setEdges loc onTrue onFalse = .ok h) : Edit g h
  | declared (name type : String) : Edit g (g.declare name type)
  | exit (loc : Loc) : Edit g (g.setExit loc)
  | removed {loc : Loc} {h : FlowGraph} (done : g.removeLocation loc = .ok h) : Edit g h
  | edgeRemoved {loc : Loc} {branch : Bool} {h : FlowGraph}
      (done : g.removeEdge loc branch = .ok h) : Edit g h

inductive Program.Built : Program → Prop where
  | empty : Built .empty
  | added {p : Program} (built : p.Built) (g : FlowGraph) : Built (p.addFunction g)
  | edited {p : Program} {name : String} {g h : FlowGraph} (built : p.Built)
      (found : p.function? name = some g) (edit : g.Edit h) :
      Built { p with functions := p.functions.insert name h }
  | aside {p q : Program} (built : p.Built) (same : q.functions = p.functions) : Built q

theorem FlowGraph.Edit.name_eq {g h : FlowGraph} (edit : g.Edit h) : h.name = g.name := by
  cases edit with
  | located | exit => rfl
  | block done => exact (change_of_editBlock done).name_eq
  | edges done => exact (change_of_setEdges done).name_eq
  | declared name type => exact (g.change_declare name type).name_eq
  | removed done => exact (change_of_removeLocation done).name_eq
  | edgeRemoved done => exact (change_of_removeEdge done).name_eq

theorem Program.Keyed.insert {p : Program} (keyed : p.Keyed) {name : String} {g : FlowGraph}
    (named : g.name = name) : Program.Keyed { p with functions := p.functions.insert name g } := by
  intro e member
  rcases SortedMap.mem_insertEntry member with rfl | member
  · exact named
  · exact keyed e member

/-- A function is added under its own name, and no edit changes the name. -/
theorem Program.Built.keyed {p : Program} (built : p.Built) : p.Keyed := by
  induction built with
  | empty => exact nofun
  | added _ g ih => exact ih.insert rfl
  | edited _ found edit ih => exact ih.insert (edit.name_eq.trans (ih.name_eq found))
  | aside _ same ih =>
    unfold Program.Keyed
    rw [same]
    exact ih

theorem FlowGraph.hasLocation_of_block {g : FlowGraph} {loc : Loc} {block : List Assignment}
    (found : g.block loc = .ok block) : g.hasLocation loc = true := by
  unfold FlowGraph.hasLocation SortedMap.contains
  rw [FlowGraph.required_eq_ok.mp found]
  rfl

def Activation.Founded (p : Program) (limits : Limits) (a : Activation) : Prop :=
  ∃ name g fuel s, p.function? name = some g ∧ a = activation p limits fuel g s

/-- A stay that has ended was at a location of its function, and it called functions of the
program. -/
structure Stay.Founded (p : Program) (limits : Limits) (g : FlowGraph) (stay : Stay) : Prop where
  calls : ∀ a ∈ stay.calls, a.Founded p limits
  ended : ∀ m, stay.ended = some m → g.hasLocation stay.loc = true

def Account.each {A : Type} (P : A → Prop) : Account A where
  holds _ opened _ _ := ∀ a ∈ opened, P a
  refl _ := nofun
  fails _ _ _ := nofun
  trans before after a member := (List.mem_append.mp member).elim (before a) (after a)
  settles _ _ h := h

section Walk

variable {p : Program} {limits : Limits} {fuel : Nat} {g : FlowGraph} {loc : Loc}

theorem founded_of_blockCalls {block : List Assignment} {s : Machine} :
    ∀ a ∈ blockCalls p limits fuel g loc block s, a.Founded p limits := by
  have opened : Accounted (.each (Activation.Founded p limits))
      (g.runAssignments loc (Expr.eval limits.arrays (p.handler limits fuel)) block)
      (blockCalls p limits fuel g loc block) := by
    apply Accounted.assignments
    · intro name args
      apply Accounted.answerCall
      · exact fun _ _ _ _ => nofun
      · intro s callee found _ _ a member
        exact ⟨name, callee, fuel, _, found, List.mem_singleton.mp member⟩
    · exact fun _ _ _ => nofun
  exact opened s

/-- By induction on the walk: a block only calls functions that the program has. -/
theorem founded_of_stays {s : Machine} :
    ∀ stay ∈ stays p limits fuel g loc s, stay.Founded p limits g := by
  refine walk_induct (p := p) (motive := fun _ g _ _ _ made => ∀ stay ∈ made,
    stay.Founded p limits g) ?_ ?_ fuel g loc s
  · intro fuel g loc s _ stay member
    rw [List.mem_singleton.mp member]
    exact ⟨nofun, nofun⟩
  · intro fuel g loc s left r made ih _ form stay member
    -- A visit that ends has found its block, and its calls are those of this block.
    cases form with
    | lost =>
      rw [List.mem_singleton.mp member]
      exact ⟨nofun, nofun⟩
    | broken =>
      rw [List.mem_singleton.mp member]
      exact ⟨founded_of_blockCalls, nofun⟩
    | stranded found =>
      rw [List.mem_singleton.mp member]
      exact ⟨founded_of_blockCalls, fun _ _ => g.hasLocation_of_block found⟩
    | arrived found =>
      rw [List.mem_singleton.mp member]
      exact ⟨founded_of_blockCalls, fun _ _ => g.hasLocation_of_block found⟩
    | onward found =>
      rcases List.mem_cons.mp member with rfl | member
      · exact ⟨founded_of_blockCalls, fun _ _ => g.hasLocation_of_block found⟩
      · exact ih g _ _ stay member

theorem Activation.Founded.stay {a : Activation} (founded : a.Founded p limits) {stay : Stay}
    (there : stay ∈ a.stays) : stay.Founded p limits a.graph := by
  obtain ⟨name, g, fuel, s, _, rfl⟩ := founded
  exact founded_of_stays stay there

theorem Activation.LeadsTo.founded {a b : Activation} (leads : a.LeadsTo b)
    (founded : a.Founded p limits) : b.Founded p limits := by
  induction leads with
  | self => exact founded
  | call there called _ ih => exact ih ((founded.stay there).calls _ called)

end Walk

/-- A visit is one of a function of the program, which has its own name. -/
theorem exists_function_of_execute {p : Program} {limits : Limits} {input : RunInput} {t : Trace}
    (h : (p.execute limits input).1 = .ok t) :
    ∀ visit ∈ t.visits, ∃ name g, p.function? name = some g ∧ g.name = visit.function ∧
      g.hasLocation visit.loc = true := by
  intro visit member
  obtain ⟨history, recorded, listed, -⟩ := pays_execute h
  obtain ⟨entry, found, rfl⟩ := Option.map_eq_some_iff.mp recorded
  rw [listed] at member
  obtain ⟨a, leads, stay, there, ended, function, loc⟩ :=
    Activation.exists_of_mem_listing _ visit member
  have founded := leads.founded ⟨limits.entry, entry, limits.steps, _, found, rfl⟩
  have place := (founded.stay there).ended _ ended
  obtain ⟨name, g, fuel, s, found, rfl⟩ := founded
  exact ⟨name, g, found, function.symm, loc ▸ place⟩

/-- Each visit that is recorded bears the name of a function that has its location, and where the
functions stand under their own names this name finds it. A run that watches no clock is one whose
time is never up. -/
theorem execute_attributed (p : Program) (limits : Limits) (input : RunInput) :
    (p.Built → p.Keyed) ∧
    (∀ clock t, p.executeBy clock limits input = .ok t →
      (∀ visit ∈ t.visits, ∃ name g, p.function? name = some g ∧ g.name = visit.function ∧
        g.hasLocation visit.loc = true) ∧
      (p.Keyed → ∀ visit ∈ t.visits, ∃ g, p.function? visit.function = some g ∧
        g.hasLocation visit.loc = true)) ∧
    p.executeBy Clock.never limits input = (p.execute limits input).1 := by
  refine ⟨Program.Built.keyed, ?_, executeBy_never p limits input⟩
  intro clock t h
  rw [executeBy_eq] at h
  have visited := exists_function_of_execute h
  refine ⟨visited, fun keyed visit member => ?_⟩
  obtain ⟨name, g, found, function, place⟩ := visited visit member
  rw [← function, keyed.name_eq found]
  exact ⟨g, found, place⟩

/-- A text in which the function under the key `main` is called otherwise. -/
def misnamed : String :=
  "\x7b\"fncs\":\x7b\"main\":\x7b\"name\":\"other\",\"rettype\":\"int\",\"initloc\":1," ++
    "\"locexprs\":\x7b\"1\":[]\x7d," ++
    "\"loctrans\":\x7b\"1\":\x7b\x7d\x7d\x7d\x7d\x7d"

/-- A text may hold a function under a key that is not its name. -/
theorem execute_misnamed :
    ∃ p t visit, Program.ofText misnamed = .ok p ∧ (p.execute {} {}).1 = .ok t ∧
      visit ∈ t.visits ∧ p.function? visit.function = none := by
  have seen : (Program.ofText misnamed).toOption.map (fun p =>
      (((p.execute {} {}).1.toOption.map fun t => t.visits.map (·.function)),
        (p.function? "other").isNone)) = some (some ["other"], true) := by decide +kernel
  obtain ⟨p, read, outline⟩ := Except.ok_of_seen seen
  obtain ⟨run, unknown⟩ := Prod.mk.inj outline
  obtain ⟨t, ran, functions⟩ := Except.ok_of_seen run
  obtain ⟨visit, rest, visits, function, -⟩ := List.map_eq_cons_iff.mp functions
  refine ⟨p, t, visit, read, ran, ?_, ?_⟩
  · rw [visits]
    exact List.mem_cons_self
  · rw [function]
    exact Option.isNone_iff_eq_none.mp unknown

/-- The visits of a callee are put down to the callee. -/
theorem execute_attributed_talking :
    talking.Built ∧ ∃ t, (talking.execute { steps := 4 } {}).1 = .ok t ∧
      t.outline = ([("say", 1), ("main", 1), ("say", 1), ("main", 2)], false) ∧
      ∀ visit ∈ t.visits, ∃ g, talking.function? visit.function = some g ∧
        g.hasLocation visit.loc = true := by
  have built : talking.Built := .added (.added .empty _) _
  have seen : (talking.execute { steps := 4 } {}).1.toOption.map Trace.outline =
      some ([("say", 1), ("main", 1), ("say", 1), ("main", 2)], false) := by decide +kernel
  obtain ⟨t, ran, outline⟩ := Except.ok_of_seen seen
  obtain ⟨keyed, attributed, never⟩ := execute_attributed talking { steps := 4 } {}
  exact ⟨built, t, ran, outline, (attributed _ t (never.trans ran)).2 (keyed built)⟩

end TraceRepair
