import TraceRepair.Proofs.Mirror
import TraceRepair.Proofs.Renaming

namespace TraceRepair

def Renaming.Reads (r : Renaming) (v w : Variable) : Prop :=
  v.name ∈ r.names ∧ w.name = r.name v.name

structure Assignment.Mirrored (r : Renaming) (a b : Assignment) : Prop where
  known : a.1 ∈ r.names
  target : b.1 = r.name a.1
  value : Mirrors r.Reads a.2 b.2

/-- The second function does under other names what the first does. -/
structure FlowGraph.Mirrored (r : Renaming) (g h : FlowGraph) : Prop where
  name : h.name = g.name
  start : g.entry ∈ r.places
  entry : h.entry = r.place g.entry
  declared : ∀ x ∈ g.params, x.name ∈ r.names
  params : h.params = g.params.map (Parameter.renamed r)
  blocks : ∀ loc ∈ r.places, Option.Rel (List.Forall₂ (Assignment.Mirrored r))
    (g.blocks.find? loc) (h.blocks.find? (r.place loc))
  edges : ∀ loc ∈ r.places, h.edges.find? (r.place loc) =
    (g.edges.find? loc).map (Transition.renamed r)
  reached : ∀ loc t m next, g.edges.find? loc = some t → FlowGraph.nextLoc t m = some next →
    next ∈ r.places

def Program.Mirrored (ρ : String → Renaming) (p q : Program) : Prop :=
  ∀ name, Option.Rel (fun g h => g.name = name ∧ FlowGraph.Mirrored (ρ name) g h)
    (p.function? name) (q.function? name)

def Program.Keyed (p : Program) : Prop := ∀ e ∈ p.functions.entries, e.2.name = e.1

theorem Program.Keyed.name_eq {p : Program} (h : p.Keyed) {name : String} {g : FlowGraph}
    (found : p.function? name = some g) : g.name = name :=
  h (name, g) (SortedMap.find?_eq_some_iff.mp found)

structure Visit.Known (ρ : String → Renaming) (p : Program) (v : Visit) : Prop where
  memory : v.memory.Within (ρ v.function)
  block : ∃ g, p.function? v.function = some g ∧ v.loc ∈ g.locations

/-- The machines of two runs that are in one function under two names. -/
structure Twin (ρ : String → Renaming) (p : Program) (r : Renaming) (s t : Machine) : Prop where
  within : s.memory.Within r
  memory : t.memory = s.memory.renamed r
  left : t.left = s.left
  depth : t.depth = s.depth
  known : ∀ v ∈ s.visits, v.Known ρ p
  visits : t.visits = s.visits.map (Visit.renamed ρ)

/-- Errors that name a location differ, and those are fatal on both sides. -/
inductive AlikeError : RuntimeError → RuntimeError → Prop where
  | same (e : RuntimeError) : AlikeError e e
  | malformed (fault fault' : Malformation) : AlikeError (.malformed fault) (.malformed fault')

def Twin.tie (ρ : String → Renaming) (p : Program) (r : Renaming) : Tie where
  near := Twin ρ p r
  far _ _ := False
  failing := AlikeError
  failing_refl := .same
  isFatal_eq h := by cases h <;> rfl

section Coupling

variable {ρ : String → Renaming} {p q : Program} {r : Renaming} {limits : Limits} {fuel : Nat}

theorem Twin.coupled {α : Type} {x y : Eval α}
    (h : ∀ {s t}, Twin ρ p r s t → (Twin.tie ρ p r).Ends (x s) (y t)) :
    Coupled (Twin.tie ρ p r) x y :=
  ⟨h, fun h => h.elim⟩

theorem Twin.coupled_read {v w : Variable} (h : r.Reads v w) :
    Coupled (Twin.tie ρ p r) (Eval.read v.name) (Eval.read w.name) := by
  refine Twin.coupled fun {s t} hst => ?_
  obtain ⟨hv, hw⟩ := h
  have found : t.memory.find? w.name = s.memory.find? v.name := by
    rw [hst.memory, hw, Memory.find?_renamed hst.within hv]
  simp only [Eval.read, Eval.bind_apply, Eval.get_apply, found]
  exact .value _ hst

theorem Twin.coupled_write {name : String} (h : name ∈ r.names) (v : Value) :
    Coupled (Twin.tie ρ p r) (Eval.write name v) (Eval.write (r.name name) v) := by
  refine Twin.coupled fun {s t} hst => .value () ?_
  have memory : t.memory.insert (r.name name) v = Memory.renamed r (s.memory.insert name v) := by
    rw [hst.memory, Memory.renamed_insert hst.within h]
  exact ⟨hst.within.insert h v, memory, hst.left, hst.depth, hst.known, hst.visits⟩

theorem Twin.coupled_tick : Coupled (Twin.tie ρ p r) (Eval.tick limits) (Eval.tick limits) := by
  refine Twin.coupled fun {s t} hst => ?_
  unfold Eval.tick
  rw [hst.left]
  cases s.left with
  | zero => exact .failure (.same _) hst
  | succ left => exact .value () ⟨hst.within, hst.memory, rfl, hst.depth, hst.known, hst.visits⟩

/-- Parameters get the names of the callee and streams keep theirs. -/
theorem frame_renamed {g h : FlowGraph} {r' : Renaming} (mirrored : FlowGraph.Mirrored r' g h)
    (args : List Value) {caller : Memory} (hc : caller.Within r) :
    (frame g args caller).Within r' ∧
      frame h args (caller.renamed r) = (frame g args caller).renamed r' := by
  have declared : ∀ e ∈ (g.params.map Parameter.name).zip args, e.1 ∈ r'.names := by
    intro e he
    obtain ⟨x, hx, hname⟩ := List.mem_map.mp (List.of_mem_zip he).1
    exact hname ▸ mirrored.declared x hx
  obtain ⟨within, renamed⟩ := Memory.renamed_ofList declared
  obtain ⟨hm, hcopy⟩ := copyStreams_renamed hc within
  refine ⟨hm, ?_⟩
  have names : h.params.map Parameter.name = (g.params.map Parameter.name).map r'.name := by
    rw [mirrored.params, List.map_map, List.map_map]
    rfl
  unfold frame
  rw [hcopy, renamed, names, List.zip_map_left]
  rfl

/-- A callee goes by its own renaming, and its caller by that of the caller again. -/
theorem Twin.coupled_enter {g h : FlowGraph} {r' : Renaming} {run run' : Eval Unit}
    (mirrored : FlowGraph.Mirrored r' g h) (body : Coupled (Twin.tie ρ p r') run run')
    (args : List Value) :
    Coupled (Twin.tie ρ p r) (enter limits g run args) (enter limits h run' args) := by
  refine Twin.coupled fun {s t} hst => ?_
  unfold enter
  rw [hst.depth]
  split
  · exact .failure (.same _) hst
  · obtain ⟨within, renamed⟩ := frame_renamed mirrored args hst.within
    have he := body.meet (s := { s with memory := frame g args s.memory, depth := s.depth + 1 })
      (t := { t with memory := frame h args t.memory, depth := t.depth + 1 })
      ⟨within, hst.memory ▸ renamed, hst.left, congrArg (· + 1) hst.depth, hst.known, hst.visits⟩
    unfold Eval.inFrame
    generalize run _ = a at he ⊢
    generalize run' _ = b at he ⊢
    cases he with
    | @value u w _ tied =>
      have result : w.memory.find? Reserved.result = u.memory.find? Reserved.result := by
        rw [tied.memory, Memory.find?_renamed_reserved tied.within _ (by decide)]
      obtain ⟨hm, hcopy⟩ := copyStreams_renamed tied.within hst.within
      dsimp only
      rw [result]
      refine .value _ ⟨hm, ?_, tied.left, congrArg (· - 1) tied.depth, tied.known, tied.visits⟩
      rw [hcopy, ← tied.memory, ← hst.memory]
    | failure alike tied =>
      exact .failure alike ⟨hst.within, hst.memory, tied.left, congrArg (· - 1) tied.depth,
        tied.known, tied.visits⟩
    | stopped tied => exact tied.elim

theorem Twin.coupled_runAssignments {room : Arrays.Room} {call call' : CallHandler}
    (hcall : ∀ f values, Coupled (Twin.tie ρ p r) (call f values) (call' f values))
    (g h : FlowGraph) (loc loc' : Loc) {block block' : List Assignment}
    (mirrored : List.Forall₂ (Assignment.Mirrored r) block block') :
    Coupled (Twin.tie ρ p r) (g.runAssignments loc (Expr.eval room call) block)
      (h.runAssignments loc' (Expr.eval room call') block') := by
  induction mirrored with
  | nil => exact .pure ()
  | @cons a b rest rest' first _ ih =>
    obtain ⟨target, e⟩ := a
    obtain ⟨target', e'⟩ := b
    obtain ⟨known, rfl, value⟩ := first
    have evaluated : Coupled (Twin.tie ρ p r) (e.eval room call) (e'.eval room call') :=
      value.coupled Twin.coupled_read hcall
    have settled : Coupled (Twin.tie ρ p r)
        (Eval.settle (.undefined g.name loc target e) (e.eval room call))
        (Eval.settle (.undefined h.name loc' (r.name target) e') (e'.eval room call')) :=
      evaluated.settle (fun _ hst => ⟨hst.1, hst.2, hst.3, hst.4, hst.5, hst.6⟩) fun _ h => h.elim
    exact settled.bind fun v => (Twin.coupled_write known v).bind fun _ => ih

theorem Twin.coupled_record {g h : FlowGraph} {loc : Loc} (found : p.function? g.name = some g)
    (hblock : loc ∈ g.locations) (name : h.name = g.name) :
    Coupled (Twin.tie ρ p (ρ g.name)) (Eval.record g.name loc)
      (Eval.record h.name ((ρ g.name).place loc)) := by
  refine Twin.coupled fun {s t} hst => ?_
  rw [Eval.record_apply, Eval.record_apply]
  refine .value () ⟨hst.within, hst.memory, hst.left, hst.depth, ?_, ?_⟩
  · intro v hv
    rcases List.mem_cons.mp hv with rfl | hv
    · exact ⟨hst.within, g, found, hblock⟩
    · exact hst.known v hv
  · simp only [List.map_cons, Visit.renamed, hst.memory, hst.visits, name]

/-- What fails to find its location fails on both sides. -/
theorem Twin.coupled_required {α β : Type} {R : α → β → Prop} {γ : Type} {g h : FlowGraph}
    {loc loc' : Loc} {a : Option α} {b : Option β} (rel : Option.Rel R a b) {k : α → Eval γ}
    {l : β → Eval γ}
    (onward : ∀ {x y}, a = some x → R x y → Coupled (Twin.tie ρ p r) (k x) (l y)) :
    Coupled (Twin.tie ρ p r) (Eval.ofModel (g.required loc a) >>= k)
      (Eval.ofModel (h.required loc' b) >>= l) := by
  cases rel with
  | none =>
    exact Coupled.throw (AlikeError.malformed (.model (g.unknownLocation loc))
      (.model (h.unknownLocation loc')))
  | some hxy => exact onward rfl hxy

/-- A step of the coupling: visits are coupled when walks with less fuel are. -/
theorem Twin.coupled_visitAt (mirrored : Program.Mirrored ρ p q)
    (walks : ∀ {g h : FlowGraph}, p.function? g.name = some g →
      FlowGraph.Mirrored (ρ g.name) g h → ∀ loc ∈ (ρ g.name).places,
      Coupled (Twin.tie ρ p (ρ g.name)) (walk p limits fuel g loc)
        (walk q limits fuel h ((ρ g.name).place loc)))
    {g h : FlowGraph} (found : p.function? g.name = some g)
    (hg : FlowGraph.Mirrored (ρ g.name) g h) {loc : Loc} (hloc : loc ∈ (ρ g.name).places) :
    Coupled (Twin.tie ρ p (ρ g.name)) (visitAt p limits fuel g loc)
      (visitAt q limits fuel h ((ρ g.name).place loc)) := by
  have hcall : ∀ f values, Coupled (Twin.tie ρ p (ρ g.name))
      (answerCall p limits (fun callee => walk p limits fuel callee callee.entry) f values)
      (answerCall q limits (fun callee => walk q limits fuel callee callee.entry) f values) := by
    intro f values
    refine Coupled.answerCall_of_rel ?_
    have callees := mirrored f
    generalize hf : p.function? f = a at callees ⊢
    generalize q.function? f = b at callees ⊢
    cases callees with
    | none => exact .none
    | @some callee _ hc =>
      obtain ⟨rfl, hc⟩ := hc
      refine .some ⟨by rw [hc.params, List.length_map], fun _ => Twin.coupled_enter hc ?_ values⟩
      rw [hc.entry]
      exact walks hf hc callee.entry hc.start
  unfold visitAt FlowGraph.block FlowGraph.transition
  refine Twin.coupled_required (hg.blocks loc hloc) fun hblock blocks => ?_
  have known : loc ∈ g.locations := SortedMap.find?_isSome_iff.mp (hblock ▸ rfl)
  refine (Twin.coupled_runAssignments hcall g h loc _ blocks).bind fun _ =>
    (Twin.coupled_record found known hg.name).bind fun _ => ?_
  have edges : Option.Rel (fun t t' => t' = t.renamed (ρ g.name)) (g.edges.find? loc)
      (h.edges.find? ((ρ g.name).place loc)) := by
    rw [hg.edges loc hloc]
    cases g.edges.find? loc with
    | none => exact .none
    | some t => exact .some rfl
  refine Twin.coupled_required edges fun {t t'} ht same => Twin.coupled fun {s u} hst => ?_
  subst same
  rw [Eval.bind_apply, Eval.bind_apply]
  simp only [Eval.get_apply, leaveBy, hst.memory, nextLoc_renamed hst.within]
  cases hnext : FlowGraph.nextLoc t s.memory with
  | none => exact .value () hst
  | some next => exact (walks found hg next (hg.reached loc t s.memory next ht hnext)).meet hst

/-- By induction on the fuel: blocks, edges and callees correspond at every visit. -/
theorem Twin.coupled_walk (mirrored : Program.Mirrored ρ p q) {g h : FlowGraph}
    (found : p.function? g.name = some g) (hg : FlowGraph.Mirrored (ρ g.name) g h) {loc : Loc}
    (hloc : loc ∈ (ρ g.name).places) :
    Coupled (Twin.tie ρ p (ρ g.name)) (walk p limits fuel g loc)
      (walk q limits fuel h ((ρ g.name).place loc)) := by
  induction fuel generalizing g h loc with
  | zero => exact .throw (.same _)
  | succ fuel ih =>
    exact Coupled.bind Twin.coupled_tick fun _ =>
      Twin.coupled_visitAt mirrored (fun found hg loc hloc => ih found hg hloc) found hg hloc

end Coupling

def initialValues (g : FlowGraph) (input : RunInput) : List (String × Value) :=
  (Reserved.input, .array (input.tokens.map .str)) :: (Reserved.output, .str "") ::
    g.params.zipIdx.map fun x =>
      (x.1.name, ((input.args[x.2]?).bind fun arg => Value.ofInput? arg x.1.type).getD .undefined)

theorem initialMemory_eq (g : FlowGraph) (input : RunInput) :
    initialMemory g input = SortedMap.ofList (initialValues g input) := rfl

/-- The first memories differ in the names of the parameters. -/
theorem initialMemory_renamed {r : Renaming} {g h : FlowGraph} (mirrored : FlowGraph.Mirrored r g h)
    (input : RunInput) :
    (initialMemory g input).Within r ∧
      initialMemory h input = (initialMemory g input).renamed r := by
  have hinput := r.reserved Reserved.input (by decide)
  have houtput := r.reserved Reserved.output (by decide)
  have known : ∀ e ∈ initialValues g input, e.1 ∈ r.names := by
    intro e he
    rcases List.mem_cons.mp he with rfl | he
    · exact hinput.1
    rcases List.mem_cons.mp he with rfl | he
    · exact houtput.1
    obtain ⟨x, hx, rfl⟩ := List.mem_map.mp he
    exact mirrored.declared x.1 (List.fst_mem_of_mem_zipIdx hx)
  have values : initialValues h input = (initialValues g input).map fun e => (r.name e.1, e.2) := by
    simp only [initialValues, List.map_cons, hinput.2, houtput.2, mirrored.params, List.zipIdx_map,
      List.map_map]
    rfl
  obtain ⟨within, renamed⟩ := Memory.renamed_ofList known
  rw [initialMemory_eq, initialMemory_eq, values]
  exact ⟨within, renamed.symm⟩

section Execution

variable {ρ : String → Renaming} {p q : Program}

/-- What a run comes to, and the same of a run under other names. -/
theorem Twin.outcome_eq {r : Renaming} {a b : EStateM.Result RuntimeError Machine Unit}
    (h : (Twin.tie ρ p r).Ends a b) :
    (outcome b).toOption = (outcome a).toOption.map (Trace.renamed ρ) ∧
      ∀ t, outcome a = .ok t → ∀ v ∈ t.visits, v.Known ρ p := by
  cases h with
  | @value s u _ tied =>
    simp only [outcome, Except.toOption, Option.map_some, Trace.renamed, tied.visits,
      List.map_reverse]
    refine ⟨trivial, fun t ht v hv => ?_⟩
    cases ht
    exact tied.known v (List.mem_reverse.mp hv)
  | @failure s u e e' alike tied =>
    cases alike with
    | malformed => exact ⟨rfl, nofun⟩
    | same =>
      cases e with
      | timeout steps =>
        simp only [outcome, Except.toOption, Option.map_some, Trace.renamed, tied.visits,
          List.map_reverse]
        refine ⟨trivial, fun t ht v hv => ?_⟩
        cases ht
        exact tied.known v (List.mem_reverse.mp hv)
      | _ => exact ⟨rfl, nofun⟩
  | stopped tied => exact tied.elim

/-- Both runs come to traces or neither does, and the traces differ in names and numbers only. -/
theorem execute_mirrored (mirrored : Program.Mirrored ρ p q) (limits : Limits) (input : RunInput) :
    (q.execute limits input).1.toOption =
        (p.execute limits input).1.toOption.map (Trace.renamed ρ) ∧
      ∀ t, (p.execute limits input).1 = .ok t → ∀ v ∈ t.visits, v.Known ρ p := by
  have entries := mirrored limits.entry
  generalize hp : p.function? limits.entry = a at entries
  generalize hq : q.function? limits.entry = b at entries
  cases entries with
  | none =>
    rw [execute_unknown hp, execute_unknown hq]
    exact ⟨rfl, nofun⟩
  | @some g h entries =>
    obtain ⟨name, hg⟩ := entries
    rw [← name] at hg
    obtain ⟨within, renamed⟩ := initialMemory_renamed hg input
    have start : Twin ρ p (ρ g.name) (.start g limits input) (.start h limits input) :=
      ⟨within, renamed, rfl, rfl, nofun, rfl⟩
    have coupled : Coupled (Twin.tie ρ p (ρ g.name)) (walk p limits limits.steps g g.entry)
        (walk q limits limits.steps h h.entry) :=
      hg.entry ▸ Twin.coupled_walk mirrored (name ▸ hp) hg hg.start
    rw [execute_found hp, execute_found hq]
    exact Twin.outcome_eq (coupled.meet start)

end Execution

end TraceRepair
