import TraceRepair.Proofs.EscapingErrors

namespace TraceRepair

namespace Activation

def final? (a : Activation) : Option Memory := a.stays.getLast?.bind Stay.ended

/-- A call that comes back gives its caller the streams that it has in the end. -/
def WritesBack (a : Activation) (name : String) : Prop :=
  name ∈ streams ∧ ∃ m, a.final? = some m ∧ m.contains name

end Activation

/-- What an evaluation leaves of the memory, with the calls that it opens. -/
structure Keeps (s : Machine) (calls : List Activation) (failure : Option RuntimeError)
    (t : Machine) : Prop where
  others : ∀ v, v ∉ streams → t.memory.find? v = s.memory.find? v
  names : (∀ e, failure = some e → e.isFatal = false) → ∀ name,
    t.memory.contains name ↔ s.memory.contains name ∨ ∃ call ∈ calls, call.WritesBack name

namespace Keeps

theorem refl {failure : Option RuntimeError} (s : Machine) : Keeps s [] failure s :=
  ⟨fun _ _ => rfl, by simp⟩

theorem trans {s t u : Machine} {before after : List Activation} {failure : Option RuntimeError}
    (first : Keeps s before none t) (second : Keeps t after failure u) :
    Keeps s (before ++ after) failure u := by
  constructor
  · intro v hv
    rw [second.others v hv, first.others v hv]
  · intro mild name
    rw [second.names mild name, first.names nofun name]
    simp only [List.mem_append]
    grind

theorem settled {s t : Machine} {calls : List Activation} {e : RuntimeError} (n : Notice)
    (mild : e.isFatal = false) (h : Keeps s calls (some e) t) :
    Keeps s calls none { t with notices := n :: t.notices } := by
  refine ⟨h.others, fun _ => h.names ?_⟩
  intro e same
  cases same
  exact mild

end Keeps

def memoryAccount : Account Activation where
  holds := Keeps
  refl := Keeps.refl
  fails s _ _ := Keeps.refl s
  trans := Keeps.trans
  settles := Keeps.settled

section Calls

variable {p : Program} {limits : Limits} {fuel : Nat}

/-- A walk that arrives ends in the memory of its last stay. -/
theorem ended_of_walk (g : FlowGraph) (loc : Loc) (s : Machine) :
    ∀ t, walk p limits fuel g loc s = .ok () t →
      (stays p limits fuel g loc s).getLast?.bind Stay.ended = some t.memory := by
  refine walk_induct (p := p) (motive := fun _ _ _ _ r made => ∀ t, r = .ok () t →
    made.getLast?.bind Stay.ended = some t.memory) ?_ ?_ fuel g loc s
  · intro _ _ _ _ _ t h
    cases h
  · intro fuel g loc s left r made ih hleft form t h
    cases form with
    | lost => cases h
    | broken => cases h
    | stranded => cases h
    | arrived =>
      cases h
      rfl
    | onward =>
      obtain ⟨last, there, ended⟩ := Option.bind_eq_some_iff.mp (ih _ _ _ t h)
      rw [List.getLast?_cons, there]
      exact ended

/-- The streams come in addition to what is there. -/
theorem contains_copyStreams (source target : Memory) (name : String) :
    (copyStreams source target).contains name ↔
      target.contains name ∨ name ∈ streams ∧ source.contains name := by
  unfold SortedMap.contains
  by_cases h : name ∈ streams
  · rw [find?_copyStreams_of_mem h, Option.isSome_or]
    simp [h, or_comm]
  · rw [find?_copyStreams_of_notMem h]
    simp [h]

theorem memoryAccount.handler (name : String) (args : List Value) :
    Accounted memoryAccount (p.handler limits fuel name args)
      (openedCall p limits (activation p limits fuel) name args) := by
  apply Accounted.answerCall
  · intro s g _ _
    refine ⟨fun _ _ => rfl, fun mild => ?_⟩
    cases mild _ rfl
  · intro s g _ _ _
    generalize hwalk : walk p limits fuel g g.entry (s.entering g args) = r
    cases r with
    | ok _ t =>
      have final : (activation p limits fuel g (s.entering g args)).final? = some t.memory :=
        ended_of_walk g g.entry _ t hwalk
      constructor
      · intro v hv
        exact find?_copyStreams_of_notMem hv t.memory s.memory
      · intro _ other
        simp [Machine.behindCall, contains_copyStreams, Activation.WritesBack, final]
    | error e t =>
      refine ⟨fun _ _ => rfl, fun mild => ?_⟩
      have fatal := FailsFatally.walk p limits fuel g g.entry _ _ _ hwalk
      cases fatal.symm.trans (mild e rfl)

end Calls

inductive Eval.Yields (x : Eval Value) (s : Machine) : Value → Prop where
  | value {w : Value} {t : Machine} (h : x s = .ok w t) : Yields x s w
  | undefined {e : RuntimeError} {t : Machine} (h : x s = .error e t) (mild : e.isFatal = false) :
      Yields x s .undefined

theorem Eval.Yields.of_settle {notice : RuntimeError → Notice} {x : Eval Value} {s t : Machine}
    {w : Value} (h : Eval.settle notice x s = .ok w t) : Eval.Yields x s w := by
  rw [Eval.settle_apply] at h
  cases hx : x s with
  | ok v u =>
    rw [hx] at h
    cases h
    exact .value hx
  | error e u =>
    simp only [hx, Eval.settled] at h
    split at h
    · cases h
    · rename_i mild
      cases h
      exact .undefined hx (by simpa using mild)

theorem FlowGraph.lastAssigned_cons (v target : String) (e : Expr) (rest : List Assignment) :
    FlowGraph.lastAssigned v ((target, e) :: rest) =
      (FlowGraph.lastAssigned v rest).or (if target = v then some e else none) := by
  unfold FlowGraph.lastAssigned
  rw [List.reverse_cons, List.find?_append, Option.map_or]
  by_cases h : target = v <;> simp [h]

section Blocks

variable {room : Arrays.Room} {call : CallHandler}
  {opens : String → List Value → Machine → List Activation}
  {g : FlowGraph} {loc : Loc} {block : List Assignment} {s t : Machine} {v : String}

theorem runAssignments_cons {value : Expr → Eval Value} {target : String} {e : Expr}
    {rest : List Assignment} (h : g.runAssignments loc value ((target, e) :: rest) s = .ok () t) :
    ∃ w u, Eval.settle (.undefined g.name loc target e) (value e) s = .ok w u ∧
      g.runAssignments loc value rest { u with memory := u.memory.insert target w } = .ok () t := by
  simp only [FlowGraph.runAssignments, Eval.bind_apply] at h
  cases hs : Eval.settle (.undefined g.name loc target e) (value e) s with
  | ok w u =>
    rw [hs] at h
    exact ⟨w, u, rfl, h⟩
  | error e' u =>
    rw [hs] at h
    cases h

theorem opened_cons {target : String} {e : Expr} {rest : List Assignment} {w : Value} {u : Machine}
    (settled : Eval.settle (.undefined g.name loc target e) (e.eval room call) s = .ok w u) :
    g.opened room call opens loc ((target, e) :: rest) s =
      e.opened room call opens s ++
        g.opened room call opens loc rest { u with memory := u.memory.insert target w } := by
  simp only [FlowGraph.opened, Eval.andThen, settled]
  rfl

theorem keeps_of_settle
    (hcall : ∀ f values, Accounted memoryAccount (call f values) (opens f values)) {e : Expr}
    {notice : RuntimeError → Notice} {w : Value} {u : Machine}
    (settled : Eval.settle notice (e.eval room call) s = .ok w u) :
    Keeps s (e.opened room call opens s) none u := by
  have kept := (Accounted.expression room hcall e).settle notice s
  rw [settled] at kept
  exact kept

/-- A variable that no assignment of a block sets keeps its value, unless it is a stream. -/
theorem find?_of_unassigned
    (hcall : ∀ f values, Accounted memoryAccount (call f values) (opens f values))
    (hv : v ∉ streams) (unassigned : FlowGraph.lastAssigned v block = none)
    (h : g.runAssignments loc (Expr.eval room call) block s = .ok () t) :
    t.memory.find? v = s.memory.find? v := by
  induction block generalizing s with
  | nil =>
    cases h
    rfl
  | cons assignment rest ih =>
    obtain ⟨target, e⟩ := assignment
    rw [FlowGraph.lastAssigned_cons, Option.or_eq_none_iff] at unassigned
    obtain ⟨later, here⟩ := unassigned
    have other : v ≠ target := by
      rintro rfl
      simp at here
    obtain ⟨w, u, settled, onward⟩ := runAssignments_cons h
    rw [ih later onward, SortedMap.find?_insert_of_ne other]
    exact (keeps_of_settle hcall settled).others v hv

/-- Assignments in front of the last one only shape the machine in which its expression is
evaluated, and those behind it do not touch the variable. -/
theorem find?_of_assigned
    (hcall : ∀ f values, Accounted memoryAccount (call f values) (opens f values))
    (hv : v ∉ streams) {e : Expr} (assigned : FlowGraph.lastAssigned v block = some e)
    (h : g.runAssignments loc (Expr.eval room call) block s = .ok () t) :
    ∃ prior rest u w, block = prior ++ (v, e) :: rest ∧ FlowGraph.lastAssigned v rest = none ∧
      g.runAssignments loc (Expr.eval room call) prior s = .ok () u ∧
      Eval.Yields (e.eval room call) u w ∧ t.memory.find? v = some w := by
  induction block generalizing s with
  | nil => cases assigned
  | cons assignment rest ih =>
    obtain ⟨target, e'⟩ := assignment
    obtain ⟨w, u, settled, onward⟩ := runAssignments_cons h
    rw [FlowGraph.lastAssigned_cons] at assigned
    cases later : FlowGraph.lastAssigned v rest with
    | some last =>
      rw [later] at assigned
      obtain ⟨prior, rest', u', w', rfl, behind, ran, yields, found⟩ :=
        ih (later.trans assigned) onward
      refine ⟨(target, e') :: prior, rest', u', w', rfl, behind, ?_, yields, found⟩
      simp only [FlowGraph.runAssignments, Eval.bind_apply, settled]
      exact ran
    | none =>
      rw [later, Option.none_or] at assigned
      split at assigned
      · rename_i same
        subst same
        cases assigned
        refine ⟨[], rest, s, w, rfl, later, rfl, .of_settle settled, ?_⟩
        rw [find?_of_unassigned hcall hv later onward, SortedMap.find?_insert_self]
      · cases assigned

/-- A block adds the variables that it assigns, and streams from its callees. -/
theorem contains_behind
    (hcall : ∀ f values, Accounted memoryAccount (call f values) (opens f values))
    (h : g.runAssignments loc (Expr.eval room call) block s = .ok () t) (name : String) :
    t.memory.contains name ↔ s.memory.contains name ∨
      (∃ e, FlowGraph.lastAssigned name block = some e) ∨
      ∃ a ∈ g.opened room call opens loc block s, a.WritesBack name := by
  induction block generalizing s with
  | nil =>
    cases h
    simp [FlowGraph.lastAssigned, FlowGraph.opened]
  | cons assignment rest ih =>
    obtain ⟨target, e⟩ := assignment
    obtain ⟨w, u, settled, onward⟩ := runAssignments_cons h
    have first := (keeps_of_settle hcall settled).names nofun name
    have written : (u.memory.insert target w).contains name ↔
        target = name ∨ u.memory.contains name := by
      unfold SortedMap.contains
      by_cases same : target = name
      · subst same
        simp
      · simp [SortedMap.find?_insert_of_ne (Ne.symm same), same]
    have assigned : (∃ e', FlowGraph.lastAssigned name ((target, e) :: rest) = some e') ↔
        target = name ∨ ∃ e', FlowGraph.lastAssigned name rest = some e' := by
      rw [FlowGraph.lastAssigned_cons]
      cases FlowGraph.lastAssigned name rest <;> simp
    rw [ih onward, opened_cons settled, written, first, assigned]
    simp only [List.mem_append]
    grind

end Blocks

end TraceRepair
