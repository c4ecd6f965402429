import TraceRepair.Proofs.BlockMemory
import TraceRepair.Proofs.Clock
import TraceRepair.Proofs.OpenCalls

namespace TraceRepair

/-- There is fuel for the budget, and the open calls are within their limit. -/
structure Machine.Ready (s : Machine) (limits : Limits) (fuel : Nat) : Prop where
  left_le : s.left ≤ fuel
  fuel_le : fuel ≤ limits.steps
  depth_le : s.depth ≤ limits.callDepth

def Activation.Called (p : Program) (limits : Limits) (a : Activation) : Prop :=
  ∃ fuel g caller args, (Machine.entering caller g args).Ready limits fuel ∧
    a = activation p limits fuel g (caller.entering g args)

def memoryBehind (start : Memory) (stays : List Stay) : Memory :=
  stays.foldl (fun m stay => stay.ended.getD m) start

/-- What a stay that ended in a memory says of it, going by the memory in which it began. -/
structure Stay.Accords (p : Program) (limits : Limits) (g : FlowGraph) (stay : Stay) (m : Memory) :
    Prop where
  assigned : ∀ v, v ∉ streams → ∀ e, g.assigned stay.loc v = .ok (some e) →
    ∃ prior rest u w, g.block stay.loc = .ok (prior ++ (v, e) :: rest) ∧
      FlowGraph.lastAssigned v rest = none ∧
      g.runAssignments stay.loc (Expr.eval limits.arrays (p.handler limits limits.steps)) prior
        stay.began = .ok () u ∧
      Eval.Yields (e.eval limits.arrays (p.handler limits limits.steps)) u w ∧
      m.find? v = some w
  kept : ∀ v, v ∉ streams → g.assigned stay.loc v = .ok none →
    m.find? v = stay.began.memory.find? v
  names : ∀ name, m.contains name ↔ stay.began.memory.contains name ∨
    (∃ e, g.assigned stay.loc name = .ok (some e)) ∨ ∃ a ∈ stay.calls, a.WritesBack name

/-- Stays that follow each other, the first of which began in the given memory. -/
inductive Linked (p : Program) (limits : Limits) (g : FlowGraph) : Memory → List Stay → Prop where
  | arrived (m : Memory) : Linked p limits g m []
  | stopped (loc : Loc) (s : Machine) (calls : List Activation) :
      Linked p limits g s.memory [⟨loc, s, calls, none⟩]
  | ended {loc : Loc} {s : Machine} {calls : List Activation} {m : Memory} {rest : List Stay}
      (accords : Stay.Accords p limits g ⟨loc, s, calls, some m⟩ m)
      (later : Linked p limits g m rest) :
      Linked p limits g s.memory (⟨loc, s, calls, some m⟩ :: rest)

namespace Linked

variable {p : Program} {limits : Limits} {g : FlowGraph} {m n : Memory} {earlier later : List Stay}
  {stay : Stay}

/-- The first of linked stays. -/
theorem accords (h : Linked p limits g m (stay :: later)) (ended : stay.ended = some n) :
    stay.began.memory = m ∧ stay.Accords p limits g n := by
  cases h with
  | stopped => cases ended
  | ended accords _ =>
    cases ended
    exact ⟨rfl, accords⟩

/-- A stay with others behind it has ended. -/
theorem onward (h : Linked p limits g m (stay :: later)) (more : later ≠ []) :
    ∃ n, stay.ended = some n ∧ Linked p limits g n later := by
  cases h with
  | stopped => exact absurd rfl more
  | ended _ onward => exact ⟨_, rfl, onward⟩

theorem behind (h : Linked p limits g m (earlier ++ stay :: later)) :
    Linked p limits g (memoryBehind m earlier) (stay :: later) := by
  induction earlier generalizing m with
  | nil => exact h
  | cons first rest ih =>
    obtain ⟨n, ended, onward⟩ := h.onward (by simp)
    have behind := ih onward
    unfold memoryBehind at behind ⊢
    simpa [ended] using behind

/-- Names come from where the first stay began, from the blocks and from the calls in between. -/
theorem names (h : Linked p limits g m (earlier ++ stay :: later)) (ended : stay.ended = some n)
    (name : String) : n.contains name ↔ m.contains name ∨
      (∃ visited ∈ earlier ++ [stay], ∃ e, g.assigned visited.loc name = .ok (some e)) ∨
      ∃ visited ∈ earlier ++ [stay], ∃ a ∈ visited.calls, a.WritesBack name := by
  induction earlier generalizing m with
  | nil =>
    obtain ⟨rfl, accords⟩ := h.accords ended
    simpa using accords.names name
  | cons first rest ih =>
    obtain ⟨m', ended', onward⟩ := h.onward (by simp)
    obtain ⟨rfl, accords⟩ := h.accords ended'
    rw [ih onward, accords.names name]
    simp only [List.cons_append, List.mem_cons, exists_eq_or_imp]
    grind

end Linked

section Walk

variable {p : Program} {limits : Limits} {fuel : Nat}

def calledAccount (p : Program) (limits : Limits) (fuel : Nat) : Account Activation where
  holds s calls failure t := (budgetAccount limits fuel).holds s calls failure t ∧
    (s.left ≤ fuel → ∀ a ∈ calls, a.Called p limits)
  refl s := ⟨(budgetAccount limits fuel).refl s, by simp⟩
  fails s e raised := ⟨(budgetAccount limits fuel).fails s raised, by simp⟩
  trans first second := by
    refine ⟨(budgetAccount limits fuel).trans first.1 second.1, ?_⟩
    intro enough a member
    rcases List.mem_append.mp member with member | member
    · exact first.2 enough a member
    · exact second.2 (first.1.left_le enough) a member
  settles n mild h := ⟨(budgetAccount limits fuel).settles n mild h.1, h.2⟩

theorem calledAccount.handler (fuel_le : fuel ≤ limits.steps) (name : String)
    (args : List Value) :
    Accounted (calledAccount p limits fuel) (p.handler limits fuel name args)
      (openedCall p limits (activation p limits fuel) name args) := by
  intro s
  refine ⟨budgetAccount.handler (fun g s => spends_walk p limits fuel g g.entry s) name args s, ?_⟩
  intro enough a member
  unfold openedCall at member
  split at member
  · cases member
  · rename_i g found
    split at member
    · rename_i fits
      rw [List.mem_singleton.mp member]
      exact ⟨fuel, g, s, args, ⟨enough, fuel_le, fits.2⟩, rfl⟩
    · cases member

theorem called_of_blockCalls {g : FlowGraph} {loc : Loc} {block : List Assignment} {s : Machine}
    (ready : s.Ready limits fuel) :
    ∀ a ∈ blockCalls p limits fuel g loc block s, a.Called p limits := by
  have body : Accounted (calledAccount p limits fuel)
      (g.runAssignments loc (Expr.eval limits.arrays (p.handler limits fuel)) block)
      (blockCalls p limits fuel g loc block) := by
    apply Accounted.assignments
    · exact calledAccount.handler ready.fuel_le
    · exact fun target v s => ⟨budgetAccount.write target v s, by simp⟩
  exact (body s).2 ready.left_le

/-- Of the machine in which a walk goes on behind a visit. -/
theorem Machine.Ready.recorded {g : FlowGraph} {loc : Loc} {block : List Assignment}
    {s t : Machine} (ready : s.Ready limits fuel)
    (ends : g.runAssignments loc (Expr.eval limits.arrays (p.handler limits fuel)) block s =
      .ok () t) : (t.recorded g.name loc).Ready limits fuel := by
  have spent := budgetAccount.assignments (fun g s => spends_walk p limits fuel g g.entry s) g loc
    block s
  rw [ends] at spent
  exact ⟨spent.left_le ready.left_le, ready.fuel_le, spent.depth_eq ▸ ready.depth_le⟩

theorem Machine.Ready.paid {s : Machine} {left : Nat} (ready : s.Ready limits (fuel + 1))
    (hleft : s.left = left + 1) : ({ s with left } : Machine).Ready limits fuel := by
  have := ready.left_le
  have := ready.fuel_le
  exact ⟨by dsimp only; omega, by omega, ready.depth_le⟩

theorem called_of_stays {g : FlowGraph} {loc : Loc} {s : Machine} (ready : s.Ready limits fuel) :
    ∀ stay ∈ stays p limits fuel g loc s, ∀ a ∈ stay.calls, a.Called p limits := by
  refine walk_induct (p := p) (motive := fun fuel _ _ s _ made => s.Ready limits fuel →
    ∀ stay ∈ made, ∀ a ∈ stay.calls, a.Called p limits) ?_ ?_ fuel g loc s ready
  · simp
  · intro fuel g loc s left r made ih hleft form ready
    have paid := ready.paid hleft
    cases form with
    | lost => simp
    | broken =>
      intro stay member
      rw [List.mem_singleton.mp member]
      exact called_of_blockCalls paid
    | stranded =>
      intro stay member
      rw [List.mem_singleton.mp member]
      exact called_of_blockCalls paid
    | arrived =>
      intro stay member
      rw [List.mem_singleton.mp member]
      exact called_of_blockCalls paid
    | onward _ ends =>
      intro stay member
      rcases List.mem_cons.mp member with rfl | member
      · exact called_of_blockCalls paid
      · exact ih g _ _ (paid.recorded ends) stay member

/-- All that a history leads to was opened by calls. -/
theorem Activation.LeadsTo.called {a b : Activation} (leads : a.LeadsTo b) {g : FlowGraph}
    {s : Machine} (ready : s.Ready limits fuel) (of : a = activation p limits fuel g s) :
    b = a ∨ b.Called p limits := by
  induction leads generalizing fuel g s with
  | self => exact .inl rfl
  | call there called _ ih =>
    subst of
    obtain ⟨fuel', g', caller, args, ready', rfl⟩ := called_of_stays ready _ there _ called
    rcases ih ready' rfl with rfl | called
    · exact .inr ⟨fuel', g', caller, args, ready', rfl⟩
    · exact .inr called

/-- What the last assignment to each variable gave it, once the block is through. -/
theorem accords_of_runAssignments {g : FlowGraph} {loc : Loc} {block : List Assignment}
    {s t : Machine} (ready : s.Ready limits fuel) (found : g.block loc = .ok block)
    (ends : g.runAssignments loc (Expr.eval limits.arrays (p.handler limits fuel)) block s =
      .ok () t) :
    Stay.Accords p limits g ⟨loc, s, blockCalls p limits fuel g loc block s, some t.memory⟩
      t.memory := by
  have looked : ∀ v, g.assigned loc v = .ok (FlowGraph.lastAssigned v block) := by
    intro v
    rw [FlowGraph.assigned, found]
    rfl
  have full := ends
  have within : s.left ≤ limits.steps := Nat.le_trans ready.left_le ready.fuel_le
  rw [runAssignments_fuel g loc block within ready.left_le within] at full
  constructor
  · intro v hv e assigned
    rw [looked, Except.ok.injEq] at assigned
    obtain ⟨prior, rest, u, w, rfl, behind, ran, yields, held⟩ :=
      find?_of_assigned memoryAccount.handler hv assigned full
    exact ⟨prior, rest, u, w, found, behind, ran, yields, held⟩
  · intro v hv unassigned
    rw [looked, Except.ok.injEq] at unassigned
    exact find?_of_unassigned memoryAccount.handler hv unassigned ends
  · intro name
    simp only [looked, Except.ok.injEq]
    exact contains_behind memoryAccount.handler ends name

/-- By induction on the walk: each stay begins in the memory in which the one before ended. -/
theorem linked_stays {g : FlowGraph} {loc : Loc} {s : Machine} (ready : s.Ready limits fuel) :
    Linked p limits g s.memory (stays p limits fuel g loc s) := by
  refine walk_induct (p := p) (motive := fun fuel g _ s _ made => s.Ready limits fuel →
    Linked p limits g s.memory made) ?_ ?_ fuel g loc s ready
  · intro _ g loc s _ _
    exact .stopped loc s []
  · intro fuel g loc s left r made ih hleft form ready
    have paid := ready.paid hleft
    cases form with
    | lost => exact Linked.stopped loc { s with left } _
    | broken => exact Linked.stopped loc { s with left } _
    | stranded found ends =>
      exact .ended (accords_of_runAssignments paid found ends) (.arrived _)
    | arrived found ends =>
      exact .ended (accords_of_runAssignments paid found ends) (.arrived _)
    | onward found ends =>
      exact .ended (accords_of_runAssignments paid found ends)
        (ih g _ _ (paid.recorded ends))

end Walk

/-- Every recorded memory holds what the last assignment of its block gave to each variable.
Variables that the block does not assign keep their values from the visit before, apart from streams
that calls wrote to; a frame starts with the parameters and the streams, and its memory knows no
other names than these and those that were assigned. -/
theorem execute_lastAssigned {p : Program} {limits : Limits} {input : RunInput}
    {history : Activation} (h : p.history limits input = some history) :
    (∀ t, (p.execute limits input).1 = .ok t → t.visits = history.listing) ∧
    (∀ visit ∈ history.listing, ∃ a, history.LeadsTo a ∧ ∃ stay ∈ a.stays,
      stay.ended = some visit.memory ∧ visit.function = a.graph.name ∧ visit.loc = stay.loc) ∧
    ∀ a, history.LeadsTo a →
      (a = history ∧ a.start = initialMemory a.graph input ∨
        ∃ args caller, a.start = frame a.graph args caller) ∧
      ∀ earlier stay later m, a.stays = earlier ++ stay :: later → stay.ended = some m →
        stay.began.memory = memoryBehind a.start earlier ∧ stay.Accords p limits a.graph m ∧
        ∀ name, m.contains name ↔ a.start.contains name ∨
          (∃ visited ∈ earlier ++ [stay], ∃ e, a.graph.assigned visited.loc name = .ok (some e)) ∨
          ∃ visited ∈ earlier ++ [stay], ∃ call ∈ visited.calls, call.WritesBack name := by
  obtain ⟨g, found, rfl⟩ := Option.map_eq_some_iff.mp h
  have ready : (Machine.start g limits input).Ready limits limits.steps :=
    ⟨Nat.le_refl _, Nat.le_refl _, Nat.zero_le _⟩
  refine ⟨?_, Activation.exists_of_mem_listing _, ?_⟩
  · intro t ran
    obtain ⟨other, same, listed, -⟩ := pays_execute ran
    cases h.symm.trans same
    exact listed
  · intro a leads
    constructor
    · rcases leads.called ready rfl with rfl | ⟨fuel, callee, caller, args, -, rfl⟩
      · exact .inl ⟨rfl, rfl⟩
      · exact .inr ⟨args, caller.memory, rfl⟩
    · intro earlier stay later m split ended
      have linked : Linked p limits a.graph a.start a.stays := by
        rcases leads.called ready rfl with rfl | ⟨fuel, callee, caller, args, entered, rfl⟩
        · exact linked_stays ready
        · exact linked_stays entered
      rw [split] at linked
      obtain ⟨began, accords⟩ := linked.behind.accords ended
      exact ⟨began, accords, linked.names ended⟩

/-- The second stay sets the word anew, to what its own call comes to. -/
theorem execute_lastAssigned_talking :
    ∃ history first second m, talking.history { steps := 4 } {} = some history ∧
      history.stays = [first, second] ∧ second.ended = some m ∧
      first.ended = some second.began.memory ∧
      ∃ e u w, history.graph.assigned second.loc "word" = .ok (some e) ∧
        Eval.Yields (e.eval {} (talking.handler { steps := 4 } 4)) u w ∧
        m.find? "word" = some w := by
  have seen : (talking.history { steps := 4 } {}).map
      (fun a => a.stays.map fun stay => (stay.loc, stay.ended.isSome)) =
      some [(1, true), (2, true)] := by decide +kernel
  obtain ⟨history, h, stays⟩ := Option.map_eq_some_iff.mp seen
  obtain ⟨first, rest, split, one, more⟩ := List.map_eq_cons_iff.mp stays
  obtain ⟨second, none, rfl, two, last⟩ := List.map_eq_cons_iff.mp more
  obtain rfl := List.map_eq_nil_iff.mp last
  obtain ⟨-, before⟩ := Prod.mk.inj one
  obtain ⟨loc, after⟩ := Prod.mk.inj two
  obtain ⟨m, ended⟩ := Option.isSome_iff_exists.mp after
  obtain ⟨n, ended'⟩ := Option.isSome_iff_exists.mp before
  have laws := ((execute_lastAssigned h).2.2 history (.self _)).2 [first] second [] m split ended
  obtain ⟨began, accords, -⟩ := laws
  have assigned : ∃ e, history.graph.assigned second.loc "word" = .ok (some e) := by
    rw [loc]
    cases h
    exact ⟨_, rfl⟩
  obtain ⟨e, assigned⟩ := assigned
  obtain ⟨prior, rest, u, w, -, -, -, yields, held⟩ :=
    accords.assigned "word" (by decide) e assigned
  refine ⟨history, first, second, m, h, split, ended, ?_, e, u, w, assigned, yields, held⟩
  rw [began, ended']
  simp [memoryBehind, ended']

end TraceRepair
