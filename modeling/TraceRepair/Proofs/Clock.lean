import TraceRepair.Proofs.CoupledWalks
import TraceRepair.Proofs.Histories

namespace TraceRepair

/-- Whether the time is up when so many visits were paid for. -/
abbrev Clock := Nat → Bool

def Eval.tickBy (clock : Clock) (limits : Limits) : Eval Unit := fun s =>
  match s.left with
  | 0 => .error (.timeout limits.steps) s
  | left + 1 =>
    let paid := limits.steps - (left + 1)
    if clock paid then .error (.timeout paid) s else .ok () { s with left }

def walkBy (clock : Clock) (p : Program) (limits : Limits) :
    Nat → FlowGraph → Loc → Eval Unit
  | 0, _, _ => throw (.timeout limits.steps)
  | fuel + 1, g, loc => do
    Eval.tickBy clock limits
    visitBy p limits (walkBy clock p limits fuel) g loc

def Program.executeBy (clock : Clock) (p : Program) (limits : Limits) (input : RunInput) :
    Except RuntimeError Trace :=
  match p.function? limits.entry with
  | none => .error (.undefinedFunction limits.entry)
  | some g => outcome (walkBy clock p limits limits.steps g g.entry (.start g limits input))

namespace Clock

def never : Clock := fun _ => false

def budget (clock : Clock) (steps : Nat) : Nat := ((List.range steps).find? clock).getD steps

/-- The time is up when the budget is spent, unless this is the whole one. -/
structure Allows (clock : Clock) (steps budget : Nat) : Prop where
  le : budget ≤ steps
  before : ∀ n < budget, clock n = false
  behind : budget < steps → clock budget = true

/-- The first time that the clock says so ends the run. -/
theorem allows_budget (clock : Clock) (steps : Nat) :
    clock.Allows steps (clock.budget steps) := by
  unfold budget
  cases h : (List.range steps).find? clock with
  | none =>
    rw [List.find?_range_eq_none] at h
    refine ⟨Nat.le_refl _, ?_, fun less => absurd less (Nat.lt_irrefl _)⟩
    intro n hn
    simpa using h n hn
  | some n =>
    obtain ⟨up, member, before⟩ := List.find?_range_eq_some.mp h
    refine ⟨Nat.le_of_lt (List.mem_range.mp member), ?_, fun _ => up⟩
    intro k hk
    simpa using before k hk

theorem allows_never (steps : Nat) : never.Allows steps steps :=
  ⟨Nat.le_refl _, fun _ _ => rfl, fun less => absurd less (Nat.lt_irrefl _)⟩

end Clock

structure Shortened (steps budget fuel fuel' : Nat) (s t : Machine) : Prop where
  eq : t = { s with left := s.left + (steps - budget) }
  left_le_budget : s.left ≤ budget
  left_le : s.left ≤ fuel
  left_le' : t.left ≤ fuel'

def clockTie (steps budget fuel fuel' : Nat) : Tie :=
  .strict (Shortened steps budget fuel fuel') fun _ _ => False

namespace Shortened

variable {steps budget fuel fuel' : Nat}

theorem coupled {α : Type} {x y : Eval α}
    (h : ∀ {s t}, Shortened steps budget fuel fuel' s t →
      (clockTie steps budget fuel fuel').Ends (x s) (y t)) :
    Coupled (clockTie steps budget fuel fuel') x y :=
  ⟨h, fun h => h.elim⟩

theorem memory_eq {s t : Machine} (h : Shortened steps budget fuel fuel' s t) :
    t.memory = s.memory := by
  rw [h.eq]

theorem coupled_enter {limits limits' : Limits} (depth : limits'.callDepth = limits.callDepth)
    {g : FlowGraph} {run run' : Eval Unit}
    (h : Coupled (clockTie steps budget fuel fuel') run run') (args : List Value) :
    Coupled (clockTie steps budget fuel fuel') (enter limits g run args)
      (enter limits' g run' args) := by
  apply coupled
  rintro s t ⟨rfl, left_le_budget, left_le, left_le'⟩
  unfold enter
  rw [depth]
  split
  · exact .failure rfl ⟨rfl, left_le_budget, left_le, left_le'⟩
  · have body := h.meet (s := s.entering g args)
      (t := { s.entering g args with left := s.left + (steps - budget) })
      ⟨rfl, left_le_budget, left_le, left_le'⟩
    unfold Eval.inFrame
    unfold Machine.entering at body
    generalize run _ = r at body ⊢
    generalize run' _ = q at body ⊢
    cases body with
    | value a tied =>
      obtain ⟨rfl, left_le_budget, left_le, left_le'⟩ := tied
      exact .value _ ⟨rfl, left_le_budget, left_le, left_le'⟩
    | failure alike tied =>
      obtain ⟨rfl, left_le_budget, left_le, left_le'⟩ := tied
      exact .failure alike ⟨rfl, left_le_budget, left_le, left_le'⟩
    | stopped tied => exact tied.elim

/-- What does not look at the budget is coupled with itself. -/
theorem coupled_modify {f : Machine → Machine}
    (keeps : ∀ s t, Shortened steps budget fuel fuel' s t →
      Shortened steps budget fuel fuel' (f s) (f t)) :
    Coupled (clockTie steps budget fuel fuel') (modify f) (modify f) :=
  .modify (keeps _ _) fun h => h

section Walk

variable {p : Program} {limits limits' : Limits} {run run' : FlowGraph → Loc → Eval Unit}

theorem coupled_runAssignments (room : limits'.arrays = limits.arrays)
    (depth : limits'.callDepth = limits.callDepth)
    (h : ∀ g, Coupled (clockTie steps budget fuel fuel') (run g g.entry) (run' g g.entry))
    (g : FlowGraph) (loc : Loc) (block : List Assignment) :
    Coupled (clockTie steps budget fuel fuel')
      (g.runAssignments loc (Expr.eval limits.arrays
        (answerCall p limits fun callee => run callee callee.entry)) block)
      (g.runAssignments loc (Expr.eval limits'.arrays
        (answerCall p limits' fun callee => run' callee callee.entry)) block) := by
  rw [room]
  apply Coupled.runAssignments
  · exact Coupled.eval memory_eq (Coupled.answerCall fun {g args} _ =>
      coupled_enter depth (h g) args)
  · intro x y notice hxy
    apply hxy.settle
    · rintro s t e _ rfl ⟨rfl, left_le_budget, left_le, left_le'⟩
      exact ⟨rfl, left_le_budget, left_le, left_le'⟩
    · exact fun _ h => h
  · intro target v
    apply coupled_modify
    rintro s t ⟨rfl, left_le_budget, left_le, left_le'⟩
    exact ⟨rfl, left_le_budget, left_le, left_le'⟩

theorem coupled_visitBy (room : limits'.arrays = limits.arrays)
    (depth : limits'.callDepth = limits.callDepth)
    (h : ∀ g loc, Coupled (clockTie steps budget fuel fuel') (run g loc) (run' g loc))
    (g : FlowGraph) (loc : Loc) :
    Coupled (clockTie steps budget fuel fuel') (visitBy p limits run g loc)
      (visitBy p limits' run' g loc) := by
  apply Coupled.visitBy memory_eq
  · exact coupled_runAssignments room depth (fun g => h g g.entry) g loc
  · apply coupled_modify
    rintro s t ⟨rfl, left_le_budget, left_le, left_le'⟩
    exact ⟨rfl, left_le_budget, left_le, left_le'⟩
  · exact fun next => h g next

end Walk

theorem ends_mono {r q : EStateM.Result RuntimeError Machine Unit}
    (h : (clockTie steps budget fuel fuel').Ends r q) :
    (clockTie steps budget (fuel + 1) (fuel' + 1)).Ends r q := by
  have mono : ∀ {s t}, Shortened steps budget fuel fuel' s t →
      Shortened steps budget (fuel + 1) (fuel' + 1) s t :=
    fun h => ⟨h.1, h.2, Nat.le_succ_of_le h.3, Nat.le_succ_of_le h.4⟩
  cases h with
  | value a tied => exact .value a (mono tied)
  | failure alike tied => exact .failure alike (mono tied)
  | stopped tied => exact tied.elim

end Shortened

section Walk

variable {clock : Clock} {p : Program} {limits : Limits} {budget fuel fuel' : Nat}

/-- The clock stops a walk where the smaller budget ends. -/
theorem walkBy_spent (allows : clock.Allows limits.steps budget) (g : FlowGraph) (loc : Loc)
    {t : Machine} (h : t.left = limits.steps - budget) (enough : t.left ≤ fuel) :
    walkBy clock p limits fuel g loc t = .error (.timeout budget) t := by
  have le := allows.le
  cases fuel with
  | zero =>
    have whole : budget = limits.steps := by omega
    rw [whole]
    rfl
  | succ fuel =>
    rw [walkBy, Eval.bind_apply]
    cases hleft : t.left with
    | zero =>
      have whole : budget = limits.steps := by omega
      simp only [Eval.tickBy, hleft, whole]
    | succ left =>
      have paid : limits.steps - (left + 1) = budget := by omega
      have up := allows.behind (by omega)
      simp only [Eval.tickBy, hleft, paid, up, if_true]

theorem walkBy_paid (allows : clock.Allows limits.steps budget) (g : FlowGraph) (loc : Loc)
    {t : Machine} {left : Nat} (h : t.left = left + 1 + (limits.steps - budget))
    (within : left < budget) :
    walkBy clock p limits (fuel + 1) g loc t =
      visitBy p limits (walkBy clock p limits fuel) g loc
        { t with left := left + (limits.steps - budget) } := by
  have le := allows.le
  have split : t.left = left + (limits.steps - budget) + 1 := by omega
  have early : clock (limits.steps - (left + (limits.steps - budget) + 1)) = false := by
    apply allows.before
    omega
  rw [walkBy, Eval.bind_apply]
  simp only [Eval.tickBy, split, early, Bool.false_eq_true, if_false]

/-- By induction on the fuel: both walks pay for the same visits and stop at the same one. -/
theorem Shortened.coupled_walk (allows : clock.Allows limits.steps budget) (g : FlowGraph)
    (loc : Loc) :
    Coupled (clockTie limits.steps budget fuel fuel')
      (walk p { limits with steps := budget } fuel g loc) (walkBy clock p limits fuel' g loc) := by
  induction fuel generalizing fuel' g loc with
  | zero =>
    apply Shortened.coupled
    intro s t hst
    have spent := Nat.le_zero.mp hst.left_le
    have left : t.left = limits.steps - budget := by simp [hst.eq, spent]
    rw [walk_spent spent, walkBy_spent allows g loc left hst.left_le']
    exact .failure rfl hst
  | succ fuel ih =>
    apply Shortened.coupled
    intro s t hst
    cases hs : s.left with
    | zero =>
      have left : t.left = limits.steps - budget := by simp [hst.eq, hs]
      rw [walk_spent hs, walkBy_spent allows g loc left hst.left_le']
      exact .failure rfl hst
    | succ left =>
      have ahead : t.left = left + 1 + (limits.steps - budget) := by simp [hst.eq, hs]
      have := hst.left_le_budget
      have := hst.left_le
      have := hst.left_le'
      obtain ⟨fuel', rfl⟩ : ∃ more, fuel' = more + 1 :=
        Nat.exists_eq_succ_of_ne_zero (by omega)
      rw [walk_paid hs, visitAt_eq, walkBy_paid allows g loc ahead (by omega)]
      apply Shortened.ends_mono
      apply (Shortened.coupled_visitBy rfl rfl (fun g loc => ih g loc) g loc).meet
      refine ⟨?_, ?_, ?_, ?_⟩
      · rw [hst.eq]
      · dsimp only
        omega
      · dsimp only
        omega
      · dsimp only
        omega

/-- A clock whose time is never up is as good as none. -/
theorem walkBy_never (p : Program) (limits : Limits) (fuel : Nat) (g : FlowGraph) (loc : Loc) :
    walkBy Clock.never p limits fuel g loc = walk p limits fuel g loc := by
  induction fuel generalizing g loc with
  | zero => rfl
  | succ fuel ih =>
    have onward : walkBy Clock.never p limits fuel = walk p limits fuel := by
      funext g loc
      exact ih g loc
    funext s
    rw [walkBy, onward, Eval.bind_apply]
    cases hs : s.left with
    | zero =>
      rw [walk_spent hs]
      simp only [Eval.tickBy, hs]
    | succ left =>
      rw [walk_paid hs]
      simp only [Eval.tickBy, hs, Clock.never, Bool.false_eq_true, if_false]
      rfl

end Walk

section Execution

theorem Shortened.outcome_eq {steps budget fuel fuel' : Nat}
    {r q : EStateM.Result RuntimeError Machine Unit}
    (h : (clockTie steps budget fuel fuel').Ends r q) : outcome q = outcome r := by
  cases h with
  | value a tied =>
    rw [tied.eq]
    rfl
  | @failure s t e _ alike tied =>
    cases alike
    rw [tied.eq]
    cases e <;> rfl
  | stopped tied => exact tied.elim

/-- A run that watches a clock is one with a smaller budget. -/
theorem executeBy_eq (clock : Clock) (p : Program) (limits : Limits) (input : RunInput) :
    p.executeBy clock limits input =
      (p.execute { limits with steps := clock.budget limits.steps } input).1 := by
  have allows := clock.allows_budget limits.steps
  generalize clock.budget limits.steps = budget at allows ⊢
  unfold Program.executeBy
  cases found : p.function? limits.entry with
  | none => exact (@execute_unknown p { limits with steps := budget } found input).symm
  | some g =>
    rw [@execute_found p { limits with steps := budget } g found input]
    apply Shortened.outcome_eq
    apply (Shortened.coupled_walk allows g g.entry).meet
    have whole := Nat.add_sub_of_le allows.le
    exact ⟨by simp [Machine.start, whole], Nat.le_refl _, Nat.le_refl _, Nat.le_refl _⟩

/-- A run that watches no clock. -/
theorem executeBy_never (p : Program) (limits : Limits) (input : RunInput) :
    p.executeBy Clock.never limits input = (p.execute limits input).1 := by
  unfold Program.executeBy
  cases found : p.function? limits.entry with
  | none => rw [execute_unknown found]
  | some g =>
    rw [execute_found found]
    exact congrArg outcome (congrFun (walkBy_never p limits limits.steps g g.entry) _)

end Execution

section Fuel

variable {p : Program} {limits : Limits} {fuel fuel' : Nat} {s : Machine}

theorem Shortened.coupled_fuel (p : Program) (limits : Limits) (fuel fuel' : Nat) (g : FlowGraph)
    (loc : Loc) : Coupled (clockTie limits.steps limits.steps fuel fuel') (walk p limits fuel g loc)
      (walk p limits fuel' g loc) := by
  rw [← walkBy_never p limits fuel' g loc]
  exact Shortened.coupled_walk (Clock.allows_never limits.steps) g loc

/-- Fuel beyond the budget does not matter to a block either. -/
theorem runAssignments_fuel (g : FlowGraph) (loc : Loc) (block : List Assignment)
    (within : s.left ≤ limits.steps) (left_le : s.left ≤ fuel) (left_le' : s.left ≤ fuel') :
    g.runAssignments loc (Expr.eval limits.arrays (p.handler limits fuel)) block s =
      g.runAssignments loc (Expr.eval limits.arrays (p.handler limits fuel')) block s := by
  have blocks : Coupled (clockTie limits.steps limits.steps fuel fuel')
      (g.runAssignments loc (Expr.eval limits.arrays (p.handler limits fuel)) block)
      (g.runAssignments loc (Expr.eval limits.arrays (p.handler limits fuel')) block) :=
    Shortened.coupled_runAssignments rfl rfl
      (fun g => Shortened.coupled_fuel p limits fuel fuel' g g.entry) g loc block
  have ends := blocks.meet (s := s) (t := s) ⟨by simp, within, left_le, left_le'⟩
  generalize FlowGraph.runAssignments g loc _ block s = r at ends ⊢
  generalize FlowGraph.runAssignments g loc _ block s = q at ends ⊢
  cases ends with
  | value a tied => simp [tied.eq]
  | failure alike tied =>
    cases alike
    simp [tied.eq]
  | stopped tied => exact tied.elim

end Fuel

end TraceRepair
