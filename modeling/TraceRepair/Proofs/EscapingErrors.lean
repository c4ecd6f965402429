import TraceRepair.Proofs.Clock
import TraceRepair.Proofs.WellNested

namespace TraceRepair

/-- The budget, a contradiction in the program, and the end of the process. -/
theorem RuntimeError.isFatal_iff {e : RuntimeError} :
    e.isFatal = true ↔
      (∃ steps, e = .timeout steps) ∨ (∃ fault, e = .malformed fault) ∨ e = .aborted := by
  cases e <;> simp [RuntimeError.isFatal]

def Eval.FailsOnly {α : Type} (P : RuntimeError → Prop) (x : Eval α) : Prop :=
  ∀ s t e, x s = .error e t → P e

namespace Eval.FailsOnly

variable {α β : Type} {P : RuntimeError → Prop}

theorem of_ok {x : Eval α} (h : ∀ s, ∃ a t, x s = .ok a t) : FailsOnly P x := by
  intro s t e failed
  obtain ⟨a, u, done⟩ := h s
  cases done.symm.trans failed

/-- The second computation is only looked at for values that the first one comes to. -/
theorem bind {x : Eval α} {k : α → Eval β} (hx : FailsOnly P x)
    (hk : ∀ s a t, x s = .ok a t → FailsOnly P (k a)) : FailsOnly P (x >>= k) := by
  intro s t e h
  rw [Eval.bind_apply] at h
  cases hs : x s with
  | ok a u =>
    rw [hs] at h
    exact hk s a u hs u t e h
  | error e' u =>
    rw [hs] at h
    cases h
    exact hx s _ _ hs

theorem throw {e : RuntimeError} (h : P e) : FailsOnly P (throw e : Eval α) := by
  intro s t e' failed
  cases failed
  exact h

theorem ofExcept {r : Except RuntimeError α} (h : TraceRepair.FailsOnly P r) :
    FailsOnly P (Eval.ofExcept r) := by
  cases r with
  | ok a => exact of_ok fun s => ⟨a, s, rfl⟩
  | error e => exact throw (h e rfl)

theorem ofModel (malformed : ∀ fault, P (.malformed fault)) (r : Except ModelError α) :
    FailsOnly P (Eval.ofModel r) := by
  cases r with
  | ok a => exact of_ok fun s => ⟨a, s, rfl⟩
  | error e => exact throw (malformed (.model e))

/-- What is left of the failures are those that a default value cannot stand for. -/
theorem settle (notice : RuntimeError → Notice) {x : Eval Value}
    (h : FailsOnly (fun e => e.isFatal = true → P e) x) : FailsOnly P (Eval.settle notice x) := by
  intro s t e failed
  rw [Eval.settle_apply] at failed
  cases ran : x s with
  | ok v u =>
    rw [ran] at failed
    cases failed
  | error e' u =>
    simp only [ran, Eval.settled] at failed
    split at failed
    · rename_i fatal
      cases failed
      exact h s t e ran fatal
    · cases failed

/-- Each value is settled, so only its fatal failures end the block. -/
theorem runAssignments {g : FlowGraph} {loc : Loc} {value : Expr → Eval Value}
    {block : List Assignment}
    (h : ∀ assignment ∈ block, FailsOnly (fun e => e.isFatal = true → P e) (value assignment.2)) :
    FailsOnly P (g.runAssignments loc value block) := by
  induction block with
  | nil => exact of_ok fun s => ⟨(), s, rfl⟩
  | cons assignment rest ih =>
    apply (settle _ (h assignment List.mem_cons_self)).bind
    intro _ v _ _
    refine bind (of_ok fun s => ⟨(), _, rfl⟩) ?_
    intro _ _ _ _
    exact ih fun later member => h later (List.mem_cons_of_mem assignment member)

/-- A visit fails as its block does, as the walk does from where the visit leads, or because a
location is missing. -/
theorem visitBy {p : Program} {limits : Limits} {run : FlowGraph → Loc → Eval Unit}
    (malformed : ∀ fault, P (.malformed fault)) {g : FlowGraph} {loc : Loc}
    (hblock : ∀ block, g.block loc = .ok block → FailsOnly P (g.runAssignments loc
      (Expr.eval limits.arrays (answerCall p limits fun callee => run callee callee.entry)) block))
    (hnext : ∀ tr m next, g.transition loc = .ok tr → FlowGraph.nextLoc tr m = some next →
      FailsOnly P (run g next)) : FailsOnly P (visitBy p limits run g loc) := by
  apply (ofModel malformed _).bind
  intro _ block _ there
  apply (hblock block (Eval.eq_of_ofModel there)).bind
  intro _ _ _ _
  refine bind (of_ok fun s => ⟨(), _, rfl⟩) ?_
  intro _ _ _ _
  apply (ofModel malformed _).bind
  intro _ tr _ leaves
  refine bind (of_ok fun s => ⟨s, s, rfl⟩) ?_
  intro _ u _ _
  split
  · exact of_ok fun s => ⟨(), s, rfl⟩
  · rename_i next follows
    exact hnext tr u.memory next (Eval.eq_of_ofModel leaves) follows

theorem tickBy (timeout : ∀ steps, P (.timeout steps)) (clock : Clock) (limits : Limits) :
    FailsOnly P (Eval.tickBy clock limits) := by
  intro s t e h
  unfold Eval.tickBy at h
  split at h
  · cases h
    exact timeout _
  · dsimp only at h
    split at h
    · cases h
      exact timeout _
    · cases h

end Eval.FailsOnly

abbrev FailsFatally {α : Type} (x : Eval α) : Prop := Eval.FailsOnly (·.isFatal = true) x

namespace FailsFatally

/-- Whatever the values do, as each is settled. -/
theorem runAssignments (g : FlowGraph) (loc : Loc) (value : Expr → Eval Value)
    (block : List Assignment) : FailsFatally (g.runAssignments loc value block) := by
  apply Eval.FailsOnly.runAssignments
  intro _ _ _ _ _ _ fatal
  exact fatal

/-- A callee fails as its caller does, so this holds however deep a failure arises. -/
theorem walkBy (clock : Clock) (p : Program) (limits : Limits) (fuel : Nat) (g : FlowGraph)
    (loc : Loc) : FailsFatally (walkBy clock p limits fuel g loc) := by
  induction fuel generalizing g loc with
  | zero => exact .throw rfl
  | succ fuel ih =>
    have ticks : FailsFatally (Eval.tickBy clock limits) :=
      Eval.FailsOnly.tickBy (fun _ => rfl) clock limits
    have visits : FailsFatally (visitBy p limits (TraceRepair.walkBy clock p limits fuel) g loc) :=
      Eval.FailsOnly.visitBy (fun _ => rfl) (fun block _ => runAssignments g loc _ block)
        fun _ _ next _ _ => ih g next
    exact ticks.bind fun _ _ _ _ => visits

theorem walk (p : Program) (limits : Limits) (fuel : Nat) (g : FlowGraph) (loc : Loc) :
    FailsFatally (walk p limits fuel g loc) := by
  rw [← walkBy_never]
  exact walkBy Clock.never p limits fuel g loc

end FailsFatally

/-- Any failure is an allowed one, where those of operations on values are. -/
def Account.ofFailures (allowed : RuntimeError → Prop) (h : ∀ e, e.isRaised = true → allowed e) :
    Account Unit where
  holds _ _ failure _ := ∀ e, failure = some e → allowed e
  refl s e none := by cases none
  fails s e raised e' same := by
    cases same
    exact h e raised
  trans _ after := after
  settles _ _ _ e none := by cases none

/-- Without functions to call, operations on values are all that can fail. -/
theorem raised_evaluate_empty {limits : Limits} {e : Expr} {memory : Memory} {x : RuntimeError}
    {t : Machine} (h : Program.empty.evaluate limits e memory = .error x t) :
    x.isRaised = true := by
  have raised : Accounted (.ofFailures (·.isRaised = true) fun _ raised => raised)
      (e.eval limits.arrays (Program.empty.handler limits limits.steps))
      (e.opened limits.arrays (Program.empty.handler limits limits.steps)
        (openedCall Program.empty limits fun _ _ => ())) := by
    apply Accounted.expression
    intro name args
    apply Accounted.answerCall
    · intro s g found
      cases found
    · intro s g found
      cases found
  apply raised { memory, left := limits.steps }
  exact congrArg Eval.failure? h

/-- A run of a function that is there fails only where its walk finds the program malformed, or
where the process ends. -/
theorem walk_of_execute_error {p : Program} {limits : Limits} {input : RunInput} {g : FlowGraph}
    (found : p.function? limits.entry = some g) {e : RuntimeError}
    (h : (p.execute limits input).1 = .error e) :
    ((∃ fault, e = .malformed fault) ∨ e = .aborted) ∧
      ∃ t, walk p limits limits.steps g g.entry (.start g limits input) = .error e t := by
  rw [execute_found found] at h
  cases hwalk : walk p limits limits.steps g g.entry (.start g limits input) with
  | ok _ t =>
    rw [hwalk] at h
    cases h
  | error x t =>
    rw [hwalk] at h
    have fatal := FailsFatally.walk p limits limits.steps g g.entry _ t x hwalk
    rcases RuntimeError.isFatal_iff.mp fatal with ⟨steps, rfl⟩ | ⟨fault, rfl⟩ | rfl
    · cases h
    · cases h
      exact ⟨.inl ⟨fault, rfl⟩, t, rfl⟩
    · cases h
      exact ⟨.inr rfl, t, rfl⟩

/-- Runs and walks may watch any clock; those that watch none are the ones whose time is never up.
A run that comes to no trace has no entry function, or its program is malformed, or its process
ends, which is an outcome of its own and no error that the run returns. -/
theorem execute_errors (p : Program) (limits : Limits) (input : RunInput) :
    (p.function? limits.entry = none →
      p.execute limits input = (.error (.undefinedFunction limits.entry), [])) ∧
    (∀ clock, (∃ name, p.executeBy clock limits input = .error (.undefinedFunction name)) ↔
      p.function? limits.entry = none) ∧
    (∀ clock e, p.executeBy clock limits input = .error e →
      e = .undefinedFunction limits.entry ∨ (∃ fault, e = .malformed fault) ∨ e = .aborted) ∧
    p.executeBy Clock.never limits input = (p.execute limits input).1 ∧
    (∀ clock fuel g loc s e t, walkBy clock p limits fuel g loc s = .error e t →
      (∃ steps, e = .timeout steps) ∨ (∃ fault, e = .malformed fault) ∨ e = .aborted) ∧
    (∀ fuel g loc, walkBy Clock.never p limits fuel g loc = walk p limits fuel g loc) ∧
    ∀ e memory x t, Program.empty.evaluate limits e memory = .error x t →
      (∀ steps, x ≠ .timeout steps) ∧ ∀ fault, x ≠ .malformed fault := by
  refine ⟨?_, ?_, ?_, executeBy_never p limits input, ?_, walkBy_never p limits, ?_⟩
  · intro found
    simp only [Program.execute, found]
  · intro clock
    rw [executeBy_eq]
    generalize clock.budget limits.steps = steps
    constructor
    · rintro ⟨name, h⟩
      cases found : p.function? limits.entry with
      | none => rfl
      | some g =>
        obtain ⟨⟨fault, same⟩ | same, _⟩ :=
          @walk_of_execute_error p { limits with steps } input g found _ h
        · cases same
        · cases same
    · intro found
      exact ⟨limits.entry, @execute_unknown p { limits with steps } found input⟩
  · intro clock e h
    rw [executeBy_eq] at h
    generalize clock.budget limits.steps = steps at h
    cases found : p.function? limits.entry with
    | none =>
      rw [@execute_unknown p { limits with steps } found input] at h
      cases h
      exact .inl rfl
    | some g => exact .inr (@walk_of_execute_error p { limits with steps } input g found _ h).1
  · intro clock fuel g loc s e t h
    exact RuntimeError.isFatal_iff.mp (FailsFatally.walkBy clock p limits fuel g loc s t e h)
  · intro e memory x t h
    have raised := raised_evaluate_empty h
    constructor
    · rintro steps rfl
      cases raised
    · rintro fault rfl
      cases raised

def mute : Program :=
  talking.addFunction
    { name := "say", returnType := "string", entry := 1, params := [⟨"string", "text"⟩] }

/-- A missing entry function, and a callee without its block. -/
theorem execute_errors_talking :
    talking.execute { entry := "start" } {} = (.error (.undefinedFunction "start"), []) ∧
    ∃ fault, (mute.execute {} {}).1 = .error (.malformed fault) := by
  constructor
  · exact (execute_errors talking { entry := "start" } {}).1 (by decide +kernel)
  · have fails : (mute.execute {} {}).1.toOption.isNone = true := by decide +kernel
    have returns : (match (mute.execute {} {}).1 with
      | .error .aborted => false
      | _ => true) = true := by decide +kernel
    have found : (mute.function? ({} : Limits).entry).isSome = true := by decide +kernel
    obtain ⟨-, missing, kinds, unwatched, -⟩ := execute_errors mute {} {}
    cases h : (mute.execute {} {}).1 with
    | ok t =>
      rw [h] at fails
      cases fails
    | error e =>
      have watched := unwatched.trans h
      rcases kinds Clock.never e watched with rfl | ⟨fault, rfl⟩ | rfl
      · rw [(missing Clock.never).mp ⟨_, watched⟩] at found
        cases found
      · exact ⟨fault, rfl⟩
      · rw [h] at returns
        cases returns

end TraceRepair
