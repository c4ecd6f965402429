import Mathlib.Data.List.Forall2
import TraceRepair.Execution

namespace TraceRepair

theorem Except.bind_eq_ok {ε α β : Type} {x : Except ε α} {f : α → Except ε β} {b : β} :
    (x >>= f) = .ok b ↔ ∃ a, x = .ok a ∧ f a = .ok b := by
  cases x with
  | error e => simp [bind, Except.bind]
  | ok a => simp [bind, Except.bind]

/-- All elements succeed, and the results stand in their order. -/
theorem Except.mapM_eq_ok {ε α β : Type} {f : α → Except ε β} {xs : List α} {ys : List β} :
    xs.mapM f = .ok ys ↔ List.Forall₂ (fun x y => f x = .ok y) xs ys := by
  induction xs generalizing ys with
  | nil =>
    constructor
    · rintro ⟨⟩
      exact .nil
    · rintro ⟨⟩
      rfl
  | cons x xs ih =>
    rw [List.mapM_cons, Except.bind_eq_ok]
    constructor
    · rintro ⟨y, hy, h⟩
      obtain ⟨ys, hys, h⟩ := Except.bind_eq_ok.mp h
      cases h
      exact .cons hy (ih.mp hys)
    · rintro (_ | ⟨hy, hys⟩)
      exact ⟨_, hy, Except.bind_eq_ok.mpr ⟨_, ih.mpr hys, rfl⟩⟩

theorem Except.exists_of_mapM {ε α β : Type} {f : α → Except ε β} {xs : List α} {ys : List β}
    (h : xs.mapM f = .ok ys) {x : α} (hx : x ∈ xs) : ∃ y ∈ ys, f x = .ok y := by
  have each := Except.mapM_eq_ok.mp h
  clear h
  induction each with
  | nil => cases hx
  | cons first later ih =>
    rcases List.mem_cons.mp hx with rfl | hx
    · exact ⟨_, List.mem_cons_self, first⟩
    · obtain ⟨y, hy, hf⟩ := ih hx
      exact ⟨y, List.mem_cons_of_mem _ hy, hf⟩

theorem Except.exists_of_mem_mapM {ε α β : Type} {f : α → Except ε β} {xs : List α} {ys : List β}
    (h : xs.mapM f = .ok ys) {y : β} (hy : y ∈ ys) : ∃ x ∈ xs, f x = .ok y := by
  have each := Except.mapM_eq_ok.mp h
  clear h
  induction each with
  | nil => cases hy
  | cons first later ih =>
    rcases List.mem_cons.mp hy with rfl | hy
    · exact ⟨_, List.mem_cons_self, first⟩
    · obtain ⟨x, hx, hf⟩ := ih hy
      exact ⟨x, List.mem_cons_of_mem _ hx, hf⟩

/-- The results are those of the elements. -/
theorem Except.mem_of_mapM {ε α β : Type} {f : α → Except ε β} {xs : List α} {ys : List β}
    (h : xs.mapM f = .ok ys) {y : β} : y ∈ ys ↔ ∃ x ∈ xs, f x = .ok y := by
  refine ⟨Except.exists_of_mem_mapM h, fun ⟨x, hx, hf⟩ => ?_⟩
  obtain ⟨y', hy', hf'⟩ := Except.exists_of_mapM h hx
  obtain rfl := Except.ok.inj (hf.symm.trans hf')
  exact hy'

theorem Except.mapM_map {ε α β γ : Type} (f : α → Except ε β) (F : β → γ) (xs : List α) :
    xs.mapM (fun x => (f x).map F) = (xs.mapM f).map (List.map F) := by
  induction xs with
  | nil => rfl
  | cons x xs ih =>
    rw [List.mapM_cons, List.mapM_cons, ih]
    cases f x with
    | error e => rfl
    | ok y => cases xs.mapM f <;> rfl

/-- One failure is enough. -/
theorem Except.isOk_mapM {ε α β : Type} (f : α → Except ε β) (xs : List α) :
    (xs.mapM f).isOk = xs.all fun x => (f x).isOk := by
  induction xs with
  | nil => rfl
  | cons x xs ih =>
    rw [List.mapM_cons, List.all_cons, ← ih]
    cases f x with
    | error e => rfl
    | ok y => cases xs.mapM f <;> rfl

theorem Except.mapM_singleton_eq_ok {ε α β : Type} {f : α → Except ε β} {x : α} {ys : List β} :
    [x].mapM f = .ok ys ↔ ∃ y, f x = .ok y ∧ ys = [y] := by
  rw [Except.mapM_eq_ok]
  simp [List.forall₂_cons_left_iff]

def FailsOnly {ε α : Type} (P : ε → Prop) (r : Except ε α) : Prop := ∀ e, r = .error e → P e

namespace FailsOnly

variable {ε α β : Type} {P : ε → Prop}

theorem ok (a : α) : FailsOnly P (.ok a) := by
  intro e h
  cases h

theorem error {e : ε} (h : P e) : FailsOnly P (.error e : Except ε α) := by
  intro e' he
  cases he
  exact h

theorem bind {x : Except ε α} {f : α → Except ε β} (hx : FailsOnly P x)
    (hf : ∀ a, x = .ok a → FailsOnly P (f a)) : FailsOnly P (x >>= f) := by
  cases x with
  | error e => exact .error (hx e rfl)
  | ok a => exact hf a rfl

theorem mono {Q : ε → Prop} {x : Except ε α} (hx : FailsOnly P x) (h : ∀ e, P e → Q e) :
    FailsOnly Q x :=
  fun e failed => h e (hx e failed)

theorem map {x : Except ε α} {f : α → β} (hx : FailsOnly P x) : FailsOnly P (x.map f) := by
  cases x with
  | error e => exact .error (hx e rfl)
  | ok a => exact .ok _

theorem mapM {f : α → Except ε β} {xs : List α} (hf : ∀ a ∈ xs, FailsOnly P (f a)) :
    FailsOnly P (xs.mapM f) := by
  induction xs with
  | nil => exact .ok []
  | cons x xs ih =>
    rw [List.mapM_cons]
    refine (hf x List.mem_cons_self).bind fun y _ => ?_
    exact (ih fun a ha => hf a (List.mem_cons_of_mem x ha)).bind fun ys _ => .ok _

end FailsOnly

theorem Except.ok_of_isOk {ε α : Type} {x : Except ε α} (h : x.isOk = true) : ∃ a, x = .ok a := by
  cases x with
  | error e => cases h
  | ok a => exact ⟨a, rfl⟩

/-- What is seen of a result says that there is one. -/
theorem Except.ok_of_seen {ε α β : Type} {x : Except ε α} {view : α → β} {b : β}
    (h : x.toOption.map view = some b) : ∃ a, x = .ok a ∧ view a = b := by
  cases x with
  | error e => cases h
  | ok a => exact ⟨a, rfl, Option.some.inj h⟩

@[simp]
def Eval.machine {α : Type} : EStateM.Result RuntimeError Machine α → Machine
  | .ok _ s => s
  | .error _ s => s

theorem Eval.pure_apply {α : Type} (a : α) (s : Machine) : (pure a : Eval α) s = .ok a s := rfl

theorem Eval.get_apply (s : Machine) : (get : Eval Machine) s = .ok s s := rfl

theorem Eval.record_apply (function : String) (loc : Loc) (s : Machine) :
    Eval.record function loc s =
      .ok () { s with visits := ⟨function, loc, s.memory⟩ :: s.visits } := rfl

theorem Eval.bind_apply {α β : Type} (x : Eval α) (k : α → Eval β) (s : Machine) :
    (x >>= k) s = match x s with
      | .ok a t => k a t
      | .error e t => .error e t := by
  cases h : x s <;> simp [bind, EStateM.bind, h]

def Eval.settled (notice : RuntimeError → Notice) :
    EStateM.Result RuntimeError Machine Value → EStateM.Result RuntimeError Machine Value
  | .ok v s => .ok v s
  | .error e s =>
    if e.isFatal then .error e s else .ok .undefined { s with notices := notice e :: s.notices }

theorem Eval.settle_apply (notice : RuntimeError → Notice) (x : Eval Value) (s : Machine) :
    Eval.settle notice x s = Eval.settled notice (x s) := by
  unfold Eval.settle Eval.settled
  cases x s <;> rfl

/-- What is required has to be there. -/
theorem FlowGraph.required_eq_ok {α : Type} {g : FlowGraph} {loc : Loc} {found : Option α} {a : α} :
    g.required loc found = .ok a ↔ found = some a := by
  cases found <;> simp [FlowGraph.required]

/-- A walk goes on along an edge. -/
theorem FlowGraph.nextLoc_eq_some {t : Transition} {m : Memory} {next : Loc}
    (h : FlowGraph.nextLoc t m = some next) : t.onTrue = some next ∨ t.onFalse = some next := by
  obtain ⟨onTrue, onFalse⟩ := t
  unfold FlowGraph.nextLoc at h
  cases onTrue with
  | none =>
    cases onFalse with
    | none => cases h
    | some no => exact .inr h
  | some yes =>
    cases onFalse with
    | none => exact .inl h
    | some no =>
      dsimp only at h
      split at h
      · exact .inl h
      · exact .inr h

section Walk

variable {p : Program} {limits : Limits} {fuel : Nat}

def leaveBy (p : Program) (limits : Limits) (fuel : Nat) (g : FlowGraph) (t : Transition)
    (m : Memory) : Eval Unit :=
  match FlowGraph.nextLoc t m with
  | none => return ()
  | some next => walk p limits fuel g next

def visitAt (p : Program) (limits : Limits) (fuel : Nat) (g : FlowGraph) (loc : Loc) :
    Eval Unit := do
  let block ← Eval.ofModel (g.block loc)
  let call := answerCall p limits fun callee => walk p limits fuel callee callee.entry
  g.runAssignments loc (Expr.eval limits.arrays call) block
  Eval.record g.name loc
  let t ← Eval.ofModel (g.transition loc)
  leaveBy p limits fuel g t (← get).memory

/-- A visit in front of any way to go on, which callees take too. -/
def visitBy (p : Program) (limits : Limits) (run : FlowGraph → Loc → Eval Unit) (g : FlowGraph)
    (loc : Loc) : Eval Unit := do
  let block ← Eval.ofModel (g.block loc)
  let call := answerCall p limits fun callee => run callee callee.entry
  g.runAssignments loc (Expr.eval limits.arrays call) block
  Eval.record g.name loc
  let t ← Eval.ofModel (g.transition loc)
  match FlowGraph.nextLoc t (← get).memory with
  | none => return ()
  | some next => run g next

theorem visitAt_eq (g : FlowGraph) (loc : Loc) :
    visitAt p limits fuel g loc = visitBy p limits (walk p limits fuel) g loc := rfl

/-- An empty budget stops a walk before it looks at the location. -/
theorem walk_spent {s : Machine} (h : s.left = 0) (g : FlowGraph) (loc : Loc) :
    walk p limits fuel g loc s = .error (.timeout limits.steps) s := by
  cases fuel with
  | zero => rfl
  | succ fuel =>
    rw [walk, Eval.bind_apply]
    simp only [Eval.tick, h]

theorem walk_paid {s : Machine} {left : Nat} (h : s.left = left + 1) (g : FlowGraph) (loc : Loc) :
    walk p limits (fuel + 1) g loc s = visitAt p limits fuel g loc { s with left } := by
  rw [walk, Eval.bind_apply]
  simp only [Eval.tick, h]
  rfl

end Walk

def Machine.start (g : FlowGraph) (limits : Limits) (input : RunInput) : Machine :=
  { memory := initialMemory g input, left := limits.steps }

def outcome : EStateM.Result RuntimeError Machine Unit → Except RuntimeError Trace
  | .ok () s => .ok { visits := s.visits.reverse }
  | .error (.timeout _) s => .ok { visits := s.visits.reverse, truncated := true }
  | .error e _ => .error e

section Execution

variable {p : Program} {limits : Limits}

theorem execute_unknown (found : p.function? limits.entry = none) (input : RunInput) :
    (p.execute limits input).1 = .error (.undefinedFunction limits.entry) := by
  simp only [Program.execute, found]

/-- A run is the walk of its entry function, and being stopped is no failure of it. -/
theorem execute_found {g : FlowGraph} (found : p.function? limits.entry = some g)
    (input : RunInput) :
    (p.execute limits input).1 =
      outcome (walk p limits limits.steps g g.entry (.start g limits input)) := by
  simp only [Program.execute, found, Machine.start]
  generalize walk p limits _ g _ _ = r
  cases r with
  | ok _ s => rfl
  | error e s => cases e <;> rfl

end Execution

end TraceRepair
