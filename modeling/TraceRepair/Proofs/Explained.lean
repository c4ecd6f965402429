import TraceRepair.Proofs.Failures
import TraceRepair.Proofs.Rules

namespace TraceRepair

/-- What rules say of a computation: the memory it starts in, its calls, what it comes to, and the
memory it leaves. -/
abbrev Meaning (α : Type) := Memory → List Call → Except Stop α → Memory → Prop

namespace Meaning

variable {α β : Type}

inductive Yields (r : Except RuntimeError α) : Meaning α where
  | intro (m : Memory) : Yields r m [] (Stop.ofResult r) m

inductive Writes (target : String) (v : Value) : Meaning Unit where
  | intro (m : Memory) : Writes target v m [] (.ok ()) (m.insert target v)

inductive Then (J : Meaning α) (K : α → Meaning β) : Meaning β where
  | value {m m₁ m₂ : Memory} {before after : List Call} {a : α} {r : Except Stop β}
      (first : J m before (.ok a) m₁) (next : K a m₁ after r m₂) : Then J K m (before ++ after) r m₂
  | stop {m m₁ : Memory} {calls : List Call} {stop : Stop} (first : J m calls (.error stop) m₁) :
      Then J K m calls (.error stop) m₁

inductive Connected (name : String) (decisive : Bool) (v : Value) (J : Meaning Value) :
    Meaning Value where
  | decided {m : Memory} (defined : v.isUndefined = false) (decides : v.isTruthy = decisive) :
      Connected name decisive v J m [] (.ok (.bool decisive)) m
  | undecided {m m₁ : Memory} {calls : List Call} {r : Except Stop Value}
      (undecided : v.isUndefined = true ∨ v.isTruthy ≠ decisive) (second : J m calls r m₁) :
      Connected name decisive v J m calls
        (r.bind fun w => Stop.ofResult (applyOperator name [v, w])) m₁

inductive Settled (J : Meaning Value) : Meaning Value where
  | value {m m₁ : Memory} {calls : List Call} {v : Value} (first : J m calls (.ok v) m₁) :
      Settled J m calls (.ok v) m₁
  | undefined {m m₁ : Memory} {calls : List Call} {e : RuntimeError}
      (first : J m calls (.error (.failure e)) m₁) (mild : e.isFatal = false) :
      Settled J m calls (.ok .undefined) m₁
  | waiting {m m₁ : Memory} {calls : List Call} {callee : FlowGraph} {start : Memory}
      (first : J m calls (.error (.waiting callee start)) m₁) :
      Settled J m calls (.error (.waiting callee start)) m₁

end Meaning

/-- Between two machines the given visits were listed, and more were begun. -/
structure After (s : Machine) (visits : List Visit) (begun : Nat) (t : Machine) : Prop where
  listed : t.visits = visits.reverse ++ s.visits
  depth_eq : t.depth = s.depth
  paid : t.left + visits.length + begun = s.left

theorem After.refl (s : Machine) : After s [] 0 s := ⟨rfl, rfl, rfl⟩

/-- What was begun and not listed belongs to the second part, as the first one came back. -/
theorem After.trans {s t u : Machine} {before after : List Visit} {begun : Nat}
    (first : After s before 0 t) (next : After t after begun u) :
    After s (before ++ after) begun u := by
  refine ⟨?_, next.depth_eq.trans first.depth_eq, ?_⟩
  · rw [next.listed, first.listed, List.reverse_append, List.append_assoc]
  · have := first.paid
    have := next.paid
    rw [List.length_append]
    omega

theorem After.left_le {s t : Machine} {visits : List Visit} {begun : Nat}
    (h : After s visits begun t) : t.left ≤ s.left := by
  have := h.paid
  omega

theorem After.listed_start {g : FlowGraph} {limits : Limits} {input : RunInput} {t : Machine}
    {visits : List Visit} {begun : Nat} (h : After (.start g limits input) visits begun t) :
    t.visits.reverse = visits := by
  rw [h.listed, Machine.start, List.append_nil, List.reverse_reverse]

/-- A callee is one call deeper than its caller. -/
theorem After.leave {s t : Machine} {memory : Memory} {visits : List Visit} {begun : Nat}
    (h : After { s with memory, depth := s.depth + 1 } visits begun t) (m : Memory) :
    After s visits begun { t with memory := m, depth := t.depth - 1 } := by
  refine ⟨h.listed, ?_, h.paid⟩
  have := h.depth_eq
  dsimp only at this ⊢
  omega

/-- The visit that the budget paid for counts as begun. -/
theorem After.ofBegun {s t : Machine} {left : Nat} {visits : List Visit} {begun : Nat}
    (hleft : s.left = left + 1) (h : After { s with left } visits begun t) :
    After s visits (begun + 1) t := by
  refine ⟨h.listed, h.depth_eq, ?_⟩
  have := h.paid
  dsimp only at this
  omega

theorem After.record {s t : Machine} {visits : List Visit} {begun : Nat}
    (h : After s visits (begun + 1) t) (v : Visit) :
    After s (visits ++ [v]) begun { t with visits := v :: t.visits } := by
  refine ⟨?_, h.depth_eq, ?_⟩
  · rw [h.listed, List.reverse_append]
    rfl
  · have := h.paid
    rw [List.length_append, List.length_singleton]
    dsimp only
    omega

section Explained

variable (p : Program) (limits : Limits)

def Completed (depth : Nat) (calls : List Call) : Prop :=
  ∀ c ∈ calls, Walks p limits (depth + 1) c.callee (some c.callee.entry) c.start c.visits c.final

inductive Explains {α : Type} (J : Meaning α) (s : Machine) :
    EStateM.Result RuntimeError Machine α → Prop where
  | value {a : α} {t : Machine} {calls : List Call} (meaning : J s.memory calls (.ok a) t.memory)
      (completed : Completed p limits s.depth calls)
      (after : After s (calls.flatMap Call.visits) 0 t) : Explains J s (.ok a t)
  | failure {e : RuntimeError} {t : Machine} {calls : List Call} (mild : e.isFatal = false)
      (meaning : J s.memory calls (.error (.failure e)) t.memory)
      (completed : Completed p limits s.depth calls)
      (after : After s (calls.flatMap Call.visits) 0 t) : Explains J s (.error e t)
  | waiting {steps : Nat} {t : Machine} {calls : List Call} {callee : FlowGraph}
      {start m : Memory} {visits : List Visit} {begun : Nat}
      (meaning : J s.memory calls (.error (.waiting callee start)) m)
      (completed : Completed p limits s.depth calls)
      (cut : Cut p limits (s.depth + 1) callee callee.entry start visits begun)
      (after : After s (calls.flatMap Call.visits ++ visits) begun t) (spent : t.left = 0) :
      Explains J s (.error (.timeout steps) t)
  | malformed (fault : Malformation) (t : Machine) : Explains J s (.error (.malformed fault) t)
  | aborted (t : Machine) : Explains J s (.error .aborted t)

/-- Fuel is for the callees that are entered, and no less than the budget. -/
def Explained (depth fuel : Nat) {α : Type} (J : Meaning α) (x : Eval α) : Prop :=
  ∀ s : Machine, s.depth = depth → s.left ≤ fuel → Explains p limits J s (x s)

end Explained

section Logic

variable {p : Program} {limits : Limits} {depth fuel : Nat} {α β : Type}

theorem Completed.nil : Completed p limits depth [] := by
  intro c hc
  cases hc

theorem Completed.append {before after : List Call} (h₁ : Completed p limits depth before)
    (h₂ : Completed p limits depth after) : Completed p limits depth (before ++ after) := by
  intro c hc
  rcases List.mem_append.mp hc with hc | hc
  · exact h₁ c hc
  · exact h₂ c hc

namespace Explained

/-- The same computation, of which the rules may say more. -/
theorem mono {J K : Meaning α} {x : Eval α} (h : Explained p limits depth fuel J x)
    (himp : ∀ {m calls r m'}, J m calls r m' → K m calls r m') :
    Explained p limits depth fuel K x := by
  intro s hd hl
  have h := h s hd hl
  generalize x s = r at h ⊢
  cases h with
  | value meaning completed after => exact .value (himp meaning) completed after
  | failure mild meaning completed after => exact .failure mild (himp meaning) completed after
  | waiting meaning completed cut after spent =>
    exact .waiting (himp meaning) completed cut after spent
  | malformed fault t => exact .malformed fault t
  | aborted t => exact .aborted t

theorem ofExcept {r : Except RuntimeError α} (h : Raised r) :
    Explained p limits depth fuel (.Yields r) (Eval.ofExcept r) := by
  intro s _ _
  cases r with
  | ok a => exact .value (.intro s.memory) .nil (.refl s)
  | error e =>
    rcases RuntimeError.isRaised_iff.mp (h e rfl) with mild | rfl
    · exact .failure mild (.intro s.memory) .nil (.refl s)
    · exact .aborted s

theorem pure (a : α) : Explained p limits depth fuel (.Yields (.ok a)) (pure a) :=
  ofExcept (.ok a)

theorem write (target : String) (v : Value) :
    Explained p limits depth fuel (.Writes target v) (Eval.write target v) :=
  fun s _ _ => .value (.intro s.memory) .nil ⟨rfl, rfl, rfl⟩

/-- Calls of the two computations follow each other, at the same depth. -/
theorem bind {J : Meaning α} {K : α → Meaning β} {x : Eval α} {k : α → Eval β}
    (hx : Explained p limits depth fuel J x) (hk : ∀ a, Explained p limits depth fuel (K a) (k a)) :
    Explained p limits depth fuel (J.Then K) (x >>= k) := by
  intro s hd hl
  rw [Eval.bind_apply]
  have h := hx s hd hl
  generalize x s = r at h
  cases h with
  | @value a t before meaning completed after =>
    have hdt := after.depth_eq
    have next := hk a t (hdt.trans hd) (Nat.le_trans after.left_le hl)
    dsimp only
    generalize k a t = q at next
    cases next with
    | value meaning' completed' after' =>
      refine .value (.value meaning meaning') (completed.append (hdt ▸ completed')) ?_
      rw [List.flatMap_append]
      exact after.trans after'
    | failure mild meaning' completed' after' =>
      refine .failure mild (.value meaning meaning') (completed.append (hdt ▸ completed')) ?_
      rw [List.flatMap_append]
      exact after.trans after'
    | waiting meaning' completed' cut after' spent =>
      refine .waiting (.value meaning meaning') (completed.append (hdt ▸ completed'))
        (hdt ▸ cut) ?_ spent
      rw [List.flatMap_append, List.append_assoc]
      exact after.trans after'
    | malformed fault u => exact .malformed fault u
    | aborted u => exact .aborted u
  | failure mild meaning completed after => exact .failure mild (.stop meaning) completed after
  | waiting meaning completed cut after spent =>
    exact .waiting (.stop meaning) completed cut after spent
  | malformed fault t => exact .malformed fault t
  | aborted t => exact .aborted t

theorem connected (name : String) (decisive : Bool) (v : Value) {J : Meaning Value}
    {x : Eval Value} (h : Explained p limits depth fuel J x) :
    Explained p limits depth fuel (.Connected name decisive v J)
      (if !v.isUndefined && v.isTruthy == decisive then Pure.pure (.bool decisive)
        else do
          let w ← x
          Eval.ofExcept (applyOperator name [v, w])) := by
  split
  · rename_i hv
    simp only [Bool.and_eq_true, Bool.not_eq_true', beq_iff_eq] at hv
    refine (Explained.pure _).mono ?_
    rintro m _ _ _ ⟨⟩
    exact .decided hv.1 hv.2
  · rename_i hv
    simp only [Bool.and_eq_true, Bool.not_eq_true', beq_iff_eq, not_and_or,
      Bool.not_eq_false] at hv
    refine (h.bind fun w => Explained.ofExcept (raised_applyOperator name [v, w])).mono ?_
    intro m calls r m' h
    cases h with
    | value first next =>
      cases next
      rw [List.append_nil]
      exact .undecided hv first
    | stop first => exact .undecided hv first

/-- The failure of a value is reported and not passed on. -/
theorem settle {J : Meaning Value} {x : Eval Value} (notice : RuntimeError → Notice)
    (h : Explained p limits depth fuel J x) :
    Explained p limits depth fuel J.Settled (Eval.settle notice x) := by
  intro s hd hl
  rw [Eval.settle_apply]
  have h := h s hd hl
  generalize x s = r at h
  cases h with
  | value meaning completed after => exact .value (.value meaning) completed after
  | failure mild meaning completed after =>
    simp only [Eval.settled, mild]
    exact .value (.undefined meaning mild) completed ⟨after.listed, after.depth_eq, after.paid⟩
  | waiting meaning completed cut after spent =>
    exact .waiting (.waiting meaning) completed cut after spent
  | malformed fault t => exact .malformed fault t
  | aborted t => exact .aborted t

end Explained

end Logic

end TraceRepair
