import Mathlib
import TraceRepair.Proofs.Calls
import TraceRepair.Proofs.Mirror
import TraceRepair.Proofs.Primes

namespace TraceRepair

namespace Expr

mutual

/-- The variables that stand where a call names its function. -/
def callees : Expr → List Variable
  | .constant _ _ | .variable _ => []
  | .operation name args _ =>
    (if name = OperatorName.call then (args.head?.bind asVariable?).toList else [])
      ++ calleesEach args

def calleesEach : List Expr → List Variable
  | [] => []
  | e :: es => callees e ++ calleesEach es

end

mutual

/-- One replacement after another is a single one. -/
theorem mapVariables_mapVariables (f g : Variable → Expr) : ∀ e : Expr,
    (e.mapVariables f).mapVariables g = e.mapVariables fun v => (f v).mapVariables g
  | .constant _ _ => rfl
  | .variable _ => rfl
  | .operation _ args _ => by
    simp only [mapVariables, mapVariablesAll_mapVariablesAll f g args]

theorem mapVariablesAll_mapVariablesAll (f g : Variable → Expr) : ∀ es : List Expr,
    mapVariablesAll g (mapVariablesAll f es) =
      mapVariablesAll (fun v => (f v).mapVariables g) es
  | [] => rfl
  | e :: es => by
    simp only [mapVariablesAll, mapVariables_mapVariables f g e,
      mapVariablesAll_mapVariablesAll f g es]

end

mutual

/-- Where no variable of the tree is replaced, the tree stays. -/
theorem mapVariables_of_fixed {f : Variable → Expr} : ∀ {e : Expr},
    (∀ v ∈ e.occurrences, f v = .variable v) → e.mapVariables f = e
  | .constant _ _, _ => rfl
  | .variable v, h => h v (List.mem_singleton.mpr rfl)
  | .operation name args line, h => by
    rw [mapVariables, mapVariablesAll_of_fixed h]

theorem mapVariablesAll_of_fixed {f : Variable → Expr} : ∀ {es : List Expr},
    (∀ v ∈ occurrencesAll es, f v = .variable v) → mapVariablesAll f es = es
  | [], _ => rfl
  | e :: es, h => by
    simp only [occurrencesAll, List.mem_append] at h
    rw [mapVariablesAll, mapVariables_of_fixed fun v hv => h v (.inl hv),
      mapVariablesAll_of_fixed fun v hv => h v (.inr hv)]

end

/-- A name that the tree does not mention has nothing to replace. -/
theorem replace_of_absent {e : Expr} {name : String} (h : ∀ v ∈ e.occurrences, v.name ≠ name)
    (new : Expr) : e.replace name new = e :=
  mapVariables_of_fixed fun v hv => if_neg (h v hv)

end Expr

/-- A callee that is a variable stays, and one that is an operation keeps its operator. -/
theorem calleeName_mapVariables {f : Variable → Expr} {callee : Expr}
    (fixed : ∀ v, callee.asVariable? = some v → f v = .variable v) :
    calleeName (callee.mapVariables f) = calleeName callee := by
  cases callee with
  | constant text line => rfl
  | «variable» v => rw [Expr.mapVariables, fixed v rfl]
  | operation name args line => rfl

section Substituted

variable {T : Tie} {call call' : CallHandler} {room : Arrays.Room} {f : Variable → Expr}

mutual

/-- What stands in the place of a variable is coupled with reading it. Whether it runs at all, and
how often, is decided by the operations around it. -/
theorem Coupled.substituted
    (hr : ∀ v, Coupled T ((f v).eval room call) (Eval.read v.name))
    (hc : ∀ name values, Coupled T (call name values) (call' name values)) : ∀ {e : Expr},
    (∀ v ∈ e.callees, f v = .variable v) →
    Coupled T ((e.mapVariables f).eval room call) (e.eval room call')
  | .constant text line, _ => .pure _
  | .variable v, _ => hr v
  | .operation name [] line, _ => .operation line line (fun _ => rfl) .nil
  | .operation name (callee :: rest) line, fixed => by
    simp only [Expr.callees, Expr.calleesEach, List.mem_append] at fixed
    have others := Coupled.substitutedEach hr hc fun v hv => fixed v (.inr (.inr hv))
    by_cases hname : name = OperatorName.call
    · subst hname
      refine .call line line hc (calleeName_mapVariables fun v hv => fixed v (.inl ?_)) others
      simp [hv]
    · refine .operation line line (fun h => absurd h hname) (.cons ?_ others)
      exact Coupled.substituted hr hc fun v hv => fixed v (.inr (.inl hv))

theorem Coupled.substitutedEach
    (hr : ∀ v, Coupled T ((f v).eval room call) (Eval.read v.name))
    (hc : ∀ name values, Coupled T (call name values) (call' name values)) : ∀ {es : List Expr},
    (∀ v ∈ Expr.calleesEach es, f v = .variable v) →
    List.Forall₂ (Coupled T) (Expr.evalEach room call (Expr.mapVariablesAll f es))
      (Expr.evalEach room call' es)
  | [], _ => .nil
  | e :: es, fixed => by
    simp only [Expr.calleesEach, List.mem_append] at fixed
    exact .cons (Coupled.substituted hr hc fun v hv => fixed v (.inl hv))
      (Coupled.substitutedEach hr hc fun v hv => fixed v (.inr hv))

end

end Substituted

def Tie.resting (a b : Machine) : Tie :=
  .strict (fun s t => s = a ∧ t = b) fun _ _ => False

namespace Coupled

variable {a b : Machine} {x y : Eval Value}

/-- Both sides end alike, and each in the machine in which it started. -/
theorem ends_resting (h : Coupled (.resting a b) x y) :
    (∃ v, x a = .ok v a ∧ y b = .ok v b) ∨ ∃ e, x a = .error e a ∧ y b = .error e b := by
  have he := h.meet ⟨rfl, rfl⟩
  generalize x a = r at he
  generalize y b = q at he
  cases he with
  | value v tied =>
    obtain ⟨rfl, rfl⟩ := tied
    exact .inl ⟨v, rfl, rfl⟩
  | failure alike tied =>
    obtain ⟨rfl, rfl⟩ := tied
    cases alike
    exact .inr ⟨_, rfl, rfl⟩
  | stopped tied => exact tied.elim

theorem resting_read {name : String}
    (h : x a = .ok ((b.memory.find? name).getD .undefined) a) :
    Coupled (.resting a b) x (Eval.read name) := by
  refine ⟨?_, fun far => far.elim⟩
  rintro s t ⟨rfl, rfl⟩
  rw [h]
  exact .value _ ⟨rfl, rfl⟩

end Coupled

def Limits.outside (limits : Limits) : CallHandler :=
  answerCall Program.empty limits fun callee =>
    walk Program.empty limits limits.steps callee callee.entry

def Limits.holding (limits : Limits) (m : Memory) : Machine :=
  { memory := m, left := limits.steps }

/-- What an expression comes to on its own, without functions to call. -/
def Expr.result (limits : Limits) (e : Expr) (m : Memory) : Except RuntimeError Value :=
  match Program.empty.evaluate limits e m with
  | .ok v _ => .ok v
  | .error x _ => .error x

section Result

variable {limits : Limits} {m m' : Memory} {e : Expr}

theorem evaluate_empty (limits : Limits) (e : Expr) (m : Memory) :
    Program.empty.evaluate limits e m =
      e.eval limits.arrays limits.outside (limits.holding m) := rfl

/-- Nothing is entered. -/
theorem Coupled.resting_outside {a b : Machine} (name : String) (values : List Value) :
    Coupled (.resting a b) (limits.outside name values) (limits.outside name values) := by
  unfold Limits.outside
  rw [answerCall_outside rfl]
  exact .ofExcept _

/-- An expression that comes to a value leaves everything as it was. -/
theorem Expr.evaluate_of_result {v : Value} (h : e.result limits m = .ok v) :
    Program.empty.evaluate limits e m = .ok v (limits.holding m) := by
  let start := limits.holding m
  have same : ∀ {s t : Machine}, s = start ∧ t = start → t.memory = s.memory := by
    rintro s t ⟨rfl, rfl⟩
    rfl
  have rests : Coupled (.resting start start) (e.eval limits.arrays limits.outside)
      (e.eval limits.arrays limits.outside) := .eval same Coupled.resting_outside e
  unfold Expr.result at h
  rw [evaluate_empty] at h ⊢
  obtain ⟨w, value, -⟩ | ⟨x, failure, -⟩ := rests.ends_resting
  · rw [value] at h ⊢
    cases h
    rfl
  · rw [failure] at h
    cases h

/-- All variables are substituted at once, each by an expression with the value that it has in the
other memory. -/
theorem Expr.result_mapVariables {f : Variable → Expr}
    (fixed : ∀ v ∈ e.callees, f v = .variable v)
    (values : ∀ v, (f v).result limits m = .ok ((m'.find? v.name).getD .undefined)) :
    (e.mapVariables f).result limits m = e.result limits m' := by
  have rests : Coupled (.resting (limits.holding m) (limits.holding m'))
      ((e.mapVariables f).eval limits.arrays limits.outside)
      (e.eval limits.arrays limits.outside) :=
    .substituted (fun v => .resting_read (Expr.evaluate_of_result (values v)))
      Coupled.resting_outside fixed
  unfold Expr.result
  rw [evaluate_empty, evaluate_empty]
  obtain ⟨v, left, right⟩ | ⟨x, left, right⟩ := rests.ends_resting
  · rw [left, right]
  · rw [left, right]

theorem Expr.result_replaced {new : Expr} {name : String} {v : Value}
    (apart : ∀ c ∈ e.callees, c.name ≠ name) (value : new.result limits m = .ok v) :
    (e.replace name new).result limits m = e.result limits (m.insert name v) := by
  apply Expr.result_mapVariables
  · intro c hc
    exact if_neg (apart c hc)
  · intro u
    split
    · rename_i hu
      rw [hu, SortedMap.find?_insert_self]
      exact value
    · rename_i hu
      rw [SortedMap.find?_insert_of_ne hu]
      rfl

/-- The second replacement leaves alone what the first one has put in. -/
theorem Expr.result_replaced_twice {new new' : Expr} {name name' : String} {v v' : Value}
    (other : name ≠ name') (apart : ∀ c ∈ e.callees, c.name ≠ name)
    (apart' : ∀ c ∈ e.callees, c.name ≠ name') (absent : ∀ u ∈ new.occurrences, u.name ≠ name')
    (value : new.result limits m = .ok v) (value' : new'.result limits m = .ok v') :
    ((e.replace name new).replace name' new').result limits m =
      e.result limits ((m.insert name v).insert name' v') := by
  unfold Expr.replace
  rw [Expr.mapVariables_mapVariables]
  apply Expr.result_mapVariables
  · intro c hc
    rw [if_neg (apart c hc), Expr.mapVariables, if_neg (apart' c hc)]
  · intro u
    by_cases hu : u.name = name
    · have kept := Expr.replace_of_absent absent new'
      rw [if_pos hu, hu, SortedMap.find?_insert_of_ne other, SortedMap.find?_insert_self]
      rw [Expr.replace] at kept
      rw [kept]
      exact value
    · rw [if_neg hu, Expr.mapVariables]
      split
      · rename_i hu'
        rw [hu', SortedMap.find?_insert_self]
        exact value'
      · rename_i hu'
        rw [SortedMap.find?_insert_of_ne hu', SortedMap.find?_insert_of_ne hu]
        rfl

end Result

/-- Of two variables with one name only the submission's is printed with a prime. -/
theorem Variable.name_ne_of_origin {r s : Variable} (same : r.sameName s = true)
    (origin : r.isPrimed ≠ s.isPrimed) : r.name ≠ s.name := by
  have marked : ∀ {v w : Variable}, v.unprimedName = w.unprimedName → v.isPrimed = true →
      w.isPrimed = false → v.name ≠ w.name := by
    intro v w hname hv hw printed
    have plain : w.name = w.unprimedName := by
      rw [Variable.name_of_unprimed hw,
        Variable.unprimedName_of_stripPrime? (Variable.stripPrime?_of_unprimed hw)]
    rw [plain, Variable.name, if_pos hv, hname] at printed
    exact absurd (congrArg String.length printed) (by simp)
  have hname : r.unprimedName = s.unprimedName := beq_iff_eq.mp same
  cases hr : r.isPrimed with
  | true =>
    have hs : s.isPrimed = false := Bool.eq_false_iff.mpr fun hs => origin (hr.trans hs.symm)
    exact marked hname hr hs
  | false =>
    have hs : s.isPrimed = true := Bool.ne_false_iff.mp fun hs => origin (hr.trans hs.symm)
    exact (marked hname.symm hs hr).symm

/-- Replacing a variable by an expression comes to evaluating with the value of that expression in
its place. The two variables of one name are apart: when both are replaced, each gets its own
value. -/
theorem Expr.result_replace (limits : Limits) {e new : Expr} {name : String} {m : Memory}
    {v : Value} (apart : ∀ c ∈ e.callees, c.name ≠ name) (value : new.result limits m = .ok v) :
    (e.replace name new).result limits m = e.result limits (m.insert name v) ∧
    ∀ (r s : Variable) (new' : Expr) (v' : Value), r.sameName s = true → r.isPrimed ≠ s.isPrimed →
      r.name = name → (∀ c ∈ e.callees, c.name ≠ s.name) →
      (∀ u ∈ new.occurrences, u.name ≠ s.name) → new'.result limits m = .ok v' →
      ((e.replace name new).replace s.name new').result limits m =
        e.result limits ((m.insert name v).insert s.name v') := by
  refine ⟨Expr.result_replaced apart value, ?_⟩
  intro r s new' v' same origin printed apart' absent value'
  have other : name ≠ s.name := printed ▸ Variable.name_ne_of_origin same origin
  exact Expr.result_replaced_twice other apart apart' absent value value'

def chosenDistance (x x' : Variable) : Expr :=
  .operation OperatorName.conditional
    [.variable x,
      .operation OperatorName.call
        [.variable (.reference "abs"), .operation "-" [.variable x, .variable x'] 2] 2,
      .variable x'] 1

def shifted : Expr :=
  .operation "-" [.variable (.reference "x"), .variable (.reference "y")] 3

def offsets : Memory := SortedMap.ofList [("x", .int 4), ("y", .int 7), ("x'", .int 1)]

/-- Both names occur twice, and a primed one stands beside an unprimed one. -/
theorem Expr.result_replace_chosenDistance :
    let e := chosenDistance (.reference "x") (.submission "x")
    (e.replace "x" shifted).result {} offsets = e.result {} (offsets.insert "x" (.int (-3))) ∧
    ((e.replace "x" shifted).replace "x'" (.variable (.reference "y"))).result {} offsets =
      e.result {} ((offsets.insert "x" (.int (-3))).insert "x'" (.int 7)) := by
  have apart : ∀ c ∈ (chosenDistance (.reference "x") (.submission "x")).callees, c.name ≠ "x" := by
    decide +kernel
  have value : shifted.result {} offsets = .ok (.int (-3)) := by cbv
  have value' : (Expr.variable (.reference "y")).result {} offsets = .ok (.int 7) := by cbv
  obtain ⟨once, twice⟩ := Expr.result_replace {} apart value
  have printed : (Variable.submission "x").name = "x'" := by decide +kernel
  have both := twice (.reference "x") (.submission "x") (.variable (.reference "y")) (.int 7)
    (by decide +kernel) (by decide +kernel) (by decide +kernel) (by decide +kernel)
    (by decide +kernel) value'
  rw [printed] at both
  exact ⟨once, both⟩

end TraceRepair
