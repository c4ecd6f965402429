import TraceRepair.Proofs.Coupling

namespace TraceRepair

def passOn (name : String) (source target : Memory) : Memory :=
  match source.find? name with
  | some v => target.insert name v
  | none => target

theorem find?_passOn_self (name : String) (source target : Memory) :
    (passOn name source target).find? name = (source.find? name).or (target.find? name) := by
  unfold passOn
  cases source.find? name <;> simp

theorem find?_passOn_of_ne {name other : String} (hne : other ≠ name) (source target : Memory) :
    (passOn name source target).find? other = target.find? other := by
  unfold passOn
  cases source.find? name with
  | none => rfl
  | some v => exact SortedMap.find?_insert_of_ne hne target v

theorem copyStreams_eq (source target : Memory) :
    copyStreams source target =
      passOn Reserved.output source (passOn Reserved.input source target) := rfl

theorem mem_streams {name : String} :
    name ∈ streams ↔ name = Reserved.input ∨ name = Reserved.output := by
  simp [streams]

theorem find?_copyStreams_of_notMem {name : String} (h : name ∉ streams)
    (source target : Memory) : (copyStreams source target).find? name = target.find? name := by
  rw [mem_streams, not_or] at h
  rw [copyStreams_eq, find?_passOn_of_ne h.2, find?_passOn_of_ne h.1]

/-- A stream is taken over where there is one, and else stays. -/
theorem find?_copyStreams_of_mem {name : String} (h : name ∈ streams) (source target : Memory) :
    (copyStreams source target).find? name = (source.find? name).or (target.find? name) := by
  have hne : Reserved.input ≠ Reserved.output := by decide
  rw [copyStreams_eq]
  rcases mem_streams.mp h with rfl | rfl
  · rw [find?_passOn_of_ne hne, find?_passOn_self]
  · rw [find?_passOn_self, find?_passOn_of_ne hne.symm]

theorem copyStreams_congr {source source' : Memory}
    (h : ∀ name ∈ streams, source.find? name = source'.find? name) (target : Memory) :
    copyStreams source target = copyStreams source' target := by
  simp only [copyStreams_eq, passOn, h _ (mem_streams.mpr (.inl rfl)),
    h _ (mem_streams.mpr (.inr rfl))]

/-- Of its caller's memory a callee sees the streams only. -/
theorem frame_congr {caller caller' : Memory}
    (h : ∀ name ∈ streams, caller.find? name = caller'.find? name) (g : FlowGraph)
    (args : List Value) : frame g args caller = frame g args caller' :=
  copyStreams_congr h _

def mathResult (name : String) (args : List Value) : Except RuntimeError Value :=
  match MathFunction.ofName? name with
  | some f => f.apply args
  | none => .error (.undefinedFunction name)

def enter (limits : Limits) (g : FlowGraph) (run : Eval Unit) (args : List Value) : Eval Value :=
  fun s =>
    if limits.callDepth ≤ s.depth then .error (.stackOverflow limits.callDepth) s
    else Eval.inFrame (frame g args s.memory) run s

section Handler

variable {p : Program} {limits : Limits} {run : FlowGraph → Eval Unit} {name : String}
  {args : List Value}

/-- Names that the program does not define are those of mathematical functions. -/
theorem answerCall_outside (h : p.function? name = none) :
    answerCall p limits run name args = Eval.ofExcept (mathResult name args) := by
  simp only [answerCall, h, mathResult]
  cases MathFunction.ofName? name <;> rfl

theorem answerCall_mismatched {g : FlowGraph} (h : p.function? name = some g)
    (hlen : g.params.length ≠ args.length) :
    answerCall p limits run name args =
      throw (.malformed (.callArity name g.params.length args.length)) := by
  simp only [answerCall, h, hlen, ne_eq, not_false_eq_true, if_true]

/-- A fitting call starts its callee unless too many are open. -/
theorem answerCall_entered {g : FlowGraph} (h : p.function? name = some g)
    (hlen : g.params.length = args.length) :
    answerCall p limits run name args = enter limits g (run g) args := by
  funext s
  simp only [answerCall, h, hlen, ne_eq, not_true, if_false, Eval.bind_apply, Eval.get_apply, enter]
  split <;> rfl

end Handler

/-- Callees that correspond take the same number of arguments and are coupled when entered. -/
theorem Coupled.answerCall_of_rel {T : Tie} {p q : Program} {limits limits' : Limits}
    {run run' : FlowGraph → Eval Unit} {name : String} {args : List Value}
    (h : Option.Rel (fun g g' => g'.params.length = g.params.length ∧
        (g.params.length = args.length →
          Coupled T (enter limits g (run g) args) (enter limits' g' (run' g') args)))
      (p.function? name) (q.function? name)) :
    Coupled T (answerCall p limits run name args)
      (answerCall q limits' run' name args) := by
  generalize hp : p.function? name = a at h
  generalize hq : q.function? name = b at h
  cases h with
  | none =>
    rw [answerCall_outside hp, answerCall_outside hq]
    exact .ofExcept _
  | @some g _ h =>
    obtain ⟨params, entered⟩ := h
    by_cases hlen : g.params.length = args.length
    · rw [answerCall_entered hp hlen, answerCall_entered hq (params.trans hlen)]
      exact entered hlen
    · rw [answerCall_mismatched hp hlen, answerCall_mismatched hq (params.trans_ne hlen), params]
      exact .throw (T.failing_refl _)

theorem Coupled.answerCall {T : Tie} {p : Program} {limits limits' : Limits}
    {run run' : FlowGraph → Eval Unit}
    (h : ∀ {g : FlowGraph} {args : List Value}, g.params.length = args.length →
      Coupled T (enter limits g (run g) args) (enter limits' g (run' g) args))
    (name : String) (args : List Value) :
    Coupled T (answerCall p limits run name args)
      (TraceRepair.answerCall p limits' run' name args) := by
  refine Coupled.answerCall_of_rel ?_
  cases p.function? name with
  | none => exact .none
  | some g => exact .some ⟨rfl, fun hlen => h hlen⟩

end TraceRepair
