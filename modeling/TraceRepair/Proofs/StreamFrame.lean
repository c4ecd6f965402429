import TraceRepair.Proofs.Clock

namespace TraceRepair

/-- The second memory has all names of the first and no others but streams, and the two differ in
the values of streams only. -/
structure Memory.ChangesStreams (m m' : Memory) : Prop where
  others : ∀ name, name ∉ streams → m'.find? name = m.find? name
  kept : ∀ name, m.contains name → m'.contains name

namespace Memory.ChangesStreams

theorem refl (m : Memory) : m.ChangesStreams m := ⟨fun _ _ => rfl, fun _ h => h⟩

theorem trans {m m' m'' : Memory} (first : m.ChangesStreams m') (second : m'.ChangesStreams m'') :
    m.ChangesStreams m'' := by
  constructor
  · intro name h
    rw [second.others name h, first.others name h]
  · intro name h
    exact second.kept name (first.kept name h)

/-- Streams are written over those of the caller, and none is taken away. -/
theorem copyStreams (source target : Memory) :
    target.ChangesStreams (copyStreams source target) := by
  constructor
  · intro name h
    exact find?_copyStreams_of_notMem h source target
  · intro name h
    unfold SortedMap.contains at h ⊢
    by_cases stream : name ∈ streams
    · rw [find?_copyStreams_of_mem stream, Option.isSome_or, h, Bool.or_true]
    · rw [find?_copyStreams_of_notMem stream]
      exact h

end Memory.ChangesStreams

def streamAccount (A : Type) : Account A where
  holds s entered _ t := s.memory.ChangesStreams t.memory ∧ (entered = [] → t.memory = s.memory)
  refl s := ⟨.refl s.memory, fun _ => rfl⟩
  fails s e _ := ⟨.refl s.memory, fun _ => rfl⟩
  trans first second := by
    refine ⟨first.1.trans second.1, ?_⟩
    intro none
    obtain ⟨before, after⟩ := List.append_eq_nil_iff.mp none
    rw [second.2 after, first.2 before]
  settles _ _ h := h

/-- This holds however the functions of the program are run. -/
theorem streamAccount.answerCall {A : Type} (p : Program) (limits : Limits)
    (run : FlowGraph → Eval Unit) (activate : FlowGraph → Machine → A) (name : String)
    (args : List Value) :
    Accounted (streamAccount A) (answerCall p limits run name args)
      (openedCall p limits activate name args) := by
  apply Accounted.answerCall
  · intro s g _ _
    exact ⟨.refl s.memory, fun _ => rfl⟩
  · intro s g _ _ _
    refine ⟨?_, nofun⟩
    cases run g (s.entering g args) with
    | ok _ t => exact .copyStreams t.memory s.memory
    | error e t => exact .refl s.memory

section Evaluation

variable (clock : Clock) (p : Program) (limits : Limits)

def Program.handlerBy : CallHandler :=
  answerCall p limits fun callee => walkBy clock p limits limits.steps callee callee.entry

def Program.evaluateBy (e : Expr) (memory : Memory) : EStateM.Result RuntimeError Machine Value :=
  e.eval limits.arrays (p.handlerBy clock limits) { memory, left := limits.steps }

/-- The functions of the program that the calls of an expression enter, in order. -/
def Program.entered (e : Expr) (memory : Memory) : List FlowGraph :=
  e.opened limits.arrays (p.handlerBy clock limits) (openedCall p limits fun g _ => g)
    { memory, left := limits.steps }

theorem evaluateBy_never (e : Expr) (memory : Memory) :
    p.evaluateBy Clock.never limits e memory = p.evaluate limits e memory := by
  unfold Program.evaluateBy Program.handlerBy Program.evaluate
  simp only [walkBy_never]

def functionAccount (p : Program) : Account FlowGraph where
  holds _ entered _ _ := ∀ g ∈ entered, ∃ name, p.function? name = some g
  refl _ := nofun
  fails _ _ _ := nofun
  trans first second g member := (List.mem_append.mp member).elim (first g) (second g)
  settles _ _ h := h

variable {clock p limits}

theorem function?_of_entered {e : Expr} {memory : Memory} {g : FlowGraph}
    (h : g ∈ p.entered clock limits e memory) : ∃ name, p.function? name = some g := by
  have entered : Accounted (functionAccount p) (e.eval limits.arrays (p.handlerBy clock limits))
      (e.opened limits.arrays (p.handlerBy clock limits)
        (openedCall p limits fun g _ => g)) := by
    apply Accounted.expression
    intro name args
    apply Accounted.answerCall
    · exact fun _ _ _ _ => nofun
    · intro s g found _ _ other member
      exact ⟨name, List.mem_singleton.mp member ▸ found⟩
  exact entered _ g h

/-- Whichever way the evaluation ends, the machine it leaves has changed only in its streams. -/
theorem changesStreams_of_evaluateBy (e : Expr) (memory : Memory) :
    memory.ChangesStreams (Eval.machine (p.evaluateBy clock limits e memory)).memory ∧
      (p.entered clock limits e memory = [] →
        (Eval.machine (p.evaluateBy clock limits e memory)).memory = memory) := by
  have frame : Accounted (streamAccount FlowGraph)
      (e.eval limits.arrays (p.handlerBy clock limits))
      (e.opened limits.arrays (p.handlerBy clock limits)
        (openedCall p limits fun g _ => g)) := by
    apply Accounted.expression
    exact streamAccount.answerCall p limits _ _
  exact frame { memory, left := limits.steps }

end Evaluation

/-- An evaluation that watches no clock is one whose clock is never up, and one without a program is
one with a program that has no functions. -/
theorem evaluate_changesStreams (clock : Clock) (p : Program) (limits : Limits) (e : Expr)
    (memory : Memory) :
    memory.ChangesStreams (Eval.machine (p.evaluateBy clock limits e memory)).memory ∧
    (p.entered clock limits e memory = [] →
      (Eval.machine (p.evaluateBy clock limits e memory)).memory = memory) ∧
    (Eval.machine (Program.empty.evaluateBy clock limits e memory)).memory = memory ∧
    ∀ q : Program, q.evaluateBy Clock.never limits e memory = q.evaluate limits e memory := by
  obtain ⟨streamsOnly, nothing⟩ := changesStreams_of_evaluateBy (p := p) e memory
  refine ⟨streamsOnly, nothing, ?_, fun q => evaluateBy_never q limits e memory⟩
  apply (changesStreams_of_evaluateBy e memory).2
  refine List.eq_nil_iff_forall_not_mem.mpr fun g member => ?_
  obtain ⟨name, found⟩ := function?_of_entered member
  cases found

def shouting : Program :=
  Program.empty.addFunction
    { name := "shout", returnType := "string", entry := 1, params := [⟨"string", "word"⟩]
      blocks := SortedMap.ofList [(1,
        [("$out", .binary "StrAppend" (.variable (.reference "$out"))
            (.variable (.reference "word"))),
          ("word", .constant "\"me\"" 2)])]
      edges := SortedMap.ofList [(1, {})] }

def shout (word : String) : Expr :=
  .operation OperatorName.call [.variable (.reference "shout"), .constant word 1] 1

def hoarse : Expr :=
  .binary "+" (shout "\"hey\"") (.binary "/" (.constant "1" 1) (.constant "0" 1))

def hushed : Expr := .binary "&&" (.constant "0" 1) (shout "\"hey\"")

def quietMemory : Memory :=
  SortedMap.ofList [("$out", .str "> "), ("word", .str "you")]

def failedWith : EStateM.Result RuntimeError Machine Value → Option (RuntimeError × Option String)
  | .ok _ _ => none
  | .error e t => some (e, (t.memory.find? "$out").map Value.display)

/-- One expression calls, writes and then fails; the other one calls nothing. -/
theorem evaluate_changesStreams_shouting :
    (∃ t, shouting.evaluate {} hoarse quietMemory = .error .divisionByZero t ∧
      (t.memory.find? "$out").map Value.display = some "> hey" ∧
      t.memory.find? "word" = quietMemory.find? "word") ∧
    ∃ t, shouting.evaluate {} hushed quietMemory = .ok (.bool false) t ∧
      t.memory = quietMemory := by
  constructor
  · have seen : failedWith (shouting.evaluate {} hoarse quietMemory) =
        some (.divisionByZero, some "> hey") := by decide +kernel
    obtain ⟨changes, -, -, unwatched⟩ :=
      evaluate_changesStreams Clock.never shouting {} hoarse quietMemory
    rw [unwatched] at changes
    generalize shouting.evaluate {} hoarse quietMemory = r at seen changes
    cases r with
    | ok v t => cases seen
    | error e t =>
      obtain ⟨rfl, written⟩ := Prod.mk.inj (Option.some.inj seen)
      exact ⟨t, rfl, written, changes.others "word" (by decide)⟩
  · obtain ⟨-, nothing, -, unwatched⟩ :=
      evaluate_changesStreams Clock.never shouting {} hushed quietMemory
    have unmoved := nothing rfl
    rw [unwatched] at unmoved
    exact ⟨_, rfl, unmoved⟩

end TraceRepair
