import TraceRepair.Proofs.Lookup
import TraceRepair.Proofs.Mirror
import TraceRepair.Proofs.Calls
import TraceRepair.Proofs.Primes
import TraceRepair.Repair.Transfer

namespace TraceRepair

namespace Expr

mutual

/-- The variables that are read if everything runs; callees are not among them. -/
def reads : Expr → List Variable
  | .constant _ _ => []
  | .variable v => [v]
  | .operation name args _ =>
    match args with
    | callee :: rest =>
      (if name = OperatorName.call then [] else reads callee) ++ readsEach rest
    | [] => []

def readsEach : List Expr → List Variable
  | [] => []
  | e :: es => reads e ++ readsEach es

end

end Expr

def Bijection.Unmarked (b : Bijection) : Prop :=
  ∀ p ∈ b.pairs, stripPrime? p.1.stored = none ∧ stripPrime? p.2.stored = none

/-- Among the variables that an expression reads, a stream corresponds to itself and to no other. -/
def Bijection.KeepsStreams (b : Bijection) (e : Expr) : Prop :=
  ∀ r ∈ e.reads, ∀ w, b.resolve r = .ok w →
    ∀ stream ∈ streams, w.unprimedName = stream ↔ r.name = stream

/-- The memories hold the same streams, and the same under corresponding variables. -/
structure Agree (b : Bijection) (e : Expr) (m m' : Memory) : Prop where
  shared : ∀ stream ∈ streams, m.find? stream = m'.find? stream
  paired : ∀ r ∈ e.reads, ∀ w, b.resolve r = .ok w → m.find? r.name = m'.find? w.unprimedName

theorem Bijection.stripPrime?_resolve {b : Bijection} (hb : b.Unmarked) {v w : Variable}
    (hv : v.isPrimed = false) (h : b.resolve v = .ok w) : stripPrime? w.stored = none := by
  unfold Bijection.resolve at h
  split at h
  · rename_i counterpart hfind
    cases h
    obtain ⟨p, hp, -, rfl⟩ := Bijection.pair_of_find? hfind
    exact (hb p hp).2
  · split at h
    · cases h
      exact Variable.stripPrime?_of_unprimed hv
    · cases h

theorem calleeName_toUnprimed {callee : Expr} (h : ∀ v ∈ callee.occurrences, v.isPrimed = false) :
    calleeName callee.toUnprimed = calleeName callee := by
  cases callee with
  | constant text line => rfl
  | «variable» v =>
    have hv := Variable.stripPrime?_of_unprimed (h v (List.mem_singleton.mpr rfl))
    exact congrArg Except.ok (Variable.unprimedName_toUnprimed hv)
  | operation name args line => rfl

def Stands (b : Bijection) (read : List Variable) (v w : Variable) : Prop :=
  v.isPrimed = false ∧ v ∈ read ∧ ∃ u, b.resolve v = .ok u ∧ w.name = u.unprimedName

/-- The callee stays, and all other arguments are transferred. -/
theorem Expr.transfer_operation {b : Bijection} {name : String} {callee : Expr}
    {rest : List Expr} {line : Nat} {e' : Expr}
    (h : (Expr.operation name (callee :: rest) line).transfer b = .ok e') :
    ∃ first others,
      (if name = OperatorName.call then first = callee else callee.transfer b = .ok first) ∧
      Expr.transferAll b rest = .ok others ∧ e' = .operation name (first :: others) line := by
  by_cases hname : name = OperatorName.call
  · simp only [Expr.transfer, hname, if_true, pure_bind] at h
    obtain ⟨others, hothers, h⟩ := Except.bind_eq_ok.mp h
    cases h
    exact ⟨callee, others, by rw [if_pos hname], hothers, by rw [hname]⟩
  · simp only [Expr.transfer, hname, if_false] at h
    obtain ⟨first, hfirst, h⟩ := Except.bind_eq_ok.mp h
    obtain ⟨others, hothers, h⟩ := Except.bind_eq_ok.mp h
    cases h
    exact ⟨first, others, by rwa [if_neg hname], hothers, rfl⟩

section Transfer

variable {b : Bijection} {read : List Variable}

mutual

/-- By recursion over the tree: what was transferred has its shape and reads counterparts. -/
theorem mirrors_transfer (hb : b.Unmarked) : ∀ {e e' : Expr},
    (∀ v ∈ e.occurrences, v.isPrimed = false) → (∀ v ∈ e.reads, v ∈ read) →
    e.transfer b = .ok e' → Mirrors (Stands b read) e e'.toUnprimed
  | .constant text line, e', _, _, h => by
    cases h
    exact .constant text line line
  | .variable v, e', hu, hr, h => by
    obtain ⟨w, hw, he⟩ := Except.bind_eq_ok.mp h
    cases he
    have hv := hu v (List.mem_singleton.mpr rfl)
    exact .read ⟨hv, hr v (List.mem_singleton.mpr rfl), w, hw,
      Variable.name_toUnprimed_toPrimed (Bijection.stripPrime?_resolve hb hv hw) v.line⟩
  | .operation name [] line, e', _, _, h => by
    cases h
    exact .operation line line (fun _ => rfl) .nil
  | .operation name (callee :: rest) line, e', hu, hr, h => by
    obtain ⟨first, others, hfirst, hothers, rfl⟩ := Expr.transfer_operation h
    simp only [Expr.occurrences, Expr.occurrencesAll, List.mem_append] at hu
    have hrest : MirrorsEach (Stands b read) rest
        (Expr.mapVariablesAll (fun v => .variable v.toUnprimed) others) := by
      refine mirrorsEach_transfer hb (fun v hv => hu v (.inr hv)) (fun v hv => hr v ?_) hothers
      simp [Expr.reads, hv]
    by_cases hname : name = OperatorName.call
    · obtain rfl := (if_pos hname).mp hfirst
      subst hname
      exact .call line line (calleeName_toUnprimed fun v hv => hu v (.inl hv)).symm hrest
    · rw [if_neg hname] at hfirst
      refine .operation line line (fun h => absurd h hname) (.cons ?_ hrest)
      refine mirrors_transfer hb (fun v hv => hu v (.inl hv)) (fun v hv => hr v ?_) hfirst
      simp [Expr.reads, hname, hv]

theorem mirrorsEach_transfer (hb : b.Unmarked) : ∀ {es es' : List Expr},
    (∀ v ∈ Expr.occurrencesAll es, v.isPrimed = false) → (∀ v ∈ Expr.readsEach es, v ∈ read) →
    Expr.transferAll b es = .ok es' →
    MirrorsEach (Stands b read) es (Expr.mapVariablesAll (fun v => .variable v.toUnprimed) es')
  | [], es', _, _, h => by
    cases h
    exact .nil
  | e :: es, es', hu, hr, h => by
    simp only [Expr.transferAll] at h
    obtain ⟨first, hfirst, h⟩ := Except.bind_eq_ok.mp h
    obtain ⟨others, hothers, h⟩ := Except.bind_eq_ok.mp h
    cases h
    simp only [Expr.occurrencesAll, Expr.readsEach, List.mem_append] at hu hr
    exact .cons
      (mirrors_transfer hb (fun v hv => hu v (.inl hv)) (fun v hv => hr v (.inl hv)) hfirst)
      (mirrorsEach_transfer hb (fun v hv => hu v (.inr hv)) (fun v hv => hr v (.inr hv)) hothers)

end

end Transfer

def Agree.tie (b : Bijection) (e : Expr) : Tie :=
  .strict (fun s t => t = { s with memory := t.memory } ∧ Agree b e s.memory t.memory)
    fun _ _ => False

/-- A finished callee writes the same streams into both memories. -/
theorem Agree.copyStreams {b : Bijection} {e : Expr} {m m' : Memory} (hs : b.KeepsStreams e)
    (h : Agree b e m m') (source : Memory) :
    Agree b e (copyStreams source m) (copyStreams source m') where
  shared stream hm := by
    rw [find?_copyStreams_of_mem hm, find?_copyStreams_of_mem hm, h.shared stream hm]
  paired r hm w hw := by
    have hname := hs r hm w hw
    by_cases hstream : r.name ∈ streams
    · have hsame := (hname _ hstream).mpr rfl
      rw [hsame, find?_copyStreams_of_mem hstream, find?_copyStreams_of_mem hstream,
        h.shared _ hstream]
    · have hother : w.unprimedName ∉ streams := fun hw' => hstream ((hname _ hw').mp rfl ▸ hw')
      rw [find?_copyStreams_of_notMem hstream, find?_copyStreams_of_notMem hother,
        h.paired r hm w hw]

/-- A callee depends on nothing in which the two machines differ. -/
theorem Agree.coupled_enter {b : Bijection} {e : Expr} (hs : b.KeepsStreams e) (limits : Limits)
    (g : FlowGraph) (run : Eval Unit) (args : List Value) :
    Coupled (Agree.tie b e) (enter limits g run args) (enter limits g run args) := by
  refine ⟨fun {s t} h => ?_, fun h => h.elim⟩
  obtain ⟨ht, ha⟩ := h
  have hdepth : t.depth = s.depth := by rw [ht]
  unfold enter
  rw [hdepth]
  split
  · exact .failure rfl ⟨ht, ha⟩
  · have same : { t with memory := frame g args t.memory, depth := t.depth + 1 } =
        { s with memory := frame g args s.memory, depth := s.depth + 1 } := by
      rw [frame_congr ha.shared, ht]
    unfold Eval.inFrame
    rw [same]
    cases run { s with memory := frame g args s.memory, depth := s.depth + 1 } with
    | ok _ u => exact .value _ ⟨rfl, ha.copyStreams hs u.memory⟩
    | error x u => exact .failure rfl ⟨rfl, ha⟩

theorem Agree.coupled_read {b : Bijection} {e : Expr} {v w : Variable}
    (h : Stands b e.reads v w) :
    Coupled (Agree.tie b e) (Eval.read v.name) (Eval.read w.name) := by
  refine ⟨fun {s t} hst => ?_, fun h => h.elim⟩
  obtain ⟨_, hm, u, hu, hname⟩ := h
  have hfind := hst.2.paired v hm u hu
  simp only [Eval.read, Eval.bind_apply, Eval.get_apply, hname, ← hfind]
  exact .value _ hst

/-- Evaluations that agree come to the same value or the same failure, and leave memories that
agree. -/
inductive SameOutcome (b : Bijection) (e : Expr) : EStateM.Result RuntimeError Machine Value →
    EStateM.Result RuntimeError Machine Value → Prop where
  | value (v : Value) {s t : Machine} (h : Agree b e s.memory t.memory) :
      SameOutcome b e (.ok v s) (.ok v t)
  | failure (x : RuntimeError) {s t : Machine} (h : Agree b e s.memory t.memory) :
      SameOutcome b e (.error x s) (.error x t)

/-- An expression and its transfer have one value, or fail alike, in memories that agree along the
pairs. The memories still agree afterwards, so the next expression can be evaluated in them. -/
theorem evaluate_transfer (p : Program) (limits : Limits) {e e' : Expr} {b : Bijection}
    (hu : ∀ v ∈ e.occurrences, v.isPrimed = false) (hb : b.Unmarked) (hs : b.KeepsStreams e)
    (ht : e.transfer b = .ok e') {m m' : Memory} (h : Agree b e m m') :
    SameOutcome b e (p.evaluate limits e m) (p.evaluate limits e'.toUnprimed m') := by
  have hm : Mirrors (Stands b e.reads) e e'.toUnprimed :=
    mirrors_transfer hb hu (fun v hv => hv) ht
  let call : CallHandler :=
    answerCall p limits fun callee => walk p limits limits.steps callee callee.entry
  have hcall : ∀ f values, Coupled (Agree.tie b e) (call f values) (call f values) :=
    Coupled.answerCall fun _ => Agree.coupled_enter hs limits _ _ _
  have hc : Coupled (Agree.tie b e) (e.eval limits.arrays call)
      (e'.toUnprimed.eval limits.arrays call) := hm.coupled Agree.coupled_read hcall
  have start : (Agree.tie b e).near ({ memory := m, left := limits.steps } : Machine)
      { memory := m', left := limits.steps } := ⟨rfl, h⟩
  have he := hc.meet start
  unfold Program.evaluate
  generalize Expr.eval _ _ e _ = r at he
  generalize Expr.eval _ _ e'.toUnprimed _ = q at he
  cases he with
  | value v tied => exact .value v tied.2
  | failure alike tied =>
    cases alike
    exact .failure _ tied.2
  | stopped tied => exact tied.elim

def echoed (output argument : Variable) : Expr :=
  .operation "StrAppend"
    [.variable output,
      .operation OperatorName.call [.variable (.reference "emit"), .variable argument] 4] 4

def emitting : Program :=
  Program.empty.addFunction
    { name := "emit", returnType := "string", entry := 1, params := [⟨"string", "text"⟩]
      blocks := SortedMap.ofList [(1,
        [("$out",
            .binary "StrAppend" (.variable (.reference "$out")) (.variable (.reference "text"))),
          ("$ret", .variable (.reference "text"))])]
      edges := SortedMap.ofList [(1, {})] }

def echoedWord : Expr := echoed (.reference "$out") (.reference "word")

def wordToLine : Bijection := .ofPairs [(.reference "word", .submission "line")]

def holding (name : String) : Memory := SortedMap.ofList [(name, .str "hi"), ("$out", .str "")]

theorem resolve_output : wordToLine.resolve (.reference "$out") = .ok (.reference "$out") := by
  decide +kernel

theorem resolve_word : wordToLine.resolve (.reference "word") = .ok (.submission "line") := by
  decide +kernel

theorem resolve_echoedWord {r w : Variable} (hr : r ∈ echoedWord.reads)
    (hw : wordToLine.resolve r = .ok w) :
    (r = .reference "$out" ∧ w = .reference "$out") ∨
      (r = .reference "word" ∧ w = .submission "line") := by
  have hreads : echoedWord.reads = [.reference "$out", .reference "word"] := by decide +kernel
  rw [hreads] at hr
  obtain rfl | rfl : r = .reference "$out" ∨ r = .reference "word" := by simpa using hr
  · exact .inl ⟨rfl, (Except.ok.inj (resolve_output.symm.trans hw)).symm⟩
  · exact .inr ⟨rfl, (Except.ok.inj (resolve_word.symm.trans hw)).symm⟩

theorem transfer_echoedWord :
    echoedWord.transfer wordToLine = .ok (echoed (.submission "$out") (.submission "line")) := by
  have output : (Expr.variable (.reference "$out")).transfer wordToLine =
      .ok (.variable (.submission "$out")) := by
    rw [Expr.transfer, resolve_output]
    exact congrArg (fun v => Except.ok (Expr.variable v)) (by decide +kernel)
  have word : (Expr.variable (.reference "word")).transfer wordToLine =
      .ok (.variable (.submission "line")) := by
    rw [Expr.transfer, resolve_word]
    exact congrArg (fun v => Except.ok (Expr.variable v)) (by decide +kernel)
  have words : Expr.transferAll wordToLine [.variable (.reference "word")] =
      .ok [.variable (.submission "line")] := by
    rw [Expr.transferAll, word]
    rfl
  have hname : "StrAppend" ≠ OperatorName.call := by decide
  simp only [echoedWord, echoed, Expr.transfer, Expr.transferAll, hname, if_true, if_false,
    pure_bind] at output word words ⊢
  rw [output, words]
  rfl

/-- The call writes to the output, and both outputs are alike afterwards. -/
theorem evaluate_transfer_echoedWord :
    echoedWord.transfer wordToLine =
      .ok (echoed (.submission "$out") (.submission "line")) ∧
    SameOutcome wordToLine echoedWord
      (emitting.evaluate {} echoedWord (holding "word"))
      (emitting.evaluate {} (echoed (.submission "$out") (.submission "line")).toUnprimed
        (holding "line")) := by
  have hu : ∀ v ∈ echoedWord.occurrences, v.isPrimed = false := by decide +kernel
  have hb : wordToLine.Unmarked := by
    unfold Bijection.Unmarked
    decide +kernel
  have hs : wordToLine.KeepsStreams echoedWord := by
    intro r hr w hw
    obtain ⟨rfl, rfl⟩ | ⟨rfl, rfl⟩ := resolve_echoedWord hr hw <;> decide +kernel
  have ha : Agree wordToLine echoedWord (holding "word") (holding "line") := by
    constructor
    · intro stream hm
      rcases mem_streams.mp hm with rfl | rfl <;> rfl
    · intro r hr w hw
      have output : (Variable.reference "$out").name = "$out" ∧
          (Variable.reference "$out").unprimedName = "$out" := by decide +kernel
      have word : (Variable.reference "word").name = "word" ∧
          (Variable.submission "line").unprimedName = "line" := by decide +kernel
      obtain ⟨rfl, rfl⟩ | ⟨rfl, rfl⟩ := resolve_echoedWord hr hw
      · rw [output.1, output.2]
        rfl
      · rw [word.1, word.2]
        rfl
  exact ⟨transfer_echoedWord,
    evaluate_transfer emitting {} hu hb hs transfer_echoedWord ha⟩

end TraceRepair
