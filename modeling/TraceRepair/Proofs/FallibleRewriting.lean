import TraceRepair.Proofs.VariablePlaces

namespace TraceRepair

section Runs

variable {σ ε α β : Type} {x : ExceptT ε (StateM σ) α} {k : α → ExceptT ε (StateM σ) β}
  {s s' : σ} {why : ε}

def runFrom (x : ExceptT ε (StateM σ) α) (s : σ) : Except ε α × σ := x.run.run s

theorem runFrom_bind_of_ok {a : α} (h : runFrom x s = (.ok a, s')) :
    runFrom (x >>= k) s = runFrom (k a) s' := by
  unfold runFrom at h ⊢
  rw [ExceptT.run_bind, StateT.run_bind, h]
  rfl

theorem runFrom_bind_of_error (h : runFrom x s = (.error why, s')) :
    runFrom (x >>= k) s = (.error why, s') := by
  unfold runFrom at h ⊢
  rw [ExceptT.run_bind, StateT.run_bind, h]
  rfl

theorem runFrom_bind_eq_ok {b : β} : runFrom (x >>= k) s = (.ok b, s') ↔
    ∃ a s₁, runFrom x s = (.ok a, s₁) ∧ runFrom (k a) s₁ = (.ok b, s') := by
  rcases h : runFrom x s with ⟨why | a, s₁⟩
  · rw [runFrom_bind_of_error h]
    simp
  · rw [runFrom_bind_of_ok h]
    simp

/-- The first computation fails, or the second one does from where the first one came to. -/
theorem runFrom_bind_eq_error : runFrom (x >>= k) s = (.error why, s') ↔
    runFrom x s = (.error why, s') ∨
      ∃ a s₁, runFrom x s = (.ok a, s₁) ∧ runFrom (k a) s₁ = (.error why, s') := by
  rcases h : runFrom x s with ⟨why | a, s₁⟩
  · rw [runFrom_bind_of_error h]
    simp
  · rw [runFrom_bind_of_ok h]
    simp

theorem runFrom_pure_eq_ok {a b : α} :
    runFrom (pure a : ExceptT ε (StateM σ) α) s = (.ok b, s') ↔ a = b ∧ s = s' := by
  change ((.ok a, s) : Except ε α × σ) = (.ok b, s') ↔ _
  simp

end Runs

section Lists

variable {σ ε : Type} {f : Variable → ExceptT ε (StateM σ) Expr} {s s' : σ} {vs : List Variable}
  {es : List Expr}

/-- Asked about one variable after another, `f` answers every time. -/
inductive Answers (f : Variable → ExceptT ε (StateM σ) Expr) :
    σ → List Variable → List Expr → σ → Prop where
  | nil (s : σ) : Answers f s [] [] s
  | cons {s s₁ s' : σ} {v : Variable} {e : Expr} {vs : List Variable} {es : List Expr}
      (answer : runFrom (f v) s = (.ok e, s₁)) (later : Answers f s₁ vs es s') :
      Answers f s (v :: vs) (e :: es) s'

theorem Answers.length_eq (h : Answers f s vs es s') : es.length = vs.length := by
  induction h with
  | nil => rfl
  | cons _ _ ih => rw [List.length_cons, List.length_cons, ih]

def recorded (f : Variable → ExceptT ε (StateM σ) Expr) (v : Variable) :
    ExceptT ε (StateM (σ × List Variable)) Expr :=
  ExceptT.mk fun (s, asked) => ((runFrom (f v) s).1, (runFrom (f v) s).2, asked ++ [v])

theorem runFrom_recorded {v : Variable} {asked asked' : List Variable} {r : Except ε Expr} :
    runFrom (recorded f v) (s, asked) = (r, s', asked') ↔
      runFrom (f v) s = (r, s') ∧ asked' = asked ++ [v] := by
  change ((runFrom (f v) s).1, (runFrom (f v) s).2, asked ++ [v]) = (r, s', asked') ↔ _
  simp only [Prod.ext_iff, and_assoc, eq_comm (a := asked')]

theorem answers_recorded {asked asked' : List Variable} :
    Answers (recorded f) (s, asked) vs es (s', asked') ↔
      Answers f s vs es s' ∧ asked' = asked ++ vs := by
  induction vs generalizing s es asked with
  | nil =>
    rw [List.append_nil]
    constructor
    · rintro ⟨⟩
      exact ⟨.nil _, rfl⟩
    · rintro ⟨⟨⟩, rfl⟩
      exact .nil _
  | cons v vs ih =>
    constructor
    · intro h
      obtain _ | @⟨_, ⟨s₁, heard⟩, _, _, e, _, es, answer, later⟩ := h
      obtain ⟨plain, rfl⟩ := runFrom_recorded.mp answer
      obtain ⟨others, rfl⟩ := ih.mp later
      exact ⟨.cons plain others, List.append_assoc asked [v] vs⟩
    · rintro ⟨_ | ⟨answer, later⟩, rfl⟩
      have others := ih.mpr ⟨later, (List.append_assoc asked [v] vs).symm⟩
      exact .cons (runFrom_recorded.mpr ⟨answer, rfl⟩) others

theorem runFrom_mapM_eq_ok : runFrom (vs.mapM f) s = (.ok es, s') ↔ Answers f s vs es s' := by
  induction vs generalizing s es with
  | nil =>
    rw [List.mapM_nil, runFrom_pure_eq_ok]
    constructor
    · rintro ⟨rfl, rfl⟩
      exact .nil _
    · rintro ⟨⟩
      exact ⟨rfl, rfl⟩
  | cons v vs ih =>
    rw [List.mapM_cons, runFrom_bind_eq_ok]
    constructor
    · rintro ⟨e, s₁, answer, h⟩
      obtain ⟨es, s₂, later, h⟩ := runFrom_bind_eq_ok.mp h
      cases h
      exact .cons answer (ih.mp later)
    · rintro (_ | ⟨answer, later⟩)
      exact ⟨_, _, answer, runFrom_bind_eq_ok.mpr ⟨_, _, ih.mpr later, rfl⟩⟩

/-- A failure is that of the first variable that has no answer; none behind it is asked about. -/
theorem runFrom_mapM_eq_error {why : ε} : runFrom (vs.mapM f) s = (.error why, s') ↔
    ∃ earlier v later es s₁, vs = earlier ++ v :: later ∧ Answers f s earlier es s₁ ∧
      runFrom (f v) s₁ = (.error why, s') := by
  induction vs generalizing s with
  | nil =>
    constructor
    · rintro ⟨⟩
    · rintro ⟨earlier, v, later, es, s₁, whole, -⟩
      exact absurd whole.symm (List.append_ne_nil_of_right_ne_nil _ (List.cons_ne_nil v later))
  | cons v vs ih =>
    rw [List.mapM_cons, runFrom_bind_eq_error]
    constructor
    · rintro (failure | ⟨e, s₁, answer, h⟩)
      · exact ⟨[], v, vs, [], s, rfl, .nil s, failure⟩
      · rcases runFrom_bind_eq_error.mp h with h | ⟨es, s₂, -, h⟩
        · obtain ⟨earlier, w, later, es, s₂, rfl, answers, failure⟩ := ih.mp h
          exact ⟨v :: earlier, w, later, e :: es, s₂, rfl, .cons answer answers, failure⟩
        · cases h
    · rintro ⟨earlier, w, later, es, s₁, whole, answers, failure⟩
      -- Without answers the first variable is the one that fails.
      cases answers with
      | nil =>
        cases whole
        exact .inl failure
      | cons answer answers =>
        cases whole
        have h := ih.mpr ⟨_, w, later, _, _, rfl, answers, failure⟩
        exact .inr ⟨_, _, answer, runFrom_bind_eq_error.mpr (.inl h)⟩

end Lists

namespace Expr

section Occurrences

variable {m : Type → Type} [Monad m] [LawfulMonad m] (f : Variable → m Expr)

/-- What follows a list of effects gets as many results as there are elements. -/
theorem bind_mapM_congr {β : Type} {f : Variable → m Expr} {vs : List Variable}
    {k k' : List Expr → m β} (h : ∀ es, es.length = vs.length → k es = k' es) :
    vs.mapM f >>= k = vs.mapM f >>= k' := by
  induction vs generalizing k k' with
  | nil => simpa using h [] rfl
  | cons v vs ih =>
    simp only [List.mapM_cons, bind_assoc, pure_bind]
    refine bind_congr fun e => ih fun es same => h (e :: es) ?_
    rw [List.length_cons, List.length_cons, same]

mutual

/-- The effects are those of the list of occurrences. -/
theorem mapVariablesM_eq : ∀ e : Expr,
    e.mapVariablesM f = (do let es ← e.occurrences.mapM f; pure (e.fill es))
  | .constant _ _ => by simp [mapVariablesM, occurrences, fill]
  | .variable _ => by simp [mapVariablesM, occurrences, fill]
  | .operation name args line => by
    simp [mapVariablesM, occurrences, fill, mapVariablesAllM_eq args]

theorem mapVariablesAllM_eq : ∀ as : List Expr,
    mapVariablesAllM f as = (do let es ← (occurrencesAll as).mapM f; pure (fillAll as es))
  | [] => by simp [mapVariablesAllM, occurrencesAll, fillAll]
  | a :: as => by
    simp only [mapVariablesAllM, occurrencesAll, mapVariablesM_eq a, mapVariablesAllM_eq as,
      List.mapM_append, bind_assoc, pure_bind]
    -- The effects agree already: the answers are cut where the occurrences were joined.
    refine bind_mapM_congr fun es same => bind_congr fun later => ?_
    rw [fillAll, List.take_left' same, List.drop_left' same]

end

end Occurrences

section Stateful

variable {σ ε : Type}

mutual

/-- Like `mapVariables` with a function that keeps a state between its calls. -/
def mapVariablesFrom (g : Variable → σ → Expr × σ) : Expr → σ → Expr × σ
  | .constant text line, s => (.constant text line, s)
  | .variable v, s => g v s
  | .operation name args line, s =>
    let (args, s) := mapVariablesAllFrom g args s
    (.operation name args line, s)

def mapVariablesAllFrom (g : Variable → σ → Expr × σ) : List Expr → σ → List Expr × σ
  | [], s => ([], s)
  | a :: as, s =>
    let (b, s) := mapVariablesFrom g a s
    let (bs, s) := mapVariablesAllFrom g as s
    (b :: bs, s)

end

variable {f : Variable → ExceptT ε (StateM σ) Expr} {g : Variable → σ → Expr × σ}
  {h : Variable → Expr} {e e' : Expr} {s s' : σ}

mutual

/-- Where the answers do not depend on the state, the rewriting does not either. -/
theorem mapVariablesFrom_fst (steady : ∀ v s, (g v s).1 = h v) : ∀ (e : Expr) (s : σ),
    (e.mapVariablesFrom g s).1 = e.mapVariables h
  | .constant _ _, _ => rfl
  | .variable v, s => steady v s
  | .operation _ args _, s => by
    rw [mapVariables, ← mapVariablesAllFrom_fst steady args s]
    rfl

theorem mapVariablesAllFrom_fst (steady : ∀ v s, (g v s).1 = h v) : ∀ (as : List Expr) (s : σ),
    (mapVariablesAllFrom g as s).1 = mapVariablesAll h as
  | [], _ => rfl
  | a :: as, s => by
    rw [mapVariablesAll, ← mapVariablesFrom_fst steady a s,
      ← mapVariablesAllFrom_fst steady as (a.mapVariablesFrom g s).2]
    rfl

end

mutual

theorem runFrom_mapVariablesM (tireless : ∀ v s, runFrom (f v) s = (.ok (g v s).1, (g v s).2)) :
    ∀ (e : Expr) (s : σ), runFrom (e.mapVariablesM f) s =
      (.ok (e.mapVariablesFrom g s).1, (e.mapVariablesFrom g s).2)
  | .constant _ _, _ => rfl
  | .variable v, s => tireless v s
  | .operation _ args _, s =>
    runFrom_bind_eq_ok.mpr ⟨_, _, runFrom_mapVariablesAllM tireless args s, rfl⟩

theorem runFrom_mapVariablesAllM
    (tireless : ∀ v s, runFrom (f v) s = (.ok (g v s).1, (g v s).2)) :
    ∀ (as : List Expr) (s : σ), runFrom (mapVariablesAllM f as) s =
      (.ok (mapVariablesAllFrom g as s).1, (mapVariablesAllFrom g as s).2)
  | [], _ => rfl
  | a :: as, s =>
    runFrom_bind_eq_ok.mpr ⟨_, _, runFrom_mapVariablesM tireless a s,
      runFrom_bind_eq_ok.mpr ⟨_, _, runFrom_mapVariablesAllM tireless as _, rfl⟩⟩

end

theorem runFrom_mapVariablesM_fst (steady : ∀ v s, (runFrom (f v) s).1 = .ok (h v)) (e : Expr)
    (s : σ) : (runFrom (e.mapVariablesM f) s).1 = .ok (e.mapVariables h) := by
  have tireless : ∀ v s, runFrom (f v) s = (.ok (h v), (runFrom (f v) s).2) := fun v s =>
    Prod.ext (steady v s) rfl
  have run := runFrom_mapVariablesM (g := fun v s => (h v, (runFrom (f v) s).2)) tireless e s
  exact (congrArg Prod.fst run).trans
    (congrArg Except.ok (mapVariablesFrom_fst (h := h) (fun _ _ => rfl) e s))

/-- A rewriting succeeds exactly when every variable gets an answer, and the answers take the places
of the variables. -/
theorem runFrom_mapVariablesM_eq_ok : runFrom (e.mapVariablesM f) s = (.ok e', s') ↔
    ∃ es, Answers f s e.occurrences es s' ∧ e.Refills es e' := by
  rw [mapVariablesM_eq, runFrom_bind_eq_ok]
  constructor
  · rintro ⟨es, s₁, h, filled⟩
    obtain ⟨rfl, rfl⟩ := runFrom_pure_eq_ok.mp filled
    have answers := runFrom_mapM_eq_ok.mp h
    exact ⟨es, answers, refills_fill answers.length_eq⟩
  · rintro ⟨es, answers, refills⟩
    have filled := (refills_iff.mp refills).2
    exact ⟨es, s', runFrom_mapM_eq_ok.mpr answers, runFrom_pure_eq_ok.mpr ⟨filled, rfl⟩⟩

/-- A rewriting fails exactly when some variable gets no answer, and nothing is asked behind it. -/
theorem runFrom_mapVariablesM_eq_error {why : ε} :
    runFrom (e.mapVariablesM f) s = (.error why, s') ↔
      ∃ earlier v later es s₁, e.occurrences = earlier ++ v :: later ∧
        Answers f s earlier es s₁ ∧ runFrom (f v) s₁ = (.error why, s') := by
  rw [mapVariablesM_eq, runFrom_bind_eq_error, runFrom_mapM_eq_error]
  refine or_iff_left ?_
  rintro ⟨es, s₁, -, ⟨⟩⟩

theorem recorded_answered {es : List Expr} (answers : Answers f s e.occurrences es s')
    (refills : e.Refills es e') :
    runFrom (e.mapVariablesM (recorded f)) (s, []) = (.ok e', s', e.occurrences) :=
  runFrom_mapVariablesM_eq_ok.mpr ⟨es, answers_recorded.mpr ⟨answers, rfl⟩, refills⟩

/-- Up to the variable without an answer, and that one too. -/
theorem recorded_failed {why : ε} {earlier later : List Variable} {v : Variable} {es : List Expr}
    {s₁ : σ} (whole : e.occurrences = earlier ++ v :: later) (answers : Answers f s earlier es s₁)
    (failure : runFrom (f v) s₁ = (.error why, s')) :
    runFrom (e.mapVariablesM (recorded f)) (s, []) = (.error why, s', earlier ++ [v]) :=
  runFrom_mapVariablesM_eq_error.mpr ⟨earlier, v, later, es, (s₁, earlier), whole,
    answers_recorded.mpr ⟨answers, rfl⟩, runFrom_recorded.mpr ⟨failure, rfl⟩⟩

end Stateful

/-- Which variables a rewriting asks about, in which states, and what it comes to. -/
structure AsksInOrder {σ ε : Type} (f : Variable → ExceptT ε (StateM σ) Expr) (e : Expr) (s : σ) :
    Prop where
  answered : ∀ e' s' asked,
    runFrom (e.mapVariablesM (recorded f)) (s, []) = (.ok e', s', asked) ↔
      asked = e.occurrences ∧ ∃ es, Answers f s asked es s' ∧ e.Refills es e'
  failed : ∀ why s' asked,
    runFrom (e.mapVariablesM (recorded f)) (s, []) = (.error why, s', asked) ↔
      ∃ earlier v later es s₁, e.occurrences = earlier ++ v :: later ∧ asked = earlier ++ [v] ∧
        Answers f s earlier es s₁ ∧ runFrom (f v) s₁ = (.error why, s')
  unrecorded : ∃ asked, runFrom (e.mapVariablesM (recorded f)) (s, []) =
    ((runFrom (e.mapVariablesM f) s).1, (runFrom (e.mapVariablesM f) s).2, asked)

/-- Of every computation that may keep a state and may fail. -/
theorem asksInOrder {σ ε : Type} (f : Variable → ExceptT ε (StateM σ) Expr) (e : Expr) (s : σ) :
    AsksInOrder f e s where
  answered e' s' asked := by
    constructor
    · intro h
      obtain ⟨es, answers, refills⟩ := runFrom_mapVariablesM_eq_ok.mp h
      obtain ⟨plain, rfl⟩ := answers_recorded.mp answers
      exact ⟨rfl, es, plain, refills⟩
    · rintro ⟨rfl, es, answers, refills⟩
      exact recorded_answered answers refills
  failed why s' asked := by
    constructor
    · intro h
      obtain ⟨earlier, v, later, es, ⟨s₁, heard⟩, whole, answers, failure⟩ :=
        runFrom_mapVariablesM_eq_error.mp h
      obtain ⟨plain, same⟩ := answers_recorded.mp answers
      obtain ⟨failed, rfl⟩ := runFrom_recorded.mp failure
      exact ⟨earlier, v, later, es, s₁, whole, congrArg (· ++ [v]) same, plain, failed⟩
    · rintro ⟨earlier, v, later, es, s₁, whole, rfl, answers, failure⟩
      exact recorded_failed whole answers failure
  unrecorded := by
    rcases h : runFrom (e.mapVariablesM f) s with ⟨why | e', s'⟩
    · obtain ⟨earlier, v, later, es, s₁, whole, answers, failure⟩ :=
        runFrom_mapVariablesM_eq_error.mp h
      exact ⟨earlier ++ [v], recorded_failed whole answers failure⟩
    · obtain ⟨es, answers, refills⟩ := runFrom_mapVariablesM_eq_ok.mp h
      exact ⟨e.occurrences, recorded_answered answers refills⟩

structure EndsAsPlain {σ ε : Type} (f : Variable → ExceptT ε (StateM σ) Expr) (e : Expr) (s : σ) :
    Prop where
  stateful : ∀ g : Variable → σ → Expr × σ,
    (∀ v s, runFrom (f v) s = (.ok (g v s).1, (g v s).2)) →
      runFrom (e.mapVariablesM f) s = (.ok (e.mapVariablesFrom g s).1, (e.mapVariablesFrom g s).2)
  plain : ∀ g : Variable → Expr, (∀ v s, (runFrom (f v) s).1 = .ok (g v)) →
    (runFrom (e.mapVariablesM f) s).1 = .ok (e.mapVariables g)
  toPrimed : (∀ v s, (runFrom (f v) s).1 = .ok (.variable (v.setPrimed true))) →
    (runFrom (e.mapVariablesM f) s).1 = .ok e.toPrimed
  toUnprimed : (∀ v s, (runFrom (f v) s).1 = .ok (.variable v.toUnprimed)) →
    (runFrom (e.mapVariablesM f) s).1 = .ok e.toUnprimed
  primeOnly : ∀ names : List String,
    (∀ v s, (runFrom (f v) s).1 =
      .ok (.variable (if names.contains v.unprimedName then v.toPrimed else v))) →
    (runFrom (e.mapVariablesM f) s).1 = .ok (e.primeOnly names)
  replace : ∀ (name : String) (new : Expr),
    (∀ v s, (runFrom (f v) s).1 = .ok (if v.name = name then new else .variable v)) →
    (runFrom (e.mapVariablesM f) s).1 = .ok (e.replace name new)

/-- A function that may fail is asked about the occurrences in their order and no further than to
its first failure, and one that cannot fail rewrites as the functions that are not allowed to. -/
theorem mapVariablesM_asksInOrder {σ ε : Type} (f : Variable → ExceptT ε (StateM σ) Expr) (e : Expr)
    (s : σ) : AsksInOrder f e s ∧ EndsAsPlain f e s := by
  have plain : ∀ g : Variable → Expr, (∀ v s, (runFrom (f v) s).1 = .ok (g v)) →
      (runFrom (e.mapVariablesM f) s).1 = .ok (e.mapVariables g) := fun g steady =>
    runFrom_mapVariablesM_fst steady e s
  exact ⟨asksInOrder f e s, {
    stateful := fun g tireless => runFrom_mapVariablesM tireless e s
    plain := plain
    toPrimed := plain _
    toUnprimed := plain _
    primeOnly := fun _ => plain _
    replace := fun _ _ => plain _ }⟩

def primeGiven (names : List String) (v : Variable) : ExceptT String (StateM Nat) Expr :=
  ExceptT.mk fun count =>
    (if names.contains v.unprimedName then .ok (.variable v.toPrimed) else .error v.name, count + 1)

def primeCounted (v : Variable) : ExceptT String (StateM Nat) Expr :=
  ExceptT.mk fun count => (.ok (.variable (v.setPrimed true)), count + 1)

def nested : Expr :=
  .operation "+" [.variable (.reference "x"),
    .operation "min" [.constant "1" 2, .variable (.reference "y")] 2, .variable (.reference "z")] 1

/-- The second of three variables stops it, the third is not asked about. -/
theorem mapVariablesM_asksInOrder_nested :
    runFrom (nested.mapVariablesM (recorded (primeGiven ["x", "z"]))) (0, []) =
      (.error "y", 2, [.reference "x", .reference "y"]) ∧
    (∀ v s, (runFrom (primeCounted v) s).1 = .ok (.variable (v.setPrimed true))) ∧
    (runFrom (nested.mapVariablesM primeCounted) 0).1 = .ok nested.toPrimed ∧
    (runFrom (nested.mapVariablesM primeCounted) 0).2 = 3 := by
  obtain ⟨asks, -⟩ := mapVariablesM_asksInOrder (primeGiven ["x", "z"]) nested 0
  obtain ⟨-, ends⟩ := mapVariablesM_asksInOrder primeCounted nested 0
  have known : ["x", "z"].contains (Variable.reference "x").unprimedName = true := by
    decide +kernel
  have unknown : ["x", "z"].contains (Variable.reference "y").unprimedName ≠ true := by
    decide +kernel
  have named : (Variable.reference "y").name = "y" := by decide +kernel
  have first : Answers (primeGiven ["x", "z"]) 0 [.reference "x"]
      [.variable (Variable.reference "x").toPrimed] 1 :=
    .cons (congrArg (·, 1) (if_pos known)) (.nil 1)
  have second : runFrom (primeGiven ["x", "z"] (.reference "y")) 1 = (.error "y", 2) :=
    congrArg (·, 2) ((if_neg unknown).trans (congrArg Except.error named))
  have steady : ∀ v s, (runFrom (primeCounted v) s).1 = .ok (.variable (v.setPrimed true)) :=
    fun _ _ => rfl
  refine ⟨(asks.failed _ _ _).mpr ⟨_, _, [.reference "z"], _, _, rfl, rfl, first, second⟩, steady,
    ends.toPrimed steady, ?_⟩
  rw [ends.stateful (fun v count => (.variable (v.setPrimed true), count + 1)) fun _ _ => rfl]
  rfl

end Expr

end TraceRepair
