import TraceRepair.Proofs.CoupledWalks
import TraceRepair.Proofs.WellNested

namespace TraceRepair

structure Lead (ahead fuel fuel' : Nat) (s t : Machine) : Prop where
  left_eq : t.left = s.left + ahead
  left_le : s.left ≤ fuel
  left_le' : t.left ≤ fuel'
  memory_eq : t.memory = s.memory
  depth_eq : t.depth = s.depth
  visits_eq : t.visits = s.visits

/-- The left run stopped without a visit to spend. The right one has spent what it was ahead. -/
structure Outran (ahead : Nat) (s t : Machine) : Prop where
  visits : s.visits <:+ t.visits
  left_lt : t.left < ahead

def budgetTie (ahead fuel fuel' : Nat) : Tie := .strict (Lead ahead fuel fuel') (Outran ahead)

section Walk

variable {p : Program} {limits : Limits} {steps ahead fuel fuel' : Nat}

/-- The right side is in a call of its own. -/
theorem Outran.enter {g : FlowGraph} {run : Eval Unit}
    (h : ∀ {s t}, Outran ahead s t → Outran ahead s (Eval.machine (run t))) (args : List Value)
    {s t : Machine} (hst : Outran ahead s t) :
    Outran ahead s (Eval.machine (enter limits g run args t)) := by
  unfold TraceRepair.enter
  split
  · exact hst
  · have hf := h (s := s)
      (t := { t with memory := frame g args t.memory, depth := t.depth + 1 }) ⟨hst.1, hst.2⟩
    unfold Eval.inFrame
    generalize run _ = q at hf ⊢
    cases q with
    | ok _ u => exact ⟨hf.1, hf.2⟩
    | error e u => exact ⟨hf.1, hf.2⟩

theorem Lead.coupled_enter {g : FlowGraph} {run run' : Eval Unit}
    (h : Coupled (budgetTie ahead fuel fuel') run run') (args : List Value) :
    Coupled (budgetTie ahead fuel fuel') (enter limits g run args)
      (enter { limits with steps } g run' args) := by
  refine ⟨fun {s t} hst => ?_, fun hst => Outran.enter h.onward args hst⟩
  unfold enter
  simp only [hst.depth_eq]
  split
  · exact .failure rfl hst
  · have he := h.meet (s := { s with memory := frame g args s.memory, depth := s.depth + 1 })
      (t := { t with memory := frame g args t.memory, depth := s.depth + 1 })
      ⟨hst.left_eq, hst.left_le, hst.left_le', by rw [hst.memory_eq], rfl, hst.visits_eq⟩
    unfold Eval.inFrame
    rw [hst.depth_eq]
    generalize run _ = r at he ⊢
    generalize run' _ = q at he ⊢
    cases he with
    | @value u v _ tied =>
      have hm : v.memory = u.memory := tied.memory_eq
      simp only [hm, hst.memory_eq]
      exact .value _ ⟨tied.left_eq, tied.left_le, tied.left_le', rfl,
        congrArg (· - 1) tied.depth_eq, tied.visits_eq⟩
    | failure alike tied =>
      exact .failure alike ⟨tied.left_eq, tied.left_le, tied.left_le', hst.memory_eq,
        congrArg (· - 1) tied.depth_eq, tied.visits_eq⟩
    | stopped tied =>
      refine .stopped ?_
      cases q with
      | ok _ u => exact ⟨tied.visits, tied.left_lt⟩
      | error e u => exact ⟨tied.visits, tied.left_lt⟩

/-- A step of the coupling: visits are coupled when walks with less fuel are. -/
theorem Lead.coupled_visitAt
    (h : ∀ g loc, Coupled (budgetTie ahead fuel fuel') (walk p limits fuel g loc)
      (walk p { limits with steps } fuel' g loc)) (g : FlowGraph) (loc : Loc) :
    Coupled (budgetTie ahead fuel fuel') (visitAt p limits fuel g loc)
      (visitAt p { limits with steps } fuel' g loc) := by
  rw [visitAt_eq, visitAt_eq]
  apply Coupled.visitBy Lead.memory_eq
  · apply Coupled.runAssignments
    · exact Coupled.eval Lead.memory_eq (Coupled.answerCall fun {g args} _ =>
        Lead.coupled_enter (h g g.entry) args)
    · intro x y notice hxy
      apply hxy.settle
      · exact fun _ hst => ⟨hst.1, hst.2, hst.3, hst.4, hst.5, hst.6⟩
      · exact fun _ hst => ⟨hst.1, hst.2⟩
    · intro target v
      apply Coupled.modify
      · exact fun hst => ⟨hst.1, hst.2, hst.3, by rw [hst.memory_eq], hst.5, hst.6⟩
      · exact fun hst => ⟨hst.1, hst.2⟩
  · apply Coupled.modify
    · exact fun hst => ⟨hst.1, hst.2, hst.3, hst.4, hst.5, by rw [hst.memory_eq, hst.visits_eq]⟩
    · exact fun hst => ⟨hst.1.trans (List.suffix_cons _ _), hst.2⟩
  · exact fun next => h g next

theorem Lead.ends_mono {r q : EStateM.Result RuntimeError Machine Unit}
    (h : (budgetTie ahead fuel fuel').Ends r q) :
    (budgetTie ahead (fuel + 1) (fuel' + 1)).Ends r q := by
  have mono : ∀ {s t}, Lead ahead fuel fuel' s t → Lead ahead (fuel + 1) (fuel' + 1) s t :=
    fun h => ⟨h.1, Nat.le_succ_of_le h.2, Nat.le_succ_of_le h.3, h.4, h.5, h.6⟩
  cases h with
  | value a tied => exact .value a (mono tied)
  | failure alike tied => exact .failure alike (mono tied)
  | stopped tied => exact .stopped tied

/-- Induction on the right fuel, since the right side goes on without the left one. -/
theorem Lead.coupled_walk (p : Program) (limits : Limits) (steps : Nat) (hahead : 0 < ahead)
    (g : FlowGraph) (loc : Loc) :
    Coupled (budgetTie ahead fuel fuel') (walk p limits fuel g loc)
      (walk p { limits with steps } fuel' g loc) := by
  induction fuel' generalizing fuel g loc with
  | zero =>
    refine ⟨fun {s t} hst => ?_, fun hst => hst⟩
    have := hst.left_eq
    have := hst.left_le'
    omega
  | succ fuel' ih =>
    have visit : ∀ fuel, Coupled (budgetTie ahead fuel fuel') (visitAt p limits fuel g loc)
        (visitAt p { limits with steps } fuel' g loc) :=
      fun fuel => Lead.coupled_visitAt (fun g loc => ih g loc) g loc
    -- What is left of the lead alone pays for the visits from here on.
    have onward : ∀ {s t : Machine}, s.visits <:+ t.visits → t.left ≤ ahead →
        Outran ahead s (Eval.machine (walk p { limits with steps } (fuel' + 1) g loc t)) := by
      intro s t hv hl
      cases ht : t.left with
      | zero =>
        rw [walk_spent ht]
        exact ⟨hv, by dsimp only [Eval.machine]; omega⟩
      | succ left =>
        rw [walk_paid ht]
        exact (visit 0).onward ⟨hv, by dsimp only; omega⟩
    refine ⟨fun {s t} hst => ?_, fun hst =>
      onward hst.visits (Nat.le_of_lt hst.left_lt)⟩
    cases hs : s.left with
    | zero =>
      rw [walk_spent hs]
      have := hst.left_eq
      exact .stopped (onward (hst.visits_eq ▸ List.suffix_refl _) (by omega))
    | succ left =>
      obtain ⟨fuel, rfl⟩ : ∃ f, fuel = f + 1 :=
        Nat.exists_eq_succ_of_ne_zero (by have := hst.left_le; omega)
      have ht : t.left = (left + ahead) + 1 := by
        have := hst.left_eq
        omega
      rw [walk_paid hs, walk_paid ht]
      refine Lead.ends_mono ((visit fuel).meet ⟨rfl, ?_, ?_, hst.4, hst.5, hst.6⟩)
      · have := hst.left_le
        dsimp only
        omega
      · have := hst.left_le'
        dsimp only
        omega

end Walk

def Program.executeWithin (p : Program) (limits : Limits) (input : RunInput) (steps : Nat) :
    Except RuntimeError Trace :=
  (p.execute { limits with steps } input).1

section Within

variable {p : Program} {limits : Limits}

theorem executeWithin_unknown (found : p.function? limits.entry = none) (input : RunInput)
    (steps : Nat) : p.executeWithin limits input steps = .error (.undefinedFunction limits.entry) :=
  @execute_unknown p { limits with steps } found input

theorem executeWithin_found {g : FlowGraph} (found : p.function? limits.entry = some g)
    (input : RunInput) (steps : Nat) :
    p.executeWithin limits input steps = outcome (walk p { limits with steps } steps g g.entry
      (.start g { limits with steps } input)) :=
  @execute_found p { limits with steps } g found input

end Within

/-- What a larger budget makes of a result that came of the given one. A run that was cut off may
come upon a contradiction in its program, or upon the end of its process. -/
inductive Extends (steps : Nat) : Except RuntimeError Trace → Except RuntimeError Trace → Prop
  where
  | failed (e : RuntimeError) : Extends steps (.error e) (.error e)
  | finished (visits : List Visit) :
      Extends steps (.ok { visits, truncated := false }) (.ok { visits, truncated := false })
  | malformed (visits : List Visit) (fault : Malformation) :
      Extends steps (.ok { visits, truncated := true }) (.error (.malformed fault))
  | aborted (visits : List Visit) :
      Extends steps (.ok { visits, truncated := true }) (.error .aborted)
  | further {visits : List Visit} {t : Trace} (longer : visits <+: t.visits)
      (unpaid : t.truncated = false → steps < t.length) :
      Extends steps (.ok { visits, truncated := true }) (.ok t)

/-- The two runs go side by side until the smaller budget is spent. -/
theorem extends_executeWithin_lt (p : Program) (limits : Limits) (input : RunInput) {n m : Nat}
    (h : n < m) :
    Extends n (p.executeWithin limits input n) (p.executeWithin limits input m) := by
  cases found : p.function? limits.entry with
  | none =>
    rw [executeWithin_unknown found, executeWithin_unknown found]
    exact .failed _
  | some g =>
    rw [executeWithin_found found, executeWithin_found found]
    have start : Lead (m - n) n m (.start g { limits with steps := n } input)
        (.start g { limits with steps := m } input) :=
      ⟨(Nat.add_sub_of_le (Nat.le_of_lt h)).symm, Nat.le_refl n, Nat.le_refl m, rfl, rfl, rfl⟩
    have ends := (Lead.coupled_walk p { limits with steps := n } m (Nat.sub_pos_of_lt h) g
      g.entry).meet start
    have small := traverses_walk p { limits with steps := n } n g g.entry
      (.start g { limits with steps := n } input) (Nat.le_refl n)
    have large := traverses_walk p { limits with steps := m } m g g.entry
      (.start g { limits with steps := m } input) (Nat.le_refl m)
    generalize walk p { limits with steps := n } n g _ _ = r at ends small ⊢
    generalize walk p { limits with steps := m } m g _ _ = q at ends large ⊢
    cases ends with
    | value _ tied =>
      simp only [outcome, tied.visits_eq]
      exact .finished _
    | failure alike tied =>
      cases alike
      cases small with
      | malformed fault _ => exact .failed _
      | aborted _ => exact .failed _
      | cut _ _ spent =>
        cases large with
        | cut _ _ spent' =>
          have := tied.left_eq
          omega
    | stopped tied =>
      have longer := List.reverse_prefix.mpr tied.visits
      cases large with
      | finished _ after =>
        refine .further longer fun _ => ?_
        have := after.paid
        have := tied.left_lt
        simp only [Trace.length, after.listed_start]
        dsimp only [Eval.machine, Machine.start] at *
        omega
      | cut => exact .further longer nofun
      | malformed fault v => exact .malformed _ fault
      | aborted v => exact .aborted _

theorem Extends.refl (steps : Nat) (r : Except RuntimeError Trace) : Extends steps r r := by
  cases r with
  | error e => exact .failed e
  | ok t =>
    obtain ⟨visits, truncated⟩ := t
    cases truncated with
    | false => exact .finished visits
    | true => exact .further (List.prefix_refl visits) nofun

theorem extends_executeWithin (p : Program) (limits : Limits) (input : RunInput) {n m : Nat}
    (h : n ≤ m) :
    Extends n (p.executeWithin limits input n) (p.executeWithin limits input m) := by
  rcases Nat.lt_or_eq_of_le h with h | rfl
  · exact extends_executeWithin_lt p limits input h
  · exact .refl n _

section Finished

variable {p : Program} {limits : Limits} {input : RunInput} {n k : Nat} {visits : List Visit}

/-- Every visit of a finished trace was paid for. -/
theorem length_le_of_finished (h : p.executeWithin limits input n = .ok ⟨visits, false⟩) :
    visits.length ≤ n := by
  cases found : p.function? limits.entry with
  | none =>
    rw [executeWithin_unknown found] at h
    cases h
  | some g =>
    rw [executeWithin_found found] at h
    have hwalk := traverses_walk p { limits with steps := n } n g g.entry
      (.start g { limits with steps := n } input) (Nat.le_refl n)
    generalize walk p _ n g _ _ = r at h hwalk
    cases hwalk with
    | finished _ after =>
      cases h
      rw [after.listed_start]
      exact Nat.le.intro ((Nat.add_comm _ _).trans after.paid)
    | cut => cases h
    | malformed => cases h
    | aborted => cases h

/-- A finished trace does not change when there is more to spend. -/
theorem finished_of_le (h : p.executeWithin limits input n = .ok ⟨visits, false⟩) (hk : n ≤ k) :
    p.executeWithin limits input k = .ok ⟨visits, false⟩ := by
  have he := extends_executeWithin p limits input hk
  rw [h] at he
  generalize p.executeWithin limits input k = r at he
  cases he with
  | finished => rfl

/-- What finishes with a larger budget is only cut off by a budget that does not pay for it. -/
theorem finished_of_length_le (h : p.executeWithin limits input n = .ok ⟨visits, false⟩)
    (hk : visits.length ≤ k) : p.executeWithin limits input k = .ok ⟨visits, false⟩ := by
  rcases Nat.le_total n k with hle | hle
  · exact finished_of_le h hle
  · have he := extends_executeWithin p limits input hle
    rw [h] at he
    generalize p.executeWithin limits input k = r at he
    cases he with
    | finished => rfl
    | further longer unpaid => exact absurd (unpaid rfl) (Nat.not_lt.mpr hk)

end Finished

/-- A larger budget leaves a run that finished or failed as it is, and goes on with one that was cut
off. From some number of visits on a run is no longer cut off, and that number is the length of its
trace. -/
theorem executeWithin_mono (p : Program) (limits : Limits) (input : RunInput) {n m : Nat}
    (h : n ≤ m) :
    Extends n (p.executeWithin limits input n) (p.executeWithin limits input m) ∧
    ∀ visits, p.executeWithin limits input n = .ok ⟨visits, false⟩ →
      ∀ k, (∃ t, p.executeWithin limits input k = .ok t ∧ t.truncated = false) ↔
        visits.length ≤ k := by
  refine ⟨extends_executeWithin p limits input h, fun visits hv k => ⟨?_, fun hk => ?_⟩⟩
  · rintro ⟨⟨others, _⟩, hk, rfl⟩
    have same : visits = others := by
      rcases Nat.le_total n k with hle | hle
      · cases (finished_of_le hv hle).symm.trans hk
        rfl
      · cases (finished_of_le hk hle).symm.trans hv
        rfl
    exact same ▸ length_le_of_finished hk
  · exact ⟨_, finished_of_length_le hv hk, rfl⟩

/-- The last visit is the fourth one. -/
theorem executeWithin_mono_talking :
    Extends 3 (talking.executeWithin {} {} 3) (talking.executeWithin {} {} 4) ∧
    ∀ k, (∃ t, talking.executeWithin {} {} k = .ok t ∧ t.truncated = false) ↔ 4 ≤ k := by
  refine ⟨(executeWithin_mono talking {} {} (Nat.le_succ 3)).1, ?_⟩
  have seen : (talking.executeWithin {} {} 4).toOption.map Trace.outline =
      some ([("say", 1), ("main", 1), ("say", 1), ("main", 2)], false) := by decide +kernel
  obtain ⟨⟨visits, _⟩, hv, outline⟩ := Except.ok_of_seen seen
  obtain ⟨hstops, rfl⟩ := Prod.mk.inj outline
  have hlen : visits.length = 4 := by
    simpa using congrArg List.length hstops
  exact hlen ▸ (executeWithin_mono talking {} {} (Nat.le_refl 4)).2 visits hv

end TraceRepair
