import Mathlib.Data.List.Forall2
import TraceRepair.Proofs.Results

namespace TraceRepair

/-- `failing` relates the failures of the two sides while both go on. -/
structure Tie where
  near : Machine → Machine → Prop
  far : Machine → Machine → Prop
  failing : RuntimeError → RuntimeError → Prop
  failing_refl : ∀ e, failing e e
  isFatal_eq : ∀ {e e'}, failing e e' → e.isFatal = e'.isFatal

def Tie.strict (near far : Machine → Machine → Prop) : Tie where
  near := near
  far := far
  failing := Eq
  failing_refl _ := rfl
  isFatal_eq h := h ▸ rfl

/-- Both end alike, or the left one stops and the right one ends in any way. -/
inductive Tie.Ends (T : Tie) {α : Type} : EStateM.Result RuntimeError Machine α →
    EStateM.Result RuntimeError Machine α → Prop where
  | value {s t : Machine} (a : α) (tied : T.near s t) : Ends T (.ok a s) (.ok a t)
  | failure {s t : Machine} {e e' : RuntimeError} (alike : T.failing e e') (tied : T.near s t) :
      Ends T (.error e s) (.error e' t)
  | stopped {s : Machine} {steps : Nat} {r : EStateM.Result RuntimeError Machine α}
      (tied : T.far s (Eval.machine r)) : Ends T (.error (.timeout steps) s) r

/-- `meet` starts both sides, `onward` only the right one. -/
structure Coupled (T : Tie) {α : Type} (x y : Eval α) : Prop where
  meet : ∀ {s t}, T.near s t → T.Ends (x s) (y t)
  onward : ∀ {s t}, T.far s t → T.far s (Eval.machine (y t))

namespace Coupled

variable {T : Tie} {α β : Type}

theorem pure (a : α) : Coupled T (pure a : Eval α) (pure a) :=
  ⟨fun h => .value a h, fun h => h⟩

theorem throw {e e' : RuntimeError} (h : T.failing e e') :
    Coupled T (throw e : Eval α) (throw e') :=
  ⟨fun hn => .failure h hn, fun hf => hf⟩

/-- Once the left side has stopped, the rest of the right side has no counterpart but itself. -/
theorem bind {x y : Eval α} {k l : α → Eval β} (hx : Coupled T x y)
    (hk : ∀ a, Coupled T (k a) (l a)) : Coupled T (x >>= k) (y >>= l) where
  meet {s t} h := by
    have he := hx.meet h
    rw [Eval.bind_apply, Eval.bind_apply]
    generalize x s = r at he
    generalize y t = q at he
    cases he with
    | value a tied => exact (hk a).meet tied
    | failure alike tied => exact .failure alike tied
    | stopped tied =>
      refine .stopped ?_
      cases q with
      | ok b u => exact (hk b).onward tied
      | error e u => exact tied
  onward {s t} h := by
    have hf := hx.onward h
    rw [Eval.bind_apply]
    generalize y t = q at hf
    cases q with
    | ok b u => exact (hk b).onward hf
    | error e u => exact hf

theorem ofExcept (r : Except RuntimeError α) :
    Coupled T (Eval.ofExcept r) (Eval.ofExcept r) := by
  cases r with
  | ok a => exact .pure a
  | error e => exact .throw (T.failing_refl e)

theorem modify {f : Machine → Machine} (hn : ∀ {s t}, T.near s t → T.near (f s) (f t))
    (hf : ∀ {s t}, T.far s t → T.far s (f t)) : Coupled T (modify f) (modify f) :=
  ⟨fun h => .value () (hn h), fun h => hf h⟩

/-- What depends on the memory only, where both sides have the same. -/
theorem onMemory {k l : Memory → Eval α} (hm : ∀ {s t}, T.near s t → t.memory = s.memory)
    (hk : ∀ m, Coupled T (k m) (l m)) :
    Coupled T (get >>= fun s => k s.memory) (get >>= fun s => l s.memory) where
  meet {s t} h := by
    have := (hk s.memory).meet h
    rw [Eval.bind_apply, Eval.bind_apply]
    simp only [Eval.get_apply, hm h]
    exact this
  onward {s t} h := (hk t.memory).onward h

/-- Evaluations from left to right, each coupled to its counterpart. -/
theorem inOrder {xs ys : List (Eval Value)} (h : List.Forall₂ (Coupled T) xs ys) :
    Coupled T (Eval.inOrder xs) (Eval.inOrder ys) := by
  induction h with
  | nil => exact .pure []
  | cons hx _ ih => exact hx.bind fun v => ih.bind fun vs => .pure (v :: vs)

/-- Both sides leave out the second operand, or neither does. -/
theorem connective {name : String} {decisive : Bool} {x y x' y' : Eval Value}
    (hx : Coupled T x x') (hy : Coupled T y y') :
    Coupled T (connective name decisive x y) (TraceRepair.connective name decisive x' y') := by
  refine hx.bind fun v => ?_
  split
  · exact .pure _
  · exact hy.bind fun w => .ofExcept _

/-- The failure that a value stands in for is only reported, so both sides go on. -/
theorem settle {x y : Eval Value} {notice notice' : RuntimeError → Notice} (h : Coupled T x y)
    (hn : ∀ {s t e e'}, T.failing e e' → T.near s t →
      T.near { s with notices := notice e :: s.notices }
        { t with notices := notice' e' :: t.notices })
    (hf : ∀ {s t} (ns : List Notice), T.far s t → T.far s { t with notices := ns }) :
    Coupled T (Eval.settle notice x) (Eval.settle notice' y) := by
  have settled : ∀ {s : Machine} (q : EStateM.Result RuntimeError Machine Value),
      T.far s (Eval.machine q) → T.far s (Eval.machine (Eval.settled notice' q)) := by
    intro s q hq
    cases q with
    | ok b u => exact hq
    | error e u =>
      simp only [Eval.settled]
      split
      · exact hq
      · exact hf _ hq
  refine ⟨fun {s t} hst => ?_, fun hst => settled _ (h.onward hst)⟩
  have he := h.meet hst
  rw [Eval.settle_apply, Eval.settle_apply]
  generalize x s = r at he
  generalize y t = q at he
  cases he with
  | value a tied => exact .value a tied
  | failure alike tied =>
    simp only [Eval.settled, T.isFatal_eq alike]
    split
    · exact .failure alike tied
    · exact .value _ (hn alike tied)
  | stopped tied => exact .stopped (settled _ tied)

end Coupled

end TraceRepair
