import Mathlib.Data.List.ReduceOption
import Mathlib.Logic.Function.Basic
import TraceRepair.Proofs.CursorView

namespace TraceRepair

/-- What is done with the cursors of a trace, which are numbered. -/
inductive CursorCall where
  | next (cursor : Nat) (function : String) (loc : Loc)
  | reset (cursor : Nat)
  | fork (cursor copy : Nat)

namespace CursorCall

def perform (cursors : Nat → Cursor) : CursorCall → Nat → Cursor
  | .next cursor function loc =>
    Function.update cursors cursor ((cursors cursor).next? function loc).2
  | .reset cursor => Function.update cursors cursor (cursors cursor).reset
  | .fork cursor copy => Function.update cursors copy (cursors cursor)

/-- The cursors behind a history of calls, of which the last one comes first. -/
def run (t : Trace) : List CursorCall → Nat → Cursor
  | [] => fun _ => t.cursor
  | call :: earlier => call.perform (run t earlier)

def answers (t : Trace) (function : String) (loc : Loc) :
    List CursorCall → Nat → List (Option Visit)
  | [], _ => []
  | .next asked f l :: earlier, cursor =>
    answers t function loc earlier cursor ++
      if asked = cursor ∧ f = function ∧ l = loc then
        [((run t earlier asked).next? function loc).1]
      else []
  | .reset forgetful :: earlier, cursor =>
    if forgetful = cursor then [] else answers t function loc earlier cursor
  | .fork original copy :: earlier, cursor =>
    answers t function loc earlier (if copy = cursor then original else cursor)

end CursorCall

structure Cursor.Asked (t : Trace) (times : String → Loc → Nat) (c : Cursor) : Prop where
  trace_eq : c.trace = t
  upcoming_eq : ∀ function loc, c.upcoming function loc =
    (t.visitsAt function loc).drop (times function loc)

namespace Cursor.Asked

variable {t : Trace} {times : String → Loc → Nat} {c : Cursor}

theorem cursor (t : Trace) : Cursor.Asked t (fun _ _ => 0) t.cursor where
  trace_eq := rfl
  upcoming_eq := upcoming_cursor t

/-- A cursor that is reset has not been asked for anything. -/
theorem reset (h : c.Asked t times) : c.reset.Asked t fun _ _ => 0 where
  trace_eq := h.trace_eq
  upcoming_eq function loc := by
    rw [← h.trace_eq]
    rfl

theorem trace_next? (c : Cursor) (function : String) (loc : Loc) :
    (c.next? function loc).2.trace = c.trace := by
  unfold next?
  split <;> rfl

/-- Once all visits of a location were handed out, nothing is left to count. -/
theorem next (h : c.Asked t times) (function : String) (loc : Loc) :
    (c.next? function loc).1 = (t.visitsAt function loc)[times function loc]? ∧
      (c.next? function loc).2.Asked t fun f l =>
        times f l + if function = f ∧ loc = l then 1 else 0 := by
  have left := h.upcoming_eq function loc
  have kept := (trace_next? c function loc).trans h.trace_eq
  cases hvisit : (t.visitsAt function loc)[times function loc]? with
  | none =>
    have spent := List.getElem?_eq_none_iff.mp hvisit
    rw [List.drop_eq_nil_of_le spent] at left
    rw [next?_of_nil left] at kept ⊢
    refine ⟨rfl, kept, fun f l => ?_⟩
    rw [h.upcoming_eq]
    split
    · rename_i asked
      obtain ⟨rfl, rfl⟩ := asked
      rw [List.drop_eq_nil_of_le spent, List.drop_eq_nil_of_le (Nat.le_succ_of_le spent)]
    · rfl
  | some visit =>
    obtain ⟨inside, rfl⟩ := List.getElem?_eq_some_iff.mp hvisit
    rw [List.drop_eq_getElem_cons inside] at left
    obtain ⟨c', step, others⟩ := next?_of_cons left
    rw [step] at kept ⊢
    refine ⟨rfl, kept, fun f l => ?_⟩
    rw [others, h.upcoming_eq]
    split
    · rename_i asked
      obtain ⟨rfl, rfl⟩ := Prod.mk.inj asked
      simp
    · rename_i other
      have : ¬(function = f ∧ loc = l) := fun ⟨hf, hl⟩ => other (by rw [hf, hl])
      rw [if_neg this, Nat.add_zero]

end Cursor.Asked

namespace CursorCall

variable {t : Trace}

/-- Whatever happened, a cursor was asked as often as it has answers that count. -/
theorem asked_run (t : Trace) (calls : List CursorCall) (cursor : Nat) :
    (run t calls cursor).Asked t fun function loc =>
      (answers t function loc calls cursor).length := by
  induction calls generalizing cursor with
  | nil => exact .cursor t
  | cons call earlier ih =>
    cases call with
    | next asked function loc =>
      by_cases same : asked = cursor
      · subst same
        simp only [run, perform, Function.update_self]
        convert ((ih asked).next function loc).2 using 3
        simp only [answers, true_and, List.length_append]
        split <;> rfl
      · simp only [run, perform, Function.update_of_ne (Ne.symm same)]
        simpa [answers, same] using ih cursor
    | reset forgetful =>
      by_cases same : forgetful = cursor
      · subst same
        simp only [run, perform, Function.update_self]
        simpa [answers] using (ih forgetful).reset
      · simp only [run, perform, Function.update_of_ne (Ne.symm same)]
        simpa [answers, same] using ih cursor
    | fork original copy =>
      by_cases same : copy = cursor
      · subst same
        simp only [run, perform, Function.update_self]
        simpa [answers] using ih original
      · simp only [run, perform, Function.update_of_ne (Ne.symm same)]
        simpa [answers, same] using ih cursor

/-- The answers that count are the first ones that a new cursor would give. -/
theorem answers_eq (t : Trace) (function : String) (loc : Loc) (calls : List CursorCall)
    (cursor : Nat) :
    answers t function loc calls cursor =
      (List.range (answers t function loc calls cursor).length).map
        fun k => (t.visitsAt function loc)[k]? := by
  induction calls generalizing cursor with
  | nil => rfl
  | cons call earlier ih =>
    cases call with
    | next asked f l =>
      simp only [answers]
      split
      · rename_i here
        obtain ⟨rfl, rfl, rfl⟩ := here
        have answer := ((asked_run t earlier asked).next f l).1
        rw [List.length_append, List.length_singleton, List.range_succ, List.map_append, ← ih,
          List.map_singleton, answer]
      · rw [List.append_nil]
        exact ih cursor
    | reset forgetful =>
      simp only [answers]
      split
      · rfl
      · exact ih cursor
    | fork original copy => exact ih _

theorem reduceOption_getElem? {α : Type} (l : List α) (n : Nat) :
    ((List.range n).map fun k => l[k]?).reduceOption = l.take n := by
  induction n with
  | zero => rfl
  | succ n ih =>
    rw [List.range_succ, List.map_append, List.reduceOption_append, ih, List.take_add_one,
      List.map_singleton]
    cases l[n]? <;> rfl

/-- The answers at a location number its visits, so that none is given twice and none left out, and
the next answer is the visit with the next number. -/
theorem answers_visitsAt (t : Trace) (function : String) (loc : Loc) (calls : List CursorCall)
    (cursor : Nat) :
    let given := answers t function loc calls cursor
    given = (List.range given.length).map (fun k => (t.visitsAt function loc)[k]?) ∧
      given.reduceOption = (t.visitsAt function loc).take given.length ∧
      ((run t calls cursor).next? function loc).1 =
        (t.visitsAt function loc)[given.length]? := by
  intro given
  have numbered : given = (List.range given.length).map fun k => (t.visitsAt function loc)[k]? :=
    answers_eq t function loc calls cursor
  refine ⟨numbered, ?_, ((asked_run t calls cursor).next function loc).1⟩
  calc given.reduceOption
      = ((List.range given.length).map fun k => (t.visitsAt function loc)[k]?).reduceOption :=
        congrArg _ numbered
    _ = (t.visitsAt function loc).take given.length := reduceOption_getElem? _ _

end CursorCall

end TraceRepair
