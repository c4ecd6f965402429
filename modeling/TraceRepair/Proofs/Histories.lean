import TraceRepair.Proofs.Accounts

namespace TraceRepair

mutual

/-- One call of a function, from the memory in which it started. -/
structure Activation where
  graph : FlowGraph
  start : Memory
  stays : List Stay

/-- `began` is the machine in which the block began, or was refused for want of budget. A stay that
was broken off has not ended in a memory. -/
structure Stay where
  loc : Loc
  began : Machine
  calls : List Activation
  ended : Option Memory

end

namespace Activation

mutual

/-- The visits that an activation lists, in order: a stay is listed behind what its calls list. -/
def listing : Activation → List Visit
  | ⟨g, _, stays⟩ => staysListing g stays

def staysListing (g : FlowGraph) : List Stay → List Visit
  | [] => []
  | ⟨loc, _, calls, ended⟩ :: rest =>
    callsListing calls ++ ended.toList.map (Visit.mk g.name loc) ++ staysListing g rest

def callsListing : List Activation → List Visit
  | [] => []
  | a :: rest => a.listing ++ callsListing rest

end

mutual

/-- How many calls were open each time that the budget was asked for a visit, in order. -/
def ticks (opened : Nat) : Activation → List Nat
  | ⟨_, _, stays⟩ => staysTicks opened stays

def staysTicks (opened : Nat) : List Stay → List Nat
  | [] => []
  | ⟨_, _, calls, _⟩ :: rest => opened :: callsTicks (opened + 1) calls ++ staysTicks opened rest

def callsTicks (opened : Nat) : List Activation → List Nat
  | [] => []
  | a :: rest => a.ticks opened ++ callsTicks opened rest

end

mutual

/-- At each stay the depth of the machine is the number of open calls. -/
def Counted (opened : Nat) : Activation → Prop
  | ⟨_, _, stays⟩ => staysCounted opened stays

def staysCounted (opened : Nat) : List Stay → Prop
  | [] => True
  | ⟨_, began, calls, _⟩ :: rest =>
    began.depth = opened ∧ callsCounted (opened + 1) calls ∧ staysCounted opened rest

def callsCounted (opened : Nat) : List Activation → Prop
  | [] => True
  | a :: rest => a.Counted opened ∧ callsCounted opened rest

end

/-- One activation is another one, or is among the calls that this led to. -/
inductive LeadsTo : Activation → Activation → Prop where
  | self (a : Activation) : LeadsTo a a
  | call {a b c : Activation} {stay : Stay} (there : stay ∈ a.stays) (called : b ∈ stay.calls)
      (onward : LeadsTo b c) : LeadsTo a c

theorem callsListing_append (before after : List Activation) :
    callsListing (before ++ after) = callsListing before ++ callsListing after := by
  induction before with
  | nil => rfl
  | cons a rest ih => simp [callsListing, ih]

theorem callsTicks_append (opened : Nat) (before after : List Activation) :
    callsTicks opened (before ++ after) = callsTicks opened before ++ callsTicks opened after := by
  induction before with
  | nil => rfl
  | cons a rest ih => simp [callsTicks, ih]

theorem callsCounted_append {opened : Nat} {before after : List Activation}
    (hbefore : callsCounted opened before) (hafter : callsCounted opened after) :
    callsCounted opened (before ++ after) := by
  induction before with
  | nil => exact hafter
  | cons a rest ih => exact ⟨hbefore.1, ih hbefore.2⟩

mutual

/-- Each visit that is listed was a stay, which ended in the memory of the visit. -/
theorem exists_of_mem_listing : ∀ (a : Activation), ∀ visit ∈ a.listing,
    ∃ b, a.LeadsTo b ∧ ∃ stay ∈ b.stays, stay.ended = some visit.memory ∧
      visit.function = b.graph.name ∧ visit.loc = stay.loc
  | ⟨g, start, stays⟩, visit, h => by
    obtain ⟨stay, there, own | ⟨c, called, b, leads, listed⟩⟩ :=
      exists_of_mem_staysListing g stays visit h
    · exact ⟨_, .self _, stay, there, own⟩
    · exact ⟨b, .call there called leads, listed⟩

/-- A visit is listed by a stay that has ended, here or in a call. -/
theorem exists_of_mem_staysListing (g : FlowGraph) : ∀ (stays : List Stay),
    ∀ visit ∈ staysListing g stays, ∃ stay ∈ stays,
      (stay.ended = some visit.memory ∧ visit.function = g.name ∧ visit.loc = stay.loc) ∨
      ∃ c ∈ stay.calls, ∃ b, c.LeadsTo b ∧ ∃ stay ∈ b.stays, stay.ended = some visit.memory ∧
        visit.function = b.graph.name ∧ visit.loc = stay.loc
  | ⟨loc, began, calls, ended⟩ :: rest, visit, h => by
    simp only [staysListing, List.append_assoc, List.mem_append] at h
    rcases h with h | h | h
    · exact ⟨_, List.mem_cons_self, .inr (exists_of_mem_callsListing calls visit h)⟩
    · obtain ⟨m, hm, rfl⟩ := List.mem_map.mp h
      exact ⟨_, List.mem_cons_self, .inl ⟨Option.mem_toList.mp hm, rfl, rfl⟩⟩
    · obtain ⟨stay, there, listed⟩ := exists_of_mem_staysListing g rest visit h
      exact ⟨stay, List.mem_cons_of_mem _ there, listed⟩

theorem exists_of_mem_callsListing : ∀ (calls : List Activation), ∀ visit ∈ callsListing calls,
    ∃ c ∈ calls, ∃ b, c.LeadsTo b ∧ ∃ stay ∈ b.stays, stay.ended = some visit.memory ∧
      visit.function = b.graph.name ∧ visit.loc = stay.loc
  | a :: rest, visit, h => by
    rcases List.mem_append.mp h with h | h
    · exact ⟨a, List.mem_cons_self, exists_of_mem_listing a visit h⟩
    · obtain ⟨c, there, listed⟩ := exists_of_mem_callsListing rest visit h
      exact ⟨c, List.mem_cons_of_mem _ there, listed⟩

end

end Activation

def Machine.recorded (s : Machine) (function : String) (loc : Loc) : Machine :=
  { s with visits := ⟨function, loc, s.memory⟩ :: s.visits }

@[simp]
theorem Machine.recorded_left (s : Machine) (function : String) (loc : Loc) :
    (s.recorded function loc).left = s.left := rfl

def Program.handler (p : Program) (limits : Limits) (fuel : Nat) : CallHandler :=
  answerCall p limits fun callee => walk p limits fuel callee callee.entry

def stays (p : Program) (limits : Limits) (fuel : Nat) (g : FlowGraph) (loc : Loc) (s : Machine) :
    List Stay :=
  match fuel with
  | 0 => [⟨loc, s, [], none⟩]
  | fuel + 1 =>
    match Eval.tick limits s with
    | .error _ t => [⟨loc, t, [], none⟩]
    | .ok () t =>
      let opens := openedCall p limits fun callee u =>
        ⟨callee, u.memory, stays p limits fuel callee callee.entry u⟩
      match g.block loc with
      | .error _ => [⟨loc, t, [], none⟩]
      | .ok block =>
        let calls := g.opened limits.arrays (p.handler limits fuel) opens loc block t
        match g.runAssignments loc (Expr.eval limits.arrays (p.handler limits fuel)) block t with
        | .error _ _ => [⟨loc, t, calls, none⟩]
        | .ok () u =>
          ⟨loc, t, calls, some u.memory⟩ ::
            match g.transition loc with
            | .error _ => []
            | .ok tr =>
              match FlowGraph.nextLoc tr u.memory with
              | none => []
              | some next => stays p limits fuel g next (u.recorded g.name loc)

def activation (p : Program) (limits : Limits) (fuel : Nat) (g : FlowGraph) (s : Machine) :
    Activation :=
  ⟨g, s.memory, stays p limits fuel g g.entry s⟩

def Program.history (p : Program) (limits : Limits) (input : RunInput) : Option Activation :=
  (p.function? limits.entry).map fun g =>
    activation p limits limits.steps g (.start g limits input)

section Forms

variable {p : Program} {limits : Limits} {fuel : Nat}

def blockCalls (p : Program) (limits : Limits) (fuel : Nat) (g : FlowGraph) (loc : Loc)
    (block : List Assignment) (s : Machine) : List Activation :=
  g.opened limits.arrays (p.handler limits fuel) (openedCall p limits (activation p limits fuel))
    loc block s

inductive VisitForm (p : Program) (limits : Limits) (fuel : Nat) (g : FlowGraph) (loc : Loc)
    (s : Machine) : EStateM.Result RuntimeError Machine Unit → List Stay → Prop where
  | lost {e : ModelError} (lost : g.block loc = .error e) :
      VisitForm p limits fuel g loc s (.error (.malformed (.model e)) s) [⟨loc, s, [], none⟩]
  | broken {block : List Assignment} {e : RuntimeError} {t : Machine}
      (found : g.block loc = .ok block)
      (fails : g.runAssignments loc (Expr.eval limits.arrays (p.handler limits fuel)) block s =
        .error e t) :
      VisitForm p limits fuel g loc s (.error e t)
        [⟨loc, s, blockCalls p limits fuel g loc block s, none⟩]
  | stranded {block : List Assignment} {e : ModelError} {t : Machine}
      (found : g.block loc = .ok block)
      (ends : g.runAssignments loc (Expr.eval limits.arrays (p.handler limits fuel)) block s =
        .ok () t)
      (edges : g.transition loc = .error e) :
      VisitForm p limits fuel g loc s (.error (.malformed (.model e)) (t.recorded g.name loc))
        [⟨loc, s, blockCalls p limits fuel g loc block s, some t.memory⟩]
  | arrived {block : List Assignment} {tr : Transition} {t : Machine}
      (found : g.block loc = .ok block)
      (ends : g.runAssignments loc (Expr.eval limits.arrays (p.handler limits fuel)) block s =
        .ok () t)
      (edges : g.transition loc = .ok tr) (arrives : FlowGraph.nextLoc tr t.memory = none) :
      VisitForm p limits fuel g loc s (.ok () (t.recorded g.name loc))
        [⟨loc, s, blockCalls p limits fuel g loc block s, some t.memory⟩]
  | onward {block : List Assignment} {tr : Transition} {t : Machine} {next : Loc}
      (found : g.block loc = .ok block)
      (ends : g.runAssignments loc (Expr.eval limits.arrays (p.handler limits fuel)) block s =
        .ok () t)
      (edges : g.transition loc = .ok tr) (follows : FlowGraph.nextLoc tr t.memory = some next) :
      VisitForm p limits fuel g loc s (walk p limits fuel g next (t.recorded g.name loc))
        (⟨loc, s, blockCalls p limits fuel g loc block s, some t.memory⟩ ::
          stays p limits fuel g next (t.recorded g.name loc))

/-- Without budget the stay begins and goes no further. -/
theorem stays_spent {s : Machine} (h : s.left = 0) (g : FlowGraph) (loc : Loc) :
    stays p limits fuel g loc s = [⟨loc, s, [], none⟩] := by
  cases fuel with
  | zero => simp [stays]
  | succ fuel => simp [stays, Eval.tick, h]

/-- The stays of a walk follow its result, case by case. -/
theorem visitForm (p : Program) (limits : Limits) (fuel : Nat) {s : Machine} {left : Nat}
    (h : s.left = left + 1) (g : FlowGraph) (loc : Loc) :
    VisitForm p limits fuel g loc { s with left } (walk p limits (fuel + 1) g loc s)
      (stays p limits (fuel + 1) g loc s) := by
  rw [walk_paid h, visitAt, Eval.bind_apply]
  simp only [stays, Eval.tick, h]
  cases hblock : g.block loc with
  | error e => exact .lost hblock
  | ok block =>
    simp only [Except.mapError, Eval.ofModel, Eval.ofExcept, Eval.pure_apply, Eval.bind_apply]
    cases hrun : g.runAssignments loc (Expr.eval limits.arrays (p.handler limits fuel)) block
        { s with left } with
    | error e t =>
      simp only [Program.handler] at hrun
      simp only [hrun, Program.handler]
      exact .broken hblock hrun
    | ok a t =>
      simp only [Program.handler] at hrun
      simp only [hrun, Program.handler, Eval.record_apply]
      cases hedges : g.transition loc with
      | error e => exact .stranded hblock hrun hedges
      | ok tr =>
        simp only [Eval.pure_apply, Eval.get_apply, leaveBy]
        cases hnext : FlowGraph.nextLoc tr t.memory with
        | none => exact .arrived hblock hrun hedges hnext
        | some next => exact .onward hblock hrun hedges hnext

/-- What holds of a walk that is refused its first visit, and of a visit when it holds of all walks
with less fuel, holds of every walk with its stays. -/
theorem walk_induct
    {motive : Nat → FlowGraph → Loc → Machine → EStateM.Result RuntimeError Machine Unit →
      List Stay → Prop}
    (refused : ∀ fuel g loc s, (s.left ≤ fuel → s.left = 0) →
      motive fuel g loc s (.error (.timeout limits.steps) s) [⟨loc, s, [], none⟩])
    (visit : ∀ fuel g loc s left r made,
      (∀ g loc s, motive fuel g loc s (walk p limits fuel g loc s) (stays p limits fuel g loc s)) →
      s.left = left + 1 → VisitForm p limits fuel g loc { s with left } r made →
      motive (fuel + 1) g loc s r made)
    (fuel : Nat) (g : FlowGraph) (loc : Loc) (s : Machine) :
    motive fuel g loc s (walk p limits fuel g loc s) (stays p limits fuel g loc s) := by
  induction fuel generalizing g loc s with
  | zero => exact refused 0 g loc s Nat.le_zero.mp
  | succ fuel ih =>
    cases hleft : s.left with
    | zero =>
      rw [walk_spent hleft, stays_spent hleft]
      exact refused (fuel + 1) g loc s fun _ => hleft
    | succ left => exact visit fuel g loc s left _ _ ih hleft (visitForm p limits fuel hleft g loc)

end Forms

end TraceRepair
