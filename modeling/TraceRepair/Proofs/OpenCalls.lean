import TraceRepair.Proofs.EscapingErrors

namespace TraceRepair

/-- How a budget of `left` visits is spent, given how many calls were open at each tick. Either all
visits end, or the last tick finds the budget empty, with one visit begun and not listed at each
depth from `base` on. -/
inductive Pays (base left : Nat) (ticks : List Nat) (listed : Nat) :
    Option RuntimeError → Nat → Prop where
  | all {failure : Option RuntimeError} {rest : Nat}
      (mild : ∀ e, failure = some e → e.isFatal = false) (paid : rest + ticks.length = left)
      (ended : listed = ticks.length) : Pays base left ticks listed failure rest
  | spent {steps opened : Nat} (paid : ticks.length = left + 1)
      (last : ticks.getLast? = some opened) (ended : listed + opened = left + base) :
      Pays base left ticks listed (some (.timeout steps)) 0
  | malformed (fault : Malformation) (rest : Nat) :
      Pays base left ticks listed (some (.malformed fault)) rest
  | aborted (rest : Nat) : Pays base left ticks listed (some .aborted) rest

/-- What a computation from one machine to another leaves of the budget, with the visits that it
lists. Fuel that is scarcer than the budget may stop it earlier. -/
structure Spends (limits : Limits) (fuel base : Nat) (s : Machine) (ticks : List Nat)
    (listed : List Visit) (failure : Option RuntimeError) (t : Machine) : Prop where
  depth_eq : t.depth = s.depth
  visits_eq : t.visits = listed.reverse ++ s.visits
  room : ∀ opened ∈ ticks, opened ≤ limits.callDepth
  paid : s.left ≤ fuel → Pays base s.left ticks listed.length failure t.left

namespace Pays

variable {base left rest : Nat} {ticks : List Nat} {listed : Nat}

theorem finished (paid : rest + ticks.length = left) (ended : listed = ticks.length) :
    Pays base left ticks listed none rest := by
  apply Pays.all _ paid ended
  intro e h
  cases h

/-- A failure that only costs the value costs no visit. -/
theorem settled {e : RuntimeError} (mild : e.isFatal = false)
    (h : Pays base left ticks listed (some e) rest) : Pays base left ticks listed none rest := by
  cases h with
  | all _ paid ended => exact finished paid ended
  | spent => cases mild
  | malformed => cases mild
  | aborted => cases mild

/-- The visit in which a fatal failure arises is paid for and stays open. -/
theorem within {e : RuntimeError} (fatal : e.isFatal = true)
    (h : Pays (base + 1) left ticks listed (some e) rest) :
    Pays base (left + 1) (base :: ticks) listed (some e) rest := by
  cases h with
  | all mild =>
    rw [mild e rfl] at fatal
    cases fatal
  | @spent _ opened paid last ended =>
    have ends : (base :: ticks).getLast? = some opened := by
      rw [List.getLast?_cons, last]
      rfl
    apply Pays.spent _ ends
    · omega
    · rw [List.length_cons, paid]
  | malformed fault rest => exact .malformed fault rest
  | aborted rest => exact .aborted rest

theorem left_eq (h : Pays base left ticks listed none rest) :
    rest + ticks.length = left ∧ listed = ticks.length := by
  cases h with
  | all _ paid ended => exact ⟨paid, ended⟩

/-- What the first part leaves of the budget is what the second part can spend. -/
theorem trans {ticks' : List Nat} {listed' end' : Nat} {failure : Option RuntimeError}
    (first : Pays base left ticks listed none rest)
    (second : Pays base rest ticks' listed' failure end') :
    Pays base left (ticks ++ ticks') (listed + listed') failure end' := by
  obtain ⟨paid, ended⟩ := first.left_eq
  cases second with
  | all mild paid' ended' =>
    apply Pays.all mild
    · rw [List.length_append]
      omega
    · rw [List.length_append]
      omega
  | spent paid' last ended' =>
    apply Pays.spent
    · rw [List.length_append]
      omega
    · rw [List.getLast?_append, last]
      rfl
    · omega
  | malformed fault _ => exact .malformed fault end'
  | aborted _ => exact .aborted end'

end Pays

namespace Spends

variable {limits : Limits} {fuel base : Nat} {s t : Machine} {ticks : List Nat}
  {listed : List Visit} {failure : Option RuntimeError}

/-- Nothing was begun. -/
theorem idle (s : Machine) (mild : ∀ e, failure = some e → e.isFatal = false) :
    Spends limits fuel base s [] [] failure s where
  depth_eq := rfl
  visits_eq := rfl
  room opened h := by cases h
  paid _ := .all mild rfl rfl

theorem trans {fuel' : Nat} {u : Machine} {ticks' : List Nat} {listed' : List Visit}
    (first : Spends limits fuel base s ticks listed none t)
    (second : Spends limits fuel' base t ticks' listed' failure u)
    (enough : s.left ≤ fuel → t.left ≤ fuel') :
    Spends limits fuel base s (ticks ++ ticks') (listed ++ listed') failure u where
  depth_eq := second.depth_eq.trans first.depth_eq
  visits_eq := by
    rw [second.visits_eq, first.visits_eq, List.reverse_append, List.append_assoc]
  room opened h := by
    rcases List.mem_append.mp h with h | h
    · exact first.room opened h
    · exact second.room opened h
  paid h := by
    rw [List.length_append]
    exact (first.paid h).trans (second.paid (enough h))

theorem left_le (h : Spends limits fuel base s ticks listed none t) (enough : s.left ≤ fuel) :
    t.left ≤ fuel := by
  have := (h.paid enough).left_eq.1
  omega

end Spends

def budgetAccount (limits : Limits) (fuel : Nat) : Account Activation where
  holds s opened failure t :=
    Spends limits fuel (s.depth + 1) s (Activation.callsTicks (s.depth + 1) opened)
      (Activation.callsListing opened) failure t
  refl s := .idle s nofun
  fails s e raised := by
    rcases RuntimeError.isRaised_iff.mp raised with mild | rfl
    · apply Spends.idle
      intro e' same
      cases same
      exact mild
    · exact ⟨rfl, rfl, nofun, fun _ => .aborted s.left⟩
  trans first second := by
    rw [first.depth_eq] at second
    rw [Activation.callsTicks_append, Activation.callsListing_append]
    exact first.trans second first.left_le
  settles n mild h := ⟨h.depth_eq, h.visits_eq, h.room, fun enough => (h.paid enough).settled mild⟩

namespace Spends

variable {limits : Limits} {fuel base left : Nat} {s t : Machine} {ticks : List Nat}
  {listed : List Visit}

/-- The visit that was refused. -/
theorem refused (room : s.depth ≤ limits.callDepth) (spent : s.left ≤ fuel → s.left = 0) :
    Spends limits fuel s.depth s [s.depth] [] (some (.timeout limits.steps)) s where
  depth_eq := rfl
  visits_eq := rfl
  room opened h := by
    rw [List.mem_singleton.mp h]
    exact room
  paid enough := by
    have none := spent enough
    rw [none]
    apply Pays.spent rfl rfl
    simp

theorem malformed (h : Spends limits fuel base s ticks listed none t) (fault : Malformation) :
    Spends limits fuel base s ticks listed (some (.malformed fault)) t :=
  ⟨h.depth_eq, h.visits_eq, h.room, fun _ => .malformed fault t.left⟩

/-- A visit that ends is listed behind the calls of its block. -/
theorem recorded (function : String) (loc : Loc) (room : s.depth ≤ limits.callDepth)
    (begun : s.left = left + 1)
    (body : Spends limits fuel (s.depth + 1) { s with left } ticks listed none t) :
    Spends limits (fuel + 1) s.depth s (s.depth :: ticks) (listed ++ [⟨function, loc, t.memory⟩])
      none (t.recorded function loc) where
  depth_eq := body.depth_eq
  visits_eq := by simp [Machine.recorded, body.visits_eq]
  room opened h := by
    rcases List.mem_cons.mp h with rfl | h
    · exact room
    · exact body.room opened h
  paid enough := by
    have within : left ≤ fuel := by omega
    obtain ⟨paid, ended⟩ := (body.paid within).left_eq
    replace paid : t.left + ticks.length = left := paid
    apply Pays.finished
    · rw [List.length_cons, Machine.recorded_left, begun, ← paid, Nat.add_assoc]
    · simp [ended]

/-- A visit that is broken off is not listed, but its calls are. -/
theorem brokenOff {e : RuntimeError} (room : s.depth ≤ limits.callDepth) (begun : s.left = left + 1)
    (fatal : e.isFatal = true)
    (body : Spends limits fuel (s.depth + 1) { s with left } ticks listed (some e) t) :
    Spends limits (fuel + 1) s.depth s (s.depth :: ticks) listed (some e) t where
  depth_eq := body.depth_eq
  visits_eq := body.visits_eq
  room opened h := by
    rcases List.mem_cons.mp h with rfl | h
    · exact room
    · exact body.room opened h
  paid enough := by
    have within : left ≤ fuel := by omega
    rw [begun]
    exact (body.paid within).within fatal

end Spends

def SpendsWalk (limits : Limits) (fuel : Nat) (g : FlowGraph) (s : Machine)
    (r : EStateM.Result RuntimeError Machine Unit) (made : List Stay) : Prop :=
  Spends limits fuel s.depth s (Activation.staysTicks s.depth made)
    (Activation.staysListing g made) (Eval.failure? r) (Eval.machine r)

section Walk

variable {p : Program} {limits : Limits} {fuel : Nat}

/-- A call spends what the walk of its callee does, at one depth more. -/
theorem SpendsWalk.behindCall {g : FlowGraph} {s : Machine} {args : List Value}
    {r : EStateM.Result RuntimeError Machine Unit} {made : List Stay}
    (h : SpendsWalk limits fuel g (s.entering g args) r made) :
    Spends limits fuel (s.depth + 1) s
      (Activation.callsTicks (s.depth + 1) [⟨g, (s.entering g args).memory, made⟩])
      (Activation.callsListing [⟨g, (s.entering g args).memory, made⟩]) (Eval.failure? r)
      (s.behindCall r) := by
  have depth : (s.behindCall r).depth = s.depth := by
    have entered : (Eval.machine r).depth = s.depth + 1 := h.depth_eq
    cases r <;> exact congrArg (· - 1) entered
  have visits : (s.behindCall r).visits = (Eval.machine r).visits := by
    cases r <;> rfl
  have left : (s.behindCall r).left = (Eval.machine r).left := by
    cases r <;> rfl
  simp only [Activation.callsTicks, Activation.ticks, Activation.callsListing, Activation.listing,
    List.append_nil]
  exact ⟨depth, visits.trans h.visits_eq, h.room, fun enough => left ▸ h.paid enough⟩

theorem budgetAccount.handler
    (hwalk : ∀ g s, s.depth ≤ limits.callDepth →
      SpendsWalk limits fuel g s (walk p limits fuel g g.entry s) (stays p limits fuel g g.entry s))
    (name : String) (args : List Value) :
    Accounted (budgetAccount limits fuel) (p.handler limits fuel name args)
      (openedCall p limits (activation p limits fuel) name args) := by
  apply Accounted.answerCall
  · intro s g _ _
    exact ⟨rfl, rfl, nofun, fun _ => .malformed _ _⟩
  · intro s g _ _ room
    exact (hwalk g (s.entering g args) room).behindCall

theorem budgetAccount.write (target : String) (v : Value) :
    Accounted (budgetAccount limits fuel) (Eval.write target v) fun _ => [] :=
  fun _ => ⟨rfl, rfl, nofun, fun _ => .finished rfl rfl⟩

theorem budgetAccount.assignments
    (hwalk : ∀ g s, s.depth ≤ limits.callDepth →
      SpendsWalk limits fuel g s (walk p limits fuel g g.entry s) (stays p limits fuel g g.entry s))
    (g : FlowGraph) (loc : Loc) (block : List Assignment) :
    Accounted (budgetAccount limits fuel)
      (g.runAssignments loc (Expr.eval limits.arrays (p.handler limits fuel)) block)
      (blockCalls p limits fuel g loc block) := by
  apply Accounted.assignments
  · exact budgetAccount.handler hwalk
  · exact budgetAccount.write

/-- By induction on the fuel: a visit is paid for, then its calls are, one depth further in, and
then the rest of the walk. -/
theorem spends_walk (p : Program) (limits : Limits) (fuel : Nat) (g : FlowGraph) (loc : Loc)
    (s : Machine) (room : s.depth ≤ limits.callDepth) :
    SpendsWalk limits fuel g s (walk p limits fuel g loc s) (stays p limits fuel g loc s) := by
  refine walk_induct (p := p) (motive := fun fuel g _ s r made => s.depth ≤ limits.callDepth →
    SpendsWalk limits fuel g s r made) ?_ ?_ fuel g loc s room
  · intro fuel g loc s spent room
    exact .refused room spent
  · intro fuel g loc s left r made ih hleft form room
    have body := budgetAccount.assignments (fun g s => ih g g.entry s) g loc
    have visit : ∀ {block t},
        g.runAssignments loc (Expr.eval limits.arrays (p.handler limits fuel)) block
          { s with left } = .ok () t →
        Spends limits fuel (s.depth + 1) { s with left }
          (Activation.callsTicks (s.depth + 1)
            (blockCalls p limits fuel g loc block { s with left }))
          (Activation.callsListing (blockCalls p limits fuel g loc block { s with left }))
          none t := by
      intro block t ends
      have spent := body block { s with left }
      rw [ends] at spent
      exact spent
    cases form with
    | @lost e lost =>
      have idle : Spends limits fuel (s.depth + 1) { s with left } [] [] none { s with left } :=
        .idle _ nofun
      have all := (idle.malformed (.model e)).brokenOff room hleft rfl
      simpa [SpendsWalk, Activation.staysTicks, Activation.staysListing, Activation.callsTicks,
        Activation.callsListing] using all
    | @broken block e t found fails =>
      have spent := body block { s with left }
      rw [fails] at spent
      have all := spent.brokenOff room hleft (FailsFatally.runAssignments _ _ _ _ _ _ _ fails)
      simpa [SpendsWalk, Activation.staysTicks, Activation.staysListing] using all
    | @stranded block e t found ends edges =>
      have all := ((visit ends).recorded g.name loc room hleft).malformed (.model e)
      simpa [SpendsWalk, Activation.staysTicks, Activation.staysListing] using all
    | @arrived block tr t found ends edges arrives =>
      have all := (visit ends).recorded g.name loc room hleft
      simpa [SpendsWalk, Activation.staysTicks, Activation.staysListing] using all
    | @onward block tr t next found ends edges follows =>
      have first := (visit ends).recorded g.name loc room hleft
      have later := ih g next (t.recorded g.name loc) (first.depth_eq ▸ room)
      unfold SpendsWalk at later
      rw [first.depth_eq] at later
      have all := first.trans later fun enough => (visit ends).left_le (by dsimp only; omega)
      simpa [SpendsWalk, Activation.staysTicks, Activation.staysListing] using all

def countAccount : Account Activation where
  holds s calls _ t := t.depth = s.depth ∧ Activation.callsCounted (s.depth + 1) calls
  refl s := ⟨rfl, trivial⟩
  fails s e _ := ⟨rfl, trivial⟩
  trans first second := by
    obtain ⟨depth, counted⟩ := second
    rw [first.1] at depth counted
    exact ⟨depth, Activation.callsCounted_append first.2 counted⟩
  settles n _ h := h

theorem countAccount.handler
    (hwalk : ∀ g s, (Eval.machine (walk p limits fuel g g.entry s)).depth = s.depth ∧
      Activation.staysCounted s.depth (stays p limits fuel g g.entry s))
    (name : String) (args : List Value) :
    Accounted countAccount (p.handler limits fuel name args)
      (openedCall p limits (activation p limits fuel) name args) := by
  apply Accounted.answerCall
  · intro s g _ _
    exact ⟨rfl, trivial⟩
  · intro s g _ _ _
    obtain ⟨depth, counted⟩ := hwalk g (s.entering g args)
    refine ⟨?_, counted, trivial⟩
    generalize walk p limits fuel g g.entry (s.entering g args) = r at depth ⊢
    cases r <;> exact congrArg (· - 1) depth

/-- By induction on the fuel; calls that fail are closed as well. -/
theorem counted_walk (p : Program) (limits : Limits) (fuel : Nat) (g : FlowGraph) (loc : Loc)
    (s : Machine) : (Eval.machine (walk p limits fuel g loc s)).depth = s.depth ∧
      Activation.staysCounted s.depth (stays p limits fuel g loc s) := by
  refine walk_induct (p := p) (motive := fun _ _ _ s r made =>
    (Eval.machine r).depth = s.depth ∧ Activation.staysCounted s.depth made) ?_ ?_ fuel g loc s
  · intro _ _ _ s _
    exact ⟨rfl, rfl, trivial, trivial⟩
  · intro fuel g loc s left r made ih _ form
    have body : ∀ block, Accounted countAccount
        (g.runAssignments loc (Expr.eval limits.arrays (p.handler limits fuel)) block)
        (blockCalls p limits fuel g loc block) := by
      intro block
      apply Accounted.assignments
      · exact countAccount.handler fun g s => ih g g.entry s
      · exact fun target v s => ⟨rfl, trivial⟩
    cases form with
    | lost => exact ⟨rfl, rfl, trivial, trivial⟩
    | @broken block e t _ fails =>
      have counted := body block { s with left }
      rw [fails] at counted
      exact ⟨counted.1, rfl, counted.2, trivial⟩
    | @stranded block e t _ ends =>
      have counted := body block { s with left }
      rw [ends] at counted
      exact ⟨counted.1, rfl, counted.2, trivial⟩
    | @arrived block tr t _ ends =>
      have counted := body block { s with left }
      rw [ends] at counted
      exact ⟨counted.1, rfl, counted.2, trivial⟩
    | @onward block tr t next _ ends =>
      have counted := body block { s with left }
      rw [ends] at counted
      obtain ⟨depth, later⟩ := ih g next (t.recorded g.name loc)
      have back : (t.recorded g.name loc).depth = s.depth := counted.1
      rw [back] at depth later
      exact ⟨depth, rfl, counted.2, later⟩

/-- Every evaluation closes the calls that it opens, also when it fails. -/
theorem depth_eval (e : Expr) (s : Machine) :
    (Eval.machine (e.eval limits.arrays (p.handler limits fuel) s)).depth = s.depth := by
  have counted := Accounted.expression limits.arrays
    (countAccount.handler fun g s => counted_walk p limits fuel g g.entry s) e s
  exact counted.1

end Walk

/-- What a run that comes to a trace spends, with its history. -/
theorem pays_execute {p : Program} {limits : Limits} {input : RunInput} {t : Trace}
    (h : (p.execute limits input).1 = .ok t) :
    ∃ history, p.history limits input = some history ∧ t.visits = history.listing ∧
      (∀ opened ∈ history.ticks 0, opened ≤ limits.callDepth) ∧
      ∃ failure rest, Pays 0 limits.steps (history.ticks 0) t.length failure rest ∧
        (t.truncated = false ∧ failure = none ∨
          t.truncated = true ∧ ∃ steps, failure = some (.timeout steps)) := by
  cases found : p.function? limits.entry with
  | none =>
    rw [execute_unknown found] at h
    cases h
  | some g =>
    rw [execute_found found] at h
    have spent := spends_walk p limits limits.steps g g.entry (.start g limits input)
      (Nat.zero_le _)
    have history : p.history limits input =
        some (activation p limits limits.steps g (.start g limits input)) := by
      simp only [Program.history, found, Option.map_some]
    refine ⟨_, history, ?_⟩
    simp only [activation, Activation.listing, Activation.ticks]
    generalize stays p limits limits.steps g g.entry _ = made at spent ⊢
    generalize walk p limits limits.steps g g.entry _ = r at spent h
    have listed : (Eval.machine r).visits.reverse = Activation.staysListing g made := by
      rw [spent.visits_eq]
      simp [Machine.start]
    have paid := spent.paid (Nat.le_refl _)
    rw [← listed] at paid ⊢
    cases r with
    | ok _ u =>
      cases h
      exact ⟨rfl, spent.room, none, _, paid, .inl ⟨rfl, rfl⟩⟩
    | error e u =>
      cases e with
      | timeout steps =>
        cases h
        exact ⟨rfl, spent.room, some (.timeout steps), _, paid, .inr ⟨rfl, steps, rfl⟩⟩
      | _ => cases h

/-- Visits are paid for one by one and never while more calls are open than are allowed. A finished
run lists every visit that it paid for. One that was cut off lists all but those that were begun and
not ended, of which there is one for each open call. On every outcome as many calls are open behind
an evaluation as in front of it. -/
theorem execute_budget (p : Program) (limits : Limits) (input : RunInput) :
    (∀ t, (p.execute limits input).1 = .ok t →
      ∃ history, p.history limits input = some history ∧ t.visits = history.listing ∧
        history.Counted 0 ∧ (history.ticks 0).length ≤ limits.steps + 1 ∧
        (∀ opened ∈ history.ticks 0, opened ≤ limits.callDepth) ∧
        (t.truncated = false → t.length = (history.ticks 0).length ∧ t.length ≤ limits.steps) ∧
        (t.truncated = true → ∃ opened, (history.ticks 0).getLast? = some opened ∧
          t.length + opened = limits.steps ∧ limits.steps - limits.callDepth ≤ t.length)) ∧
    ∀ (fuel : Nat) (e : Expr) (s : Machine),
      (Eval.machine (e.eval limits.arrays (p.handler limits fuel) s)).depth = s.depth := by
  refine ⟨?_, fun fuel e s => depth_eval e s⟩
  intro t h
  obtain ⟨history, recorded, listed, room, failure, rest, paid, ends⟩ := pays_execute h
  have counted : history.Counted 0 := by
    obtain ⟨g, _, rfl⟩ := Option.map_eq_some_iff.mp recorded
    exact (counted_walk p limits limits.steps g g.entry (.start g limits input)).2
  refine ⟨history, recorded, listed, counted, ?_⟩
  rcases ends with ⟨whole, rfl⟩ | ⟨cut, steps, rfl⟩
  · obtain ⟨paid, ended⟩ := paid.left_eq
    refine ⟨by omega, room, fun _ => ⟨ended, by omega⟩, ?_⟩
    rw [whole]
    intro cut
    cases cut
  · cases paid with
    | all mild => cases mild _ rfl
    | @spent _ opened paid last ended =>
      have deepest := room opened (List.mem_of_getLast? last)
      refine ⟨by omega, room, ?_, fun _ => ⟨opened, last, by omega, by omega⟩⟩
      rw [cut]
      intro whole
      cases whole

/-- The budget runs out where the second call would start. -/
theorem execute_budget_talking :
    (talking.history { steps := 3 } {}).map (Activation.ticks 0) = some [0, 1, 0, 1] ∧
    ∃ t, (talking.execute { steps := 3 } {}).1 = .ok t ∧ t.length + 1 = 3 := by
  have ticks :
      (talking.history { steps := 3 } {}).map (Activation.ticks 0) = some [0, 1, 0, 1] := by
    decide +kernel
  refine ⟨ticks, ?_⟩
  have seen : (talking.execute { steps := 3 } {}).1.toOption.map Trace.outline =
      some ([("say", 1), ("main", 1)], true) := by decide +kernel
  obtain ⟨t, ht, outline⟩ := Except.ok_of_seen seen
  have cut : t.truncated = true := congrArg Prod.snd outline
  obtain ⟨history, recorded, -, -, -, -, -, stopped⟩ :=
    (execute_budget talking { steps := 3 } {}).1 t ht
  obtain ⟨opened, last, length, -⟩ := stopped cut
  rw [recorded, Option.map_some, Option.some.injEq] at ticks
  rw [ticks] at last
  cases last
  exact ⟨t, ht, length⟩

end TraceRepair
