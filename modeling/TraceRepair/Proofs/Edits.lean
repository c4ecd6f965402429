import Mathlib.Data.List.Forall2
import TraceRepair.Proofs.Lookup
import TraceRepair.Proofs.Primes
import TraceRepair.Proofs.Results
import TraceRepair.Repair

namespace TraceRepair

/-- The submission's variables between two locations, whichever origin they are marked with. -/
abbrev Place := String × Loc × Loc

/-- A variable of the reference and its counterpart, put in question between two locations. -/
structure Suspect where
  reference : Variable
  target : Variable
  refLoc : Loc
  subLoc : Loc
deriving DecidableEq

def Suspect.place (m : Suspect) : Place := (m.target.unprimedName, m.refLoc, m.subLoc)

def Suspect.key (m : Suspect) : Variable.Key × Loc × Loc := (m.target.key, m.refLoc, m.subLoc)

def LocalRepair.place (r : LocalRepair Nat) : Place :=
  (r.target.unprimedName, r.reference, r.submission)

section Naming

variable (reference submission : FlowGraph) (b : Bijection)

/-- Differing values name their variables, and a missing visit names whatever is assigned there. -/
def Divergence.suspects (d : Divergence) : Except SynthesisError (List Suspect) :=
  match d.kind, d.submission with
  | .values differing, some loc => differing.mapM fun r => do
    return ⟨r, ← b.resolve r, d.reference, loc⟩
  | .visits, some loc => do
    let pairs ← Synthesis.assignedPairs reference submission b d.reference loc
    return pairs.map fun p => ⟨p.1, p.2, d.reference, loc⟩
  | _, _ => return []

def suspectsOf (ds : List Divergence) : Except SynthesisError (List Suspect) := do
  return (← ds.mapM (Divergence.suspects reference submission b)).flatten

/-- What the submission assigns last, and what the reference does in the submission's variables. -/
structure Sides (m : Suspect) (old new : Option Expr) : Prop where
  old_eq : submission.assigned m.subLoc m.target.unprimedName = .ok old
  new_eq : ∃ assigned, reference.assigned m.refLoc m.reference.unprimedName = .ok assigned ∧
    assigned.mapM (Expr.transfer b) = .ok new

end Naming

/-- The repairs for which two assignments call, either of which may be missing. -/
inductive CallFor : Option Expr → Option Expr → List (LocalRepair Nat) → Prop where
  | change {old new : Expr} {r : LocalRepair Nat} (differ : old.alike new = false)
      (action : r.action = .change old new) (cost : r.cost = old.distance new) :
      CallFor (some old) (some new) [r]
  | kept {old new : Expr} (alike : old.alike new = true) : CallFor (some old) (some new) []
  | add {new : Expr} {r : LocalRepair Nat} (action : r.action = .add new)
      (cost : r.cost = new.size) : CallFor none (some new) [r]
  | delete {old : Expr} {r : LocalRepair Nat} (action : r.action = .delete old)
      (cost : r.cost = old.size) : CallFor (some old) none [r]
  | unassigned : CallFor none none []

def Bijection.ResolvesInjectively (b : Bijection) : Prop :=
  ∀ r r' s s', b.resolve r = .ok s → b.resolve r' = .ok s' →
    s.unprimedName = s'.unprimedName → r.unprimedName = r'.unprimedName

theorem Bijection.find?_of_mem_pairs {b : Bijection} {p : Variable × Variable}
    (h : p ∈ b.pairs) : b.find? p.1 = some p.2 := by
  obtain ⟨e, he, rfl⟩ := List.mem_map.mp h
  have hk := b.keyed e he
  have hf : b.entries.find? e.1 = some e.2 := SortedMap.find?_eq_some_iff.mpr he
  unfold Bijection.find? Bijection.pair?
  rw [hk, hf]
  rfl

theorem Bijection.resolve_of_mem_pairs {b : Bijection} {p : Variable × Variable}
    (h : p ∈ b.pairs) : b.resolve p.1 = .ok p.2 := by
  unfold Bijection.resolve
  rw [Bijection.find?_of_mem_pairs h]

/-- What a variable resolves to is its counterpart, or itself where it is reserved. -/
theorem Bijection.pair_of_resolve {b : Bijection} {r s : Variable} (h : b.resolve r = .ok s) :
    (∃ p ∈ b.pairs, p.1.unprimedName = r.unprimedName ∧ p.2 = s) ∨
      (s = r ∧ isReserved r.unprimedName = true) := by
  unfold Bijection.resolve at h
  split at h
  · rename_i counterpart hfind
    cases h
    exact .inl (Bijection.pair_of_find? hfind)
  · split at h
    · rename_i hreserved
      cases h
      exact .inr ⟨rfl, hreserved⟩
    · cases h

/-- A reserved variable that is not mapped stands for itself. -/
theorem Bijection.resolve_reserved {b : Bijection} {name : String}
    (hr : isReserved name = true) (hb : b.contains (.reference name) = false)
    (hu : (Variable.reference name).isPrimed = false) :
    b.resolve (.reference name) = .ok (.reference name) := by
  have hn := Variable.unprimedName_reference (Variable.isPrimed_reference.mp hu)
  have hf : b.find? (.reference name) = none := by
    unfold Bijection.contains at hb
    simpa [Bijection.find?] using hb
  unfold Bijection.resolve
  rw [hf, hn, hr]
  rfl

section Synthesis

variable {reference submission : FlowGraph} {b : Bijection}

/-- How a divergence names a suspect: its values differ, its pair is mapped, or it is reserved and
not mapped. -/
inductive Suspect.NamedBy (b : Bijection) (d : Divergence) (m : Suspect) : Prop where
  | value (differs : m.reference ∈ d.differing) (resolved : b.resolve m.reference = .ok m.target)
  | mapped (pair : (m.reference, m.target) ∈ b.pairs)
  | reserved (name : String) (known : isReserved name = true)
      (unmapped : b.contains (.reference name) = false) (reference : m.reference = .reference name)
      (target : m.target = .reference name)

/-- Each suspect stands between the two locations of its divergence. -/
theorem Divergence.namedBy_of_suspects {d : Divergence} {ms : List Suspect}
    (h : d.suspects reference submission b = .ok ms) {m : Suspect} (hm : m ∈ ms) :
    m.NamedBy b d ∧ m.refLoc = d.reference ∧ d.submission = some m.subLoc := by
  unfold Divergence.suspects at h
  split at h
  · rename_i differing loc hkind found
    obtain ⟨r, hr, hm⟩ := Except.exists_of_mem_mapM h hm
    obtain ⟨s, hs, he⟩ := Except.bind_eq_ok.mp hm
    cases he
    exact ⟨.value (by rwa [Divergence.differing, hkind]) hs, rfl, found⟩
  · rename_i loc hkind found
    obtain ⟨pairs, hpairs, he⟩ := Except.bind_eq_ok.mp h
    cases he
    obtain ⟨p, hp, rfl⟩ := List.mem_map.mp hm
    obtain ⟨ours, -, hpairs⟩ := Except.bind_eq_ok.mp hpairs
    obtain ⟨theirs, -, hpairs⟩ := Except.bind_eq_ok.mp hpairs
    cases hpairs
    rcases List.mem_append.mp hp with hp | hp
    · exact ⟨.mapped (List.mem_filter.mp hp).1, rfl, found⟩
    · obtain ⟨name, hname, rfl⟩ := List.mem_map.mp hp
      have both := (List.mem_filter.mp hname).2
      simp only [Bool.and_eq_true, Bool.not_eq_true'] at both
      exact ⟨.reserved name both.1 both.2 rfl rfl, rfl, found⟩
  · cases h
    cases hm

/-- Whichever way a pair was named, the second variable is what the first one resolves to. -/
theorem Divergence.resolve_of_suspects {d : Divergence} {ms : List Suspect}
    (h : d.suspects reference submission b = .ok ms) {m : Suspect} (hm : m ∈ ms)
    (hu : m.target.isPrimed = false) : b.resolve m.reference = .ok m.target := by
  cases (Divergence.namedBy_of_suspects h hm).1 with
  | value _ resolved => exact resolved
  | mapped pair =>
    have resolved := Bijection.resolve_of_mem_pairs pair
    exact resolved
  | reserved name known unmapped reference target =>
    rw [target] at hu
    rw [reference, target]
    exact Bijection.resolve_reserved known unmapped hu

theorem resolve_of_suspectsOf {ds : List Divergence} {ms : List Suspect}
    (h : suspectsOf reference submission b ds = .ok ms) {m : Suspect} (hm : m ∈ ms)
    (hu : m.target.isPrimed = false) : b.resolve m.reference = .ok m.target := by
  obtain ⟨found, hf, he⟩ := Except.bind_eq_ok.mp h
  cases he
  obtain ⟨part, hpart, hm⟩ := List.mem_flatten.mp hm
  obtain ⟨d, -, hd⟩ := Except.exists_of_mem_mapM hf hpart
  exact Divergence.resolve_of_suspects hd hm hu

theorem Synthesis.eq_of_ofModel {α : Type} {x : Except ModelError α} {a : α}
    (h : Synthesis.ofModel x = .ok a) : x = .ok a := by
  cases x with
  | error e => cases h
  | ok found =>
    cases h
    rfl

/-- The edit of a suspect from its two sides. -/
theorem exists_sides_of_localRepair {m : Suspect} {found : Option (LocalRepair Nat)}
    (h : Synthesis.localRepair? reference submission b m.refLoc m.subLoc m.reference m.target =
      .ok found) :
    ∃ old new, Sides reference submission b m old new ∧
      found = (RepairAction.between? old new).map fun action =>
        { bijection := b, cost := Expr.repairCost old new, target := m.target.toUnprimed, action,
          function := reference.name, reference := m.refLoc, submission := m.subLoc } := by
  obtain ⟨old, hold, h⟩ := Except.bind_eq_ok.mp h
  obtain ⟨assigned, hassigned, h⟩ := Except.bind_eq_ok.mp h
  replace hold := Synthesis.eq_of_ofModel hold
  replace hassigned := Synthesis.eq_of_ofModel hassigned
  cases assigned with
  | none =>
    cases h
    exact ⟨old, none, ⟨hold, none, hassigned, rfl⟩, rfl⟩
  | some e =>
    obtain ⟨new, hnew, h⟩ := Except.bind_eq_ok.mp h
    cases h
    exact ⟨old, new, ⟨hold, some e, hassigned, hnew⟩, rfl⟩

/-- What a suspect calls for comes to nothing, or to one repair at its place. -/
theorem callFor_of_localRepair {m : Suspect} {found : Option (LocalRepair Nat)}
    (hu : m.target.isPrimed = false)
    (h : Synthesis.localRepair? reference submission b m.refLoc m.subLoc m.reference m.target =
      .ok found) :
    (∃ old new, Sides reference submission b m old new ∧ CallFor old new found.toList) ∧
      ∀ r ∈ found.toList,
        r.place = m.place ∧ r.bijection = b ∧ r.function = reference.name := by
  obtain ⟨old, new, sides, rfl⟩ := exists_sides_of_localRepair h
  refine ⟨⟨old, new, sides, ?_⟩, ?_⟩
  · cases old with
    | none =>
      cases new with
      | none => exact .unassigned
      | some new => exact .add rfl rfl
    | some old =>
      cases new with
      | none => exact .delete rfl rfl
      | some new =>
        cases halike : old.alike new with
        | true =>
          simp only [RepairAction.between?, halike, if_true, Option.map_none, Option.toList_none]
          exact .kept halike
        | false =>
          simp only [RepairAction.between?, halike, Bool.false_eq_true, if_false, Option.map_some,
            Option.toList_some]
          exact .change halike rfl rfl
  · intro r hr
    obtain ⟨action, -, rfl⟩ := Option.map_eq_some_iff.mp (Option.mem_toList.mp hr)
    have hname := Variable.unprimedName_toUnprimed (Variable.stripPrime?_of_unprimed hu)
    exact ⟨by simp only [LocalRepair.place, Suspect.place, hname], rfl, rfl⟩

end Synthesis

section Emission

variable (reference submission : FlowGraph) (b : Bijection)

/-- The repairs that come of suspects one after the other, past those whose places are known. -/
inductive Emits : Synthesis.Seen → List Suspect → List (LocalRepair Nat) → Synthesis.Seen → Prop
  where
  | done (seen : Synthesis.Seen) : Emits seen [] [] seen
  | again {seen seen' : Synthesis.Seen} {m : Suspect} {ms : List Suspect}
      {later : List (LocalRepair Nat)} (known : m.key ∈ seen)
      (rest : Emits seen ms later seen') : Emits seen (m :: ms) later seen'
  | first {seen seen' : Synthesis.Seen} {m : Suspect} {ms : List Suspect}
      {found : Option (LocalRepair Nat)} {later : List (LocalRepair Nat)} (new : m.key ∉ seen)
      (edit : Synthesis.localRepair? reference submission b m.refLoc m.subLoc m.reference
        m.target = .ok found)
      (rest : Emits (m.key :: seen) ms later seen') :
      Emits seen (m :: ms) (found.toList ++ later) seen'

variable {reference submission b}

theorem Emits.append {seen seen' seen'' : Synthesis.Seen} {ms ms' : List Suspect}
    {repairs repairs' : List (LocalRepair Nat)}
    (h : Emits reference submission b seen ms repairs seen')
    (h' : Emits reference submission b seen' ms' repairs' seen'') :
    Emits reference submission b seen (ms ++ ms') (repairs ++ repairs') seen'' := by
  induction h with
  | done seen => exact h'
  | again known rest ih => exact .again known (ih h')
  | first new edit rest ih =>
    rw [List.append_assoc]
    exact .first new edit (ih h')

/-- By recursion over the pairs: each is passed over, settled without an edit, or repaired. -/
theorem emits_repairPairs {refLoc subLoc : Loc} {pairs : List (Variable × Variable)}
    {seen seen' : Synthesis.Seen} {repairs : List (LocalRepair Nat)}
    (h : Synthesis.repairPairs reference submission b refLoc subLoc pairs seen =
      .ok (repairs, seen')) :
    Emits reference submission b seen (pairs.map fun p => ⟨p.1, p.2, refLoc, subLoc⟩) repairs
      seen' := by
  induction pairs generalizing seen repairs with
  | nil =>
    cases h
    exact .done _
  | cons p pairs ih =>
    obtain ⟨r, s⟩ := p
    unfold Synthesis.repairPairs at h
    dsimp only at h
    split at h
    · rename_i known
      exact .again (List.contains_iff_mem.mp known) (ih h)
    · rename_i new
      obtain ⟨found, edit, h⟩ := Except.bind_eq_ok.mp h
      obtain ⟨⟨later, seen''⟩, hlater, h⟩ := Except.bind_eq_ok.mp h
      cases h
      exact .first (fun known => new (List.contains_iff_mem.mpr known)) edit (ih hlater)

/-- The pairs that a synthesis goes through are the suspects of the divergence. -/
theorem Divergence.suspects_eq {d : Divergence} {loc : Loc}
    (matched : ∀ cause, d.kind ≠ .unmatched cause) (found : d.submission = some loc) :
    d.suspects reference submission b =
      (Synthesis.suspects reference submission b d.kind d.reference loc).map
        (List.map fun p => ⟨p.1, p.2, d.reference, loc⟩) := by
  unfold Synthesis.suspects Divergence.suspects
  rw [found]
  cases hkind : d.kind with
  | unmatched cause => exact absurd hkind (matched cause)
  | visits =>
    dsimp only
    cases Synthesis.assignedPairs reference submission b d.reference loc <;> rfl
  | values differing =>
    dsimp only
    rw [← Except.mapM_map]
    congr 1
    funext r
    cases b.resolve r <;> rfl

theorem Divergence.suspects_of_unpaired {d : Divergence}
    (h : (∃ cause, d.kind = .unmatched cause) ∨ d.submission = none) :
    d.suspects reference submission b = .ok [] := by
  unfold Divergence.suspects
  rcases h with ⟨cause, h⟩ | h
  · rw [h]
    rfl
  · rw [h]
    cases d.kind <;> rfl

theorem suspectsOf_cons {d : Divergence} {ds : List Divergence} {ms ms' : List Suspect}
    (h : d.suspects reference submission b = .ok ms)
    (h' : suspectsOf reference submission b ds = .ok ms') :
    suspectsOf reference submission b (d :: ds) = .ok (ms ++ ms') := by
  obtain ⟨parts, hparts, he⟩ := Except.bind_eq_ok.mp h'
  cases he
  unfold suspectsOf
  rw [List.mapM_cons, h, hparts]
  rfl

/-- Synthesis goes through the suspects of all divergences, in order. -/
theorem emits_repairDivergences {ds : List Divergence} {seen : Synthesis.Seen}
    {repairs : List (LocalRepair Nat)}
    (h : Synthesis.repairDivergences reference submission b ds seen = .ok repairs) :
    ∃ ms seen', suspectsOf reference submission b ds = .ok ms ∧
      Emits reference submission b seen ms repairs seen' := by
  induction ds generalizing seen repairs with
  | nil =>
    cases h
    exact ⟨[], seen, rfl, .done seen⟩
  | cons d ds ih =>
    unfold Synthesis.repairDivergences at h
    split at h
    · rename_i cause hkind
      obtain ⟨ms, seen', hms, later⟩ := ih h
      exact ⟨ms, seen', suspectsOf_cons (Divergence.suspects_of_unpaired (.inl ⟨cause, hkind⟩)) hms,
        later⟩
    · rename_i hnone _
      obtain ⟨ms, seen', hms, later⟩ := ih h
      exact ⟨ms, seen', suspectsOf_cons (Divergence.suspects_of_unpaired (.inr hnone)) hms, later⟩
    · rename_i loc hsome matched
      obtain ⟨pairs, hpairs, h⟩ := Except.bind_eq_ok.mp h
      obtain ⟨⟨found, seen₁⟩, hfound, h⟩ := Except.bind_eq_ok.mp h
      obtain ⟨rest, hrest, h⟩ := Except.bind_eq_ok.mp h
      cases h
      obtain ⟨ms, seen', hms, later⟩ := ih hrest
      have named : d.suspects reference submission b =
          .ok (pairs.map fun p => ⟨p.1, p.2, d.reference, loc⟩) := by
        rw [Divergence.suspects_eq matched hsome, hpairs]
        rfl
      exact ⟨_, seen', suspectsOf_cons named hms, (emits_repairPairs hfound).append later⟩

def knownPlaces (seen : Synthesis.Seen) : List Place := seen.map fun k => (k.1.name, k.2)

/-- Among unmarked variables the place alone tells what is known. -/
theorem Suspect.key_mem_iff {m : Suspect} {seen : Synthesis.Seen}
    (hm : m.target.isPrimed = false) (hs : ∀ k ∈ seen, k.1.primed = false) :
    m.key ∈ seen ↔ m.place ∈ knownPlaces seen := by
  have hkey : m.key = (⟨m.target.unprimedName, false⟩, m.refLoc, m.subLoc) := by
    simp [Suspect.key, Variable.key, hm]
  rw [hkey]
  constructor
  · intro h
    exact List.mem_map.mpr ⟨_, h, rfl⟩
  · intro h
    obtain ⟨⟨⟨name, primed⟩, at_⟩, hk, he⟩ := List.mem_map.mp h
    obtain rfl : primed = false := hs _ hk
    cases he
    exact hk

theorem Suspect.unmarked_cons {m : Suspect} {seen : Synthesis.Seen}
    (hm : m.target.isPrimed = false) (hs : ∀ k ∈ seen, k.1.primed = false) :
    ∀ k ∈ m.key :: seen, k.1.primed = false := by
  intro k hk
  rcases List.mem_cons.mp hk with rfl | hk
  · exact hm
  · exact hs k hk

/-- At most one repair for each place that was not known, in the order of the first mentions. -/
theorem Emits.place_sublist {seen seen' : Synthesis.Seen} {ms : List Suspect}
    {repairs : List (LocalRepair Nat)}
    (h : Emits reference submission b seen ms repairs seen')
    (hm : ∀ m ∈ ms, m.target.isPrimed = false) (hs : ∀ k ∈ seen, k.1.primed = false) :
    (repairs.map LocalRepair.place).Sublist
      ((ms.map Suspect.place).filter (· ∉ knownPlaces seen)).eraseDups := by
  induction h with
  | done seen => exact List.Sublist.refl []
  | @again seen seen' m ms later known rest ih =>
    have hplace := (Suspect.key_mem_iff (hm m List.mem_cons_self) hs).mp known
    rw [List.map_cons, List.filter_cons_of_neg (by simpa using hplace)]
    exact ih (fun n hn => hm n (List.mem_cons_of_mem _ hn)) hs
  | @first seen seen' m ms found later new edit rest ih =>
    have hu := hm m List.mem_cons_self
    have hplace : m.place ∉ knownPlaces seen := fun hp => new ((Suspect.key_mem_iff hu hs).mpr hp)
    have tail := ih (fun n hn => hm n (List.mem_cons_of_mem _ hn)) (Suspect.unmarked_cons hu hs)
    have others : (ms.map Suspect.place).filter (· ∉ knownPlaces (m.key :: seen)) =
        ((ms.map Suspect.place).filter (· ∉ knownPlaces seen)).filter (fun p => !p == m.place) := by
      rw [List.filter_filter]
      refine List.filter_congr fun p _ => ?_
      have hk : knownPlaces (m.key :: seen) = m.place :: knownPlaces seen := rfl
      rw [hk]
      by_cases hp : p = m.place <;> simp [hp]
    rw [List.map_cons, List.filter_cons_of_pos (by simpa using hplace), List.eraseDups_cons,
      ← others, List.map_append]
    have each := (callFor_of_localRepair hu edit).2
    cases found with
    | none => exact tail.cons _
    | some r =>
      have hr := (each r (by simp)).1
      rw [Option.toList_some, List.map_singleton, hr]
      exact tail.cons_cons _

/-- A place that is known or not in question stays as it is. -/
theorem Emits.filter_eq_nil {seen seen' : Synthesis.Seen} {ms : List Suspect}
    {repairs : List (LocalRepair Nat)}
    (h : Emits reference submission b seen ms repairs seen')
    (hm : ∀ m ∈ ms, m.target.isPrimed = false) (hs : ∀ k ∈ seen, k.1.primed = false) {p : Place}
    (hp : p ∈ knownPlaces seen) : repairs.filter (·.place = p) = [] := by
  refine List.filter_eq_nil_iff.mpr fun r hr hplace => ?_
  have hmem := (h.place_sublist hm hs).subset (List.mem_map.mpr ⟨r, hr, rfl⟩)
  have := (List.mem_filter.mp (List.mem_eraseDups.mp hmem)).2
  rw [of_decide_eq_true hplace] at this
  exact absurd hp (of_decide_eq_true this)

/-- The first of the suspects at a place decides which repairs there are. -/
theorem Emits.callFor {seen seen' : Synthesis.Seen} {ms : List Suspect}
    {repairs : List (LocalRepair Nat)}
    (h : Emits reference submission b seen ms repairs seen')
    (hm : ∀ m ∈ ms, m.target.isPrimed = false) (hs : ∀ k ∈ seen, k.1.primed = false) {p : Place}
    (hp : p ∈ ms.map Suspect.place) (new : p ∉ knownPlaces seen) :
    ∃ m ∈ ms, m.place = p ∧ ∃ old new, Sides reference submission b m old new ∧
      CallFor old new (repairs.filter (·.place = p)) := by
  induction h with
  | done seen => cases hp
  | @again seen seen' m ms later known rest ih =>
    have hplace := (Suspect.key_mem_iff (hm m List.mem_cons_self) hs).mp known
    rw [List.map_cons, List.mem_cons] at hp
    rcases hp with rfl | hp
    · exact absurd hplace new
    · obtain ⟨n, hn, found⟩ := ih (fun n hn => hm n (List.mem_cons_of_mem _ hn)) hs hp new
      exact ⟨n, List.mem_cons_of_mem _ hn, found⟩
  | @first seen seen' m ms found later _ edit rest ih =>
    have hu := hm m List.mem_cons_self
    have hrest : ∀ n ∈ ms, n.target.isPrimed = false := fun n hn => hm n (List.mem_cons_of_mem _ hn)
    have hseen := Suspect.unmarked_cons hu hs
    obtain ⟨⟨old, new', sides, call⟩, each⟩ := callFor_of_localRepair hu edit
    rw [List.filter_append]
    by_cases hsame : m.place = p
    · have own : found.toList.filter (·.place = p) = found.toList :=
        List.filter_eq_self.mpr fun r hr => decide_eq_true ((each r hr).1.trans hsame)
      have none_later := rest.filter_eq_nil hrest hseen (p := p)
        (hsame ▸ List.mem_cons_self)
      rw [own, none_later, List.append_nil]
      exact ⟨m, List.mem_cons_self, hsame, old, new', sides, call⟩
    · have own : found.toList.filter (·.place = p) = [] := by
        refine List.filter_eq_nil_iff.mpr fun r hr hplace => hsame ?_
        rw [← (each r hr).1, of_decide_eq_true hplace]
      rw [own, List.nil_append]
      rw [List.map_cons, List.mem_cons] at hp
      have hp' := hp.resolve_left fun he => hsame he.symm
      have new_tail : p ∉ knownPlaces (m.key :: seen) := by
        intro hk
        rcases List.mem_cons.mp hk with he | hk
        · exact hsame he.symm
        · exact new hk
      obtain ⟨n, hn, result⟩ := ih hrest hseen hp' new_tail
      exact ⟨n, List.mem_cons_of_mem _ hn, result⟩

/-- Repairs belong to the bijection and the function for which they are made. -/
theorem Emits.owner {seen seen' : Synthesis.Seen} {ms : List Suspect}
    {repairs : List (LocalRepair Nat)}
    (h : Emits reference submission b seen ms repairs seen')
    (hm : ∀ m ∈ ms, m.target.isPrimed = false) :
    ∀ r ∈ repairs, r.bijection = b ∧ r.function = reference.name := by
  induction h with
  | done seen =>
    intro r hr
    cases hr
  | again known rest ih => exact ih fun n hn => hm n (List.mem_cons_of_mem _ hn)
  | @first seen seen' m ms found later new edit rest ih =>
    intro r hr
    rcases List.mem_append.mp hr with hr | hr
    · exact ((callFor_of_localRepair (hm m List.mem_cons_self) edit).2 r hr).2
    · exact ih (fun n hn => hm n (List.mem_cons_of_mem _ hn)) r hr

end Emission

/-- The repairs stand at the places that the divergences name, in the order of their first mention
and at most one at each, and each edits what the submission assigns there into what the reference
does. -/
theorem repairCandidate_callFor {reference submission : FlowGraph} {c : CandidateDivergences}
    {repairs : List (LocalRepair Nat)} (injective : c.bijection.ResolvesInjectively)
    (h : Synthesis.repairCandidate reference submission c = .ok repairs) :
    ∃ ms, suspectsOf reference submission c.bijection c.divergences = .ok ms ∧
      ((∀ m ∈ ms, m.target.isPrimed = false) →
        (repairs.map LocalRepair.place).Sublist (ms.map Suspect.place).eraseDups ∧
        (∀ r ∈ repairs, r.bijection = c.bijection ∧ r.function = reference.name) ∧
        ∀ m ∈ ms, ∃ old new, Sides reference submission c.bijection m old new ∧
          CallFor old new (repairs.filter (·.place = m.place))) := by
  obtain ⟨ms, seen, hms, emits⟩ := emits_repairDivergences h
  refine ⟨ms, hms, fun hm => ?_⟩
  have unseen : ∀ k ∈ ([] : Synthesis.Seen), k.1.primed = false := nofun
  refine ⟨?_, emits.owner hm, fun m hmem => ?_⟩
  · have := emits.place_sublist hm unseen
    rwa [List.filter_eq_self.mpr (by simp [knownPlaces])] at this
  · obtain ⟨n, hn, hplace, old, new, ⟨hold, assigned, hnew, hrewritten⟩, call⟩ :=
      emits.callFor hm unseen (List.mem_map.mpr ⟨m, hmem, rfl⟩) (by simp [knownPlaces])
    -- The suspect that came first has the same variables, by injectivity of the mapping.
    obtain ⟨htarget, hloc⟩ := Prod.mk.inj hplace
    obtain ⟨hrefLoc, hsubLoc⟩ := Prod.mk.inj hloc
    have hname := injective _ _ _ _ (resolve_of_suspectsOf hms hn (hm n hn))
      (resolve_of_suspectsOf hms hmem (hm m hmem)) htarget
    rw [htarget, hsubLoc] at hold
    rw [hname, hrefLoc] at hnew
    exact ⟨old, new, ⟨hold, assigned, hnew, hrewritten⟩, call⟩

def blockOf (assignments : List Assignment) : FlowGraph where
  name := "main"
  returnType := "int"
  entry := 1
  params := []
  blocks := SortedMap.ofList [(1, assignments)]
  edges := SortedMap.ofList [(1, {})]

def expectedBlock : FlowGraph :=
  blockOf [("y", .binary "+" (.constant "1" 1) (.variable (.reference "x"))),
    ("z", .constant "7" 2), ("$ret", .variable (.reference "y"))]

def submittedBlock : FlowGraph :=
  blockOf [("b", .binary "+" (.constant "5" 1) (.variable (.reference "a"))),
    ("d", .constant "3" 2), ("$ret", .variable (.reference "b"))]

def lettersPaired : Bijection :=
  .ofPairs [(.reference "w", .reference "d"), (.reference "x", .reference "a"),
    (.reference "y", .reference "b"), (.reference "z", .reference "c")]

def lettersDiffering : CandidateDivergences where
  bijection := lettersPaired
  divergences := [
    { kind := .values [.reference "y"], reference := 1, submission := some 1 },
    { kind := .visits, reference := 1, submission := some 1 },
    { kind := .unmatched (.location "main" 2), reference := 2, submission := none }]

theorem lettersPaired_resolvesInjectively : lettersPaired.ResolvesInjectively := by
  have apart : ∀ p ∈ lettersPaired.pairs, ∀ q ∈ lettersPaired.pairs,
      p.2.unprimedName = q.2.unprimedName → p.1.unprimedName = q.1.unprimedName := by
    decide +kernel
  have unreserved : ∀ p ∈ lettersPaired.pairs, isReserved p.2.unprimedName = false := by
    decide +kernel
  intro r r' s s' h h' same
  rcases Bijection.pair_of_resolve h with ⟨p, hp, hr, rfl⟩ | ⟨rfl, hr⟩
  · rcases Bijection.pair_of_resolve h' with ⟨q, hq, hr', rfl⟩ | ⟨rfl, hr'⟩
    · rw [← hr, ← hr', apart p hp q hq same]
    · rw [← same, unreserved p hp] at hr'
      cases hr'
  · rcases Bijection.pair_of_resolve h' with ⟨q, hq, hr', rfl⟩ | ⟨rfl, hr'⟩
    · rw [same, unreserved q hq] at hr
      cases hr
    · exact same

/-- `b` is named twice and repaired once, and nothing is to be done about `$ret`. -/
theorem repairCandidate_callFor_letters :
    ∃ repairs, Synthesis.repairCandidate expectedBlock submittedBlock lettersDiffering =
        .ok repairs ∧
      repairs.map (fun r => (r.place, r.cost)) =
        [(("b", 1, 1), 1), (("d", 1, 1), 1), (("c", 1, 1), 1)] ∧
      ∃ ms, suspectsOf expectedBlock submittedBlock lettersPaired lettersDiffering.divergences =
          .ok ms ∧
        ms.map Suspect.place =
          [("b", 1, 1), ("d", 1, 1), ("b", 1, 1), ("c", 1, 1), ("$ret", 1, 1)] ∧
        ∀ m ∈ ms, ∃ old new, Sides expectedBlock submittedBlock lettersPaired m old new ∧
          CallFor old new (repairs.filter (·.place = m.place)) := by
  have seen : (Synthesis.repairCandidate expectedBlock submittedBlock
      lettersDiffering).toOption.map (·.map fun r => (r.place, r.cost)) =
      some [(("b", 1, 1), 1), (("d", 1, 1), 1), (("c", 1, 1), 1)] := by decide +kernel
  obtain ⟨repairs, hrepairs, outline⟩ := Except.ok_of_seen seen
  obtain ⟨ms, hms, result⟩ := repairCandidate_callFor lettersPaired_resolvesInjectively hrepairs
  have named : (suspectsOf expectedBlock submittedBlock lettersDiffering.bijection
      lettersDiffering.divergences).toOption.map
        (fun ms => (ms.map Suspect.place, ms.all fun m => !m.target.isPrimed)) =
      some ([("b", 1, 1), ("d", 1, 1), ("b", 1, 1), ("c", 1, 1), ("$ret", 1, 1)], true) := by
    decide +kernel
  rw [hms] at named
  obtain ⟨places, unprimed⟩ := Prod.mk.inj (Option.some.inj named)
  refine ⟨repairs, hrepairs, outline, ms, hms, places, (result fun m hm => ?_).2.2⟩
  simpa using List.all_eq_true.mp unprimed m hm

end TraceRepair
