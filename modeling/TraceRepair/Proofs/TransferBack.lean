import TraceRepair.Proofs.AlikeExprs
import TraceRepair.Proofs.Edits
import TraceRepair.Proofs.TransferMeaning

namespace TraceRepair

def Bijection.covers (b : Bijection) (v : Variable) : Bool :=
  b.contains v || isReserved v.unprimedName

/-- What is written for a variable, at its own line and primed. -/
def Bijection.counterpart (b : Bijection) (v : Variable) : Variable :=
  ((b.find? v).getD v).toPrimed.atLine v.line

/-- The pairs of one bijection are those of the other, turned around. -/
def Bijection.Inverts (c b : Bijection) : Prop :=
  ∀ r s : String, (∃ p ∈ c.pairs, p.1.unprimedName = s ∧ p.2.unprimedName = r) ↔
    ∃ p ∈ b.pairs, p.1.unprimedName = r ∧ p.2.unprimedName = s

def Bijection.inverse (b : Bijection) : Bijection := .ofPairs (b.pairs.map Prod.swap)

def Bijection.ifCovered {α : Type} (b : Bijection) (read : List Variable) (a : α) :
    Except SynthesisError α :=
  match read.find? (fun v => !b.covers v) with
  | some v => .error (.unresolved v.name)
  | none => .ok a

namespace Expr

mutual

def mapReads (f : Variable → Variable) : Expr → Expr
  | .constant text line => .constant text line
  | .variable v => .variable (f v)
  | .operation name args line =>
    match args with
    | callee :: rest =>
      .operation name
        ((if name = OperatorName.call then callee else mapReads f callee) :: mapReadsEach f rest)
        line
    | [] => .operation name [] line

def mapReadsEach (f : Variable → Variable) : List Expr → List Expr
  | [] => []
  | e :: es => mapReads f e :: mapReadsEach f es

end

section MapReads

variable (f g : Variable → Variable)

mutual

theorem reads_mapReads : ∀ e : Expr, (e.mapReads f).reads = e.reads.map f
  | .constant _ _ => rfl
  | .variable _ => rfl
  | .operation _ [] _ => rfl
  | .operation name (callee :: rest) _ => by
    simp only [mapReads, reads, List.map_append, readsEach_mapReadsEach rest]
    split
    · rfl
    · rw [reads_mapReads callee]

theorem readsEach_mapReadsEach : ∀ es : List Expr,
    readsEach (mapReadsEach f es) = (readsEach es).map f
  | [] => rfl
  | e :: es => by
    simp only [mapReadsEach, readsEach, List.map_append, reads_mapReads e,
      readsEach_mapReadsEach es]

end

mutual

theorem mapReads_mapReads : ∀ e : Expr, (e.mapReads f).mapReads g = e.mapReads (g ∘ f)
  | .constant _ _ => rfl
  | .variable _ => rfl
  | .operation _ [] _ => rfl
  | .operation name (callee :: rest) _ => by
    simp only [mapReads, mapReadsEach_mapReadsEach rest]
    split
    · rfl
    · rw [mapReads_mapReads callee]

theorem mapReadsEach_mapReadsEach : ∀ es : List Expr,
    mapReadsEach g (mapReadsEach f es) = mapReadsEach (g ∘ f) es
  | [] => rfl
  | e :: es => by
    simp only [mapReadsEach, mapReads_mapReads e, mapReadsEach_mapReadsEach es]

end

variable {f}

mutual

/-- A replacement that keeps the names without their primes keeps the tree alike. -/
theorem alike_mapReads : ∀ e : Expr, (∀ v ∈ e.reads, (f v).unprimedName = v.unprimedName) →
    (e.mapReads f).alike e = true
  | .constant text line, _ => alike_refl (.constant text line)
  | .variable v, h => beq_iff_eq.mpr (h v (List.mem_singleton.mpr rfl))
  | .operation name [] line, _ => alike_refl (.operation name [] line)
  | .operation name (callee :: rest) _, h => by
    have others := alikeAll_mapReadsEach rest fun v hv => h v (by simp [reads, hv])
    simp only [mapReads, alike, alikeAll, beq_self_eq_true, others, Bool.true_and, Bool.and_true]
    split
    · exact alike_refl callee
    · rename_i hname
      exact alike_mapReads callee fun v hv => h v (by simp [reads, hname, hv])

theorem alikeAll_mapReadsEach : ∀ es : List Expr,
    (∀ v ∈ readsEach es, (f v).unprimedName = v.unprimedName) →
    alikeAll (mapReadsEach f es) es = true
  | [], _ => rfl
  | e :: es, h => by
    simp only [readsEach, List.mem_append] at h
    rw [mapReadsEach, alikeAll, alike_mapReads e fun v hv => h v (.inl hv),
      alikeAll_mapReadsEach es fun v hv => h v (.inr hv), Bool.and_self]

end

end MapReads

end Expr

namespace Bijection

section Covered

variable {α β γ : Type} {b : Bijection} {read : List Variable} {a : α}

theorem ifCovered_eq_error {x : SynthesisError} : b.ifCovered read a = .error x ↔
    ∃ v, read.find? (fun v => !b.covers v) = some v ∧ x = .unresolved v.name := by
  unfold ifCovered
  cases read.find? (fun v => !b.covers v) with
  | none => simp
  | some v => simp [eq_comm]

theorem ifCovered_eq_ok {a' : α} :
    b.ifCovered read a = .ok a' ↔ (∀ v ∈ read, b.covers v = true) ∧ a' = a := by
  unfold ifCovered
  cases h : read.find? (fun v => !b.covers v) with
  | none =>
    have all : ∀ v ∈ read, b.covers v = true := by simpa using h
    simp only [Except.ok.injEq]
    exact ⟨fun same => ⟨all, same.symm⟩, fun both => both.2.symm⟩
  | some v =>
    have bare : b.covers v = false := by simpa using List.find?_some h
    simp only [reduceCtorEq, false_iff]
    rintro ⟨all, -⟩
    rw [all v (List.mem_of_find?_eq_some h)] at bare
    cases bare

theorem ifCovered_map (f : α → β) :
    b.ifCovered read (f a) = (do let x ← b.ifCovered read a; return f x) := by
  unfold ifCovered
  cases read.find? (fun v => !b.covers v) <;> rfl

/-- What is read later is looked at only where everything before is covered. -/
theorem ifCovered_append (f : α → β → γ) (read' : List Variable) (c : β) :
    b.ifCovered (read ++ read') (f a c) =
      (do let x ← b.ifCovered read a
          let y ← b.ifCovered read' c
          return f x y) := by
  unfold ifCovered
  rw [List.find?_append]
  cases read.find? (fun v => !b.covers v) with
  | some v => rfl
  | none => cases read'.find? (fun v => !b.covers v) <;> rfl

theorem resolve_eq (b : Bijection) (v : Variable) :
    b.resolve v = b.ifCovered [v] ((b.find? v).getD v) := by
  unfold resolve ifCovered covers contains find?
  cases h : b.pair? v with
  | some p => simp [h]
  | none => cases hreserved : isReserved v.unprimedName <;> simp [h, hreserved]

end Covered

end Bijection

namespace Expr

variable (b : Bijection)

mutual

/-- A transfer checks every variable that is read and then replaces them all. -/
theorem transfer_eq : ∀ e : Expr, e.transfer b = b.ifCovered e.reads (e.mapReads b.counterpart)
  | .constant _ _ => rfl
  | .variable v => by
    rw [transfer, Bijection.resolve_eq, reads, mapReads]
    exact (Bijection.ifCovered_map fun w : Variable =>
      Expr.variable (w.toPrimed.atLine v.line)).symm
  | .operation _ [] _ => rfl
  | .operation name (callee :: rest) line => by
    have others := transferAll_eq rest
    rw [transfer, reads, mapReads]
    by_cases hname : name = OperatorName.call
    · simp only [hname, if_true, pure_bind, others]
      exact (Bijection.ifCovered_map fun others =>
        operation OperatorName.call (callee :: others) line).symm
    · simp only [hname, if_false, others, transfer_eq callee]
      exact (Bijection.ifCovered_append (fun first others => operation name (first :: others) line)
        _ _).symm

theorem transferAll_eq : ∀ es : List Expr,
    transferAll b es = b.ifCovered (readsEach es) (mapReadsEach b.counterpart es)
  | [] => rfl
  | e :: es => by
    rw [transferAll, transfer_eq e, transferAll_eq es]
    exact (Bijection.ifCovered_append List.cons _ _).symm

end

end Expr

namespace Bijection

variable {b c : Bijection} {v w : Variable}

theorem find?_congr (h : v.unprimedName = w.unprimedName) : b.find? v = b.find? w := by
  unfold find? pair?
  rw [h]

theorem covers_of_find? (h : b.find? v = some w) : b.covers v = true := by
  obtain ⟨p, hp, -⟩ := Option.map_eq_some_iff.mp h
  simp [covers, contains, hp]

theorem covers_of_find?_eq_none (h : b.find? v = none) :
    b.covers v = isReserved v.unprimedName := by
  simp [covers, contains, Option.map_eq_none_iff.mp h]

/-- What a variable becomes has no prime left, where no name of the pairs has one. -/
theorem unprimedName_counterpart (h : (b.find? v).getD v = w)
    (hw : stripPrime? w.unprimedName = none) :
    (b.counterpart v).unprimedName = w.unprimedName := by
  subst h
  exact Variable.unprimedName_of_stripPrime? hw

theorem counterpart_of_mapped (hb : b.Unmarked) (h : b.find? v = some w) :
    (b.counterpart v).unprimedName = w.unprimedName := by
  obtain ⟨p, hp, -, rfl⟩ := pair_of_find? h
  have stored := (hb p hp).2
  have plain : stripPrime? p.2.unprimedName = none := by
    rw [Variable.unprimedName_of_stripPrime? stored]
    exact stored
  exact unprimedName_counterpart (by rw [h, Option.getD_some]) plain

theorem counterpart_of_unmapped (hv : stripPrime? v.unprimedName = none) (h : b.find? v = none) :
    (b.counterpart v).unprimedName = v.unprimedName :=
  unprimedName_counterpart (by rw [h, Option.getD_none]) hv

/-- No two pairs share a name on either side, so that turning them around loses none. -/
theorem inverts_inverse (injective : b.ResolvesInjectively) : b.inverse.Inverts b := by
  have distinct : (b.pairs.map fun p => p.2.unprimedName).Nodup := by
    refine b.nodup_pairs.of_map.map_on fun p hp q hq same => ?_
    exact List.inj_on_of_nodup_map b.nodup_pairs hp hq
      (injective _ _ _ _ (resolve_of_mem_pairs hp) (resolve_of_mem_pairs hq) same)
  have turned : ((b.pairs.map Prod.swap).map fun p => p.1.unprimedName).Nodup := by
    rwa [List.map_map]
  intro r s
  simp only [inverse, mem_pairs_ofPairs turned, List.mem_map]
  constructor
  · rintro ⟨_, ⟨p, hp, rfl⟩, hs, hr⟩
    exact ⟨p, hp, hr, hs⟩
  · rintro ⟨p, hp, hr, hs⟩
    exact ⟨p.swap, ⟨p, hp, rfl⟩, hs, hr⟩

/-- A variable that is mapped to a reserved name is the reserved one itself. -/
theorem find?_counterpart_of_unmapped (injective : b.ResolvesInjectively) (inverse : c.Inverts b)
    (hv : stripPrime? v.unprimedName = none) (reserved : isReserved v.unprimedName = true)
    (h : b.find? v = none) : c.find? (b.counterpart v) = none := by
  refine Option.eq_none_iff_forall_not_mem.mpr fun w hw => ?_
  obtain ⟨q, hq, hq1, -⟩ := pair_of_find? hw
  obtain ⟨p, hp, -, hp2⟩ := (inverse q.2.unprimedName q.1.unprimedName).mp ⟨q, hq, rfl, rfl⟩
  have itself : b.resolve v = .ok v := by
    unfold resolve
    rw [h, reserved]
    rfl
  have hname : p.1.unprimedName = v.unprimedName :=
    injective p.1 v p.2 v (resolve_of_mem_pairs hp) itself
      (hp2.trans (hq1.trans (counterpart_of_unmapped hv h)))
  rw [← find?_congr hname, find?_of_mem_pairs hp] at h
  cases h

/-- The inverse knows what is written for a variable, and takes it back. -/
theorem counterpart_counterpart (hb : b.Unmarked) (injective : b.ResolvesInjectively)
    (inverse : c.Inverts b) (hv : stripPrime? v.unprimedName = none)
    (covered : b.covers v = true) :
    c.covers (b.counterpart v) = true ∧
      (c.counterpart (b.counterpart v)).unprimedName = v.unprimedName := by
  cases h : b.find? v with
  | some w =>
    obtain ⟨p, hp, hname, rfl⟩ := pair_of_find? h
    obtain ⟨q, hq, hq1, hq2⟩ := (inverse _ _).mpr ⟨p, hp, hname, rfl⟩
    have back : c.find? (b.counterpart v) = some q.2 := by
      rw [← find?_of_mem_pairs hq]
      exact find?_congr ((counterpart_of_mapped hb h).trans hq1.symm)
    refine ⟨covers_of_find? back, ?_⟩
    calc (c.counterpart (b.counterpart v)).unprimedName
        = q.2.unprimedName :=
          unprimedName_counterpart (by rw [back, Option.getD_some]) (hq2.symm ▸ hv)
      _ = v.unprimedName := hq2
  | none =>
    have reserved : isReserved v.unprimedName = true :=
      (covers_of_find?_eq_none h).symm.trans covered
    have same := counterpart_of_unmapped hv h
    have back := find?_counterpart_of_unmapped injective inverse hv reserved h
    rw [covers_of_find?_eq_none back, same]
    exact ⟨reserved, (counterpart_of_unmapped (same.symm ▸ hv) back).trans same⟩

end Bijection

/-- A failure names the first variable that is read and not covered. A success keeps everything but
the variables that are read, and the inverse makes an equal expression of it if no name ends in a
prime that a transfer would take off. -/
theorem Expr.transfer_inverted (b : Bijection) (e : Expr) :
    (∀ x, e.transfer b = .error x ↔
      ∃ v, e.reads.find? (fun v => !b.covers v) = some v ∧ x = .unresolved v.name) ∧
    ∀ e', e.transfer b = .ok e' →
      e' = e.mapReads b.counterpart ∧
      (∀ v, (b.counterpart v).line = v.line) ∧
      (∀ w ∈ e'.reads, w.isPrimed = true) ∧
      (b.Unmarked → (∀ v ∈ e.reads, stripPrime? v.unprimedName = none) → b.ResolvesInjectively →
        ∀ c : Bijection, c.Inverts b → ∃ e'', e'.transfer c = .ok e'' ∧ e''.alike e = true) := by
  simp only [Expr.transfer_eq]
  refine ⟨fun x => Bijection.ifCovered_eq_error, fun e' h => ?_⟩
  obtain ⟨covered, rfl⟩ := Bijection.ifCovered_eq_ok.mp h
  refine ⟨rfl, fun v => rfl, fun w hw => ?_, fun hb plain injective c inverse => ?_⟩
  · rw [Expr.reads_mapReads] at hw
    obtain ⟨v, -, rfl⟩ := List.mem_map.mp hw
    rfl
  · have back : ∀ v ∈ e.reads, c.covers (b.counterpart v) = true ∧
        (c.counterpart (b.counterpart v)).unprimedName = v.unprimedName := fun v hv =>
      Bijection.counterpart_counterpart hb injective inverse (plain v hv) (covered v hv)
    refine ⟨_, Bijection.ifCovered_eq_ok.mpr ⟨fun w hw => ?_, rfl⟩, ?_⟩
    · rw [Expr.reads_mapReads] at hw
      obtain ⟨v, hv, rfl⟩ := List.mem_map.mp hw
      exact (back v hv).1
    · rw [Expr.mapReads_mapReads]
      exact Expr.alike_mapReads e fun v hv => (back v hv).2

def appendedCall (output argument : Variable) : Expr :=
  .operation "StrAppend"
    [.variable output,
      .operation OperatorName.call
        [.operation OperatorName.call [.variable (.reference "chosen")] 2, .variable argument] 3] 4

/-- One call with a variable that no pair has, and one that goes over and comes back. -/
theorem Expr.transfer_inverted_appendedCall :
    (appendedCall (.reference "$out") (.reference "v")).transfer lettersPaired =
      .error (.unresolved "v") ∧
    ∃ e', (appendedCall (.reference "$out") (.reference "y")).transfer lettersPaired = .ok e' ∧
      e'.reads = [.submission "$out", .submission "b"] ∧
      ∃ e'', e'.transfer lettersPaired.inverse = .ok e'' ∧
        e''.alike (appendedCall (.reference "$out") (.reference "y")) = true := by
  have failed := (Expr.transfer_inverted lettersPaired
    (appendedCall (.reference "$out") (.reference "v"))).1 (.unresolved "v")
  have covered : ∀ v ∈ (appendedCall (.reference "$out") (.reference "y")).reads,
      lettersPaired.covers v = true := by decide +kernel
  have moved := (Expr.transfer_eq lettersPaired _).trans
    (Bijection.ifCovered_eq_ok.mpr ⟨covered, rfl⟩)
  obtain ⟨-, -, -, back⟩ := (Expr.transfer_inverted lettersPaired
    (appendedCall (.reference "$out") (.reference "y"))).2 _ moved
  have unmarked : lettersPaired.Unmarked := by
    unfold Bijection.Unmarked
    decide +kernel
  refine ⟨failed.mpr ⟨.reference "v", by decide +kernel, by decide +kernel⟩, _, moved,
    by decide +kernel, ?_⟩
  exact back unmarked (by decide +kernel) lettersPaired_resolvesInjectively _
    (Bijection.inverts_inverse lettersPaired_resolvesInjectively)

end TraceRepair
