import TraceRepair.Expr.Pretty
import TraceRepair.Proofs.AlikeExprs

namespace TraceRepair.Expr

/-- Neither text nor size nor the names of the variables tell the expressions apart. -/
structure LooksLike (a b : Expr) : Prop where
  pretty : a.pretty = b.pretty
  size : a.size = b.size
  names : a.occurrences.map Variable.unprimedName = b.occurrences.map Variable.unprimedName

section Operations

variable {as bs : List Expr}

theorem prettyAll_congr (each : List.Forall₂ LooksLike as bs) : prettyAll as = prettyAll bs := by
  induction each with
  | nil => rfl
  | cons first later ih => rw [prettyAll, prettyAll, first.pretty, ih]

theorem sizeAll_congr (each : List.Forall₂ LooksLike as bs) : sizeAll as = sizeAll bs := by
  induction each with
  | nil => rfl
  | cons first later ih => rw [sizeAll, sizeAll, first.size, ih]

theorem names_congr (each : List.Forall₂ LooksLike as bs) :
    (occurrencesAll as).map Variable.unprimedName =
      (occurrencesAll bs).map Variable.unprimedName := by
  induction each with
  | nil => rfl
  | cons first later ih =>
    rw [occurrencesAll, occurrencesAll, List.map_append, List.map_append, first.names, ih]

/-- Infix, prefix and call forms are all put together from the texts of the arguments. -/
theorem LooksLike.operation (each : List.Forall₂ LooksLike as bs) (name : String)
    (line line' : Nat) : LooksLike (.operation name as line) (.operation name bs line') where
  pretty := by rw [Expr.pretty, Expr.pretty, prettyAll_congr each]
  size := by rw [Expr.size, Expr.size, sizeAll_congr each]
  names := names_congr each

/-- By induction on the two expressions at once. -/
theorem looksLike_of_alike {a b : Expr} (h : a.alike b = true) : a.LooksLike b := by
  refine alike_induct (fun _ _ _ => ⟨rfl, rfl, rfl⟩) (fun v w named => ?_) ?_ h
  · exact ⟨named, rfl, congrArg (· :: []) named⟩
  · intro name as bs line line' each
    exact .operation each name line line'

end Operations

section Marks

variable {f : Variable → Variable}

mutual

/-- A change of variables under which each keeps its unprimed name. -/
theorem alike_mapVariables : ∀ {e : Expr},
    (∀ v ∈ e.occurrences, (f v).unprimedName = v.unprimedName) →
      (e.mapVariables fun v => .variable (f v)).alike e = true
  | .constant text line, _ => alike_refl (.constant text line)
  | .variable v, h => beq_iff_eq.mpr (h v (List.mem_singleton.mpr rfl))
  | .operation name args line, h => by
    rw [mapVariables, alike, alikeAll_mapVariablesAll h, beq_self_eq_true, Bool.and_self]

theorem alikeAll_mapVariablesAll : ∀ {es : List Expr},
    (∀ v ∈ occurrencesAll es, (f v).unprimedName = v.unprimedName) →
      alikeAll (mapVariablesAll (fun v => .variable (f v)) es) es = true
  | [], _ => rfl
  | e :: es, h => by
    rw [occurrencesAll, List.forall_mem_append] at h
    rw [mapVariablesAll, alikeAll, alike_mapVariables h.1, alikeAll_mapVariablesAll h.2,
      Bool.and_self]

end

/-- A stored name that ends in no prime is the name by which the variable is known. -/
theorem unprimedName_of_clean {v w : Variable} (clean : stripPrime? v.stored = none)
    (kept : w.stored = v.unprimedName) : w.unprimedName = v.unprimedName := by
  have known : v.unprimedName = v.stored := by rw [Variable.unprimedName, clean, Option.getD_none]
  rw [Variable.unprimedName, kept, known, clean, Option.getD_none]

end Marks

/-- Alike expressions are printed alike, have one size and mention the same unprimed names, and
marking variables changes none of that where no name has a prime to lose. -/
theorem looksLike_marked (a b : Expr) :
    (a.alike b = true → a.LooksLike b) ∧
    ((∀ v ∈ a.occurrences, stripPrime? v.stored = none) →
      a.toPrimed.LooksLike a ∧ a.toUnprimed.LooksLike a ∧
        ∀ names, (a.primeOnly names).LooksLike a) := by
  refine ⟨looksLike_of_alike, fun clean => ⟨?_, ?_, fun names => ?_⟩⟩
  · exact looksLike_of_alike (alike_mapVariables fun _ _ => rfl)
  · exact looksLike_of_alike (alike_mapVariables fun v hv => unprimedName_of_clean (clean v hv) rfl)
  · refine looksLike_of_alike (alike_mapVariables fun v hv => ?_)
    split
    · exact unprimedName_of_clean (clean v hv) rfl
    · rfl

def advanced (primed : Bool) (line : Nat) : Expr :=
  .operation "+" [.operation OperatorName.call
    [.variable ⟨"gcd", false, line⟩, .variable ⟨"a", primed, 0⟩, .variable ⟨"b", !primed, line⟩] 0,
    .constant "1" line] line

/-- Neither lines nor origins show, also where the callee is marked. -/
theorem looksLike_marked_advanced :
    (advanced true 3).pretty = (advanced false 0).pretty ∧
      (advanced true 3).toPrimed.pretty = "gcd(a, b) + 1" ∧
      (advanced true 3).toUnprimed.pretty = "gcd(a, b) + 1" := by
  obtain ⟨equal, marked⟩ := looksLike_marked (advanced true 3) (advanced false 0)
  obtain ⟨toPrimed, toUnprimed, -⟩ := marked (by decide +kernel)
  have text : (advanced true 3).pretty = "gcd(a, b) + 1" := by decide +kernel
  exact ⟨(equal (by decide +kernel)).pretty, toPrimed.pretty.trans text,
    toUnprimed.pretty.trans text⟩

end TraceRepair.Expr
