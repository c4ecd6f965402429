import TraceRepair.Proofs.Edits

namespace TraceRepair

def Suspect.edit (reference submission : FlowGraph) (b : Bijection) (m : Suspect) :
    Except SynthesisError (Option (LocalRepair Nat)) :=
  Synthesis.localRepair? reference submission b m.refLoc m.subLoc m.reference m.target

section Failures

variable {reference submission : FlowGraph} {b : Bijection} {P : SynthesisError → Prop}

theorem Synthesis.failsOnly_repairPairs {refLoc subLoc : Loc} {pairs : List (Variable × Variable)}
    (edited : ∀ p ∈ pairs, FailsOnly P (localRepair? reference submission b refLoc subLoc p.1 p.2))
    (seen : Seen) :
    FailsOnly P (repairPairs reference submission b refLoc subLoc pairs seen) := by
  induction pairs generalizing seen with
  | nil => exact .ok _
  | cons p pairs ih =>
    have later := ih fun q hq => edited q (List.mem_cons_of_mem p hq)
    unfold repairPairs
    dsimp only
    split
    · exact later seen
    · exact (edited p List.mem_cons_self).bind fun _ _ => (later _).bind fun _ _ => .ok _

/-- Synthesis itself adds no failures. -/
theorem Synthesis.failsOnly_repairDivergences {ds : List Divergence}
    (named : ∀ d ∈ ds, FailsOnly P (d.suspects reference submission b))
    (edited : ∀ d ∈ ds, ∀ ms, d.suspects reference submission b = .ok ms →
      ∀ m ∈ ms, FailsOnly P (m.edit reference submission b))
    (seen : Seen) : FailsOnly P (repairDivergences reference submission b ds seen) := by
  induction ds generalizing seen with
  | nil => exact .ok _
  | cons d ds ih =>
    have later := ih (fun d' hd => named d' (List.mem_cons_of_mem d hd))
      fun d' hd => edited d' (List.mem_cons_of_mem d hd)
    unfold repairDivergences
    split
    · exact later seen
    · exact later seen
    · rename_i loc found matched
      have here : d.suspects reference submission b = _ := Divergence.suspects_eq matched found
      refine FailsOnly.bind (fun e he => named d List.mem_cons_self e (by rw [here, he]; rfl))
        fun pairs hpairs => ?_
      refine (failsOnly_repairPairs (fun p hp => ?_) seen).bind fun found _ =>
        (later found.2).bind fun _ _ => .ok _
      refine edited d List.mem_cons_self _ (here.trans (by rw [hpairs]; rfl))
        ⟨p.1, p.2, d.reference, loc⟩ (List.mem_map.mpr ⟨p, hp, rfl⟩)

end Failures

end TraceRepair
