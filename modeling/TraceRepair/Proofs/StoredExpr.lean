import TraceRepair.Proofs.JsonValues
import TraceRepair.Proofs.Primes

namespace TraceRepair.Expr

open Json

mutual

def lines : Expr → List Nat
  | .constant _ line => [line]
  | .variable v => [v.line]
  | .operation _ args line => line :: linesAll args

def linesAll : List Expr → List Nat
  | [] => []
  | e :: es => lines e ++ linesAll es

end

def tag : Expr → Tag
  | .constant _ _ => .constant
  | .variable _ => .variable
  | .operation _ _ _ => .operation

def fields : Expr → List (String × Json)
  | .constant text line => [("value", .string text), ("line", .nat line)]
  | .variable v => v.members
  | .operation name args line =>
    [("name", .string name), ("args", .array (toJsonAll args)), ("line", .nat line)]

theorem toJson_eq (e : Expr) : e.toJson = .object ((tagKey, .string e.tag.name) :: e.fields) := by
  cases e <;> rfl

theorem Tag.ofName_name (tag : Tag) : ofName tag.name = .ok tag := by
  cases tag <;> rfl

section Fields

theorem isTagged_fields (e : Expr) : ∀ m ∈ e.fields, m.1 ≠ tagKey := by
  cases e <;> simp [fields, Variable.members, tagKey]

theorem isTagged_contents {ms : List (String × Json)} (h : ∀ m ∈ ms, m.1 ≠ tagKey) :
    ∀ f ∈ contents ms, isTagged f = false := by
  induction ms with
  | nil => nofun
  | cons m ms ih =>
    intro f hf
    rcases List.mem_cons.mp hf with rfl | hf
    · exact beq_eq_false_iff_ne.mpr (h m List.mem_cons_self)
    · exact ih (fun m hm => h m (List.mem_cons_of_mem _ hm)) f hf

theorem line_content {line : Nat} (h : line < UInt32.size) (arguments : Except Reason (List Expr)) :
    Content.line ⟨.nat line, arguments⟩ = .ok line := by
  simp [Content.line, Json.nat, JsonNumber.below, h]

/-- A node is made up again of its tag and its other members. -/
theorem ofJson_toJson_of_fields {e : Expr} (h : ofFields e.tag (contents e.fields) = .ok e) :
    ofJson e.toJson = .ok e := by
  have untagged := isTagged_contents e.isTagged_fields
  have none_left : (contents e.fields).filter isTagged = [] := by
    simpa [List.filter_eq_nil_iff] using untagged
  have all_kept : (contents e.fields).filter (fun f => !isTagged f) = contents e.fields := by
    simpa [List.filter_eq_self] using untagged
  have tagged : tagAmong (contents ((tagKey, .string e.tag.name) :: e.fields)) = .ok e.tag := by
    have first : isTagged (tagKey, ⟨.string e.tag.name, argumentsOf (.string e.tag.name)⟩) = true :=
      rfl
    rw [tagAmong, contents, List.filter_cons_of_pos first, none_left]
    simp only [List.foldlM_cons, List.foldlM_nil, Tag.ofJson, Tag.ofName_name]
    rfl
  have behind : (contents ((tagKey, .string e.tag.name) :: e.fields)).filter
      (fun f => !isTagged f) = contents e.fields := by
    rw [contents, List.filter_cons_of_neg (by simp [isTagged]), all_kept]
  rw [toJson_eq, ofJson, tagged]
  change ofFields _ (List.filter _ _) = _
  rw [behind, h]

mutual

/-- By recursion over the tree: each form finds its own members again and ignores the rest. -/
theorem ofFields_fields : ∀ (e : Expr), (∀ line ∈ e.lines, line < UInt32.size) →
    (∀ v ∈ e.occurrences, stripPrime? v.stored = none) →
    ofFields e.tag (contents e.fields) = .ok e
  | .constant text line, hlines, _ => by
    have hline : line < UInt32.size := hlines line List.mem_cons_self
    simp only [tag, fields, contents, ofFields, List.foldlM_cons, List.foldlM_nil, Draft.field,
      line_content hline]
    rfl
  | .variable v, hlines, hnames => by
    have hline : v.line < UInt32.size := hlines _ List.mem_cons_self
    have hname : stripPrime? v.stored = none := hnames v List.mem_cons_self
    simp only [tag, fields, Variable.members, contents, ofFields, List.foldlM_cons, List.foldlM_nil,
      Draft.field, line_content hline]
    exact congrArg (fun w : Variable => Except.ok (Expr.variable w))
      (Variable.ofOrigin_stored hname)
  | .operation name args line, hlines, hnames => by
    have hline : line < UInt32.size := hlines line List.mem_cons_self
    have hargs : argumentsOf (.array (toJsonAll args)) = .ok args := by
      rw [argumentsOf]
      exact ofJsonAll_toJsonAll args (fun line h => hlines line (List.mem_cons_of_mem _ h)) hnames
    simp only [tag, fields, contents, ofFields, List.foldlM_cons, List.foldlM_nil, Draft.field,
      line_content hline, hargs]
    rfl

theorem ofJsonAll_toJsonAll : ∀ (es : List Expr), (∀ line ∈ linesAll es, line < UInt32.size) →
    (∀ v ∈ occurrencesAll es, stripPrime? v.stored = none) → ofJsonAll (toJsonAll es) = .ok es
  | [], _, _ => rfl
  | e :: es, hlines, hnames => by
    have first := ofJson_toJson_of_fields (ofFields_fields e
      (fun line h => hlines line (List.mem_append_left _ h))
      (fun v h => hnames v (List.mem_append_left _ h)))
    have later := ofJsonAll_toJsonAll es (fun line h => hlines line (List.mem_append_right _ h))
      (fun v h => hnames v (List.mem_append_right _ h))
    rw [toJsonAll, ofJsonAll, first, later]
    rfl

end

end Fields

section Plain

theorem plain_line {line : Nat} (h : line < UInt32.size) : Plain (.nat line) :=
  .nat (Nat.lt_trans h (by decide))

theorem plain_variable (v : Variable) (h : v.line < UInt32.size) : ∀ m ∈ v.members, Plain m.2 := by
  simp [Variable.members, Plain.string, Plain.bool, plain_line h]

mutual

theorem plain_fields : ∀ (e : Expr), (∀ line ∈ e.lines, line < UInt32.size) →
    ∀ m ∈ e.fields, Plain m.2
  | .constant text line, h => by
    have hline := plain_line (h line List.mem_cons_self)
    simp [fields, Plain.string, hline]
  | .variable v, h => plain_variable v (h _ List.mem_cons_self)
  | .operation name args line, h => by
    have hline := plain_line (h line List.mem_cons_self)
    have hargs : Plain (.array (toJsonAll args)) :=
      .array (plain_toJsonAll args fun line hmem => h line (List.mem_cons_of_mem _ hmem))
    simp [fields, Plain.string, hargs, hline]

theorem plain_toJsonAll : ∀ (es : List Expr), (∀ line ∈ linesAll es, line < UInt32.size) →
    ∀ j ∈ toJsonAll es, Plain j
  | [], _ => nofun
  | e :: es, h => by
    have behind := plain_fields e fun line hmem => h line (List.mem_append_left _ hmem)
    have later := plain_toJsonAll es fun line hmem => h line (List.mem_append_right _ hmem)
    have first : Plain e.toJson := by
      rw [toJson_eq]
      exact .object (List.forall_mem_cons.mpr ⟨.string _, behind⟩)
    exact List.forall_mem_cons.mpr ⟨first, later⟩

end

end Plain

section Reading

variable {layout : Layout} (loose : layout.Loose) {depth : Nat}

theorem reads_tag (tag : Tag) : Reads layout depth Tag.reader (.string tag.name) tag :=
  (Reads.stringAs _ tag.name).checked (Tag.ofName_name tag)

def gatherMember (g : Gathered) (name : String) : Reader Gathered :=
  if name = tagKey then return { g with tag := ← Reader.once tagKey g.tag Tag.reader }
  else do
    Reader.colon
    return { g with members := (name, ← Reader.value) :: g.members }

include loose

/-- Members of a form, gathered one after the other, are what was written. -/
theorem readsFields_members (t : Option Tag) {ms : List (String × Json)}
    (untagged : ∀ m ∈ ms, m.1 ≠ tagKey) (plain : ∀ m ∈ ms, Plain m.2)
    (taken : List (String × Json)) :
    ReadsFields layout depth gatherMember ⟨t, taken⟩ ms ⟨t, ms.reverse ++ taken⟩ := by
  induction ms generalizing taken with
  | nil => exact .nil _
  | cons m ms ih =>
    have later := ih (fun m h => untagged m (List.mem_cons_of_mem _ h))
      (fun m h => plain m (List.mem_cons_of_mem _ h)) (m :: taken)
    rw [List.reverse_cons, List.append_assoc]
    refine .cons ?_ later
    intro rest hr
    have read : Reads layout depth Reader.value m.2 m.2 := (plain m List.mem_cons_self).reads loose
    rw [gatherMember, if_neg (untagged m List.mem_cons_self),
      behind_key loose fun hb => read.reads hb hr]
    rfl

theorem readsFields_gather (e : Expr) (h : ∀ line ∈ e.lines, line < UInt32.size) :
    ReadsFields layout depth gatherMember {} ((tagKey, .string e.tag.name) :: e.fields)
      ⟨some e.tag, e.fields.reverse⟩ := by
  have behind : ReadsFields layout depth gatherMember ⟨some e.tag, []⟩ e.fields
      ⟨some e.tag, e.fields.reverse ++ []⟩ :=
    readsFields_members loose (some e.tag) e.isTagged_fields (plain_fields e h) []
  rw [List.append_nil] at behind
  have first : ReadsField layout depth gatherMember {} (tagKey, .string e.tag.name)
      ⟨some e.tag, []⟩ :=
    ReadsField.once (f := fun t => Gathered.mk t []) loose (reads_tag e.tag) (if_pos rfl)
  exact .cons first behind

/-- An expression is read back from its text with its line numbers. -/
theorem reads_toJson (e : Expr) (hlines : ∀ line ∈ e.lines, line < UInt32.size)
    (hnames : ∀ v ∈ e.occurrences, stripPrime? v.stored = none) :
    Reads layout depth reader e.toJson e where
  starts := by
    rw [toJson_eq]
    exact ⟨_, _, text_object layout depth _, rfl⟩
  reads {blanks rest} hb hr := by
    have fields : ReadsFields layout (depth + 1) gatherMember {} _ _ :=
      readsFields_gather loose e hlines
    have chain : Brackets.object.Chain gather {} _ _ := fields.chain
    have whole := ofFields_fields e hlines hnames
    rw [toJson_eq, text_object, List.cons_append]
    unfold reader
    rw [Reader.bind_ok (Reader.peek_blank hb rfl _)]
    change (Reader.advance >>= _) _ = _
    rw [Reader.bind_ok (Reader.advance_cons _ _), 
      Reader.bind_ok (Brackets.items_object loose chain rest)]
    -- The members behind the tag were gathered latest first.
    change understood (ofFields e.tag (contents e.fields.reverse.reverse)) rest = _
    rw [List.reverse_reverse, whole]
    rfl

end Reading

end TraceRepair.Expr
