namespace TraceRepair

def stripPrime? (name : String) : Option String :=
  if name.back? = some '\'' then some (String.ofList name.toList.dropLast) else none

/-- The stored name may still end in a prime when its text ended in several. -/
structure Variable where
  stored : String
  flag : Bool
  line : Nat
deriving DecidableEq, Repr, Inhabited

namespace Variable

/-- One prime of the name moves into the flag. -/
def ofOrigin (name : String) (primed : Bool) : Variable :=
  match stripPrime? name with
  | some base => ⟨base, true, 0⟩
  | none => ⟨name, primed, 0⟩

def reference (name : String) : Variable := ofOrigin name false

def submission (name : String) : Variable := ofOrigin name true

def ofPrinted (name : String) : Variable :=
  match stripPrime? name with
  | some base => submission base
  | none => reference name

def unprimedName (v : Variable) : String := (stripPrime? v.stored).getD v.stored

def isPrimed (v : Variable) : Bool := v.flag || (stripPrime? v.stored).isSome

/-- The printed name, under which memories keep the variable. -/
def name (v : Variable) : String := if v.isPrimed then v.unprimedName ++ "'" else v.stored

def atLine (v : Variable) (line : Nat) : Variable := { v with line }

/-- The stored name keeps a prime of its own. -/
def setPrimed (v : Variable) (primed : Bool) : Variable := { v with flag := primed }

def toPrimed (v : Variable) : Variable := ⟨v.unprimedName, true, v.line⟩

def toUnprimed (v : Variable) : Variable := ⟨v.unprimedName, false, v.line⟩

def sameName (v w : Variable) : Bool := v.unprimedName == w.unprimedName

def compareNames (v w : Variable) : Ordering := compare v.unprimedName w.unprimedName

structure Key where
  name : String
  primed : Bool
deriving DecidableEq, Repr

namespace Key

def printed (k : Key) : String := if k.primed then k.name ++ "'" else k.name

/-- By name, and of one name the unprimed variable first. -/
def compare (k l : Key) : Ordering :=
  (Ord.compare k.name l.name).then (Ord.compare k.primed l.primed)

end Key

def key (v : Variable) : Key := ⟨v.unprimedName, v.isPrimed⟩

end Variable

end TraceRepair
