import TraceRepair.RuntimeError
import TraceRepair.Value.Literal

namespace TraceRepair.Arrays

def position (index : Value) (length : Nat) : Except RuntimeError Nat :=
  match index.asInt? with
  | none => .error (.typeMismatch "int index" index.typeName)
  | some n =>
    if 0 ≤ n.toInt ∧ n.toInt < length then .ok n.toInt.toNat
    else .error (.indexOutOfBounds n.toInt length)

def characterBehind? (s : String) (byte : String.Pos.Raw) : Nat → Option Char
  | 0 => byte.get? s
  | i + 1 => characterBehind? s (byte.next s) i

/-- The character at a place of a text. Where every character takes one byte, its place is that of
its byte. -/
def character? (s : String) (i : Nat) : Option Char :=
  if s.utf8ByteSize = s.length then String.Pos.Raw.get? s ⟨i⟩ else characterBehind? s 0 i

def get (array index : Value) : Except RuntimeError Value :=
  match array with
  | .array items => do
    let i ← position index items.length
    return items.getD i .undefined
  | .str s => do
    let i ← position index s.length
    return .int (Int64.ofNat ((character? s i).getD '\x00').toNat)
  | v => .error (.typeMismatch "array" v.typeName)

def getPath (array : Value) (path : List Value) : Except RuntimeError Value := path.foldlM get array

def assign (array : Value) (path : List Value) (value : Value) : Except RuntimeError Value :=
  match path with
  | [] => .ok value
  | index :: path =>
    match array with
    | .array items => do
      let i ← position index items.length
      let item ← assign (items.getD i .undefined) path value
      return .array (items.set i item)
    | v => .error (.typeMismatch "array" v.typeName)

def lengthOf (dimension : Value) : Except RuntimeError Nat :=
  match dimension.asInt? with
  | some n =>
    if 0 ≤ n.toInt then .ok n.toInt.toNat
    else .error (.typeMismatch "array length" dimension.typeName)
  | none => .error (.typeMismatch "array length" dimension.typeName)

/-- The number of cells, as long as the product of the lengths so far fits a machine word. -/
def cellCount? (lengths : List Nat) : Option Nat :=
  lengths.foldlM
    (fun total length => if total * length < UInt64.size then some (total * length) else none) 1

/-- What an array may take: its cells, and the rows that memory has room for. -/
structure Room where
  cells : Nat := 0x100000
  reserves : Nat → Bool := fun _ => true

/-- Rows are built from the innermost out, whether the outer ones have room for any or not. A row
without room in memory is refused with the lengths from its own level on. -/
def filled (room : Room) : List Nat → Except RuntimeError Value
  | [] => .ok .undefined
  | length :: lengths => do
    let item ← filled room lengths
    if room.reserves length then return .array (List.replicate length item)
    else throw (.arrayTooLarge (length :: lengths) room.cells)

def create (dimensions : List Value) (room : Room) : Except RuntimeError Value := do
  let lengths ← dimensions.mapM lengthOf
  if lengths.any (room.cells < ·) || (cellCount? lengths).all (room.cells < ·) then
    throw (.arrayTooLarge lengths room.cells)
  else filled room lengths

def head (list : Value) (type : Option String) : Except RuntimeError Value :=
  match list with
  | .array [] => .error (.invalidInput .exhausted)
  | .array (first :: _) =>
    match type, first with
    | some type, .str token =>
      match Value.ofInput? token type with
      | some v => .ok v
      | none => .error (.invalidInput (.unreadable token type))
    | _, _ => .ok first
  | v => .error (.typeMismatch "input list" v.typeName)

def tail : Value → Except RuntimeError Value
  | .array items => .ok (.array items.tail)
  | v => .error (.typeMismatch "input list" v.typeName)

end TraceRepair.Arrays
