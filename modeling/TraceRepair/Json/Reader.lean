import TraceRepair.Json.Scanner

namespace TraceRepair.Json

namespace Reader

def fail {α : Type} (f : Fault) : Reader α := fun _ => .error f

def failPast {α : Type} (reason : Reason) : Reader α := fun rest => .error (.past reason rest)

/-- A fault that waits for its place. -/
def failPending {α : Type} (reason : Reason) : Reader α := fun rest => .error (.pending reason rest)

def ofScan {α : Type} (scan : List Char → Except Fault (α × List Char)) : Reader α := scan

def ofPass (pass : List Char → Except Fault (List Char)) : Reader Unit := fun rest =>
  (pass rest).map fun rest => ((), rest)

def space : Reader Unit := fun rest => .ok ((), skipSpace rest)

/-- The next character behind white space stays where it is. -/
def peek : Reader (Option Char) := fun rest =>
  let rest := skipSpace rest
  .ok (rest.head?, rest)

def advance : Reader Unit := fun rest => .ok ((), rest.tail)

end Reader

structure Brackets where
  close : Char
  unclosed : Reason
  unseparated : Reason
  quotedItems : Bool

namespace Brackets

def list : Brackets := ⟨']', .eofList, .expectedListCommaOrEnd, false⟩

def object : Brackets := ⟨'\x7d', .eofObject, .expectedObjectCommaOrEnd, true⟩

def checkItem (b : Brackets) (c : Char) : Reader Unit :=
  if b.quotedItems && c != '"' then Reader.failPast .keyNotString else pure ()

def more (b : Brackets) (first : Bool) : Reader Bool := do
  match ← Reader.peek with
  | none => Reader.failPast b.unclosed
  | some c =>
    if c = b.close then return false
    else if first then
      b.checkItem c
      return true
    else if c = ',' then
      Reader.advance
      match ← Reader.peek with
      | none => Reader.failPast .eofValue
      | some c =>
        if c = b.close then Reader.failPast .trailingComma
        else
          b.checkItem c
          return true
    else Reader.failPast b.unseparated

/-- Where the reader gets to when it looks for the closing bracket of a list or an object whose
reading failed. -/
def reach (b : Brackets) (rest : List Char) : List Char :=
  match skipSpace rest with
  | c :: cs =>
    if c = b.close then cs
    else if c = ',' ∧ !b.quotedItems then skipSpace cs
    else c :: cs
  | [] => []

/-- Takes the closing bracket of a list from which enough has been read. -/
def finish (b : Brackets) : Reader Unit := do
  match ← Reader.peek with
  | none => Reader.failPast b.unclosed
  | some c =>
    if c = b.close then Reader.advance
    else if c = ',' then
      Reader.advance
      match ← Reader.peek with
      | some c =>
        if c = b.close then Reader.failPast .trailingComma else Reader.failPast .trailingCharacters
      | none => Reader.failPast .trailingCharacters
    else Reader.failPast .trailingCharacters

/-- Faults inside that have no place yet get the one at which the brackets are left. -/
def settling {α : Type} (b : Brackets) (body : Reader α) : Reader α := fun rest =>
  (body rest).mapError (Fault.settle b.reach)

/-- Reads the items one by one into a state. The last argument bounds their number: there are fewer
than it has characters. As every item takes a part of the text, the text itself is bound enough. -/
def foldItems {σ : Type} (b : Brackets) (item : σ → Reader σ) (first : Bool) (s : σ) :
    List Char → Reader σ
  | [] => Reader.failPast b.unclosed
  | _ :: bound => do
    if ← b.more first then
      let s ← item s
      foldItems b item false s bound
    else
      Reader.advance
      return s

def items {σ : Type} (b : Brackets) (item : σ → Reader σ) (s : σ) : Reader σ := fun rest =>
  b.settling (b.foldItems item true s (b.close :: rest)) rest

end Brackets

namespace Reader

def colon : Reader Unit := do
  match ← peek with
  | none => failPast .eofObject
  | some c => if c = ':' then advance else failPast .expectedColon

def key : Reader String := do
  advance
  ofScan (scanString [])

def scalar (c : Char) : Reader Json := do
  if c = '"' then
    advance
    return .string (← ofScan (scanString []))
  else if c = 'n' then
    advance
    ofPass (scanWord "ull".toList)
    return .null
  else if c = 't' then
    advance
    ofPass (scanWord "rue".toList)
    return .bool true
  else if c = 'f' then
    advance
    ofPass (scanWord "alse".toList)
    return .bool false
  else if c = '-' then
    advance
    return .number (← ofScan (scanNumber true))
  else if Number.isDigit c then return .number (← ofScan (scanNumber false))
  else failPast .expectedValue

/-- A value of any shape. The bound is on its depth and on the length of its lists: neither reaches
the number of characters in it. -/
def valueWithin : List Char → Reader Json
  | [] => failPast .expectedValue
  | d :: depth => do
    match ← peek with
    | none => failPast .eofValue
    | some c =>
      if c = '[' then
        advance
        let taken ← Brackets.list.foldItems
          (fun taken => do return (← valueWithin depth) :: taken) true [] (d :: depth)
        return .array taken.reverse
      else if c = '\x7b' then
        advance
        let taken ← Brackets.object.foldItems
          (fun taken => do
            let name ← key
            colon
            return (name, ← valueWithin depth) :: taken)
          true [] (d :: depth)
        return .object taken.reverse
      else scalar c

def value : Reader Json := fun rest => valueWithin (' ' :: rest) rest

def skipItems (skip : Reader Unit) (first : Bool) : List Char → Reader Unit
  | [] => failPast .eofList
  | _ :: bound => do
    match ← peek with
    | none => failPast .eofList
    | some c =>
      if c = ']' then advance
      else if first then
        skip
        skipItems skip false bound
      else if c = ',' then
        advance
        skip
        skipItems skip false bound
      else failPast .expectedListCommaOrEnd

def skipMember (skip : Reader Unit) : Reader Unit := do
  match ← peek with
  | none => failPast .eofObject
  | some c =>
    if c = '"' then
      advance
      ofPass passString
      colon
      skip
    else failPast .keyNotString

def skipMembers (skip : Reader Unit) (first : Bool) : List Char → Reader Unit
  | [] => failPast .eofObject
  | _ :: bound => do
    match ← peek with
    | none => failPast .eofObject
    | some c =>
      if c = '\x7d' then advance
      else if first then
        skipMember skip
        skipMembers skip false bound
      else if c = ',' then
        advance
        skipMember skip
        skipMembers skip false bound
      else failPast .expectedObjectCommaOrEnd

def skipWithin : List Char → Reader Unit
  | [] => failPast .expectedValue
  | d :: depth => do
    match ← peek with
    | none => failPast .eofValue
    | some c =>
      if c = '"' then
        advance
        ofPass passString
      else if c = '[' then
        advance
        skipItems (skipWithin depth) true (d :: depth)
      else if c = '\x7b' then
        advance
        skipMembers (skipWithin depth) true (d :: depth)
      else if c = 'n' then
        advance
        ofPass (scanWord "ull".toList)
      else if c = 't' then
        advance
        ofPass (scanWord "rue".toList)
      else if c = 'f' then
        advance
        ofPass (scanWord "alse".toList)
      else if c = '-' then
        advance
        ofPass passNumber
      else if Number.isDigit c then ofPass passNumber
      else failPast .expectedValue

def skip : Reader Unit := fun rest => skipWithin (' ' :: rest) rest

end Reader

def Reader.run {α : Type} (reader : Reader α) (text : String) : Except ReadError α :=
  let cs := text.toList
  let whole : Reader α := do
    let a ← reader
    match ← Reader.peek with
    | none => return a
    | some _ => Reader.failPast .trailingCharacters
  match whole cs with
  | .ok (a, _) => .ok a
  | .error f => .error ⟨f.reason, f.position cs⟩

end TraceRepair.Json
