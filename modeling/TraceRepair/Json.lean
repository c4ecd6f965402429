import TraceRepair.Number.Shortest

namespace TraceRepair

/-- Whole numbers of 64 bits, signed only below zero; every other number is a double. -/
inductive JsonNumber where
  | natural (n : Nat)
  | negative (n : Int)
  | real (x : Float)
deriving Inhabited

def JsonNumber.text : JsonNumber → List Char
  | .natural n => Number.digits n
  | .negative n => (Number.signedDecimal n).toList
  | .real x => (Number.markedFloatText x).toList

/-- Members keep the order in which they stand. -/
inductive Json where
  | null
  | bool (b : Bool)
  | number (n : JsonNumber)
  | string (s : String)
  | array (items : List Json)
  | object (members : List (String × Json))
deriving Inhabited

namespace Json

def nat (n : Nat) : Json := .number (.natural n)

def strings (texts : List String) : Json := .array (texts.map .string)

/-- Only quotes, backslashes and control characters are escaped. -/
def escapedChar (c : Char) : List Char :=
  match c with
  | '"' => ['\\', '"']
  | '\\' => ['\\', '\\']
  | '\x08' => ['\\', 'b']
  | '\t' => ['\\', 't']
  | '\n' => ['\\', 'n']
  | '\x0c' => ['\\', 'f']
  | '\r' => ['\\', 'r']
  | c =>
    if c.toNat < 0x20 then
      ['\\', 'u', '0', '0', Nat.digitChar (c.toNat / 16), Nat.digitChar (c.toNat % 16)]
    else [c]

def stringOnto (rest : List Char) (s : String) : List Char :=
  '"' :: (s.toList.flatMap escapedChar ++ '"' :: rest)

structure Layout where
  lead : Nat → List Char
  colon : List Char

namespace Layout

def compact : Layout where
  lead _ := []
  colon := [':']

def pretty : Layout where
  lead depth := '\n' :: List.replicate (2 * depth) ' '
  colon := [':', ' ']

end Layout

mutual

def renderOnto (layout : Layout) (depth : Nat) (rest : List Char) : Json → List Char
  | .null => "null".toList ++ rest
  | .bool b => (if b then "true".toList else "false".toList) ++ rest
  | .number n => n.text ++ rest
  | .string s => stringOnto rest s
  | .array [] => '[' :: ']' :: rest
  | .array (item :: items) =>
    let rest := layout.lead depth ++ ']' :: rest
    let rest := renderItems layout (depth + 1) rest items
    '[' :: (layout.lead (depth + 1) ++ renderOnto layout (depth + 1) rest item)
  | .object [] => '\x7b' :: '\x7d' :: rest
  | .object ((key, value) :: members) =>
    let rest := layout.lead depth ++ '\x7d' :: rest
    let rest := renderMembers layout (depth + 1) rest members
    let rest := layout.colon ++ renderOnto layout (depth + 1) rest value
    '\x7b' :: (layout.lead (depth + 1) ++ stringOnto rest key)

def renderItems (layout : Layout) (depth : Nat) (rest : List Char) : List Json → List Char
  | [] => rest
  | item :: items =>
    let rest := renderItems layout depth rest items
    ',' :: (layout.lead depth ++ renderOnto layout depth rest item)

def renderMembers (layout : Layout) (depth : Nat) (rest : List Char) :
    List (String × Json) → List Char
  | [] => rest
  | (key, value) :: members =>
    let rest := renderMembers layout depth rest members
    let rest := layout.colon ++ renderOnto layout depth rest value
    ',' :: (layout.lead depth ++ stringOnto rest key)

end

def render (layout : Layout) (j : Json) : String := String.ofList (j.renderOnto layout 0 [])

def compact (j : Json) : String := j.render .compact

def pretty (j : Json) : String := j.render .pretty

def member? (key : String) : Json → Option Json
  | .object members => members.lookup key
  | _ => none

end Json

end TraceRepair
