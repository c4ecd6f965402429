import TraceRepair.Text.CharSet

namespace TraceRepair.Text

/-- The Unicode property White_Space. -/
def whiteSpace : CharSet :=
  ⟨[0x09, 0x0E, 0x20, 0x21, 0x85, 0x86, 0xA0, 0xA1, 0x1680, 0x1681, 0x2000, 0x200B, 0x2028, 0x202A,
    0x202F, 0x2030, 0x205F, 0x2060, 0x3000, 0x3001]⟩

def isBlank (c : Char) : Bool := whiteSpace.contains c

def dropEndWhile (p : Char → Bool) (cs : List Char) : List Char :=
  if cs.getLast?.any p then (cs.reverse.dropWhile p).reverse else cs

def trimChars (cs : List Char) : List Char := dropEndWhile isBlank (cs.dropWhile isBlank)

def trim (s : String) : String := String.ofList (trimChars s.toList)

/-- `word` holds the characters of the word being read, latest first. -/
def wordsFrom (word : List Char) (done : List String) : List Char → List String
  | [] => (flush word done).reverse
  | c :: cs =>
    if isBlank c then wordsFrom [] (flush word done) cs else wordsFrom (c :: word) done cs
where
  flush (word : List Char) (done : List String) : List String :=
    if word.isEmpty then done else String.ofList word.reverse :: done

def words (s : String) : List String := wordsFrom [] [] s.toList

end TraceRepair.Text
