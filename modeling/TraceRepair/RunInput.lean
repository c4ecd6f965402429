import TraceRepair.Text.Blank
import TraceRepair.Text.Quoted

namespace TraceRepair

structure RunInput where
  tokens : List String := []
  args : List String := []
deriving DecidableEq, Repr, Inhabited

namespace RunInput

def ofStream (text : String) : RunInput := { tokens := Text.words text }

def display (i : RunInput) : String :=
  "Input\x7binputs=" ++ Text.quotedList i.tokens ++ ", args=" ++ Text.quotedList i.args ++ "\x7d"

end RunInput

end TraceRepair
