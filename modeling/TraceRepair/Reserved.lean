namespace TraceRepair

namespace Reserved

def input : String := "$in"

def output : String := "$out"

def result : String := "$ret"

/-- Read after a block with two edges. -/
def condition : String := "$cond"

def all : List String := [input, output, result, condition, "$break", "$continue"]

end Reserved

/-- Primes do not count. -/
def isReserved (name : String) : Bool :=
  Reserved.all.contains (String.ofList (name.toList.reverse.dropWhile (· = '\'')).reverse)

def defaultEntry : String := "main"

namespace OperatorName

def conditional : String := "ite"
def call : String := "FuncCall"
def arrayCreate : String := "ArrayCreate"
def and : String := "&&"
def or : String := "||"

end OperatorName

end TraceRepair
