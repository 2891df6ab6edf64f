namespace TabDeck.Session

structure Parameter where
  id : Option String
  command : Option String
  executable : Option String
  arguments : List String
  directory : Option String
  environment : List (String × String)
  deriving DecidableEq

namespace Parameter

def empty : Parameter := ⟨none, none, none, [], none, []⟩

def isNew (p : Parameter) : Bool := p.id.isNone

end Parameter

def isSpecial (c : Char) : Bool := c == '"' || c == '\\' || c == '$' || c == '\x60' || c == '!'

def escaped (word : List Char) : List Char :=
  word.flatMap fun c => if isSpecial c then ['\\', c] else [c]

def quotedChars (word : List Char) : List Char := '"' :: escaped word ++ ['"']

def quoteWord (word : Option String) : String :=
  word.elim "" fun w => String.ofList (quotedChars w.toList)

def quoteLine (words : List String) : String := " ".intercalate (words.map fun w => quoteWord (some w))

end TabDeck.Session
