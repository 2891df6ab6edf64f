namespace TabDeck

structure IllegalArgument where
  text : String
  deriving DecidableEq

def IllegalArgument.message (e : IllegalArgument) : String := "illegal argument: " ++ e.text

namespace Check

variable {α : Type}

def isTrue (condition : Bool) (text : String) : Except IllegalArgument Unit :=
  if condition then .ok () else .error ⟨text⟩

def isSome (value : Option α) (text : String) : Except IllegalArgument α :=
  match value with
  | some a => .ok a
  | none => .error ⟨text⟩

def notEmpty (value text : String) : Except IllegalArgument String :=
  if value.isEmpty then .error ⟨text⟩ else .ok value

def atLeast [LE α] [DecidableLE α] (value least : α) (text : String) : Except IllegalArgument α :=
  if least ≤ value then .ok value else .error ⟨text⟩

def atMost [LE α] [DecidableLE α] (value most : α) (text : String) : Except IllegalArgument α :=
  if value ≤ most then .ok value else .error ⟨text⟩

def notEqual [BEq α] (a b : α) (text : String) : Except IllegalArgument Unit :=
  if a == b then .error ⟨text⟩ else .ok ()

end Check

end TabDeck
