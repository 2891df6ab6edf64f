namespace TabDeck.Text

def isBlank (c : Char) : Bool :=
  let n := c.toNat
  (0x09 ≤ n && n ≤ 0x0d) || n == 0x20 || n == 0x85 || n == 0xa0 || n == 0x1680 ||
    (0x2000 ≤ n && n ≤ 0x200a) || n == 0x2028 || n == 0x2029 || n == 0x202f || n == 0x205f || n == 0x3000

def trim (s : String) : String :=
  String.ofList ((s.toList.dropWhile isBlank).reverse.dropWhile isBlank).reverse

def bracketed (items : List String) : String := "[" ++ ", ".intercalate items ++ "]"

def summaryFields (fields : List (String × String)) : List String :=
  fields.map fun (name, value) => name ++ ": " ++ value

def summary (name : String) (fields : List (String × String)) : String :=
  name ++ " \x7b " ++ ", ".intercalate (summaryFields fields) ++ " \x7d"

def openSummary (name : String) (fields : List (String × String)) : String :=
  name ++ " \x7b " ++ ", ".intercalate (summaryFields fields ++ [".."]) ++ " \x7d"

namespace Hex

def value? (c : Char) : Option Nat :=
  if c.isDigit then some (c.toNat - '0'.toNat)
  else if 'a' ≤ c && c ≤ 'f' then some (c.toNat - 'a'.toNat + 10)
  else if 'A' ≤ c && c ≤ 'F' then some (c.toNat - 'A'.toNat + 10)
  else none

def number? (digits : List Char) : Option Nat :=
  digits.foldlM (fun n c => (value? c).map (n * 16 + ·)) 0

def digits (width n : Nat) : List Char :=
  let ds := Nat.toDigits 16 n
  List.replicate (width - ds.length) '0' ++ ds

def upperDigits (width n : Nat) : List Char := (digits width n).map Char.toUpper

end Hex

end TabDeck.Text
