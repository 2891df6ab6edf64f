namespace TabDeck.Number

structure Numeral where
  negative : Bool
  whole : List Char
  fraction : List Char
  exponent : Option (Bool × List Char)
  deriving DecidableEq

namespace Numeral

def exponent? : List Char → Option (Option (Bool × List Char))
  | [] => some none
  | e :: rest =>
    if e != 'e' && e != 'E' then none
    else
      let (negative, digits) := match rest with
        | '-' :: digits => (true, digits)
        | '+' :: digits => (false, digits)
        | digits => (false, digits)
      if digits != [] && digits.all Char.isDigit then some (some (negative, digits)) else none

def fraction? : List Char → Option (List Char × Option (Bool × List Char))
  | '.' :: rest =>
    let digits := rest.takeWhile Char.isDigit
    if digits == [] then none else (exponent? (rest.dropWhile Char.isDigit)).map fun e => (digits, e)
  | rest => (exponent? rest).map fun e => ([], e)

def unsigned? (negative : Bool) (text : List Char) : Option Numeral :=
  let whole := text.takeWhile Char.isDigit
  if whole == [] || (whole.head? == some '0' && whole.length != 1) then none
  else (fraction? (text.dropWhile Char.isDigit)).map fun (f, e) => ⟨negative, whole, f, e⟩

def ofText? : List Char → Option Numeral
  | '-' :: rest => unsigned? true rest
  | text => unsigned? false text

end Numeral

def digitValue (c : Char) : Nat := c.toNat - '0'.toNat

def ofDigits (digits : List Char) : Nat := digits.foldl (fun n c => n * 10 + digitValue c) 0

def gather : Nat → List Char → Nat × Nat
  | n, [] => (n, 0)
  | n, c :: rest =>
    let next := n * 10 + digitValue c
    if next < Nat.pow 2 64 then
      let (total, taken) := gather next rest
      (total, taken + 1)
    else (n, 0)

def powerOfTen (n : Nat) : Float := Float.ofScientific 1 false n

/-- `significand * 10 ^ exponent`, rounded after each conversion and each operation; `none` on overflow. -/
def scaled? (significand : Nat) (exponent : Int) : Option Float :=
  let x := significand.toUInt64.toFloat
  if exponent > 308 then if significand = 0 then some 0 else none
  else if exponent ≥ 0 then
    let y := x * powerOfTen exponent.toNat
    if y.isInf then none else some y
  else if exponent ≥ -308 then some (x / powerOfTen (-exponent).toNat)
  else if exponent ≥ -616 then some (x / powerOfTen 308 / powerOfTen (-exponent - 308).toNat)
  else some 0

def Numeral.toFloat? (n : Numeral) : Option Float :=
  let (whole, wholeTaken) := gather 0 n.whole
  let (significand, fractionTaken) := gather whole n.fraction
  let shift : Int := (n.whole.length - wholeTaken : Nat) - fractionTaken
  let magnitude := match n.exponent with
    | none => scaled? significand shift
    | some (negative, digits) =>
      let e := ofDigits digits
      scaled? significand (if negative then shift - e else shift + e)
  magnitude.map fun x => if n.negative then -x else x

end TabDeck.Number
