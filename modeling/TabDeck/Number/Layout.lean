import TabDeck.Number.Shortest
/-!
How a floating-point number is written: the digits are the shortest that read back, a `Layout` places them.
-/
namespace TabDeck.Number

inductive Binary where
  | notANumber
  | infinite (negative : Bool)
  /-- `narrow` says that the gap to the next smaller word is half the gap to the next greater one. -/
  | finite (negative : Bool) (significand : Nat) (power : Int) (narrow : Bool)
  deriving DecidableEq

def Binary.ofWord (exponentBits fractionBits word : Nat) : Binary :=
  let fraction := word % Nat.pow 2 fractionBits
  let exponent := word / Nat.pow 2 fractionBits % Nat.pow 2 exponentBits
  let negative := word / Nat.pow 2 (fractionBits + exponentBits) % 2 == 1
  let least : Int := 2 - Int.pow 2 (exponentBits - 1) - fractionBits
  if exponent + 1 = Nat.pow 2 exponentBits then
    if fraction = 0 then .infinite negative else .notANumber
  else if exponent = 0 then .finite negative fraction least false
  else .finite negative (Nat.pow 2 fractionBits + fraction) (least + exponent - 1) (fraction == 0 && exponent > 1)

def Binary.ofFloat (x : Float) : Binary := .ofWord 11 52 x.toBits.toNat

def Binary.ofFloat32 (x : Float32) : Binary := .ofWord 8 23 x.toBits.toNat

structure Layout where
  tie : Tie
  /-- A number `0.d₁d₂… * 10 ^ k` is written without exponent when `k` passes this test. -/
  isPositional : Int → Bool
  wholeSuffix : String

namespace Layout

def document64 : Layout := ⟨.even, fun k => -5 < k && k ≤ 16, ".0"⟩

def document32 : Layout := ⟨.even, fun k => -6 < k && k ≤ 13, ".0"⟩

def plain : Layout := ⟨.up, fun _ => true, ""⟩

def zeros (n : Nat) : List Char := List.replicate n '0'

def positional (l : Layout) (d : Decimal) : List Char :=
  if d.point ≤ 0 then '0' :: '.' :: zeros (-d.point).toNat ++ d.digits
  else if d.digits.length ≤ d.point.toNat then
    d.digits ++ zeros (d.point.toNat - d.digits.length) ++ l.wholeSuffix.toList
  else d.digits.take d.point.toNat ++ '.' :: d.digits.drop d.point.toNat

def scientific (d : Decimal) : List Char :=
  let e := d.point - 1
  let mantissa := match d.digits with
    | first :: second :: rest => first :: '.' :: second :: rest
    | short => short
  mantissa ++ 'e' :: (if e < 0 then '-' else '+') :: Nat.toDigits 10 e.natAbs

def render (l : Layout) (negative : Bool) (significand : Nat) (power : Int) (narrow : Bool) : List Char :=
  let body :=
    if significand = 0 then '0' :: l.wholeSuffix.toList
    else
      let d := shortest l.tie significand power narrow
      if l.isPositional d.point then l.positional d else scientific d
  if negative then '-' :: body else body

end Layout

def Binary.finiteText? (l : Layout) : Binary → Option (List Char)
  | .finite negative significand power narrow => some (l.render negative significand power narrow)
  | _ => none

def Binary.display : Binary → String
  | .notANumber => "NaN"
  | .infinite negative => if negative then "-inf" else "inf"
  | .finite negative significand power narrow =>
    String.ofList (Layout.plain.render negative significand power narrow)

end TabDeck.Number
