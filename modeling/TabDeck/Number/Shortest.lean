namespace TabDeck.Number

structure Decimal where
  digits : List Char
  point : Int
  deriving DecidableEq

inductive Tie where
  | even
  | up
  deriving DecidableEq

/-- A positive fraction `numerator / denominator` and the ends of the interval of fractions with the
same denominator that round to it. -/
structure Span where
  numerator : Nat
  denominator : Nat
  low : Nat
  high : Nat
  closed : Bool

def Span.ofBinary (significand : Nat) (power : Int) (narrow : Bool) : Span where
  numerator := 4 * significand * Nat.pow 2 (power - 2).toNat
  denominator := Nat.pow 2 (2 - power).toNat
  low := (4 * significand - if narrow then 1 else 2) * Nat.pow 2 (power - 2).toNat
  high := (4 * significand + 2) * Nat.pow 2 (power - 2).toNat
  closed := significand % 2 == 0

def Span.scale (s : Span) (exponent : Int) : Span where
  numerator := s.numerator * Nat.pow 10 (-exponent).toNat
  denominator := s.denominator * Nat.pow 10 exponent.toNat
  low := s.low * Nat.pow 10 (-exponent).toNat
  high := s.high * Nat.pow 10 (-exponent).toNat
  closed := s.closed

def Span.holds (s : Span) (n : Nat) : Bool :=
  let x := n * s.denominator
  if s.closed then s.low ≤ x && x ≤ s.high else s.low < x && x < s.high

def Span.nearest? (s : Span) (tie : Tie) : Option Nat :=
  let below := s.numerator / s.denominator
  let rest := s.numerator % s.denominator
  match s.holds below && below != 0, s.holds (below + 1) with
  | false, false => none
  | true, false => some below
  | false, true => some (below + 1)
  | true, true =>
    if 2 * rest < s.denominator then some below
    else if s.denominator < 2 * rest then some (below + 1)
    else match tie with
      | .up => some (below + 1)
      | .even => some (if below % 2 == 0 then below else below + 1)

def Span.magnitude (s : Span) : Int :=
  (Nat.toDigits 10 (s.numerator * Nat.pow 10 400 / s.denominator)).length - 400

def dropTrailingZeros (digits : List Char) : List Char :=
  (digits.reverse.dropWhile (· == '0')).reverse

def Span.search (s : Span) (tie : Tie) (magnitude : Int) (size : Nat) : Nat → Decimal
  | 0 => ⟨[], 0⟩
  | tries + 1 =>
    match (s.scale (magnitude - size)).nearest? tie with
    | some n =>
      let digits := Nat.toDigits 10 n
      ⟨dropTrailingZeros digits, magnitude - size + digits.length⟩
    | none => s.search tie magnitude (size + 1) tries

def shortest (tie : Tie) (significand : Nat) (power : Int) (narrow : Bool) : Decimal :=
  let s := Span.ofBinary significand power narrow
  s.search tie s.magnitude 1 17

end TabDeck.Number
