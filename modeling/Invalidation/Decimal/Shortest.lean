import Invalidation.Decimal.Binary

namespace Invalidation.Decimal

-- A decimal `±digits · 10^exp`.
structure Scientific where
  neg : Bool
  digits : Nat
  exp : Int
deriving Repr, DecidableEq

def decimalLength (n : Nat) : Nat := (Nat.toDigits 10 n).length

def Scientific.normalize (d : Scientific) : Scientific :=
  go d.digits d.exp (decimalLength d.digits)
where
  go (digits : Nat) (exp : Int) : Nat → Scientific
    | 0 => ⟨d.neg, digits, exp⟩
    | k + 1 =>
      if digits ≠ 0 ∧ digits % 10 = 0 then go (digits / 10) (exp + 1) k else ⟨d.neg, digits, exp⟩

-- A rational `x · 2^a / 10^e` as a numerator and a denominator.
structure Scale where
  a : Int
  e : Int

def Scale.num (s : Scale) (x : Nat) : Nat := x * Nat.pow 2 s.a.toNat * Nat.pow 10 (-s.e).toNat

def Scale.den (s : Scale) : Nat := Nat.pow 2 (-s.a).toNat * Nat.pow 10 s.e.toNat

-- The interval of reals that read back as a double, in units of `2^(q-2)`.
structure Window where
  low : Nat
  value : Nat
  high : Nat
  closed : Bool

def Window.ofBinary (m : Nat) (q : Int) : Window :=
  { low := if narrowBelow m q then 4 * m - 1 else 4 * m - 2
    value := 4 * m
    high := 4 * m + 2
    closed := m % 2 = 0 }

def Window.holds (w : Window) (s : Scale) (d : Nat) : Bool :=
  let p := d * s.den
  (s.num w.low < p || (w.closed && s.num w.low == p)) &&
    (p < s.num w.high || (w.closed && p == s.num w.high))

def leadingExponent (m : Nat) (q : Int) : Int :=
  let s : Scale := ⟨q, -400⟩
  (decimalLength (s.num m / s.den) : Int) - 1 - 400

def Window.pick (w : Window) (a e : Int) : Option Nat :=
  let s : Scale := ⟨a, e⟩
  let below := s.num w.value / s.den
  let above := below + 1
  match w.holds s below, w.holds s above with
  | true, true =>
    let twice := 2 * s.num w.value
    let mid := (2 * below + 1) * s.den
    if twice < mid then some below
    else if mid < twice then some above
    else if below % 2 = 0 then some below else some above
  | true, false => some below
  | false, true => some above
  | false, false => none

def shortestOf (neg : Bool) (m : Nat) (q : Int) : Scientific :=
  let w := Window.ofBinary m q
  let top := leadingExponent m q
  let found := (List.range' 1 17).findSome? fun (n : Nat) =>
    let e := top + 1 - (n : Int)
    (w.pick (q - 2) e).map fun d => (d, e)
  (found.map fun p => Scientific.normalize ⟨neg, p.1, p.2⟩).getD ⟨neg, m, 0⟩

example : decimalLength 0 = 1 ∧ decimalLength 9 = 1 ∧ decimalLength 10 = 2 := by decide

end Invalidation.Decimal
