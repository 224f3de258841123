
namespace Invalidation.Decimal

-- What a double is: a finite number `±m · 2^q`, an infinity, or not a number.
inductive Binary where
  | finite (neg : Bool) (m : Nat) (q : Int)
  | infinite (neg : Bool)
  | nan
deriving Repr, DecidableEq

def Binary.ofFloat (x : Float) : Binary :=
  let bits := x.toBits.toNat
  let neg := bits >>> 63 = 1
  let field := (bits >>> 52) % 2048
  let fraction := bits % Nat.pow 2 52
  if field = 2047 then
    if fraction = 0 then .infinite neg else .nan
  else if field = 0 then .finite neg fraction (-1074)
  else .finite neg (fraction + Nat.pow 2 52) ((field : Int) - 1075)

def narrowBelow (m : Nat) (q : Int) : Bool := m = Nat.pow 2 52 && q > -1074

def Binary.toInt? : Binary → Option Int
  | .finite neg m q =>
    let magnitude : Option Nat :=
      if 0 ≤ q then some (m * Nat.pow 2 q.toNat)
      else if m % Nat.pow 2 (-q).toNat = 0 then some (m / Nat.pow 2 (-q).toNat) else none
    magnitude.map fun n => if neg then -(n : Int) else n
  | _ => none

def Binary.truncate? : Binary → Option Int
  | .finite neg m q =>
    let n := if 0 ≤ q then m * Nat.pow 2 q.toNat else m / Nat.pow 2 (-q).toNat
    some (if neg then -(n : Int) else n)
  | _ => none

example : Binary.ofFloat 1.5 = .finite false (3 * 2 ^ 51) (-52) := by decide
example : Binary.ofFloat (-0.0) = .finite true 0 (-1074) := by decide

end Invalidation.Decimal
