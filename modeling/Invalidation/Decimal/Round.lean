import Invalidation.Decimal.Binary

namespace Invalidation.Decimal

def roundHalfEven (n d : Nat) : Nat :=
  let q := n / d
  let r := n % d
  if 2 * r < d then q else if d < 2 * r then q + 1 else if q % 2 = 0 then q else q + 1

def roundPlaces (x : Float) (places : Nat) : Float :=
  match Binary.ofFloat x with
  | .finite neg m q =>
    if 0 ≤ q then x
    else
      let k := roundHalfEven (m * Nat.pow 10 places) (Nat.pow 2 (-q).toNat)
      let y := Float.ofScientific k true places
      if neg then -y else y
  | _ => x

example : roundHalfEven 5 2 = 2 ∧ roundHalfEven 7 2 = 4 ∧ roundHalfEven 7 3 = 2 := by decide

end Invalidation.Decimal
