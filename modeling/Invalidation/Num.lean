import Invalidation.Fault
import Invalidation.Decimal.Binary
import Invalidation.Decimal.Reading

namespace Invalidation

-- An exact integer or a double.
inductive Num where
  | int (n : Int)
  | float (x : Float)
deriving Inhabited

namespace Num

def toFloat : Num → Except Fault Float
  | .float x => .ok x
  | .int n =>
    let x := Float.ofInt n
    if x.isInf then .error (.host .intTooLarge) else .ok x

def fraction? : Num → Option (Int × Nat)
  | .int n => some (n, 1)
  | .float x =>
    match Decimal.Binary.ofFloat x with
    | .finite neg m q =>
      let num : Int := if 0 ≤ q then (m * Nat.pow 2 q.toNat : Nat) else m
      some (if neg then -num else num, if 0 ≤ q then 1 else Nat.pow 2 (-q).toNat)
    | _ => none

def exactEq : Num → Num → Bool
  | .float a, .float b => a == b
  | a, b =>
    match a.fraction?, b.fraction? with
    | some (p, d), some (q, e) => p * e == q * d
    | _, _ => false

def exactLt : Num → Num → Bool
  | .float a, .float b => a < b
  | a, b =>
    match a.fraction?, b.fraction? with
    | some (p, d), some (q, e) => p * e < q * d
    | none, _ => match a with
      | .float x => x < 0.0 && x.isInf
      | _ => false
    | _, none => match b with
      | .float y => 0.0 < y && y.isInf
      | _ => false

def compare? (a b : Num) : Option Ordering :=
  if a.exactLt b then some .lt
  else if b.exactLt a then some .gt
  else if a.exactEq b then some .eq
  else none

end Num

namespace Json

def number? : Json → Option Num
  | .int n => some (.int n)
  | .float x => some (.float x)
  | .bool b => some (.int (if b then 1 else 0))
  | _ => none

def toDouble (v : Json) : Except Fault Float :=
  match v.number? with
  | some n => n.toFloat
  | none =>
    match v with
    | .str t =>
      match Decimal.readDouble? t with
      | some x => .ok x
      | none => .error (.host (.badFloatText t))
    | _ => .error (.host (.notReal v.kindName))

def timesFloat (v : Json) (y : Float) : Except Fault Float :=
  match v.number? with
  | some n => do pure ((← n.toFloat) * y)
  | none =>
    match v with
    | .str _ | .arr _ => .error (.host .sequenceByFloat)
    | _ => .error (.host (.badOperands "*" v.kindName "float"))

def addToFloat (x : Float) (v : Json) : Except Fault Float :=
  match v.number? with
  | some n => do pure (x + (← n.toFloat))
  | none => .error (.host (.badOperands "+=" "float" v.kindName))

end Json

end Invalidation
