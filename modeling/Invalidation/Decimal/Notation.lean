import Invalidation.Decimal.Shortest

namespace Invalidation.Decimal

-- How a double is spelled. With the point `p` places after the first digit's position (`0.ddd ×
-- 10^p`), the digits are written positionally when `minPoint ≤ p ≤ maxPoint` and with an exponent
-- otherwise. A whole number keeps `.0`.
structure Notation where
  minPoint : Int
  maxPoint : Int
  expDigits : Nat
  nanText : String
  infText : String

def Notation.message : Notation := ⟨-3, 16, 2, "nan", "inf"⟩

def Notation.data : Notation := ⟨-3, 16, 2, "NaN", "Infinity"⟩

def Notation.body (n : Notation) (ds : List Char) (p : Int) : String :=
  if n.minPoint ≤ p ∧ p ≤ n.maxPoint then
    if p ≤ 0 then String.ofList ('0' :: '.' :: List.replicate (-p).toNat '0' ++ ds)
    else if ds.length ≤ p.toNat then
      String.ofList (ds ++ List.replicate (p.toNat - ds.length) '0' ++ ['.', '0'])
    else String.ofList (ds.take p.toNat ++ '.' :: ds.drop p.toNat)
  else
    let x := p - 1
    let expText := Nat.toDigits 10 x.natAbs
    let mark := if x < 0 then '-' else '+'
    String.ofList (ds.take 1 ++ (if ds.length > 1 then '.' :: ds.drop 1 else []) ++
      'e' :: mark :: List.replicate (n.expDigits - expText.length) '0' ++ expText)

def Notation.scientific (n : Notation) (d : Scientific) : String :=
  let ds := Nat.toDigits 10 d.digits
  (if d.neg then "-" else "") ++ n.body ds (ds.length + d.exp)

def Notation.render (n : Notation) (x : Float) : String :=
  match Binary.ofFloat x with
  | .nan => n.nanText
  | .infinite neg => (if neg then "-" else "") ++ n.infText
  | .finite neg 0 _ => if neg then "-0.0" else "0.0"
  | .finite neg m q => n.scientific (shortestOf neg m q)

end Invalidation.Decimal
