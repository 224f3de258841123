import Invalidation.Json.Read
import Invalidation.Text.Upper

namespace Invalidation.Decimal

def asciiForm? (c : Nat) : Option Nat :=
  if c < 127 then some c
  else if Text.isBlank c then some 0x20
  else (Text.digitValue? c).map (· + 0x30)

def isAsciiDigit (c : Nat) : Bool := 0x30 ≤ c && c ≤ 0x39

def isAsciiBlank (c : Nat) : Bool := (0x09 ≤ c && c ≤ 0x0D) || c == 0x20

def dropUnderscores (prev : Nat) : List Nat → Option (List Nat)
  | [] => if prev = Text.underscore then none else some []
  | c :: cs =>
    if c = Text.underscore then
      if isAsciiDigit prev then dropUnderscores c cs else none
    else if prev = Text.underscore ∧ !isAsciiDigit c then none
    else (c :: ·) <$> dropUnderscores c cs

def takeDigits (value count : Nat) : List Nat → Nat × Nat × List Nat
  | c :: cs => if isAsciiDigit c then takeDigits (value * 10 + (c - 0x30)) (count + 1) cs
    else (value, count, c :: cs)
  | [] => (value, count, [])

def exponentPart : List Nat → Int × List Nat
  | c :: more =>
    if c = 0x65 ∨ c = 0x45 then
      let (neg, ds) := Text.splitSign more
      match takeDigits 0 0 ds with
      | (_, 0, _) => (0, c :: more)
      | (v, _, rest) => (if neg then -(v : Int) else v, rest)
    else (0, c :: more)
  | [] => (0, [])

def special? (neg : Bool) (word : List Nat) : Option Float :=
  let t : Text := ⟨word⟩
  if t.lowerIs "inf" || t.lowerIs "infinity" then
    some (if neg then -(1.0 / 0.0) else 1.0 / 0.0)
  else if t.lowerIs "nan" then some (0.0 / 0.0)
  else none

def readNumber? (cs : List Nat) : Option Float :=
  let (neg, body) := Text.splitSign cs
  let (whole, wholeCount, rest) := takeDigits 0 0 body
  let (mantissa, fracCount, rest) := match rest with
    | 0x2E :: more => takeDigits whole 0 more
    | _ => (whole, 0, rest)
  if wholeCount + fracCount = 0 then special? neg body
  else
    let (exp, rest) := exponentPart rest
    if rest.isEmpty then some (Json.nearestDouble neg mantissa (exp - fracCount)) else none

def readDouble? (t : Text) : Option Float := do
  let cs ← t.codes.mapM asciiForm?
  if cs.contains 0 then none
  let cs ← dropUnderscores 0 cs
  readNumber? ((cs.dropWhile isAsciiBlank).reverse.dropWhile isAsciiBlank).reverse

example : (readDouble? (Text.ofString " 1_0.5e1 ")).map (· == 105.0) = some true := by decide +kernel
example : (readDouble? (Text.ofString ".5")).map (· == 0.5) = some true := by decide +kernel
example : (readDouble? (Text.ofString "-InFiNiTy")).map (· == -(1.0 / 0.0)) = some true := by
  decide +kernel
example : (readDouble? (Text.ofString "1_")).isNone ∧ (readDouble? (Text.ofString "1e")).isNone ∧
    (readDouble? (Text.ofString ".")).isNone := by decide +kernel

end Invalidation.Decimal
