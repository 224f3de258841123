import Invalidation.Json.Basic
import Invalidation.Text.Digits

namespace Invalidation.Json

-- Why a text is not read as a document.
inductive ReadError where
  | malformed
  | intTooLong (digits : Nat)
deriving DecidableEq, Repr

abbrev Reading := Except ReadError (Json × List Char)

def isSpace (c : Char) : Bool := c = ' ' || c = '\t' || c = '\n' || c = '\r'

def hexDigit? (c : Char) : Option Nat :=
  if '0' ≤ c ∧ c ≤ '9' then some (c.toNat - '0'.toNat)
  else if 'a' ≤ c ∧ c ≤ 'f' then some (c.toNat - 'a'.toNat + 10)
  else if 'A' ≤ c ∧ c ≤ 'F' then some (c.toNat - 'A'.toNat + 10)
  else none

def hex4? (a b c d : Char) : Option Nat := do
  let a ← hexDigit? a
  let b ← hexDigit? b
  let c ← hexDigit? c
  let d ← hexDigit? d
  pure (((a * 16 + b) * 16 + c) * 16 + d)

def simpleEscape? : Char → Option Nat
  | '"' => some 0x22
  | '\\' => some 0x5C
  | '/' => some 0x2F
  | 'b' => some 8
  | 'f' => some 12
  | 'n' => some 10
  | 'r' => some 13
  | 't' => some 9
  | _ => none

def readChars (acc : List Nat) : List Char → Option (Text × List Char)
  | [] => none
  | '"' :: rest => some (⟨acc.reverse⟩, rest)
  | '\\' :: 'u' :: a :: b :: c :: d :: '\\' :: 'u' :: e :: f :: g :: h :: rest =>
    match hex4? a b c d with
    | none => none
    | some hi =>
      if 0xD800 ≤ hi ∧ hi ≤ 0xDBFF then
        match hex4? e f g h with
        | none => none
        | some lo =>
          if 0xDC00 ≤ lo ∧ lo ≤ 0xDFFF then
            readChars ((0x10000 + (hi - 0xD800) * 0x400 + (lo - 0xDC00)) :: acc) rest
          else
            readChars (hi :: acc) ('\\' :: 'u' :: e :: f :: g :: h :: rest)
      else readChars (hi :: acc) ('\\' :: 'u' :: e :: f :: g :: h :: rest)
  | '\\' :: 'u' :: a :: b :: c :: d :: rest =>
    match hex4? a b c d with
    | none => none
    | some n => readChars (n :: acc) rest
  | '\\' :: c :: rest =>
    match simpleEscape? c with
    | some e => readChars (e :: acc) rest
    | none => none
  | c :: rest => if c.toNat < 0x20 then none else readChars (c.toNat :: acc) rest

def asciiDigits (cs : List Char) : List Char × List Char :=
  (cs.takeWhile Char.isDigit, cs.dropWhile Char.isDigit)

def digitsValue (ds : List Char) : Nat := ds.foldl (fun n c => n * 10 + (c.toNat - '0'.toNat)) 0

def intPart : List Char → Option (List Char × List Char)
  | '0' :: rest => some (['0'], rest)
  | c :: rest =>
    if c.isDigit then
      let (ds, rest') := asciiDigits rest
      some (c :: ds, rest')
    else none
  | [] => none

def fracPart : List Char → List Char × List Char
  | '.' :: c :: rest =>
    if c.isDigit then
      let (ds, rest') := asciiDigits rest
      (c :: ds, rest')
    else ([], '.' :: c :: rest)
  | cs => ([], cs)

def expPart (cs : List Char) : Option Int × List Char :=
  match cs with
  | e :: rest =>
    if e = 'e' ∨ e = 'E' then
      let (neg, rest') := match rest with
        | '-' :: r => (true, r)
        | '+' :: r => (false, r)
        | r => (false, r)
      match asciiDigits rest' with
      | ([], _) => (none, cs)
      | (ds, rest'') =>
        let v : Int := digitsValue ds
        (some (if neg then -v else v), rest'')
    else (none, cs)
  | [] => (none, cs)

def nearestDouble (neg : Bool) (digits : Nat) (exp : Int) : Float :=
  let top := ((Nat.toDigits 10 digits).length : Int) + exp
  let x := if digits = 0 || top < -324 then 0.0
    else if 309 < top then 1.0 / 0.0
    else if exp < 0 then Float.ofScientific digits true (-exp).toNat
    else Float.ofScientific digits false exp.toNat
  if neg then -x else x

def readNumber (neg : Bool) (cs : List Char) : Option Reading :=
  (intPart cs).map fun (whole, rest) =>
    let (frac, rest) := fracPart rest
    let (exp, rest) := expPart rest
    if frac.isEmpty && exp.isNone then
      if Text.maxIntDigits < whole.length then .error (.intTooLong whole.length)
      else
        let v : Int := digitsValue whole
        .ok (.int (if neg then -v else v), rest)
    else
      let digits := digitsValue (whole ++ frac)
      .ok (.float (nearestDouble neg digits (exp.getD 0 - frac.length)), rest)

def literal? : List Char → Option (Json × List Char)
  | 'n' :: 'u' :: 'l' :: 'l' :: rest => some (.null, rest)
  | 't' :: 'r' :: 'u' :: 'e' :: rest => some (.bool true, rest)
  | 'f' :: 'a' :: 'l' :: 's' :: 'e' :: rest => some (.bool false, rest)
  | 'N' :: 'a' :: 'N' :: rest => some (.float (0.0 / 0.0), rest)
  | 'I' :: 'n' :: 'f' :: 'i' :: 'n' :: 'i' :: 't' :: 'y' :: rest => some (.float (1.0 / 0.0), rest)
  | '-' :: 'I' :: 'n' :: 'f' :: 'i' :: 'n' :: 'i' :: 't' :: 'y' :: rest =>
    some (.float (-1.0 / 0.0), rest)
  | _ => none

def readValue : Nat → List Char → Reading
  | 0, _ => .error .malformed
  | fuel + 1, cs =>
    match cs with
    | '[' :: rest =>
      match rest.dropWhile isSpace with
      | ']' :: rest' => .ok (.arr [], rest')
      | rest' => readItems fuel [] rest'
    | '{' :: rest =>
      match rest.dropWhile isSpace with
      | '}' :: rest' => .ok (.obj [], rest')
      | rest' => readMembers fuel [] rest'
    | '"' :: rest =>
      match readChars [] rest with
      | some (s, rest') => .ok (.str s, rest')
      | none => .error .malformed
    | _ =>
      match literal? cs with
      | some r => .ok r
      | none =>
        let found := match cs with
          | '-' :: rest => readNumber true rest
          | _ => readNumber false cs
        found.getD (.error .malformed)
where
  readItems : Nat → List Json → List Char → Reading
    | 0, _, _ => .error .malformed
    | fuel + 1, acc, cs =>
      match readValue fuel cs with
      | .error e => .error e
      | .ok (v, rest) =>
        match rest.dropWhile isSpace with
        | ',' :: rest' => readItems fuel (v :: acc) (rest'.dropWhile isSpace)
        | ']' :: rest' => .ok (.arr (v :: acc).reverse, rest')
        | _ => .error .malformed
  readMembers : Nat → List (Text × Json) → List Char → Reading
    | 0, _, _ => .error .malformed
    | fuel + 1, acc, cs =>
      match cs with
      | '"' :: rest =>
        match readChars [] rest with
        | none => .error .malformed
        | some (key, rest) =>
          match rest.dropWhile isSpace with
          | ':' :: rest =>
            match readValue fuel (rest.dropWhile isSpace) with
            | .error e => .error e
            | .ok (v, rest) =>
              let acc := setMember acc key v
              match rest.dropWhile isSpace with
              | ',' :: rest' => readMembers fuel acc (rest'.dropWhile isSpace)
              | '}' :: rest' => .ok (.obj acc, rest')
              | _ => .error .malformed
          | _ => .error .malformed
      | _ => .error .malformed

def read (s : String) : Except ReadError Json :=
  let cs := s.toList
  match readValue (cs.length + 1) (cs.dropWhile isSpace) with
  | .error e => .error e
  | .ok (v, rest) => if (rest.dropWhile isSpace).isEmpty then .ok v else .error .malformed

end Invalidation.Json
