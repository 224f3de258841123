import Invalidation.Text.Blank

namespace Invalidation.Text

def digitZeros : List Nat :=
  [0x30, 0x660, 0x6F0, 0x7C0, 0x966, 0x9E6, 0xA66, 0xAE6, 0xB66, 0xBE6, 0xC66, 0xCE6, 0xD66,
   0xDE6, 0xE50, 0xED0, 0xF20, 0x1040, 0x1090, 0x17E0, 0x1810, 0x1946, 0x19D0, 0x1A80,
   0x1A90, 0x1B50, 0x1BB0, 0x1C40, 0x1C50, 0xA620, 0xA8D0, 0xA900, 0xA9D0, 0xA9F0, 0xAA50,
   0xABF0, 0xFF10, 0x104A0, 0x10D30, 0x11066, 0x110F0, 0x11136, 0x111D0, 0x112F0, 0x11450,
   0x114D0, 0x11650, 0x116C0, 0x11730, 0x118E0, 0x11950, 0x11C50, 0x11D50, 0x11DA0, 0x16A60,
   0x16AC0, 0x16B50, 0x1D7CE, 0x1D7D8, 0x1D7E2, 0x1D7EC, 0x1D7F6, 0x1E140, 0x1E2F0, 0x1E950,
   0x1FBF0]

def digitValue? (c : Nat) : Option Nat :=
  digitZeros.findSome? fun z => if z ≤ c ∧ c < z + 10 then some (c - z) else none

-- Why a text is not an integer.
inductive IntTextError where
  | malformed
  | tooLong (digits : Nat)
deriving DecidableEq, Repr

def maxIntDigits : Nat := 4300

def underscore : Nat := 0x5F

def digitRun (value count : Nat) : List Nat → Option (Nat × Nat × List Nat)
  | [] => some (value, count, [])
  | c :: rest =>
    match digitValue? c with
    | some d => digitRun (value * 10 + d) (count + 1) rest
    | none =>
      if c = underscore then
        match rest with
        | c' :: rest' =>
          match digitValue? c' with
          | some d => digitRun (value * 10 + d) (count + 1) rest'
          | none => none
        | [] => none
      else some (value, count, c :: rest)

def splitSign : List Nat → Bool × List Nat
  | 0x2D :: rest => (true, rest)
  | 0x2B :: rest => (false, rest)
  | cs => (false, cs)

def isNumberBlank (c : Nat) : Bool := isBlank c && !(0x1C ≤ c && c ≤ 0x1F)

def readInt (t : Text) : Except IntTextError Int :=
  let (neg, cs) := splitSign (t.codes.dropWhile isNumberBlank)
  match cs with
  | c :: rest =>
    match digitValue? c with
    | some d =>
      match digitRun d 1 rest with
      | some (value, count, tail) =>
        if maxIntDigits < count then .error (.tooLong count)
        else if tail.all isNumberBlank then .ok (if neg then -(value : Int) else value)
        else .error .malformed
      | none => .error .malformed
    | none => .error .malformed
  | [] => .error .malformed

example : digitZeros.length = 66 := rfl
example : (readInt (Text.ofString " -1_0 ")).toOption = some (-10) := by decide +kernel

end Invalidation.Text
