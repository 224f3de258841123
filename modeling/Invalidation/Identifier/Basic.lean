import Invalidation.Text.Blank

namespace Invalidation.Identifier

def mark : Text := "MID:"

def delimiter : Nat := 0x23

def splitAtDelimiter (cs : List Nat) : List Nat × Option (List Nat) :=
  match cs.span (· ≠ delimiter) with
  | (before, _ :: after) => (before, some after)
  | (before, []) => (before, none)

def body (s : Text) : List Nat :=
  if s.startsWith mark then s.codes.drop mark.length else s.codes

def isValid (s : Text) : Bool :=
  s.startsWith mark &&
    match splitAtDelimiter (s.codes.drop mark.length) with
    | (cls, none) => !cls.all Text.isBlank
    | (cls, some inst) => !cls.all Text.isBlank && !inst.all Text.isBlank

def isClassLevel (s : Text) : Bool := !s.contains delimiter

def className (s : Text) : Text := ⟨(splitAtDelimiter (body s)).1⟩

def instanceKey? (s : Text) : Option Text :=
  (splitAtDelimiter s.codes).2.map Text.mk

def classOf (s : Text) : Text :=
  if isClassLevel s then s else ⟨(splitAtDelimiter s.codes).1⟩

example : isValid "MID:a#1" = true ∧ isValid "MID:a#" = false ∧ isValid "MID: #x" = false := by
  decide +kernel

end Invalidation.Identifier
