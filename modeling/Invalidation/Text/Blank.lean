import Invalidation.Text.Basic

namespace Invalidation.Text

def blankCodes : List Nat :=
  [0x09, 0x0A, 0x0B, 0x0C, 0x0D, 0x1C, 0x1D, 0x1E, 0x1F, 0x20, 0x85, 0xA0, 0x1680,
   0x2000, 0x2001, 0x2002, 0x2003, 0x2004, 0x2005, 0x2006, 0x2007, 0x2008, 0x2009, 0x200A,
   0x2028, 0x2029, 0x202F, 0x205F, 0x3000]

def isBlank (c : Nat) : Bool := blankCodes.contains c

def strip (t : Text) : Text := ⟨((t.codes.dropWhile isBlank).reverse.dropWhile isBlank).reverse⟩

def isBlankText (t : Text) : Bool := t.codes.all isBlank

theorem isBlank_of_isWhitespace {c : Char} (h : c.isWhitespace = true) : isBlank c.toNat = true := by
  simp only [Char.isWhitespace, Bool.or_eq_true, decide_eq_true_eq] at h
  rcases h with ((h | h) | h) | h <;> simp [isBlank, blankCodes, h]

example : blankCodes.length = 29 := rfl
example : isBlank 0x200B = false ∧ isBlank 0xFEFF = false ∧ isBlank 0x3000 = true := by decide

end Invalidation.Text
