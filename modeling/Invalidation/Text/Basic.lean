
namespace Invalidation

-- A text: its code points, in order.
structure Text where
  codes : List Nat
deriving DecidableEq, Repr, Inhabited

namespace Text

def ofString (s : String) : Text := ⟨s.toList.map Char.toNat⟩

instance : Coe String Text := ⟨ofString⟩

def empty : Text := ⟨[]⟩

instance : EmptyCollection Text := ⟨empty⟩

instance : Append Text := ⟨fun a b => ⟨a.codes ++ b.codes⟩⟩

instance : LT Text := ⟨fun a b => List.lt a.codes b.codes⟩

instance (a b : Text) : Decidable (a < b) := List.decidableLT a.codes b.codes

def single (c : Nat) : Text := ⟨[c]⟩

def length (t : Text) : Nat := t.codes.length

def isEmpty (t : Text) : Bool := t.codes.isEmpty

def startsWith (t p : Text) : Bool := p.codes.isPrefixOf t.codes

def drop (t : Text) (n : Nat) : Text := ⟨t.codes.drop n⟩

def contains (t : Text) (c : Nat) : Bool := t.codes.contains c

def splitFirst (t : Text) (c : Nat) : Text × Option Text :=
  match t.codes.idxOf? c with
  | some i => (⟨t.codes.take i⟩, some ⟨t.codes.drop (i + 1)⟩)
  | none => (t, none)

def intercalate (sep : Text) (ts : List Text) : Text :=
  ⟨sep.codes.intercalate (ts.map (·.codes))⟩

def isScalar (c : Nat) : Bool := c < 0xD800 || (0xDFFF < c && c < 0x110000)

def toString? (t : Text) : Option String :=
  if t.codes.all isScalar then some (String.ofList (t.codes.map Char.ofNat)) else none

def utf8Size (t : Text) : Nat :=
  t.codes.foldl (fun n c => n + if c < 0x80 then 1 else if c < 0x800 then 2
    else if c < 0x10000 then 3 else 4) 0

theorem lt_irrefl (a : Text) : ¬ a < a := List.lt_irrefl (α := Nat) a.codes

theorem lt_trans {a b c : Text} (h₁ : a < b) (h₂ : b < c) : a < c :=
  List.lt_trans (α := Nat) h₁ h₂

theorem lt_of_not_lt_of_ne {a b : Text} (h₁ : ¬ a < b) (h₂ : a ≠ b) : b < a := by
  rcases List.le_iff_lt_or_eq.1 (List.not_lt.1 h₁) with h | h
  · exact h
  · exact absurd (by cases a; cases b; simp_all) h₂

example : (ofString "MID:a").startsWith "MID:" = true := by decide
example : (ofString "a#b#c").splitFirst 35 = (ofString "a", some (ofString "b#c")) := by decide

end Text

end Invalidation
