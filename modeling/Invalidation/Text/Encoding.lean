import Invalidation.Text.Basic

namespace Invalidation.Text

def isSurrogate (c : Nat) : Bool := 0xD800 ≤ c && c ≤ 0xDFFF

def isEscapable (c : Nat) : Bool := 0xDC80 ≤ c && c ≤ 0xDCFF

def unencodable? (escape : Bool) (t : Text) : Option (Nat × Nat) :=
  match t.codes.findIdx? (fun c => isSurrogate c && !(escape && isEscapable c)) with
  | none => none
  | some i => some (i, i + ((t.codes.drop i).takeWhile isSurrogate).length)

example : unencodable? false ⟨[0x61, 0xDC80, 0xD800, 0x62]⟩ = some (1, 3) ∧
    unencodable? true ⟨[0x61, 0xDC80, 0xD800, 0x62]⟩ = some (2, 3) ∧
    unencodable? true ⟨[0xDC80, 0x62]⟩ = none := by decide

end Invalidation.Text
