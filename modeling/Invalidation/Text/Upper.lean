import Invalidation.Text.Basic

namespace Invalidation.Text

def upperPiece (c : Nat) : List Nat :=
  if 0x61 ≤ c ∧ c ≤ 0x7A then [c - 32]
  else match c with
    | 0xDF => [0x53, 0x53]
    | 0x131 => [0x49]
    | 0x17F => [0x53]
    | 0xFB00 => [0x46, 0x46]
    | 0xFB01 => [0x46, 0x49]
    | 0xFB02 => [0x46, 0x4C]
    | 0xFB03 => [0x46, 0x46, 0x49]
    | 0xFB04 => [0x46, 0x46, 0x4C]
    | 0xFB05 => [0x53, 0x54]
    | 0xFB06 => [0x53, 0x54]
    | _ => [c]

def upperAscii (t : Text) : Text := ⟨t.codes.flatMap upperPiece⟩

def lowerAsciiCode (c : Nat) : Nat := if 0x41 ≤ c ∧ c ≤ 0x5A then c + 32 else c

def lowerIs (t : Text) (word : String) : Bool :=
  t.codes.map lowerAsciiCode == word.toList.map Char.toNat

example : upperAscii (Text.ofString "ınfo") = Text.ofString "INFO" ∧
    upperAscii (Text.ofString "ßINFO") = Text.ofString "SSINFO" := by decide +kernel
example : lowerIs (Text.ofString "TrUe") "true" = true := by decide +kernel

end Invalidation.Text
