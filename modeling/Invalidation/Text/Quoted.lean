import Invalidation.Text.Basic
import Invalidation.Text.Printable

namespace Invalidation.Text

def hexDigits (width n : Nat) : List Char :=
  let ds := Nat.toDigits 16 n
  List.replicate (width - ds.length) '0' ++ ds

def asciiCodes (cs : List Char) : List Nat := cs.map Char.toNat

def escapeCode (q c : Nat) : List Nat :=
  if c = '\\'.toNat then asciiCodes ['\\', '\\']
  else if c = q then ['\\'.toNat, q]
  else if c = '\t'.toNat then asciiCodes ['\\', 't']
  else if c = '\n'.toNat then asciiCodes ['\\', 'n']
  else if c = '\r'.toNat then asciiCodes ['\\', 'r']
  else if isPrintable c then [c]
  else if c ≤ 0xFF then asciiCodes ('\\' :: 'x' :: hexDigits 2 c)
  else if c ≤ 0xFFFF then asciiCodes ('\\' :: 'u' :: hexDigits 4 c)
  else asciiCodes ('\\' :: 'U' :: hexDigits 8 c)

def quoteFor (t : Text) : Nat :=
  if t.contains '\''.toNat && !t.contains '"'.toNat then '"'.toNat else '\''.toNat

def quote (t : Text) : Text :=
  let q := quoteFor t
  ⟨q :: t.codes.flatMap (escapeCode q) ++ [q]⟩

end Invalidation.Text
