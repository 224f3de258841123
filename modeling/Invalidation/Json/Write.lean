import Invalidation.Json.Basic
import Invalidation.Decimal.Notation
import Invalidation.Text.Quoted

namespace Invalidation.Json

def escape (c : Nat) : List Char :=
  let unit (n : Nat) : List Char := '\\' :: 'u' :: Text.hexDigits 4 n
  if c = '"'.toNat then ['\\', '"']
  else if c = '\\'.toNat then ['\\', '\\']
  else if c = '\n'.toNat then ['\\', 'n']
  else if c = '\r'.toNat then ['\\', 'r']
  else if c = '\t'.toNat then ['\\', 't']
  else if c = 8 then ['\\', 'b']
  else if c = 12 then ['\\', 'f']
  else if 0x20 ≤ c ∧ c < 0x7F then [Char.ofNat c]
  else if c < 0x10000 then unit c
  else
    let v := c - 0x10000
    unit (0xD800 + v / 0x400) ++ unit (0xDC00 + v % 0x400)

def quoteString (s : Text) : String := String.ofList ('"' :: s.codes.flatMap escape ++ ['"'])

mutual
def render : Json → String
  | .null => "null"
  | .bool true => "true"
  | .bool false => "false"
  | .int n => toString n
  | .float x => Decimal.Notation.data.render x
  | .str s => quoteString s
  | .arr xs => "[" ++ renderItems xs ++ "]"
  | .obj ms => "\x7b" ++ renderMembers ms ++ "\x7d"
def renderItems : List Json → String
  | [] => ""
  | [x] => render x
  | x :: xs => render x ++ ", " ++ renderItems xs
def renderMembers : List (Text × Json) → String
  | [] => ""
  | [(k, v)] => quoteString k ++ ": " ++ render v
  | (k, v) :: ms => quoteString k ++ ": " ++ render v ++ ", " ++ renderMembers ms
end

example : quoteString ⟨[0x61, 0xD800, 0x1F600]⟩ = "\"a\\ud800\\ud83d\\ude00\"" := by decide +kernel

end Invalidation.Json
