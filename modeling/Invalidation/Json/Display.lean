import Invalidation.Json.Basic
import Invalidation.Decimal.Notation
import Invalidation.Text.Quoted

namespace Invalidation.Json

mutual
def literal : Json → Text
  | .null => "None"
  | .bool true => "True"
  | .bool false => "False"
  | .int n => toString n
  | .float x => Decimal.Notation.message.render x
  | .str s => Text.quote s
  | .arr xs => Text.ofString "[" ++ literalItems xs ++ "]"
  | .obj ms => Text.ofString "\x7b" ++ literalMembers ms ++ "\x7d"
def literalItems : List Json → Text
  | [] => Text.empty
  | [x] => literal x
  | x :: xs => literal x ++ ", " ++ literalItems xs
def literalMembers : List (Text × Json) → Text
  | [] => Text.empty
  | [(k, v)] => Text.quote k ++ ": " ++ literal v
  | (k, v) :: ms => Text.quote k ++ ": " ++ literal v ++ ", " ++ literalMembers ms
end

def display : Json → Text
  | .str s => s
  | j => literal j

end Invalidation.Json
