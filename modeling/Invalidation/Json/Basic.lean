import Invalidation.Text.Basic

namespace Invalidation

inductive Json where
  | null
  | bool (b : Bool)
  | int (n : Int)
  | float (x : Float)
  | str (s : Text)
  | arr (items : List Json)
  | obj (members : List (Text × Json))
deriving Inhabited

namespace Json

def get? (key : Text) : Json → Option Json
  | .obj ms => ms.lookup key
  | _ => none

def field (j : Json) (key : Text) : Json := (j.get? key).getD .null

def has (j : Json) (key : Text) : Bool := (j.get? key).isSome

def name? : Json → Option String
  | .str s => s.toString?
  | _ => none

def int? : Json → Option Int
  | .int n => some n
  | _ => none

def arr? : Json → Option (List Json)
  | .arr xs => some xs
  | _ => none

def obj? : Json → Option (List (Text × Json))
  | .obj ms => some ms
  | _ => none

def isTruthy : Json → Bool
  | .null => false
  | .bool b => b
  | .int n => n != 0
  | .float x => !(x == 0.0)
  | .str s => !s.isEmpty
  | .arr xs => !xs.isEmpty
  | .obj ms => !ms.isEmpty

def kindName : Json → String
  | .null => "NoneType"
  | .bool _ => "bool"
  | .int _ => "int"
  | .float _ => "float"
  | .str _ => "str"
  | .arr _ => "list"
  | .obj _ => "dict"

def ofOption : Option Text → Json
  | some s => .str s
  | none => .null

def setMember (ms : List (Text × Json)) (key : Text) (v : Json) : List (Text × Json) :=
  if ms.any (·.1 == key) then ms.map fun m => if m.1 == key then (key, v) else m
  else ms ++ [(key, v)]

end Json

end Invalidation
