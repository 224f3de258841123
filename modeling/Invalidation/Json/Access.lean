import Invalidation.Json.Order

namespace Invalidation.Json

def isInfix (needle hay : List Nat) : Bool :=
  match hay with
  | [] => needle.isEmpty
  | _ :: rest => needle.isPrefixOf hay || isInfix needle rest

def memberOf (needle : Text) : Json → Except Fault Bool
  | .str s => .ok (isInfix needle.codes s.codes)
  | .arr xs => .ok (xs.any fun x => match x with | .str t => t == needle | _ => false)
  | .obj ms => .ok (ms.any (·.1 == needle))
  | v => .error (.host (.notIterable v.kindName))

def textFor (attr : String) : Json → Except Fault Text
  | .str s => .ok s
  | v => .error (.host (.noAttribute v.kindName attr))

def index (key : Text) : Json → Except Fault Json
  | .obj ms => .ok ((ms.lookup key).getD .null)
  | .str _ => .error (.host .textIndex)
  | .arr _ => .error (.host .arrayIndex)
  | v => .error (.host (.noAttribute v.kindName "__getitem__"))

def subscript (key : Text) : Json → Except Fault Json
  | .obj ms =>
    match ms.lookup key with
    | some v => .ok v
    | none => .error (.host (.missingKey key))
  | .str _ => .error (.host .textIndex)
  | .arr _ => .error (.host .arrayIndex)
  | v => .error (.host (.notSubscriptable v.kindName))

def getOr (key : Text) (default : Json) : Json → Except Fault Json
  | .obj ms => .ok ((ms.lookup key).getD default)
  | v => .error (.host (.noAttribute v.kindName "get"))

def items : Json → Except Fault (List (Text × Json))
  | .obj ms => .ok ms
  | v => .error (.host (.noAttribute v.kindName "items"))

def loopItems : Json → Except Fault (List Json)
  | .arr xs => .ok xs
  | .str s => .ok (s.codes.map fun c => .str (Text.single c))
  | .obj ms => .ok (ms.map fun m => .str m.1)
  | v => .error (.host (.notAnIterable v.kindName))

def unpackPair (v : Json) : Except Fault (Json × Json) :=
  match loopItems v with
  | .ok [a, b] => .ok (a, b)
  | .ok xs => if xs.length < 2 then .error (.host (.tooFewToUnpack 2 xs.length))
    else .error (.host (.tooManyToUnpack 2))
  | .error _ => .error (.host (.cannotUnpack v.kindName))

def putEntry (k v : Json) : List (Json × Json) → List (Json × Json)
  | [] => [(k, v)]
  | e :: es => if equiv e.1 k then (e.1, v) :: es else e :: putEntry k v es

def pairEntries (entries : List (Json × Json)) : Nat → List Json → Except Fault (List (Json × Json))
  | _, [] => .ok entries
  | index, p :: ps => do
    let items ← match loopItems p with
      | .ok items => pure items
      | .error _ => throw (.host (.notAPairSequence index))
    match items with
    | [k, v] =>
      unless k.isHashable do throw (.host (.unhashable k.kindName))
      pairEntries (putEntry k v entries) (index + 1) ps
    | _ => throw (.host (.notAPair index items.length))

def dictEntries : Json → Except Fault (List (Json × Json))
  | .obj ms => .ok (ms.map fun (k, v) => (.str k, v))
  | v => do pairEntries [] 0 (← loopItems v)

def entry? (entries : List (Json × Json)) (key : Text) : Option Json :=
  (entries.find? fun e => equiv e.1 (.str key)).map (·.2)

end Invalidation.Json
