import Invalidation.Num

namespace Invalidation

inductive Relation where
  | lt
  | le
  | gt
  | ge
deriving DecidableEq, Repr

namespace Relation

def symbol : Relation → String
  | .lt => "<"
  | .le => "<="
  | .gt => ">"
  | .ge => ">="

def holds : Relation → Ordering → Bool
  | .lt, o => o == .lt
  | .le, o => o != .gt
  | .gt, o => o == .gt
  | .ge, o => o != .lt

end Relation

namespace Json

def compareText (a b : Text) : Ordering :=
  if a < b then .lt else if a = b then .eq else .gt

mutual
-- Whether two documents are alike, as containers and keys compare values: numbers exactly, the
-- not-a-number of documents alike to itself, texts by code points, arrays item by item and objects
-- member by member.
def equiv : Json → Json → Bool
  | .null, .null => true
  | .str a, .str b => a == b
  | .arr xs, .arr ys => equivItems xs ys
  | .obj ms, .obj ns => ms.length == ns.length && equivMembers ms ns
  | a, b =>
    match a.number?, b.number? with
    | some x, some y =>
      x.exactEq y || (match x, y with
        | .float p, .float q => p.isNaN && q.isNaN
        | _, _ => false)
    | _, _ => false
def equivItems : List Json → List Json → Bool
  | [], [] => true
  | x :: xs, y :: ys => equiv x y && equivItems xs ys
  | _, _ => false
def equivMembers : List (Text × Json) → List (Text × Json) → Bool
  | [], _ => true
  | (k, v) :: ms, ns =>
    (match ns.lookup k with
      | some w => equiv v w
      | none => false) && equivMembers ms ns
end

def equals (a b : Json) : Bool :=
  match a, b with
  | .float x, .float y => x == y
  | _, _ => equiv a b

def isHashable : Json → Bool
  | .arr _ | .obj _ => false
  | _ => true

def unordered (r : Relation) (a b : Json) : Fault := .host (.unordered r.symbol a.kindName b.kindName)

mutual
-- Whether a relation holds between two documents. Numbers compare exactly, with nothing related to
-- not-a-number; texts compare by code points; arrays compare at their first items that are not
-- alike, or by length when one begins the other.
def relate (r : Relation) : Json → Json → Except Fault Bool
  | .str a, .str b => .ok (r.holds (compareText a b))
  | .arr xs, .arr ys => relateItems r xs ys
  | a, b =>
    match a.number?, b.number? with
    | some x, some y => .ok ((x.compare? y).any r.holds)
    | _, _ => .error (unordered r a b)
def relateItems (r : Relation) : List Json → List Json → Except Fault Bool
  | x :: xs, y :: ys => if equiv x y then relateItems r xs ys else relate r x y
  | xs, ys => .ok (r.holds (compare xs.length ys.length))
end

def pairLess (a b : Json × Json) : Except Fault Bool :=
  if equiv a.1 b.1 then
    if equiv a.2 b.2 then .ok false else relate .lt a.2 b.2
  else relate .lt a.1 b.1

end Json

end Invalidation
