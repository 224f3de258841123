import Invalidation.Json.Order

namespace Invalidation

-- The phase of a notification that made a call.
inductive Phase where
  | direct
  | viaClass
  | observer
deriving Repr, DecidableEq

def Phase.name : Phase → String
  | .direct => "instance"
  | .viaClass => "class"
  | .observer => "observer"

def Phase.threshold : Phase → Int
  | .direct => 1
  | .viaClass => 1
  | .observer => 2

def Phase.ofJson (v : Json) : Except Fault Phase :=
  if Json.equals v (.str "instance") then .ok .direct
  else if Json.equals v (.str "class") then .ok .viaClass
  else if Json.equals v (.str "observer") then .ok .observer
  else .error (.host (.unknownPhase v))

structure Entry where
  notification : Nat
  depth : Nat
  changed : Text
  downstream : Option Text
  phase : Phase
  component : Json

def Entry.toJson (e : Entry) : Json :=
  .obj [("notification", .int e.notification), ("depth", .int e.depth),
    ("upstream", .str e.changed), ("downstream", Json.ofOption e.downstream),
    ("phase", .str e.phase.name), ("component", e.component)]

-- A bounded journal, oldest record first, with its capacity as it was given.
structure Journal where
  capacity : Nat
  given : Json
  entries : List Entry

-- Which records a query selects, and when it stops. A filter that is null selects everything, and
-- so does an empty list of phases.
structure Query where
  changed : Json
  downstream : Json
  phases : List Phase
  notification : Json
  limit : Json

def Query.selects (q : Query) (e : Entry) : Bool :=
  (q.changed matches .null || Json.equals (.str e.changed) q.changed) &&
  (q.downstream matches .null || Json.equals (Json.ofOption e.downstream) q.downstream) &&
  (q.phases.isEmpty || q.phases.contains e.phase) &&
  (q.notification matches .null || Json.equals (.int e.notification) q.notification)

namespace Journal

def maxCapacity : Int := 9223372036854775807

def new (capacity : Nat) (given : Json) : Journal := ⟨capacity, given, []⟩

def append (j : Journal) (e : Entry) : Journal :=
  let es := j.entries ++ [e]
  { j with entries := es.drop (es.length - j.capacity) }

def collect (q : Query) (found : List Entry) : List Entry → Except Fault (List Entry)
  | [] => .ok found.reverse
  | e :: es =>
    if q.selects e then do
      let found := e :: found
      if ← Json.relate .ge (.int found.length) q.limit then pure found.reverse
      else collect q found es
    else collect q found es

def query (j : Journal) (q : Query) : Except Fault (List Entry) := collect q [] j.entries.reverse

def recent (j : Journal) (count : Int) : List Entry :=
  let es := j.entries.reverse
  if 0 ≤ count then es.take count.toNat else es.take (es.length - count.natAbs)

def clear (j : Journal) : Journal := { j with entries := [] }

def toJson (j : Journal) : Json :=
  .obj [("max_records", j.given), ("records", .arr (j.entries.map Entry.toJson))]

end Journal

end Invalidation
