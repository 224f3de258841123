import Invalidation.Graph.Adjacency

namespace Invalidation

-- A dependency graph: its edges indexed from both ends.
structure Graph where
  down : Adjacency
  up : Adjacency

namespace Graph

def empty : Graph := ⟨.empty, .empty⟩

def downstreamOf (g : Graph) (u : Text) : IdSet := g.down.find u

def dependenciesOf (g : Graph) (d : Text) : IdSet := g.up.find d

def hasEdge (g : Graph) (u d : Text) : Bool := (g.downstreamOf u).contains d

def link (g : Graph) (u d : Text) : Graph := ⟨g.down.add u d, g.up.add d u⟩

def unlink (g : Graph) (u d : Text) : Graph := ⟨g.down.remove u d, g.up.remove d u⟩

def edges (g : Graph) : List (Text × Text) :=
  g.down.entries.flatMap fun e => e.2.toList.map fun d => (e.1, d)

def identifiers (g : Graph) : IdSet := IdSet.ofList (g.down.keys ++ g.up.keys)

def size (g : Graph) : Nat := g.down.total

end Graph

end Invalidation
