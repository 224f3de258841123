import Invalidation.Graph.Basic

namespace Invalidation

namespace Adjacency

def members (m : Adjacency) : List Text := m.entries.flatMap (·.2.toList)

def fresh (m : Adjacency) (remaining : List Text) (x : Text) : List Text :=
  (m.find x).toList.filter (remaining.contains ·)

def without (remaining found : List Text) : List Text := remaining.filter (!found.contains ·)

theorem length_without_lt {m : Adjacency} {remaining : List Text} {x : Text}
    (h : m.fresh remaining x ≠ []) :
    (without remaining (m.fresh remaining x)).length < remaining.length := by
  obtain ⟨y, hy⟩ := List.exists_mem_of_ne_nil _ h
  have hr : y ∈ remaining := by simpa using (List.mem_filter.1 hy).2
  exact List.length_filter_lt_length_iff_exists.2 ⟨y, hr, by simpa using hy⟩

def reach (m : Adjacency) (remaining found : List Text) : List Text → List Text
  | [] => found
  | x :: work =>
    if h : m.fresh remaining x = [] then reach m remaining found work
    else
      have := length_without_lt h
      reach m (without remaining (m.fresh remaining x)) (found ++ m.fresh remaining x)
        (m.fresh remaining x ++ work)
termination_by work => (remaining.length, work.length)
decreasing_by
  · exact Prod.Lex.right _ (by simp)
  · exact Prod.Lex.left _ _ this

def extend (path : List Text) (ys : List Text) : List (Text × List Text) :=
  ys.map fun y => (y, y :: path)

def search (m : Adjacency) (target : Text) (remaining : List Text) :
    List (Text × List Text) → Option (List Text)
  | [] => none
  | (x, path) :: queue =>
    if x = target then some path.reverse
    else if h : m.fresh remaining x = [] then search m target remaining queue
    else
      have := length_without_lt h
      search m target (without remaining (m.fresh remaining x))
        (queue ++ extend path (m.fresh remaining x))
termination_by queue => (remaining.length, queue.length)
decreasing_by
  · exact Prod.Lex.right _ (by simp)
  · exact Prod.Lex.left _ _ this

def reachable (m : Adjacency) (x : Text) : IdSet := IdSet.ofList (m.reach m.members [] [x])

def shortestPath (m : Adjacency) (source target : Text) : Option (List Text) :=
  m.search target (m.members.filter (· != source)) [(source, [source])]

end Adjacency

namespace Graph

def allDownstream (g : Graph) (u : Text) : IdSet := g.down.reachable u

def allDependencies (g : Graph) (d : Text) : IdSet := g.up.reachable d

def cycleThrough (g : Graph) (u d : Text) : List Text :=
  match g.down.shortestPath d u with
  | some path => path ++ [d]
  | none => [u, d]

end Graph

end Invalidation
