import Invalidation.Sort.Run
import Invalidation.Sort.Merge

namespace Invalidation.Sort

variable {α ε : Type} [Inhabited α]

-- A sorted run waiting to be merged: where it starts, how many items it has, and the power of its
-- boundary with the run after it.
structure Run where
  start : Nat
  size : Nat
  power : Nat
deriving Inhabited

-- The power of the boundary between a run of `n1` items at `s1` and a run of `n2` items after it,
-- among `n` items: the first binary place at which their midpoints over `n` differ. The midpoints
-- are kept doubled, `a` and `b`, so that they stay whole; both stay below twice `n` and their gap
-- doubles each round until it reaches `n`, so `n + 1` rounds are enough.
def powerFrom (n : Nat) : Nat → Nat → Nat → Nat → Nat
  | 0, _, _, r => r
  | fuel + 1, a, b, r =>
    if n ≤ a then powerFrom n fuel (2 * (a - n)) (2 * (b - n)) (r + 1)
    else if n ≤ b then r + 1
    else powerFrom n fuel (2 * a) (2 * b) (r + 1)

def power (s1 n1 n2 n : Nat) : Nat :=
  powerFrom n (n + 1) (2 * s1 + n1) (2 * s1 + 2 * n1 + n2) 0

example : power 0 32 32 100 = 2 ∧ power 0 32 32 64 = 1 ∧ power 32 16 16 64 = 2 := by decide

def joinAt (runs : Array Run) (i : Nat) : Array Run :=
  let joined := runs.setIfInBounds i { runs[i]! with size := runs[i]!.size + runs[i + 1]!.size }
  (if i + 3 = runs.size then joined.setIfInBounds (i + 1) runs[i + 2]! else joined).pop

theorem size_joinAt (runs : Array Run) (i : Nat) : (joinAt runs i).size = runs.size - 1 := by
  unfold joinAt
  split <;> simp

-- The items with the adjacent runs `ra` and `rb` merged. The items of `ra` not greater than the
-- first of `rb`, and those of `rb` not less than the last of `ra`, stay where they are; the rest is
-- merged from the end of the shorter part.
def mergePair (lt : α → α → Except ε Bool) (items : Array α) (threshold : Nat) (ra rb : Run) :
    Except ε (Array α × Nat) := do
  let k ← gallopRight lt items[rb.start]! (fun o => items[ra.start + o]!) ra.size 0
  let lo := ra.start + k
  let na := ra.size - k
  if na = 0 then return (items, threshold)
  let nb ← gallopLeft lt items[lo + na - 1]! (fun o => items[rb.start + o]!) rb.size (rb.size - 1)
  if nb = 0 then return (items, threshold)
  let a := items.extract lo (lo + na)
  let b := items.extract rb.start (rb.start + nb)
  let (merged, threshold) ← if na ≤ nb then mergeLo lt threshold a b else mergeHi lt threshold a b
  pure (items.extract 0 lo ++ merged ++ items.extract (lo + na + nb) items.size, threshold)

def settle (lt : α → α → Except ε Bool) (p : Nat) (items : Array α) (threshold : Nat)
    (runs : Array Run) : Except ε (Array α × Nat × Array Run) :=
  if 1 < runs.size then
    if p < runs[runs.size - 2]!.power then do
      let (items, threshold) ← mergePair lt items threshold runs[runs.size - 2]! runs[runs.size - 1]!
      settle lt p items threshold (joinAt runs (runs.size - 2))
    else pure (items, threshold, runs)
  else pure (items, threshold, runs)
termination_by runs.size
decreasing_by rw [size_joinAt]; omega

def collapse (lt : α → α → Except ε Bool) (items : Array α) (threshold : Nat)
    (runs : Array Run) : Except ε (Array α) :=
  if 1 < runs.size then do
    let n := runs.size - 2
    let i := if 0 < n ∧ runs[n - 1]!.size < runs[n + 1]!.size then n - 1 else n
    let (items, threshold) ← mergePair lt items threshold runs[i]! runs[i + 1]!
    collapse lt items threshold (joinAt runs i)
  else pure items
termination_by runs.size
decreasing_by rw [size_joinAt]; omega

def sweep (lt : α → α → Except ε Bool) (n least : Nat) :
    Nat → Array α → Nat → Array Run → Nat → Except ε (Array α)
  | 0, items, threshold, runs, _ => collapse lt items threshold runs
  | fuel + 1, items, threshold, runs, lo =>
    if lo < n then do
      let (size, falling) ← naturalRun lt items lo n
      let items := if falling then reverseSlice items lo (lo + size) else items
      let (items, size) ← if size < least then do
          let force := min least (n - lo)
          pure (← insertFrom lt lo (lo + force) items (lo + size), force)
        else pure (items, size)
      let (items, threshold, runs) ← match runs.back? with
        | some top => do
          let p := power top.start top.size size n
          let (items, threshold, runs) ← settle lt p items threshold runs
          pure (items, threshold, runs.modify (runs.size - 1) fun r => { r with power := p })
        | none => pure (items, threshold, runs)
      sweep lt n least fuel items threshold (runs.push ⟨lo, size, 0⟩) (lo + size)
    else collapse lt items threshold runs

def stable (lt : α → α → Except ε Bool) (xs : List α) : Except ε (List α) :=
  if xs.length < 2 then pure xs
  else do
    let n := xs.length
    pure (← sweep lt n (minRun n) n xs.toArray minGallop #[] 0).toList

example : (stable (fun (a b : Nat) => (.ok (a < b) : Except String Bool)) [3, 1, 2, 5, 4]).toOption =
    some [1, 2, 3, 4, 5] := by decide +kernel

end Invalidation.Sort
