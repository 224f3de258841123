import Invalidation.Sort.Search

namespace Invalidation.Sort

variable {α ε : Type} [Inhabited α]

def minGallop : Nat := 7

-- How a merge goes on: one item at a time, with the wins in a row of each run, or by galloping.
inductive Pace where
  | steady (aWins bWins : Nat)
  | gallop

-- The merge from the low end, `a` read from `i` and `b` from `j`, with `merged` placed so far and
-- `threshold` the wins in a row that start galloping. Gives the merged items and the new threshold.
-- Every round places at least one item of `b` or of `a`.
def mergeLow (lt : α → α → Except ε Bool) (a b : Array α) (threshold : Nat) (pace : Pace)
    (i j : Nat) (merged : Array α) : Except ε (Array α × Nat) :=
  if hi : i < a.size then
    if hj : j < b.size then
      match pace with
      | .steady aw bw => do
        if ← lt b[j] a[i] then
          let merged := merged.push b[j]
          if j + 1 = b.size then pure (merged ++ a.extract i a.size, threshold)
          else if bw + 1 ≥ threshold then
            mergeLow lt a b (threshold + 1) .gallop i (j + 1) merged
          else mergeLow lt a b threshold (.steady 0 (bw + 1)) i (j + 1) merged
        else
          let merged := merged.push a[i]
          if i + 2 = a.size then
            pure (merged ++ b.extract j b.size ++ a.extract (i + 1) a.size, threshold)
          else if aw + 1 ≥ threshold then
            mergeLow lt a b (threshold + 1) .gallop (i + 1) j merged
          else mergeLow lt a b threshold (.steady (aw + 1) 0) (i + 1) j merged
      | .gallop => do
        let threshold := if threshold > 1 then threshold - 1 else threshold
        let ka ← gallopRight lt b[j] (fun o => a[i + o]!) (a.size - i) 0
        let merged := merged ++ a.extract i (i + ka)
        let i' := i + ka
        if 0 < ka ∧ i' + 1 = a.size then
          pure (merged ++ b.extract j b.size ++ a.extract i' a.size, threshold)
        else if 0 < ka ∧ a.size ≤ i' then pure (merged ++ b.extract j b.size, threshold)
        else
          let merged := merged.push b[j]
          if j + 1 = b.size then pure (merged ++ a.extract i' a.size, threshold)
          else do
            let kb ← gallopLeft lt a[i']! (fun o => b[j + 1 + o]!) (b.size - (j + 1)) 0
            let merged := merged ++ b.extract (j + 1) (j + 1 + kb)
            let j' := j + 1 + kb
            if 0 < kb ∧ b.size ≤ j' then pure (merged ++ a.extract i' a.size, threshold)
            else
              let merged := merged.push a[i']!
              if i' + 2 = a.size then
                pure (merged ++ b.extract j' b.size ++ a.extract (i' + 1) a.size, threshold)
              else if ka ≥ minGallop ∨ kb ≥ minGallop then
                mergeLow lt a b threshold .gallop (i' + 1) j' merged
              else mergeLow lt a b (threshold + 1) (.steady 0 0) (i' + 1) j' merged
    else pure (merged ++ a.extract i a.size, threshold)
  else pure (merged ++ b.extract j b.size, threshold)
termination_by (a.size - i) + (b.size - j)
decreasing_by all_goals omega

-- The merge from the high end, with `a` left from its start to `na` and `b` from its start to `nb`,
-- `placed` the items placed after them, and `threshold` the wins in a row that start galloping.
-- Gives the merged items and the new threshold. Every round places at least one item of `a` or of
-- `b`.
def mergeHigh (lt : α → α → Except ε Bool) (a b : Array α) (threshold : Nat) (pace : Pace)
    (na nb : Nat) (placed : Array α) : Except ε (Array α × Nat) :=
  if 0 < na then
    if 0 < nb then
      match pace with
      | .steady aw bw => do
        if ← lt b[nb - 1]! a[na - 1]! then
          let placed := #[a[na - 1]!] ++ placed
          if na = 1 then pure (b.extract 0 nb ++ placed, threshold)
          else if aw + 1 ≥ threshold then
            mergeHigh lt a b (threshold + 1) .gallop (na - 1) nb placed
          else mergeHigh lt a b threshold (.steady (aw + 1) 0) (na - 1) nb placed
        else
          let placed := #[b[nb - 1]!] ++ placed
          if nb = 2 then pure (b.extract 0 1 ++ a.extract 0 na ++ placed, threshold)
          else if bw + 1 ≥ threshold then
            mergeHigh lt a b (threshold + 1) .gallop na (nb - 1) placed
          else mergeHigh lt a b threshold (.steady 0 (bw + 1)) na (nb - 1) placed
      | .gallop => do
        let threshold := if threshold > 1 then threshold - 1 else threshold
        let ka := na - (← gallopRight lt b[nb - 1]! (fun o => a[o]!) na (na - 1))
        let placed := a.extract (na - ka) na ++ placed
        let na' := na - ka
        if 0 < ka ∧ na' = 0 then pure (b.extract 0 nb ++ placed, threshold)
        else
          let placed := #[b[nb - 1]!] ++ placed
          if nb = 2 then pure (b.extract 0 1 ++ a.extract 0 na' ++ placed, threshold)
          else do
            let nb1 := nb - 1
            let kb := nb1 - (← gallopLeft lt a[na' - 1]! (fun o => b[o]!) nb1 (nb1 - 1))
            let placed := b.extract (nb1 - kb) nb1 ++ placed
            let nb' := nb1 - kb
            if 0 < kb ∧ nb' = 1 then
              pure (b.extract 0 1 ++ a.extract 0 na' ++ placed, threshold)
            else if 0 < kb ∧ nb' = 0 then pure (a.extract 0 na' ++ placed, threshold)
            else
              let placed := #[a[na' - 1]!] ++ placed
              if na' = 1 then pure (b.extract 0 nb' ++ placed, threshold)
              else if ka ≥ minGallop ∨ kb ≥ minGallop then
                mergeHigh lt a b threshold .gallop (na' - 1) nb' placed
              else mergeHigh lt a b (threshold + 1) (.steady 0 0) (na' - 1) nb' placed
    else pure (a.extract 0 na ++ placed, threshold)
  else pure (b.extract 0 nb ++ placed, threshold)
termination_by na + nb
decreasing_by all_goals omega

def mergeLo (lt : α → α → Except ε Bool) (threshold : Nat) (a b : Array α) :
    Except ε (Array α × Nat) :=
  let merged := #[b[0]!]
  if b.size ≤ 1 then pure (merged ++ a, threshold)
  else if a.size ≤ 1 then pure (merged ++ b.extract 1 b.size ++ a, threshold)
  else mergeLow lt a b threshold (.steady 0 0) 0 1 merged

def mergeHi (lt : α → α → Except ε Bool) (threshold : Nat) (a b : Array α) :
    Except ε (Array α × Nat) :=
  let placed := #[a[a.size - 1]!]
  if a.size ≤ 1 then pure (b ++ placed, threshold)
  else if b.size ≤ 1 then pure (b ++ a.extract 0 (a.size - 1) ++ placed, threshold)
  else mergeHigh lt a b threshold (.steady 0 0) (a.size - 1) b.size placed

end Invalidation.Sort
