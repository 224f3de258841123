import Invalidation.Sort.Search

namespace Invalidation.Sort

variable {α ε : Type} [Inhabited α]

def runEnd (lt : α → α → Except ε Bool) (xs : Array α) (hi : Nat) (falling : Bool) (i : Nat) :
    Except ε Nat :=
  if h : i < hi then do
    if (← lt xs[i]! xs[i - 1]!) == falling then runEnd lt xs hi falling (i + 1) else pure i
  else pure i
termination_by hi - i
decreasing_by all_goals omega

def naturalRun (lt : α → α → Except ε Bool) (xs : Array α) (lo hi : Nat) :
    Except ε (Nat × Bool) :=
  if lo + 1 < hi then do
    let falling ← lt xs[lo + 1]! xs[lo]!
    let stop ← runEnd lt xs hi falling (lo + 2)
    pure (stop - lo, falling)
  else pure (hi - lo, false)

def reverseSlice (xs : Array α) (lo hi : Nat) : Array α :=
  xs.extract 0 lo ++ (xs.extract lo hi).reverse ++ xs.extract hi xs.size

def insertFrom (lt : α → α → Except ε Bool) (lo hi : Nat) (xs : Array α) (s : Nat) :
    Except ε (Array α) :=
  if h : s < hi then do
    let pivot := xs[s]!
    let spot ← bisect (fun p => do return !(← lt pivot xs[p]!)) lo s
    insertFrom lt lo hi
      (xs.extract 0 spot ++ #[pivot] ++ xs.extract spot s ++ xs.extract (s + 1) xs.size) (s + 1)
  else pure xs
termination_by hi - s
decreasing_by all_goals omega

def minRunFrom (n : Nat) (dropped : Bool) : Nat :=
  if n < 64 then n + (if dropped then 1 else 0)
  else minRunFrom (n / 2) (dropped || n % 2 == 1)
termination_by n
decreasing_by omega

def minRun (n : Nat) : Nat := minRunFrom n false

example : minRun 63 = 63 ∧ minRun 64 = 32 ∧ minRun 65 = 33 ∧ minRun 100 = 50 := by decide +kernel

end Invalidation.Sort
