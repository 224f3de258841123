
namespace Invalidation.Sort

variable {α ε : Type}

def bisect (past : Nat → Except ε Bool) (lo hi : Nat) : Except ε Nat :=
  if h : lo < hi then do
    if ← past (lo + (hi - lo) / 2) then bisect past (lo + (hi - lo) / 2 + 1) hi
    else bisect past lo (lo + (hi - lo) / 2)
  else pure lo
termination_by hi - lo
decreasing_by all_goals omega

def leap (further : Nat → Except ε Bool) (bound last next : Nat) : Except ε (Nat × Nat) :=
  if h : next < bound then do
    if ← further next then leap further bound next (2 * next + 1) else pure (last, next)
  else pure (last, bound)
termination_by bound - next
decreasing_by all_goals omega

def gallopLeft (lt : α → α → Except ε Bool) (key : α) (get : Nat → α) (n hint : Nat) :
    Except ε Nat := do
  if ← lt (get hint) key then
    let (last, ofs) ← leap (fun o => lt (get (hint + o)) key) (n - hint) 0 1
    bisect (fun m => lt (get m) key) (hint + last + 1) (hint + ofs)
  else
    let (last, ofs) ← leap (fun o => do return !(← lt (get (hint - o)) key)) (hint + 1) 0 1
    bisect (fun m => lt (get m) key) (hint + 1 - ofs) (hint - last)

def gallopRight (lt : α → α → Except ε Bool) (key : α) (get : Nat → α) (n hint : Nat) :
    Except ε Nat := do
  if ← lt key (get hint) then
    let (last, ofs) ← leap (fun o => lt key (get (hint - o))) (hint + 1) 0 1
    bisect (fun m => do return !(← lt key (get m))) (hint + 1 - ofs) (hint - last)
  else
    let (last, ofs) ← leap (fun o => do return !(← lt key (get (hint + o)))) (n - hint) 0 1
    bisect (fun m => do return !(← lt key (get m))) (hint + last + 1) (hint + ofs)

example : (gallopLeft (fun (a b : Nat) => (.ok (a < b) : Except String Bool)) 5
    (fun i => [1, 3, 5, 5, 7][i]!) 5 0).toOption = some 2 := by decide +kernel

example : (gallopRight (fun (a b : Nat) => (.ok (a < b) : Except String Bool)) 5
    (fun i => [1, 3, 5, 5, 7][i]!) 5 4).toOption = some 4 := by decide +kernel

end Invalidation.Sort
