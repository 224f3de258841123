import Invalidation.Registry.Notify

namespace Invalidation

namespace Run

variable {σ α β : Type} {h : Host σ}

-- The outcome of a computation and the host it leaves.
def exec (m : Run σ α) (h : Host σ) : Except Fault α × Host σ := m.run.run h

@[simp] theorem exec_pure (a : α) : (pure a : Run σ α).exec h = (.ok a, h) := rfl

theorem exec_bind (m : Run σ α) (f : α → Run σ β) :
    (m >>= f).exec h =
      match m.exec h with
      | (.ok a, h') => (f a).exec h'
      | (.error e, h') => (.error e, h') := by
  simp only [exec, ExceptT.run_bind]
  show StateT.run _ h = _
  simp only [StateT.run_bind]
  rcases m.run.run h with ⟨_ | a, h'⟩ <;> rfl

@[simp] theorem exec_throw (e : Fault) : (throw e : Run σ α).exec h = (.error e, h) := rfl

@[simp] theorem exec_get : (get : Run σ (Host σ)).exec h = (.ok h, h) := rfl

@[simp] theorem exec_set (h' : Host σ) : (set h' : Run σ PUnit).exec h = (.ok (), h') := rfl

@[simp] theorem exec_modify (f : Host σ → Host σ) : (modify f : Run σ Unit).exec h = (.ok (), f h) :=
  rfl

@[simp] theorem exec_registry : (registry : Run σ Registry).exec h = (.ok h.registry, h) := rfl

@[simp] theorem exec_modifyRegistry (f : Registry → Registry) :
    (modifyRegistry f : Run σ Unit).exec h = (.ok (), { h with registry := f h.registry }) := rfl

@[simp] theorem exec_log (l : LogLine) :
    (log l : Run σ Unit).exec h = (.ok (), { h with logs := h.logs.push l }) := rfl

@[simp] theorem exec_lift (x : Except Fault α) : (lift x : Run σ α).exec h = (x, h) := by
  cases x <;> rfl

theorem exec_map (f : α → β) (m : Run σ α) :
    (f <$> m).exec h =
      match m.exec h with
      | (.ok a, h') => (.ok (f a), h')
      | (.error e, h') => (.error e, h') := by
  rw [← bind_pure_comp, exec_bind]
  rcases m.exec h with ⟨_ | a, h'⟩ <;> rfl

theorem exec_tryCatch (m : Run σ α) (k : Fault → Run σ α) :
    (tryCatch m k).exec h =
      match m.exec h with
      | (.ok a, h') => (.ok a, h')
      | (.error e, h') => (k e).exec h' := by
  simp only [exec, ExceptT.run_tryCatch]
  show StateT.run _ h = _
  simp only [StateT.run_bind]
  rcases m.run.run h with ⟨_ | a, h'⟩ <;> rfl

-- The body's outcome survives the last step unless the last step fails itself.
theorem exec_andFinally (body : Run σ α) (last : Run σ Unit) :
    (andFinally body last).exec h =
      match last.exec (body.exec h).2 with
      | (.ok _, h') => ((body.exec h).1, h')
      | (.error e, h') => (.error e, h') := by
  simp only [andFinally, exec_bind, exec_tryCatch, exec_map]
  rcases body.exec h with ⟨_ | a, h₁⟩ <;> simp only [exec_pure, exec_lift] <;>
    rcases last.exec h₁ with ⟨_ | _, h₂⟩ <;> rfl

end Run

end Invalidation
