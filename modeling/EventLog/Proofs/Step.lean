import EventLog.Disk.Basic

/-!
# EventLog.Proofs.Step

Steps that change a state or fail, where what a failed step did stays done.

* `run_bind`, `run_bind_eq_ok`, `bind_eq_ok`: a step behind another one starts where that one ended;
* `Keeps`: a step keeps a property of the state, whether it fails or not.
-/

namespace EventLog.Step

variable {σ ε α β : Type}

/-! ## Running -/

@[simp] theorem run_pure (a : α) (s : σ) :
    (pure a : ExceptT ε (StateM σ) α).run s = (.ok a, s) := rfl

@[simp] theorem run_throw (e : ε) (s : σ) :
    (throw e : ExceptT ε (StateM σ) α).run s = (.error e, s) := rfl

@[simp] theorem run_get (s : σ) : (get : ExceptT ε (StateM σ) σ).run s = (.ok s, s) := rfl

@[simp] theorem run_set (s t : σ) :
    (set t : ExceptT ε (StateM σ) PUnit).run s = (.ok ⟨⟩, t) := rfl

theorem run_bind (x : ExceptT ε (StateM σ) α) (f : α → ExceptT ε (StateM σ) β) (s : σ) :
    (x >>= f).run s =
      match x.run s with
      | (.ok a, t) => (f a).run t
      | (.error e, t) => (.error e, t) := by
  rcases h : x.run s with ⟨_ | _, t⟩ <;>
    simp only [bind, ExceptT.bind, ExceptT.run, ExceptT.mk, StateT.bind] at h ⊢ <;>
    rw [h] <;> rfl

theorem run_bind_of_ok {x : ExceptT ε (StateM σ) α} {s t : σ} {a : α} (h : x.run s = (.ok a, t))
    (f : α → ExceptT ε (StateM σ) β) : (x >>= f).run s = (f a).run t := by
  rw [run_bind, h]

theorem run_bind_of_error {x : ExceptT ε (StateM σ) α} {s t : σ} {e : ε}
    (h : x.run s = (.error e, t)) (f : α → ExceptT ε (StateM σ) β) :
    (x >>= f).run s = (.error e, t) := by
  rw [run_bind, h]

/-- Two steps succeed exactly if the first does and the second does where it ended. -/
theorem run_bind_eq_ok {x : ExceptT ε (StateM σ) α} {f : α → ExceptT ε (StateM σ) β} {s u : σ}
    {b : β} : (x >>= f).run s = (.ok b, u) ↔
      ∃ a t, x.run s = (.ok a, t) ∧ (f a).run t = (.ok b, u) := by
  rw [run_bind]
  rcases x.run s with ⟨e | a, t⟩
  · exact ⟨fun h => (by cases h), fun ⟨_, _, h, _⟩ => (by cases h)⟩
  · exact ⟨fun h => ⟨a, t, rfl, h⟩, fun ⟨_, _, h, hf⟩ => (by cases h; exact hf)⟩

/-- Two steps that have no state, taken apart likewise. -/
theorem bind_eq_ok {x : Except ε α} {f : α → Except ε β} {b : β} :
    x >>= f = .ok b ↔ ∃ a, x = .ok a ∧ f a = .ok b := by
  cases x with
  | error e => exact ⟨fun h => (by cases h), fun ⟨_, h, _⟩ => (by cases h)⟩
  | ok a => exact ⟨fun h => ⟨a, rfl, h⟩, fun ⟨_, h, hf⟩ => (by cases h; exact hf)⟩

theorem run_tryCatch (x : ExceptT ε (StateM σ) α) (f : ε → ExceptT ε (StateM σ) α) (s : σ) :
    (tryCatch x f).run s =
      match x.run s with
      | (.ok a, t) => (.ok a, t)
      | (.error e, t) => (f e).run t := by
  rcases h : x.run s with ⟨_ | _, t⟩
  all_goals simp only [tryCatch, tryCatchThe, MonadExceptOf.tryCatch, ExceptT.tryCatch, ExceptT.run,
    ExceptT.mk, bind, StateT.bind] at h ⊢
  · rw [h]
  · rw [h]
    rfl

/-! ## Properties that stay -/

/-- A step keeps a property of the state, whether it fails or not. -/
def Keeps (I : σ → Prop) (x : ExceptT ε (StateM σ) α) : Prop := ∀ s, I s → I (x.run s).2

variable {I : σ → Prop}

theorem Keeps.pure (a : α) : Keeps I (Pure.pure a : ExceptT ε (StateM σ) α) := fun _ h => h

theorem Keeps.throw (e : ε) : Keeps I (MonadExcept.throw e : ExceptT ε (StateM σ) α) :=
  fun _ h => h

/-- Two steps that keep an invariant keep it one behind the other. -/
theorem Keeps.bind {x : ExceptT ε (StateM σ) α} {f : α → ExceptT ε (StateM σ) β}
    (hx : Keeps I x) (hf : ∀ a, Keeps I (f a)) : Keeps I (x >>= f) := by
  intro s h
  have hx := hx s h
  rw [run_bind]
  rcases hr : x.run s with ⟨e | a, t⟩ <;> rw [hr] at hx
  · exact hx
  · exact hf a t hx

/-- A step whose failure is caught keeps what it and its remedy keep. -/
theorem Keeps.tryCatch {x : ExceptT ε (StateM σ) α} {f : ε → ExceptT ε (StateM σ) α}
    (hx : Keeps I x) (hf : ∀ e, Keeps I (f e)) : Keeps I (MonadExcept.tryCatch x f) := by
  intro s h
  have hx := hx s h
  rw [run_tryCatch]
  rcases hr : x.run s with ⟨e | a, t⟩ <;> rw [hr] at hx
  · exact hf e t hx
  · exact hx

end EventLog.Step
