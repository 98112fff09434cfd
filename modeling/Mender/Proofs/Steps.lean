import Mender.World

/-! Steps that may fail, and steps on a state: what one of these keeps, and when two of them, on states of
different kinds, cannot be told apart. Both are passed on by the ways in which steps are put together, so that
a long step is judged by the short ones it is made of. -/

namespace Mender

section Fail

variable {ε α β : Type} {x : Except ε α} {b : β}

/-- What stands behind a step that may fail succeeds exactly if that step does. -/
theorem bind_eq_ok_iff {f : α → Except ε β} : x.bind f = .ok b ↔ ∃ a, x = .ok a ∧ f a = .ok b := by
  cases x <;> simp [Except.bind]

theorem map_eq_ok_iff {f : α → β} : x.map f = .ok b ↔ ∃ a, x = .ok a ∧ f a = b := by
  cases x <;> simp [Except.map]

end Fail

section Keeps

variable {σ α β : Type} {I : σ → Prop}

theorem run_bind (act : StateM σ α) (f : α → StateM σ β) (x : σ) :
    (act >>= f).run x = (f (act.run x).1).run (act.run x).2 := rfl

/-- Whatever the step does, `I` holds after it if it held before. -/
def Keeps (I : σ → Prop) (act : StateM σ α) : Prop := ∀ x, I x → I (act.run x).2

theorem keeps_pure (a : α) : Keeps I (pure a : StateM σ α) := fun _ h => h

theorem keeps_get : Keeps I (get : StateM σ σ) := fun _ h => h

theorem keeps_modify {f : σ → σ} (h : ∀ x, I x → I (f x)) : Keeps I (modify f : StateM σ PUnit) := h

theorem keeps_modifyGet {f : σ → α × σ} (h : ∀ x, I x → I (f x).2) :
    Keeps I (modifyGet f : StateM σ α) := h

theorem Keeps.bind {act : StateM σ α} {f : α → StateM σ β} (h : Keeps I act)
    (hf : ∀ a, Keeps I (f a)) : Keeps I (act >>= f) := by
  intro x hx
  exact hf _ _ (h x hx)

theorem Keeps.ite {c : Prop} [Decidable c] {act act' : StateM σ α} (h : Keeps I act)
    (h' : Keeps I act') : Keeps I (if c then act else act') := by
  split
  · exact h
  · exact h'

end Keeps

section Agree

variable {σ τ α β : Type} {R : σ → τ → Prop}

/-- From related states, both steps give the same answer and lead to related states. -/
def Agree (R : σ → τ → Prop) (act : StateM σ α) (act' : StateM τ α) : Prop :=
  ∀ x y, R x y → (act.run x).1 = (act'.run y).1 ∧ R (act.run x).2 (act'.run y).2

theorem agree_pure (a : α) : Agree R (pure a) (pure a) := fun _ _ h => ⟨rfl, h⟩

/-- Two steps that go on with what they find may each find another state of the related ones. -/
theorem agree_get_bind {f : σ → StateM σ α} {f' : τ → StateM τ α}
    (h : ∀ x y, R x y → Agree R (f x) (f' y)) : Agree R (get >>= f) (get >>= f') :=
  fun x y hxy => h x y hxy x y hxy

theorem agree_set {x : σ} {y : τ} (h : R x y) : Agree R (set x : StateM σ PUnit) (set y : StateM τ PUnit) :=
  fun _ _ _ => ⟨rfl, h⟩

theorem Agree.bind {act : StateM σ α} {act' : StateM τ α} {f : α → StateM σ β}
    {f' : α → StateM τ β} (h : Agree R act act') (hf : ∀ a, Agree R (f a) (f' a)) :
    Agree R (act >>= f) (act' >>= f') := by
  intro x y hxy
  obtain ⟨same, related⟩ := h x y hxy
  rw [run_bind, run_bind, ← same]
  exact hf _ _ _ related

theorem Agree.ite {c : Prop} [Decidable c] {act₁ act₂ : StateM σ α} {act₁' act₂' : StateM τ α}
    (h₁ : Agree R act₁ act₁') (h₂ : Agree R act₂ act₂') :
    Agree R (if c then act₁ else act₂) (if c then act₁' else act₂') := by
  split
  · exact h₁
  · exact h₂

/-- A step that is made only under a condition, before going on in either case. -/
theorem Agree.first {c : Prop} [Decidable c] {act : StateM σ Unit} {act' : StateM τ Unit}
    {f : Unit → StateM σ α} {f' : Unit → StateM τ α} (h : Agree R act act')
    (hf : ∀ u, Agree R (f u) (f' u)) :
    Agree R (if c then act >>= f else f ()) (if c then act' >>= f' else f' ()) :=
  (h.bind hf).ite (hf ())

theorem Agree.mapM {f : α → StateM σ β} {f' : α → StateM τ β} (h : ∀ a, Agree R (f a) (f' a))
    (as : List α) : Agree R (as.mapM f) (as.mapM f') := by
  induction as with
  | nil => exact agree_pure _
  | cons a as ih =>
    rw [List.mapM_cons, List.mapM_cons]
    exact (h a).bind fun _ => ih.bind fun _ => agree_pure _

theorem Agree.forM {f : α → StateM σ PUnit} {f' : α → StateM τ PUnit} (h : ∀ a, Agree R (f a) (f' a))
    (as : List α) : Agree R (as.forM f) (as.forM f') := by
  induction as with
  | nil => exact agree_pure _
  | cons a as ih => exact (h a).bind fun _ => ih

/-- A step that keeps `I` agrees with itself on states of which `I` holds. -/
theorem Keeps.agree {I : σ → Prop} {act : StateM σ α} (h : Keeps I act) :
    Agree (fun x y => x = y ∧ I x) act act := by
  rintro x _ ⟨rfl, hx⟩
  exact ⟨rfl, rfl, h x hx⟩

theorem Agree.keeps {I : σ → Prop} {act : StateM σ α}
    (h : Agree (fun x y => x = y ∧ I x) act act) : Keeps I act :=
  fun x hx => (h x x ⟨rfl, hx⟩).2.2

theorem Keeps.forM {I : σ → Prop} {f : α → StateM σ PUnit} (h : ∀ a, Keeps I (f a)) (as : List α) :
    Keeps I (as.forM f) :=
  (Agree.forM (fun a => (h a).agree) as).keeps

end Agree

end Mender
