/-! # Outcomes of actions

An action answers or faults, and leaves a state in both cases. A sequence of two
answers exactly when both do, and it faults in the first or, behind the first, in
the second. -/

namespace Chip8

variable {ε σ α β : Type}

/-- The state that is left, after an answer and after a fault. -/
def leftBy (act : EStateM ε σ α) (s : σ) : σ :=
  match act s with
  | .ok _ s => s
  | .error _ s => s

theorem leftBy_of_ok {act : EStateM ε σ α} {s t : σ} {a : α} (h : act s = .ok a t) :
    leftBy act s = t := by
  simp only [leftBy, h]

theorem leftBy_of_error {act : EStateM ε σ α} {s t : σ} {e : ε} (h : act s = .error e t) :
    leftBy act s = t := by
  simp only [leftBy, h]

theorem bind_eq_ok {act : EStateM ε σ α} {next : α → EStateM ε σ β} {s t : σ} {b : β} :
    (act >>= next) s = .ok b t ↔ ∃ a u, act s = .ok a u ∧ next a u = .ok b t := by
  change EStateM.bind act next s = _ ↔ _
  unfold EStateM.bind
  cases h : act s with
  | ok a u =>
    refine ⟨fun hn => ⟨a, u, rfl, hn⟩, ?_⟩
    intro hb
    obtain ⟨a', u', he, hn⟩ := hb
    cases he
    exact hn
  | error e u => simp

theorem get_bind (next : σ → EStateM ε σ α) (s : σ) : (get >>= next) s = next s s := rfl

theorem bind_eq_error {act : EStateM ε σ α} {next : α → EStateM ε σ β} {s t : σ} {e : ε} :
    (act >>= next) s = .error e t ↔
      act s = .error e t ∨ ∃ a u, act s = .ok a u ∧ next a u = .error e t := by
  change EStateM.bind act next s = _ ↔ _
  unfold EStateM.bind
  cases h : act s with
  | ok a u =>
    refine ⟨fun hn => .inr ⟨a, u, rfl, hn⟩, ?_⟩
    intro hb
    rcases hb with he | ⟨a', u', he, hn⟩
    · cases he
    · cases he
      exact hn
  | error e u => simp

/-- Where only an answer is put together behind an action, the fault is that of the action. -/
theorem bind_pure_eq_error {act : EStateM ε σ α} {f : α → β} {s t : σ} {e : ε} :
    (act >>= fun a => pure (f a)) s = .error e t ↔ act s = .error e t := by
  rw [bind_eq_error]
  refine or_iff_left fun h => ?_
  obtain ⟨_, _, _, hpure⟩ := h
  cases hpure

theorem leftBy_bind_of_ok {act : EStateM ε σ α} {next : α → EStateM ε σ β} {s t : σ} {a : α}
    (h : act s = .ok a t) : leftBy (act >>= next) s = leftBy (next a) t := by
  change (match EStateM.bind act next s with | .ok _ s => s | .error _ s => s) = _
  simp only [EStateM.bind, h]
  rfl

/-- A relation between states that both halves of a sequence respect. -/
theorem leftBy_bind {R : σ → σ → Prop} (trans : ∀ {s t u}, R s t → R t u → R s u)
    {act : EStateM ε σ α} {next : α → EStateM ε σ β} {s : σ} (first : R s (leftBy act s))
    (second : ∀ a t, act s = .ok a t → R t (leftBy (next a) t)) :
    R s (leftBy (act >>= next) s) := by
  cases h : act s with
  | ok a t =>
    rw [leftBy_of_ok h] at first
    rw [leftBy_bind_of_ok h]
    exact trans first (second a t h)
  | error e t =>
    have hb : (act >>= next) s = .error e t := bind_eq_error.mpr (.inl h)
    rw [leftBy_of_error h] at first
    rw [leftBy_of_error hb]
    exact first

/-! Two actions side by side. -/

section InStep

variable {τ : Type} {R : σ → τ → Prop}

/-- The same answer or the same fault, and states that are related. -/
inductive InStep (R : σ → τ → Prop) : EStateM.Result ε σ α → EStateM.Result ε τ α → Prop
  | ok {a : α} {s : σ} {t : τ} (h : R s t) : InStep R (.ok a s) (.ok a t)
  | error {e : ε} {s : σ} {t : τ} (h : R s t) : InStep R (.error e s) (.error e t)

theorem InStep.leftBy {act : EStateM ε σ α} {act' : EStateM ε τ α} {s : σ} {t : τ}
    (h : InStep R (act s) (act' t)) : R (leftBy act s) (leftBy act' t) := by
  unfold Chip8.leftBy
  generalize act s = x at h ⊢
  generalize act' t = y at h ⊢
  cases h with
  | ok h => exact h
  | error h => exact h

/-- Sequences are in step if their first halves are and, behind related states, their
second halves. -/
theorem InStep.bind {act : EStateM ε σ α} {act' : EStateM ε τ α} {next : α → EStateM ε σ β}
    {next' : α → EStateM ε τ β} {s : σ} {t : τ} (first : InStep R (act s) (act' t))
    (second : ∀ a s t, R s t → InStep R (next a s) (next' a t)) :
    InStep R ((act >>= next) s) ((act' >>= next') t) := by
  change InStep R (EStateM.bind act next s) (EStateM.bind act' next' t)
  unfold EStateM.bind
  cases h : act s with
  | ok a u =>
    rw [h] at first
    cases h' : act' t with
    | ok a' u' =>
      rw [h'] at first
      cases first with
      | ok hr => exact second a u u' hr
    | error e u' =>
      rw [h'] at first
      cases first
  | error e u =>
    rw [h] at first
    cases h' : act' t with
    | ok a' u' =>
      rw [h'] at first
      cases first
    | error e' u' =>
      rw [h'] at first
      cases first with
      | error hr => exact .error hr

/-- Both look at their own states and go on with what they see. -/
theorem InStep.get_bind {next : σ → EStateM ε σ α} {next' : τ → EStateM ε τ α} {s : σ} {t : τ}
    (h : InStep R (next s s) (next' t t)) : InStep R ((get >>= next) s) ((get >>= next') t) := h

end InStep

/-! Questions that leave no state behind. -/

@[simp] theorem ok_bind (a : α) (f : α → Except ε β) : (Except.ok a >>= f) = f a := rfl

@[simp] theorem error_bind (e : ε) (f : α → Except ε β) : (Except.error e >>= f) = .error e := rfl

@[simp] theorem pure_eq_ok (a : α) : (pure a : Except ε α) = .ok a := rfl

@[simp] theorem throw_eq_error (e : ε) : (throw e : Except ε α) = .error e := rfl

@[simp] theorem ok_mapError {ε' : Type} (f : ε → ε') (a : α) :
    (Except.ok a : Except ε α).mapError f = .ok a := rfl

theorem except_bind_eq_ok {x : Except ε α} {f : α → Except ε β} {b : β} :
    (x >>= f) = .ok b ↔ ∃ a, x = .ok a ∧ f a = .ok b := by
  cases x with
  | ok a => simp
  | error e => simp

end Chip8
