import FilterQuery.FilterError

/-!
# Results of fallible steps

Reading, planning and resolving are chains of steps each of which may fail. `bind_eq_ok` and
`map_eq_ok` take a chain that succeeds apart. `Safely P x` says of a step that serves a request
that its value satisfies `P` and that its error, if it has one, is the fault of the request; a
chain of safe steps is safe.
-/

namespace FilterQuery

/-! ## Chains that succeed -/

theorem bind_eq_ok {ε α β : Type} {x : Except ε α} {f : α → Except ε β} {b : β} :
    (x >>= f) = .ok b ↔ ∃ a, x = .ok a ∧ f a = .ok b := by
  cases x with
  | error e => simp [bind, Except.bind]
  | ok a => simp [bind, Except.bind]

theorem map_eq_ok {ε α β : Type} {x : Except ε α} {f : α → β} {b : β} :
    x.map f = .ok b ↔ ∃ a, x = .ok a ∧ f a = b := by
  cases x with
  | error e => simp [Except.map]
  | ok a => simp [Except.map]

theorem map_map {ε α β γ : Type} (x : Except ε α) (f : α → β) (g : β → γ) :
    (x.map f).map g = x.map fun a => g (f a) := by
  cases x <;> rfl

/-! ## Safe steps -/

/-- A step whose value has a property, and whose error is the fault of the request. -/
def Safely {α : Type} (P : α → Prop) : Except FilterError α → Prop
  | .ok a => P a
  | .error error => error.isClientError = true

theorem Safely.of_ok {α : Type} {P : α → Prop} {x : Except FilterError α} {a : α}
    (h : Safely P x) (hx : x = .ok a) : P a := by
  rwa [hx] at h

theorem Safely.bind {α β : Type} {P : α → Prop} {Q : β → Prop} {x : Except FilterError α}
    {f : α → Except FilterError β} (h : Safely P x) (hf : ∀ a, P a → Safely Q (f a)) :
    Safely Q (x >>= f) := by
  cases x with
  | error error => exact h
  | ok a => exact hf a h

theorem Safely.map {α β : Type} {P : α → Prop} {Q : β → Prop} {x : Except FilterError α} {f : α → β}
    (h : Safely P x) (hf : ∀ a, P a → Q (f a)) : Safely Q (x.map f) := by
  cases x with
  | error error => exact h
  | ok a => exact hf a h

theorem Safely.imp {α : Type} {P Q : α → Prop} {x : Except FilterError α} (h : Safely P x)
    (himp : ∀ a, P a → Q a) : Safely Q x := by
  cases x with
  | error error => exact h
  | ok a => exact himp a h

end FilterQuery
