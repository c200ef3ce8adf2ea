/-!
Results that may be an error of any kind. A step after another gives a result exactly if both do,
and it fails where the first of them does; errors can be renamed without a change to results.
-/

set_option autoImplicit false

namespace KernelIR

variable {ε ε' α β : Type}

@[simp]
theorem ok_bind (value : α) (next : α → Except ε β) : (.ok value >>= next) = next value := rfl

theorem bind_eq_ok_iff (first : Except ε α) (next : α → Except ε β) (result : β) :
    (first >>= next) = .ok result ↔ ∃ value, first = .ok value ∧ next value = .ok result := by
  cases first <;> simp [bind, Except.bind]

theorem bind_eq_error_iff (first : Except ε α) (next : α → Except ε β) (cause : ε) :
    (first >>= next) = .error cause ↔
      first = .error cause ∨ ∃ value, first = .ok value ∧ next value = .error cause := by
  cases first <;> simp [bind, Except.bind]

theorem mapError_eq_ok_iff (rename : ε → ε') (action : Except ε α) (value : α) :
    action.mapError rename = .ok value ↔ action = .ok value := by
  cases action with
  | ok found =>
      change Except.ok found = Except.ok value ↔ Except.ok found = Except.ok value
      rw [Except.ok.injEq, Except.ok.injEq]
  | error cause => exact iff_of_false nofun nofun

end KernelIR
