/-!
# Validated newtypes

A newtype whose smart constructor runs a check and returns the value unchanged when
the check passes. The check travels in the type, so a value that would be rejected
cannot be built, and two values are equal as soon as the wrapped values are.
-/

/-- A value of type `α` that passed `check`. -/
structure Validated {α ε : Type} (check : α → Except ε Unit) where
  val : α
  valid : check val = .ok ()

namespace Validated

variable {α ε : Type} {check : α → Except ε Unit}

theorem ext {a b : Validated check} (h : a.val = b.val) : a = b := by
  cases a
  cases b
  cases h
  rfl

theorem ext_iff {a b : Validated check} : a = b ↔ a.val = b.val :=
  ⟨fun h => by rw [h], ext⟩

instance [DecidableEq α] : DecidableEq (Validated check) :=
  fun _ _ => decidable_of_iff _ ext_iff.symm

/-- The smart constructor: the check's error, or the value itself. -/
def new (check : α → Except ε Unit) (a : α) : Except ε (Validated check) :=
  match h : check a with
  | .ok () => .ok ⟨a, h⟩
  | .error e => .error e

/-- A value that was built is accepted again, unchanged. -/
theorem new_val (a : Validated check) : new check a.val = .ok a := by
  unfold new
  split
  · rfl
  · rename_i e he
    rw [a.valid] at he
    cases he

end Validated

/-- Inverting one step of a computation that may fail. -/
theorem Except.bind_eq_ok {ε α β : Type} {x : Except ε α} {f : α → Except ε β} {b : β} :
    (x >>= f) = .ok b ↔ ∃ a, x = .ok a ∧ f a = .ok b := by
  cases x <;> simp [bind, Except.bind]
