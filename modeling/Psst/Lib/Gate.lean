import Mathlib.Data.List.Basic
import Mathlib.Tactic.Common

/-!
# Gates

Mutual exclusion among a growing list of tasks. A gate is free or names the task that holds it,
and whether a task holds it can be read off the task alone. A step of one task leaves the gate
as it is, takes it when free, or releases what it held; each of these keeps the gate and the
tasks in agreement.
-/

variable {τ : Type}

/-- The tasks that say they hold the gate are exactly the one it names. -/
def Gated (holds : τ → Bool) (tasks : List τ) (gate : Option Nat) : Prop :=
  ∀ j, gate = some j ↔ ∃ t, tasks[j]? = some t ∧ holds t = true

/-- How a gate and its holder change with a step of task `i`. -/
inductive GateMove (i : Nat) : Option Nat → Bool → Option Nat → Bool → Prop where
  | same (g : Option Nat) (b : Bool) : GateMove i g b g b
  | take {g : Option Nat} (free : g = none) : GateMove i g false (some i) true
  | release (g : Option Nat) : GateMove i g true none false

/-- After a step of task `i`, a task is the one that moved or one that did not. -/
theorem getElem?_set_cases {tasks : List τ} {i j : Nat} {t' u : τ}
    (h : (tasks.set i t')[j]? = some u) : j = i ∧ u = t' ∨ j ≠ i ∧ tasks[j]? = some u := by
  rw [List.getElem?_set] at h
  split at h
  · rename_i heq
    split at h
    · exact Or.inl ⟨heq.symm, (Option.some.inj h).symm⟩
    · cases h
  · rename_i hne
    exact Or.inr ⟨fun heq => hne heq.symm, h⟩

/-- After a spawn, a task is an old one or the new one. -/
theorem getElem?_append_cases {tasks : List τ} {j : Nat} {t u : τ}
    (h : (tasks ++ [t])[j]? = some u) : tasks[j]? = some u ∨ u = t := by
  rw [List.getElem?_append] at h
  split at h
  · exact Or.inl h
  · exact Or.inr (by simpa using List.mem_of_getElem? h)

namespace Gated

variable {holds : τ → Bool} {tasks : List τ} {gate gate' : Option Nat} {i j : Nat} {t t' : τ}

/-- **Mutual exclusion.** -/
theorem unique (h : Gated holds tasks gate) {u : τ} (hi : tasks[i]? = some t)
    (ht : holds t = true) (hj : tasks[j]? = some u) (hu : holds u = true) : i = j := by
  have hgi : gate = some i := (h i).mpr ⟨t, hi, ht⟩
  have hgj : gate = some j := (h j).mpr ⟨u, hj, hu⟩
  rw [hgi] at hgj
  exact Option.some.inj hgj

/-- With the gate free nobody holds it. -/
theorem not_holds (h : Gated holds tasks none) : ∀ t ∈ tasks, holds t = false := by
  intro t ht
  obtain ⟨k, hk⟩ := List.mem_iff_getElem?.mp ht
  by_contra hne
  have hgate := (h k).mpr ⟨t, hk, by simpa using hne⟩
  cases hgate

/-- With nobody to hold it the gate is free. -/
theorem free (h : Gated holds tasks gate) (hnone : tasks.any holds = false) : gate = none := by
  cases gate with
  | none => rfl
  | some k =>
      obtain ⟨t, ht, hholds⟩ := (h k).mp rfl
      have hany : tasks.any holds = true :=
        List.any_eq_true.mpr ⟨t, List.mem_of_getElem? ht, hholds⟩
      rw [hnone] at hany
      cases hany

/-- A new task holds nothing. -/
theorem append (h : Gated holds tasks gate) (ht : holds t = false) :
    Gated holds (tasks ++ [t]) gate := by
  intro j
  rw [h j]
  rcases Nat.lt_trichotomy j tasks.length with hlt | rfl | hgt
  · rw [List.getElem?_append_left hlt]
  · simp [ht]
  · rw [List.getElem?_eq_none (by omega), List.getElem?_eq_none (by simp; omega)]

/-- A step of task `i` keeps the gate and the tasks in agreement. -/
theorem move (h : Gated holds tasks gate) (hi : tasks[i]? = some t)
    (hmove : GateMove i gate (holds t) gate' (holds t')) :
    Gated holds (tasks.set i t') gate' := by
  obtain ⟨hlt, -⟩ := List.getElem?_eq_some_iff.mp hi
  have hself : gate = some i ↔ holds t = true := by
    rw [h i]
    simp [hi]
  intro j
  by_cases hj : j = i
  · subst hj
    rw [List.getElem?_set_self hlt]
    generalize holds t = b at hmove hself
    generalize hb' : holds t' = b' at hmove
    cases hmove <;> simp_all
  · have hne : i ≠ j := fun heq => hj heq.symm
    rw [List.getElem?_set_ne hne, ← h j]
    generalize holds t = b at hmove hself
    generalize holds t' = b' at hmove
    cases hmove with
    | same => exact Iff.rfl
    | take free => simp [free, hne]
    | release => simp [hself.mpr rfl, hne]

end Gated
