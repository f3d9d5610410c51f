import Psst.Lib.Validated
import Mathlib.Data.List.Forall2

/-!
# Traversals that may fail

A list traversed with a function that may fail succeeds exactly when every element does; the
results then stand in the order of the elements.
-/

namespace Traverse

variable {α β ε : Type}

theorem map_eq_ok {f : α → β} {x : Except ε α} {b : β} :
    f <$> x = .ok b ↔ ∃ a, x = .ok a ∧ f a = b := by
  cases x <;> simp [Functor.map, Except.map]

theorem mapM_eq_ok {f : α → Except ε β} {as : List α} {bs : List β} :
    as.mapM f = .ok bs ↔ List.Forall₂ (fun a b => f a = .ok b) as bs := by
  induction as generalizing bs with
  | nil =>
      constructor
      · intro h
        cases h
        exact .nil
      · intro h
        cases h
        rfl
  | cons a as ih =>
      rw [List.mapM_cons]
      constructor
      · intro h
        obtain ⟨b, hb, h⟩ := Except.bind_eq_ok.mp h
        obtain ⟨rest, hrest, h⟩ := Except.bind_eq_ok.mp h
        cases h
        exact .cons hb (ih.mp hrest)
      · intro h
        cases h with
        | cons hb hrest =>
            rw [hb, ih.mpr hrest]
            rfl

theorem mapM_eq_some {f : α → Option β} {as : List α} {bs : List β} :
    as.mapM f = some bs ↔ List.Forall₂ (fun a b => f a = some b) as bs := by
  induction as generalizing bs with
  | nil =>
      constructor
      · intro h
        cases h
        exact .nil
      · intro h
        cases h
        rfl
  | cons a as ih =>
      rw [List.mapM_cons]
      constructor
      · intro h
        obtain ⟨b, hb, h⟩ := Option.bind_eq_some_iff.mp h
        obtain ⟨rest, hrest, h⟩ := Option.bind_eq_some_iff.mp h
        cases h
        exact .cons hb (ih.mp hrest)
      · intro h
        cases h with
        | cons hb hrest =>
            rw [hb, ih.mpr hrest]
            rfl

/-- What every pair has, given a fact about its first part. -/
theorem imp_of_mem {P Q : α → β → Prop} {as : List α} {bs : List β} (h : List.Forall₂ P as bs)
    (himp : ∀ a ∈ as, ∀ b, P a b → Q a b) : List.Forall₂ Q as bs := by
  induction h with
  | nil => exact .nil
  | @cons a b as bs hP _ ih =>
      exact .cons (himp a (List.mem_cons_self ..) b hP)
        (ih fun a' ha' => himp a' (List.mem_cons_of_mem _ ha'))

theorem exists_of_mem_right {P : α → β → Prop} {as : List α} {bs : List β}
    (h : List.Forall₂ P as bs) {b : β} (hb : b ∈ bs) : ∃ a ∈ as, P a b := by
  induction h with
  | nil => cases hb
  | cons hP _ ih =>
      rcases List.mem_cons.mp hb with rfl | hb
      · exact ⟨_, List.mem_cons_self .., hP⟩
      · obtain ⟨a, ha, hP⟩ := ih hb
        exact ⟨a, List.mem_cons_of_mem _ ha, hP⟩

/-- A column that every pair agrees on. -/
theorem map_eq_map {γ : Type} {P : α → β → Prop} {f : α → γ} {g : β → γ}
    (hP : ∀ a b, P a b → g b = f a) {as : List α} {bs : List β} (h : List.Forall₂ P as bs) :
    bs.map g = as.map f := by
  induction h with
  | nil => rfl
  | cons hfirst _ ih => rw [List.map_cons, List.map_cons, hP _ _ hfirst, ih]

/-- Two traversals in a row. -/
theorem comp {γ : Type} {P : α → β → Prop} {Q : β → γ → Prop} {as : List α} {bs : List β}
    {cs : List γ} (h : List.Forall₂ P as bs) (h' : List.Forall₂ Q bs cs) :
    List.Forall₂ (fun a c => ∃ b, P a b ∧ Q b c) as cs := by
  induction h generalizing cs with
  | nil =>
      cases h'
      exact .nil
  | cons hP _ ih =>
      cases h' with
      | cons hQ hrest => exact .cons ⟨_, hP, hQ⟩ (ih hrest)

end Traverse
