/-!
# Labelled transition systems

Runs of a transition system whose steps all meet a condition on the state before the step
and the label. A safety property is an invariant of the reachable states; a property of
"every later state" is one that every step keeps.
-/

/-- Initial states and labelled steps. -/
structure Lts (σ ℓ : Type) where
  init : σ → Prop
  step : σ → ℓ → σ → Prop

namespace Lts

variable {σ ℓ : Type} (L : Lts σ ℓ)

/-- The condition every step meets. -/
abbrev always : σ → ℓ → Prop := fun _ _ => True

/-- Finitely many steps, each meeting `ok`. -/
inductive Steps (ok : σ → ℓ → Prop) : σ → σ → Prop where
  | refl (s : σ) : Steps ok s s
  | tail {s t u : σ} {l : ℓ} (run : Steps ok s t) (guard : ok t l) (step : L.step t l u) :
      Steps ok s u

/-- A state some run from an initial state ends in. -/
def Reach (ok : σ → ℓ → Prop) (s : σ) : Prop := ∃ s₀, L.init s₀ ∧ L.Steps ok s₀ s

variable {L} {ok ok' : σ → ℓ → Prop}

theorem Steps.trans {s t u : σ} (h : L.Steps ok s t) (h' : L.Steps ok t u) :
    L.Steps ok s u := by
  induction h' with
  | refl => exact h
  | tail _ guard step ih => exact ih.tail guard step

theorem Steps.mono {s t : σ} (h : L.Steps ok s t) (himp : ∀ s l, ok s l → ok' s l) :
    L.Steps ok' s t := by
  induction h with
  | refl => exact .refl s
  | tail _ guard step ih => exact ih.tail (himp _ _ guard) step

theorem Reach.steps {s t : σ} (h : L.Reach ok s) (h' : L.Steps ok s t) : L.Reach ok t :=
  let ⟨s₀, hinit, hrun⟩ := h
  ⟨s₀, hinit, hrun.trans h'⟩

theorem Reach.mono {s : σ} (h : L.Reach ok s) (himp : ∀ s l, ok s l → ok' s l) :
    L.Reach ok' s :=
  let ⟨s₀, hinit, hrun⟩ := h
  ⟨s₀, hinit, hrun.mono himp⟩

/-- What every step keeps, every later state has. -/
theorem Steps.keeps {P : σ → Prop} (hstep : ∀ s l t, P s → ok s l → L.step s l t → P t)
    {s t : σ} (h : L.Steps ok s t) (hs : P s) : P t := by
  induction h with
  | refl => exact hs
  | tail _ guard step ih => exact hstep _ _ _ ih guard step

/-- **The invariant rule.** Holds initially, kept by every step, so holds everywhere. -/
theorem Reach.invariant {P : σ → Prop} (hinit : ∀ s, L.init s → P s)
    (hstep : ∀ s l t, P s → ok s l → L.step s l t → P t) {s : σ} (h : L.Reach ok s) : P s :=
  let ⟨_, hs₀, hrun⟩ := h
  hrun.keeps hstep (hinit _ hs₀)

/-- A relation that is reflexive, transitive and kept step by step holds along every run.
The steps may use an invariant of the reachable states. -/
theorem Steps.related {R : σ → σ → Prop} {P : σ → Prop}
    (hrefl : ∀ s, R s s) (htrans : ∀ s t u, R s t → R t u → R s u)
    (hstep : ∀ s l t, P s → ok s l → L.step s l t → R s t ∧ P t)
    {s t : σ} (h : L.Steps ok s t) (hs : P s) : R s t := by
  have hboth : R s t ∧ P t := by
    induction h with
    | refl => exact ⟨hrefl _, hs⟩
    | tail _ guard step ih =>
        obtain ⟨hR, hP⟩ := hstep _ _ _ ih.2 guard step
        exact ⟨htrans _ _ _ ih.1 hR, hP⟩
  exact hboth.1

/-! ## Systems given by a partial function -/

/-- The system whose steps a partial function computes. -/
def ofStep (init : σ → Prop) (step : σ → ℓ → Option σ) : Lts σ ℓ where
  init := init
  step s l t := step s l = some t

/-- Follow a list of labels, checking the condition before each step. -/
def follow (step : σ → ℓ → Option σ) (ok : σ → ℓ → Prop) [∀ s l, Decidable (ok s l)] :
    σ → List ℓ → Option σ
  | s, [] => some s
  | s, l :: ls => if ok s l then (step s l).bind fun t => follow step ok t ls else none

/-- A list of labels that can be followed is a run. -/
theorem steps_of_follow {init : σ → Prop} {step : σ → ℓ → Option σ}
    [∀ s l, Decidable (ok s l)] (ls : List ℓ) :
    ∀ {s t : σ}, follow step ok s ls = some t → (ofStep init step).Steps ok s t := by
  induction ls with
  | nil =>
      intro s t h
      cases h
      exact .refl s
  | cons l ls ih =>
      intro s t h
      simp only [follow, Option.ite_none_right_eq_some, Option.bind_eq_some_iff] at h
      obtain ⟨hok, u, hu, hrest⟩ := h
      have hfirst : (ofStep init step).Steps ok s u := (Steps.refl s).tail hok hu
      exact hfirst.trans (ih hrest)

/-- A list of labels that ends in a state with a decidable property. -/
theorem exists_steps_of_follow {init : σ → Prop} {step : σ → ℓ → Option σ}
    [∀ s l, Decidable (ok s l)] {p : σ → Bool} {s : σ} (ls : List ℓ)
    (h : (follow step ok s ls).any p = true) :
    ∃ t, (ofStep init step).Steps ok s t ∧ p t = true := by
  cases hfollow : follow step ok s ls with
  | none => simp [hfollow] at h
  | some t => exact ⟨t, steps_of_follow ls hfollow, by simpa [hfollow] using h⟩

end Lts
