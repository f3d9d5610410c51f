/-!
# Transactions

A transaction body reads and rewrites a working copy of the state and may fail. `commit`
is the transaction boundary: a body that succeeds publishes its working copy, a body that
fails publishes nothing.

The `run_*` equations evaluate a body forwards; the `*_eq_ok` equivalences take a
successful run apart, one query, guard or write at a time, and are the simp set with
which every operation built from these combinators is inverted.
-/

/-- A transaction body over states `σ` with failures `ε`. -/
def Tx (σ ε α : Type) : Type := σ → Except ε (α × σ)

namespace Tx

variable {σ ε α β : Type}

def run (x : Tx σ ε α) (s : σ) : Except ε (α × σ) := x s

instance : Monad (Tx σ ε) where
  pure a := fun s => .ok (a, s)
  bind x f := fun s =>
    match x s with
    | .ok (a, t) => f a t
    | .error e => .error e

instance : MonadExcept ε (Tx σ ε) where
  throw e := fun _ => .error e
  tryCatch x h := fun s =>
    match x s with
    | .ok r => .ok r
    | .error e => h e s

/-- Read a value off the working copy. -/
def query (q : σ → α) : Tx σ ε α := fun s => .ok (q s, s)

/-- Fail with `e` unless `c` holds. -/
def require (c : Prop) [Decidable c] (e : ε) : Tx σ ε Unit := fun s =>
  if c then .ok ((), s) else .error e

/-- The value of an optional row, or the failure `e`. -/
def expect (o : Option α) (e : ε) : Tx σ ε α := fun s =>
  match o with
  | some a => .ok (a, s)
  | none => .error e

/-- A pure fallible computation inside a body. -/
def ofExcept (x : Except ε α) : Tx σ ε α := fun s => x.map (·, s)

/-- A checked write: `none` means the write is refused. -/
def update (f : σ → Option σ) (e : ε) : Tx σ ε Unit := fun s =>
  match f s with
  | some t => .ok ((), t)
  | none => .error e

/-- The transaction boundary: publish on success, roll back on failure. -/
def commit (x : Tx σ ε α) (s : σ) : Except ε α × σ :=
  match x.run s with
  | .ok (a, t) => (.ok a, t)
  | .error e => (.error e, s)

/-! ## Forward equations -/

section Run

variable (s : σ)

@[simp] theorem run_pure (a : α) : (pure a : Tx σ ε α).run s = .ok (a, s) := rfl

@[simp] theorem run_throw (e : ε) : (throw e : Tx σ ε α).run s = .error e := rfl

@[simp] theorem run_query (q : σ → α) : (query q : Tx σ ε α).run s = .ok (q s, s) := rfl

theorem run_bind (x : Tx σ ε α) (f : α → Tx σ ε β) :
    (x >>= f).run s = match x.run s with
      | .ok (a, t) => (f a).run t
      | .error e => .error e := rfl

theorem run_bind_of_ok {x : Tx σ ε α} {f : α → Tx σ ε β} {a : α} {t : σ}
    (h : x.run s = .ok (a, t)) : (x >>= f).run s = (f a).run t := by
  rw [run_bind, h]

theorem run_bind_of_error {x : Tx σ ε α} {f : α → Tx σ ε β} {e : ε}
    (h : x.run s = .error e) : (x >>= f).run s = .error e := by
  rw [run_bind, h]

theorem run_query_bind (q : σ → α) (f : α → Tx σ ε β) :
    (query q >>= f).run s = (f (q s)).run s := rfl

theorem run_pure_bind (a : α) (f : α → Tx σ ε β) :
    (pure a >>= f).run s = (f a).run s := rfl

theorem run_throw_bind (e : ε) (f : α → Tx σ ε β) :
    ((throw e : Tx σ ε α) >>= f).run s = .error e := rfl

theorem run_require (c : Prop) [Decidable c] (e : ε) :
    (require c e : Tx σ ε Unit).run s = if c then .ok ((), s) else .error e := rfl

theorem run_require_bind (c : Prop) [Decidable c] (e : ε) (f : Unit → Tx σ ε β) :
    (require c e >>= f).run s = if c then (f ()).run s else .error e := by
  rw [run_bind, run_require]
  by_cases h : c <;> simp [h]

@[simp] theorem run_expect_some (a : α) (e : ε) :
    (expect (some a) e : Tx σ ε α).run s = .ok (a, s) := rfl

@[simp] theorem run_expect_none (e : ε) :
    (expect none e : Tx σ ε α).run s = .error e := rfl

theorem run_update_some {f : σ → Option σ} {e : ε} {t : σ} (h : f s = some t) :
    (update f e : Tx σ ε Unit).run s = .ok ((), t) := by
  simp only [update, run, h]

theorem run_update_none {f : σ → Option σ} {e : ε} (h : f s = none) :
    (update f e : Tx σ ε Unit).run s = .error e := by
  simp only [update, run, h]

theorem run_ite (c : Prop) [Decidable c] (x y : Tx σ ε α) :
    (if c then x else y).run s = if c then x.run s else y.run s := by
  by_cases h : c <;> simp [h]

end Run

/-! ## Inversion of a successful run -/

section Inversion

variable {s s' : σ}

@[simp] theorem bind_eq_ok {x : Tx σ ε α} {f : α → Tx σ ε β} {b : β} :
    (x >>= f).run s = .ok (b, s')
      ↔ ∃ a t, x.run s = .ok (a, t) ∧ (f a).run t = .ok (b, s') := by
  rw [run_bind]
  cases hx : x.run s with
  | error e => simp
  | ok r =>
      obtain ⟨a, t⟩ := r
      constructor
      · intro h
        exact ⟨a, t, rfl, h⟩
      · rintro ⟨a', t', heq, h⟩
        cases heq
        exact h

theorem pure_eq_ok {a b : α} :
    (pure a : Tx σ ε α).run s = .ok (b, s') ↔ a = b ∧ s = s' := by
  simp

theorem query_eq_ok {q : σ → α} {a : α} :
    (query q : Tx σ ε α).run s = .ok (a, s') ↔ q s = a ∧ s = s' := by
  simp

@[simp] theorem require_eq_ok {c : Prop} [Decidable c] {e : ε} {u : Unit} :
    (require c e : Tx σ ε Unit).run s = .ok (u, s') ↔ c ∧ s = s' := by
  rw [run_require]
  by_cases h : c <;> simp [h]

@[simp] theorem expect_eq_ok {o : Option α} {e : ε} {a : α} :
    (expect o e : Tx σ ε α).run s = .ok (a, s') ↔ o = some a ∧ s = s' := by
  cases o <;> simp

@[simp] theorem ofExcept_eq_ok {x : Except ε α} {a : α} :
    (ofExcept x : Tx σ ε α).run s = .ok (a, s') ↔ x = .ok a ∧ s = s' := by
  cases x <;> simp [ofExcept, run, Except.map]

@[simp] theorem mapError_ok {ε' : Type} {f : ε → ε'} {a : α} :
    (Except.ok a : Except ε α).mapError f = .ok a := rfl

@[simp] theorem mapError_error {ε' : Type} {f : ε → ε'} {e : ε} :
    (Except.error e : Except ε α).mapError f = .error (f e) := rfl

theorem mapError_eq_ok {ε' : Type} {x : Except ε α} {f : ε → ε'} {a : α} :
    x.mapError f = .ok a ↔ x = .ok a := by
  cases x <;> simp

@[simp] theorem update_eq_ok {f : σ → Option σ} {e : ε} {u : Unit} :
    (update f e : Tx σ ε Unit).run s = .ok (u, s') ↔ f s = some s' := by
  cases h : f s <;> simp [update, run, h]

end Inversion

/-! ## Inversion of a failed run -/

section Failure

variable {s : σ} {e : ε}

@[simp] theorem bind_eq_error {x : Tx σ ε α} {f : α → Tx σ ε β} :
    (x >>= f).run s = .error e
      ↔ x.run s = .error e ∨ ∃ a t, x.run s = .ok (a, t) ∧ (f a).run t = .error e := by
  rw [run_bind]
  cases hx : x.run s with
  | error e' => simp
  | ok r =>
      obtain ⟨a, t⟩ := r
      constructor
      · exact fun h => Or.inr ⟨a, t, rfl, h⟩
      · rintro (h | ⟨a', t', heq, h⟩)
        · cases h
        · cases heq
          exact h

@[simp] theorem require_eq_error {c : Prop} [Decidable c] {e' : ε} :
    (require c e' : Tx σ ε Unit).run s = .error e ↔ ¬ c ∧ e' = e := by
  rw [run_require]
  by_cases h : c <;> simp [h]

@[simp] theorem expect_eq_error {o : Option α} {e' : ε} :
    (expect o e' : Tx σ ε α).run s = .error e ↔ o = none ∧ e' = e := by
  cases o <;> simp

@[simp] theorem ofExcept_eq_error {x : Except ε α} :
    (ofExcept x : Tx σ ε α).run s = .error e ↔ x = .error e := by
  cases x <;> simp [ofExcept, run, Except.map]

@[simp] theorem update_eq_error {f : σ → Option σ} {e' : ε} :
    (update f e' : Tx σ ε Unit).run s = .error e ↔ f s = none ∧ e' = e := by
  cases h : f s <;> simp [update, run, h]

end Failure

/-! ## The boundary -/

section Commit

variable {x : Tx σ ε α} {s : σ}

/-- **A failed transaction changes nothing.** -/
theorem commit_of_error {e : ε} (h : x.run s = .error e) : commit x s = (.error e, s) := by
  unfold commit
  rw [h]

theorem commit_of_ok {a : α} {t : σ} (h : x.run s = .ok (a, t)) : commit x s = (.ok a, t) := by
  unfold commit
  rw [h]

/-- A commit either kept the state and failed, or published a successful body. -/
theorem commit_cases (x : Tx σ ε α) (s : σ) :
    (∃ e, x.run s = .error e ∧ commit x s = (.error e, s))
      ∨ ∃ a t, x.run s = .ok (a, t) ∧ commit x s = (.ok a, t) := by
  cases h : x.run s with
  | error e => exact Or.inl ⟨e, rfl, commit_of_error h⟩
  | ok r => exact Or.inr ⟨r.1, r.2, rfl, commit_of_ok h⟩

theorem commit_eq_ok {a : α} {t : σ} :
    commit x s = (.ok a, t) ↔ x.run s = .ok (a, t) := by
  rcases commit_cases x s with ⟨e, hrun, hc⟩ | ⟨a', t', hrun, hc⟩
  · simp [hrun, hc]
  · simp [hrun, hc]

/-- A commit that can be evaluated to success has a result. -/
theorem exists_of_isOk (h : (commit x s).1.isOk = true) :
    ∃ a, commit x s = (.ok a, (commit x s).2) := by
  rcases commit_cases x s with ⟨e, -, hc⟩ | ⟨a, t, -, hc⟩
  · rw [hc] at h
    cases h
  · exact ⟨a, by rw [hc]⟩

end Commit

/-! ## Read-only bodies -/

/-- A body that never publishes a changed working copy. -/
def ReadOnly (x : Tx σ ε α) : Prop := ∀ s a t, x.run s = .ok (a, t) → t = s

section ReadOnly

variable {x : Tx σ ε α} {f : α → Tx σ ε β}

theorem readOnly_pure (a : α) : ReadOnly (pure a : Tx σ ε α) := fun _ _ _ h => by
  cases h
  rfl

theorem readOnly_query (q : σ → α) : ReadOnly (query q : Tx σ ε α) := fun _ _ _ h => by
  cases h
  rfl

theorem readOnly_require (c : Prop) [Decidable c] (e : ε) :
    ReadOnly (require c e : Tx σ ε Unit) := fun _ _ _ h => (require_eq_ok.mp h).2.symm

theorem readOnly_expect (o : Option α) (e : ε) : ReadOnly (expect o e : Tx σ ε α) :=
  fun _ _ _ h => (expect_eq_ok.mp h).2.symm

theorem readOnly_ofExcept (x : Except ε α) : ReadOnly (ofExcept x : Tx σ ε α) :=
  fun _ _ _ h => (ofExcept_eq_ok.mp h).2.symm

theorem ReadOnly.bind (hx : x.ReadOnly) (hf : ∀ a, (f a).ReadOnly) : (x >>= f).ReadOnly := by
  intro s b t h
  obtain ⟨a, u, hxa, hfa⟩ := bind_eq_ok.mp h
  rw [hf a u b t hfa, hx s a u hxa]

end ReadOnly

theorem ReadOnly.commit_snd {x : Tx σ ε α} (h : x.ReadOnly) (s : σ) : (commit x s).2 = s := by
  rcases commit_cases x s with ⟨e, -, hc⟩ | ⟨a, t, hrun, hc⟩
  · rw [hc]
  · rw [hc]
    exact h s a t hrun

/-! ## Bodies that leave a part of the state alone -/

/-- No successful run changes the part `q` reads. -/
def Keeps {γ : Type} (q : σ → γ) (x : Tx σ ε α) : Prop :=
  ∀ s a t, x.run s = .ok (a, t) → q t = q s

section Keeps

variable {γ : Type} {q : σ → γ} {x : Tx σ ε α} {f : α → Tx σ ε β}

theorem ReadOnly.keeps (h : x.ReadOnly) : x.Keeps q := fun s a t hrun => by
  rw [h s a t hrun]

theorem Keeps.bind (hx : x.Keeps q) (hf : ∀ a, (f a).Keeps q) : (x >>= f).Keeps q := by
  intro s b t h
  obtain ⟨a, u, hxa, hfa⟩ := bind_eq_ok.mp h
  rw [hf a u b t hfa, hx s a u hxa]

theorem Keeps.commit_snd (h : x.Keeps q) (s : σ) : q (commit x s).2 = q s := by
  rcases commit_cases x s with ⟨e, -, hc⟩ | ⟨a, t, hrun, hc⟩
  · rw [hc]
  · rw [hc]
    exact h s a t hrun

end Keeps

/-! ## Bodies that refuse -/

/-- On every state of `P` the body fails, always with the same error. -/
def Refuses (x : Tx σ ε α) (P : σ → Prop) : Prop := ∃ e, ∀ s, P s → x.run s = .error e

section Refuses

variable {P : σ → Prop} {x : Tx σ ε α} {f : α → Tx σ ε β}

theorem Refuses.bind (h : x.Refuses P) : (x >>= f).Refuses P := by
  obtain ⟨e, he⟩ := h
  exact ⟨e, fun s hs => run_bind_of_error s (he s hs)⟩

/-- A check that does not look at the state decides before the rest. -/
theorem Refuses.require_bind {c : Prop} [Decidable c] {e : ε} {f : Unit → Tx σ ε β}
    (h : (f ()).Refuses P) : (require c e >>= f).Refuses P := by
  by_cases hc : c
  · obtain ⟨e', he'⟩ := h
    refine ⟨e', fun s hs => ?_⟩
    rw [run_require_bind, if_pos hc, he' s hs]
  · refine ⟨e, fun s _ => ?_⟩
    rw [run_require_bind, if_neg hc]

end Refuses

/-! ## Two runs

`Relates R x R'`: from states related by `R` the body fails alike, or returns the same value
in states related by `R'`. -/

def Relates (R : σ → σ → Prop) (x : Tx σ ε α) (R' : α → σ → σ → Prop) : Prop :=
  ∀ s t, R s t →
    (∃ e, x.run s = .error e ∧ x.run t = .error e)
      ∨ ∃ a s' t', x.run s = .ok (a, s') ∧ x.run t = .ok (a, t') ∧ R' a s' t'

section Relates

variable {R : σ → σ → Prop} {Q : α → σ → σ → Prop} {T : β → σ → σ → Prop}
  {x : Tx σ ε α} {f : α → Tx σ ε β}

theorem Relates.bind (hx : Relates R x Q) (hf : ∀ a, Relates (Q a) (f a) T) :
    Relates R (x >>= f) T := by
  intro s t hst
  rcases hx s t hst with ⟨e, hs, ht⟩ | ⟨a, s', t', hs, ht, hst'⟩
  · exact Or.inl ⟨e, run_bind_of_error s hs, run_bind_of_error t ht⟩
  · rw [run_bind_of_ok s hs, run_bind_of_ok t ht]
    exact hf a s' t' hst'

theorem Relates.mono {P : σ → σ → Prop} {P' : α → σ → σ → Prop} (hx : Relates R x Q)
    (hpre : ∀ s t, P s t → R s t) (hpost : ∀ a s t, Q a s t → P' a s t) : Relates P x P' := by
  intro s t hst
  rcases hx s t (hpre s t hst) with h | ⟨a, s', t', hs, ht, hst'⟩
  · exact Or.inl h
  · exact Or.inr ⟨a, s', t', hs, ht, hpost a s' t' hst'⟩

theorem Relates.of_fact {P : Prop} (h : P → Relates R x Q) :
    Relates (fun s t => P ∧ R s t) x Q := fun s t hst => h hst.1 s t hst.2

/-- A read keeps every fact about the two states. -/
theorem Relates.frame (hx : Relates R x Q) (hread : x.ReadOnly) (P : σ → σ → Prop) :
    Relates (fun s t => P s t ∧ R s t) x fun a s t => P s t ∧ Q a s t := by
  rintro s t ⟨hP, hst⟩
  rcases hx s t hst with h | ⟨a, s', t', hs, ht, hst'⟩
  · exact Or.inl h
  · refine Or.inr ⟨a, s', t', hs, ht, ?_, hst'⟩
    rw [hread s a s' hs, hread t a t' ht]
    exact hP

theorem relates_pure (a : α) (h : ∀ s t, R s t → Q a s t) :
    Relates R (pure a : Tx σ ε α) Q :=
  fun s t hst => Or.inr ⟨a, s, t, rfl, rfl, h s t hst⟩

/-- A query that reads the same in both states. -/
theorem relates_query {q : σ → α} (h : ∀ s t, R s t → q s = q t) :
    Relates R (query q : Tx σ ε α) fun a s t => q s = a ∧ R s t := by
  intro s t hst
  refine Or.inr ⟨q s, s, t, rfl, ?_, rfl, hst⟩
  rw [run_query, h s t hst]

theorem relates_require (c : Prop) [Decidable c] (e : ε) :
    Relates R (require c e : Tx σ ε Unit) fun _ s t => c ∧ R s t := by
  intro s t hst
  by_cases hc : c
  · refine Or.inr ⟨(), s, t, ?_, ?_, hc, hst⟩
    · rw [run_require, if_pos hc]
    · rw [run_require, if_pos hc]
  · refine Or.inl ⟨e, ?_, ?_⟩
    · rw [run_require, if_neg hc]
    · rw [run_require, if_neg hc]

theorem relates_expect (o : Option α) (e : ε) :
    Relates R (expect o e : Tx σ ε α) fun a s t => o = some a ∧ R s t := by
  intro s t hst
  cases o with
  | none => exact Or.inl ⟨e, rfl, rfl⟩
  | some a => exact Or.inr ⟨a, s, t, rfl, rfl, rfl, hst⟩

theorem relates_ofExcept (r : Except ε α) :
    Relates R (ofExcept r : Tx σ ε α) fun a s t => r = .ok a ∧ R s t := by
  intro s t hst
  cases r with
  | error e => exact Or.inl ⟨e, rfl, rfl⟩
  | ok a => exact Or.inr ⟨a, s, t, rfl, rfl, rfl, hst⟩

/-- **Related states give the same result.** -/
theorem Relates.commit_fst (h : Relates R x Q) {s t : σ} (hst : R s t) :
    (commit x s).1 = (commit x t).1 := by
  rcases h s t hst with ⟨e, hs, ht⟩ | ⟨a, s', t', hs, ht, -⟩
  · rw [commit_of_error hs, commit_of_error ht]
  · rw [commit_of_ok hs, commit_of_ok ht]

end Relates

end Tx
