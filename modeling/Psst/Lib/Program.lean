import Mathlib.Logic.Relation

/-!
# Interaction programs

Programs that only act on the world through a fixed set of actions, each answered with a
value of the action's own type. One program text has several meanings: it runs against a
handler that answers every action (`exec`), or it is one thread among others that share a
state (`Safe`, the rely-guarantee reading: between two of its actions the others may have
done anything they are allowed to).
-/

/-- A program: a result, or an action and what to do with its answer. -/
inductive Prog (A : Type) (R : A → Type) (α : Type) where
  | ret (a : α)
  | act (a : A) (k : R a → Prog A R α)

namespace Prog

variable {A : Type} {R : A → Type} {α β γ σ : Type}

def bind : Prog A R α → (α → Prog A R β) → Prog A R β
  | .ret a, f => f a
  | .act a k, f => .act a fun r => (k r).bind f

instance : Monad (Prog A R) where
  pure := .ret
  bind := bind

/-- One action. -/
def perform (a : A) : Prog A R (R a) := .act a .ret

@[simp] theorem pure_eq (a : α) : (pure a : Prog A R α) = .ret a := rfl

@[simp] theorem ret_bind (a : α) (f : α → Prog A R β) : (Prog.ret a >>= f) = f a := rfl

@[simp] theorem act_bind (a : A) (k : R a → Prog A R α) (f : α → Prog A R β) :
    (Prog.act a k >>= f) = .act a fun r => k r >>= f := rfl

@[simp] theorem perform_bind (a : A) (f : R a → Prog A R β) :
    (perform a >>= f) = .act a f := rfl

@[simp] theorem map_ret (f : α → β) (a : α) : (f <$> (Prog.ret a : Prog A R α)) = .ret (f a) :=
  rfl

@[simp] theorem map_act (f : α → β) (a : A) (k : R a → Prog A R α) :
    (f <$> Prog.act a k) = .act a fun r => f <$> k r := rfl

/-! ## Runs against a handler -/

/-- Run to the end, or to the first action the handler refuses. -/
def exec (h : (a : A) → σ → Option (R a × σ)) : Prog A R α → σ → σ × (A ⊕ α)
  | .ret a, s => (s, .inr a)
  | .act a k, s =>
    match h a s with
    | none => (s, .inl a)
    | some (r, t) => (k r).exec h t

/-- The states a run passes through, its first and its last included. -/
def trace (h : (a : A) → σ → Option (R a × σ)) : Prog A R α → σ → List σ
  | .ret _, s => [s]
  | .act a k, s =>
    s :: match h a s with
      | none => []
      | some (r, t) => (k r).trace h t

section Exec

variable {h : (a : A) → σ → Option (R a × σ)} {s t : σ}

@[simp] theorem exec_ret (a : α) : (Prog.ret a : Prog A R α).exec h s = (s, .inr a) := rfl

theorem exec_act_some {a : A} {k : R a → Prog A R α} {r : R a} (ha : h a s = some (r, t)) :
    (Prog.act a k).exec h s = (k r).exec h t := by
  simp only [exec, ha]

theorem exec_act_none {a : A} {k : R a → Prog A R α} (ha : h a s = none) :
    (Prog.act a k).exec h s = (s, .inl a) := by
  simp only [exec, ha]

/-- A sequence runs its second part where the first part ended. -/
theorem exec_bind_of_done {p : Prog A R α} {f : α → Prog A R β} {a : α}
    (hp : p.exec h s = (t, .inr a)) : (p >>= f).exec h s = (f a).exec h t := by
  induction p generalizing s with
  | ret b => cases hp; rfl
  | act b k ih =>
      rw [act_bind]
      cases hb : h b s with
      | none =>
          rw [exec_act_none hb] at hp
          cases hp
      | some ru =>
          rw [exec_act_some hb] at hp ⊢
          exact ih ru.1 hp

/-- What is made of the result is made of it at the end. -/
theorem exec_map (f : α → β) (p : Prog A R α) :
    (f <$> p).exec h s = ((p.exec h s).1, (p.exec h s).2.map id f) := by
  induction p generalizing s with
  | ret a => rfl
  | act a k ih =>
      rw [map_act]
      cases ha : h a s with
      | none =>
          rw [exec_act_none ha, exec_act_none ha]
          rfl
      | some ru =>
          rw [exec_act_some ha, exec_act_some ha]
          exact ih ru.1

/-- A run stops before its first action, or in the rest. -/
theorem mem_trace_act {a : A} {k : R a → Prog A R α} :
    t ∈ (Prog.act a k).trace h s ↔ t = s ∨ ∃ r u, h a s = some (r, u) ∧ t ∈ (k r).trace h u := by
  rw [trace, List.mem_cons]
  cases ha : h a s with
  | none => simp
  | some ru =>
      refine or_congr_right ⟨fun ht => ⟨ru.1, ru.2, rfl, ht⟩, ?_⟩
      rintro ⟨r, u, hru, ht⟩
      cases hru
      exact ht

end Exec

/-! ## Runs against a handler that answers everything -/

/-- Run to the end. -/
def run (h : (a : A) → σ → R a × σ) : Prog A R α → σ → α × σ
  | .ret a, s => (a, s)
  | .act a k, s => (k (h a s).1).run h (h a s).2

@[simp] theorem run_ret (h : (a : A) → σ → R a × σ) (a : α) (s : σ) :
    (Prog.ret a : Prog A R α).run h s = (a, s) := rfl

@[simp] theorem run_act (h : (a : A) → σ → R a × σ) (a : A) (k : R a → Prog A R α) (s : σ) :
    (Prog.act a k).run h s = (k (h a s).1).run h (h a s).2 := rfl

/-! ## Interrupted runs -/

/-- A program that may be stopped between any two of its actions: what is left of it and the
state it is left in. -/
inductive Passes (perform : (a : A) → σ → R a → σ → Prop) :
    Prog A R α → σ → Prog A R α → σ → Prop where
  | stop (p : Prog A R α) (s : σ) : Passes perform p s p s
  | act {a : A} {k : R a → Prog A R α} {r : R a} {s t u : σ} {q : Prog A R α}
      (answer : perform a s r t) (rest : Passes perform (k r) t q u) :
      Passes perform (.act a k) s q u

/-- A handler that only answers as `perform` allows runs the program as `Passes` does. -/
theorem Passes.of_run {perform : (a : A) → σ → R a → σ → Prop} {h : (a : A) → σ → R a × σ}
    (hperform : ∀ a s, perform a s (h a s).1 (h a s).2) (p : Prog A R α) (s : σ) :
    Passes perform p s (.ret (p.run h s).1) (p.run h s).2 := by
  induction p generalizing s with
  | ret a => exact .stop _ _
  | act a k ih => exact .act (hperform a s) (ih _ _)

/-- Every action of a program is of a certain kind, whatever the answers are. -/
def Only (P : A → Prop) : Prog A R α → Prop
  | .ret _ => True
  | .act a k => P a ∧ ∀ r, (k r).Only P

/-- What the actions of that kind keep, an interrupted program keeps. -/
theorem Passes.keeps {perform : (a : A) → σ → R a → σ → Prop} {P : A → Prop} {K : σ → Prop}
    (hkeep : ∀ a s r t, P a → perform a s r t → K s → K t) {p q : Prog A R α} {s t : σ}
    (h : p.Passes perform s q t) (hp : p.Only P) (hs : K s) : K t := by
  induction h with
  | stop p s => exact hs
  | act hanswer _ ih => exact ih (hp.2 _) (hkeep _ _ _ _ hp.1 hanswer hs)

end Prog

/-! ## Threads -/

/-- What one thread may do and what it may count on: the effect of its actions, what the
others may do between two of them, what it promises in return, and the invariant all keep. -/
structure Arena (A : Type) (R : A → Type) (σ : Type) where
  perform : (a : A) → σ → R a → σ → Prop
  inv : σ → Prop
  interferes : σ → σ → Prop
  guar : σ → σ → Prop

namespace Arena

variable {A : Type} {R : A → Type} {α β σ : Type} (T : Arena A R σ)

/-- Finitely many steps of the others. -/
abbrev rely : σ → σ → Prop := Relation.ReflTransGen T.interferes

/-- From state `s`, every action of the program keeps the invariant and the promise, whatever
the others do in between, and the result satisfies `Q`. -/
def Safe (Q : α → σ → Prop) : Prog A R α → σ → Prop
  | .ret a, s => ∀ t, T.rely s t → T.inv t → Q a t
  | .act a k, s => ∀ t, T.rely s t → T.inv t →
      ∀ r u, T.perform a t r u → T.inv u ∧ T.guar t u ∧ Safe Q (k r) u

variable {T} {Q Q' : α → σ → Prop} {p : Prog A R α} {s t : σ}

/-- The others cannot make a program unsafe. -/
theorem Safe.rely (h : T.Safe Q p s) (hrely : T.rely s t) : T.Safe Q p t := by
  cases p with
  | ret a => exact fun u hu hinv => h u (hrely.trans hu) hinv
  | act a k => exact fun u hu hinv => h u (hrely.trans hu) hinv

/-- It is enough to be safe once the others have moved. -/
theorem Safe.of_rely (h : ∀ t, T.rely s t → T.inv t → T.Safe Q p t) : T.Safe Q p s := by
  cases p with
  | ret a => exact fun t ht hinv => h t ht hinv t .refl hinv
  | act a k => exact fun t ht hinv => h t ht hinv t .refl hinv

/-- **Sequencing.** -/
theorem Safe.bind {f : α → Prog A R β} {Q : β → σ → Prop}
    (h : T.Safe (fun a => T.Safe Q (f a)) p s) : T.Safe Q (p >>= f) s := by
  induction p generalizing s with
  | ret a => exact .of_rely fun t ht hinv => h t ht hinv
  | act a k ih =>
      intro t ht hinv r u hperform
      obtain ⟨hu, hguar, hrest⟩ := h t ht hinv r u hperform
      exact ⟨hu, hguar, ih r hrest⟩

theorem Safe.imp (h : T.Safe Q p s) (himp : ∀ a t, Q a t → Q' a t) : T.Safe Q' p s := by
  induction p generalizing s with
  | ret a => exact fun t ht hinv => himp a t (h t ht hinv)
  | act a k ih =>
      intro t ht hinv r u hperform
      obtain ⟨hu, hguar, hrest⟩ := h t ht hinv r u hperform
      exact ⟨hu, hguar, ih r hrest⟩

theorem Safe.map {f : α → β} {Q : β → σ → Prop} (h : T.Safe (fun a => Q (f a)) p s) :
    T.Safe Q (f <$> p) s := by
  induction p generalizing s with
  | ret a => exact h
  | act a k ih =>
      intro t ht hinv r u hperform
      obtain ⟨hu, hguar, hrest⟩ := h t ht hinv r u hperform
      exact ⟨hu, hguar, ih r hrest⟩

/-! ### One thread alone -/

/-- A thread nobody interferes with, and the invariant its actions are to keep. -/
def alone (perform : (a : A) → σ → R a → σ → Prop) (inv : σ → Prop) : Arena A R σ where
  perform := perform
  inv := inv
  interferes := fun _ _ => False
  guar := fun _ _ => True

section Alone

variable {perform : (a : A) → σ → R a → σ → Prop} {inv : σ → Prop}

theorem eq_of_rely_alone (h : (alone perform inv).rely s t) : s = t := by
  induction h with
  | refl => rfl
  | tail _ hlast _ => cases hlast

theorem Safe.alone_ret {a : α} (h : Q a s) : (alone perform inv).Safe Q (.ret a) s := by
  intro t ht _
  rw [← eq_of_rely_alone ht]
  exact h

theorem Safe.alone_act {a : A} {k : R a → Prog A R α}
    (h : ∀ r t, perform a s r t → inv t ∧ (alone perform inv).Safe Q (k r) t) :
    (alone perform inv).Safe Q (.act a k) s := by
  intro t ht _ r u hperform
  obtain rfl := eq_of_rely_alone ht
  obtain ⟨hinv, hrest⟩ := h r u hperform
  exact ⟨hinv, trivial, hrest⟩

/-- **Interruption.** Wherever a safe program is stopped, the invariant holds, and what is left of
it is safe. -/
theorem Safe.passes {q : Prog A R α} (h : (alone perform inv).Safe Q p s)
    (hpasses : p.Passes perform s q t) (hinv : inv s) :
    inv t ∧ (alone perform inv).Safe Q q t := by
  induction hpasses with
  | stop p s => exact ⟨hinv, h⟩
  | act hanswer _ ih =>
      obtain ⟨hnext, -, hrest⟩ := h _ .refl hinv _ _ hanswer
      exact ih hrest hnext

/-- A safe program that has ended satisfies its postcondition. -/
theorem Safe.alone_of_ret {a : α} (h : (alone perform inv).Safe Q (.ret a) s) (hinv : inv s) :
    Q a s :=
  h s .refl hinv

end Alone

/-- What every interfering step keeps, the others keep. -/
theorem rely_keeps {K : σ → Prop} (hstep : ∀ s t, K s → T.interferes s t → K t)
    (h : T.rely s t) (hs : K s) : K t := by
  induction h with
  | refl => exact hs
  | tail _ hlast ih => exact hstep _ _ ih hlast

end Arena
