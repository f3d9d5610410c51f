import Mathlib.Data.List.Nodup
import Mathlib.Data.List.Sort
import Mathlib.Tactic.Common

/-!
# Tables as lists of rows

Just enough of a relational store: rows in a list, a column that identifies them, guarded
updates, and ordered reads. An `UPDATE ... SET ... WHERE` is `updateWhere`, a partial
unique index is `UniqueOn`, a single-row lookup is `List.find?`.
-/

namespace Table

variable {α κ : Type}

/-! ## Updates -/

/-- `UPDATE rows SET f WHERE p`. -/
def updateWhere (p : α → Bool) (f : α → α) (rows : List α) : List α :=
  rows.map fun a => if p a then f a else a

@[simp] theorem mem_updateWhere {p : α → Bool} {f : α → α} {rows : List α} {b : α} :
    b ∈ updateWhere p f rows ↔ ∃ a ∈ rows, (if p a then f a else a) = b := by
  simp [updateWhere]

/-- A column the update does not assign is unchanged, row by row. -/
theorem map_updateWhere {β : Type} (g : α → β) {p : α → Bool} {f : α → α} {rows : List α}
    (hg : ∀ a, g (f a) = g a) : (updateWhere p f rows).map g = rows.map g := by
  unfold updateWhere
  rw [List.map_map]
  apply List.map_congr_left
  intro a _
  by_cases h : p a <;> simp [h, hg]

/-- An update that touches no row is the identity. -/
theorem updateWhere_eq_self {p : α → Bool} {f : α → α} {rows : List α}
    (h : ∀ a ∈ rows, p a = true → f a = a) : updateWhere p f rows = rows := by
  unfold updateWhere
  conv_rhs => rw [← List.map_id rows]
  apply List.map_congr_left
  intro a ha
  by_cases hp : p a = true
  · simp [hp, h a ha hp]
  · simp [hp]

/-- Two guards that agree on the rows at hand give the same update. -/
theorem updateWhere_congr {p q : α → Bool} {f : α → α} {rows : List α}
    (h : ∀ a ∈ rows, p a = q a) : updateWhere p f rows = updateWhere q f rows := by
  unfold updateWhere
  apply List.map_congr_left
  intro a ha
  rw [h a ha]

/-- An update that takes its rows out of a selection removes exactly them from it. -/
theorem filter_updateWhere_out {c q : α → Bool} {f : α → α} (rows : List α)
    (hout : ∀ a, q a = true → q (f a) = false) :
    (updateWhere (fun a => c a && q a) f rows).filter q
      = (rows.filter q).filter fun a => !c a := by
  induction rows with
  | nil => rfl
  | cons a rows ih =>
      have hcons : updateWhere (fun a => c a && q a) f (a :: rows)
          = (if (c a && q a) = true then f a else a)
            :: updateWhere (fun a => c a && q a) f rows := rfl
      simp only [hcons, List.filter_cons, ih]
      cases hq : q a <;> cases hc : c a <;> simp [hq, hc, hout]

/-- An update of rows outside a selection that stay outside does not change it. -/
theorem filter_updateWhere_of_out {p q : α → Bool} {f : α → α} (rows : List α)
    (hout : ∀ a, p a = true → q a = false ∧ q (f a) = false) :
    (updateWhere p f rows).filter q = rows.filter q := by
  induction rows with
  | nil => rfl
  | cons a rows ih =>
      have hcons : updateWhere p f (a :: rows)
          = (if p a = true then f a else a) :: updateWhere p f rows := rfl
      simp only [hcons, List.filter_cons, ih]
      cases hp : p a with
      | false => simp
      | true => simp [(hout a hp).1, (hout a hp).2]

/-! ## UniqueKey columns -/

/-- A unique index on the column `key`, over the rows that satisfy `p`. -/
def UniqueOn (p : α → Bool) (key : α → κ) (rows : List α) : Prop :=
  ((rows.filter p).map key).Nodup

instance [DecidableEq κ] (p : α → Bool) (key : α → κ) (rows : List α) :
    Decidable (UniqueOn p key rows) :=
  inferInstanceAs (Decidable (List.Nodup _))

/-- A unique index over all rows. -/
abbrev UniqueKey (key : α → κ) (rows : List α) : Prop := UniqueOn (fun _ => true) key rows

theorem UniqueOn.eq {p : α → Bool} {key : α → κ} {rows : List α} (h : UniqueOn p key rows)
    {a b : α} (ha : a ∈ rows) (hb : b ∈ rows) (hpa : p a = true) (hpb : p b = true)
    (hkey : key a = key b) : a = b :=
  List.inj_on_of_nodup_map h (List.mem_filter.mpr ⟨ha, hpa⟩) (List.mem_filter.mpr ⟨hb, hpb⟩)
    hkey

theorem UniqueKey.eq {key : α → κ} {rows : List α} (h : UniqueKey key rows) {a b : α}
    (ha : a ∈ rows) (hb : b ∈ rows) (hkey : key a = key b) : a = b :=
  UniqueOn.eq h ha hb rfl rfl hkey

/-- At most one row has a given key. -/
theorem UniqueKey.length_filter_le_one [DecidableEq κ] {key : α → κ} {rows : List α}
    (h : UniqueKey key rows) (k : κ) : (rows.filter fun a => decide (key a = k)).length ≤ 1 := by
  have hnodup : ((rows.filter fun a => decide (key a = k)).map key).Nodup := by
    unfold UniqueKey UniqueOn at h
    rw [List.filter_true] at h
    exact h.sublist (List.filter_sublist.map key)
  -- every key of the filtered rows is `k`, and they are distinct
  have hreplicate : (rows.filter fun a => decide (key a = k)).map key
      = List.replicate (rows.filter fun a => decide (key a = k)).length k := by
    rw [List.eq_replicate_iff]
    refine ⟨List.length_map _, ?_⟩
    intro b hb
    obtain ⟨a, ha, rfl⟩ := List.mem_map.mp hb
    simpa using (List.mem_filter.mp ha).2
  rw [hreplicate, List.nodup_replicate] at hnodup
  exact hnodup

/-- The key of a freshly appended row is new. -/
theorem UniqueKey.fresh {key : α → κ} {rows : List α} {a b : α}
    (h : UniqueKey key (rows ++ [a])) (hb : b ∈ rows) : key b ≠ key a := by
  intro hkey
  unfold UniqueKey UniqueOn at h
  rw [List.filter_true, List.map_append, List.nodup_append] at h
  exact h.2.2 (key b) (List.mem_map_of_mem hb) (key a) (by simp) hkey

/-- A guarded update that keeps the indexed column and the index guard keeps the index. -/
theorem UniqueKey.updateWhere {key : α → κ} {rows : List α} {p : α → Bool} {f : α → α}
    (h : UniqueKey key rows) (hkey : ∀ a, key (f a) = key a) :
    UniqueKey key (updateWhere p f rows) := by
  unfold UniqueKey UniqueOn at *
  rw [List.filter_true] at *
  rw [map_updateWhere key hkey]
  exact h

/-- A guarded update that keeps the key and brings no row under a partial index keeps it. -/
theorem UniqueOn.updateWhere {p q : α → Bool} {key : α → κ} {f : α → α} {rows : List α}
    (h : UniqueOn p key rows) (hkey : ∀ a, key (f a) = key a)
    (hp : ∀ a, p (f a) = true → p a = true) : UniqueOn p key (updateWhere q f rows) := by
  have hsub : (((Table.updateWhere q f rows).filter p).map key).Sublist
      ((rows.filter p).map key) := by
    clear h
    induction rows with
    | nil => exact List.Sublist.refl _
    | cons a rows ih =>
        have hcons : Table.updateWhere q f (a :: rows)
            = (if q a then f a else a) :: Table.updateWhere q f rows := rfl
        have hkey' : key (if q a then f a else a) = key a := by
          split
          · exact hkey a
          · rfl
        have hp' : p (if q a then f a else a) = true → p a = true := by
          split
          · exact hp a
          · exact id
        rw [hcons, List.filter_cons, List.filter_cons]
        by_cases hnew : p (if q a then f a else a) = true
        · rw [if_pos hnew, if_pos (hp' hnew), List.map_cons, List.map_cons, hkey']
          exact ih.cons_cons _
        · rw [if_neg hnew]
          split
          · rw [List.map_cons]
            exact ih.cons _
          · exact ih
  exact h.sublist hsub

/-- A row appended to a partial index collides with no row under it. -/
theorem UniqueOn.append_iff {p : α → Bool} {key : α → κ} {rows : List α} {a : α}
    (h : UniqueOn p key rows) :
    UniqueOn p key (rows ++ [a]) ↔ (p a = true → ∀ b ∈ rows, p b = true → key b ≠ key a) := by
  unfold UniqueOn at h ⊢
  rw [List.filter_append, List.map_append, List.nodup_append]
  by_cases hpa : p a = true
  · simp only [List.filter_cons, hpa, if_true, List.filter_nil, List.map_cons, List.map_nil,
      List.nodup_singleton, List.mem_map, List.mem_filter, List.mem_singleton, h, true_and,
      forall_true_left]
    constructor
    · intro hout b hb hpb
      exact hout (key b) ⟨b, ⟨hb, hpb⟩, rfl⟩ (key a) rfl
    · rintro hout _ ⟨b, ⟨hb, hpb⟩, rfl⟩ _ rfl
      exact hout b hb hpb
  · simp [hpa, h]

theorem UniqueKey.append_iff {key : α → κ} {rows : List α} {a : α} (h : UniqueKey key rows) :
    UniqueKey key (rows ++ [a]) ↔ ∀ b ∈ rows, key b ≠ key a := by
  rw [UniqueKey, UniqueOn.append_iff h]
  simp

/-- **Lookup by a unique column.** The row found is the row that has the key. -/
theorem UniqueKey.find?_eq_some [DecidableEq κ] {key : α → κ} {rows : List α}
    (h : UniqueKey key rows) {k : κ} {a : α} :
    rows.find? (fun b => decide (key b = k)) = some a ↔ a ∈ rows ∧ key a = k := by
  constructor
  · intro hfind
    exact ⟨List.mem_of_find?_eq_some hfind, by simpa using List.find?_some hfind⟩
  · rintro ⟨hmem, rfl⟩
    cases hfind : rows.find? (fun b => decide (key b = key a)) with
    | none => simpa using List.find?_eq_none.mp hfind a hmem
    | some b =>
        have hb := List.mem_of_find?_eq_some hfind
        have hkey : key b = key a := by simpa using List.find?_some hfind
        rw [h.eq hb hmem hkey]

/-! ## Ordered reads -/

/-- The first row of an ordered read is below every row read. -/
theorem head?_insertionSort_rel {r : α → α → Prop} [DecidableRel r] [Std.Total r] [IsTrans α r]
    {rows : List α} {a b : α} (h : (rows.insertionSort r).head? = some a) (hb : b ∈ rows) :
    a = b ∨ r a b := by
  have hsorted := List.pairwise_insertionSort r rows
  have hmem : b ∈ rows.insertionSort r := (List.mem_insertionSort r).mpr hb
  cases hrows : rows.insertionSort r with
  | nil => rw [hrows] at h; cases h
  | cons c cs =>
      rw [hrows] at h hsorted hmem
      cases h
      rcases List.mem_cons.mp hmem with rfl | hin
      · exact Or.inl rfl
      · exact Or.inr (List.rel_of_pairwise_cons hsorted hin)

theorem head?_insertionSort_mem {r : α → α → Prop} [DecidableRel r] {rows : List α} {a : α}
    (h : (rows.insertionSort r).head? = some a) : a ∈ rows :=
  (List.mem_insertionSort r).mp (List.mem_of_mem_head? h)

/-- **An ordered read depends on the set of rows only**, where ties are broken by a unique
column. -/
theorem insertionSort_eq_of_mem_iff {r : α → α → Prop} [DecidableRel r] [Std.Total r]
    [IsTrans α r] (key : α → κ) {rows rows' : List α} (hrows : (rows.map key).Nodup)
    (hrows' : (rows'.map key).Nodup) (hmem : ∀ a, a ∈ rows ↔ a ∈ rows')
    (htie : ∀ a b, r a b → r b a → key a = key b) :
    rows.insertionSort r = rows'.insertionSort r := by
  have hperm : rows.Perm rows' :=
    (List.perm_ext_iff_of_nodup hrows.of_map hrows'.of_map).mpr hmem
  have hsorted : (rows.insertionSort r).Perm (rows'.insertionSort r) :=
    (List.perm_insertionSort r rows).trans (hperm.trans (List.perm_insertionSort r rows').symm)
  refine hsorted.eq_of_pairwise ?_ (List.pairwise_insertionSort r rows)
    (List.pairwise_insertionSort r rows')
  intro a b ha hb hab hba
  have hb' : b ∈ rows := (hmem b).mpr ((List.mem_insertionSort r).mp hb)
  exact List.inj_on_of_nodup_map hrows ((List.mem_insertionSort r).mp ha) hb' (htie a b hab hba)

/-- The key of a selection of rows is unique when the key of the rows is. -/
theorem UniqueKey.nodup_filter {key : α → κ} {rows : List α} (h : UniqueKey key rows)
    (p : α → Bool) : ((rows.filter p).map key).Nodup := by
  unfold UniqueKey UniqueOn at h
  rw [List.filter_true] at h
  exact h.sublist (List.filter_sublist.map key)

end Table
