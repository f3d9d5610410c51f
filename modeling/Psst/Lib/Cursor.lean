import Mathlib.Data.List.Basic

/-!
# Reading a growing table page by page

Rows in the order of a key, read from a cursor on: a page holds the first rows whose key is
past the cursor, and the cursor moves to the last of them. What was read is always exactly the
rows up to the cursor, whatever was appended in between.
-/

namespace Cursor

variable {α : Type} (key : α → Nat)

/-- The rows up to a cursor. -/
def upTo (cursor : Nat) (rows : List α) : List α := rows.filter fun a => decide (key a ≤ cursor)

/-- The first `limit` rows past a cursor. -/
def page (cursor limit : Nat) (rows : List α) : List α :=
  (rows.filter fun a => decide (cursor < key a)).take limit

/-- The cursor after a page was read. -/
def next (cursor : Nat) (read : List α) : Nat := (read.getLast?.map key).getD cursor

variable {key}

/-- Rows in the order of their keys. -/
abbrev Ordered (key : α → Nat) (rows : List α) : Prop := rows.Pairwise fun a b => key a < key b

/-- Of rows that are all past the cursor none was read. -/
theorem upTo_eq_nil {cursor : Nat} {rows : List α} (hrows : ∀ a ∈ rows, cursor < key a) :
    upTo key cursor rows = [] :=
  List.filter_eq_nil_iff.mpr fun a ha hle =>
    Nat.not_lt.mpr (of_decide_eq_true hle) (hrows a ha)

/-- Ordered rows split at a cursor. -/
theorem upTo_append_rest {rows : List α} (h : Ordered key rows) (cursor : Nat) :
    upTo key cursor rows ++ rows.filter (fun a => decide (cursor < key a)) = rows := by
  induction rows with
  | nil => rfl
  | cons a rows ih =>
      obtain ⟨ha, hrows⟩ := List.pairwise_cons.mp h
      by_cases hle : key a ≤ cursor
      · have hread : upTo key cursor (a :: rows) = a :: upTo key cursor rows :=
          List.filter_cons_of_pos (decide_eq_true hle)
        have hrest : (a :: rows).filter (fun b => decide (cursor < key b))
            = rows.filter fun b => decide (cursor < key b) :=
          List.filter_cons_of_neg fun hlt => Nat.not_lt.mpr hle (of_decide_eq_true hlt)
        rw [hread, hrest, List.cons_append, ih hrows]
      · -- every later row is past the cursor too
        have hpast : ∀ b ∈ a :: rows, cursor < key b := by
          intro b hb
          rcases List.mem_cons.mp hb with rfl | hb
          · exact Nat.lt_of_not_le hle
          · exact Nat.lt_trans (Nat.lt_of_not_le hle) (ha b hb)
        have hall : (a :: rows).filter (fun b => decide (cursor < key b)) = a :: rows :=
          List.filter_eq_self.mpr fun b hb => decide_eq_true (hpast b hb)
        rw [upTo_eq_nil hpast, hall, List.nil_append]

/-- Rows appended past the cursor change nothing of what was read. -/
theorem upTo_append {cursor : Nat} {rows new : List α} (hnew : ∀ a ∈ new, cursor < key a) :
    upTo key cursor (rows ++ new) = upTo key cursor rows := by
  have hsplit : upTo key cursor (rows ++ new) = upTo key cursor rows ++ upTo key cursor new :=
    List.filter_append _ _
  rw [hsplit, upTo_eq_nil hnew, List.append_nil]

/-- Rows that are all up to the cursor were all read. -/
theorem upTo_eq_self {cursor : Nat} {rows : List α} (hrows : ∀ a ∈ rows, key a ≤ cursor) :
    upTo key cursor rows = rows :=
  List.filter_eq_self.mpr fun a ha => decide_eq_true (hrows a ha)

/-- **A page continues what was read.** -/
theorem upTo_append_page {rows : List α} (h : Ordered key rows) (cursor limit : Nat) :
    upTo key cursor rows ++ page key cursor limit rows
      = upTo key (next key cursor (page key cursor limit rows)) rows := by
  have hsplit := upTo_append_rest h cursor
  generalize hrest : rows.filter (fun a => decide (cursor < key a)) = rest at hsplit
  have hpage : page key cursor limit rows = rest.take limit := congrArg (List.take limit) hrest
  rw [hpage]
  cases hlast : (rest.take limit).getLast? with
  | none =>
      have hempty := List.getLast?_eq_none_iff.mp hlast
      rw [hempty, List.append_nil]
      rfl
  | some last =>
      have hnext : next key cursor (rest.take limit) = key last :=
        congrArg (fun found => (found.map key).getD cursor) hlast
      have hmem : last ∈ rest.take limit := List.mem_of_getLast? hlast
      have hpast : cursor < key last := by
        have hin := List.mem_of_mem_take hmem
        rw [← hrest] at hin
        simpa using (List.mem_filter.mp hin).2
      have hparts : upTo key cursor rows ++ rest.take limit ++ rest.drop limit = rows := by
        rw [List.append_assoc, List.take_append_drop, hsplit]
      have hordered : Ordered key (rest.take limit ++ rest.drop limit) := by
        rw [List.take_append_drop, ← hrest]
        exact h.filter _
      obtain ⟨htake, -, hdrop⟩ := List.pairwise_append.mp hordered
      rw [hnext]
      conv_rhs => rw [← hparts]
      -- the rows read are up to the last of them, the others past it
      have hread : ∀ a ∈ upTo key cursor rows ++ rest.take limit, key a ≤ key last := by
        intro a ha
        rcases List.mem_append.mp ha with ha | ha
        · have : key a ≤ cursor := by simpa using (List.mem_filter.mp ha).2
          omega
        · obtain ⟨before, hbefore⟩ := List.getLast?_eq_some_iff.mp hlast
          rw [hbefore] at ha htake
          rcases List.mem_append.mp ha with ha | ha
          · exact Nat.le_of_lt ((List.pairwise_append.mp htake).2.2 a ha last (by simp))
          · exact Nat.le_of_eq (congrArg key (List.mem_singleton.mp ha))
      have hleft : ∀ a ∈ rest.drop limit, key last < key a :=
        fun a ha => hdrop last hmem a ha
      rw [upTo_append hleft, upTo_eq_self hread]

/-- **An empty page means that everything was read.** -/
theorem upTo_of_page_eq_nil {rows : List α} (h : Ordered key rows) {cursor limit : Nat}
    (hlimit : 0 < limit) (hpage : page key cursor limit rows = []) :
    upTo key cursor rows = rows := by
  have hrest : rows.filter (fun a => decide (cursor < key a)) = [] := by
    rcases List.take_eq_nil_iff.mp hpage with hzero | hempty
    · omega
    · exact hempty
  have hsplit := upTo_append_rest h cursor
  rw [hrest, List.append_nil] at hsplit
  exact hsplit

end Cursor
