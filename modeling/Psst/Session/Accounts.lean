import Psst.Lib.Gate
import Psst.Session.Ledger

/-!
# The books balance

Every send that is kept either has ended, and then its key is queued to be forgotten, or a task of
its own is still to finish it. Each entry of the books is so accounted for exactly once, which is
why nothing that is under way is ever forgotten and the counters are what they say.
-/

namespace Psst

/-! ## Keyed lists -/

/-- Taking out the only pair of a key. -/
theorem perm_cons_filter_key {α β : Type} [DecidableEq α] [DecidableEq β] {pairs : List (α × β)}
    {key : α} {value : β} (hkeys : (pairs.map Prod.fst).Nodup) (hmem : (key, value) ∈ pairs) :
    pairs.Perm ((key, value) :: pairs.filter fun p => decide (p.1 ≠ key)) := by
  have herase : pairs.erase (key, value) = pairs.filter fun p => decide (p.1 ≠ key) := by
    rw [(hkeys.of_map _).erase_eq_filter]
    apply List.filter_congr
    intro p hp
    by_cases hkey : p.1 = key
    · have hsame : p = (key, value) := List.inj_on_of_nodup_map hkeys hp hmem hkey
      simp [hsame]
    · have hne : p ≠ (key, value) := fun h => hkey (by rw [h])
      simp [hkey, hne]
  rw [← herase]
  exact List.perm_cons_erase hmem

/-- How many pairs have a key in a list of their keys. -/
theorem countP_key_mem {α β : Type} [DecidableEq α] {pairs : List (α × β)} {keys : List α}
    (hpairs : (pairs.map Prod.fst).Nodup) (hkeys : keys.Nodup)
    (hsub : ∀ key ∈ keys, key ∈ pairs.map Prod.fst) :
    pairs.countP (fun p => decide (p.1 ∈ keys)) = keys.length := by
  have hperm : ((pairs.map Prod.fst).filter fun key => decide (key ∈ keys)).Perm keys := by
    rw [List.perm_ext_iff_of_nodup (hpairs.filter _) hkeys]
    intro key
    rw [List.mem_filter, decide_eq_true_eq]
    exact ⟨fun h => h.2, fun h => ⟨hsub key h, h⟩⟩
  rw [← hperm.length_eq, List.filter_map, List.length_map, List.countP_eq_length_filter]
  rfl

/-! ## The books -/

/-- A task that is still to finish a send, and the result it has published already. -/
structure SendOwner where
  key : DedupeKey
  entry : SendEntry
  result : Option SendTerminal

def SendStage.published : SendStage → Option SendTerminal
  | .settling result => some result
  | _ => none

def LedgerCall.owner : LedgerCall → Option SendOwner
  | owning stage _ request entry => some ⟨request.operationIdentity, entry, stage.published⟩
  | _ => none

/-- **The books balance** with the tasks. -/
structure Books (s : SendLedgerInner) (terminals : List (Option SendTerminal))
    (owners : List (Option SendOwner)) : Prop where
  keys : (s.entries.map Prod.fst).Nodup
  cells : (s.entries.map fun p => p.2.cell).Nodup
  inRange : ∀ p ∈ s.entries, p.2.cell < terminals.length
  retained : s.retainedBytes = (s.entries.map fun p => p.2.retainedBytes).sum
  retained_le : s.retainedBytes ≤ maxOwnedSendBytes
  count_le : s.entries.length ≤ maxOwnedSends
  fifo : s.terminalFifo.Nodup
  terminal : ∀ key ∈ s.terminalFifo, ∃ entry, (key, entry) ∈ s.entries
    ∧ ∃ result, terminals[entry.cell]? = some (some result)
  inflight : s.inflight + s.terminalFifo.length = s.entries.length
  owned : ∀ (i : Nat) (o : SendOwner), owners[i]? = some (some o) → (o.key, o.entry) ∈ s.entries
    ∧ o.key ∉ s.terminalFifo ∧ terminals[o.entry.cell]? = some o.result
  owner : ∀ p ∈ s.entries, p.1 ∉ s.terminalFifo →
    ∃ (i : Nat) (o : SendOwner), owners[i]? = some (some o) ∧ o.key = p.1
  unique : ∀ (i j : Nat) (o o' : SendOwner), owners[i]? = some (some o) → owners[j]? = some (some o') →
    o.key = o'.key → i = j

namespace SendLedgerInner

theorem get_eq_some {s : SendLedgerInner} (hkeys : (s.entries.map Prod.fst).Nodup)
    {key : DedupeKey} {entry : SendEntry} : s.get key = some entry ↔ (key, entry) ∈ s.entries := by
  unfold get
  rw [Option.map_eq_some_iff]
  constructor
  · rintro ⟨⟨key', entry'⟩, hfind, rfl⟩
    have hkey := List.find?_some hfind
    rw [decide_eq_true_eq] at hkey
    have hmem := List.mem_of_find?_eq_some hfind
    rw [← hkey]
    exact hmem
  · intro hmem
    have hsome : (s.entries.find? fun p => decide (p.1 = key)).isSome = true := by
      rw [List.find?_isSome]
      exact ⟨_, hmem, by simp⟩
    obtain ⟨p, hp⟩ := Option.isSome_iff_exists.mp hsome
    have hkey := List.find?_some hp
    rw [decide_eq_true_eq] at hkey
    have hsame : p = (key, entry) :=
      List.inj_on_of_nodup_map hkeys (List.mem_of_find?_eq_some hp) hmem hkey
    exact ⟨p, hp, by rw [hsame]⟩

theorem get_eq_none {s : SendLedgerInner} {key : DedupeKey} :
    s.get key = none ↔ key ∉ s.entries.map Prod.fst := by
  unfold get
  rw [Option.map_eq_none_iff, List.find?_eq_none, List.mem_map]
  simp only [decide_eq_true_eq, not_exists, not_and]

theorem mem_remove {s : SendLedgerInner} {key : DedupeKey} {p : DedupeKey × SendEntry} :
    p ∈ (s.remove key).entries ↔ p ∈ s.entries ∧ p.1 ≠ key := by
  simp only [remove, List.mem_filter, decide_eq_true_eq]

theorem evict_terminalFifo (s : SendLedgerInner) (key : DedupeKey) (rest : List DedupeKey) :
    (s.evict key rest).terminalFifo = rest := by
  unfold evict
  simp only
  split <;> rfl

theorem evict_entries {s : SendLedgerInner} {key : DedupeKey} {rest : List DedupeKey}
    {p : DedupeKey × SendEntry} (hp : p ∈ (s.evict key rest).entries) : p ∈ s.entries := by
  unfold evict at hp
  simp only at hp
  split at hp
  · exact (mem_remove.mp hp).1
  · exact hp

theorem makeRoom_entries {bytes : Nat} {p : DedupeKey × SendEntry} (fifo : List DedupeKey) :
    ∀ s : SendLedgerInner, p ∈ (s.makeRoom bytes fifo).entries → p ∈ s.entries := by
  induction fifo with
  | nil => exact fun s hp => hp
  | cons key rest ih =>
      intro s hp
      rw [makeRoom] at hp
      split at hp
      · exact evict_entries (ih _ hp)
      · exact hp

/-- There is room for a send. -/
theorem not_full {s : SendLedgerInner} {bytes : Nat} (h : s.full bytes = false) :
    s.entries.length < maxOwnedSends ∧ s.retainedBytes + bytes ≤ maxOwnedSendBytes := by
  rw [full, decide_eq_false_iff_not, not_or, Nat.not_le, Nat.not_lt, saturatingAdd] at h
  obtain ⟨hcount, hbytes⟩ := h
  have hmax : maxOwnedSendBytes < usizeMax := by decide
  refine ⟨hcount, ?_⟩
  rcases Nat.le_total (s.retainedBytes + bytes) usizeMax with hle | hle
  · rwa [Nat.min_eq_left hle] at hbytes
  · rw [Nat.min_eq_right hle] at hbytes
    omega

end SendLedgerInner

namespace Books

variable {s : SendLedgerInner} {terminals : List (Option SendTerminal)}
  {owners : List (Option SendOwner)}

theorem new : Books SendLedger.new.inner SendLedger.new.terminals [] where
  keys := List.nodup_nil
  cells := List.nodup_nil
  inRange := by simp [SendLedger.new]
  retained := rfl
  retained_le := Nat.zero_le _
  count_le := Nat.zero_le _
  fifo := List.nodup_nil
  terminal := by simp [SendLedger.new]
  inflight := rfl
  owned := by simp
  owner := by simp [SendLedger.new]
  unique := by simp

theorem setAccepting (h : Books s terminals owners) (accepting : Bool) :
    Books { s with accepting := accepting } terminals owners :=
  ⟨h.keys, h.cells, h.inRange, h.retained, h.retained_le, h.count_le, h.fifo, h.terminal,
    h.inflight, h.owned, h.owner, h.unique⟩

/-- A call that owns nothing. -/
theorem append_none (h : Books s terminals owners) : Books s terminals (owners ++ [none]) := by
  have hold : ∀ (i : Nat) (o : SendOwner), (owners ++ [none])[i]? = some (some o) → owners[i]? = some (some o) := by
    intro i o hi
    rw [List.getElem?_append] at hi
    split at hi
    · exact hi
    · have hmem := List.mem_of_getElem? hi
      simp at hmem
  refine ⟨h.keys, h.cells, h.inRange, h.retained, h.retained_le, h.count_le, h.fifo, h.terminal,
    h.inflight, fun i o hi => h.owned i o (hold i o hi), ?_,
    fun i j o o' hi hj => h.unique i j o o' (hold i o hi) (hold j o' hj)⟩
  intro p hp hfifo
  obtain ⟨i, o, hi, hkey⟩ := h.owner p hp hfifo
  have hlt := (List.getElem?_eq_some_iff.mp hi).1
  exact ⟨i, o, by rw [List.getElem?_append_left hlt]; exact hi, hkey⟩

/-! ## Forgetting a result -/

/-- Removing a key takes its entry out of the counts. -/
theorem removes (h : Books s terminals owners) {key : DedupeKey} {entry : SendEntry}
    (hmem : (key, entry) ∈ s.entries) :
    (s.remove key).entries.length + 1 = s.entries.length
      ∧ s.retainedBytes - entry.retainedBytes
        = ((s.remove key).entries.map fun p => p.2.retainedBytes).sum := by
  have hperm := perm_cons_filter_key h.keys hmem
  have hsum := (hperm.map fun p => p.2.retainedBytes).sum_eq
  rw [List.map_cons, List.sum_cons] at hsum
  refine ⟨hperm.length_eq.symm, ?_⟩
  rw [h.retained, hsum]
  exact Nat.add_sub_cancel_left _ _

theorem evict (h : Books s terminals owners) {key : DedupeKey} {rest : List DedupeKey}
    (hfifo : s.terminalFifo = key :: rest) : Books (s.evict key rest) terminals owners := by
  obtain ⟨entry, hmem, -⟩ := h.terminal key (by rw [hfifo]; exact List.mem_cons_self)
  have hget : { s with terminalFifo := rest }.get key = some entry :=
    (SendLedgerInner.get_eq_some h.keys).mpr hmem
  obtain ⟨hlength, hsum⟩ := h.removes hmem
  have hnodup := h.fifo
  rw [hfifo, List.nodup_cons] at hnodup
  have hinflight := h.inflight
  rw [hfifo, List.length_cons] at hinflight
  have hsub : ((s.remove key).entries).Sublist s.entries := List.filter_sublist
  unfold SendLedgerInner.evict
  simp only [hget]
  constructor
  · exact h.keys.sublist (hsub.map _)
  · exact h.cells.sublist (hsub.map _)
  · exact fun p hp => h.inRange p (SendLedgerInner.mem_remove.mp hp).1
  · exact hsum
  · exact Nat.le_trans (Nat.sub_le _ _) h.retained_le
  · exact Nat.le_trans hsub.length_le h.count_le
  · exact hnodup.2
  · intro key' hkey'
    obtain ⟨entry', hmem', hresult⟩ :=
      h.terminal key' (by rw [hfifo]; exact List.mem_cons_of_mem _ hkey')
    have hne : key' ≠ key := fun heq => hnodup.1 (by rw [← heq]; exact hkey')
    exact ⟨entry', SendLedgerInner.mem_remove.mpr ⟨hmem', hne⟩, hresult⟩
  · show s.inflight + rest.length = (s.remove key).entries.length
    omega
  · intro i o hi
    obtain ⟨ho, hnot, hcell⟩ := h.owned i o hi
    rw [hfifo, List.mem_cons, not_or] at hnot
    exact ⟨SendLedgerInner.mem_remove.mpr ⟨ho, hnot.1⟩, hnot.2, hcell⟩
  · intro p hp hnot
    obtain ⟨hold, hne⟩ := SendLedgerInner.mem_remove.mp hp
    apply h.owner p hold
    rw [hfifo, List.mem_cons, not_or]
    exact ⟨hne, hnot⟩
  · exact h.unique

/-- **Making room** forgets results only. -/
theorem makeRoom (bytes : Nat) (fifo : List DedupeKey) :
    ∀ s : SendLedgerInner, Books s terminals owners → s.terminalFifo = fifo →
      Books (s.makeRoom bytes fifo) terminals owners := by
  induction fifo with
  | nil => exact fun s h _ => h
  | cons key rest ih =>
      intro s h hfifo
      rw [SendLedgerInner.makeRoom]
      split
      · exact ih _ (h.evict hfifo) (s.evict_terminalFifo key rest)
      · exact h

/-! ## A send from its reservation to its end -/

/-- **A new send** has a task, and room. -/
theorem insert (h : Books s terminals owners) {key : DedupeKey} {entry : SendEntry}
    (hget : s.get key = none) (hroom : s.full entry.retainedBytes = false)
    (hcell : entry.cell = terminals.length) :
    Books (s.insert key entry) (terminals ++ [none]) (owners ++ [some ⟨key, entry, none⟩]) := by
  obtain ⟨hcount, hbytes⟩ := SendLedgerInner.not_full hroom
  have hfresh := SendLedgerInner.get_eq_none.mp hget
  have hnew : key ∉ s.terminalFifo := by
    intro hmem
    obtain ⟨e, he, -⟩ := h.terminal key hmem
    exact hfresh (List.mem_map_of_mem he)
  have hcells : ∀ {p : DedupeKey × SendEntry}, p ∈ s.entries →
      (terminals ++ [none])[p.2.cell]? = terminals[p.2.cell]? :=
    fun hp => List.getElem?_append_left (h.inRange _ hp)
  have howner : ∀ (i : Nat) (o : SendOwner),
      (owners ++ [some ⟨key, entry, none⟩])[i]? = some (some o) →
      owners[i]? = some (some o) ∨ i = owners.length ∧ o = ⟨key, entry, none⟩ := by
    intro i o hi
    rcases Nat.lt_trichotomy i owners.length with hlt | heq | hgt
    · rw [List.getElem?_append_left hlt] at hi
      exact Or.inl hi
    · rw [heq, List.getElem?_concat_length] at hi
      exact Or.inr ⟨heq, (Option.some.inj (Option.some.inj hi)).symm⟩
    · rw [List.getElem?_eq_none (by rw [List.length_append, List.length_singleton]; omega)] at hi
      cases hi
  unfold SendLedgerInner.insert
  constructor
  · rw [List.map_append, List.map_singleton, ← List.concat_eq_append]
    exact h.keys.concat hfresh
  · rw [List.map_append, List.map_singleton, ← List.concat_eq_append]
    refine h.cells.concat ?_
    intro hmem
    obtain ⟨p, hp, heq⟩ := List.mem_map.mp hmem
    have hsame : p.2.cell = entry.cell := heq
    have hlt := h.inRange p hp
    omega
  · intro p hp
    rw [List.length_append, List.length_singleton]
    rcases List.mem_append.mp hp with hold | hadded
    · have hlt := h.inRange p hold
      omega
    · rw [List.mem_singleton.mp hadded, hcell]
      exact Nat.lt_succ_self _
  · rw [List.map_append, List.sum_append, ← h.retained]
    simp
  · exact hbytes
  · rw [List.length_append, List.length_singleton]
    exact hcount
  · exact h.fifo
  · intro key' hkey'
    obtain ⟨e, he, result, hresult⟩ := h.terminal key' hkey'
    exact ⟨e, List.mem_append_left _ he, result, by rw [hcells he]; exact hresult⟩
  · show s.inflight + 1 + s.terminalFifo.length = _
    rw [List.length_append, List.length_singleton, ← h.inflight]
    omega
  · intro i o hi
    rcases howner i o hi with hold | ⟨-, rfl⟩
    · obtain ⟨ho, hnot, hterminal⟩ := h.owned i o hold
      exact ⟨List.mem_append_left _ ho, hnot, by rw [hcells ho]; exact hterminal⟩
    · refine ⟨List.mem_append_right _ (List.mem_singleton_self _), hnew, ?_⟩
      rw [hcell, List.getElem?_concat_length]
  · intro p hp hnot
    rcases List.mem_append.mp hp with hold | hadded
    · obtain ⟨i, o, hi, hkey⟩ := h.owner p hold hnot
      have hlt := (List.getElem?_eq_some_iff.mp hi).1
      exact ⟨i, o, by rw [List.getElem?_append_left hlt]; exact hi, hkey⟩
    · refine ⟨owners.length, ⟨key, entry, none⟩, List.getElem?_concat_length, ?_⟩
      rw [List.mem_singleton.mp hadded]
  · intro i j o o' hi hj hkey
    rcases howner i o hi with hold | ⟨hi', rfl⟩
    · rcases howner j o' hj with hold' | ⟨hj', rfl⟩
      · exact h.unique i j o o' hold hold' hkey
      · have hold' : o.key ∈ s.entries.map Prod.fst := List.mem_map_of_mem (h.owned i o hold).1
        rw [hkey] at hold'
        exact absurd hold' hfresh
    · rcases howner j o' hj with hold' | ⟨hj', rfl⟩
      · have hmem : o'.key ∈ s.entries.map Prod.fst := List.mem_map_of_mem (h.owned j o' hold').1
        rw [← hkey] at hmem
        exact absurd hmem hfresh
      · rw [hi', hj']

/-- The owners after one of them went on. -/
theorem owner_set {i j : Nat} {x : Option SendOwner} {o : SendOwner}
    (hj : (owners.set i x)[j]? = some (some o)) :
    j = i ∧ x = some o ∨ j ≠ i ∧ owners[j]? = some (some o) :=
  (getElem?_set_cases hj).imp (fun h => ⟨h.1, h.2.symm⟩) id

/-- Two owners have two cells. -/
theorem cell_ne (h : Books s terminals owners) {i j : Nat} {o o' : SendOwner}
    (hi : owners[i]? = some (some o)) (hj : owners[j]? = some (some o')) (hne : j ≠ i) :
    o'.entry.cell ≠ o.entry.cell := by
  intro hcell
  have hsame := List.inj_on_of_nodup_map h.cells (h.owned j o' hj).1 (h.owned i o hi).1 hcell
  exact hne (h.unique j i o' o hj hi (congrArg Prod.fst hsame))

/-- **The result is published.** -/
theorem publish (h : Books s terminals owners) {i : Nat} {o : SendOwner} {result : SendTerminal}
    (hi : owners[i]? = some (some o)) :
    Books s (terminals.set o.entry.cell (some result))
      (owners.set i (some { o with result := some result })) := by
  obtain ⟨hmem, hnot, hcell⟩ := h.owned i o hi
  have hrange : o.entry.cell < terminals.length := h.inRange _ hmem
  have hlt := (List.getElem?_eq_some_iff.mp hi).1
  refine ⟨h.keys, h.cells, ?_, h.retained, h.retained_le, h.count_le, h.fifo, ?_, h.inflight,
    ?_, ?_, ?_⟩
  · intro p hp
    rw [List.length_set]
    exact h.inRange p hp
  · intro key hkey
    obtain ⟨e, he, result', hresult⟩ := h.terminal key hkey
    by_cases hsame : o.entry.cell = e.cell
    · exact ⟨e, he, result, by rw [← hsame, List.getElem?_set_self hrange]⟩
    · exact ⟨e, he, result', by rw [List.getElem?_set_ne hsame]; exact hresult⟩
  · intro j o' hj
    rcases owner_set hj with ⟨rfl, heq⟩ | ⟨hne, hold⟩
    · cases heq
      exact ⟨hmem, hnot, List.getElem?_set_self hrange⟩
    · obtain ⟨ho, hnot', hterminal⟩ := h.owned j o' hold
      refine ⟨ho, hnot', ?_⟩
      rw [List.getElem?_set_ne (Ne.symm (h.cell_ne hi hold hne))]
      exact hterminal
  · intro p hp hfifo
    obtain ⟨j, o', hj, hkey⟩ := h.owner p hp hfifo
    by_cases hji : i = j
    · subst hji
      rw [hi] at hj
      cases hj
      exact ⟨i, _, List.getElem?_set_self hlt, hkey⟩
    · exact ⟨j, o', by rw [List.getElem?_set_ne hji]; exact hj, hkey⟩
  · intro j k o' o'' hj hk hkey
    have hback : ∀ {m : Nat} {p : SendOwner},
        (owners.set i (some { o with result := some result }))[m]? = some (some p) →
        ∃ p', owners[m]? = some (some p') ∧ p'.key = p.key := by
      intro m p hm
      rcases owner_set hm with ⟨rfl, heq⟩ | ⟨-, hold⟩
      · cases heq
        exact ⟨o, hi, rfl⟩
      · exact ⟨p, hold, rfl⟩
    obtain ⟨a, ha, hakey⟩ := hback hj
    obtain ⟨b, hb, hbkey⟩ := hback hk
    exact h.unique j k a b ha hb (by rw [hakey, hbkey, hkey])

/-- The owners that are left when one of them has finished. -/
theorem owner_set_none {i j : Nat} {o : SendOwner}
    (hj : (owners.set i none)[j]? = some (some o)) : j ≠ i ∧ owners[j]? = some (some o) := by
  rcases owner_set hj with ⟨-, heq⟩ | hold
  · cases heq
  · exact hold

/-- A send that is under way is counted. -/
theorem inflight_pos (h : Books s terminals owners) {i : Nat} {o : SendOwner}
    (hi : owners[i]? = some (some o)) : 0 < s.inflight := by
  obtain ⟨hmem, hnot, -⟩ := h.owned i o hi
  have hnodup : (o.key :: s.terminalFifo).Nodup := List.nodup_cons.mpr ⟨hnot, h.fifo⟩
  have hsub : (o.key :: s.terminalFifo) ⊆ s.entries.map Prod.fst := by
    intro key hkey
    rcases List.mem_cons.mp hkey with rfl | hfifo
    · exact List.mem_map_of_mem hmem
    · obtain ⟨e, he, -⟩ := h.terminal key hfifo
      exact List.mem_map_of_mem he
  have hlength := (List.subperm_of_subset hnodup hsub).length_le
  rw [List.length_cons, List.length_map, ← h.inflight] at hlength
  omega

/-- **The send is over**, and its result is kept. -/
theorem keep (h : Books s terminals owners) {i : Nat} {o : SendOwner} {result : SendTerminal}
    (hi : owners[i]? = some (some o)) (hresult : o.result = some result) :
    Books { s with inflight := s.inflight - 1, terminalFifo := s.terminalFifo ++ [o.key] }
      terminals (owners.set i none) := by
  obtain ⟨hmem, hnot, hcell⟩ := h.owned i o hi
  have hpos := h.inflight_pos hi
  refine ⟨h.keys, h.cells, h.inRange, h.retained, h.retained_le, h.count_le, ?_, ?_, ?_, ?_, ?_,
    ?_⟩
  · show (s.terminalFifo ++ [o.key]).Nodup
    rw [← List.concat_eq_append]
    exact h.fifo.concat hnot
  · intro key hkey
    rcases List.mem_append.mp hkey with hold | hadded
    · exact h.terminal key hold
    · rw [List.mem_singleton.mp hadded]
      exact ⟨o.entry, hmem, result, by rw [hcell, hresult]⟩
  · show s.inflight - 1 + (s.terminalFifo ++ [o.key]).length = s.entries.length
    rw [List.length_append, List.length_singleton, ← h.inflight]
    omega
  · intro j o' hj
    obtain ⟨hne, hold⟩ := owner_set_none hj
    obtain ⟨ho, hnot', hterminal⟩ := h.owned j o' hold
    refine ⟨ho, ?_, hterminal⟩
    intro hfifo
    rcases List.mem_append.mp hfifo with hkept | hadded
    · exact hnot' hkept
    · exact hne (h.unique j i o' o hold hi (List.mem_singleton.mp hadded))
  · intro p hp hfifo
    rw [List.mem_append, List.mem_singleton, not_or] at hfifo
    obtain ⟨j, o', hj, hkey⟩ := h.owner p hp hfifo.1
    have hji : i ≠ j := by
      rintro rfl
      rw [hi] at hj
      cases hj
      exact hfifo.2 hkey.symm
    exact ⟨j, o', by rw [List.getElem?_set_ne hji]; exact hj, hkey⟩
  · intro j k a b hj hk hkey
    exact h.unique j k a b (owner_set_none hj).2 (owner_set_none hk).2 hkey

/-- **The send is over**, and its result is too large to be kept. -/
theorem forget (h : Books s terminals owners) {i : Nat} {o : SendOwner}
    (hi : owners[i]? = some (some o)) :
    Books { s.remove o.key with
        inflight := s.inflight - 1, retainedBytes := s.retainedBytes - o.entry.retainedBytes }
      terminals (owners.set i none) := by
  obtain ⟨hmem, hnot, -⟩ := h.owned i o hi
  have hpos := h.inflight_pos hi
  obtain ⟨hlength, hsum⟩ := h.removes hmem
  have hsub : ((s.remove o.key).entries).Sublist s.entries := List.filter_sublist
  constructor
  · exact h.keys.sublist (hsub.map _)
  · exact h.cells.sublist (hsub.map _)
  · exact fun p hp => h.inRange p (SendLedgerInner.mem_remove.mp hp).1
  · exact hsum
  · exact Nat.le_trans (Nat.sub_le _ _) h.retained_le
  · exact Nat.le_trans hsub.length_le h.count_le
  · exact h.fifo
  · intro key hkey
    obtain ⟨e, he, hresult⟩ := h.terminal key hkey
    have hne : key ≠ o.key := fun heq => hnot (by rw [← heq]; exact hkey)
    exact ⟨e, SendLedgerInner.mem_remove.mpr ⟨he, hne⟩, hresult⟩
  · show s.inflight - 1 + s.terminalFifo.length = (s.remove o.key).entries.length
    have hinflight := h.inflight
    omega
  · intro j o' hj
    obtain ⟨hne, hold⟩ := owner_set_none hj
    obtain ⟨ho, hnot', hterminal⟩ := h.owned j o' hold
    refine ⟨SendLedgerInner.mem_remove.mpr ⟨ho, ?_⟩, hnot', hterminal⟩
    exact fun heq => hne (h.unique j i o' o hold hi heq)
  · intro p hp hfifo
    obtain ⟨hold, hne⟩ := SendLedgerInner.mem_remove.mp hp
    obtain ⟨j, o', hj, hkey⟩ := h.owner p hold hfifo
    have hji : i ≠ j := by
      rintro rfl
      rw [hi] at hj
      cases hj
      exact hne hkey.symm
    exact ⟨j, o', by rw [List.getElem?_set_ne hji]; exact hj, hkey⟩
  · intro j k a b hj hk hkey
    exact h.unique j k a b (owner_set_none hj).2 (owner_set_none hk).2 hkey

/-- **The end of `finish`.** -/
theorem settle (h : Books s terminals owners) {i : Nat} {o : SendOwner} {result : SendTerminal}
    (hi : owners[i]? = some (some o)) (hresult : o.result = some result) :
    Books (s.settle o.key o.entry result) terminals (owners.set i none) := by
  obtain ⟨hmem, -, -⟩ := h.owned i o hi
  have hget : { s with inflight := s.inflight - 1 }.get o.key = some o.entry :=
    (SendLedgerInner.get_eq_some h.keys).mpr hmem
  unfold SendLedgerInner.settle
  simp only
  split
  · exact h.keep hi hresult
  · rw [hget, Option.isSome_some, if_pos rfl]
    exact h.forget hi

end Books

end Psst
