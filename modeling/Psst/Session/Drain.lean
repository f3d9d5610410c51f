import Psst.Session.Accounts

/-!
# Sends, drains and the two flags

What every step of the ledger's calls does, and what follows for whole runs: the books balance
whenever the lock is free, each prepared send is under way at most once, a drain that succeeded
leaves nothing under way until admission is reopened, and a ledger that was closed admits nobody
but a caller that had looked at the flag before.
-/

namespace Psst

/-! ## What a step can do -/

namespace LedgerCall

/-- The last thing `reserve` does. -/
def admitting : LedgerCall → Bool
  | reserving stage _ _ => stage = .insert
  | _ => false

/-- `reserve` has loaded `permanently_closed` under the lock. -/
def pastFlag : LedgerCall → Bool
  | reserving stage _ _ => stage = .lockedOpen || stage = .insert
  | _ => false

/-- `reopen_admission` is about to let the ledger accept again. -/
def accepts : LedgerCall → Bool
  | reopening stage => stage = .accept
  | _ => false

/-- The notifications at the end of `finish`. -/
def wakes (cell : Nat) (drained : Bool) (c : LedgerCall) : LedgerCall :=
  if drained then (c.notify cell).notifyDrained else c.notify cell

/-- There is nothing to be said of a call that gets here. -/
def idle : LedgerCall → Bool
  | drained => false
  | c => !c.admitted && !c.admitting && !c.pastFlag

/-- How a call goes on. -/
structure Goes (w : Ledgering) (c c' : LedgerCall) : Prop where
  locks : c'.locks = true → c.locks = true ∨ w.free = true
  admitted : c'.admitted = true → c.admitted = true ∨ c.admitting = true
  admitting : c'.admitting = true → w.ledger.inner.accepting = true
  pastFlag : c'.pastFlag = true → c.pastFlag = true ∨ w.ledger.permanentlyClosed = false
  answered : ∀ entry result, c' = .answered entry result →
    (w.ledger.terminals[entry.cell]?).join = some result
  parked : ∀ entry, c' = .parked entry false → (w.ledger.terminals[entry.cell]?).join = none
  drained : c' = .drained → w.ledger.inner.inflight = 0

end LedgerCall

theorem LedgerCall.Goes.of_idle {w : Ledgering} {c c' : LedgerCall} (hidle : c'.idle = true)
    (hlocks : c'.locks = true → c.locks = true ∨ w.free = true) : c.Goes w c' := by
  have hdrained : c' ≠ .drained := by
    rintro rfl
    cases hidle
  have hquiet : c'.admitted = false ∧ c'.admitting = false ∧ c'.pastFlag = false := by
    cases c' with
    | drained => cases hidle
    | _ => simpa [LedgerCall.idle, and_assoc] using hidle
  obtain ⟨hadmitted, hadmitting, hpast⟩ := hquiet
  refine ⟨hlocks, by simp [hadmitted], by simp [hadmitting], by simp [hpast], ?_, ?_,
    fun h => absurd h hdrained⟩
  · rintro entry result rfl
    cases hadmitted
  · rintro entry rfl
    cases hadmitted

/-- Everything a step of call `i` can do. -/
inductive Ledgering.Move (w : Ledgering) (i : Nat) : LedgerCall → Ledgering → Prop where
  | goes {c c' : LedgerCall} {s : SendLedger} (owner : c'.owner = c.owner) (goes : c.Goes w c')
      (inner : s.inner = w.ledger.inner) (terminals : s.terminals = w.ledger.terminals)
      (closed : w.ledger.permanentlyClosed = true → s.permanentlyClosed = true) :
      Move w i c (w.put i c' s)
  | accepts : Move w i (.reopening .accept)
      (w.put i (.reopening .openAdmission) (w.ledger.setAccepting true))
  | stops (free : w.free = true) : Move w i .draining
      (w.put i (if w.ledger.inner.inflight = 0 then .drained else .polling)
        (w.ledger.setAccepting false))
  | refuses {squadName : SquadName} {request : PreparedSend} (bytes : Nat) :
      Move w i (.reserving .insert squadName request)
        (w.put i (.refused .sendCapacity)
          (w.ledger.setInner (w.ledger.inner.makeRoom bytes w.ledger.inner.terminalFifo)))
  | admits {squadName : SquadName} {request : PreparedSend} {entry : SendEntry}
      {inner : SendLedgerInner}
      (room : inner
        = w.ledger.inner.makeRoom request.reservedBytes w.ledger.inner.terminalFifo)
      (fresh : w.ledger.inner.get request.operationIdentity = none)
      (fits : inner.full request.reservedBytes = false)
      (made : entry = ⟨w.ledger.terminals.length, request.reservedBytes⟩) :
      Move w i (.reserving .insert squadName request)
        ⟨{ w.ledger with
            inner := inner.insert request.operationIdentity entry
            terminals := w.ledger.terminals ++ [none] },
          w.calls.set i (.awaiting entry) ++ [.owning .waiting squadName request entry]⟩
  | publishes {squadName : SquadName} {request : PreparedSend} {entry : SendEntry}
      (result : SendTerminal) :
      Move w i (.owning (.publishing result) squadName request entry)
        (w.put i (.owning (.settling result) squadName request entry)
          { w.ledger with terminals := w.ledger.terminals.set entry.cell (some result) })
  | settles {squadName : SquadName} {request : PreparedSend} {entry : SendEntry}
      {result : SendTerminal} (drained : Bool) :
      Move w i (.owning (.settling result) squadName request entry)
        ⟨w.ledger.setInner (w.ledger.inner.settle request.operationIdentity entry result),
          (w.calls.set i .finished).map (LedgerCall.wakes entry.cell drained)⟩

/-- `finish` lets nobody in. -/
theorem SendLedgerInner.settle_counts (s : SendLedgerInner) (key : DedupeKey) (entry : SendEntry)
    (result : SendTerminal) : (s.settle key entry result).accepting = s.accepting
      ∧ (s.settle key entry result).inflight = s.inflight - 1 := by
  unfold SendLedgerInner.settle
  simp only
  split
  · exact ⟨rfl, rfl⟩
  · split <;> exact ⟨rfl, rfl⟩

namespace Ledgering

variable {w w' : Ledgering} {i : Nat}

theorem wake_eq (w : Ledgering) (entry : SendEntry) : w.wake entry = ⟨w.ledger,
    w.calls.map (LedgerCall.wakes entry.cell (decide (w.ledger.inner.inflight = 0)))⟩ := by
  by_cases hzero : w.ledger.inner.inflight = 0
  · simp only [wake, hzero, if_true, decide_true, List.map_map]
    rfl
  · simp only [wake, hzero, if_false, decide_false]
    rfl

theorem Move.stays {c c' : LedgerCall} (howner : c'.owner = c.owner) (h : c.Goes w c') :
    Move w i c (w.put i c' w.ledger) := .goes howner h rfl rfl id

theorem Move.idles {c c' : LedgerCall} (howner : c'.owner = c.owner) (hidle : c'.idle = true)
    (hlocks : c'.locks = false) : Move w i c (w.put i c' w.ledger) :=
  .stays howner (.of_idle hidle (by simp [hlocks]))

/-- A call that takes the lock, or has it. -/
theorem Move.holds {c c' : LedgerCall} (howner : c'.owner = c.owner) (hidle : c'.idle = true)
    (hlocks : c.locks = true ∨ w.free = true) : Move w i c (w.put i c' w.ledger) :=
  .stays howner (.of_idle hidle fun _ => hlocks)

theorem insert_move {squadName : SquadName} {request : PreparedSend}
    (h : w.reserveStep i squadName request .insert .plain = some w') :
    Move w i (.reserving .insert squadName request) w' := by
  simp only [reserveStep, SendLedger.reserveEntry] at h
  cases hget : w.ledger.inner.get request.operationIdentity with
  | some entry =>
      rw [hget] at h
      cases h
      refine .stays rfl ⟨?_, fun _ => Or.inr rfl, ?_, ?_, ?_, ?_, ?_⟩ <;> intros <;> contradiction
  | none =>
      rw [hget] at h
      simp only at h
      split at h
      · rename_i heq
        split_ifs at heq with hfull
        · cases heq
          cases h
          exact .refuses _
        · cases heq
      · rename_i heq
        split_ifs at heq
        · cases heq
        · cases heq
      · rename_i heq
        split_ifs at heq with hfull
        · cases heq
        · cases heq
          cases h
          exact .admits rfl hget (by simpa using hfull) rfl

theorem reserveStep_move {squadName : SquadName} {request : PreparedSend} {stage : ReserveStage}
    {choice : LedgerChoice} (h : w.reserveStep i squadName request stage choice = some w') :
    Move w i (.reserving stage squadName request) w' := by
  cases stage with
  | insert =>
      cases choice with
      | plain => exact insert_move h
      | _ => cases h
  | flag =>
      cases choice with
      | plain =>
          cases h
          split
          · exact .idles rfl rfl rfl
          · exact .idles rfl rfl rfl
      | _ => cases h
  | admission =>
      cases choice with
      | plain =>
          cases h
          split
          · exact .idles rfl rfl rfl
          · exact .idles rfl rfl rfl
      | _ => cases h
  | lock =>
      cases choice with
      | plain =>
          simp only [reserveStep, Option.ite_none_right_eq_some, Option.some.injEq] at h
          obtain ⟨hfree, rfl⟩ := h
          exact .holds rfl rfl (Or.inr hfree)
      | drop =>
          cases h
          exact .idles rfl rfl rfl
      | _ => cases h
  | lockedFlag =>
      cases choice with
      | plain =>
          cases h
          split
          · exact .idles rfl rfl rfl
          · rename_i hflag
            refine .stays rfl ⟨fun _ => Or.inl rfl, ?_, ?_, fun _ => Or.inr (by simpa using hflag),
              ?_, ?_, ?_⟩ <;> intros <;> contradiction
      | _ => cases h
  | lockedOpen =>
      cases choice with
      | plain =>
          cases h
          split
          · rename_i hopen
            rw [Bool.and_eq_true] at hopen
            refine .stays rfl ⟨fun _ => Or.inl rfl, ?_, fun _ => hopen.1, fun _ => Or.inl rfl,
              ?_, ?_, ?_⟩ <;> intros <;> contradiction
          · exact .idles rfl rfl rfl
      | _ => cases h

theorem ownStep_move {squadName : SquadName} {request : PreparedSend} {entry : SendEntry}
    {stage : SendStage} {choice : LedgerChoice}
    (h : w.ownStep i squadName request entry stage choice = some w') :
    Move w i (.owning stage squadName request entry) w' := by
  cases stage with
  | waiting =>
      cases choice with
      | plain =>
          cases h
          exact .idles rfl rfl rfl
      | stale =>
          cases h
          exact .idles rfl rfl rfl
      | _ => cases h
  | sending =>
      cases choice with
      | replied result =>
          cases h
          exact .idles rfl rfl rfl
      | _ => cases h
  | finishing result =>
      cases choice with
      | plain =>
          simp only [ownStep, Option.ite_none_right_eq_some, Option.some.injEq] at h
          obtain ⟨hfree, rfl⟩ := h
          exact .holds rfl rfl (Or.inr hfree)
      | _ => cases h
  | publishing result =>
      cases choice with
      | plain =>
          cases h
          exact .publishes result
      | _ => cases h
  | settling result =>
      cases choice with
      | plain =>
          have heq := Option.some.inj h
          rw [← heq, wake_eq]
          exact .settles _
      | _ => cases h

theorem reopenStep_move {stage : ReopenStage} {choice : LedgerChoice}
    (h : w.reopenStep i stage choice = some w') : Move w i (.reopening stage) w' := by
  cases stage with
  | accept =>
      cases choice with
      | plain =>
          cases h
          exact .accepts
      | _ => cases h
  | lock =>
      cases choice with
      | plain =>
          simp only [reopenStep, Option.ite_none_right_eq_some, Option.some.injEq] at h
          obtain ⟨hfree, rfl⟩ := h
          exact .holds rfl rfl (Or.inr hfree)
      | drop =>
          cases h
          exact .idles rfl rfl rfl
      | _ => cases h
  | flag =>
      cases choice with
      | plain =>
          cases h
          split
          · exact .idles rfl rfl rfl
          · exact .idles rfl rfl rfl
      | _ => cases h
  | lockedFlag =>
      cases choice with
      | plain =>
          cases h
          split
          · exact .idles rfl rfl rfl
          · exact .holds rfl rfl (Or.inl rfl)
      | _ => cases h
  | openAdmission =>
      cases choice with
      | plain =>
          cases h
          exact .goes rfl (.of_idle rfl fun _ => Or.inl rfl) rfl rfl id
      | _ => cases h
  | recheck =>
      cases choice with
      | plain =>
          cases h
          split
          · exact .holds rfl rfl (Or.inl rfl)
          · exact .idles rfl rfl rfl
      | _ => cases h
  | shut =>
      cases choice with
      | plain =>
          cases h
          exact .goes rfl (.of_idle rfl fun _ => Or.inl rfl) rfl rfl id
      | _ => cases h

/-- **The inversion of a call's step.** -/
theorem callStep_move {c : LedgerCall} {choice : LedgerChoice}
    (h : w.callStep i c choice = some w') : Move w i c w' := by
  unfold callStep at h
  split at h
  case h_1 => exact reserveStep_move h
  case h_6 => exact ownStep_move h
  case h_17 => exact reopenStep_move h
  case h_2 =>
    cases h
    refine .stays rfl ⟨nofun, fun _ => Or.inl rfl, nofun, nofun, nofun, nofun, nofun⟩
  case h_3 entry woken =>
    split at h
    · rename_i result hresult
      cases h
      refine .stays rfl ⟨nofun, fun _ => Or.inl rfl, nofun, nofun, ?_, nofun, nofun⟩
      rintro _ _ ⟨⟩
      exact hresult
    · rename_i hnone
      cases h
      refine .stays rfl ⟨nofun, fun _ => Or.inl rfl, nofun, nofun, nofun, ?_, nofun⟩
      rintro _ ⟨⟩
      exact hnone
  case h_4 =>
    cases h
    refine .stays rfl ⟨nofun, fun _ => Or.inl rfl, nofun, nofun, nofun, nofun, nofun⟩
  case h_7 | h_18 | h_19 =>
    cases h
    exact .goes rfl (.of_idle rfl nofun) rfl rfl (by simp)
  case h_8 =>
    simp only [Option.ite_none_right_eq_some, Option.some.injEq] at h
    obtain ⟨hfree, rfl⟩ := h
    exact .stops hfree
  case h_11 =>
    simp only [Option.ite_none_right_eq_some, Option.some.injEq] at h
    obtain ⟨-, rfl⟩ := h
    split
    · rename_i hzero
      refine .stays rfl ⟨nofun, nofun, nofun, nofun, nofun, nofun, fun _ => hzero⟩
    · exact .idles rfl rfl rfl
  case h_20 => cases h
  all_goals
    cases h
    exact .idles rfl rfl rfl

end Ledgering

/-! ## Woken calls -/

namespace LedgerCall

variable {cell : Nat} {drained : Bool} {c : LedgerCall}

@[simp] theorem owner_wakes : (c.wakes cell drained).owner = c.owner := by
  cases drained <;> cases c <;> rfl

@[simp] theorem locks_wakes : (c.wakes cell drained).locks = c.locks := by
  cases drained <;> cases c <;> rfl

@[simp] theorem admitted_wakes : (c.wakes cell drained).admitted = c.admitted := by
  cases drained <;> cases c <;> rfl

@[simp] theorem admitting_wakes : (c.wakes cell drained).admitting = c.admitting := by
  cases drained <;> cases c <;> rfl

@[simp] theorem pastFlag_wakes : (c.wakes cell drained).pastFlag = c.pastFlag := by
  cases drained <;> cases c <;> rfl

theorem eq_answered_of_wakes {entry : SendEntry} {result : SendTerminal}
    (h : c.wakes cell drained = .answered entry result) : c = .answered entry result := by
  cases drained <;> cases c <;> cases h <;> rfl

/-- Whoever is still asleep waits for another entry. -/
theorem eq_parked_of_wakes {entry : SendEntry} (h : c.wakes cell drained = .parked entry false) :
    c = .parked entry false ∧ entry.cell ≠ cell := by
  cases c with
  | parked e woken =>
      have hparked : LedgerCall.parked e (woken || e.cell == cell) = .parked entry false := by
        cases drained <;> exact h
      simp only [parked.injEq, Bool.or_eq_false_iff, beq_eq_false_iff_ne] at hparked
      obtain ⟨rfl, rfl, hne⟩ := hparked
      exact ⟨rfl, hne⟩
  | _ => cases drained <;> cases h

theorem eq_drained_of_wakes (h : c.wakes cell drained = .drained) : c = .drained := by
  cases drained <;> cases c <;> cases h <;> rfl

theorem wakes_eq_draining : c.wakes cell drained = .draining ↔ c = .draining := by
  cases drained <;> cases c <;> simp [wakes, notify, notifyDrained]

theorem wakes_eq_dropped : c.wakes cell drained = .dropped ↔ c = .dropped := by
  cases drained <;> cases c <;> simp [wakes, notify, notifyDrained]

/-- A call that did not step is as it was, but perhaps for a notification. -/
inductive Kept : LedgerCall → LedgerCall → Prop where
  | same (c : LedgerCall) : Kept c c
  | woken (c : LedgerCall) (cell : Nat) (drained : Bool) : Kept c (c.wakes cell drained)

theorem idle_quiet (h : c.idle = true) :
    c.admitted = false ∧ c.admitting = false ∧ c.pastFlag = false := by
  cases c with
  | drained => cases h
  | _ => simpa [idle, and_assoc] using h

end LedgerCall

namespace Ledgering

variable {w w' : Ledgering} {i : Nat}

/-- The tasks of a state. -/
def owners (w : Ledgering) : List (Option SendOwner) := w.calls.map LedgerCall.owner

theorem getElem?_owners {i : Nat} {o : SendOwner} :
    w.owners[i]? = some (some o) ↔ ∃ c, w.calls[i]? = some c ∧ c.owner = some o := by
  simp only [owners, List.getElem?_map, Option.map_eq_some_iff]

theorem owners_put {i : Nat} {c : LedgerCall} {s : SendLedger} :
    (w.put i c s).owners = w.owners.set i c.owner := by
  simp only [owners, put, List.map_set]

/-- A call that owns what it owned. -/
theorem owners_put_self {i : Nat} {c c' : LedgerCall} {s : SendLedger} (hi : w.calls[i]? = some c)
    (howner : c'.owner = c.owner) : (w.put i c' s).owners = w.owners := by
  rw [owners_put, howner]
  refine List.ext_getElem? fun j => ?_
  by_cases hj : i = j
  · subst hj
    have hlt := (List.getElem?_eq_some_iff.mp hi).1
    rw [List.getElem?_set_self (by rw [owners, List.length_map]; exact hlt), owners,
      List.getElem?_map, hi]
    rfl
  · rw [List.getElem?_set_ne hj]

/-- A task that has finished owns nothing, and who is woken owns what it owned. -/
theorem owners_settled (w : Ledgering) (i cell : Nat) (drained : Bool) :
    ((w.calls.set i .finished).map (LedgerCall.wakes cell drained)).map LedgerCall.owner
      = w.owners.set i none := by
  rw [List.map_map, owners, ← show LedgerCall.finished.owner = none from rfl, ← List.map_set]
  apply List.map_congr_left
  intro c _
  exact LedgerCall.owner_wakes

/-! ## The books in every run -/

/-- **A step keeps the books.** -/
theorem Move.books {c : LedgerCall} (h : Move w i c w') (hi : w.calls[i]? = some c)
    (hbooks : Books w.ledger.inner w.ledger.terminals w.owners) :
    Books w'.ledger.inner w'.ledger.terminals w'.owners := by
  cases h with
  | goes owner goes inner terminals closed =>
      rw [owners_put_self hi owner]
      rw [show (w.put i _ _).ledger.inner = w.ledger.inner from inner,
        show (w.put i _ _).ledger.terminals = w.ledger.terminals from terminals]
      exact hbooks
  | accepts =>
      have howner : (LedgerCall.reopening .openAdmission).owner
          = (LedgerCall.reopening .accept).owner := rfl
      rw [owners_put_self hi howner]
      exact hbooks.setAccepting true
  | stops free =>
      rw [owners_put_self hi (by split <;> rfl)]
      exact hbooks.setAccepting false
  | refuses bytes =>
      have howner : (LedgerCall.refused .sendCapacity).owner = none := rfl
      rw [owners_put_self hi howner]
      exact hbooks.makeRoom bytes _ _ rfl
  | @admits squadName request entry inner room fresh fits made =>
      have hroom : Books inner w.ledger.terminals w.owners := by
        rw [room]
        exact hbooks.makeRoom _ _ _ rfl
      have hfresh : inner.get request.operationIdentity = none := by
        rw [SendLedgerInner.get_eq_none] at fresh ⊢
        intro hmem
        obtain ⟨p, hp, hkey⟩ := List.mem_map.mp hmem
        rw [room] at hp
        rw [← hkey] at fresh
        exact fresh (List.mem_map_of_mem (SendLedgerInner.makeRoom_entries _ _ hp))
      have howner : (LedgerCall.awaiting entry).owner = none := rfl
      have howners : (w.put i (.awaiting entry) w.ledger).owners = w.owners :=
        owners_put_self hi howner
      have hnew : Books (inner.insert request.operationIdentity entry)
          (w.ledger.terminals ++ [none])
          (w.owners ++ [some ⟨request.operationIdentity, entry, none⟩]) := by
        apply hroom.insert hfresh
        · rw [made]
          exact fits
        · rw [made]
      rw [← howners] at hnew
      rw [owners, List.map_append]
      exact hnew
  | publishes result =>
      rw [owners_put]
      exact hbooks.publish (getElem?_owners.mpr ⟨_, hi, rfl⟩)
  | @settles squadName request entry result drained =>
      show Books _ _ (((w.calls.set i .finished).map _).map LedgerCall.owner)
      rw [owners_settled]
      have howner : w.owners[i]? = some (some ⟨request.operationIdentity, entry, some result⟩) :=
        getElem?_owners.mpr ⟨_, hi, rfl⟩
      exact hbooks.settle howner rfl

/-! ## Where the calls are -/

/-- **Every call of the next state**: the one that stepped, one that did not, or a new task. -/
theorem Move.call_cases {c c' : LedgerCall} {j : Nat} (h : Move w i c w')
    (hi : w.calls[i]? = some c) (hj : w'.calls[j]? = some c') :
    j = i ∧ c.Goes w c' ∨ (∃ c₀, w.calls[j]? = some c₀ ∧ j ≠ i ∧ c₀.Kept c')
      ∨ c'.idle = true ∧ c'.locks = false ∧ c' ≠ .draining ∧ c' ≠ .dropped := by
  have hput : ∀ {d : LedgerCall}, c.Goes w d → (w.calls.set i d)[j]? = some c' →
      j = i ∧ c.Goes w c' ∨ ∃ c₀, w.calls[j]? = some c₀ ∧ j ≠ i ∧ c₀.Kept c' := by
    intro d hgoes hset
    rcases getElem?_set_cases hset with ⟨hji, rfl⟩ | ⟨hne, hold⟩
    · exact Or.inl ⟨hji, hgoes⟩
    · exact Or.inr ⟨c', hold, hne, .same c'⟩
  cases h with
  | goes owner goes inner terminals closed => exact (hput goes hj).imp id Or.inl
  | accepts => exact (hput (.of_idle rfl fun _ => Or.inl rfl) hj).imp id Or.inl
  | stops free =>
      refine (hput ?_ hj).imp id Or.inl
      split
      · rename_i hzero
        exact ⟨nofun, nofun, nofun, nofun, nofun, nofun, fun _ => hzero⟩
      · exact .of_idle rfl nofun
  | @refuses squadName request bytes =>
      have hgoes : (LedgerCall.reserving .insert squadName request).Goes w (.refused .sendCapacity) :=
        .of_idle rfl nofun
      exact (hput hgoes hj).imp id Or.inl
  | @admits squadName request entry inner room fresh fits made =>
      have hgoes : (LedgerCall.reserving .insert squadName request).Goes w (.awaiting entry) :=
        ⟨nofun, fun _ => Or.inr rfl, nofun, nofun, nofun, nofun, nofun⟩
      rcases getElem?_append_cases hj with hold | rfl
      · exact (hput hgoes hold).imp id Or.inl
      · exact Or.inr (Or.inr ⟨rfl, rfl, nofun, nofun⟩)
  | publishes result => exact (hput (.of_idle rfl fun _ => Or.inl rfl) hj).imp id Or.inl
  | @settles squadName request entry result drained =>
      rw [List.getElem?_map, Option.map_eq_some_iff] at hj
      obtain ⟨d, hd, rfl⟩ := hj
      rcases getElem?_set_cases hd with ⟨hji, rfl⟩ | ⟨hne, hold⟩
      · refine Or.inl ⟨hji, .of_idle ?_ ?_⟩
        · cases drained <;> rfl
        · rw [LedgerCall.locks_wakes]
          nofun
      · exact Or.inr (Or.inl ⟨d, hold, hne, .woken d _ _⟩)

end Ledgering

namespace LedgerCall.Kept

variable {c c' : LedgerCall}

theorem locks (h : Kept c c') : c'.locks = c.locks := by
  cases h with
  | same => rfl
  | woken => exact locks_wakes

theorem admitted (h : Kept c c') : c'.admitted = c.admitted := by
  cases h with
  | same => rfl
  | woken => exact admitted_wakes

theorem admitting (h : Kept c c') : c'.admitting = c.admitting := by
  cases h with
  | same => rfl
  | woken => exact admitting_wakes

theorem pastFlag (h : Kept c c') : c'.pastFlag = c.pastFlag := by
  cases h with
  | same => rfl
  | woken => exact pastFlag_wakes

theorem answered (h : Kept c c') {entry : SendEntry} {result : SendTerminal}
    (hc : c' = .answered entry result) : c = .answered entry result := by
  cases h with
  | same => exact hc
  | woken => exact eq_answered_of_wakes hc

theorem drained (h : Kept c c') (hc : c' = .drained) : c = .drained := by
  cases h with
  | same => exact hc
  | woken => exact eq_drained_of_wakes hc

end LedgerCall.Kept

namespace Ledgering

variable {w w' : Ledgering} {i : Nat}

/-! ## The lock -/

/-- At most one call has the lock. -/
def Exclusive (w : Ledgering) : Prop :=
  ∀ (i j : Nat) (c d : LedgerCall), w.calls[i]? = some c → c.locks = true →
    w.calls[j]? = some d → d.locks = true → i = j

theorem free_locks (h : w.free = true) {j : Nat} {c : LedgerCall} (hj : w.calls[j]? = some c) :
    c.locks = false := by
  have hc := List.all_eq_true.mp h c (List.mem_of_getElem? hj)
  simpa using hc

theorem Move.exclusive {c : LedgerCall} (h : Move w i c w') (hi : w.calls[i]? = some c)
    (hw : w.Exclusive) : w'.Exclusive := by
  -- who has the lock afterwards had it, or has taken it while it was free
  have hback : ∀ (j : Nat) (d : LedgerCall), w'.calls[j]? = some d → d.locks = true →
      (∃ d₀, w.calls[j]? = some d₀ ∧ d₀.locks = true) ∨ j = i ∧ w.free = true := by
    intro j d hj hd
    rcases h.call_cases hi hj with ⟨rfl, hgoes⟩ | ⟨d₀, hold, -, hkept⟩ | ⟨-, hlocks, -⟩
    · exact (hgoes.locks hd).imp (fun hc => ⟨c, hi, hc⟩) fun hfree => ⟨rfl, hfree⟩
    · exact Or.inl ⟨d₀, hold, by rw [← hkept.locks]; exact hd⟩
    · rw [hlocks] at hd
      cases hd
  intro j k d e hj hd hk he
  rcases hback j d hj hd with ⟨d₀, hj₀, hd₀⟩ | ⟨hji, hfree⟩
  · rcases hback k e hk he with ⟨e₀, hk₀, he₀⟩ | ⟨hki, hfree⟩
    · exact hw j k d₀ e₀ hj₀ hd₀ hk₀ he₀
    · rw [free_locks hfree hj₀] at hd₀
      cases hd₀
  · rcases hback k e hk he with ⟨e₀, hk₀, he₀⟩ | ⟨hki, -⟩
    · rw [free_locks hfree hk₀] at he₀
      cases he₀
    · rw [hji, hki]

/-! ## The waiters -/

/-- **The waiters**: an answer is the result of the entry, and who sleeps will be woken. -/
structure Waiters (w : Ledgering) : Prop where
  answered : ∀ (i : Nat) (entry : SendEntry) (result : SendTerminal),
    w.calls[i]? = some (.answered entry result) →
    (w.ledger.terminals[entry.cell]?).join = some result
  parked : ∀ (i : Nat) (entry : SendEntry), w.calls[i]? = some (.parked entry false) →
    (w.ledger.terminals[entry.cell]?).join = none
      ∨ ∃ (j : Nat) (o : SendOwner) (result : SendTerminal), w.owners[j]? = some (some o)
        ∧ o.entry.cell = entry.cell ∧ o.result = some result

theorem join_set_ne {terminals : List (Option SendTerminal)} {j k : Nat}
    {x : Option SendTerminal} (hne : k ≠ j) : ((terminals.set j x)[k]?).join = (terminals[k]?).join := by
  rw [List.getElem?_set_ne (Ne.symm hne)]

/-- A new cell is empty. -/
theorem join_append_none (terminals : List (Option SendTerminal)) (k : Nat) :
    ((terminals ++ [none])[k]?).join = (terminals[k]?).join := by
  rw [List.getElem?_append]
  split
  · rfl
  · rename_i hge
    rw [List.getElem?_eq_none (Nat.not_lt.mp hge)]
    cases h : ([none] : List (Option SendTerminal))[k - terminals.length]? with
    | none => rfl
    | some x =>
        have hmem := List.mem_of_getElem? h
        rw [List.mem_singleton.mp hmem]
        rfl

/-- A step that publishes nothing. -/
theorem Waiters.kept {c : LedgerCall} (h : w.Waiters) (hmove : Move w i c w')
    (hi : w.calls[i]? = some c)
    (hterminals : ∀ k : Nat, (w'.ledger.terminals[k]?).join = (w.ledger.terminals[k]?).join)
    (howners : ∀ (j : Nat) (o : SendOwner), w.owners[j]? = some (some o) →
      w'.owners[j]? = some (some o))
    (hparked : ∀ (j : Nat) (entry : SendEntry), w'.calls[j]? = some (.parked entry false) →
      j ≠ i → w.calls[j]? = some (.parked entry false)) : w'.Waiters := by
  constructor
  · intro j entry result hj
    rw [hterminals]
    rcases hmove.call_cases hi hj with ⟨-, hgoes⟩ | ⟨c₀, hold, -, hkept⟩ | ⟨hidle, -⟩
    · exact hgoes.answered entry result rfl
    · rw [hkept.answered rfl] at hold
      exact h.answered j entry result hold
    · cases hidle
  · intro j entry hj
    rw [hterminals]
    rcases hmove.call_cases hi hj with ⟨-, hgoes⟩ | ⟨c₀, -, hne, -⟩ | ⟨hidle, -⟩
    · exact Or.inl (hgoes.parked entry rfl)
    · rcases h.parked j entry (hparked j entry hj hne) with hnone | ⟨k, o, result, hk, hcell, hr⟩
      · exact Or.inl hnone
      · exact Or.inr ⟨k, o, result, howners k o hk, hcell, hr⟩
    · cases hidle

theorem Move.waiters {c : LedgerCall} (h : Move w i c w') (hi : w.calls[i]? = some c)
    (hbooks : Books w.ledger.inner w.ledger.terminals w.owners) (hw : w.Waiters) :
    w'.Waiters := by
  have hset : ∀ {d : LedgerCall} {j : Nat} {entry : SendEntry},
      (w.calls.set i d)[j]? = some (.parked entry false) → j ≠ i →
      w.calls[j]? = some (.parked entry false) := by
    intro d j entry hj hne
    rw [List.getElem?_set_ne (Ne.symm hne)] at hj
    exact hj
  have hsame : ∀ {d : LedgerCall} {s : SendLedger}, d.owner = c.owner →
      ∀ (j : Nat) (o : SendOwner), w.owners[j]? = some (some o) →
      (w.put i d s).owners[j]? = some (some o) := by
    intro d s howner j o hj
    rw [owners_put_self hi howner]
    exact hj
  cases h with
  | goes owner goes inner terminals closed =>
      refine hw.kept (.goes owner goes inner terminals closed) hi ?_ (hsame owner)
        fun j entry hj hne => hset hj hne
      exact fun k => by rw [show (w.put i _ _).ledger.terminals = w.ledger.terminals from terminals]
  | accepts => exact hw.kept .accepts hi (fun _ => rfl) (hsame rfl) fun j e hj hne => hset hj hne
  | stops free =>
      exact hw.kept (.stops free) hi (fun _ => rfl) (hsame (by split <;> rfl))
        fun j e hj hne => hset hj hne
  | refuses bytes =>
      exact hw.kept (.refuses bytes) hi (fun _ => rfl) (hsame rfl) fun j e hj hne => hset hj hne
  | @admits squadName request entry inner room fresh fits made =>
      refine hw.kept (.admits room fresh fits made) hi (join_append_none _) ?_ ?_
      · intro j o hj
        rw [owners, List.map_append, List.getElem?_append_left]
        · exact @hsame (.awaiting entry) w.ledger rfl j o hj
        · rw [List.length_map, List.length_set]
          have hlt := (List.getElem?_eq_some_iff.mp hj).1
          rwa [owners, List.length_map] at hlt
      · intro j e hj hne
        rcases getElem?_append_cases hj with hold | heq
        · exact hset hold hne
        · cases heq
  | @publishes squadName request entry result =>
      have hi' : i < w.calls.length := (List.getElem?_eq_some_iff.mp hi).1
      have howner : w.owners[i]? = some (some ⟨request.operationIdentity, entry, none⟩) :=
        getElem?_owners.mpr ⟨_, hi, rfl⟩
      have hempty : (w.ledger.terminals[entry.cell]?).join = none := by
        rw [(hbooks.owned i _ howner).2.2]
        rfl
      constructor
      · intro j e r hj
        rcases getElem?_set_cases hj with ⟨-, heq⟩ | ⟨-, hold⟩
        · cases heq
        · have hanswer := hw.answered j e r hold
          have hne : e.cell ≠ entry.cell := by
            intro heq
            rw [heq, hempty] at hanswer
            cases hanswer
          exact (join_set_ne hne).trans hanswer
      · intro j e hj
        rcases getElem?_set_cases hj with ⟨-, heq⟩ | ⟨-, hold⟩
        · cases heq
        by_cases hcell : e.cell = entry.cell
        · -- it sleeps until the task notifies it
          refine Or.inr ⟨i, ⟨request.operationIdentity, entry, some result⟩, result, ?_, hcell.symm,
            rfl⟩
          exact getElem?_owners.mpr ⟨_, List.getElem?_set_self hi', rfl⟩
        · refine (hw.parked j e hold).imp (fun hnone => (join_set_ne hcell).trans hnone) ?_
          rintro ⟨k, o, r, hk, ho, hr⟩
          refine ⟨k, o, r, ?_, ho, hr⟩
          rw [owners_put, List.getElem?_set_ne]
          · exact hk
          · rintro rfl
            rw [howner] at hk
            cases hk
            cases hr
  | @settles squadName request entry result drained =>
      have howner : w.owners[i]? = some (some ⟨request.operationIdentity, entry, some result⟩) :=
        getElem?_owners.mpr ⟨_, hi, rfl⟩
      constructor
      · intro j e r hj
        rw [List.getElem?_map, Option.map_eq_some_iff] at hj
        obtain ⟨d, hd, hwakes⟩ := hj
        rw [LedgerCall.eq_answered_of_wakes hwakes] at hd
        rcases getElem?_set_cases hd with ⟨-, heq⟩ | ⟨-, hold⟩
        · cases heq
        · exact hw.answered j e r hold
      · intro j e hj
        rw [List.getElem?_map, Option.map_eq_some_iff] at hj
        obtain ⟨d, hd, hwakes⟩ := hj
        obtain ⟨rfl, hne⟩ := LedgerCall.eq_parked_of_wakes hwakes
        rcases getElem?_set_cases hd with ⟨-, heq⟩ | ⟨-, hold⟩
        · cases heq
        · refine (hw.parked j e hold).imp id ?_
          rintro ⟨k, o, r, hk, ho, hr⟩
          refine ⟨k, o, r, ?_, ho, hr⟩
          show (((w.calls.set i .finished).map _).map LedgerCall.owner)[k]? = _
          rw [owners_settled, List.getElem?_set_ne]
          · exact hk
          · rintro rfl
            rw [howner] at hk
            cases hk
            exact hne ho.symm

/-! ## Whole runs -/

/-- A new call is at its beginning. -/
theorem entry_idle {l : LedgerStep} {c : LedgerCall} (h : l.entry = some c) :
    c.idle = true ∧ c.locks = false ∧ c.owner = none ∧ c ≠ .draining ∧ c ≠ .dropped := by
  cases l with
  | run call choice => cases h
  | _ =>
      cases h
      exact ⟨rfl, rfl, rfl, nofun, nofun⟩

/-- **A step** is the step of a call, or a new call. -/
theorem step_cases {l : LedgerStep} (h : w.step l = some w') :
    (∃ i choice c, l = .run i choice ∧ w.calls[i]? = some c ∧ Move w i c w')
      ∨ ∃ c, l.entry = some c ∧ w' = { w with calls := w.calls ++ [c] } := by
  cases l with
  | run i choice =>
      obtain ⟨c, hc, hstep⟩ := Option.bind_eq_some_iff.mp h
      exact Or.inl ⟨i, choice, c, rfl, hc, callStep_move hstep⟩
  | send squadName request | stopAndDrain | reopenAdmission | closePermanently =>
      cases h
      exact Or.inr ⟨_, rfl, rfl⟩

/-- What holds in every run. -/
structure Inv (w : Ledgering) : Prop where
  books : Books w.ledger.inner w.ledger.terminals w.owners
  exclusive : w.Exclusive
  waiters : w.Waiters

theorem Inv.step {l : LedgerStep} (h : w.Inv) (hstep : w.step l = some w') : w'.Inv := by
  rcases step_cases hstep with ⟨i, choice, c, -, hi, hmove⟩ | ⟨c, hentry, rfl⟩
  · exact ⟨hmove.books hi h.books, hmove.exclusive hi h.exclusive,
      hmove.waiters hi h.books h.waiters⟩
  · obtain ⟨hidle, hlocks, howner, -, -⟩ := entry_idle hentry
    have howners : owners { w with calls := w.calls ++ [c] } = w.owners ++ [none] := by
      simp only [owners, List.map_append, List.map_singleton, howner]
    have hold : ∀ {j : Nat} {d : LedgerCall}, (w.calls ++ [c])[j]? = some d → d ≠ c →
        w.calls[j]? = some d := fun hj hne =>
      (getElem?_append_cases hj).resolve_right hne
    refine ⟨by rw [howners]; exact h.books.append_none, ?_, ?_, ?_⟩
    · intro j k d e hj hd hk he
      have hne : ∀ {d : LedgerCall}, d.locks = true → d ≠ c := by
        rintro d hd rfl
        rw [hlocks] at hd
        cases hd
      exact h.exclusive j k d e (hold hj (hne hd)) hd (hold hk (hne he)) he
    · intro j entry result hj
      refine h.waiters.answered j entry result (hold hj ?_)
      rintro rfl
      cases hidle
    · intro j entry hj
      refine (h.waiters.parked j entry (hold hj ?_)).imp id ?_
      · rintro rfl
        cases hidle
      · rintro ⟨k, o, r, hk, ho, hr⟩
        refine ⟨k, o, r, ?_, ho, hr⟩
        rw [howners, List.getElem?_append_left (List.getElem?_eq_some_iff.mp hk).1]
        exact hk

theorem inv_of_reach (h : ledgerLts.Reach Lts.always w) : w.Inv := by
  refine h.invariant (P := Inv) ?_ fun s l t hs _ hstep => hs.step hstep
  rintro w rfl
  exact ⟨.new, by intro i j c d hi; simp at hi, by constructor <;> intros <;> contradiction⟩

/-! ## Without reopening -/

/-- No step of `reopen_admission` lets the ledger accept again. -/
def Unaccepting (w : Ledgering) : LedgerStep → Prop
  | .run i _ => (w.calls[i]?).all (fun c => !c.accepts) = true
  | _ => True

instance (w : Ledgering) (l : LedgerStep) : Decidable (w.Unaccepting l) :=
  match l with
  | .run i _ => inferInstanceAs (Decidable ((w.calls[i]?).all (fun c => !c.accepts) = true))
  | .send _ _ | .stopAndDrain | .reopenAdmission | .closePermanently => .isTrue trivial

/-- Nothing is accepted, and nobody has been told otherwise. -/
structure Shut (w : Ledgering) : Prop where
  accepting : w.ledger.inner.accepting = false
  admitting : ∀ (i : Nat) (c : LedgerCall), w.calls[i]? = some c → c.admitting = false

theorem setAccepting_shut (hfree : w.free = true) {c : LedgerCall} (hc : c.admitting = false) :
    (w.put i c (w.ledger.setAccepting false)).Shut := by
  refine ⟨rfl, fun j d hj => ?_⟩
  rcases getElem?_set_cases hj with ⟨-, rfl⟩ | ⟨-, hold⟩
  · exact hc
  · have hlocks := free_locks hfree hold
    cases d with
    | reserving stage squadName request => cases stage <;> first | rfl | cases hlocks
    | _ => rfl

/-- **A shut ledger stays shut**, and admits no send. -/
theorem Move.shut {c : LedgerCall} (h : Move w i c w') (hi : w.calls[i]? = some c)
    (hc : c ≠ .reopening .accept) (hw : w.Shut) :
    w'.Shut ∧ (w.ledger.inner.inflight = 0 → w'.ledger.inner.inflight = 0) := by
  have hadmitting : ∀ (j : Nat) (d : LedgerCall), w'.calls[j]? = some d →
      d.admitting = false := by
    intro j d hj
    rcases h.call_cases hi hj with ⟨-, hgoes⟩ | ⟨d₀, hold, -, hkept⟩ | ⟨hidle, -⟩
    · by_contra hd
      rw [Bool.not_eq_false] at hd
      have haccepting := hgoes.admitting hd
      rw [hw.accepting] at haccepting
      cases haccepting
    · rw [hkept.admitting]
      exact hw.admitting j d₀ hold
    · exact (LedgerCall.idle_quiet hidle).2.1
  have hnot := hw.admitting i c hi
  cases h with
  | goes owner goes inner terminals closed =>
      refine ⟨⟨?_, hadmitting⟩, fun hzero => ?_⟩
      · rw [← hw.accepting]
        exact congrArg SendLedgerInner.accepting inner
      · rw [← hzero]
        exact congrArg SendLedgerInner.inflight inner
  | accepts => exact absurd rfl hc
  | stops free => exact ⟨⟨rfl, hadmitting⟩, id⟩
  | refuses bytes => cases hnot
  | admits room fresh fits made => cases hnot
  | publishes result => exact ⟨⟨hw.accepting, hadmitting⟩, id⟩
  | @settles squadName request entry result drained =>
      obtain ⟨haccepting, hinflight⟩ :=
        w.ledger.inner.settle_counts request.operationIdentity entry result
      refine ⟨⟨haccepting.trans hw.accepting, hadmitting⟩, fun hzero => ?_⟩
      show (w.ledger.inner.settle _ _ _).inflight = 0
      rw [hinflight, hzero]

theorem Shut.step {l : LedgerStep} (h : w.Shut) (hok : w.Unaccepting l)
    (hstep : w.step l = some w') :
    w'.Shut ∧ (w.ledger.inner.inflight = 0 → w'.ledger.inner.inflight = 0) := by
  rcases step_cases hstep with ⟨i, choice, c, hl, hi, hmove⟩ | ⟨c, hentry, rfl⟩
  · refine hmove.shut hi ?_ h
    rintro rfl
    rw [hl] at hok
    simp only [Unaccepting, hi] at hok
    cases hok
  · refine ⟨⟨h.accepting, fun j d hj => ?_⟩, id⟩
    rcases getElem?_append_cases hj with hold | rfl
    · exact h.admitting j d hold
    · exact (LedgerCall.idle_quiet (entry_idle hentry).1).2.1

/-- Nothing is under way, and nothing can get under way. -/
structure Still (w : Ledgering) : Prop where
  shut : w.Shut
  inflight : w.ledger.inner.inflight = 0

/-- A call of `stop_and_drain` that has cleared the first flag, and what it will see. -/
def Drains (i : Nat) (w : Ledgering) : Prop :=
  w.calls[i]? = some .draining ∨ w.calls[i]? = some .dropped
    ∨ w.Shut ∧ (w.calls[i]? = some .drained → w.ledger.inner.inflight = 0)

/-- A call that does not step is kept. -/
theorem Move.keeps {c c₀ : LedgerCall} {j : Nat} (h : Move w i c w') (hj : w.calls[j]? = some c₀)
    (hne : j ≠ i) : ∃ c', w'.calls[j]? = some c' ∧ c₀.Kept c' := by
  have hput : ∀ {d : LedgerCall}, (w.calls.set i d)[j]? = some c₀ := by
    intro d
    rw [List.getElem?_set_ne (Ne.symm hne)]
    exact hj
  cases h with
  | admits room fresh fits made =>
      refine ⟨c₀, ?_, .same _⟩
      rw [List.getElem?_append_left (List.getElem?_eq_some_iff.mp hput).1]
      exact hput
  | @settles squadName request entry result drained =>
      refine ⟨c₀.wakes entry.cell drained, ?_, .woken c₀ _ drained⟩
      rw [List.getElem?_map, hput]
      rfl
  | _ => exact ⟨c₀, hput, .same _⟩

/-- The calls that are there stay when one is added. -/
theorem getElem?_new {c c₀ : LedgerCall} {j : Nat} (hj : w.calls[j]? = some c₀) :
    (w.calls ++ [c])[j]? = some c₀ := by
  rw [List.getElem?_append_left (List.getElem?_eq_some_iff.mp hj).1]
  exact hj

theorem Drains.step {l : LedgerStep} (h : w.Drains i) (hok : w.Unaccepting l)
    (hstep : w.step l = some w') : w'.Drains i := by
  rcases h with hdraining | hdropped | ⟨hshut, hdrained⟩
  · rcases step_cases hstep with ⟨j, choice, c, rfl, hj, hmove⟩ | ⟨c, -, rfl⟩
    · by_cases hji : i = j
      · subst hji
        -- the lock is free, so nobody is about to admit
        have hcall : w.callStep i .draining choice = some w' := by
          rw [Ledgering.step, hdraining] at hstep
          exact hstep
        have hlt := (List.getElem?_eq_some_iff.mp hdraining).1
        cases choice with
        | plain =>
            simp only [callStep, Option.ite_none_right_eq_some, Option.some.injEq] at hcall
            obtain ⟨hfree, rfl⟩ := hcall
            refine Or.inr (Or.inr ⟨setAccepting_shut hfree (by split <;> rfl), fun hdrained => ?_⟩)
            simp only [put, List.getElem?_set_self hlt] at hdrained
            split at hdrained
            · assumption
            · cases hdrained
        | drop =>
            cases hcall
            exact Or.inr (Or.inl (List.getElem?_set_self hlt))
        | _ => cases hcall
      · obtain ⟨c', hc', hkept⟩ := hmove.keeps hdraining hji
        refine Or.inl ?_
        cases hkept with
        | same => exact hc'
        | woken => rw [hc', LedgerCall.wakes_eq_draining.mpr rfl]
    · exact Or.inl (getElem?_new hdraining)
  · rcases step_cases hstep with ⟨j, choice, c, rfl, hj, hmove⟩ | ⟨c, -, rfl⟩
    · by_cases hji : i = j
      · subst hji
        rw [Ledgering.step, hdropped] at hstep
        cases hstep
      · obtain ⟨c', hc', hkept⟩ := hmove.keeps hdropped hji
        refine Or.inr (Or.inl ?_)
        cases hkept with
        | same => exact hc'
        | woken => rw [hc', LedgerCall.wakes_eq_dropped.mpr rfl]
    · exact Or.inr (Or.inl (getElem?_new hdropped))
  · obtain ⟨hshut', hzero⟩ := hshut.step hok hstep
    refine Or.inr (Or.inr ⟨hshut', fun hnow => hzero ?_⟩)
    rcases step_cases hstep with ⟨j, choice, c, -, hj, hmove⟩ | ⟨c, hentry, rfl⟩
    · rcases hmove.call_cases hj hnow with ⟨-, hgoes⟩ | ⟨c₀, hold, -, hkept⟩ | ⟨hidle, -⟩
      · exact hgoes.drained rfl
      · rw [hkept.drained rfl] at hold
        exact hdrained hold
      · cases hidle
    · rcases getElem?_append_cases hnow with hold | rfl
      · exact hdrained hold
      · cases (entry_idle hentry).1

/-! ## What the ledger promises -/

/-- **The ledger is sound**: its bounds, its counters when the lock is free, and one result for
each send. -/
structure Sound (w : Ledgering) : Prop where
  entries_le : w.ledger.inner.entries.length ≤ maxOwnedSends
  retained_eq : w.ledger.inner.retainedBytes
    = (w.ledger.inner.entries.map fun p => p.2.retainedBytes).sum
  retained_le : w.ledger.inner.retainedBytes ≤ maxOwnedSendBytes
  inflight_eq : w.free = true → w.ledger.inner.inflight
    = w.ledger.inner.entries.countP fun p => (w.ledger.terminals[p.2.cell]?).join.isNone
  fifo_nodup : w.ledger.inner.terminalFifo.Nodup
  fifo_iff : w.free = true → ∀ p ∈ w.ledger.inner.entries,
    p.1 ∈ w.ledger.inner.terminalFifo ↔ (w.ledger.terminals[p.2.cell]?).join.isSome = true
  fifo_known : ∀ key ∈ w.ledger.inner.terminalFifo,
    key ∈ w.ledger.inner.entries.map Prod.fst
  /-- A send that is under way is never evicted. -/
  kept : ∀ (i : Nat) (stage : SendStage) (squadName : SquadName) (request : PreparedSend)
    (entry : SendEntry), w.calls[i]? = some (.owning stage squadName request entry) →
    (request.operationIdentity, entry) ∈ w.ledger.inner.entries
      ∧ request.operationIdentity ∉ w.ledger.inner.terminalFifo
  one_send : ∀ (i j : Nat) (stage stage' : SendStage) (squadName squadName' : SquadName)
    (request request' : PreparedSend) (entry entry' : SendEntry),
    w.calls[i]? = some (.owning stage squadName request entry) →
    w.calls[j]? = some (.owning stage' squadName' request' entry') →
    request.operationIdentity = request'.operationIdentity → i = j
  one_result : ∀ (i j : Nat) (entry : SendEntry) (result result' : SendTerminal),
    w.calls[i]? = some (.answered entry result) →
    w.calls[j]? = some (.answered entry result') → result = result'
  /-- Who sleeps while the lock is free waits for a send that is under way. -/
  woken : w.free = true → ∀ (i : Nat) (entry : SendEntry),
    w.calls[i]? = some (.parked entry false) →
    (w.ledger.terminals[entry.cell]?).join = none

/-- With the lock free no task has published a result that is not in the books. -/
theorem free_owner (hfree : w.free = true) {i : Nat} {o : SendOwner}
    (hi : w.owners[i]? = some (some o)) : o.result = none := by
  obtain ⟨c, hc, howner⟩ := getElem?_owners.mp hi
  have hlocks := free_locks hfree hc
  cases c with
  | owning stage squadName request entry =>
      cases howner
      cases stage <;> first | rfl | cases hlocks
  | _ => cases howner

theorem Inv.sound (h : w.Inv) : w.Sound := by
  have hbooks := h.books
  have howner : ∀ {i : Nat} {stage : SendStage} {squadName : SquadName} {request : PreparedSend}
      {entry : SendEntry}, w.calls[i]? = some (.owning stage squadName request entry) →
      w.owners[i]? = some (some ⟨request.operationIdentity, entry, stage.published⟩) :=
    fun hi => getElem?_owners.mpr ⟨_, hi, rfl⟩
  have hfifo : w.free = true → ∀ p ∈ w.ledger.inner.entries,
      (p.1 ∈ w.ledger.inner.terminalFifo
        ↔ (w.ledger.terminals[p.2.cell]?).join.isSome = true) := by
    intro hfree p hp
    constructor
    · intro hmem
      obtain ⟨entry, hentry, result, hresult⟩ := hbooks.terminal p.1 hmem
      have hsame : p = (p.1, entry) := List.inj_on_of_nodup_map hbooks.keys hp hentry rfl
      rw [hsame]
      show (w.ledger.terminals[entry.cell]?).join.isSome = true
      rw [hresult]
      rfl
    · intro hsome
      by_contra hnot
      obtain ⟨i, o, hi, hkey⟩ := hbooks.owner p hp hnot
      obtain ⟨hmem, -, hcell⟩ := hbooks.owned i o hi
      have hsame : p = (o.key, o.entry) :=
        List.inj_on_of_nodup_map hbooks.keys hp hmem hkey.symm
      rw [hsame, hcell, free_owner hfree hi] at hsome
      cases hsome
  have hknown : ∀ key ∈ w.ledger.inner.terminalFifo,
      key ∈ w.ledger.inner.entries.map Prod.fst := by
    intro key hkey
    obtain ⟨entry, hentry, -⟩ := hbooks.terminal key hkey
    exact List.mem_map_of_mem hentry
  refine ⟨hbooks.count_le, hbooks.retained, hbooks.retained_le, ?_, hbooks.fifo, hfifo, hknown,
    ?_, ?_, ?_, ?_⟩
  · intro hfree
    -- an entry without a result is one whose key is not queued
    have hqueued := countP_key_mem hbooks.keys hbooks.fifo hknown
    have hall : w.ledger.inner.entries.length = _ := List.length_eq_countP_add_countP
      fun p : DedupeKey × SendEntry => decide (p.1 ∈ w.ledger.inner.terminalFifo)
    have hopen : w.ledger.inner.entries.countP
          (fun p => (w.ledger.terminals[p.2.cell]?).join.isNone)
        = w.ledger.inner.entries.countP
          fun p => decide ¬decide (p.1 ∈ w.ledger.inner.terminalFifo) = true := by
      apply List.countP_congr
      intro p hp
      rw [decide_eq_true_eq, decide_eq_true_eq, hfifo hfree p hp]
      simp
    rw [hopen]
    have hinflight := hbooks.inflight
    omega
  · intro i stage squadName request entry hi
    obtain ⟨hmem, hnot, -⟩ := hbooks.owned i _ (howner hi)
    exact ⟨hmem, hnot⟩
  · intro i j stage stage' squadName squadName' request request' entry entry' hi hj hkey
    exact hbooks.unique i j _ _ (howner hi) (howner hj) hkey
  · intro i j entry result result' hi hj
    have hresult := h.waiters.answered i entry result hi
    rw [h.waiters.answered j entry result' hj] at hresult
    exact (Option.some.inj hresult).symm
  · intro hfree i entry hi
    rcases h.waiters.parked i entry hi with hnone | ⟨j, o, result, hj, -, hresult⟩
    · exact hnone
    · rw [free_owner hfree hj] at hresult
      cases hresult

/-- No send is under way. -/
theorem Inv.no_owner (h : w.Inv) (hzero : w.ledger.inner.inflight = 0) {stage : SendStage}
    {squadName : SquadName} {request : PreparedSend} {entry : SendEntry} :
    w.calls[i]? ≠ some (.owning stage squadName request entry) := by
  intro hi
  have howner : w.owners[i]? = some (some ⟨request.operationIdentity, entry, stage.published⟩) :=
    getElem?_owners.mpr ⟨_, hi, rfl⟩
  have hpos := h.books.inflight_pos howner
  omega

/-- **After a drain**: no send is under way, and no caller was admitted since. -/
structure Drained (before w : Ledgering) : Prop where
  inflight : w.ledger.inner.inflight = 0
  no_send : ∀ (i : Nat) (stage : SendStage) (squadName : SquadName) (request : PreparedSend)
    (entry : SendEntry), w.calls[i]? ≠ some (.owning stage squadName request entry)
  no_admission : ∀ (i : Nat) (c : LedgerCall), w.calls[i]? = some c → c.admitted = true →
    ∃ c₀, before.calls[i]? = some c₀ ∧ c₀.admitted = true

/-- **After the flag is set**: a caller that is admitted was admitted before, or had loaded the
flag under the lock before, and there is at most one of these. -/
structure Closed (before w : Ledgering) : Prop where
  admitted : ∀ (i : Nat) (c : LedgerCall), w.calls[i]? = some c → c.admitted = true →
    ∃ c₀, before.calls[i]? = some c₀ ∧ (c₀.admitted = true ∨ c₀.pastFlag = true)
  one : ∀ (i j : Nat) (c d : LedgerCall), before.calls[i]? = some c → c.pastFlag = true →
    before.calls[j]? = some d → d.pastFlag = true → i = j

/-- A closed ledger stays closed, and who gets past the flag was past it. -/
def PastFlag (before w : Ledgering) : Prop :=
  w.ledger.permanentlyClosed = true
    ∧ ∀ (i : Nat) (c : LedgerCall), w.calls[i]? = some c →
      c.admitted = true ∨ c.pastFlag = true →
      ∃ c₀, before.calls[i]? = some c₀ ∧ (c₀.admitted = true ∨ c₀.pastFlag = true)

theorem pastFlag_of_admitting {c : LedgerCall} (h : c.admitting = true) : c.pastFlag = true := by
  cases c with
  | reserving stage squadName request => cases stage <;> first | rfl | cases h
  | _ => cases h

theorem locks_of_pastFlag {c : LedgerCall} (h : c.pastFlag = true) : c.locks = true := by
  cases c with
  | reserving stage squadName request => cases stage <;> first | rfl | cases h
  | _ => cases h

theorem Move.permanentlyClosed {c : LedgerCall} (h : Move w i c w')
    (hclosed : w.ledger.permanentlyClosed = true) : w'.ledger.permanentlyClosed = true := by
  cases h with
  | goes owner goes inner terminals closed => exact closed hclosed
  | _ => exact hclosed

theorem PastFlag.step {before : Ledgering} {l : LedgerStep} (h : PastFlag before w)
    (hstep : w.step l = some w') : PastFlag before w' := by
  obtain ⟨hclosed, hpast⟩ := h
  rcases step_cases hstep with ⟨j, choice, c, -, hj, hmove⟩ | ⟨c, hentry, rfl⟩
  · refine ⟨hmove.permanentlyClosed hclosed, fun i d hi hd => ?_⟩
    rcases hmove.call_cases hj hi with ⟨rfl, hgoes⟩ | ⟨d₀, hold, -, hkept⟩ | ⟨hidle, -⟩
    · -- a call gets past the flag only while the flag is not set
      rcases hd with hadmitted | hflag
      · refine hpast i c hj ((hgoes.admitted hadmitted).imp id pastFlag_of_admitting)
      · rcases hgoes.pastFlag hflag with hbefore | hopen
        · exact hpast i c hj (Or.inr hbefore)
        · rw [hclosed] at hopen
          cases hopen
    · rw [hkept.admitted, hkept.pastFlag] at hd
      exact hpast i d₀ hold hd
    · obtain ⟨hadmitted, -, hflag⟩ := LedgerCall.idle_quiet hidle
      rw [hadmitted, hflag] at hd
      rcases hd with hd | hd <;> cases hd
  · refine ⟨hclosed, fun i d hi hd => ?_⟩
    rcases getElem?_append_cases hi with hold | rfl
    · exact hpast i d hold hd
    · obtain ⟨hadmitted, -, hflag⟩ := LedgerCall.idle_quiet (entry_idle hentry).1
      rw [hadmitted, hflag] at hd
      rcases hd with hd | hd <;> cases hd

/-- Without reopening nobody is admitted to a ledger that has been drained. -/
theorem Still.step {l : LedgerStep} {before : Ledgering}
    (h : w.Still ∧ ∀ (i : Nat) (c : LedgerCall), w.calls[i]? = some c → c.admitted = true →
      ∃ c₀, before.calls[i]? = some c₀ ∧ c₀.admitted = true)
    (hok : w.Unaccepting l) (hstep : w.step l = some w') :
    w'.Still ∧ ∀ (i : Nat) (c : LedgerCall), w'.calls[i]? = some c → c.admitted = true →
      ∃ c₀, before.calls[i]? = some c₀ ∧ c₀.admitted = true := by
  obtain ⟨⟨hshut, hzero⟩, hadmitted⟩ := h
  obtain ⟨hshut', hzero'⟩ := hshut.step hok hstep
  refine ⟨⟨hshut', hzero' hzero⟩, fun i d hi hd => ?_⟩
  rcases step_cases hstep with ⟨j, choice, c, -, hj, hmove⟩ | ⟨c, hentry, rfl⟩
  · rcases hmove.call_cases hj hi with ⟨rfl, hgoes⟩ | ⟨d₀, hold, -, hkept⟩ | ⟨hidle, -⟩
    · rcases hgoes.admitted hd with hbefore | hadmitting
      · exact hadmitted i c hj hbefore
      · rw [hshut.admitting i c hj] at hadmitting
        cases hadmitting
    · rw [hkept.admitted] at hd
      exact hadmitted i d₀ hold hd
    · rw [(LedgerCall.idle_quiet hidle).1] at hd
      cases hd
  · rcases getElem?_append_cases hi with hold | rfl
    · exact hadmitted i d hold hd
    · rw [(LedgerCall.idle_quiet (entry_idle hentry).1).1] at hd
      cases hd

end Ledgering

open Ledgering in
/-- **The send ledger**, in every interleaving of its calls: it is sound; once `stop_and_drain` has
succeeded no send is under way and none is admitted until `reopen_admission`; and once
`close_permanently` has set its flag nobody is admitted but the one caller that had loaded it
under the lock. -/
theorem send_ledger_safe :
    (∀ w, ledgerLts.Reach Lts.always w → w.Sound)
      ∧ (∀ (w w' w'' : Ledgering) (i : Nat), ledgerLts.Reach Lts.always w → w.calls[i]? = some .draining →
        ledgerLts.Steps Unaccepting w w' → w'.calls[i]? = some .drained →
        ledgerLts.Steps Unaccepting w' w'' → w'.Drained w'')
      ∧ ∀ w w', ledgerLts.Reach Lts.always w → w.ledger.permanentlyClosed = true →
        ledgerLts.Steps Lts.always w w' → w.Closed w' := by
  refine ⟨fun w hw => (inv_of_reach hw).sound, ?_, ?_⟩
  · intro w w' w'' i hw hdraining hrun hdrained hlater
    have hdrains : w'.Drains i := hrun.keeps (fun _ _ _ h hok hstep => h.step hok hstep)
      (Or.inl hdraining)
    have hstill : w'.Still := by
      rcases hdrains with h | h | ⟨hshut, hzero⟩
      · rw [hdrained] at h
        cases h
      · rw [hdrained] at h
        cases h
      · exact ⟨hshut, hzero hdrained⟩
    obtain ⟨⟨-, hzero⟩, hadmitted⟩ :=
      hlater.keeps (fun _ _ _ h hok hstep => Still.step h hok hstep)
        (And.intro hstill fun i c hi hc => ⟨c, hi, hc⟩)
    have hreach : ledgerLts.Reach Lts.always w'' :=
      (hw.steps (hrun.mono fun _ _ _ => trivial)).steps (hlater.mono fun _ _ _ => trivial)
    exact ⟨hzero, fun _ _ _ _ _ => (inv_of_reach hreach).no_owner hzero, hadmitted⟩
  · intro w w' hw hclosed hrun
    have hpast : PastFlag w w' := hrun.keeps (fun _ _ _ h _ hstep => h.step hstep)
      ⟨hclosed, fun i c hi hc => ⟨c, hi, hc⟩⟩
    refine ⟨fun i c hi hc => hpast.2 i c hi (Or.inl hc), ?_⟩
    intro i j c d hi hc hj hd
    exact (inv_of_reach hw).exclusive i j c d hi (locks_of_pastFlag hc) hj (locks_of_pastFlag hd)

namespace Sample

def emptyLedger : Ledgering := ⟨.new, []⟩

/-- Alice's note is reserved and its task has the answer of a busy relay. -/
def noteRefused : List LedgerStep :=
  .send alpha noteRequest :: List.replicate 6 (.run 0 .plain)
    ++ [.run 1 .plain, .run 1 (.replied (.error .clientBusy))]

/-- A caller gets past the flag, and the ledger is closed before it is admitted. -/
def closesLate : List LedgerStep :=
  .send alpha noteRequest :: List.replicate 5 (.run 0 .plain)
    ++ [.closePermanently, .run 1 .plain, .run 1 .plain]

end Sample

namespace Sample

def LedgerCall.isDraining : LedgerCall → Bool
  | .draining => true
  | _ => false

def LedgerCall.isDrained : LedgerCall → Bool
  | .drained => true
  | _ => false

def LedgerCall.isClosed : LedgerCall → Bool
  | .closed => true
  | _ => false

theorem eq_closed {c : LedgerCall} (h : LedgerCall.isClosed c = true) : c = .closed := by
  cases c <;> first | rfl | cases h

theorem eq_draining {c : LedgerCall} (h : LedgerCall.isDraining c = true) : c = .draining := by
  cases c <;> first | rfl | cases h

theorem eq_drained {c : LedgerCall} (h : LedgerCall.isDrained c = true) : c = .drained := by
  cases c <;> first | rfl | cases h

theorem emptyLedger_init : ledgerLts.init emptyLedger := rfl

end Sample

open Sample in
/-- A drain that waits for Alice's note. -/
theorem send_ledger_safe_drain :
    ∃ w w' : Ledgering, w.calls.length = 3 ∧ w'.Sound ∧ Ledgering.Drained w' w' := by
  have hrun : (Lts.follow Ledgering.step Lts.always emptyLedger
      (noteRefused ++ [.stopAndDrain, .run 2 .plain])).any (fun w =>
        decide (w.calls.length = 3) && (w.calls[2]?).any LedgerCall.isDraining
          && (Lts.follow Ledgering.step Ledgering.Unaccepting w
            (List.replicate 2 (.run 2 .plain) ++ List.replicate 3 (.run 1 .plain)
              ++ [.run 2 .plain])).any fun w' =>
            (w'.calls[2]?).any LedgerCall.isDrained) = true := by
    decide
  obtain ⟨w, hw, hcheck⟩ := Lts.exists_steps_of_follow _ hrun
  simp only [Bool.and_eq_true, decide_eq_true_eq] at hcheck
  obtain ⟨⟨hlength, hdraining⟩, hdrains⟩ := hcheck
  obtain ⟨w', hw', hdrained⟩ := Lts.exists_steps_of_follow _ hdrains
  obtain ⟨c, hc, hdraining⟩ := (Option.any_eq_true _ _).mp hdraining
  obtain ⟨c', hc', hdrained⟩ := (Option.any_eq_true _ _).mp hdrained
  rw [eq_draining hdraining] at hc
  rw [eq_drained hdrained] at hc'
  have hreach : ledgerLts.Reach Lts.always w := ⟨_, emptyLedger_init, hw⟩
  have hreach' : ledgerLts.Reach Lts.always w' := hreach.steps (hw'.mono fun _ _ _ => trivial)
  exact ⟨w, w', hlength, send_ledger_safe.1 w' hreach',
    send_ledger_safe.2.1 w w' w' 2 hreach hc hw' hc' (.refl _)⟩

open Sample in
/-- **A reservation after the close**: the caller has looked at the flag, under the lock, before
`close_permanently` sets it, and is admitted when `close_permanently` has returned. -/
theorem send_ledger_admits_late :
    ¬ ∀ (w w' : Ledgering) (i j : Nat), ledgerLts.Reach Lts.always w →
      w.calls[j]? = some .closed → ledgerLts.Steps Lts.always w w' →
      (w'.calls[i]?).any LedgerCall.admitted = true →
      (w.calls[i]?).any LedgerCall.admitted = true := by
  intro hclaim
  have hrun : (Lts.follow Ledgering.step Lts.always emptyLedger closesLate).any (fun w =>
      (w.calls[1]?).any LedgerCall.isClosed && !(w.calls[0]?).any LedgerCall.admitted
        && (Lts.follow Ledgering.step Lts.always w [.run 0 .plain]).any fun w' =>
          (w'.calls[0]?).any LedgerCall.admitted) = true := by
    decide
  obtain ⟨w, hw, hcheck⟩ := Lts.exists_steps_of_follow _ hrun
  simp only [Bool.and_eq_true, Bool.not_eq_true'] at hcheck
  obtain ⟨⟨hclosed, hbefore⟩, hafter⟩ := hcheck
  obtain ⟨w', hw', hadmitted⟩ := Lts.exists_steps_of_follow _ hafter
  obtain ⟨c, hc, hclosed⟩ := (Option.any_eq_true _ _).mp hclosed
  rw [eq_closed hclosed] at hc
  rw [hclaim w w' 0 1 ⟨_, emptyLedger_init, hw⟩ hc hw' hadmitted] at hbefore
  cases hbefore

end Psst
