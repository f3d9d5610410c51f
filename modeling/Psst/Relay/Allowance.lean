import Psst.Core.Value
import Psst.Lib.Unsigned

/-!
# The deadline of a long poll

`request_deadline` reads the wait of an inbox query with a splitter of its own, before the handler
reads the same query with `serde_urlencoded`. The two agree on the queries that spell the wait out.
-/

namespace Psst

open Unsigned

/-! ## The middleware -/

/-- The loop of `inbox_wait_allowance` over the pairs of the query. -/
def waitOfPairs : Option Nat → List Text → Option (Option Nat)
  | wait, [] => some wait
  | wait, pair :: pairs =>
    match splitOnce '=' pair with
    | none => none
    | some (name, value) =>
      if name = "wait".toList then
        if wait.isSome ∨ value = [] ∨ ¬ value.all Char.isDigit then none
        else
          match Unsigned.parse 255 value with
          | none => none
          | some seconds => if 30 < seconds then none else waitOfPairs (some seconds) pairs
      else waitOfPairs wait pairs

/-- The seconds of the wait that `inbox_wait_allowance` finds. -/
def waitOfQuery (query : Text) : Option Nat := (waitOfPairs none (query.splitOn '&')).join

/-- `inbox_wait_allowance` -/
def inboxWaitAllowance (path : String) (query : Option Text) : Option Duration :=
  if path ≠ "/v1/inbox" then none
  else (query.bind waitOfQuery).map fun seconds => .fromSecs (UInt64.ofNat seconds)

/-- `Duration::saturating_add` -/
def Duration.saturatingAdd (a b : Duration) : Duration :=
  ⟨Min.min (a.asNanos + b.asNanos) (18446744073709551616 * 1000000000 - 1), by omega⟩

/-- The time `request_deadline` gives a request. -/
def requestDeadline (path : String) (query : Option Text) (timeout : Duration) : Duration :=
  timeout.saturatingAdd ((inboxWaitAllowance path query).getD (.fromSecs 0))

/-! ## The extractor -/

/-- The decoding of the `form_urlencoded` crate: it leaves a text without `%` and `+` alone. -/
structure FormUrlencoded where
  decode : Text → Text
  literal : ∀ text, '%' ∉ text → '+' ∉ text → decode text = text

/-- `InboxQuery` of `psst-protocol` -/
structure ApiInboxQuery where
  limit : Nat
  waitSeconds : Nat
  deriving DecidableEq

/-- The visitor that `Deserialize` derives for `InboxQuery`: an unknown key is ignored, a repeated
one and a value that is no number of the field's type are errors, a missing one is the default. -/
def ApiInboxQuery.visit (limit wait : Option Nat) : List (Text × Text) → Option ApiInboxQuery
  | [] => some ⟨limit.getD 100, wait.getD 0⟩
  | (key, value) :: pairs =>
    if key = "limit".toList then
      if limit.isSome then none
      else (Unsigned.parse 65535 value).bind fun n => visit (some n) wait pairs
    else if key = "wait".toList then
      if wait.isSome then none
      else (Unsigned.parse 255 value).bind fun n => visit limit (some n) pairs
    else visit limit wait pairs

namespace FormUrlencoded

variable (F : FormUrlencoded)

/-- A pair, split at its first `=`, if there is one. -/
def pair (text : Text) : Text × Text :=
  match splitOnce '=' text with
  | some (name, value) => (F.decode name, F.decode value)
  | none => (F.decode text, F.decode [])

/-- `form_urlencoded::parse` skips empty pairs. -/
def parse (query : Text) : List (Text × Text) :=
  ((query.splitOn '&').filter fun text => !text.isEmpty).map F.pair

/-- `Query::<InboxQuery>::from_request_parts` -/
def inboxQuery (query : Option Text) : Option ApiInboxQuery :=
  ApiInboxQuery.visit none none (F.parse (query.getD []))

end FormUrlencoded

/-! ## Agreement -/

/-- The pair is a wait, spelled without an escape or a sign. -/
def SpelledWait (pair : Text) : Prop :=
  ∃ value, splitOnce '=' pair = some ("wait".toList, value) ∧ '%' ∉ value ∧ '+' ∉ value

/-- Every pair of the query has an `=`, and one of them is a wait spelled without an escape. -/
def SpelledOut (query : Text) : Prop :=
  (∀ pair ∈ query.splitOn '&', '=' ∈ pair) ∧ ∃ pair ∈ query.splitOn '&', SpelledWait pair

theorem waitOfPairs_le {pairs : List Text} :
    ∀ {wait : Option Nat} {seconds : Nat}, (∀ n ∈ wait, n ≤ 30) →
      waitOfPairs wait pairs = some (some seconds) → seconds ≤ 30 := by
  induction pairs with
  | nil =>
      intro wait seconds hwait h
      cases h
      exact hwait seconds rfl
  | cons pair pairs ih =>
      intro wait seconds hwait h
      rw [waitOfPairs] at h
      split at h
      · cases h
      · split_ifs at h with hname hbad
        · split at h
          · cases h
          · split_ifs at h with hlong
            refine ih ?_ h
            rintro n ⟨⟩
            omega
        · exact ih hwait h

/-- No allowance is above 30 seconds. -/
theorem inboxWaitAllowance_le {path : String} {query : Option Text} {allowance : Duration}
    (h : inboxWaitAllowance path query = some allowance) : allowance.asNanos ≤ 30 * 10 ^ 9 := by
  unfold inboxWaitAllowance at h
  split_ifs at h
  obtain ⟨seconds, hseconds, rfl⟩ := Option.map_eq_some_iff.mp h
  obtain ⟨query, -, hquery⟩ := Option.bind_eq_some_iff.mp hseconds
  unfold waitOfQuery at hquery
  have hle : seconds ≤ 30 := waitOfPairs_le (by simp) (Option.join_eq_some_iff.mp hquery)
  show (UInt64.ofNat seconds).toNat * 10 ^ 9 ≤ 30 * 10 ^ 9
  rw [UInt64.toNat_ofNat_of_lt' (by show seconds < 2 ^ 64; omega)]
  exact Nat.mul_le_mul_right _ hle

/-- Without a wait among the pairs the loop changes nothing. -/
theorem waitOfPairs_of_others {pairs : List Text} {wait : Option Nat}
    (hnone : ∀ pair ∈ pairs, ∀ value, splitOnce '=' pair ≠ some ("wait".toList, value)) :
    waitOfPairs wait pairs = if ∀ pair ∈ pairs, '=' ∈ pair then some wait else none := by
  induction pairs with
  | nil => rw [waitOfPairs, if_pos (fun pair h => by cases h)]
  | cons pair pairs ih =>
      have hrest := ih fun p hp => hnone p (List.mem_cons_of_mem _ hp)
      rw [waitOfPairs]
      cases hsplit : splitOnce '=' pair with
      | none =>
          have hpair : '=' ∉ pair := splitOnce_eq_none.mp hsplit
          rw [if_neg (fun h => hpair (h pair (List.mem_cons_self ..)))]
      | some parts =>
          obtain ⟨name, value⟩ := parts
          have hpair : '=' ∈ pair := by
            by_contra hmissing
            cases hsplit.symm.trans (splitOnce_eq_none.mpr hmissing)
          have hname : name ≠ "wait".toList := by
            rintro rfl
            exact hnone pair (List.mem_cons_self ..) value hsplit
          simp only [if_neg hname]
          rw [hrest]
          simp only [List.forall_mem_cons, hpair, true_and]

/-- The loop finds no wait that is not spelled out. -/
theorem spelled_of_waitOfPairs {pairs : List Text} :
    ∀ {wait : Option Nat} {seconds : Nat}, waitOfPairs wait pairs = some (some seconds) →
      (∀ pair ∈ pairs, '=' ∈ pair) ∧ (wait = none → ∃ pair ∈ pairs, SpelledWait pair) := by
  induction pairs with
  | nil =>
      intro wait seconds h
      cases h
      exact ⟨(fun pair h => by cases h), fun h => by cases h⟩
  | cons pair pairs ih =>
      intro wait seconds h
      rw [waitOfPairs] at h
      cases hsplit : splitOnce '=' pair with
      | none =>
          rw [hsplit] at h
          cases h
      | some parts =>
          obtain ⟨name, value⟩ := parts
          have hpair : '=' ∈ pair := by
            by_contra hmissing
            cases hsplit.symm.trans (splitOnce_eq_none.mpr hmissing)
          rw [hsplit] at h
          simp only at h
          by_cases hname : name = "wait".toList
          · rw [if_pos hname] at h
            subst hname
            split_ifs at h with hbad
            have hdigits : value.all Char.isDigit = true := by
              by_contra hnot
              exact hbad (Or.inr (Or.inr hnot))
            have hno : ∀ c, c.isDigit = false → c ∉ value := by
              intro c hc hmem
              cases hc.symm.trans (List.all_eq_true.mp hdigits c hmem)
            cases hparse : Unsigned.parse 255 value with
            | none =>
                rw [hparse] at h
                cases h
            | some n =>
                rw [hparse] at h
                simp only at h
                split_ifs at h
                refine ⟨List.forall_mem_cons.mpr ⟨hpair, (ih h).1⟩, fun _ => ?_⟩
                exact ⟨pair, List.mem_cons_self .., value, hsplit, hno '%' (by decide),
                  hno '+' isDigit_plus⟩
          · rw [if_neg hname] at h
            refine ⟨List.forall_mem_cons.mpr ⟨hpair, (ih h).1⟩, fun hwait => ?_⟩
            obtain ⟨p, hp, hspelled⟩ := (ih h).2 hwait
            exact ⟨p, List.mem_cons_of_mem _ hp, hspelled⟩

/-- After a wait there is no other. -/
theorem ApiInboxQuery.visit_some {pairs : List (Text × Text)} :
    ∀ {limit : Option Nat} {seconds : Nat} {q : ApiInboxQuery},
      visit limit (some seconds) pairs = some q →
        q.waitSeconds = seconds ∧ ∀ pair ∈ pairs, pair.1 ≠ "wait".toList := by
  induction pairs with
  | nil =>
      intro limit seconds q h
      cases h
      exact ⟨rfl, fun pair h => by cases h⟩
  | cons pair pairs ih =>
      obtain ⟨key, value⟩ := pair
      intro limit seconds q h
      have hlimit : "limit".toList ≠ "wait".toList := by decide
      rw [visit] at h
      split_ifs at h with hkey hrepeated hwait
      · obtain ⟨n, -, h⟩ := Option.bind_eq_some_iff.mp h
        refine ⟨(ih h).1, List.forall_mem_cons.mpr ⟨?_, (ih h).2⟩⟩
        show key ≠ _
        rw [hkey]
        exact hlimit
      · exact absurd rfl ‹¬ (some seconds).isSome = true›
      · exact ⟨(ih h).1, List.forall_mem_cons.mpr ⟨‹_›, (ih h).2⟩⟩

section Agreement

variable {F : FormUrlencoded} {pairs : List Text} {q : ApiInboxQuery}

/-- The pairs of a query whose splitting is known. -/
def FormUrlencoded.parsePairs (F : FormUrlencoded) (pairs : List Text) : List (Text × Text) :=
  (pairs.filter fun text => !text.isEmpty).map F.pair

theorem FormUrlencoded.parsePairs_cons {pair : Text} (h : '=' ∈ pair) :
    F.parsePairs (pair :: pairs) = F.pair pair :: F.parsePairs pairs := by
  have hfull : (!pair.isEmpty) = true := by
    cases pair with
    | nil => cases h
    | cons c pair => rfl
  unfold parsePairs
  simp only [List.filter_cons, hfull, if_true, List.map_cons]

theorem FormUrlencoded.decode_wait : F.decode "wait".toList = "wait".toList :=
  F.literal _ (by decide) (by decide)

/-- A wait of the middleware is one for the handler. -/
theorem FormUrlencoded.pair_wait {pair value : Text}
    (h : splitOnce '=' pair = some ("wait".toList, value)) :
    F.pair pair = ("wait".toList, F.decode value) := by
  unfold FormUrlencoded.pair
  rw [h, ← F.decode_wait]
  simp only [F.decode_wait]

theorem FormUrlencoded.no_wait (h : ∀ p ∈ F.parsePairs pairs, p.1 ≠ "wait".toList) :
    ∀ pair ∈ pairs, ∀ value, splitOnce '=' pair ≠ some ("wait".toList, value) := by
  intro pair hpair value hsplit
  have hfull : (!pair.isEmpty) = true := by
    cases pair with
    | nil => cases hsplit
    | cons c pair => rfl
  have hmem : F.pair pair ∈ F.parsePairs pairs :=
    List.mem_map_of_mem (List.mem_filter.mpr ⟨hpair, hfull⟩)
  refine h _ hmem ?_
  rw [F.pair_wait hsplit]

/-- The wait of the middleware is no other than the handler's. -/
theorem waitOfPairs_agrees :
    ∀ {limit r : Option Nat}, ApiInboxQuery.visit limit none (F.parsePairs pairs) = some q →
      waitOfPairs none pairs = some r → r = none ∨ r = some q.waitSeconds := by
  induction pairs with
  | nil =>
      intro limit r _ h
      cases h
      exact Or.inl rfl
  | cons pair pairs ih =>
      intro limit r hvisit h
      rw [waitOfPairs] at h
      cases hsplit : splitOnce '=' pair with
      | none =>
          rw [hsplit] at h
          cases h
      | some parts =>
          obtain ⟨name, value⟩ := parts
          have hpair : '=' ∈ pair := by
            by_contra hmissing
            cases hsplit.symm.trans (splitOnce_eq_none.mpr hmissing)
          rw [hsplit] at h
          simp only at h
          rw [F.parsePairs_cons hpair] at hvisit
          by_cases hname : name = "wait".toList
          · subst hname
            rw [if_pos rfl] at h
            split_ifs at h with hbad
            have hdigits : value.all Char.isDigit = true := by
              by_contra hnot
              exact hbad (Or.inr (Or.inr hnot))
            have hno : ∀ c, c.isDigit = false → c ∉ value := by
              intro c hc hmem
              cases hc.symm.trans (List.all_eq_true.mp hdigits c hmem)
            have hvalue : F.decode value = value :=
              F.literal value (hno '%' (by decide)) (hno '+' isDigit_plus)
            rw [F.pair_wait hsplit, hvalue, ApiInboxQuery.visit, if_neg (by decide), if_pos rfl]
              at hvisit
            cases hparse : Unsigned.parse 255 value with
            | none =>
                rw [hparse] at h
                cases h
            | some n =>
                rw [hparse] at h hvisit
                simp only at h
                split_ifs at h
                obtain ⟨hseconds, hothers⟩ := ApiInboxQuery.visit_some hvisit
                rw [waitOfPairs_of_others (F.no_wait hothers)] at h
                split_ifs at h
                cases h
                exact Or.inr (by rw [hseconds])
          · rw [if_neg hname] at h
            generalize F.pair pair = decoded at hvisit
            obtain ⟨key, text⟩ := decoded
            rw [ApiInboxQuery.visit] at hvisit
            split_ifs at hvisit with hlimit hrepeated hwait hagain
            · obtain ⟨n, -, hrest⟩ := Option.bind_eq_some_iff.mp hvisit
              exact ih hrest h
            · -- an escaped wait, which only the handler sees
              obtain ⟨n, -, hrest⟩ := Option.bind_eq_some_iff.mp hvisit
              obtain ⟨-, hothers⟩ := ApiInboxQuery.visit_some hrest
              rw [waitOfPairs_of_others (F.no_wait hothers)] at h
              split_ifs at h
              cases h
              exact Or.inl rfl
            · exact ih hvisit h

/-- **A wait that is spelled out is found.** -/
theorem waitOfPairs_of_spelled :
    ∀ {limit : Option Nat}, ApiInboxQuery.visit limit none (F.parsePairs pairs) = some q →
      q.waitSeconds ≤ 30 → (∀ pair ∈ pairs, '=' ∈ pair) → (∃ pair ∈ pairs, SpelledWait pair) →
        waitOfPairs none pairs = some (some q.waitSeconds) := by
  induction pairs with
  | nil =>
      rintro limit _ _ _ ⟨pair, hpair, -⟩
      cases hpair
  | cons pair pairs ih =>
      rintro limit hvisit hle hall ⟨spelled, hspelled, hwait⟩
      obtain ⟨hpair, hrest⟩ := List.forall_mem_cons.mp hall
      -- nothing is left to spell once the handler has a wait
      have hlast : ∀ {n : Nat} {limit : Option Nat},
          ApiInboxQuery.visit limit (some n) (F.parsePairs pairs) = some q → spelled ∉ pairs := by
        intro n limit h hmem
        obtain ⟨value, hsplit, -⟩ := hwait
        exact F.no_wait (ApiInboxQuery.visit_some h).2 spelled hmem value hsplit
      rw [F.parsePairs_cons hpair] at hvisit
      rw [waitOfPairs]
      cases hsplit : splitOnce '=' pair with
      | none => exact absurd hpair (splitOnce_eq_none.mp hsplit)
      | some parts =>
          obtain ⟨name, value⟩ := parts
          simp only
          by_cases hname : name = "wait".toList
          · subst hname
            rw [if_pos rfl]
            rw [F.pair_wait hsplit, ApiInboxQuery.visit, if_neg (by decide), if_pos rfl] at hvisit
            obtain ⟨n, hparse, hvisit⟩ := Option.bind_eq_some_iff.mp hvisit
            have hfirst : spelled = pair := by
              rcases List.mem_cons.mp hspelled with heq | hmem
              · exact heq
              · exact absurd hmem (hlast hvisit)
            subst hfirst
            obtain ⟨value', hsplit', hpercent, hplus⟩ := hwait
            obtain rfl : value = value' := by
              have := hsplit.symm.trans hsplit'
              simpa using this
            rw [F.literal value hpercent hplus] at hparse
            obtain ⟨hfull, hdigits⟩ := digits_of_parse hplus hparse
            obtain ⟨hseconds, hothers⟩ := ApiInboxQuery.visit_some hvisit
            have hshort : ¬ 30 < n := by omega
            rw [if_neg (by simp [hfull, hdigits]), hparse]
            simp only [if_neg hshort]
            rw [waitOfPairs_of_others (F.no_wait hothers), if_pos hrest, hseconds]
          · rw [if_neg hname]
            have hlater : spelled ∈ pairs := by
              rcases List.mem_cons.mp hspelled with heq | hmem
              · subst heq
                obtain ⟨value', hsplit', -⟩ := hwait
                cases hsplit.symm.trans hsplit'
                exact absurd rfl hname
              · exact hmem
            generalize F.pair pair = decoded at hvisit
            obtain ⟨key, text⟩ := decoded
            rw [ApiInboxQuery.visit] at hvisit
            split_ifs at hvisit with hlimit hrepeated hkey hagain
            · obtain ⟨n, -, hvisit⟩ := Option.bind_eq_some_iff.mp hvisit
              exact ih hvisit hle hrest ⟨spelled, hlater, hwait⟩
            · obtain ⟨n, -, hvisit⟩ := Option.bind_eq_some_iff.mp hvisit
              exact absurd hlater (hlast hvisit)
            · exact ih hvisit hle hrest ⟨spelled, hlater, hwait⟩

end Agreement

theorem fromSecs_asNanos {seconds : Nat} (h : seconds ≤ 30) :
    (Duration.fromSecs (UInt64.ofNat seconds)).asNanos = seconds * 10 ^ 9 := by
  show (UInt64.ofNat seconds).toNat * 10 ^ 9 = _
  rw [UInt64.toNat_ofNat_of_lt' (by show seconds < 2 ^ 64; omega)]

/-- The allowance in nanoseconds. -/
theorem inboxWaitAllowance_asNanos (query : Option Text) :
    ((inboxWaitAllowance "/v1/inbox" query).getD (.fromSecs 0)).asNanos
      = ((query.bind waitOfQuery).getD 0) * 10 ^ 9 := by
  rw [inboxWaitAllowance, if_neg (by simp)]
  cases hfound : query.bind waitOfQuery with
  | none => rfl
  | some seconds =>
      obtain ⟨text, -, htext⟩ := Option.bind_eq_some_iff.mp hfound
      exact fromSecs_asNanos (waitOfPairs_le (by simp) (Option.join_eq_some_iff.mp htext))

/-- **When the deadline allows for the wait.** For every query of the inbox that the handler's
extractor accepts with a wait of at most 30 seconds, the allowance is that wait exactly if the wait
is zero or spelled out in a query whose pairs all have an `=`; the deadline then is not before the
wait is over. For no query at all is the allowance above 30 seconds. -/
theorem inbox_allowance_agrees_iff (F : FormUrlencoded) (query : Option Text) :
    (∀ q, F.inboxQuery query = some q → q.waitSeconds ≤ 30 →
      (((inboxWaitAllowance "/v1/inbox" query).getD (.fromSecs 0)).asNanos
            = q.waitSeconds * 10 ^ 9
          ↔ q.waitSeconds = 0 ∨ SpelledOut (query.getD []))
        ∧ (q.waitSeconds = 0 ∨ SpelledOut (query.getD []) → ∀ timeout,
            q.waitSeconds * 10 ^ 9 ≤ (requestDeadline "/v1/inbox" query timeout).asNanos))
      ∧ ∀ allowance, inboxWaitAllowance "/v1/inbox" query = some allowance →
          allowance.asNanos ≤ 30 * 10 ^ 9 := by
  refine ⟨fun q haccepted hle => ?_, fun _ h => inboxWaitAllowance_le h⟩
  have hvisit : ApiInboxQuery.visit none none (F.parsePairs ((query.getD []).splitOn '&')) = some q :=
    haccepted
  have hiff : (query.bind waitOfQuery).getD 0 = q.waitSeconds
      ↔ q.waitSeconds = 0 ∨ SpelledOut (query.getD []) := by
    constructor
    · intro hsame
      by_cases hzero : q.waitSeconds = 0
      · exact Or.inl hzero
      · -- the middleware found a wait, so it was spelled out
        cases hfound : query.bind waitOfQuery with
        | none =>
            rw [hfound] at hsame
            exact absurd hsame.symm hzero
        | some seconds =>
            obtain ⟨text, rfl, htext⟩ := Option.bind_eq_some_iff.mp hfound
            obtain ⟨hall, hspelled⟩ := spelled_of_waitOfPairs (Option.join_eq_some_iff.mp htext)
            exact Or.inr ⟨hall, hspelled rfl⟩
    · rintro (hzero | ⟨hall, hspelled⟩)
      · cases query with
        | none => exact hzero.symm
        | some text =>
            cases hpairs : waitOfPairs none (text.splitOn '&') with
            | none => simp [waitOfQuery, hpairs, hzero]
            | some r =>
                rcases waitOfPairs_agrees hvisit hpairs with rfl | rfl
                · simp [waitOfQuery, hpairs, hzero]
                · simp [waitOfQuery, hpairs]
      · cases query with
        | none =>
            have hmissing := hall [] (by simp)
            cases hmissing
        | some text =>
            have hpairs := waitOfPairs_of_spelled hvisit hle hall hspelled
            simp only [Option.getD_some] at hpairs
            simp [waitOfQuery, hpairs]
  rw [inboxWaitAllowance_asNanos]
  refine ⟨?_, fun hcondition timeout => ?_⟩
  · rw [← hiff]
    constructor
    · intro h
      exact Nat.eq_of_mul_eq_mul_right (by decide) h
    · intro h
      rw [h]
  · show _ ≤ Min.min (timeout.asNanos
      + ((inboxWaitAllowance "/v1/inbox" query).getD (.fromSecs 0)).asNanos) _
    rw [inboxWaitAllowance_asNanos, hiff.mpr hcondition]
    omega

namespace Sample

def hexValue (c : Char) : Option Nat :=
  if '0' ≤ c ∧ c ≤ '9' then some (c.toNat - 48)
  else if 'a' ≤ c ∧ c ≤ 'f' then some (c.toNat - 87)
  else if 'A' ≤ c ∧ c ≤ 'F' then some (c.toNat - 55)
  else none

/-- Percent-decoding of ASCII texts. -/
def percentDecode : Text → Text
  | [] => []
  | '+' :: rest => ' ' :: percentDecode rest
  | '%' :: a :: b :: rest =>
    match hexValue a, hexValue b with
    | some x, some y => Char.ofNat (16 * x + y) :: percentDecode rest
    | _, _ => '%' :: percentDecode (a :: b :: rest)
  | c :: rest => c :: percentDecode rest

theorem percentDecode_literal (text : Text) (hpercent : '%' ∉ text) (hplus : '+' ∉ text) :
    percentDecode text = text := by
  fun_induction percentDecode text with
  | case1 => rfl
  | case2 => exact absurd (List.mem_cons_self ..) hplus
  | case3 => exact absurd (List.mem_cons_self ..) hpercent
  | case4 => exact absurd (List.mem_cons_self ..) hpercent
  | case5 c rest _ _ ih =>
      rw [ih (fun h => hpercent (List.mem_cons_of_mem _ h))
        (fun h => hplus (List.mem_cons_of_mem _ h))]

def formUrlencoded : FormUrlencoded := ⟨percentDecode, percentDecode_literal⟩

end Sample

open Sample in
/-- **Accepted waits without an allowance.** The wait is escaped, or a pair without `=` follows it:
the handler waits five seconds, and the middleware allows for none. -/
theorem accepted_waits_not_allowed :
    (formUrlencoded.inboxQuery (some "wait=%35".toList) = some ⟨100, 5⟩
        ∧ inboxWaitAllowance "/v1/inbox" (some "wait=%35".toList) = none)
      ∧ (formUrlencoded.inboxQuery (some "wait=5&verbose".toList) = some ⟨100, 5⟩
        ∧ inboxWaitAllowance "/v1/inbox" (some "wait=5&verbose".toList) = none)
      ∧ ¬ ∀ query q, formUrlencoded.inboxQuery query = some q → q.waitSeconds ≤ 30 →
          ((inboxWaitAllowance "/v1/inbox" query).getD (.fromSecs 0)).asNanos
            = q.waitSeconds * 10 ^ 9 := by
  have hescaped : formUrlencoded.inboxQuery (some "wait=%35".toList) = some ⟨100, 5⟩ := by
    decide
  have hnone : inboxWaitAllowance "/v1/inbox" (some "wait=%35".toList) = none := by
    decide
  refine ⟨⟨hescaped, hnone⟩, ⟨by decide, by decide⟩, fun hclaim => ?_⟩
  have hfive := hclaim _ _ hescaped (by decide)
  rw [hnone] at hfive
  exact absurd hfive (by decide)

end Psst
