import Psst.Mcp.Output

/-!
# The output pump

`pump_lines` copies what the SDK writes to the output, a line at a time, and gives the whole
session up at the first line that is longer than its limit. So a run of results gets through
exactly if each of them fits, and what a result costs can be read off the response it was built
from.
-/

namespace Psst

open Json

/-! ## `pump_lines` -/

inductive FrameError where
  /-- `"protocol frame exceeds limit"` -/
  | exceedsLimit
  /-- `"unterminated protocol frame"` -/
  | unterminated
  deriving DecidableEq

structure Pump where
  /-- what was read of the current line -/
  frame : List UInt8
  written : List UInt8
  /-- the error the pump has returned with -/
  failed : Option FrameError

namespace Pump

def fresh : Pump := ⟨[], [], none⟩

/-- One octet of a chunk. -/
def push (max : Nat) (p : Pump) (byte : UInt8) : Pump :=
  if p.failed.isSome then p
  else if p.frame.length = max then { p with failed := some .exceedsLimit }
  else if byte = 10 then { p with frame := [], written := p.written ++ (p.frame ++ [byte]) }
  else { p with frame := p.frame ++ [byte] }

end Pump

/-- `pump_lines` on an input that arrives in these chunks and then ends. -/
def pumpLines (max : Nat) (chunks : List (List UInt8)) : Pump :=
  let p := chunks.foldl (fun p chunk => chunk.foldl (Pump.push max) p) .fresh
  if p.failed.isNone && !p.frame.isEmpty then { p with failed := some .unterminated } else p

/-- `MAX_OUTBOUND_LINE_BYTES` -/
def maxOutboundLineBytes : Nat := 1048576

/-! ## Lines through the pump -/

/-- Octets up to and with their only line break. -/
def IsLine (line : List UInt8) : Prop := ∃ body, line = body ++ [10] ∧ 10 ∉ body

namespace Pump

variable {max : Nat} {p : Pump}

theorem push_of_failed (h : p.failed.isSome = true) (byte : UInt8) : p.push max byte = p := by
  rw [push, if_pos h]

/-- A pump that has returned reads nothing more. -/
theorem foldl_of_failed (h : p.failed.isSome = true) (bytes : List UInt8) :
    bytes.foldl (push max) p = p := by
  induction bytes with
  | nil => rfl
  | cons byte bytes ih => rw [List.foldl_cons, push_of_failed h, ih]

/-- A part of a line is kept while there is room for it. -/
theorem foldl_of_room (bytes : List UInt8) (hbreak : 10 ∉ bytes) :
    ∀ p : Pump, p.failed = none → p.frame.length + bytes.length ≤ max →
      bytes.foldl (push max) p = { p with frame := p.frame ++ bytes } := by
  induction bytes with
  | nil =>
      intro p _ _
      rw [List.foldl_nil, List.append_nil]
  | cons byte bytes ih =>
      intro p hp hroom
      rw [List.length_cons] at hroom
      have hbyte : byte ≠ 10 := fun h => hbreak (h ▸ List.mem_cons_self ..)
      have hpush : p.push max byte = { p with frame := p.frame ++ [byte] } := by
        rw [push, hp, if_neg (by simp), if_neg (by omega), if_neg hbyte]
      have hrest := ih (fun h => hbreak (List.mem_cons_of_mem _ h))
        { p with frame := p.frame ++ [byte] } hp (by
          rw [List.length_append, List.length_singleton]
          omega)
      rw [List.foldl_cons, hpush, hrest, List.append_assoc]
      rfl

/-- A pump with a full frame returns at the next octet. -/
theorem push_of_full (hp : p.failed = none) (hfull : p.frame.length = max) (byte : UInt8) :
    p.push max byte = { p with failed := some .exceedsLimit } := by
  rw [push, hp, if_neg (by simp), if_pos hfull]

variable {line : List UInt8}

/-- A line that fits is written. -/
theorem foldl_of_fits (hline : IsLine line) (hp : p.failed = none) (hframe : p.frame = [])
    (hfits : line.length ≤ max) :
    line.foldl (push max) p = { p with written := p.written ++ line } := by
  obtain ⟨body, rfl, hbody⟩ := hline
  rw [List.length_append, List.length_singleton] at hfits
  rw [List.foldl_append, foldl_of_room body hbody p hp (by rw [hframe, List.length_nil]; omega),
    hframe, List.foldl_cons, List.foldl_nil, push, hp, if_neg (by simp),
    if_neg (by simp only [List.nil_append]; omega), if_pos rfl, List.nil_append]

/-- A longer one is the end: the pump has written what came before it. -/
theorem foldl_of_exceeds (hline : IsLine line) (hp : p.failed = none) (hframe : p.frame = [])
    (hlong : max < line.length) :
    (line.foldl (push max) p).failed = some .exceedsLimit
      ∧ (line.foldl (push max) p).written = p.written := by
  obtain ⟨body, rfl, hbody⟩ := hline
  rw [List.length_append, List.length_singleton] at hlong
  -- the frame is full after `max` octets of the body, and there is one more octet
  have htake : (body.take max).length = max := by
    rw [List.length_take]
    omega
  have hroom : p.frame.length + (body.take max).length ≤ max := by
    rw [hframe, List.length_nil, htake]
    omega
  have hfull := foldl_of_room (body.take max) (fun h => hbody (List.mem_of_mem_take h)) p hp hroom
  have hsplit : body ++ [10] = body.take max ++ (body.drop max ++ [10]) := by
    rw [← List.append_assoc, List.take_append_drop]
  obtain ⟨byte, rest, hrest⟩ : ∃ byte rest, body.drop max ++ [10] = byte :: rest := by
    cases body.drop max with
    | nil => exact ⟨10, [], rfl⟩
    | cons byte rest => exact ⟨byte, rest ++ [10], rfl⟩
  have hreturned := push_of_full (p := { p with frame := p.frame ++ body.take max }) hp
    (by rw [hframe, List.nil_append, htake]) byte
  rw [hsplit, List.foldl_append, hfull, hrest, List.foldl_cons, hreturned,
    foldl_of_failed (by rfl)]
  exact ⟨rfl, rfl⟩

/-- **Lines get through exactly if each fits**, and then nothing is lost. -/
theorem foldl_lines (lines : List (List UInt8)) (hlines : ∀ line ∈ lines, IsLine line) :
    ∀ p : Pump, p.failed = none → p.frame = [] →
      ((lines.flatten.foldl (push max) p).failed = none ↔ ∀ line ∈ lines, line.length ≤ max)
        ∧ ((lines.flatten.foldl (push max) p).failed = none →
          lines.flatten.foldl (push max) p
            = { p with written := p.written ++ lines.flatten }) := by
  induction lines with
  | nil =>
      intro p hp hframe
      rw [List.flatten_nil, List.foldl_nil, List.append_nil]
      exact ⟨iff_of_true hp (fun line h => by cases h), fun _ => rfl⟩
  | cons line lines ih =>
      intro p hp hframe
      have hline := hlines line (List.mem_cons_self ..)
      rw [List.flatten_cons, List.foldl_append, List.forall_mem_cons]
      by_cases hfits : line.length ≤ max
      · have hrest := ih (fun l hl => hlines l (List.mem_cons_of_mem _ hl))
          { p with written := p.written ++ line } hp hframe
        rw [foldl_of_fits hline hp hframe hfits, ← List.append_assoc]
        exact ⟨hrest.1.trans (and_iff_right hfits).symm, hrest.2⟩
      · obtain ⟨hfailed, -⟩ := foldl_of_exceeds hline hp hframe (Nat.lt_of_not_le hfits)
        have hsome : (line.foldl (push max) p).failed.isSome = true := by rw [hfailed]; rfl
        rw [foldl_of_failed hsome, hfailed]
        exact ⟨iff_of_false (by simp) fun h => hfits h.1, fun h => by cases h⟩

end Pump

/-- Whatever the chunks the lines arrive in. -/
theorem pumpLines_eq_none {max : Nat} {lines chunks : List (List UInt8)}
    (hlines : ∀ line ∈ lines, IsLine line) (hchunks : chunks.flatten = lines.flatten) :
    (pumpLines max chunks).failed = none ↔ ∀ line ∈ lines, line.length ≤ max := by
  have hfold : chunks.foldl (fun p chunk => chunk.foldl (Pump.push max) p) .fresh
      = lines.flatten.foldl (Pump.push max) .fresh := by
    rw [← hchunks, List.foldl_flatten]
  obtain ⟨hiff, hwritten⟩ := Pump.foldl_lines lines hlines .fresh rfl rfl
  rw [← hiff, pumpLines, hfold]
  cases hfailed : (lines.flatten.foldl (Pump.push max) .fresh).failed with
  | none =>
      have hframe : (lines.flatten.foldl (Pump.push max) .fresh).frame = [] := by
        rw [hwritten hfailed]
        rfl
      rw [hframe]
      simp [hfailed]
  | some e => simp [hfailed]

/-! ## What the pump writes

Any input is lines, and then octets without a line break. The pump is stuck at what follows its
last line: there is no line break among the next `max` octets. -/

/-- Complete lines of at most `max` octets each. -/
def Lines (max : Nat) (bytes : List UInt8) : Prop :=
  ∃ lines : List (List UInt8), (∀ line ∈ lines, IsLine line ∧ line.length ≤ max)
    ∧ bytes = lines.flatten

theorem Lines.nil (max : Nat) : Lines max [] :=
  ⟨[], (fun line h => by cases h), rfl⟩

theorem Lines.snoc {max : Nat} {bytes line : List UInt8} (h : Lines max bytes)
    (hline : IsLine line) (hfits : line.length ≤ max) : Lines max (bytes ++ line) := by
  obtain ⟨lines, hlines, rfl⟩ := h
  refine ⟨lines ++ [line], ?_, by simp⟩
  intro l hl
  rcases List.mem_append.mp hl with hl | hl
  · exact hlines l hl
  · rw [List.mem_singleton.mp hl]
    exact ⟨hline, hfits⟩

/-- Two lines at the start of one text are the same line. -/
theorem IsLine.eq_of_append {line line' rest rest' : List UInt8} (hline : IsLine line)
    (hline' : IsLine line') (h : line ++ rest = line' ++ rest') : line = line' := by
  obtain ⟨body, rfl, hbody⟩ := hline
  obtain ⟨body', rfl, hbody'⟩ := hline'
  have hparts : body ++ 10 :: rest = body' ++ 10 :: rest' := by simpa using h
  rcases List.append_eq_append_iff.mp hparts with ⟨mid, hmid, hrest⟩ | ⟨mid, hmid, hrest⟩
  · cases mid with
    | nil => rw [hmid, List.append_nil]
    | cons byte mid =>
        -- the break of the first line would be in the second's body
        cases hrest
        exact absurd (hmid ▸ List.mem_append_right _ (List.mem_cons_self ..)) hbody'
  · cases mid with
    | nil => rw [hmid, List.append_nil]
    | cons byte mid =>
        cases hrest
        exact absurd (hmid ▸ List.mem_append_right _ (List.mem_cons_self ..)) hbody

/-- A line at the start of a text puts a line break among its first octets. -/
theorem IsLine.mem_take {max : Nat} {line rest rest' : List UInt8} (hline : IsLine line)
    (hfits : line.length ≤ max) (h : rest = line ++ rest') : 10 ∈ rest.take max := by
  obtain ⟨body, rfl, -⟩ := hline
  rw [h, List.take_append, List.take_of_length_le hfits]
  simp

/-- **No lines go further** than those before a place where the next `max` octets have no line
break. -/
theorem Lines.prefix_of_stuck {max : Nat} {lines : List (List UInt8)}
    (hlines : ∀ line ∈ lines, IsLine line) {rest : List UInt8} (hstuck : 10 ∉ rest.take max) :
    ∀ {bytes : List UInt8}, Lines max bytes → bytes <+: lines.flatten ++ rest →
      bytes <+: lines.flatten := by
  rintro _ ⟨others, hothers, rfl⟩ hprefix
  induction lines generalizing others with
  | nil =>
      cases others with
      | nil => exact List.prefix_refl _
      | cons line others =>
          obtain ⟨after, hafter⟩ := hprefix
          obtain ⟨hline, hfits⟩ := hothers line (List.mem_cons_self ..)
          rw [List.flatten_cons, List.append_assoc] at hafter
          exact absurd (hline.mem_take hfits hafter.symm) hstuck
  | cons first lines ih =>
      cases others with
      | nil => exact List.nil_prefix
      | cons line others =>
          obtain ⟨after, hafter⟩ := hprefix
          rw [List.flatten_cons, List.flatten_cons, List.append_assoc, List.append_assoc] at hafter
          have hsame : line = first :=
            (hothers line (List.mem_cons_self ..)).1.eq_of_append
              (hlines first (List.mem_cons_self ..)) hafter
          subst hsame
          have hrest := ih (fun l hl => hlines l (List.mem_cons_of_mem _ hl)) others
            (fun l hl => hothers l (List.mem_cons_of_mem _ hl))
            ⟨after, List.append_cancel_left hafter⟩
          rw [List.flatten_cons, List.flatten_cons]
          exact (List.prefix_append_right_inj line).mpr hrest

namespace Pump

/-- After the octets `read` the pump has written lines, and is at a place inside a line: with room
left, or with a full frame and an octet more. -/
structure At (max : Nat) (p : Pump) (read : List UInt8) : Prop where
  written : Lines max p.written
  open_ : 10 ∉ p.frame
  room : p.frame.length ≤ max
  running : p.failed = none → read = p.written ++ p.frame
  failed : p.failed ≠ none → p.failed = some .exceedsLimit
    ∧ ∃ byte rest, read = p.written ++ p.frame ++ byte :: rest ∧ p.frame.length = max

theorem At.fresh (max : Nat) : At max .fresh [] :=
  ⟨.nil max, List.not_mem_nil, Nat.zero_le _, fun _ => rfl, fun h => absurd rfl h⟩

/-- **One octet more.** -/
theorem At.push {max : Nat} {p : Pump} {read : List UInt8} (h : At max p read) (byte : UInt8) :
    At max (p.push max byte) (read ++ [byte]) := by
  unfold Pump.push
  split_ifs with hfailed hfull hbreak
  · -- the pump had returned before
    have hne : p.failed ≠ none := by
      intro hnone
      rw [hnone] at hfailed
      cases hfailed
    refine ⟨h.written, h.open_, h.room, fun hnone => absurd hnone hne, fun _ => ?_⟩
    obtain ⟨hexceeds, first, rest, hread, hlength⟩ := h.failed hne
    refine ⟨hexceeds, first, rest ++ [byte], ?_, hlength⟩
    rw [hread, List.append_assoc, List.cons_append]
  · have hnone : p.failed = none := by simpa using hfailed
    refine ⟨h.written, h.open_, h.room, (fun hsome => by cases hsome),
      fun _ => ⟨rfl, byte, [], ?_, hfull⟩⟩
    rw [h.running hnone]
  · have hnone : p.failed = none := by simpa using hfailed
    have hroom := h.room
    have hline : IsLine (p.frame ++ [byte]) := ⟨p.frame, by rw [hbreak], h.open_⟩
    have hfits : (p.frame ++ [byte]).length ≤ max := by
      rw [List.length_append, List.length_singleton]
      omega
    refine ⟨h.written.snoc hline hfits, List.not_mem_nil, Nat.zero_le _, fun _ => ?_,
      fun hne => absurd hnone hne⟩
    show read ++ [byte] = p.written ++ (p.frame ++ [byte]) ++ []
    rw [h.running hnone, List.append_nil, List.append_assoc]
  · have hnone : p.failed = none := by simpa using hfailed
    have hroom := h.room
    refine ⟨h.written, ?_, ?_, fun _ => ?_, fun hne => absurd hnone hne⟩
    · intro hmem
      rcases List.mem_append.mp hmem with hmem | hmem
      · exact h.open_ hmem
      · exact hbreak (List.mem_singleton.mp hmem).symm
    · show (p.frame ++ [byte]).length ≤ max
      rw [List.length_append, List.length_singleton]
      omega
    · show read ++ [byte] = p.written ++ (p.frame ++ [byte])
      rw [h.running hnone, List.append_assoc]

theorem At.foldl {max : Nat} (bytes : List UInt8) :
    ∀ {p : Pump} {read : List UInt8}, At max p read →
      At max (bytes.foldl (Pump.push max) p) (read ++ bytes) := by
  induction bytes with
  | nil =>
      intro p read h
      rw [List.append_nil]
      exact h
  | cons byte bytes ih =>
      intro p read h
      have hnext := ih (h.push byte)
      rw [List.append_assoc] at hnext
      exact hnext

/-- What is left has no line break among its first `max` octets. -/
theorem At.stuck {max : Nat} {p : Pump} {read : List UInt8} (h : At max p read) :
    ∃ rest, read = p.written ++ rest ∧ 10 ∉ rest.take max
      ∧ (p.failed = none → rest = p.frame) ∧ (p.failed ≠ none → rest ≠ []) := by
  by_cases hnone : p.failed = none
  · refine ⟨p.frame, h.running hnone, ?_, fun _ => rfl, fun hne => absurd hnone hne⟩
    exact fun hmem => h.open_ (List.mem_of_mem_take hmem)
  · obtain ⟨-, byte, rest, hread, hlength⟩ := h.failed hnone
    refine ⟨p.frame ++ byte :: rest, by rw [hread, List.append_assoc], ?_,
      fun hsome => absurd hsome hnone, fun _ => by simp⟩
    rw [List.take_append_of_le_length (by omega), List.take_of_length_le (by omega)]
    exact h.open_

end Pump

/-- The error kinds of `std::io` that `pump_lines` returns. -/
inductive IoErrorKind where
  | invalidData
  deriving DecidableEq

def FrameError.kind : FrameError → IoErrorKind
  | .exceedsLimit => .invalidData
  | .unterminated => .invalidData

/-- What `pump_lines` returns. -/
def Pump.result (p : Pump) : Except IoErrorKind Unit :=
  match p.failed with
  | none => .ok ()
  | some e => .error e.kind

/-- The pump is one pass over the octets, whatever the chunks. -/
theorem pumpLines_eq (max : Nat) (chunks : List (List UInt8)) :
    pumpLines max chunks = pumpLines max [chunks.flatten] := by
  rw [pumpLines, pumpLines, List.foldl_cons, List.foldl_nil, List.foldl_flatten]

theorem pumpLines_stuck (max : Nat) (chunks : List (List UInt8)) :
    ∃ rest, chunks.flatten = (pumpLines max chunks).written ++ rest ∧ 10 ∉ rest.take max
      ∧ Lines max (pumpLines max chunks).written
      ∧ (pumpLines max chunks).result = if rest = [] then .ok () else .error .invalidData := by
  have hat := (Pump.At.fresh max).foldl chunks.flatten
  obtain ⟨rest, hread, hstuck, hnone, hsome⟩ := hat.stuck
  have hwritten := hat.written
  rw [pumpLines_eq, pumpLines, List.foldl_cons, List.foldl_nil]
  generalize chunks.flatten.foldl (Pump.push max) .fresh = p at hread hnone hsome hwritten
  refine ⟨rest, ?_, hstuck, ?_, ?_⟩
  · rw [List.nil_append] at hread
    split <;> exact hread
  · split <;> exact hwritten
  · cases hfailed : p.failed with
    | none =>
        rw [hnone hfailed]
        by_cases hframe : p.frame = []
        · simp [hframe, Pump.result, hfailed]
        · simp [hframe, Pump.result, FrameError.kind]
    | some e =>
        have hne : rest ≠ [] := hsome (by rw [hfailed]; simp)
        rw [if_neg hne]
        cases e <;> simp [Pump.result, hfailed, FrameError.kind]

/-- **The line pump.** Whatever the input and the chunks it comes in, what is written is the
longest prefix of the input made of complete lines of at most `max` octets; the pump returns `Ok`
exactly if that is the whole input, and `InvalidData` otherwise; of what follows complete lines
nothing is written if its first `max` octets have no line break; and the chunks make no
difference. -/
theorem pump_lines_correct (max : Nat) (chunks : List (List UInt8)) :
    (Lines max (pumpLines max chunks).written
        ∧ (pumpLines max chunks).written <+: chunks.flatten
        ∧ ∀ bytes, Lines max bytes → bytes <+: chunks.flatten →
            bytes <+: (pumpLines max chunks).written)
      ∧ ((pumpLines max chunks).result = .ok () ↔ Lines max chunks.flatten)
      ∧ ((pumpLines max chunks).result ≠ .ok () →
          (pumpLines max chunks).result = .error .invalidData)
      ∧ (∀ lines : List (List UInt8), ∀ rest, (∀ line ∈ lines, IsLine line) →
          chunks.flatten = lines.flatten ++ rest → 10 ∉ rest.take max →
            (pumpLines max chunks).written <+: lines.flatten)
      ∧ ∀ chunks', chunks'.flatten = chunks.flatten → pumpLines max chunks' = pumpLines max chunks := by
  obtain ⟨rest, hread, hstuck, hwritten, hresult⟩ := pumpLines_stuck max chunks
  have hprefix : (pumpLines max chunks).written <+: chunks.flatten := ⟨rest, hread.symm⟩
  have hlongest : ∀ bytes, Lines max bytes → bytes <+: chunks.flatten →
      bytes <+: (pumpLines max chunks).written := by
    intro bytes hbytes hle
    obtain ⟨lines, hlines, heq⟩ := hwritten
    rw [hread] at hle
    rw [heq] at hle ⊢
    exact Lines.prefix_of_stuck (fun l hl => (hlines l hl).1) hstuck hbytes hle
  refine ⟨⟨hwritten, hprefix, hlongest⟩, ?_, ?_, ?_, ?_⟩
  · rw [hresult]
    constructor
    · intro hok
      have hempty : rest = [] := by
        by_contra hne
        rw [if_neg hne] at hok
        cases hok
      rw [hread, hempty, List.append_nil]
      exact hwritten
    · intro hwhole
      -- the whole input is lines, so all of it was written
      have hall := hlongest _ hwhole (List.prefix_refl _)
      have hlength := hall.length_le
      rw [hread, List.length_append] at hlength
      rw [if_pos (List.eq_nil_of_length_eq_zero (by omega))]
  · intro hne
    rw [hresult] at hne ⊢
    by_cases hempty : rest = []
    · exact absurd (if_pos hempty) hne
    · exact if_neg hempty
  · intro lines after hlines hsplit hnobreak
    rw [hsplit] at hprefix
    exact Lines.prefix_of_stuck hlines hnobreak hwritten hprefix
  · intro chunks' hsame
    rw [pumpLines_eq max chunks', pumpLines_eq max chunks, hsame]

theorem Envelope.isLine (e : Envelope) (output : ToolOutput) : IsLine (e.line output) := by
  refine ⟨_, rfl, OneLine.octets ?_⟩
  have hparts := e.oneLine
  have hbefore : OneLine e.before := fun h => hparts (by simp [h])
  have hbetween : OneLine e.between := fun h => hparts (by simp [h])
  have hafter : OneLine e.after := fun h => hparts (by simp [h])
  exact (((hbefore.append (oneLine_quote _)).append hbetween).append output.oneLine).append hafter

end Psst
