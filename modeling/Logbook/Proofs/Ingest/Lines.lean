import Logbook.Ingest.JsonLines
import Logbook.Proofs.Json.RoundTrip

set_option autoImplicit false

/-! # JSON lines one by one

A payload is decoded line by line, and no line has a say in what another comes to. Decoding two
payloads with a line end between them is decoding each of them, the lines of the second counted on
from those of the first; a payload comes to what its lines come to, each decoded as a payload of
its own and moved to its place; and a line that is not blank gives one row or is skipped once
(**`JsonLines.decode_line_by_line`**). -/

namespace Logbook

namespace JsonLines

/-! ## Payloads put together -/

namespace Decoded

/-- What comes of one payload and then of another. -/
def append (d e : Decoded) : Decoded :=
  ⟨d.rows ++ e.rows, d.skipped ++ e.skipped⟩

/-- What comes of the same payload `n` lines further down. -/
def shift (n : Nat) (d : Decoded) : Decoded :=
  ⟨d.rows, d.skipped.map fun s => { s with line := s.line + n }⟩

/-- What comes of several payloads. -/
def join : List Decoded → Decoded
  | [] => ⟨[], []⟩
  | d :: ds => d.append (join ds)

theorem append_assoc (d e f : Decoded) : (d.append e).append f = d.append (e.append f) := by
  simp only [append, List.append_assoc]

theorem shift_append (n : Nat) (d e : Decoded) :
    (d.append e).shift n = (d.shift n).append (e.shift n) := by
  simp only [append, shift, List.map_append]

end Decoded

/-! ## Lines -/

section Lines

variable (timeFields : List String)

/-- The first line and the lines behind it. -/
theorem decodeLines_cons (number : Nat) (line : Bytes) (rest : List Bytes) :
    decodeLines timeFields number (line :: rest)
      = (decodeLines timeFields number [line]).append
          (decodeLines timeFields (number + 1) rest) := by
  simp only [decodeLines]
  split
  · rfl
  · split <;> rfl

theorem decodeLines_append (number : Nat) (lines more : List Bytes) :
    decodeLines timeFields number (lines ++ more)
      = (decodeLines timeFields number lines).append
          (decodeLines timeFields (number + lines.length) more) := by
  induction lines generalizing number with
  | nil => rfl
  | cons line lines ih =>
    rw [List.cons_append, decodeLines_cons, ih, decodeLines_cons timeFields number line lines,
      Decoded.append_assoc, List.length_cons, Nat.add_right_comm, Nat.add_assoc]

/-- Lines come to the same wherever they stand, but for their numbers. -/
theorem decodeLines_add (number n : Nat) (lines : List Bytes) :
    decodeLines timeFields (number + n) lines = (decodeLines timeFields number lines).shift n := by
  induction lines generalizing number with
  | nil => rfl
  | cons line lines ih =>
    have hline : decodeLines timeFields (number + n) [line]
        = (decodeLines timeFields number [line]).shift n := by
      simp only [decodeLines]
      split
      · rfl
      · split <;> rfl
    rw [decodeLines_cons, hline, Nat.add_right_comm, ih,
      decodeLines_cons timeFields number line lines, Decoded.shift_append]

/-- A line as a payload of its own. -/
theorem decode_of_no_line_end {line : Bytes} (h : 10 ∉ line) :
    decode timeFields line = decodeLines timeFields 1 [line] := by
  rw [decode, pieces_of_not_mem h]

theorem decode_append (a b : Bytes) :
    decode timeFields (a ++ 10 :: b)
      = (decode timeFields a).append ((decode timeFields b).shift (a.count 10 + 1)) := by
  rw [decode, pieces_append, decodeLines_append, length_pieces, decodeLines_add]
  rfl

theorem decodeLines_eq_join (n : Nat) (lines : List Bytes) (h : ∀ line ∈ lines, 10 ∉ line) :
    decodeLines timeFields (1 + n) lines
      = .join (lines.mapIdx fun i line => (decode timeFields line).shift (n + i)) := by
  induction lines generalizing n with
  | nil => rfl
  | cons line lines ih =>
    rw [List.forall_mem_cons] at h
    rw [decodeLines_cons, decodeLines_add, ← decode_of_no_line_end timeFields h.1, Nat.add_assoc,
      ih (n + 1) h.2, List.mapIdx_cons, Decoded.join]
    simp only [Nat.add_zero, Nat.add_assoc, Nat.add_comm 1]

end Lines

/-! ## A single line -/

/-- The carriage return at the end of a line is itself blank. -/
theorem all_isAsciiBlank_withoutReturn (line : Bytes) :
    (withoutReturn line).all Bytes.isAsciiBlank = line.all Bytes.isAsciiBlank := by
  unfold withoutReturn
  split
  · next hlast =>
    obtain ⟨front, rfl⟩ := List.getLast?_eq_some_iff.1 hlast
    rw [List.dropLast_concat, List.all_append]
    exact (Bool.and_true _).symm
  · rfl

theorem decode_blank (timeFields : List String) {line : Bytes} (h : 10 ∉ line)
    (hblank : line.all Bytes.isAsciiBlank = true) : decode timeFields line = ⟨[], []⟩ := by
  rw [← all_isAsciiBlank_withoutReturn] at hblank
  simp only [decode_of_no_line_end timeFields h, decodeLines, hblank, if_true]

theorem decode_of_not_blank (timeFields : List String) {line : Bytes} (h : 10 ∉ line)
    (hblank : line.all Bytes.isAsciiBlank = false) :
    decode timeFields line = match readLine timeFields (withoutReturn line) with
      | .ok row => ⟨[row], []⟩
      | .error why => ⟨[], [⟨1, why⟩]⟩ := by
  rw [← all_isAsciiBlank_withoutReturn] at hblank
  cases hread : readLine timeFields (withoutReturn line) with
  | ok row => simp only [decode_of_no_line_end timeFields h, decodeLines, hblank,
      Bool.false_eq_true, if_false, hread]
  | error why => simp only [decode_of_no_line_end timeFields h, decodeLines, hblank,
      Bool.false_eq_true, if_false, hread]

/-- **Lines are independent of each other, and all of them are accounted for.** What comes of two
    payloads around a line end is what comes of the first and then of the second, whose lines count
    on from those of the first. Hence a payload comes to what its lines come to, each by itself and
    moved to its place, where a blank line comes to nothing and every other line to one row or to
    one skipped line. -/
theorem decode_line_by_line (timeFields : List String) (a b : Bytes) :
    decode timeFields (a ++ 10 :: b)
        = (decode timeFields a).append ((decode timeFields b).shift (a.count 10 + 1)) ∧
      decode timeFields a
        = .join ((pieces 10 a).mapIdx fun i line => (decode timeFields line).shift i) ∧
      (∀ line ∈ pieces 10 a, line.all Bytes.isAsciiBlank = true →
        decode timeFields line = ⟨[], []⟩) ∧
      ∀ line ∈ pieces 10 a, line.all Bytes.isAsciiBlank = false →
        (∃ row, readLine timeFields (withoutReturn line) = .ok row ∧
          decode timeFields line = ⟨[row], []⟩) ∨
        ∃ why, readLine timeFields (withoutReturn line) = .error why ∧
          decode timeFields line = ⟨[], [⟨1, why⟩]⟩ := by
  have hends : ∀ line ∈ pieces 10 a, 10 ∉ line := fun line hline => not_mem_of_mem_pieces hline
  refine ⟨decode_append timeFields a b, ?_, fun line hline hblank => ?_,
    fun line hline hblank => ?_⟩
  · rw [decode]
    simpa only [Nat.zero_add] using decodeLines_eq_join timeFields 0 (pieces 10 a) hends
  · exact decode_blank timeFields (hends line hline) hblank
  · rw [decode_of_not_blank timeFields (hends line hline) hblank]
    cases readLine timeFields (withoutReturn line) with
    | ok row => exact Or.inl ⟨row, rfl, rfl⟩
    | error why => exact Or.inr ⟨why, rfl, rfl⟩

/-- A line that is no text, an object cut off behind it. -/
def sampleGarbage : Bytes :=
  255 :: Bytes.ofString "\x7b\"_msg\":\"a"

def sampleMessage : Json :=
  .obj [(msgName, .str "b")]

/-- The message with a carriage return behind it. -/
def sampleObject : Bytes :=
  Bytes.ofString sampleMessage.render ++ [13]

/-- Behind a blank line and one that is skipped, an object still gives its row. -/
theorem object_behind_garbage_read :
    decode ["_time"] ((32 :: 10 :: sampleGarbage) ++ 10 :: sampleObject)
      = ⟨[⟨none, [], [⟨msgName, "b"⟩]⟩], [⟨2, .malformed⟩]⟩ := by
  have hgarbage : readLine ["_time"] (withoutReturn sampleGarbage) = .error .malformed := by
    have htext : Bytes.toString? (withoutReturn sampleGarbage) = none := by decide +kernel
    rw [readLine, htext]
    rfl
  have hobject : readLine ["_time"] (withoutReturn sampleObject)
      = .ok ⟨none, [], [⟨msgName, "b"⟩]⟩ := by
    have hline : withoutReturn sampleObject = Bytes.ofString sampleMessage.render := by
      decide +kernel
    rw [hline, readLine, Bytes.toString?_ofString, Option.bind_some, Json.render,
      String.toList_ofList, Json.parse?_renderChars]
    rfl
  have hpieces : pieces 10 (32 :: 10 :: sampleGarbage) = [[32], sampleGarbage] := by decide
  have hpiece : pieces 10 sampleObject = [sampleObject] := by decide +kernel
  obtain ⟨hjoin, hlines, hblank, hother⟩ :=
    decode_line_by_line ["_time"] (32 :: 10 :: sampleGarbage) sampleObject
  obtain ⟨-, -, -, hobjects⟩ := decode_line_by_line ["_time"] sampleObject []
  rw [hpieces] at hlines hblank hother
  rw [hpiece] at hobjects
  have hskipped : decode ["_time"] sampleGarbage = ⟨[], [⟨1, .malformed⟩]⟩ := by
    rcases hother sampleGarbage (by simp) (by decide) with ⟨_, hread, -⟩ | ⟨why, hread, h⟩
    · rw [hgarbage] at hread
      cases hread
    · rw [hgarbage] at hread
      cases hread
      exact h
  have hrow : decode ["_time"] sampleObject = ⟨[⟨none, [], [⟨msgName, "b"⟩]⟩], []⟩ := by
    rcases hobjects sampleObject (by simp) (by decide +kernel) with ⟨row, hread, h⟩ | ⟨_, hread, -⟩
    · rw [hobject] at hread
      cases hread
      exact h
    · rw [hobject] at hread
      cases hread
  rw [hjoin, hlines, List.mapIdx_cons, List.mapIdx_cons, List.mapIdx_nil,
    hblank [32] (by simp) (by decide), hskipped, hrow]
  rfl

end JsonLines

end Logbook
