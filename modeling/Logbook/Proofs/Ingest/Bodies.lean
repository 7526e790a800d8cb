import Logbook.Ingest.Body
import Logbook.Http.Message

set_option autoImplicit false

/-! # Bodies within their limit

A body is read chunk by chunk and a compressed one is inflated from a source of bytes, both up to
the same limit. How a body is cut into chunks makes no difference, and the limit is exact on both
ways: what has as many bytes as the limit is taken as a whole, and one byte more is too large, for a
source whatever comes behind that byte (**`Body.taken_within_limit`**). -/

namespace Logbook

namespace Body

variable {format : String} {limit : Nat}

/-! ## Chunks -/

/-- A body that arrives in these pieces, none of them failing. -/
def arriving (parts : List Bytes) : List Chunk :=
  parts.map .data

/-- A body of this length is taken, given what its header says of the length. -/
def Admitted (limit : Nat) (declared : Option String) (length : Nat) : Prop :=
  (∀ n, declared.bind Decimal.readUInt64? = some n → n ≤ limit) ∧ length ≤ limit

/-- What has been read so far stays within the limit, so that the first chunk that does not fit is
    the one with which the whole body does not. -/
theorem collect_arriving {out : Bytes} (hout : out.length ≤ limit) (parts : List Bytes) :
    collect format limit out (arriving parts)
      = if (out ++ parts.flatten).length ≤ limit then .ok (out ++ parts.flatten)
        else .error (.tooLarge format limit) := by
  induction parts generalizing out with
  | nil =>
    rw [List.flatten_nil, List.append_nil, if_pos hout]
    rfl
  | cons part parts ih =>
    rw [arriving, List.map_cons, collect, List.flatten_cons, ← List.append_assoc]
    by_cases hpart : limit < out.length + part.length
    · have hlong : ¬ (out ++ part ++ parts.flatten).length ≤ limit := by
        simp only [List.length_append]
        omega
      rw [if_pos hpart, if_neg hlong]
    · rw [if_neg hpart]
      exact ih (by rw [List.length_append]; omega)

theorem collect_all (parts : List Bytes) :
    collect format limit [] (arriving parts)
      = if parts.flatten.length ≤ limit then .ok parts.flatten
        else .error (.tooLarge format limit) :=
  collect_arriving (Nat.zero_le limit) parts

/-- A header that does not declare too much has no say in what is read. -/
theorem read_eq_collect {declared : Option String} (chunks : List Chunk)
    (h : ∀ n, declared.bind Decimal.readUInt64? = some n → n ≤ limit) :
    read format limit declared chunks = collect format limit [] chunks := by
  rw [read]
  split
  · next n hn => exact if_neg (Nat.not_lt.2 (h n hn))
  · rfl

theorem read_of_admitted {declared : Option String} {parts : List Bytes}
    (h : Admitted limit declared parts.flatten.length) :
    read format limit declared (arriving parts) = .ok parts.flatten := by
  obtain ⟨hdeclared, hlength⟩ := h
  rw [read_eq_collect _ hdeclared, collect_all, if_pos hlength]

theorem read_of_not_admitted {declared : Option String} {parts : List Bytes}
    (h : ¬ Admitted limit declared parts.flatten.length) :
    read format limit declared (arriving parts) = .error (.tooLarge format limit) := by
  by_cases hdeclared : ∀ n, declared.bind Decimal.readUInt64? = some n → n ≤ limit
  · have hlength : ¬ parts.flatten.length ≤ limit := fun hlength => h ⟨hdeclared, hlength⟩
    rw [read_eq_collect _ hdeclared, collect_all, if_neg hlength]
  · obtain ⟨n, hn, hlarge⟩ : ∃ n, declared.bind Decimal.readUInt64? = some n ∧ limit < n := by
      simpa only [Classical.not_forall, exists_prop, Nat.not_le] using hdeclared
    rw [read, hn]
    exact if_pos hlarge

/-! ## Sources -/

section Sources

open Deflate (Source)

variable {s : Source} {encoding : String} {size : Nat}

/-- A source that yields no more than the limit is asked for more, so it comes to its end. -/
theorem take_of_short (h : s.bytes.length ≤ limit) : s.take (limit + 1) = s := by
  rw [Source.take, if_neg (by omega)]

theorem take_of_long (h : limit < s.bytes.length) :
    s.take (limit + 1) = ⟨s.bytes.take (limit + 1), false⟩ :=
  if_pos h

theorem bounded_of_end (hlength : s.bytes.length ≤ limit) (hend : s.fails = false) :
    bounded format encoding limit size s = .ok s.bytes := by
  simp only [bounded, take_of_short hlength, Source.toEnd?, hend, Bool.false_eq_true, if_false,
    if_neg (Nat.not_lt.2 hlength)]

theorem bounded_of_failure (hlength : s.bytes.length ≤ limit) (hfails : s.fails = true) :
    bounded format encoding limit size s = .error (.decompress format encoding size) := by
  simp only [bounded, take_of_short hlength, Source.toEnd?, hfails, if_true]

theorem bounded_of_long (hlength : limit < s.bytes.length) :
    bounded format encoding limit size s = .error (.tooLarge format limit) := by
  have htaken : limit < (s.bytes.take (limit + 1)).length := by
    rw [List.length_take]
    omega
  simp only [bounded, take_of_long hlength, Source.toEnd?, Bool.false_eq_true, if_false,
    if_pos htaken]

theorem length_le_of_bounded {out : Bytes} (h : bounded format encoding limit size s = .ok out) :
    out.length ≤ limit := by
  rw [bounded] at h
  split at h
  · cases h
  · split at h
    · cases h
    · next hle =>
      cases h
      exact Nat.not_lt.1 hle

/-- Neither a missing encoding nor the one that changes nothing makes a source. -/
theorem decompress_eq_bounded {header : Option String} {body : Bytes} {name : String}
    (h : source? (encodingName header) body = some (name, s)) :
    decompress format limit header body = bounded format name limit body.length s := by
  simp only [decompress]
  split
  · next hplain =>
    rw [Bool.or_eq_true, beq_iff_eq, beq_iff_eq] at hplain
    rcases hplain with heq | heq <;> simp [source?, heq] at h
  · rw [h]

end Sources

/-- **Bodies are taken exactly within their limit.** A body that arrives without failure is read as
    a whole if neither the length in its header nor its own is above the limit and is too large
    otherwise, however it is cut into chunks. A compressed body gives all its bytes if they are no
    more than the limit and end cleanly, is too large if they are more, even if they would then
    fail, and is corrupt if they fail before; and it never gives more than the limit. -/
theorem taken_within_limit (format : String) (limit : Nat) (headers : Http.Headers) :
    let declared := headers.text? "content-length"
    let encoding := headers.text? "content-encoding"
    (∀ parts : List Bytes,
      (read format limit declared (arriving parts) = .ok parts.flatten
        ↔ Admitted limit declared parts.flatten.length) ∧
      (¬ Admitted limit declared parts.flatten.length →
        read format limit declared (arriving parts) = .error (.tooLarge format limit)) ∧
      ∀ others : List Bytes, others.flatten = parts.flatten →
        read format limit declared (arriving others)
          = read format limit declared (arriving parts)) ∧
    ∀ body name s, source? (encodingName encoding) body = some (name, s) →
      (s.bytes.length ≤ limit → s.fails = false →
        decompress format limit encoding body = .ok s.bytes) ∧
      (limit < s.bytes.length →
        decompress format limit encoding body = .error (.tooLarge format limit)) ∧
      (s.bytes.length ≤ limit → s.fails = true →
        decompress format limit encoding body
          = .error (.decompress format name body.length)) ∧
      ∀ out, decompress format limit encoding body = .ok out → out.length ≤ limit := by
  intro declared encoding
  refine ⟨fun parts => ⟨⟨fun hread => ?_, read_of_admitted⟩, read_of_not_admitted,
    fun others hsame => ?_⟩, fun body name s hsource => ?_⟩
  · by_cases h : Admitted limit declared parts.flatten.length
    · exact h
    · rw [read_of_not_admitted h] at hread
      cases hread
  · by_cases h : Admitted limit declared parts.flatten.length
    · rw [read_of_admitted h, ← hsame, read_of_admitted (hsame ▸ h)]
    · rw [read_of_not_admitted h, read_of_not_admitted (hsame ▸ h)]
  · rw [decompress_eq_bounded hsource]
    exact ⟨bounded_of_end, bounded_of_long, bounded_of_failure, fun _ => length_le_of_bounded⟩

/-- Two bytes behind the header of zlib, with no checksum behind them. -/
def sampleStored : Bytes :=
  [0x78, 0x01, 0x01, 0x02, 0x00, 0xfd, 0xff, 0x61, 0x62]

def sampleHeaders : Http.Headers :=
  [("Content-Length", "9"), ("Content-Encoding", " Deflate")]

/-- The body fills a limit of nine bytes, in which its two bytes come to nothing without their
    checksum. -/
theorem stored_block_taken :
    read "native" 9 (sampleHeaders.text? "content-length")
        (arriving [sampleStored.take 4, [], sampleStored.drop 4]) = .ok sampleStored ∧
      decompress "native" 9 (sampleHeaders.text? "content-encoding") sampleStored
        = .error (.decompress "native" "deflate" 9) ∧
      decompress "native" 1 (sampleHeaders.text? "content-encoding") sampleStored
        = .error (.tooLarge "native" 1) := by
  have hadmitted : Admitted 9 (sampleHeaders.text? "content-length")
      [sampleStored.take 4, [], sampleStored.drop 4].flatten.length := by
    constructor
    · have hnine : (sampleHeaders.text? "content-length").bind Decimal.readUInt64? = some 9 := by
        decide +kernel
      intro n hn
      rw [hnine] at hn
      cases hn
      decide
    · decide
  have hsource : source? (encodingName (sampleHeaders.text? "content-encoding")) sampleStored
      = some ("deflate", ⟨[0x61, 0x62], true⟩) := by
    decide +kernel
  obtain ⟨hchunks, hnine⟩ := taken_within_limit "native" 9 sampleHeaders
  obtain ⟨-, hone⟩ := taken_within_limit "native" 1 sampleHeaders
  refine ⟨(hchunks _).1.2 hadmitted, ?_, ?_⟩
  · exact (hnine _ _ _ hsource).2.2.1 (by decide) rfl
  · exact (hone _ _ _ hsource).2.1 (by decide)

end Body

end Logbook
