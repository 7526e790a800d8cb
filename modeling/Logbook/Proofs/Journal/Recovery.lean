import Mathlib.Data.List.Forall2
import Mathlib.Data.List.Induction
import Logbook.Proofs.Journal.Replay

set_option autoImplicit false

/-! # Opening what a crash left

A process may die at any byte of an append, and what it leaves is the file cut somewhere. Opening
that file keeps the records that lie in it as a whole and nothing else. The reason is that no record
is the beginning of another one (`length_eq_of_record_prefix`), so that a cut record is never read.
The same holds after any number of appends, rewritings and crashes before
(`History.recovers_whole_records`), and of any bytes whatever, an opening keeps the longest chain of
records at their start. -/

namespace Logbook

namespace Bytes

theorem toNatBE_append_singleton (b : Bytes) (x : UInt8) :
    toNatBE (b ++ [x]) = toNatBE b * 256 + x.toNat :=
  List.foldl_append

theorem toNatBE_lt (b : Bytes) : toNatBE b < 256 ^ b.length := by
  induction b using List.reverseRecOn with
  | nil => exact Nat.one_pos
  | append_singleton b x ih =>
    have hx : x.toNat < 256 := x.toNat_lt
    rw [toNatBE_append_singleton, List.length_append, List.length_singleton, pow_succ]
    omega

/-- A byte string is told by its number and its width. -/
theorem ofNatBE_toNatBE (b : Bytes) : ofNatBE b.length (toNatBE b) = b := by
  induction b using List.reverseRecOn with
  | nil => rfl
  | append_singleton b x ih =>
    have hx : x.toNat < 256 := x.toNat_lt
    have hlow : (toNatBE b * 256 + x.toNat) % 256 = x.toNat := by omega
    have hhigh : (toNatBE b * 256 + x.toNat) / 256 = toNatBE b := by omega
    rw [toNatBE_append_singleton, List.length_append, List.length_singleton, ofNatBE, hlow, hhigh,
      ih, UInt8.ofNat_toNat]

theorem ofNatBE_injective {width n m : Nat} (hn : n < 256 ^ width) (hm : m < 256 ^ width)
    (h : ofNatBE width n = ofNatBE width m) : n = m := by
  rw [← toNatBE_ofNatBE hn, h, toNatBE_ofNatBE hm]

/-- The first bytes of a string are told by the number they spell. -/
theorem ofNatBE_toNatBE_take {width : Nat} {b : Bytes} (h : width ≤ b.length) :
    ofNatBE width (toNatBE (b.take width)) = b.take width := by
  have hlen : (b.take width).length = width := List.length_take_of_le h
  have := ofNatBE_toNatBE (b.take width)
  rwa [hlen] at this

end Bytes

namespace Journal

/-! ## Records at the front of a file -/

/-- Whether a record can hold this payload and these rows are what it is read as. -/
def Holds (payload : Bytes) (rows : List DecodedRow) : Prop :=
  payload.length ≤ maxPayload ∧ RowCodec.decodeAll payload = .ok rows

theorem take_four_record (payload : Bytes) :
    (record payload).take 4 = Bytes.ofNatBE 4 payload.length := by
  rw [record, List.append_assoc, List.take_left' (Bytes.length_ofNatBE 4 _)]

/-- Two records at the front of one file have the same length: their first bytes say it. -/
theorem length_eq_of_record_prefix {payload payload' file : Bytes}
    (hlen : payload.length ≤ maxPayload) (hlen' : payload'.length ≤ maxPayload)
    (h : record payload <+: file) (h' : record payload' <+: file) :
    payload.length = payload'.length := by
  have hfront : ∀ p : Bytes, record p <+: file → file.take 4 = Bytes.ofNatBE 4 p.length := by
    rintro p ⟨rest, rfl⟩
    have h4 : 4 ≤ (record p).length := by rw [length_record, headerSize]; omega
    rw [List.take_append_of_le_length h4, take_four_record]
  have hmax : maxPayload < 256 ^ 4 := by decide
  exact Bytes.ofNatBE_injective (Nat.lt_of_le_of_lt hlen hmax) (Nat.lt_of_le_of_lt hlen' hmax)
    ((hfront payload h).symm.trans (hfront payload' h'))

/-- What is read from a file is the payload of a record at its front. -/
theorem exists_record_of_readRecord? {file rest : Bytes} {rows : List DecodedRow}
    (h : readRecord? file = some (rows, rest)) :
    ∃ payload, Holds payload rows ∧ file = record payload ++ rest := by
  simp only [readRecord?] at h
  split at h
  · contradiction
  next hheader =>
  split at h
  · contradiction
  next hfits =>
  split at h
  · contradiction
  next hsum =>
  split at h
  · next rows' hrows =>
    cases h
    have hheader : 8 ≤ file.length := Nat.not_lt.1 hheader
    have hdrop : 4 ≤ (file.drop 4).length := by rw [List.length_drop]; omega
    have hpayload := List.length_take_of_le (Nat.not_lt.1 hfits)
    refine ⟨(file.drop headerSize).take (Bytes.toNatBE (file.take 4)), ⟨?_, hrows⟩, ?_⟩
    · have hlt := Bytes.toNatBE_lt (file.take 4)
      rw [List.length_take_of_le (by omega)] at hlt
      rw [hpayload]
      exact Nat.le_of_lt_succ hlt
    · -- header and payload are the bytes they were read from
      have hbody : (file.drop 4).drop 4 = file.drop headerSize := List.drop_drop
      rw [record, hpayload, Decidable.of_not_not hsum, Bytes.ofNatBE_toNatBE_take (by omega),
        Bytes.ofNatBE_toNatBE_take hdrop, List.append_assoc, List.take_append_drop, ← hbody,
        List.append_assoc, List.take_append_drop, List.take_append_drop]
  · contradiction

/-- **Reading finds the record at the front of a file, if there is one.** -/
theorem readRecord?_eq_some_iff {file rest : Bytes} {rows : List DecodedRow} :
    readRecord? file = some (rows, rest) ↔
      ∃ payload, Holds payload rows ∧ file = record payload ++ rest := by
  constructor
  · exact exists_record_of_readRecord?
  · rintro ⟨payload, ⟨hlen, hrows⟩, rfl⟩
    exact readRecord?_append rest (readRecord?_record hlen hrows)

/-- A record that was cut is not read. -/
theorem readRecord?_take_record {payload : Bytes} (hlen : payload.length ≤ maxPayload) {k : Nat}
    (hk : k < (record payload).length) : readRecord? ((record payload).take k) = none := by
  refine Option.eq_none_iff_forall_ne_some.2 ?_
  rintro ⟨rows, rest⟩ h
  obtain ⟨other, ⟨hother, -⟩, heq⟩ := readRecord?_eq_some_iff.1 h
  have hcut : record other <+: record payload :=
    (heq ▸ List.prefix_append (record other) rest).trans (List.take_prefix ..)
  have hsame := length_eq_of_record_prefix hlen hother List.prefix_rfl hcut
  have hle := (heq ▸ List.prefix_append (record other) rest : record other <+: _).length_le
  rw [length_record, ← hsame, ← length_record, List.length_take] at hle
  omega

/-! ## Chains of records -/

/-- The journal that consists of the records of these payloads. -/
def ofRecords (payloads : List Bytes) : Journal :=
  ⟨payloads.flatMap record, (payloads.flatMap record).length⟩

/-- Payloads that can be read are read as some batches. -/
theorem exists_batches {payloads : List Bytes} (h : ∀ p ∈ payloads, ∃ rows, Holds p rows) :
    ∃ batches, List.Forall₂ Holds payloads batches := by
  induction payloads with
  | nil => exact ⟨[], .nil⟩
  | cons p rest ih =>
    obtain ⟨rows, hrows⟩ := h p List.mem_cons_self
    obtain ⟨batches, hbatches⟩ := ih fun q hq => h q (List.mem_cons_of_mem p hq)
    exact ⟨rows :: batches, .cons hrows hbatches⟩

theorem length_le_of_holds {payloads : List Bytes} {batches : List (List DecodedRow)}
    (h : List.Forall₂ Holds payloads batches) : ∀ p ∈ payloads, p.length ≤ maxPayload :=
  ((List.forall₂_and_left payloads batches).1 h).1

theorem intact_flatMap_record {payloads : List Bytes} {batches : List (List DecodedRow)}
    (h : List.Forall₂ Holds payloads batches) : Intact (payloads.flatMap record) batches := by
  induction h with
  | nil => exact intact_nil
  | cons hp _ ih => exact intact_append_intact (intact_record hp.1 hp.2) ih

theorem replay_of_readRecord?_eq_none {file : Bytes} (h : readRecord? file = none) :
    replay file = ([], file) := by
  rw [replay]
  split
  · rfl
  · next hsome =>
    rw [h] at hsome
    contradiction

/-- Opening keeps a chain of records if no record follows it. -/
theorem ofFile_flatMap_record {payloads : List Bytes} {batches : List (List DecodedRow)}
    {tail : Bytes} (h : List.Forall₂ Holds payloads batches) (htail : readRecord? tail = none) :
    ofFile (payloads.flatMap record ++ tail) = (ofRecords payloads, batches) := by
  have hreplay := replay_append tail (intact_flatMap_record h)
  rw [replay_of_readRecord?_eq_none htail, List.append_nil] at hreplay
  have hkept : (payloads.flatMap record ++ tail).length - tail.length
      = (payloads.flatMap record).length := by
    rw [List.length_append, Nat.add_sub_cancel]
  simp only [ofFile, hreplay, hkept, List.take_left', ofRecords]

theorem readRecord?_nil : readRecord? [] = none := rfl

theorem ofFile_ofRecords {payloads : List Bytes} {batches : List (List DecodedRow)}
    (h : List.Forall₂ Holds payloads batches) :
    ofFile (ofRecords payloads).file = (ofRecords payloads, batches) := by
  have hopen := ofFile_flatMap_record h readRecord?_nil
  rwa [List.append_nil] at hopen

/-- Every file is a chain of records and bytes that do not begin with one. -/
theorem exists_chain (file : Bytes) :
    ∃ payloads batches tail, file = payloads.flatMap record ++ tail ∧
      List.Forall₂ Holds payloads batches ∧ readRecord? tail = none := by
  induction hlen : file.length using Nat.strongRecOn generalizing file with
  | ind n ih =>
    cases hread : readRecord? file with
    | none => exact ⟨[], [], file, rfl, .nil, hread⟩
    | some found =>
      obtain ⟨rows, rest⟩ := found
      obtain ⟨payload, hholds, hfile⟩ := readRecord?_eq_some_iff.1 hread
      obtain ⟨payloads, batches, tail, hrest, hchain, htail⟩ :=
        ih rest.length (hlen ▸ length_readRecord? hread) rest rfl
      refine ⟨payload :: payloads, rows :: batches, tail, ?_, .cons hholds hchain, htail⟩
      rw [hfile, hrest, List.flatMap_cons, List.append_assoc]

/-! ## Writing chains -/

theorem push_ofRecords (payloads : List Bytes) (payload : Bytes) :
    (ofRecords payloads).push (record payload) = ofRecords (payloads ++ [payload]) := by
  simp [push, ofRecords]

theorem append_ofRecords {payload : Bytes} (hlen : payload.length ≤ maxPayload)
    (payloads : List Bytes) :
    (ofRecords payloads).append payload = .ok (ofRecords (payloads ++ [payload])) := by
  rw [← push_ofRecords, append, frame, if_pos hlen]
  rfl

theorem ofPayloads_eq_ofRecords {payloads : List Bytes} {j : Journal}
    (h : ofPayloads payloads = .ok j) :
    (∀ p ∈ payloads, p.length ≤ maxPayload) ∧ j = ofRecords payloads := by
  simp only [ofPayloads, bind, Except.bind] at h
  split at h
  · contradiction
  · next records hrecords =>
    obtain ⟨hlen, rfl⟩ := mapM_frame_eq_ok hrecords
    cases h
    refine ⟨hlen, ?_⟩
    rw [ofRecords, List.flatMap_def, List.length_flatten, List.sum_eq_foldl]
    simp only [List.foldl_map]

/-- Records are appended to a chain of records as long as each of them fits. -/
theorem foldlM_append_ofRecords {more : List Bytes} (hlen : ∀ p ∈ more, p.length ≤ maxPayload)
    (payloads : List Bytes) :
    more.foldlM append (ofRecords payloads) = .ok (ofRecords (payloads ++ more)) := by
  induction more generalizing payloads with
  | nil => rw [List.append_nil]; rfl
  | cons p rest ih =>
    have hrest := ih (fun q hq => hlen q (List.mem_cons_of_mem p hq)) (payloads ++ [p])
    rw [List.append_assoc, List.singleton_append] at hrest
    rw [List.foldlM_cons, append_ofRecords (hlen p List.mem_cons_self)]
    exact hrest

/-! ## Cut files -/

/-- The first of some payloads, as many as have their records within `k` bytes. -/
def within (k : Nat) : List Bytes → List Bytes
  | [] => []
  | p :: rest =>
    if (record p).length ≤ k then p :: within (k - (record p).length) rest else []

/-- The payloads whose records fit are the first ones, and the next record does not fit. -/
theorem exists_eq_within_append (k : Nat) (payloads : List Bytes) :
    ∃ lost, payloads = within k payloads ++ lost ∧
      ((within k payloads).flatMap record).length ≤ k ∧
      ∀ p ∈ lost.head?, k < ((within k payloads).flatMap record).length + (record p).length := by
  induction payloads generalizing k with
  | nil => exact ⟨[], rfl, Nat.zero_le k, nofun⟩
  | cons p rest ih =>
    rw [within]
    split
    · next hfits =>
      obtain ⟨lost, hrest, hle, hnext⟩ := ih (k - (record p).length)
      refine ⟨lost, congrArg (p :: ·) hrest, ?_, fun q hq => ?_⟩
      · rw [List.flatMap_cons, List.length_append]
        omega
      · have := hnext q hq
        rw [List.flatMap_cons, List.length_append]
        omega
    · next hcut =>
      refine ⟨p :: rest, rfl, Nat.zero_le k, ?_⟩
      rintro q hq
      cases Option.some.inj hq
      simpa using hcut

/-- Cutting a chain of records leaves the records that fit and a cut one, or no byte of it. -/
theorem exists_take_flatMap_record {payloads : List Bytes}
    (hlen : ∀ p ∈ payloads, p.length ≤ maxPayload) (k : Nat) :
    ∃ tail, (payloads.flatMap record).take k = (within k payloads).flatMap record ++ tail ∧
      readRecord? tail = none := by
  induction payloads generalizing k with
  | nil => exact ⟨[], List.take_nil, readRecord?_nil⟩
  | cons p rest ih =>
    rw [within, List.flatMap_cons, List.take_append]
    split
    · next hfits =>
      obtain ⟨tail, hrest, htail⟩ :=
        ih (fun q hq => hlen q (List.mem_cons_of_mem p hq)) (k - (record p).length)
      refine ⟨tail, ?_, htail⟩
      rw [List.take_of_length_le hfits, hrest, List.flatMap_cons, List.append_assoc]
    · next hcut =>
      have hcut := Nat.not_le.1 hcut
      refine ⟨(record p).take k, ?_, readRecord?_take_record (hlen p List.mem_cons_self) hcut⟩
      rw [Nat.sub_eq_zero_of_le (Nat.le_of_lt hcut), List.take_zero, List.append_nil]
      rfl

/-! ## Histories of a journal -/

/-- What happens to a journal file. -/
inductive Event where
  | append (payload : Bytes)
  | rewrite (payloads : List Bytes)
  /-- The process dies, the first `left` bytes of the file are left, and the next process opens
      it. -/
  | crash (left : Nat)

/-- The payloads that an event is about to write. -/
def Event.payloads : Event → List Bytes
  | .append payload => [payload]
  | .rewrite payloads => payloads
  | .crash _ => []

/-- A journal with the payloads that should be in it. -/
structure History where
  journal : Journal
  payloads : List Bytes

namespace History

/-- A journal that is opened for the first time. -/
def start : History :=
  ⟨(ofFile []).1, []⟩

/-- One more event. What fails changes nothing. -/
def step (h : History) : Event → History
  | .append payload =>
    match h.journal.append payload with
    | .ok journal => ⟨journal, h.payloads ++ [payload]⟩
    | .error _ => h
  | .rewrite payloads =>
    match ofPayloads payloads with
    | .ok journal => ⟨journal, payloads⟩
    | .error _ => h
  | .crash left => ⟨(ofFile (h.journal.file.take left)).1, within left h.payloads⟩

def run (events : List Event) : History :=
  events.foldl step start

/-- All payloads of the events can be decoded. -/
def Decodable (events : List Event) : Prop :=
  ∀ e ∈ events, ∀ p ∈ e.payloads, ∃ rows, RowCodec.decodeAll p = .ok rows

/-- The journal consists of the records of the payloads that should be in it. -/
structure Sound (h : History) : Prop where
  journal : h.journal = ofRecords h.payloads
  holds : ∀ p ∈ h.payloads, ∃ rows, Holds p rows

theorem sound_start : start.Sound where
  journal := congrArg Prod.fst (ofFile_ofRecords .nil)
  holds := nofun

theorem Sound.lengths {h : History} (hs : h.Sound) : ∀ p ∈ h.payloads, p.length ≤ maxPayload :=
  fun p hp => (hs.holds p hp).elim fun _ hrows => hrows.1

/-- Opening a cut journal leaves the records that fit. -/
theorem Sound.ofFile_take {h : History} (hs : h.Sound) (left : Nat) :
    ∃ batches, List.Forall₂ Holds (within left h.payloads) batches ∧
      ofFile (h.journal.file.take left) = (ofRecords (within left h.payloads), batches) := by
  obtain ⟨lost, hlost, -, -⟩ := exists_eq_within_append left h.payloads
  have hwithin : ∀ p ∈ within left h.payloads, ∃ rows, Holds p rows := fun p hp =>
    hs.holds p (hlost ▸ List.mem_append_left lost hp)
  obtain ⟨batches, hbatches⟩ := exists_batches hwithin
  obtain ⟨tail, htake, htail⟩ := exists_take_flatMap_record hs.lengths left
  refine ⟨batches, hbatches, ?_⟩
  rw [hs.journal, ofRecords, htake, ofFile_flatMap_record hbatches htail]

theorem sound_step {h : History} (hs : h.Sound) {e : Event}
    (hdecode : ∀ p ∈ e.payloads, ∃ rows, RowCodec.decodeAll p = .ok rows) : (h.step e).Sound := by
  cases e with
  | append payload =>
    obtain ⟨rows, hrows⟩ := hdecode payload List.mem_cons_self
    by_cases hlen : payload.length ≤ maxPayload
    · have happend := append_ofRecords hlen h.payloads
      rw [← hs.journal] at happend
      simp only [step, happend]
      refine ⟨rfl, fun p hp => ?_⟩
      rcases List.mem_append.1 hp with hp | hp
      · exact hs.holds p hp
      · rw [List.mem_singleton.1 hp]
        exact ⟨rows, hlen, hrows⟩
    · have hrefused : h.journal.append payload = .error (.recordTooLarge payload.length) := by
        rw [append, frame, if_neg hlen]
        rfl
      simp only [step, hrefused]
      exact hs
  | rewrite payloads =>
    simp only [step]
    split
    · next j hj =>
      obtain ⟨hlen, hfile⟩ := ofPayloads_eq_ofRecords hj
      exact ⟨hfile, fun p hp => (hdecode p hp).imp fun rows hrows => ⟨hlen p hp, hrows⟩⟩
    · exact hs
  | crash left =>
    obtain ⟨batches, -, hopen⟩ := hs.ofFile_take left
    obtain ⟨lost, hlost, -, -⟩ := exists_eq_within_append left h.payloads
    refine ⟨congrArg Prod.fst hopen, fun p hp => hs.holds p ?_⟩
    rw [hlost]
    exact List.mem_append_left lost hp

theorem sound_foldl {events : List Event} (hdecode : Decodable events) {h : History}
    (hs : h.Sound) : (events.foldl step h).Sound := by
  induction events generalizing h with
  | nil => exact hs
  | cons e rest ih =>
    have hstep := sound_step hs (hdecode e List.mem_cons_self)
    exact ih (fun e he => hdecode e (List.mem_cons_of_mem _ he)) hstep

/-- Through all events the journal consists of the records it should, and its size is counted
    right. -/
theorem sound_run {events : List Event} (hdecode : Decodable events) : (run events).Sound :=
  sound_foldl hdecode sound_start

/-! ## Recovery -/

/-- **A crash costs the records that were not whole, and nothing else.** After any events, cut the
    file to its first `k` bytes: opening it gives the batches of the records that lie within them,
    leaves the file and its counted size at the end of the last of those, does the same when done
    again, and what is appended then is replayed behind them. Whatever the bytes of a file are,
    opening it leaves a chain of records at its start that no record continues, with their
    batches. -/
theorem recovers_whole_records :
    (∀ events, Decodable events →
      (run events).journal = ofRecords (run events).payloads ∧
      ∀ k, ∃ kept lost batches, (run events).payloads = kept ++ lost ∧
        (kept.flatMap record).length ≤ k ∧
        (∀ p ∈ lost.head?, k < (kept.flatMap record).length + (record p).length) ∧
        List.Forall₂ Holds kept batches ∧
        ofFile ((run events).journal.file.take k) = (ofRecords kept, batches) ∧
        ofFile (ofRecords kept).file = (ofRecords kept, batches) ∧
        ∀ more batches', List.Forall₂ Holds more batches' →
          ∃ j, more.foldlM append (ofRecords kept) = .ok j ∧
            ofFile j.file = (j, batches ++ batches')) ∧
    ∀ file, ∃ payloads batches tail, file = payloads.flatMap record ++ tail ∧
      List.Forall₂ Holds payloads batches ∧ ofFile file = (ofRecords payloads, batches) ∧
      ∀ p rows, Holds p rows → ¬ record p <+: tail := by
  constructor
  · intro events hdecode
    have hs := sound_run hdecode
    refine ⟨hs.journal, fun k => ?_⟩
    obtain ⟨batches, hbatches, hopen⟩ := hs.ofFile_take k
    obtain ⟨lost, hlost, hle, hnext⟩ := exists_eq_within_append k (run events).payloads
    refine ⟨_, lost, batches, hlost, hle, hnext, hbatches, hopen, ofFile_ofRecords hbatches, ?_⟩
    intro more batches' hmore
    have hlen : ∀ p ∈ more, p.length ≤ maxPayload :=
      ((List.forall₂_and_left more batches').1 hmore).1
    exact ⟨_, foldlM_append_ofRecords hlen _, ofFile_ofRecords (List.rel_append hbatches hmore)⟩
  · intro file
    obtain ⟨payloads, batches, tail, rfl, hchain, htail⟩ := exists_chain file
    refine ⟨payloads, batches, tail, rfl, hchain, ofFile_flatMap_record hchain htail, ?_⟩
    rintro p rows hholds ⟨rest, rfl⟩
    rw [readRecord?_eq_some_iff.2 ⟨p, hholds, rfl⟩] at htail
    contradiction

/-- A payload of ten bytes, whose record has eighteen. -/
def samplePayload (t : Timestamp) : Bytes :=
  RowCodec.encodeAll [⟨some t, [], []⟩]

/-- The crash leaves two whole records and four bytes of the third. -/
def sampleEvents : List Event :=
  [.append (samplePayload 1), .rewrite [samplePayload 2, samplePayload 3],
    .append (samplePayload 4), .crash 40, .append (samplePayload 5)]

theorem decodeAll_samplePayload (t : Timestamp) :
    ∃ rows, RowCodec.decodeAll (samplePayload t) = .ok rows :=
  ⟨_, RowCodec.decodeAll_encodeAll_of_length (by
    simp [RowCodec.encodeAll, RowCodec.encode, DecodedRow.fields, Varint.encode_of_lt,
      RowCodec.length_encodeTimestamp])⟩

/-- One byte is missing from the record that was appended after the crash. -/
theorem last_record_lost :
    Decodable sampleEvents ∧
      (run sampleEvents).payloads = [samplePayload 2, samplePayload 3, samplePayload 5] ∧
      ∃ batches, ofFile ((run sampleEvents).journal.file.take 53)
        = (ofRecords [samplePayload 2, samplePayload 3], batches) := by
  have hdecode : Decodable sampleEvents := by
    intro e he p hp
    have ht : ∃ t, p = samplePayload t := by
      simp only [sampleEvents, List.mem_cons, List.not_mem_nil, or_false] at he
      rcases he with rfl | rfl | rfl | rfl | rfl <;>
        simp only [Event.payloads, List.mem_cons, List.not_mem_nil, or_false] at hp
      · exact ⟨_, hp⟩
      · exact hp.elim (fun h => ⟨_, h⟩) fun h => ⟨_, h⟩
      · exact ⟨_, hp⟩
      · exact ⟨_, hp⟩
    obtain ⟨t, rfl⟩ := ht
    exact decodeAll_samplePayload t
  have hpayloads : (run sampleEvents).payloads
      = [samplePayload 2, samplePayload 3, samplePayload 5] := by
    decide +kernel
  refine ⟨hdecode, hpayloads, ?_⟩
  obtain ⟨kept, lost, batches, happend, hle, hnext, -, hopen, -, -⟩ :=
    (recovers_whole_records.1 sampleEvents hdecode).2 53
  rw [hpayloads] at happend
  -- each record has eighteen bytes
  rcases kept with _ | ⟨a, _ | ⟨b, _ | ⟨c, rest⟩⟩⟩
  · rw [List.nil_append] at happend
    subst happend
    exact absurd (hnext _ rfl) (by decide +kernel)
  · cases happend
    exact absurd (hnext _ rfl) (by decide +kernel)
  · cases happend
    exact ⟨batches, hopen⟩
  · obtain ⟨rfl, rfl, rfl, hrest⟩ : a = _ ∧ b = _ ∧ c = _ ∧ [] = rest ++ lost := by
      simpa using happend.symm
    rw [(List.append_eq_nil_iff.1 hrest.symm).1] at hle
    exact absurd hle (by decide +kernel)

end History

end Journal

end Logbook
