import Logbook.Proofs.Ingest.Classify
import Logbook.Query.Filter

set_option autoImplicit false

/-! # What stream matchers see

A stream matcher reads a row as every filter does, by the name of a field. If the tag of that name
is among the fields of a classified row, it sees the tag, and without such a tag whatever else the
row says under the name (**`Filter.accepts_stream_iff`**). So a stream filter selects streams only
as far as no other field has a name that it asks for: a field that is no tag satisfies a matcher,
too (`Filter.untagged_field_matches`). -/

namespace Logbook

namespace StoredRow

/-! ## Labels -/

/-- What every query sees under a reserved name. -/
def computed? (row : StoredRow) (name : String) : Option String :=
  if name = timeName then some (Time.render row.timestamp)
  else if name = streamIdName then some row.streamId.toHex
  else if name = streamName then some row.stream.render
  else none

theorem computed?_eq_none {name : String} (h : isReservedName name = false) (row : StoredRow) :
    row.computed? name = none := by
  simp only [isReservedName, Bool.or_eq_false_iff, beq_eq_false_iff_ne] at h
  obtain ⟨⟨htime, hstream⟩, hid⟩ := h
  rw [computed?, if_neg htime, if_neg hid, if_neg hstream]

/-- The value of the tag of that name, or else of a reserved name, or else of the field of that
    name. Without any of them the label is empty. -/
def label (row : StoredRow) (name : String) : String :=
  match row.stream.get? name with
  | some value => value
  | none => ((row.computed? name).or (row.get? name)).getD ""

end StoredRow

/-- A query reads a reserved name as computed and other names from the fields. -/
theorem QueryRow.value_ofStored {row : StoredRow} (h : (Field.names row.fields).Nodup)
    (name : String) :
    (ofStored row).value name = ((row.computed? name).or (row.get? name)).getD "" := by
  rw [value, QueryRow.get?, ofStored, Field.first?_cons, Field.first?_cons, Field.first?_cons,
    Field.first?_cons, StoredRow.computed?]
  by_cases htime : name = timeName
  · simp [htime]
  by_cases hid : name = streamIdName
  · simp [hid, timeName, streamIdName]
  by_cases hstream : name = streamName
  · simp [hstream, timeName, streamIdName, streamName]
  rw [if_neg (Ne.symm htime), if_neg (Ne.symm hid), if_neg (Ne.symm hstream), if_neg htime,
    if_neg hid, if_neg hstream, Option.none_or]
  by_cases hmsg : name = msgName
  · -- the message is there even if no field is
    rw [if_pos hmsg.symm, hmsg]
    rfl
  · rw [if_neg (Ne.symm hmsg), Field.first?_filter_name_ne hmsg, StoredRow.get?,
      Field.last?_eq_first? h]

/-- A query reads a label of a row if the tag of that name is among the fields. -/
theorem StoredRow.value_eq_label {row : StoredRow} {name : String}
    (hnodup : (Field.names row.fields).Nodup)
    (hreserved : ∀ tag ∈ row.stream.tags, isReservedName tag.name = false)
    (hstored : ∀ tag ∈ row.stream.tags, tag.name = name → tag ∈ row.fields) :
    (QueryRow.ofStored row).value name = row.label name := by
  rw [QueryRow.value_ofStored hnodup, label]
  cases htag : row.stream.get? name with
  | none => rfl
  | some value =>
    have hmem : ⟨name, value⟩ ∈ row.stream.tags := Stream.get?_eq_some_iff.1 htag
    have hfield : row.get? name = some value :=
      (Field.last?_eq_some_iff hnodup).2 (hstored _ hmem rfl)
    rw [row.computed?_eq_none (hreserved _ hmem), hfield]
    rfl

namespace Filter

/-- **A stream filter accepts a classified row just if every matcher holds of its label**, if the
    tags that are asked for are among the fields of the row. -/
theorem accepts_stream_iff (c : Classifier) (row : DecodedRow) (now : Timestamp)
    (matchers : List StreamMatcher)
    (h : ∀ m ∈ matchers, ∀ tag ∈ (c.apply now row).stream.tags,
      tag.name = m.name → tag ∈ (c.apply now row).fields) :
    (stream matchers).accepts (.ofStored (c.apply now row)) = true
      ↔ ∀ m ∈ matchers, m.op.holds ((c.apply now row).label m.name) = true := by
  have hreserved : ∀ tag ∈ (c.apply now row).stream.tags, isReservedName tag.name = false :=
    fun tag htag => (Classifier.keeps_iff.1 (Classifier.keeps_of_mem_tags htag)).1
  rw [accepts, List.all_eq_true]
  refine forall₂_congr fun m hm => ?_
  rw [StoredRow.value_eq_label (c.nodup_names_fields row) hreserved (h m hm)]

/-- A row with a tag and a field that is none. -/
def sampleTagged : DecodedRow :=
  ⟨some 7, [⟨"host", "h1"⟩], [⟨"level", "warn"⟩, ⟨msgName, "started"⟩]⟩

/-- Matchers of a tag, of a field, of a name that is neither and of a reserved name. -/
def sampleMatchers : List StreamMatcher :=
  [⟨"host", .eq "h1"⟩, ⟨"level", .ne "error"⟩, ⟨"zone", .eq ""⟩, ⟨streamName, .ne ""⟩]

theorem tag_and_field_match :
    (∀ m ∈ sampleMatchers, ∀ tag ∈ (({} : Classifier).apply 0 sampleTagged).stream.tags,
        tag.name = m.name → tag ∈ (({} : Classifier).apply 0 sampleTagged).fields) ∧
      (stream sampleMatchers).accepts (.ofStored (({} : Classifier).apply 0 sampleTagged))
        = true := by
  have hstored : ∀ m ∈ sampleMatchers,
      ∀ tag ∈ (({} : Classifier).apply 0 sampleTagged).stream.tags,
        tag.name = m.name → tag ∈ (({} : Classifier).apply 0 sampleTagged).fields := by
    decide +kernel
  have hlabels : ∀ m ∈ sampleMatchers,
      m.op.holds ((({} : Classifier).apply 0 sampleTagged).label m.name) = true := by
    decide +kernel
  exact ⟨hstored, (accepts_stream_iff {} sampleTagged 0 sampleMatchers hstored).2 hlabels⟩

/-- A row without tags. -/
def sampleUntagged : DecodedRow :=
  ⟨some 7, [], [⟨"host", "h1"⟩, ⟨msgName, "started"⟩]⟩

/-- Matchers do not ask the tags of a row alone: a field that is no tag satisfies one. -/
theorem untagged_field_matches :
    ¬ ∀ (c : Classifier) (row : DecodedRow) (now : Timestamp) (matchers : List StreamMatcher),
      (stream matchers).accepts (.ofStored (c.apply now row)) = true
        ↔ ∀ m ∈ matchers,
          m.op.holds (((c.apply now row).stream.get? m.name).getD "") = true := by
  intro h
  have haccepts : (stream [⟨"host", .eq "h1"⟩]).accepts
      (.ofStored (({} : Classifier).apply 0 sampleUntagged)) = true := by
    decide +kernel
  have hno : (({} : Classifier).apply 0 sampleUntagged).stream.get? "host" = none := by
    decide +kernel
  have hholds := (h {} sampleUntagged 0 _).1 haccepts _ List.mem_cons_self
  simp [hno, StreamOp.holds] at hholds

end Filter

end Logbook
