import Logbook.Proofs.Ingest.Classify

set_option autoImplicit false

/-! # Classifying a row again

A classified row that is sent on to another node is written in the row codec, read back and
classified once more, without settings and at another time. It stays in its stream; it keeps its
time unless that is zero, which the codec takes for none, and it keeps its fields unless one of its
tags has no field, since the tag becomes a field again (**`reclassified_row`**). -/

namespace Logbook

namespace Classifier

/-- To make the message the message changes nothing. -/
theorem renameMessage_msgName (fields : List Field) : renameMessage [msgName] fields = fields := by
  have hfirst : ∀ fields : List Field, renameFirst msgName msgName fields = fields := by
    intro fields
    induction fields with
    | nil => rfl
    | cons f rest ih =>
      rw [renameFirst]
      by_cases h : f.name = msgName
      · rw [if_pos h, ← h]
      · rw [if_neg h, ih]
  rw [renameMessage]
  split
  · next name hname =>
    rw [List.mem_singleton.1 (List.mem_of_find?_eq_some hname)]
    exact hfirst fields
  · rfl

theorem overridden_default (row : DecodedRow) :
    ({} : Classifier).overridden row = row.fields := by
  show row.streamFields ++ renameMessage [msgName] row.otherFields = row.fields
  rw [renameMessage_msgName, DecodedRow.fields]

/-- Without settings, a row keeps its fields if each of them is kept and one is the message. -/
theorem fields_default {row : DecodedRow}
    (hkeeps : ∀ f ∈ row.fields, ({} : Classifier).keeps f = true)
    (hmsg : msgName ∈ Field.names row.fields) :
    ({} : Classifier).fields row = Field.dedup row.fields := by
  have hkept : ({} : Classifier).kept row = Field.dedup row.fields := by
    rw [kept, overridden_default, List.filter_eq_self.2 hkeeps]
  rw [fields_eq, hkept, if_pos (Field.mem_names_dedup.2 hmsg)]

end Classifier

namespace StoredRow

/-- The names of a row's decoded shape are those of its fields and of its tags. -/
theorem mem_names_toDecoded {row : StoredRow} {name : String} :
    name ∈ Field.names row.toDecoded.fields
      ↔ name ∈ Field.names row.fields ∨ name ∈ Field.names row.stream.tags := by
  simp only [Field.names, List.mem_map, DecodedRow.fields, toDecoded, List.mem_append,
    List.mem_filter]
  constructor
  · rintro ⟨f, hf | ⟨hf, -⟩, rfl⟩
    · exact Or.inr ⟨f, hf, rfl⟩
    · exact Or.inl ⟨f, hf, rfl⟩
  · rintro (⟨f, hf, rfl⟩ | ⟨f, hf, rfl⟩)
    · by_cases htag : f ∈ row.stream.tags
      · exact ⟨f, Or.inl htag, rfl⟩
      · exact ⟨f, Or.inr ⟨hf, by simpa using htag⟩, rfl⟩
    · exact ⟨f, Or.inl hf, rfl⟩

/-- The decoded shape of a row says what its fields say just if every tag has a field. -/
theorem last?_toDecoded_iff {row : StoredRow} (h : (Field.names row.fields).Nodup) :
    (∀ name, Field.last? row.toDecoded.fields name = row.get? name)
      ↔ ∀ tag ∈ row.stream.tags, tag.name ∈ Field.names row.fields := by
  constructor
  · intro hsame tag htag
    by_contra hnot
    have hnone : row.get? tag.name = none := Field.last?_eq_none_iff.2 hnot
    rw [← hsame, Field.last?_eq_none_iff] at hnone
    exact hnone (mem_names_toDecoded.2 (Or.inr (Field.mem_names_of_mem htag)))
  · exact fun htagged => last?_toDecoded ⟨h, htagged⟩

end StoredRow

/-- **What becomes of a classified row that is sent on and classified again.** Its stream stays. Its
    time stays unless it is zero and the time of the second classification is not. The values of its
    fields stay unless the extra fields took the field of a tag away. -/
theorem reclassified_row (c : Classifier) (row : DecodedRow) (now now' : Timestamp)
    (hlength : (RowCodec.encodeStored [c.apply now row]).length < 2 ^ 64) :
    ∃ read, RowCodec.decodeAll (RowCodec.encodeStored [c.apply now row]) = .ok [read] ∧
      (({} : Classifier).apply now' read).stream = (c.apply now row).stream ∧
      (({} : Classifier).apply now' read).streamId = (c.apply now row).streamId ∧
      ((({} : Classifier).apply now' read).timestamp = (c.apply now row).timestamp
        ↔ row.timestamp.getD now ≠ 0 ∨ now' = 0) ∧
      ((∀ name, (({} : Classifier).apply now' read).get? name = (c.apply now row).get? name)
        ↔ ¬ c.DropsTag row) := by
  have hread := RowCodec.decodeAll_encodeAll_of_length hlength
  generalize hr : c.apply now row = r at hread ⊢
  have htime : r.timestamp = row.timestamp.getD now := by rw [← hr]; rfl
  have hnodup : (Field.names r.fields).Nodup := hr ▸ c.nodup_names_fields row
  have hmsg : msgName ∈ Field.names r.fields :=
    hr ▸ Classifier.mem_names_fields_iff.2 (Or.inl rfl)
  have htags : ∀ tag ∈ r.stream.tags, ({} : Classifier).keeps tag = true := fun tag htag =>
    Classifier.keeps_of_mem_tags (hr ▸ htag)
  have hkeeps : ∀ f ∈ r.toDecoded.fields, ({} : Classifier).keeps f = true := by
    intro f hf
    rcases List.mem_append.1 hf with hf | hf
    · exact htags f hf
    · exact Classifier.keeps_of_mem_fields (hr ▸ (List.mem_filter.1 hf).1)
  have hfields : ({} : Classifier).fields (RowCodec.asRead r.toDecoded)
      = Field.dedup r.toDecoded.fields :=
    Classifier.fields_default hkeeps (StoredRow.mem_names_toDecoded.2 (Or.inl hmsg))
  have hstream :
      (({} : Classifier).apply now' (RowCodec.asRead r.toDecoded)).stream = r.stream := by
    show Stream.ofFields (r.stream.tags.filter ({} : Classifier).keeps) = r.stream
    rw [List.filter_eq_self.2 htags, Stream.ofFields_tags]
  refine ⟨RowCodec.asRead r.toDecoded, hread, hstream, ?_, ?_, ?_⟩
  · rw [StoredRow.streamId_eq, StoredRow.streamId_eq r, hstream]
  · show ((some r.timestamp).filter (· != 0)).getD now' = r.timestamp ↔ _
    rw [htime]
    by_cases hzero : row.timestamp.getD now = 0
    · simp [Option.filter, hzero]
    · simp [Option.filter, hzero]
  · rw [← c.tagged_apply_iff row now, hr, ← StoredRow.last?_toDecoded_iff hnodup]
    have hget : ∀ name, (({} : Classifier).apply now' (RowCodec.asRead r.toDecoded)).get? name
        = Field.last? r.toDecoded.fields name := by
      intro name
      show Field.last? (({} : Classifier).fields (RowCodec.asRead r.toDecoded)) name = _
      rw [hfields, Field.last?_dedup]
    simp only [hget]

/-- Takes the value of the host away. -/
def sampleWithoutHost : Classifier where
  extraFields := [⟨"host", ""⟩]

def sampleHostRow : DecodedRow :=
  ⟨none, [⟨"host", "h1"⟩], [⟨msgName, "started"⟩]⟩

/-- A row classified at time zero has no host; classified again at time 7 it has that time and the
    host of its stream. -/
theorem host_comes_back :
    (RowCodec.encodeStored [sampleWithoutHost.apply 0 sampleHostRow]).length < 2 ^ 64 ∧
      ∃ read, RowCodec.decodeAll (RowCodec.encodeStored [sampleWithoutHost.apply 0 sampleHostRow])
          = .ok [read] ∧
        (({} : Classifier).apply 7 read).stream
          = (sampleWithoutHost.apply 0 sampleHostRow).stream ∧
        (({} : Classifier).apply 7 read).timestamp
          ≠ (sampleWithoutHost.apply 0 sampleHostRow).timestamp ∧
        ¬ ∀ name, (({} : Classifier).apply 7 read).get? name
          = (sampleWithoutHost.apply 0 sampleHostRow).get? name := by
  have hlength :
      (RowCodec.encodeStored [sampleWithoutHost.apply 0 sampleHostRow]).length < 2 ^ 64 := by
    decide +kernel
  obtain ⟨read, hread, hstream, -, htime, hvalues⟩ :=
    reclassified_row sampleWithoutHost sampleHostRow 0 7 hlength
  refine ⟨hlength, read, hread, hstream, ?_, fun h => hvalues.1 h (by decide +kernel)⟩
  intro h
  exact absurd (htime.1 h) (by decide)

end Logbook
