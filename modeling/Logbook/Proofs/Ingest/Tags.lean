import Logbook.Proofs.Ingest.Classify

set_option autoImplicit false

/-! # Tags among the fields

The tags of a classified row and its fields are made apart from each other: without names for the
stream, the tags come from the stream fields as the decoder gave them, while the fields have the
extra fields written over them and the other fields behind them. So a tag is among the fields with
its value, unless something else is written under its name (**`Classifier.tags_stored_iff`**). -/

namespace Logbook

namespace Classifier

/-! ## What is written under a name -/

/-- The stream fields, those extra fields written over them that have the name of one. -/
def overriddenStream (c : Classifier) (row : DecodedRow) : List Field :=
  (c.extraFields.filter fun f => f.name ∈ Field.names row.streamFields).foldl Field.put
    row.streamFields

/-- What a row says under the name of a stream field. Of the fields that are kept the last one
    counts, and the other fields come behind the stream fields. -/
def written? (c : Classifier) (row : DecodedRow) (name : String) : Option String :=
  (Field.last? ((renameMessage c.msgFields row.otherFields).filter c.keeps) name).or
    (Field.last? ((c.overriddenStream row).filter c.keeps) name)

theorem last?_overridden {c : Classifier} {row : DecodedRow} {name : String}
    (h : name ∈ Field.names row.streamFields) :
    Field.last? ((c.overridden row).filter c.keeps) name = c.written? row name := by
  have hnot : name ∉ Field.names
      (c.extraFields.filter fun f => f.name ∉ Field.names row.streamFields) := by
    intro hmem
    obtain ⟨f, hf, rfl⟩ := List.mem_map.1 hmem
    have hname := (List.mem_filter.1 hf).2
    simp [h] at hname
  rw [overridden, Field.foldl_put_append, List.filter_append, Field.last?_append,
    Field.last?_filter_foldl_put hnot]
  rfl

/-- A field with a value is there just if that is what is written under its name. -/
theorem mem_fields_iff {c : Classifier} {row : DecodedRow} {f : Field} (h : f.value ≠ "") :
    f ∈ c.fields row
      ↔ Field.last? ((c.overridden row).filter c.keeps) f.name = some f.value := by
  rw [← Field.last?_eq_some_iff (c.nodup_names_fields row), last?_fields]
  cases Field.last? ((c.overridden row).filter c.keeps) f.name with
  | some value => rw [Option.some_or]
  | none =>
    -- the message that is added has no value
    by_cases hname : f.name = msgName
    · simp [hname, Ne.symm h]
    · simp [hname]

/-! ## Tags without their field -/

/-- The stream keeps a tag of the decoder while something else, or nothing, is written under the
    name of it. -/
def OverwritesTag (c : Classifier) (row : DecodedRow) : Prop :=
  c.streamFields = none ∧ ∃ tag ∈ (Stream.ofFields (row.streamFields.filter c.keeps)).tags,
    c.written? row tag.name ≠ some tag.value

instance (c : Classifier) (row : DecodedRow) : Decidable (c.OverwritesTag row) :=
  inferInstanceAs (Decidable (_ ∧ _))

/-- **Every tag is a field with the same value, unless its field is overwritten.** -/
theorem tags_stored_iff (c : Classifier) (row : DecodedRow) (now : Timestamp) :
    (∀ tag ∈ (c.apply now row).stream.tags, tag ∈ (c.apply now row).fields)
      ↔ ¬ c.OverwritesTag row := by
  show (∀ tag ∈ (c.streamOf row (c.fields row)).tags, tag ∈ c.fields row) ↔ _
  rw [streamOf]
  cases hstream : c.streamFields with
  | some names =>
    -- the tags are taken from the fields
    refine iff_of_true (fun tag htag => ?_) fun h => ?_
    · exact (List.mem_filter.1 (Stream.mem_of_mem_ofFields htag)).1
    · rw [h.1] at hstream
      cases hstream
  | none =>
    have hstored : ∀ tag ∈ (Stream.ofFields (row.streamFields.filter c.keeps)).tags,
        (tag ∈ c.fields row ↔ c.written? row tag.name = some tag.value) := by
      intro tag htag
      have hname := (List.mem_filter.1 (Stream.mem_of_mem_ofFields htag)).1
      rw [mem_fields_iff (Stream.nonempty _ tag htag),
        last?_overridden (Field.mem_names_of_mem hname)]
    constructor
    · rintro h ⟨-, tag, htag, hwritten⟩
      exact hwritten ((hstored tag htag).1 (h tag htag))
    · intro h tag htag
      rw [hstored tag htag]
      by_contra hwritten
      exact h ⟨hstream, tag, htag, hwritten⟩

/-- An extra field replaces the field of a tag, but not the tag. -/
example : OverwritesTag { extraFields := [⟨"host", "h2"⟩] }
    ⟨none, [⟨"host", "h1"⟩], [⟨msgName, "started"⟩]⟩ := by
  decide +kernel

end Classifier

end Logbook
