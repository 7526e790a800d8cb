import Logbook.Ingest.Classify
import Logbook.Proofs.Rows

set_option autoImplicit false

/-! # What classification leaves

The fields of a classified row have distinct names, one of which is that of the message, and are all
worth keeping. Whether a name is among them is told by the fields as the extra fields have
overridden them (`Classifier.mem_names_fields_iff`); the tags come from the stream fields as they
were before, which is why a tag can be left without a field (`Classifier.tagged_apply_iff`). -/

namespace Logbook

/-- The names of the tags are those of the fields with a value. -/
theorem Stream.mem_names_tags_ofFields {fields : List Field} {name : String} :
    name ∈ Field.names (ofFields fields).tags ↔ ∃ f ∈ fields, f.name = name ∧ f.value ≠ "" := by
  have hperm : (Field.names (ofFields fields).tags).Perm
      (Field.names (Field.dedup (fields.filter (·.value != "")))) :=
    (sortByName_perm _).map _
  rw [hperm.mem_iff, Field.mem_names_dedup, Field.names, List.mem_map]
  constructor
  · rintro ⟨f, hf, rfl⟩
    obtain ⟨hf, hvalue⟩ := List.mem_filter.1 hf
    exact ⟨f, hf, rfl, bne_iff_ne.1 hvalue⟩
  · rintro ⟨f, hf, rfl, hvalue⟩
    exact ⟨f, List.mem_filter.2 ⟨hf, bne_iff_ne.2 hvalue⟩, rfl⟩

namespace Classifier

/-- All fields of a row, the extra fields written over them. -/
def overridden (c : Classifier) (row : DecodedRow) : List Field :=
  c.extraFields.foldl Field.put (row.streamFields ++ renameMessage c.msgFields row.otherFields)

theorem keeps_iff {c : Classifier} {f : Field} :
    c.keeps f = true ↔ isReservedName f.name = false ∧ f.name ∉ c.ignoreFields ∧
      (f.name = msgName ∨ f.value ≠ "") := by
  simp [keeps, and_assoc]

/-- What some classifier keeps is kept by the one without settings. -/
theorem keeps_default {c : Classifier} {f : Field} (h : c.keeps f = true) :
    ({} : Classifier).keeps f = true := by
  obtain ⟨hreserved, -, hvalue⟩ := keeps_iff.1 h
  exact keeps_iff.2 ⟨hreserved, List.not_mem_nil, hvalue⟩

theorem keeps_message_iff {c : Classifier} {value : String} :
    c.keeps ⟨msgName, value⟩ = true ↔ msgName ∉ c.ignoreFields := by
  have hreserved : isReservedName msgName = false := by decide
  rw [keeps_iff]
  exact ⟨fun h => h.2.1, fun h => ⟨hreserved, h, Or.inl rfl⟩⟩

/-! ## Fields -/

/-- The fields that are kept, before an empty message is added. -/
def kept (c : Classifier) (row : DecodedRow) : List Field :=
  Field.dedup ((c.overridden row).filter c.keeps)

theorem fields_eq (c : Classifier) (row : DecodedRow) :
    c.fields row
      = if msgName ∈ Field.names (c.kept row) then c.kept row
        else c.kept row ++ [⟨msgName, ""⟩] := by
  have hany : (c.kept row).any (·.name == msgName) = true ↔ msgName ∈ Field.names (c.kept row) := by
    simp [Field.names]
  show (if (c.kept row).any (·.name == msgName) = true then _ else _) = _
  by_cases h : msgName ∈ Field.names (c.kept row)
  · rw [if_pos h, if_pos (hany.2 h)]
    rfl
  · rw [if_neg h, if_neg fun hmem => h (hany.1 hmem)]
    rfl

theorem mem_names_kept_iff {c : Classifier} {row : DecodedRow} {name : String} :
    name ∈ Field.names (c.kept row)
      ↔ ∃ f ∈ c.overridden row, f.name = name ∧ c.keeps f = true := by
  rw [kept, Field.mem_names_dedup, Field.names, List.mem_map]
  constructor
  · rintro ⟨f, hf, rfl⟩
    obtain ⟨hf, hkeeps⟩ := List.mem_filter.1 hf
    exact ⟨f, hf, rfl, hkeeps⟩
  · rintro ⟨f, hf, rfl, hkeeps⟩
    exact ⟨f, List.mem_filter.2 ⟨hf, hkeeps⟩, rfl⟩

/-- A name stays if a field of that name is kept once the extra fields are written; that of the
    message stays in any case. -/
theorem mem_names_fields_iff {c : Classifier} {row : DecodedRow} {name : String} :
    name ∈ Field.names (c.fields row)
      ↔ name = msgName ∨ ∃ f ∈ c.overridden row, f.name = name ∧ c.keeps f = true := by
  rw [← mem_names_kept_iff, fields_eq]
  split
  · next h => exact ⟨Or.inr, fun hname => hname.elim (fun heq => heq ▸ h) id⟩
  · rw [Field.names_append, List.mem_append, Or.comm]
    simp

/-- What is stored under a name is the last of what is kept; a row without a message has an empty
    one. -/
theorem last?_fields (c : Classifier) (row : DecodedRow) (name : String) :
    Field.last? (c.fields row) name
      = (Field.last? ((c.overridden row).filter c.keeps) name).or
          (if name = msgName then some "" else none) := by
  have hkept : Field.last? (c.kept row) name
      = Field.last? ((c.overridden row).filter c.keeps) name := Field.last?_dedup _ _
  rw [fields_eq, ← hkept]
  split
  · next hmsg =>
    by_cases hname : name = msgName
    · obtain ⟨value, hvalue⟩ :=
        Option.ne_none_iff_exists'.1 fun h => Field.last?_eq_none_iff.1 h (hname ▸ hmsg)
      rw [hvalue, Option.some_or]
    · rw [if_neg hname, Option.or_none]
  · next hmsg =>
    rw [Field.last?_append, Field.last?_cons, Field.last?_nil, Option.none_or]
    by_cases hname : name = msgName
    · rw [hname, Field.last?_eq_none_iff.2 hmsg]
      simp
    · simp [hname, Ne.symm hname]

theorem nodup_names_fields (c : Classifier) (row : DecodedRow) :
    (Field.names (c.fields row)).Nodup := by
  rw [fields_eq]
  split
  · exact Field.nodup_names_dedup _
  · next h =>
    rw [Field.names_append, List.nodup_append]
    refine ⟨Field.nodup_names_dedup _, by simp, fun a ha b hb heq => h ?_⟩
    obtain rfl : b = msgName := List.mem_singleton.1 hb
    exact heq ▸ ha

/-- Every field left was kept, unless it is the message that was added. -/
theorem keeps_or_eq_of_mem_fields {c : Classifier} {row : DecodedRow} {f : Field}
    (h : f ∈ c.fields row) : c.keeps f = true ∨ f = ⟨msgName, ""⟩ := by
  have hkept : f ∈ c.kept row → c.keeps f = true := fun hf =>
    (List.mem_filter.1 (Field.mem_of_mem_dedup hf)).2
  rw [fields_eq] at h
  split at h
  · exact Or.inl (hkept h)
  · rcases List.mem_append.1 h with h | h
    · exact Or.inl (hkept h)
    · exact Or.inr (List.mem_singleton.1 h)

/-- Every field left would be kept again. -/
theorem keeps_of_mem_fields {c : Classifier} {row : DecodedRow} {f : Field}
    (h : f ∈ c.fields row) : ({} : Classifier).keeps f = true := by
  rcases keeps_or_eq_of_mem_fields h with hkeeps | hempty
  · exact keeps_default hkeeps
  · rw [hempty]
    exact keeps_message_iff.2 List.not_mem_nil

theorem isReservedName_of_mem_names_fields {c : Classifier} {row : DecodedRow} {name : String}
    (h : name ∈ Field.names (c.fields row)) : isReservedName name = false := by
  obtain ⟨f, hf, rfl⟩ := List.mem_map.1 h
  exact (keeps_iff.1 (keeps_of_mem_fields hf)).1

/-! ## Tags -/

/-- Every tag was kept. -/
theorem keeps_of_mem_tags_apply {c : Classifier} {row : DecodedRow} {now : Timestamp} {tag : Field}
    (h : tag ∈ (c.apply now row).stream.tags) : c.keeps tag = true := by
  have hvalue : tag.value ≠ "" := (c.apply now row).stream.nonempty tag h
  change tag ∈ (c.streamOf row (c.fields row)).tags at h
  unfold streamOf at h
  split at h
  · exact (List.mem_filter.1 (Stream.mem_of_mem_ofFields h)).2
  · -- a message that is added has no value and cannot be a tag
    rcases keeps_or_eq_of_mem_fields (List.mem_filter.1 (Stream.mem_of_mem_ofFields h)).1
      with hkeeps | hempty
    · exact hkeeps
    · exact absurd (by rw [hempty]) hvalue

/-- Every tag would be kept again. -/
theorem keeps_of_mem_tags {c : Classifier} {row : DecodedRow} {now : Timestamp} {tag : Field}
    (h : tag ∈ (c.apply now row).stream.tags) : ({} : Classifier).keeps tag = true :=
  keeps_default (keeps_of_mem_tags_apply h)

/-- The stream keeps a tag of the decoder whose field the extra fields take away: written over, no
    field of that name has a value. -/
def DropsTag (c : Classifier) (row : DecodedRow) : Prop :=
  c.streamFields = none ∧ ∃ tag ∈ row.streamFields, c.keeps tag = true ∧ tag.name ≠ msgName ∧
    ∀ f ∈ c.overridden row, f.name = tag.name → f.value = ""

instance (c : Classifier) (row : DecodedRow) : Decidable (c.DropsTag row) :=
  inferInstanceAs (Decidable (_ ∧ _))

/-- Every tag has a field, unless the extra fields take it away. -/
theorem tagged_apply_iff (c : Classifier) (row : DecodedRow) (now : Timestamp) :
    (∀ tag ∈ (c.apply now row).stream.tags, tag.name ∈ Field.names (c.apply now row).fields)
      ↔ ¬ c.DropsTag row := by
  show (∀ tag ∈ (c.streamOf row (c.fields row)).tags, tag.name ∈ Field.names (c.fields row)) ↔ _
  rw [streamOf]
  cases hstream : c.streamFields with
  | some names =>
    refine iff_of_true (fun tag htag => ?_) fun h => ?_
    · exact Field.mem_names_of_mem (List.mem_filter.1 (Stream.mem_of_mem_ofFields htag)).1
    · rw [h.1] at hstream
      cases hstream
  | none =>
    constructor
    · rintro h ⟨-, tag, htag, hkeeps, hname, hempty⟩
      have hvalue : tag.value ≠ "" := (keeps_iff.1 hkeeps).2.2.resolve_left hname
      have hmem : tag.name ∈ Field.names (Stream.ofFields (row.streamFields.filter c.keeps)).tags :=
        Stream.mem_names_tags_ofFields.2 ⟨tag, List.mem_filter.2 ⟨htag, hkeeps⟩, rfl, hvalue⟩
      obtain ⟨tag', htag', heq⟩ := List.mem_map.1 hmem
      rcases mem_names_fields_iff.1 (h tag' htag') with hmsg | ⟨f, hf, hfname, hfkeeps⟩
      · exact hname (heq.symm.trans hmsg)
      · have hfname : f.name = tag.name := hfname.trans heq
        rcases (keeps_iff.1 hfkeeps).2.2 with hmsg | hfvalue
        · exact hname (hfname.symm.trans hmsg)
        · exact hfvalue (hempty f hf hfname)
    · intro h tag htag
      by_contra hnot
      rw [mem_names_fields_iff, not_or] at hnot
      obtain ⟨hname, hnone⟩ := hnot
      obtain ⟨tag', htag', heq, hvalue⟩ := Stream.mem_names_tags_ofFields.1
        (Field.mem_names_of_mem htag)
      obtain ⟨htag', hkeeps⟩ := List.mem_filter.1 htag'
      refine h ⟨hstream, tag', htag', hkeeps, fun hmsg => hname (heq.symm.trans hmsg), ?_⟩
      intro f hf hfname
      by_contra hfvalue
      -- a field of the tag's name that has a value is kept as the tag is
      obtain ⟨hreserved, hignored, -⟩ := keeps_iff.1 hkeeps
      rw [← hfname] at hreserved hignored
      exact hnone ⟨f, hf, hfname.trans heq, keeps_iff.2 ⟨hreserved, hignored, Or.inr hfvalue⟩⟩

end Classifier

end Logbook
