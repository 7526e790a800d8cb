import Logbook.Proofs.Ingest.Classify
import Logbook.Query.Row

set_option autoImplicit false

/-! # The shape of a classified row

Classification renames, overrides, drops and merges fields, one step after the other on one list.
What is left is well shaped whatever the row and the settings were (**`Classifier.shape_apply`**):
names are distinct, one of them is the message, nothing reserved, ignored or empty stays, and a name
that no setting speaks of has its last value of the row. Queries find each field of such a row under
its name. -/

namespace Logbook

/-! ## Tags of fields with distinct names -/

/-- Fields with distinct names are tags as they are, unless they are empty. -/
theorem Stream.mem_tags_ofFields_iff {fields : List Field} (h : (Field.names fields).Nodup)
    {tag : Field} : tag ∈ (ofFields fields).tags ↔ tag ∈ fields ∧ tag.value ≠ "" := by
  have hnodup : (Field.names (fields.filter (·.value != ""))).Nodup :=
    h.sublist (List.filter_sublist.map _)
  show tag ∈ sortByName (Field.dedup (fields.filter (·.value != ""))) ↔ _
  rw [(sortByName_perm _).mem_iff, Field.dedup_eq_self hnodup, List.mem_filter, bne_iff_ne]

namespace Classifier

variable {c : Classifier} {row : DecodedRow}

/-! ## Names that no setting speaks of -/

/-- Renaming a field is not noticed under other names. -/
theorem last?_filter_renameFirst {name newName other : String} (hname : other ≠ name)
    (hnew : other ≠ newName) (p : Field → Bool) (fields : List Field) :
    Field.last? ((renameFirst name newName fields).filter p) other
      = Field.last? (fields.filter p) other := by
  induction fields with
  | nil => rfl
  | cons f rest ih =>
    unfold renameFirst
    by_cases hf : f.name = name
    · have hother : f.name ≠ other := fun e => hname (e.symm.trans hf)
      rw [if_pos hf, Field.last?_filter_cons_of_ne hother]
      exact Field.last?_filter_cons_of_ne (Ne.symm hnew) p rest
    · rw [if_neg hf, List.filter_cons, List.filter_cons]
      split
      · rw [Field.last?_cons, Field.last?_cons, ih]
      · exact ih

theorem last?_filter_renameMessage {names : List String} {other : String} (hother : other ∉ names)
    (hmsg : other ≠ msgName) (p : Field → Bool) (fields : List Field) :
    Field.last? ((renameMessage names fields).filter p) other
      = Field.last? (fields.filter p) other := by
  unfold renameMessage
  split
  · next name hname =>
    have hne : other ≠ name := fun e => hother (e ▸ List.mem_of_find?_eq_some hname)
    exact last?_filter_renameFirst hne hmsg p fields
  · rfl

/-- A name that is not the message, not reserved, and not among those that a setting renames,
    overrides or drops. -/
structure LeavesAlone (c : Classifier) (name : String) : Prop where
  ne_message : name ≠ msgName
  not_candidate : name ∉ c.msgFields
  not_extra : name ∉ Field.names c.extraFields
  not_ignored : name ∉ c.ignoreFields
  not_reserved : isReservedName name = false

theorem last?_fields_of_leavesAlone {name : String} (h : c.LeavesAlone name) :
    Field.last? (c.fields row) name = Field.last? (row.fields.filter (·.value != "")) name := by
  have hkeeps : ∀ f : Field, f.name = name → c.keeps f = (f.value != "") := by
    intro f hf
    have hreserved := h.not_reserved
    have hignored := h.not_ignored
    have hmsg := h.ne_message
    rw [← hf] at hreserved hignored hmsg
    simp [keeps, hreserved, hignored, hmsg]
  have hrow : Field.last? ((c.overridden row).filter c.keeps) name
      = Field.last? (row.fields.filter c.keeps) name := by
    unfold overridden DecodedRow.fields
    rw [Field.last?_filter_foldl_put h.not_extra, List.filter_append, List.filter_append,
      Field.last?_append, Field.last?_append,
      last?_filter_renameMessage h.not_candidate h.ne_message]
  rw [last?_fields, if_neg h.ne_message, Option.or_none, hrow]
  exact Field.last?_filter_congr fun f _ => hkeeps f

/-! ## Tags -/

/-- The tags that the settings name are the fields of these names that have a value. -/
theorem mem_tags_iff_of_streamFields {now : Timestamp} {names : List String}
    (h : c.streamFields = some names) (f : Field) :
    f ∈ (c.apply now row).stream.tags
      ↔ f ∈ (c.apply now row).fields ∧ f.name ∈ names ∧ f.value ≠ "" := by
  have hnodup : (Field.names ((c.fields row).filter fun f => names.contains f.name)).Nodup :=
    (c.nodup_names_fields row).sublist (List.filter_sublist.map _)
  show f ∈ (c.streamOf row (c.fields row)).tags ↔ f ∈ c.fields row ∧ _
  unfold streamOf
  rw [h]
  show f ∈ (Stream.ofFields _).tags ↔ _
  rw [Stream.mem_tags_ofFields_iff hnodup, List.mem_filter, List.contains_iff_mem, and_assoc]

end Classifier

/-! ## As queries see it -/

namespace QueryRow

variable {row : StoredRow}

theorem nodup_names_ofStored (hnodup : (Field.names row.fields).Nodup)
    (hreserved : ∀ name ∈ Field.names row.fields, isReservedName name = false) :
    (Field.names (ofStored row).fields).Nodup := by
  have hsub : (Field.names (row.fields.filter (·.name != msgName))).Sublist
      (Field.names row.fields) := List.filter_sublist.map _
  have hmsg : msgName ∉ Field.names (row.fields.filter (·.name != msgName)) := by
    simp [Field.names]
  have hfree : ∀ {name}, isReservedName name = true →
      name ∉ Field.names (row.fields.filter (·.name != msgName)) := by
    intro name h hmem
    rw [hreserved _ (hsub.subset hmem)] at h
    cases h
  have htime := hfree (show isReservedName timeName = true by decide)
  have hid := hfree (show isReservedName streamIdName = true by decide)
  have hstream := hfree (show isReservedName streamName = true by decide)
  simp only [ofStored, Field.names_cons, List.nodup_cons, List.mem_cons, not_or]
  exact ⟨⟨by decide, by decide, by decide, htime⟩, ⟨by decide, by decide, hid⟩,
    ⟨by decide, hstream⟩, hmsg, hnodup.sublist hsub⟩

theorem get?_ofStored_of_mem (hnodup : (Field.names row.fields).Nodup)
    (hreserved : ∀ name ∈ Field.names row.fields, isReservedName name = false) {f : Field}
    (hf : f ∈ row.fields) : (ofStored row).get? f.name = some f.value := by
  refine (Field.first?_eq_some_iff (nodup_names_ofStored hnodup hreserved)).2 ?_
  simp only [ofStored, List.mem_cons]
  by_cases hmsg : f.name = msgName
  · have hmessage : row.message = f.value := by
      have hget : row.get? f.name = some f.value := (Field.last?_eq_some_iff hnodup).2 hf
      rw [StoredRow.message, ← hmsg, hget, Option.getD_some]
    rw [hmessage, hmsg]
    simp
  · have hrest : f ∈ row.fields.filter (·.name != msgName) :=
      List.mem_filter.2 ⟨hf, bne_iff_ne.2 hmsg⟩
    simp [hrest]

end QueryRow

/-! ## The shape -/

namespace Classifier

/-- What a classified row looks like, next to the row it was made of. -/
structure Shape (c : Classifier) (row : DecodedRow) (stored : StoredRow) : Prop where
  nodup : (Field.names stored.fields).Nodup
  one_message : (Field.names stored.fields).count msgName = 1
  not_reserved : ∀ f ∈ stored.fields, isReservedName f.name = false
  not_ignored : ∀ f ∈ stored.fields, f.name ∈ c.ignoreFields → f.name = msgName
  not_empty : ∀ f ∈ stored.fields, f.value = "" → f.name = msgName
  tags_sorted : stored.stream.tags.Pairwise fun a b => a.name < b.name
  tags_not_empty : ∀ tag ∈ stored.stream.tags, tag.value ≠ ""
  tags_not_reserved : ∀ tag ∈ stored.stream.tags, isReservedName tag.name = false
  tags_not_ignored : ∀ tag ∈ stored.stream.tags, tag.name ∉ c.ignoreFields
  tags_named : ∀ names, c.streamFields = some names → ∀ f, f ∈ stored.stream.tags ↔
    f ∈ stored.fields ∧ f.name ∈ names ∧ f.value ≠ ""
  left_alone : ∀ name, c.LeavesAlone name →
    stored.get? name = Field.last? (row.fields.filter (·.value != "")) name
  queried_nodup : (Field.names (QueryRow.ofStored stored).fields).Nodup
  queried : ∀ f ∈ stored.fields, (QueryRow.ofStored stored).get? f.name = some f.value

/-- **Every classified row is well shaped.** -/
theorem shape_apply (c : Classifier) (row : DecodedRow) (now : Timestamp) :
    c.Shape row (c.apply now row) := by
  have hnodup := c.nodup_names_fields row
  have hfields : ∀ f ∈ c.fields row, c.keeps f = true ∨ f = ⟨msgName, ""⟩ := fun f hf =>
    keeps_or_eq_of_mem_fields hf
  have hreserved : ∀ name ∈ Field.names (c.fields row), isReservedName name = false :=
    fun name hname => isReservedName_of_mem_names_fields hname
  have htags : ∀ tag ∈ (c.apply now row).stream.tags,
      isReservedName tag.name = false ∧ tag.name ∉ c.ignoreFields := by
    intro tag htag
    have hkeeps := keeps_iff.1 (keeps_of_mem_tags_apply htag)
    exact ⟨hkeeps.1, hkeeps.2.1⟩
  constructor
  case nodup => exact hnodup
  case one_message =>
    exact List.count_eq_one_of_mem hnodup (mem_names_fields_iff.2 (Or.inl rfl))
  case not_reserved => exact fun f hf => hreserved _ (Field.mem_names_of_mem hf)
  case not_ignored =>
    intro f hf hignored
    rcases hfields f hf with hkeeps | hempty
    · exact absurd hignored (keeps_iff.1 hkeeps).2.1
    · rw [hempty]
  case not_empty =>
    intro f hf hvalue
    rcases hfields f hf with hkeeps | hempty
    · exact (keeps_iff.1 hkeeps).2.2.resolve_right fun h => h hvalue
    · rw [hempty]
  case tags_sorted => exact (c.apply now row).stream.sorted
  case tags_not_empty => exact (c.apply now row).stream.nonempty
  case tags_not_reserved => exact fun tag htag => (htags tag htag).1
  case tags_not_ignored => exact fun tag htag => (htags tag htag).2
  case tags_named => exact fun names hnames f => mem_tags_iff_of_streamFields hnames f
  case left_alone => exact fun name hname => last?_fields_of_leavesAlone hname
  case queried_nodup => exact QueryRow.nodup_names_ofStored hnodup hreserved
  case queried => exact fun f hf => QueryRow.get?_ofStored_of_mem hnodup hreserved hf

/-- A name is overridden, one is ignored, one is reserved, one is empty and one is repeated. -/
example : ({ ignoreFields := ["secret"], extraFields := [⟨"level", "error"⟩] } : Classifier).fields
      ⟨none, [⟨"host", "h1"⟩], [⟨"level", "info"⟩, ⟨"secret", "x"⟩, ⟨streamName, "y"⟩,
        ⟨"empty", ""⟩, ⟨"host", "h2"⟩]⟩
    = [⟨"host", "h2"⟩, ⟨"level", "error"⟩, ⟨msgName, ""⟩] := by
  decide +kernel

end Classifier

end Logbook
