import Logbook.Proofs.Codec.RoundTrip
import Logbook.Proofs.Fields

set_option autoImplicit false

/-! # What a stored row says

A stored row is compared up to the order of its fields: by its time, its tags and the map from names
to values that its fields are (`StoredRow.content`). A row that is well formed keeps its content on
the way through its decoded shape and the row codec
(`StoredRow.content_ofDecoded_asRead_toDecoded`), and what comes back is well formed again. -/

namespace Logbook

/-! ## Streams of tags -/

namespace Stream

theorem nodup_names_tags (s : Stream) : (Field.names s.tags).Nodup :=
  List.pairwise_map.2 (s.sorted.imp fun h => Std.ne_of_lt h)

theorem get?_eq_first? (s : Stream) (name : String) : s.get? name = Field.first? s.tags name :=
  Field.bisect?_eq_first? s.sorted name

theorem get?_eq_some_iff {s : Stream} {name value : String} :
    s.get? name = some value ↔ ⟨name, value⟩ ∈ s.tags := by
  rw [get?_eq_first?, Field.first?_eq_some_iff s.nodup_names_tags]

theorem sortByName_eq_self {fields : List Field}
    (h : fields.Pairwise fun a b => a.name < b.name) : sortByName fields = fields :=
  List.mergeSort_of_pairwise (h.imp fun hab => decide_eq_true (Std.le_of_lt hab))

/-- A stream is the stream of its own tags. -/
theorem ofFields_tags (s : Stream) : ofFields s.tags = s := by
  have hfilter : s.tags.filter (·.value != "") = s.tags :=
    List.filter_eq_self.2 fun tag h => by simpa using s.nonempty tag h
  have htags : (ofFields s.tags).tags = s.tags := by
    simp only [ofFields, hfilter, Field.dedup_eq_self s.nodup_names_tags,
      sortByName_eq_self s.sorted]
  cases s
  simpa [ofFields] using htags

theorem mem_of_mem_ofFields {fields : List Field} {tag : Field} (h : tag ∈ (ofFields fields).tags) :
    tag ∈ fields :=
  (List.mem_filter.1 (Field.mem_of_mem_dedup ((sortByName_perm _).mem_iff.1 h))).1

end Stream

namespace StoredRow

/-! ## Well-formed rows -/

/-- What every classified row satisfies: no name occurs twice among its fields, and the name of each
    tag is among them. -/
structure WellFormed (row : StoredRow) : Prop where
  nodup : (Field.names row.fields).Nodup
  tagged : ∀ tag ∈ row.stream.tags, tag.name ∈ Field.names row.fields

theorem wellFormed_ofDecoded (row : DecodedRow) (default : Timestamp) :
    (ofDecoded row default).WellFormed where
  nodup := Field.nodup_names_dedup _
  tagged tag h := by
    have hmem : tag ∈ row.streamFields := Stream.mem_of_mem_ofFields h
    exact Field.mem_names_dedup.2 (Field.mem_names_of_mem (List.mem_append_left _ hmem))

/-! ## Content -/

/-- A row up to the order of its fields. -/
structure Content where
  timestamp : Timestamp
  tags : List Field
  value : String → Option String

def content (row : StoredRow) : Content :=
  ⟨row.timestamp, row.stream.tags, row.get?⟩

theorem getD_filter_ne_zero (t : Timestamp) : ((some t).filter (· != 0)).getD 0 = t := by
  by_cases h : t = 0 <;> simp [Option.filter, h]

/-- Behind its tags, the fields of a well-formed row that repeat no tag say what all its fields
    say. -/
theorem last?_toDecoded {row : StoredRow} (h : row.WellFormed) (name : String) :
    Field.last? row.toDecoded.fields name = row.get? name := by
  have hsub : row.toDecoded.otherFields.Sublist row.fields := List.filter_sublist
  have hother : (Field.names row.toDecoded.otherFields).Nodup := h.nodup.sublist (hsub.map _)
  have hmem : ∀ f, f ∈ row.toDecoded.otherFields ↔ f ∈ row.fields ∧ f ∉ row.stream.tags :=
    fun f => by simp [toDecoded]
  rw [DecodedRow.fields, Field.last?_append]
  cases hget : row.get? name with
  | none =>
    have hname : name ∉ Field.names row.fields := Field.last?_eq_none_iff.1 hget
    have h1 : Field.last? row.toDecoded.otherFields name = none :=
      Field.last?_eq_none_iff.2 fun hm => hname ((hsub.map _).subset hm)
    have h2 : Field.last? row.toDecoded.streamFields name = none := by
      refine Field.last?_eq_none_iff.2 fun hm => ?_
      obtain ⟨tag, htag, rfl⟩ := List.mem_map.1 hm
      exact hname (h.tagged tag htag)
    rw [h1, h2]
    rfl
  | some value =>
    have hf : ⟨name, value⟩ ∈ row.fields := (Field.last?_eq_some_iff h.nodup).1 hget
    by_cases htag : (⟨name, value⟩ : Field) ∈ row.stream.tags
    · -- the field repeats a tag, so that no other field has its name
      have h1 : Field.last? row.toDecoded.otherFields name = none := by
        refine Field.last?_eq_none_iff.2 fun hm => ?_
        obtain ⟨⟨n, v⟩, hg, rfl⟩ := List.mem_map.1 hm
        obtain ⟨hg, hnot⟩ := (hmem _).1 hg
        have hv := (Field.last?_eq_some_iff h.nodup).2 hg
        have hv' := (Field.last?_eq_some_iff h.nodup).2 hf
        rw [hv] at hv'
        cases hv'
        exact hnot htag
      have h2 : Field.last? row.toDecoded.streamFields name = some value :=
        (Field.last?_eq_some_iff row.stream.nodup_names_tags).2 htag
      rw [h1, h2]
      rfl
    · have h1 : Field.last? row.toDecoded.otherFields name = some value :=
        (Field.last?_eq_some_iff hother).2 ((hmem _).2 ⟨hf, htag⟩)
      rw [h1]
      rfl

/-- **A well-formed row keeps its content on the way through the row codec.** -/
theorem content_ofDecoded_asRead_toDecoded {row : StoredRow} (h : row.WellFormed) :
    (ofDecoded (RowCodec.asRead row.toDecoded) 0).content = row.content := by
  have hstream : Stream.ofFields row.toDecoded.streamFields = row.stream :=
    Stream.ofFields_tags row.stream
  have hvalue : ∀ name, Field.last? (Field.dedup row.toDecoded.fields) name = row.get? name :=
    fun name => by rw [Field.last?_dedup, last?_toDecoded h]
  simp only [content, ofDecoded, ofStream, RowCodec.asRead, Content.mk.injEq]
  refine ⟨getD_filter_ne_zero row.timestamp, ?_, funext hvalue⟩
  rw [hstream]

end StoredRow

end Logbook
