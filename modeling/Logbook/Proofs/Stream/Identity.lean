import Mathlib.Data.List.Sort
import Logbook.Proofs.Codec.Varint
import Logbook.Proofs.Rows

set_option autoImplicit false

/-! # What a stream is known by

The stream of a list of fields depends on nothing but the map that the fields with a value stand for
(`Stream.tagValue?`), in which the last field of a name counts: fields belong to one stream just if
they stand for the same map, and a tag is looked up in that map
(**`Stream.ofFields_eq_iff_same_values`**). The bytes that name a stream are read back as its tags,
since every text has its length in front, so that no two streams have the same
(`Stream.hashInput_inj`). -/

namespace Logbook

namespace Varint

/-! ## Texts with their length in front -/

/-- A number ends with the first byte that says so, whatever comes behind it. -/
theorem Whole.append_inj {a b x y : Bytes} (ha : Whole a) (hb : Whole b) (h : a ++ x = b ++ y) :
    a = b ∧ x = y := by
  induction ha generalizing b with
  | last hlast =>
    cases hb with
    | last _ => simpa using h
    | more hmore _ =>
      rw [List.singleton_append, List.cons_append] at h
      have hbyte := (List.cons.inj h).1
      subst hbyte
      omega
  | more hmore _ ih =>
    cases hb with
    | last hlast =>
      rw [List.singleton_append, List.cons_append] at h
      have hbyte := (List.cons.inj h).1
      subst hbyte
      omega
    | more _ hb =>
      obtain ⟨rfl, hrest⟩ := List.cons.inj h
      obtain ⟨rfl, rfl⟩ := ih hb hrest
      exact ⟨rfl, rfl⟩

theorem sum_encode (n : Nat) : sum (encode n) = n := by
  induction n using Nat.strongRecOn with
  | ind n ih =>
    by_cases hn : n < 128
    · rw [encode_of_lt hn, sum_singleton, UInt8.toNat_ofNat']
      omega
    · rw [encode_of_ge (Nat.not_lt.1 hn), sum_cons, ih _ (by omega), UInt8.toNat_ofNat']
      omega

theorem encode_append_inj {m n : Nat} {x y : Bytes} (h : encode m ++ x = encode n ++ y) :
    m = n ∧ x = y := by
  obtain ⟨hnumber, hrest⟩ := (whole_encode m).append_inj (whole_encode n) h
  refine ⟨?_, hrest⟩
  rw [← sum_encode m, hnumber, sum_encode]

end Varint

theorem Bytes.ofString_inj {s t : String} (h : ofString s = ofString t) : s = t := by
  have hread := toString?_ofString s
  rw [h, toString?_ofString] at hread
  exact (Option.some.inj hread).symm

namespace Stream

theorem lengthPrefixed_append_inj {s t : String} {x y : Bytes}
    (h : lengthPrefixed s ++ x = lengthPrefixed t ++ y) : s = t ∧ x = y := by
  rw [lengthPrefixed, lengthPrefixed, List.append_assoc, List.append_assoc] at h
  obtain ⟨hsize, hrest⟩ := Varint.encode_append_inj h
  obtain ⟨htext, hrest⟩ := List.append_inj hrest (by simpa only [Bytes.length_ofString] using hsize)
  exact ⟨Bytes.ofString_inj htext, hrest⟩

/-! ## The bytes that name a stream -/

theorem lengthPrefixed_ne_nil (s : String) : lengthPrefixed s ≠ [] := by
  have hpos := Varint.length_encode_pos s.utf8ByteSize
  intro hnil
  rw [lengthPrefixed, List.append_eq_nil_iff] at hnil
  rw [hnil.1] at hpos
  contradiction

/-- Tags are hashed as the codec of rows writes fields, so that their bytes tell where each ends. -/
theorem flatMap_encodeField_inj {a b : List Field}
    (h : a.flatMap RowCodec.encodeField = b.flatMap RowCodec.encodeField) : a = b := by
  have hne : ∀ tag fields,
      RowCodec.encodeField tag ++ List.flatMap RowCodec.encodeField fields ≠ [] := by
    intro tag fields hnil
    rw [RowCodec.encodeField, List.append_eq_nil_iff, List.append_eq_nil_iff] at hnil
    exact lengthPrefixed_ne_nil _ hnil.1.1
  induction a generalizing b with
  | nil =>
    cases b with
    | nil => rfl
    | cons g b => exact absurd h.symm (hne g b)
  | cons f a ih =>
    cases b with
    | nil => exact absurd h (hne f a)
    | cons g b =>
      simp only [List.flatMap_cons, RowCodec.encodeField, List.append_assoc] at h
      obtain ⟨hname, h⟩ := lengthPrefixed_append_inj h
      obtain ⟨hvalue, h⟩ := lengthPrefixed_append_inj h
      rw [Field.ext hname hvalue, ih h]

/-- **No two streams have their name made from the same bytes.** -/
theorem hashInput_inj {s t : Stream} : s.hashInput = t.hashInput ↔ s = t :=
  ⟨fun h => Stream.ext (flatMap_encodeField_inj h), congrArg hashInput⟩

/-! ## The map of the tags -/

/-- Streams are equal if their tags are the same map. -/
theorem eq_iff_get?_eq {s t : Stream} : s = t ↔ ∀ name, s.get? name = t.get? name := by
  refine ⟨fun h _ => h ▸ rfl, fun h => ?_⟩
  have hmem : ∀ tag, tag ∈ s.tags ↔ tag ∈ t.tags := fun tag => by
    rw [← get?_eq_some_iff, ← get?_eq_some_iff, h]
  have hperm : s.tags.Perm t.tags :=
    (List.perm_ext_iff_of_nodup (List.Nodup.of_map _ s.nodup_names_tags)
      (List.Nodup.of_map _ t.nodup_names_tags)).2 hmem
  refine Stream.ext (hperm.eq_of_pairwise ?_ s.sorted t.sorted)
  exact fun a b _ _ hab hba => absurd (Std.lt_trans hab hba) Std.lt_irrefl

/-- What fields say about a tag: those without a value say nothing, and the last of the others
    counts. -/
def tagValue? (fields : List Field) (name : String) : Option String :=
  Field.last? (fields.filter (·.value != "")) name

theorem get?_ofFields (fields : List Field) (name : String) :
    (ofFields fields).get? name = tagValue? fields name := by
  have hperm := sortByName_perm (Field.dedup (fields.filter (·.value != "")))
  have hnodup := Field.nodup_names_dedup (fields.filter (·.value != ""))
  apply Option.ext
  intro value
  rw [get?_eq_some_iff, tagValue?, ← Field.last?_dedup, Field.last?_eq_some_iff hnodup]
  exact hperm.mem_iff

/-- The order of fields with distinct names does not matter. -/
theorem tagValue?_eq_of_perm {fs gs : List Field} (hnodup : (Field.names fs).Nodup)
    (hperm : fs.Perm gs) (name : String) : tagValue? fs name = tagValue? gs name := by
  have hnodup' : (Field.names gs).Nodup := (hperm.map _).nodup_iff.1 hnodup
  have hkept : ∀ {hs : List Field}, (Field.names hs).Nodup →
      (Field.names (hs.filter (·.value != ""))).Nodup :=
    fun h => h.sublist (List.filter_sublist.map _)
  apply Option.ext
  intro value
  rw [tagValue?, tagValue?, Field.last?_eq_some_iff (hkept hnodup),
    Field.last?_eq_some_iff (hkept hnodup')]
  exact (hperm.filter _).mem_iff

/-- **Fields belong to one stream just if they stand for the same map of tags.** So the order of
    distinct names has no influence on the stream, its name and its shard. No two streams have their
    name made from the same bytes, and a tag is looked up in the map. -/
theorem ofFields_eq_iff_same_values (fs gs : List Field) :
    (ofFields fs = ofFields gs ↔ ∀ name, tagValue? fs name = tagValue? gs name) ∧
      ((Field.names fs).Nodup → fs.Perm gs →
        ofFields fs = ofFields gs ∧ (ofFields fs).id = (ofFields gs).id ∧
          ∀ shards, (ofFields fs).id.shard shards = (ofFields gs).id.shard shards) ∧
      ((ofFields fs).hashInput = (ofFields gs).hashInput ↔ ofFields fs = ofFields gs) ∧
      ∀ name, (ofFields fs).get? name = tagValue? fs name := by
  have hiff : ofFields fs = ofFields gs ↔ ∀ name, tagValue? fs name = tagValue? gs name := by
    simp only [eq_iff_get?_eq, get?_ofFields]
  refine ⟨hiff, ?_, hashInput_inj, get?_ofFields fs⟩
  intro hnodup hperm
  have hsame := hiff.2 (tagValue?_eq_of_perm hnodup hperm)
  exact ⟨hsame, congrArg id hsame, fun shards => congrArg (fun s => s.id.shard shards) hsame⟩

/-- Fields whose names come in an order of their own, one of them without a value. -/
def sampleFields : List Field :=
  [⟨"host", "h1"⟩, ⟨"zone", ""⟩, ⟨"app", "api"⟩]

theorem order_of_names_ignored :
    (Field.names sampleFields).Nodup ∧ sampleFields.Perm sampleFields.reverse ∧
      (ofFields sampleFields).id.shard 3 = (ofFields sampleFields.reverse).id.shard 3 ∧
      (ofFields sampleFields).get? "app" = some "api" := by
  have hnodup : (Field.names sampleFields).Nodup := by decide
  have hperm : sampleFields.Perm sampleFields.reverse := (List.reverse_perm _).symm
  obtain ⟨-, horder, -, hget⟩ := ofFields_eq_iff_same_values sampleFields sampleFields.reverse
  exact ⟨hnodup, hperm, (horder hnodup hperm).2.2 3, (hget "app").trans (by decide)⟩

end Stream

end Logbook
