import Logbook.Proofs.Parsing.Reading
import Logbook.Proofs.Stream.Rendering
import Logbook.Proofs.Text.Blanks

set_option autoImplicit false

/-! # The text of a stream as a query

The text of a stream is written by one function and the matchers of a stream are read by another.
Behind the name of the stream field the text is a query for the tags of the stream, each with its
value, as long as the names are labels (`Query.parse_render`). Values may hold anything: the quotes
around them are read as far as they were written. -/

namespace Logbook

/-! ## Labels -/

/-- A name that can be read as that of a stream label. -/
def IsLabel (name : String) : Prop :=
  name ≠ "" ∧ ∀ c ∈ name.toList, QueryReader.isLabelChar c = true

instance (name : String) : Decidable (IsLabel name) :=
  @instDecidableAnd _ _ inferInstance (List.decidableBAll _ _)

theorem IsLabel.exists_cons {name : String} (h : IsLabel name) :
    ∃ c rest, name.toList = c :: rest ∧ QueryReader.isLabelChar c = true := by
  obtain ⟨hne, hchars⟩ := h
  cases hname : name.toList with
  | nil => exact absurd (String.toList_eq_nil_iff.1 hname) hne
  | cons c rest => exact ⟨c, rest, rfl, hchars c (hname ▸ List.mem_cons_self)⟩

namespace QueryReader

theorem isBlank_of_isLabelChar {c : Char} (h : isLabelChar c = true) : Text.isBlank c = false := by
  rw [Bool.eq_false_iff]
  intro hblank
  have hmark : ∀ d : Char, Text.isBlank d = false → c ≠ d := by
    rintro d hd rfl
    rw [hblank] at hd
    cases hd
  simp [isLabelChar, Text.isAlphanumeric_of_isBlank hblank, hmark '_' (by decide),
    hmark '.' (by decide), hmark '-' (by decide)] at h

theorem ne_close_of_isLabelChar {c : Char} (h : isLabelChar c = true) : c ≠ '}' := by
  rintro rfl
  revert h
  decide

/-! ## Matchers -/

/-- A label with an equals sign and a quoted text behind it is read as the matcher for the text. -/
theorem reads_streamMatcher_eq {name : String} (h : IsLabel name) {content out : List Char}
    {n : Nat} (hcontent : quotedContent? '"' content = some (out, n)) :
    Reads streamMatcher (name.toList ++ '=' :: '"' :: content) ⟨name, .eq (String.ofList out)⟩
      (content.drop n) := by
  obtain ⟨c, rest, hname, hc⟩ := h.exists_cons
  have hafter : afterBlanks (name.toList ++ '=' :: '"' :: content)
      = name.toList ++ '=' :: '"' :: content := by
    rw [hname]
    exact afterBlanks_cons (isBlank_of_isLabelChar hc) _
  have htake : (name.toList ++ '=' :: '"' :: content).takeWhile isLabelChar = name.toList := by
    rw [List.takeWhile_append_of_pos h.2, List.takeWhile_cons_of_neg (by decide), List.append_nil]
  have hdrop : (name.toList ++ '=' :: '"' :: content).dropWhile isLabelChar
      = '=' :: '"' :: content := by
    rw [List.dropWhile_append_of_pos h.2, List.dropWhile_cons_of_neg (by decide)]
  refine .bind (reads_skipBlanks _) (.get_bind fun pos => ?_)
  rw [hafter]
  dsimp only
  rw [htake, String.ofList_toList]
  refine .bind (reads_set _ _) ?_
  rw [if_neg (by simpa using h.1)]
  refine .bind (.bind (reads_skipBlanks _) (.get_bind fun pos => ?_)) (.pure _ _)
  dsimp only [Cursor.skipWhile]
  rw [hdrop, afterBlanks_cons (by decide)]
  refine .bind (reads_bump _ _) (.bind ?_ (.pure _ _))
  exact reads_value_quoted false (afterBlanks_cons (by decide) _) (by decide) hcontent

/-- **A rendered tag is read as the matcher for its value.** -/
theorem reads_streamMatcher {tag : Field} (h : IsLabel tag.name) (rest : List Char) :
    Reads streamMatcher (Stream.renderTag tag ++ rest) ⟨tag.name, .eq tag.value⟩ rest := by
  have hread := reads_streamMatcher_eq h (quotedContent?_renderValue tag.value rest)
  rw [String.ofList_toList] at hread
  simpa [Stream.renderTag_eq] using hread

/-- The matchers that a stream's own tags satisfy. -/
def tagMatchers (tags : List Field) : List StreamMatcher :=
  tags.map fun tag => ⟨tag.name, .eq tag.value⟩

/-- Rendered tags are read one by one, up to the closing brace. -/
theorem reads_tagMatchers {tag : Field} {tags : List Field} (h : ∀ t ∈ tag :: tags, IsLabel t.name)
    {fuel : Nat} (hfuel : tags.length < fuel) :
    Reads (itemsUntil '}' streamMatcher fuel) (Stream.renderTags (tag :: tags) ++ ['}'])
      (tagMatchers (tag :: tags)) [] := by
  induction tags generalizing tag fuel with
  | nil =>
    obtain ⟨fuel, rfl⟩ := Nat.exists_eq_succ_of_ne_zero (Nat.ne_zero_of_lt hfuel)
    rw [itemsUntil, Stream.renderTags_singleton]
    refine .bind (reads_streamMatcher (h tag List.mem_cons_self) _) ?_
    exact .bind (reads_eat_true (by decide)) (.pure _ _)
  | cons next tags ih =>
    obtain ⟨fuel, rfl⟩ := Nat.exists_eq_succ_of_ne_zero (Nat.ne_zero_of_lt hfuel)
    rw [List.forall_mem_cons] at h
    rw [itemsUntil, Stream.renderTags_cons_cons, List.append_assoc, List.cons_append]
    refine .bind (reads_streamMatcher h.1 _) ?_
    have hcomma := fun cs => afterBlanks_cons (c := ',') (by decide) cs
    refine .bind (reads_eat_false (by rw [hcomma]; simp)) ?_
    rw [hcomma, if_neg Bool.false_ne_true]
    refine .bind (reads_expect (hcomma _)) (.bind (ih h.2 (by simpa using hfuel)) (.pure _ _))

theorem length_le_length_renderTags (tags : List Field) :
    tags.length ≤ (Stream.renderTags tags).length := by
  induction tags with
  | nil => exact Nat.zero_le _
  | cons tag tags ih =>
    rw [Stream.renderTags_cons_eq_append, Stream.renderTag_eq]
    cases tags with
    | nil =>
      simp
      omega
    | cons next tags =>
      simp [Stream.renderBehind] at ih ⊢
      omega

/-- The tags of a stream behind an opening brace are read as its matchers. -/
theorem reads_itemList_tags {tags : List Field} (h : ∀ t ∈ tags, IsLabel t.name) :
    Reads (itemList '}' streamMatcher) (Stream.renderTags tags ++ ['}']) (tagMatchers tags) [] := by
  cases tags with
  | nil => exact .bind (reads_eat_true (by decide)) (.pure _ _)
  | cons tag tags =>
    obtain ⟨c, behind, hname, hc⟩ := (h tag List.mem_cons_self).exists_cons
    obtain ⟨more, hmore⟩ :
        ∃ more, Stream.renderTags (tag :: tags) ++ ['}'] = c :: more := by
      rw [Stream.renderTags_cons_eq_append, Stream.renderTag_eq, hname]
      exact ⟨_, rfl⟩
    have hafter := afterBlanks_cons (isBlank_of_isLabelChar hc) more
    rw [← hmore] at hafter
    refine .bind (reads_eat_false ?_) ?_
    · rw [hafter, hmore]
      simpa using ne_close_of_isLabelChar hc
    · rw [hafter, if_neg Bool.false_ne_true]
      refine .get_bind fun _ => reads_tagMatchers h ?_
      have := length_le_length_renderTags (tag :: tags)
      simp at this ⊢
      omega

/-- A stream's text as the value of the stream field. -/
theorem reads_leafValue_stream {tags : List Field} (h : ∀ t ∈ tags, IsLabel t.name)
    (now : Timestamp) :
    Reads (leafValue now streamName) ('{' :: (Stream.renderTags tags ++ ['}']))
      (.stream (tagMatchers tags)) [] := by
  refine .bind (reads_peek? _) ?_
  dsimp only [List.head?_cons]
  rw [if_pos rfl]
  exact .bind (reads_bump _ _) (.bind (reads_itemList_tags h) (.pure _ _))

end QueryReader

open QueryReader

/-- **The text of a stream is a query for the stream.** Behind the name of the stream field it is
    read, at any time, as one matcher per tag, in the order of the tags, with the tag's name and
    its value as it was before it was escaped. -/
theorem Query.parse_render {s : Stream} (h : ∀ tag ∈ s.tags, IsLabel tag.name) (now : Timestamp) :
    Query.parse ("_stream:" ++ s.render) now
      = .ok ⟨.stream (s.tags.map fun tag => ⟨tag.name, .eq tag.value⟩), []⟩ := by
  have htext : ("_stream:" ++ s.render).toList
      = streamName.toList ++ ':' :: '{' :: (Stream.renderTags s.tags ++ ['}']) := by
    rw [String.toList_append, Stream.toList_render]
    rfl
  refine parse_of_reads htext rfl (by decide) (by decide) ?_
  generalize hleaf : '{' :: (Stream.renderTags s.tags ++ ['}']) = leaf
  have hafter : afterBlanks (streamName.toList ++ ':' :: leaf) = streamName.toList ++ ':' :: leaf :=
    afterBlanks_cons (by decide) _
  have hhead : (streamName.toList ++ ':' :: leaf).head? = some '_' := rfl
  refine reads_orFilter_nil (reads_unaryFilter_term ?_ ?_ ?_ ?_)
  · rw [hafter]
    rfl
  · rw [hafter, hhead]
    decide
  · rw [hafter, hhead]
    decide
  · rw [hafter, ← hleaf]
    exact reads_termFilter_field (by decide) (by simp) (reads_leafValue_stream h now)

/-- A stream whose values hold what is written around values. -/
def sampleAwkward : Stream :=
  ⟨[⟨"app", "a\"b\\\n\tc"⟩, ⟨"k8s.pod-name", "x,y=\"z\"\x7d"⟩], by decide, by decide⟩

/-- Quotes, backslashes, line ends, commas and braces in values are read as they were. -/
theorem Query.parse_render_awkward :
    (∀ tag ∈ sampleAwkward.tags, IsLabel tag.name) ∧
      Query.parse ("_stream:" ++ sampleAwkward.render) 0
        = .ok ⟨.stream
            [⟨"app", .eq "a\"b\\\n\tc"⟩, ⟨"k8s.pod-name", .eq "x,y=\"z\"\x7d"⟩], []⟩ := by
  have hlabels : ∀ tag ∈ sampleAwkward.tags, IsLabel tag.name := by decide
  exact ⟨hlabels, Query.parse_render hlabels 0⟩

end Logbook
