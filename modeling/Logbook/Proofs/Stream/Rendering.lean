import Mathlib.Data.List.Infix
import Mathlib.Data.List.Lex
import Logbook.Query.Cursor
import Logbook.Stream

set_option autoImplicit false

/-! # Streams by their text

The text of a stream has its values in quotes and escaped, so that they are read back
(`QueryReader.quotedContent?_renderValue`). Names are written as they are. A name that holds an
equals sign and a quote may therefore be read as the end of a name and the beginning of a value: two
tags are rendered as one tag with a longer name is (`Stream.renderTag_join`). The text of one
tag tells the tag (`Stream.renderTag_inj`), and the text of a stream tells the stream as long as no
name holds the two characters; whether it tells the stream among all there are is said by
**`Stream.render_identifies_iff`**. -/

namespace Logbook

namespace Stream

/-- The value of a tag inside its quotes. -/
def renderValue (value : String) : List Char :=
  value.toList.flatMap renderChar

theorem renderTag_eq (tag : Field) :
    renderTag tag = tag.name.toList ++ '=' :: '"' :: (renderValue tag.value ++ ['"']) := rfl

end Stream

/-! ## Values -/

namespace QueryReader

theorem quotedContent?_quote (quote : Char) (rest : List Char) :
    quotedContent? quote (quote :: rest) = some ([], 1) := by
  rw [quotedContent?.eq_def]
  exact if_pos rfl

theorem quotedContent?_plain {quote c : Char} (hquote : c ≠ quote) (hslash : c ≠ '\\')
    (rest : List Char) :
    quotedContent? quote (c :: rest)
      = (quotedContent? quote rest).map fun (out, n) => (c :: out, n + 1) := by
  rw [quotedContent?.eq_def]
  exact (if_neg hquote).trans (if_neg fun h => hslash h.1)

theorem quotedContent?_renderChar (c : Char) (rest : List Char) :
    quotedContent? '"' (Stream.renderChar c ++ rest)
      = (quotedContent? '"' rest).map fun (out, n) =>
          (c :: out, n + (Stream.renderChar c).length) := by
  unfold Stream.renderChar
  by_cases hquote : c = '"'
  · simp [hquote, quotedContent?]
  by_cases hslash : c = '\\'
  · simp [hslash, quotedContent?]
  by_cases hline : c = '\n'
  · simp [hline, quotedContent?]
  rw [if_neg hquote, if_neg hslash, if_neg hline, List.singleton_append,
    quotedContent?_plain hquote hslash]
  rfl

/-- **The value of a rendered tag is read back**, and reading ends at its closing quote. -/
theorem quotedContent?_renderValue (value : String) (rest : List Char) :
    quotedContent? '"' (Stream.renderValue value ++ '"' :: rest)
      = some (value.toList, (Stream.renderValue value).length + 1) := by
  rw [Stream.renderValue]
  induction value.toList with
  | nil => exact quotedContent?_quote '"' rest
  | cons c cs ih =>
    rw [List.flatMap_cons, List.append_assoc, quotedContent?_renderChar, ih, Option.map_some,
      List.length_append, Nat.add_comm (Stream.renderChar c).length, Nat.add_right_comm]

end QueryReader

namespace Stream

theorem renderValue_append_inj {v w : String} {x y : List Char}
    (h : renderValue v ++ '"' :: x = renderValue w ++ '"' :: y) : v = w ∧ x = y := by
  have hread := QueryReader.quotedContent?_renderValue v x
  rw [h, QueryReader.quotedContent?_renderValue] at hread
  have hvalue : v = w := String.toList_inj.1 (Prod.mk.inj (Option.some.inj hread)).1.symm
  subst hvalue
  exact ⟨rfl, (List.cons.inj (List.append_cancel_left h)).2⟩

/-- A quote inside a rendered value comes behind a backslash. -/
theorem not_opening_infix_renderValue (value : String) :
    ¬ ['=', '"'] <:+: renderValue value := by
  rintro ⟨before, after, h⟩
  rw [List.append_assoc, renderValue] at h
  generalize value.toList = cs at h
  -- no character is rendered with a quote in front
  have hhead : ∀ (cs after : List Char), cs.flatMap renderChar ≠ '"' :: after := by
    intro cs after h
    cases cs with
    | nil => contradiction
    | cons c cs =>
      rw [List.flatMap_cons, renderChar] at h
      split at h
      · cases h
      split at h
      · cases h
      split at h
      · cases h
      · next hquote _ _ => exact hquote (List.cons.inj h).1
  induction cs generalizing before with
  | nil => simp at h
  | cons c cs ih =>
    rw [List.flatMap_cons, renderChar] at h
    -- a character takes two places if it is escaped and one if it is not
    have htwo : ∀ e : Char, e ≠ '=' →
        before ++ (['=', '"'] ++ after) ≠ ['\\', e] ++ cs.flatMap renderChar := by
      intro e he h
      match before, h with
      | [], h => cases h
      | [_], h => exact he (List.cons.inj (List.cons.inj h).2).1.symm
      | _ :: _ :: before, h => exact ih before (List.cons.inj (List.cons.inj h).2).2
    split at h
    · exact htwo _ (by decide) h
    split at h
    · exact htwo _ (by decide) h
    split at h
    · exact htwo _ (by decide) h
    · match before, h with
      | [], h => exact hhead cs after (List.cons.inj h).2.symm
      | _ :: before, h => exact ih before (List.cons.inj h).2

/-! ## Names -/

/-- Where two texts that open a value are the same, they open it at the same place, or one of the
    names goes on behind the place where the other one ends. -/
theorem opening_cases {m n x y : List Char} (h : m ++ '=' :: '"' :: x = n ++ '=' :: '"' :: y) :
    (m = n ∧ x = y) ∨ (∃ d, n = m ++ '=' :: '"' :: d ∧ x = d ++ '=' :: '"' :: y) ∨
      ∃ d, m = n ++ '=' :: '"' :: d ∧ y = d ++ '=' :: '"' :: x := by
  have hlater : ∀ {d x y : List Char}, '=' :: '"' :: x = d ++ '=' :: '"' :: y →
      (d = [] ∧ x = y) ∨ ∃ e, d = '=' :: '"' :: e ∧ x = e ++ '=' :: '"' :: y := by
    intro d x y h
    match d, h with
    | [], h =>
      obtain ⟨-, h⟩ := List.cons.inj h
      exact .inl ⟨rfl, (List.cons.inj h).2⟩
    | [_], h =>
      obtain ⟨-, h⟩ := List.cons.inj h
      exact absurd (List.cons.inj h).1 (by decide)
    | _ :: _ :: e, h =>
      obtain ⟨hequals, h⟩ := List.cons.inj h
      obtain ⟨hquote, h⟩ := List.cons.inj h
      exact .inr ⟨e, by rw [hequals, hquote], h⟩
  rcases List.append_eq_append_iff.1 h with ⟨d, rfl, hd⟩ | ⟨d, rfl, hd⟩
  · rcases hlater hd with ⟨rfl, rfl⟩ | ⟨e, rfl, rfl⟩
    · exact .inl ⟨(List.append_nil m).symm, rfl⟩
    · exact .inr (.inl ⟨e, rfl, rfl⟩)
  · rcases hlater hd with ⟨rfl, rfl⟩ | ⟨e, rfl, rfl⟩
    · exact .inl ⟨List.append_nil n, rfl⟩
    · exact .inr (.inr ⟨e, rfl, rfl⟩)

/-- **The text of a tag tells the tag**, whatever the name is: what opens a value cannot stand
    inside another value. -/
theorem renderTag_inj {f g : Field} (h : renderTag f = renderTag g) : f = g := by
  have hinside : ∀ {v w : String} {d : List Char},
      renderValue v ++ ['"'] ≠ d ++ '=' :: '"' :: (renderValue w ++ ['"']) := by
    intro v w d h
    refine not_opening_infix_renderValue v ⟨d, renderValue w, ?_⟩
    have hend : (d ++ ['=', '"'] ++ renderValue w) ++ ['"'] = renderValue v ++ ['"'] := by
      rw [h]
      simp
    exact List.append_cancel_right hend
  rw [renderTag_eq, renderTag_eq] at h
  rcases opening_cases h with ⟨hname, hvalue⟩ | ⟨d, -, hd⟩ | ⟨d, -, hd⟩
  · exact Field.ext (String.toList_inj.1 hname) (renderValue_append_inj hvalue).1
  · exact absurd hd hinside
  · exact absurd hd hinside

/-- A name without an equals sign that a quote follows. -/
def IsPlainName (name : String) : Prop :=
  ¬ ['=', '"'] <:+: name.toList

instance (name : String) : Decidable (IsPlainName name) :=
  inferInstanceAs (Decidable (¬ _))

/-- Tags with plain names are told even with more text behind them. -/
theorem renderTag_append_inj {f g : Field} {x y : List Char} (hf : IsPlainName f.name)
    (hg : IsPlainName g.name) (h : renderTag f ++ x = renderTag g ++ y) : f = g ∧ x = y := by
  simp only [renderTag_eq, List.append_assoc, List.cons_append, List.nil_append] at h
  rcases opening_cases h with ⟨hname, hvalue⟩ | ⟨d, hname, -⟩ | ⟨d, hname, -⟩
  · obtain ⟨hvalue, hrest⟩ := renderValue_append_inj hvalue
    exact ⟨Field.ext (String.toList_inj.1 hname) hvalue, hrest⟩
  · exact absurd ⟨f.name.toList, d, by simp [hname]⟩ hg
  · exact absurd ⟨g.name.toList, d, by simp [hname]⟩ hf

/-! ## Several tags -/

/-- The text between the braces. -/
def renderTags (tags : List Field) : List Char :=
  ((tags.map renderTag).intersperse [',']).flatten

theorem renderTags_singleton (f : Field) : renderTags [f] = renderTag f := by
  simp [renderTags]

theorem renderTags_cons_cons (f g : Field) (rest : List Field) :
    renderTags (f :: g :: rest) = renderTag f ++ ',' :: renderTags (g :: rest) := by
  simp [renderTags]

theorem toList_render (s : Stream) : s.render.toList = '{' :: (renderTags s.tags ++ ['}']) :=
  String.toList_ofList

theorem render_eq_iff {s t : Stream} :
    s.render = t.render ↔ renderTags s.tags = renderTags t.tags := by
  rw [← String.toList_inj, toList_render, toList_render, List.cons_inj_right, List.append_left_inj]

/-- One tag that is rendered as two tags are: its name holds the first of them. -/
def join (f g : Field) : Field :=
  ⟨String.ofList (renderTag f ++ ',' :: g.name.toList), g.value⟩

theorem renderTag_join (f g : Field) :
    renderTag (join f g) = renderTag f ++ ',' :: renderTag g := by
  simp [renderTag_eq, join]

/-- One tag that is rendered as these tags are. -/
def joinAll : Field → List Field → Field
  | f, [] => f
  | f, g :: rest => join f (joinAll g rest)

theorem renderTags_cons (f : Field) (rest : List Field) :
    renderTags (f :: rest) = renderTag (joinAll f rest) := by
  induction rest generalizing f with
  | nil => exact renderTags_singleton f
  | cons g rest ih => rw [renderTags_cons_cons, ih, joinAll, renderTag_join]

theorem renderTags_cons_ne_nil (f : Field) (rest : List Field) : renderTags (f :: rest) ≠ [] := by
  rw [renderTags_cons, renderTag_eq]
  simp

/-- To join the last two of several tags leaves their text as it is. -/
theorem renderTags_append_join (tags : List Field) (f g : Field) :
    renderTags (tags ++ [join f g]) = renderTags (tags ++ [f, g]) := by
  induction tags with
  | nil => simp only [List.nil_append, renderTags_cons, joinAll]
  | cons h tags ih =>
    cases tags with
    | nil => simp only [List.nil_append, List.cons_append, renderTags_cons, joinAll]
    | cons i tags =>
      simp only [List.cons_append] at ih ⊢
      rw [renderTags_cons_cons, renderTags_cons_cons, ih]

/-- What stands behind a tag. -/
def renderBehind : List Field → List Char
  | [] => []
  | f :: rest => ',' :: renderTags (f :: rest)

theorem renderTags_cons_eq_append (f : Field) (rest : List Field) :
    renderTags (f :: rest) = renderTag f ++ renderBehind rest := by
  cases rest with
  | nil => rw [renderTags_singleton, renderBehind, List.append_nil]
  | cons g rest => exact renderTags_cons_cons f g rest

/-- **Tags with plain names are told by their text.** -/
theorem renderTags_inj {a b : List Field} (ha : ∀ tag ∈ a, IsPlainName tag.name)
    (hb : ∀ tag ∈ b, IsPlainName tag.name) (h : renderTags a = renderTags b) : a = b := by
  induction a generalizing b with
  | nil =>
    cases b with
    | nil => rfl
    | cons g b => exact absurd h.symm (renderTags_cons_ne_nil g b)
  | cons f a ih =>
    cases b with
    | nil => exact absurd h (renderTags_cons_ne_nil f a)
    | cons g b =>
      rw [List.forall_mem_cons] at ha hb
      rw [renderTags_cons_eq_append, renderTags_cons_eq_append] at h
      obtain ⟨rfl, hbehind⟩ := renderTag_append_inj ha.1 hb.1 h
      cases a with
      | nil =>
        cases b with
        | nil => rfl
        | cons _ _ => contradiction
      | cons f' a =>
        cases b with
        | nil => contradiction
        | cons g' b => rw [ih ha.2 hb.2 (List.cons.inj hbehind).2]

/-! ## Streams -/

theorem name_lt_of_append {a b c : String} {more : List Char} (h : a < b)
    (happend : c.toList = b.toList ++ more) : a < c := by
  rw [String.lt_iff] at h ⊢
  rw [happend]
  exact List.Lex.append_right _ more h

theorem name_join (f g : Field) : ∃ more, (join f g).name.toList = f.name.toList ++ more :=
  ⟨'=' :: '"' :: (renderValue f.value ++ '"' :: ',' :: g.name.toList), by simp [join, renderTag_eq]⟩

theorem name_joinAll (f : Field) (rest : List Field) :
    ∃ more, (joinAll f rest).name.toList = f.name.toList ++ more := by
  cases rest with
  | nil => exact ⟨[], (List.append_nil _).symm⟩
  | cons g rest => exact name_join f _

/-- The last two tags of a stream as one tag make a stream again. -/
theorem exists_tags_eq_append_join {s : Stream} {tags : List Field} {f g : Field}
    (h : s.tags = tags ++ [f, g]) : ∃ t : Stream, t.tags = tags ++ [join f g] := by
  have hsorted := s.sorted
  have hnonempty := s.nonempty
  rw [h] at hsorted hnonempty
  rw [List.pairwise_append] at hsorted
  obtain ⟨hfront, -, hbehind⟩ := hsorted
  obtain ⟨more, hname⟩ := name_join f g
  refine ⟨⟨tags ++ [join f g], ?_, ?_⟩, rfl⟩
  · refine List.pairwise_append.2 ⟨hfront, List.pairwise_singleton _ _, fun e he j hj => ?_⟩
    rw [List.mem_singleton.1 hj]
    exact name_lt_of_append (hbehind e he f List.mem_cons_self) hname
  · intro tag htag
    rcases List.mem_append.1 htag with htag | htag
    · exact hnonempty tag (List.mem_append_left _ htag)
    · rw [List.mem_singleton.1 htag]
      exact hnonempty g (List.mem_append_right _ (by simp))

/-- A stream with two tags or more is rendered as another one is. -/
theorem exists_ne_render_eq_of_two {s : Stream} (h : 2 ≤ s.tags.length) :
    ∃ t : Stream, t ≠ s ∧ t.render = s.render := by
  obtain ⟨tags, f, g, htags⟩ : ∃ tags f g, s.tags = tags ++ [f, g] := by
    rcases List.eq_nil_or_concat' s.tags with hnil | ⟨front, g, hg⟩
    · simp [hnil] at h
    rcases List.eq_nil_or_concat' front with hnil | ⟨tags, f, rfl⟩
    · simp [hg, hnil] at h
    · exact ⟨tags, f, g, by rw [hg, List.append_assoc, List.cons_append, List.nil_append]⟩
  obtain ⟨t, ht⟩ := exists_tags_eq_append_join htags
  refine ⟨t, ?_, ?_⟩
  · rintro rfl
    have := congrArg List.length (ht.symm.trans htags)
    simp at this
  · rw [render_eq_iff, ht, htags, renderTags_append_join]

/-- A stream whose only tag is two tags joined is rendered as the stream of the two. -/
theorem exists_ne_render_eq_of_join {s : Stream} {f g : Field} (hvalue : f.value ≠ "")
    (hname : f.name < g.name) (h : s.tags = [join f g]) :
    ∃ t : Stream, t ≠ s ∧ t.render = s.render := by
  have hlast : g.value ≠ "" := s.nonempty (join f g) (h ▸ List.mem_singleton_self _)
  refine ⟨⟨[f, g], ?_, ?_⟩, ?_, ?_⟩
  · simpa using hname
  · simpa using ⟨hvalue, hlast⟩
  · rintro rfl
    have := congrArg List.length h
    simp at this
  · rw [render_eq_iff, h]
    exact (renderTags_append_join [] f g).symm

/-- One tag at most, and not one that is two others joined, is told among all tags. -/
theorem eq_of_render_eq {s t : Stream} (hone : s.tags.length ≤ 1)
    (hjoin : ∀ f g : Field, f.value ≠ "" → f.name < g.name → join f g ∉ s.tags)
    (h : t.render = s.render) : t = s := by
  apply Stream.ext
  rw [render_eq_iff] at h
  have hnonempty := t.nonempty
  have hsorted := t.sorted
  cases htags : t.tags with
  | nil =>
    cases hs : s.tags with
    | nil => rfl
    | cons tag rest =>
      rw [htags, hs] at h
      exact absurd h.symm (renderTags_cons_ne_nil tag rest)
  | cons f rest =>
    rw [htags] at h hnonempty hsorted
    match hs : s.tags with
    | [] =>
      rw [hs] at h
      exact absurd h (renderTags_cons_ne_nil f rest)
    | _ :: _ :: _ => simp [hs] at hone
    | [tag] =>
      rw [hs, renderTags_singleton, renderTags_cons] at h
      have htag : joinAll f rest = tag := renderTag_inj h
      cases rest with
      | nil => rw [← htag, joinAll]
      | cons g rest =>
        -- the tag is the first of the others joined with all that follow it
        obtain ⟨more, hmore⟩ := name_joinAll g rest
        have hlt : f.name < g.name := (List.pairwise_cons.1 hsorted).1 g List.mem_cons_self
        have hmem : join f (joinAll g rest) ∈ s.tags := by
          rw [hs, List.mem_singleton]
          exact htag
        exact absurd hmem
          (hjoin f _ (hnonempty f List.mem_cons_self) (name_lt_of_append hlt hmore))

/-- **When the text of a stream tells the stream.** Among all streams it does if there is one tag at
    most, and that tag is not two other tags joined: with two tags or more there is always another
    stream of that text. Among the streams with plain names it always does. -/
theorem render_identifies_iff (s : Stream) :
    ((∀ t : Stream, t.render = s.render → t = s) ↔
        s.tags.length ≤ 1 ∧
          ∀ f g : Field, f.value ≠ "" → f.name < g.name → join f g ∉ s.tags) ∧
      ((∀ tag ∈ s.tags, IsPlainName tag.name) →
        ∀ t : Stream, (∀ tag ∈ t.tags, IsPlainName tag.name) → t.render = s.render → t = s) := by
  refine ⟨⟨fun h => ?_, fun ⟨hone, hjoin⟩ t => eq_of_render_eq hone hjoin⟩, ?_⟩
  · have hone : s.tags.length ≤ 1 := by
      by_contra hlong
      obtain ⟨t, hne, hrender⟩ := exists_ne_render_eq_of_two (Nat.lt_of_not_le hlong)
      exact hne (h t hrender)
    refine ⟨hone, fun f g hvalue hname hmem => ?_⟩
    obtain ⟨tag, hs⟩ :=
      List.length_eq_one_iff.1 (Nat.le_antisymm hone (List.length_pos_of_mem hmem))
    rw [hs, List.mem_singleton] at hmem
    obtain ⟨t, hne, hrender⟩ := exists_ne_render_eq_of_join hvalue hname (hmem ▸ hs)
    exact hne (h t hrender)
  · intro hs t ht h
    exact Stream.ext (renderTags_inj ht hs (render_eq_iff.1 h))

/-- Two tags, one of which has a value that looks like the end of a value and another tag. -/
def sampleTwoTags : Stream :=
  ⟨[⟨"app", "x\",b=\"y"⟩, ⟨"host", "h1"⟩], by decide, by decide⟩

/-- The values of these tags are the same without the escapes. -/
def sampleThreeTags : Stream :=
  ⟨[⟨"app", "x"⟩, ⟨"b", "y"⟩, ⟨"host", "h1"⟩], by decide, by decide⟩

/-- Escapes keep streams apart whose names are plain. -/
theorem quoted_value_told :
    (∀ tag ∈ sampleTwoTags.tags, IsPlainName tag.name) ∧
      (∀ tag ∈ sampleThreeTags.tags, IsPlainName tag.name) ∧
      sampleThreeTags.render ≠ sampleTwoTags.render := by
  have htwo : ∀ tag ∈ sampleTwoTags.tags, IsPlainName tag.name := by decide
  have hthree : ∀ tag ∈ sampleThreeTags.tags, IsPlainName tag.name := by decide
  refine ⟨htwo, hthree, fun h => ?_⟩
  have hsame := (render_identifies_iff sampleTwoTags).2 htwo sampleThreeTags hthree h
  exact absurd (congrArg (·.tags.length) hsame) (by decide)

/-- A name with a quote in it makes one tag look like two. -/
example :
    (⟨[⟨"a=\"x\",b", "y"⟩], by decide, by decide⟩ : Stream).render
      = (⟨[⟨"a", "x"⟩, ⟨"b", "y"⟩], by decide, by decide⟩ : Stream).render := by
  decide

end Stream

end Logbook
