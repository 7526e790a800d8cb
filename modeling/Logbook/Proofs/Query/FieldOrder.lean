import Mathlib.Data.List.Forall2
import Logbook.Proofs.Fields
import Logbook.Proofs.Query.AnyOrder

set_option autoImplicit false

/-! # Results that no order of fields shows in

Two rows may differ in nothing but the order of their fields (`QueryRow.Alike`). Filters cannot tell
them apart, since they read fields by their names, nor can a selection of fields, which brings the
fields into its own order. Statistics and facets give the same for them, with the exception of
distinct values of whole rows, which are told apart by the fields in their order
(`Pipe.IgnoresFieldOrder`). -/

namespace Logbook

/-! ## Fields -/

namespace Field

/-- Where names are distinct, the order of fields does not matter to a value. -/
theorem first?_perm {fs gs : List Field} (h : fs.Perm gs) (hnodup : (names fs).Nodup)
    (name : String) : first? fs name = first? gs name := by
  have hnodup' : (names gs).Nodup := (h.map _).nodup_iff.1 hnodup
  refine Option.ext fun value => ?_
  rw [first?_eq_some_iff hnodup, first?_eq_some_iff hnodup', h.mem_iff]

/-- Fields with distinct names are told by the values of the names, up to their order. -/
theorem perm_of_last? {fs gs : List Field} (hfs : (names fs).Nodup) (hgs : (names gs).Nodup)
    (h : ∀ name, last? fs name = last? gs name) : fs.Perm gs := by
  refine (List.perm_ext_iff_of_nodup (List.Nodup.of_map _ hfs) (List.Nodup.of_map _ hgs)).2 ?_
  rintro ⟨name, value⟩
  rw [← last?_eq_some_iff hfs, ← last?_eq_some_iff hgs, h]

end Field

/-! ## Rows -/

namespace QueryRow

/-- Rows that differ in nothing but the order of their fields, all of which have names of their
    own. -/
structure Alike (a b : QueryRow) : Prop where
  timestamp : a.timestamp = b.timestamp
  fields : a.fields.Perm b.fields
  nodup : (Field.names a.fields).Nodup

variable {a b : QueryRow}

theorem Alike.get? (h : Alike a b) : a.get? = b.get? :=
  funext fun name => Field.first?_perm h.fields h.nodup name

theorem Alike.value (h : Alike a b) : a.value = b.value :=
  funext fun name => congrArg (Option.getD · "") (congrFun h.get? name)

/-! ### Selecting fields -/

theorem takeField?_eq_none_iff {name : String} {fields : List Field} :
    takeField? name fields = none ↔ name ∉ Field.names fields := by
  induction fields with
  | nil => simp [takeField?]
  | cons f rest ih =>
    rw [takeField?, Field.names_cons, List.mem_cons, not_or]
    split
    · next hname =>
      refine iff_of_false ?_ fun h => h.1 hname.symm
      cases rest.getLast? <;> simp
    · next hname => simp [ih, Ne.symm hname]

/-- A field that is taken leaves the other fields, in some order. -/
theorem perm_of_takeField? {name : String} {fields rest : List Field} {f : Field}
    (h : takeField? name fields = some (f, rest)) : f.name = name ∧ (f :: rest).Perm fields := by
  induction fields generalizing rest with
  | nil => cases h
  | cons g fields ih =>
    rw [takeField?] at h
    split at h
    · next hname =>
      cases hlast : fields.getLast? with
      | none =>
        rw [hlast] at h
        cases h
        rw [List.getLast?_eq_none_iff.1 hlast]
        exact ⟨hname, List.Perm.refl _⟩
      | some l =>
        rw [hlast] at h
        cases h
        have hfields : fields.dropLast ++ [l] = fields := List.dropLast_append_getLast? l hlast
        refine ⟨hname, List.Perm.cons f ?_⟩
        exact (List.perm_append_singleton l _).symm.trans (List.Perm.of_eq hfields)
    · obtain ⟨⟨f', rest'⟩, htake, heq⟩ := Option.map_eq_some_iff.1 h
      cases heq
      obtain ⟨hname, hperm⟩ := ih htake
      exact ⟨hname, (List.Perm.swap g f rest').trans (hperm.cons g)⟩

/-- Named fields are taken out in the order of the names. -/
theorem takeFields_perm (names : List String) {fs gs : List Field} (h : fs.Perm gs)
    (hnodup : (Field.names fs).Nodup) : takeFields names fs = takeFields names gs := by
  induction names generalizing fs gs with
  | nil => rfl
  | cons name names ih =>
    have hnames : (Field.names fs).Perm (Field.names gs) := h.map _
    rw [takeFields, takeFields]
    cases hfs : takeField? name fs with
    | none =>
      have hgs : takeField? name gs = none :=
        takeField?_eq_none_iff.2 fun hmem => takeField?_eq_none_iff.1 hfs (hnames.mem_iff.2 hmem)
      rw [hgs]
      exact ih h hnodup
    | some taken =>
      obtain ⟨f, fs'⟩ := taken
      obtain ⟨hname, hfs'⟩ := perm_of_takeField? hfs
      cases hgs : takeField? name gs with
      | none =>
        have hmem : name ∈ Field.names fs :=
          hname ▸ Field.mem_names_of_mem (hfs'.mem_iff.1 List.mem_cons_self)
        exact absurd (hnames.mem_iff.1 hmem) (takeField?_eq_none_iff.1 hgs)
      | some taken =>
        obtain ⟨g, gs'⟩ := taken
        obtain ⟨hname', hgs'⟩ := perm_of_takeField? hgs
        -- a name belongs to one field only, so that both lists lose the same one
        have hall : (f :: fs').Perm (g :: gs') := hfs'.trans (h.trans hgs'.symm)
        have hnodup' : (Field.names (f :: fs')).Nodup := (hfs'.map _).nodup_iff.2 hnodup
        have hfg : g = f := by
          have hmem : g ∈ f :: fs' := hall.mem_iff.2 List.mem_cons_self
          refine (List.mem_cons.1 hmem).resolve_right fun hrest => ?_
          rw [Field.names_cons, List.nodup_cons, hname, ← hname'] at hnodup'
          exact hnodup'.1 (Field.mem_names_of_mem hrest)
        subst hfg
        exact congrArg _ (ih hall.cons_inv (List.nodup_cons.1 hnodup').2)

/-- A selection of fields shows nothing of their order. -/
theorem Alike.project_eq (h : Alike a b) (names : List String) :
    a.project names = b.project names := by
  rw [project, project, h.timestamp, takeFields_perm names h.fields h.nodup]

end QueryRow

open QueryRow (Alike)

/-! ## Pipes that look at each row by itself -/

namespace Filter

variable {a b : QueryRow}

mutual

/-- Filters read the time and the values of fields. -/
theorem accepts_congr (f : Filter) (htime : a.timestamp = b.timestamp) (hget : a.get? = b.get?) :
    f.accepts a = f.accepts b := by
  have hvalue : a.value = b.value := by
    unfold QueryRow.value
    rw [hget]
  cases f with
  | and fs => exact allAccept_congr fs htime hget
  | or fs => exact anyAccepts_congr fs htime hget
  | not f => rw [accepts, accepts, accepts_congr f htime hget]
  | _ => simp only [accepts, htime, hget, hvalue]

theorem allAccept_congr (fs : List Filter) (htime : a.timestamp = b.timestamp)
    (hget : a.get? = b.get?) : allAccept fs a = allAccept fs b := by
  cases fs with
  | nil => rfl
  | cons f fs =>
    rw [allAccept, allAccept, accepts_congr f htime hget, allAccept_congr fs htime hget]

theorem anyAccepts_congr (fs : List Filter) (htime : a.timestamp = b.timestamp)
    (hget : a.get? = b.get?) : anyAccepts fs a = anyAccepts fs b := by
  cases fs with
  | nil => rfl
  | cons f fs =>
    rw [anyAccepts, anyAccepts, accepts_congr f htime hget, anyAccepts_congr fs htime hget]

end

theorem accepts_alike (f : Filter) (h : Alike a b) : f.accepts a = f.accepts b :=
  f.accepts_congr h.timestamp h.get?

end Filter

namespace Pipe

variable {a b : QueryRow}

/-- One of the pipes selects fields. -/
def SelectFields (ps : List Pipe) : Prop :=
  ∃ names, .fields names ∈ ps

/-- Behind a selection of fields, rows that are alike are the same. -/
theorem applyRowAll_eq_of_selectFields {ps : List Pipe} (hps : SelectFields ps) (h : Alike a b) :
    applyRowAll ps a = applyRowAll ps b := by
  induction ps with
  | nil =>
    obtain ⟨names, hmem⟩ := hps
    cases hmem
  | cons p ps ih =>
    rw [applyRowAll, applyRowAll]
    cases p with
    | fields names => rw [applyRow, applyRow, h.project_eq]
    | filter condition =>
      obtain ⟨names, hmem⟩ := hps
      have hrest := ih ⟨names, (List.mem_cons.1 hmem).resolve_left nofun⟩
      rw [applyRow, applyRow, condition.accepts_alike h]
      split
      · exact hrest
      · rfl
    | limit | sort | stats | facets =>
      obtain ⟨names, hmem⟩ := hps
      exact ih ⟨names, (List.mem_cons.1 hmem).resolve_left nofun⟩

/-- Without a selection of fields, rows that are alike stay alike. -/
theorem applyRowAll_alike {ps : List Pipe} (hps : ¬ SelectFields ps) (h : Alike a b) :
    Option.Rel Alike (applyRowAll ps a) (applyRowAll ps b) := by
  induction ps with
  | nil => exact .some h
  | cons p ps ih =>
    have hrest := ih fun ⟨names, hmem⟩ => hps ⟨names, List.mem_cons_of_mem p hmem⟩
    rw [applyRowAll, applyRowAll]
    cases p with
    | fields names => exact absurd ⟨names, List.mem_cons_self⟩ hps
    | filter condition =>
      rw [applyRow, applyRow, condition.accepts_alike h]
      split
      · exact hrest
      · exact .none
    | limit | sort | stats | facets => exact hrest

end Pipe

/-! ## Statistics -/

variable {rows rows' : List QueryRow}

/-- What comes to the same for rows that are alike comes to the same for lists of them. -/
theorem map_eq_of_alike {α : Type} {g : QueryRow → α} (hg : ∀ {a b}, Alike a b → g a = g b)
    (h : List.Forall₂ Alike rows rows') : rows.map g = rows'.map g := by
  induction h with
  | nil => rfl
  | cons hrow _ ih => rw [List.map_cons, List.map_cons, hg hrow, ih]

namespace StatsFunc

/-- The function is not that of the distinct values of whole rows. -/
def IgnoresFieldOrder (f : StatsFunc) : Prop :=
  f.kind = .countUniq → f.fields ≠ []

instance (f : StatsFunc) : Decidable f.IgnoresFieldOrder :=
  inferInstanceAs (Decidable (_ → _))

theorem numbers_alike (f : StatsFunc) {a b : QueryRow} (h : Alike a b) :
    f.numbers a = f.numbers b := by
  rw [numbers, numbers, h.get?]

theorem numbersOf_alike (f : StatsFunc) (h : List.Forall₂ Alike rows rows') :
    f.numbersOf rows = f.numbersOf rows' := by
  rw [numbersOf, numbersOf, List.flatMap_def, List.flatMap_def, map_eq_of_alike f.numbers_alike h]

theorem lawfulInAnyOrder_alike (f : StatsFunc) (h : List.Forall₂ Alike rows rows') :
    f.LawfulInAnyOrder rows ↔ f.LawfulInAnyOrder rows' := by
  rw [LawfulInAnyOrder, LawfulInAnyOrder, f.numbersOf_alike h]

end StatsFunc

namespace StatsState

theorem counts_alike (f : StatsFunc) {a b : QueryRow} (h : Alike a b) :
    counts f a = counts f b := by
  rw [counts, counts, h.value]

theorem uniqueKey_alike {f : StatsFunc} (hf : f.fields ≠ []) {a b : QueryRow} (h : Alike a b) :
    uniqueKey f a = uniqueKey f b := by
  have hempty : ¬ f.fields.isEmpty = true := fun hnil => hf (List.isEmpty_iff.1 hnil)
  rw [uniqueKey, uniqueKey, if_neg hempty, if_neg hempty, h.value]

theorem ofRows_alike {f : StatsFunc} (hf : f.IgnoresFieldOrder)
    (h : List.Forall₂ Alike rows rows') : ofRows f rows = ofRows f rows' := by
  have hnumbers := f.numbersOf_alike h
  rw [ofRows_eq, ofRows_eq]
  cases hkind : f.kind with
  | count =>
    have hcounts : rows.countP (counts f) = rows'.countP (counts f) := by
      have hmap := congrArg (List.countP id) (map_eq_of_alike (counts_alike f) h)
      rwa [List.countP_map, List.countP_map] at hmap
    rw [hcounts]
  | countUniq =>
    rw [uniqueKeys, uniqueKeys, map_eq_of_alike (uniqueKey_alike (hf hkind)) h]
  | sum | min | max | avg => simp only [hnumbers]

/-! The order of fields does show in the distinct values of whole rows. -/

example : uniqueKey ⟨.countUniq, [], "n"⟩ ⟨none, [⟨"a", "1"⟩, ⟨"b", "2"⟩]⟩
    ≠ uniqueKey ⟨.countUniq, [], "n"⟩ ⟨none, [⟨"b", "2"⟩, ⟨"a", "1"⟩]⟩ := by decide

end StatsState

theorem StatsPipe.groupKey_alike (pipe : StatsPipe) {a b : QueryRow} (h : Alike a b) :
    pipe.groupKey a = pipe.groupKey b := by
  refine List.map_congr_left fun key _ => ?_
  rw [keyOf, keyOf, h.timestamp, h.value]

namespace PartialStats

theorem groupRows_alike (pipe : StatsPipe) (key : List String)
    (h : List.Forall₂ Alike rows rows') :
    List.Forall₂ Alike (groupRows pipe key rows) (groupRows pipe key rows') :=
  List.rel_filter (fun a b hrow => by dsimp only; rw [pipe.groupKey_alike hrow]) h

/-- The groups of rows that are alike are the same. -/
theorem ofRows_alike {pipe : StatsPipe} (hpipe : ∀ f ∈ pipe.funcs, f.IgnoresFieldOrder)
    (h : List.Forall₂ Alike rows rows') : ofRows pipe rows = ofRows pipe rows' := by
  refine SortedMap.eq_of_get? (sorted_ofRows ..) (sorted_ofRows ..) fun key => ?_
  have hgroup := groupRows_alike pipe key h
  have hstates : statesOf pipe (groupRows pipe key rows)
      = statesOf pipe (groupRows pipe key rows') :=
    List.map_congr_left fun f hf => StatsState.ofRows_alike (hpipe f hf) hgroup
  rw [get?_ofRows, get?_ofRows, hstates]
  generalize groupRows pipe key rows = group at hgroup ⊢
  generalize groupRows pipe key rows' = group' at hgroup ⊢
  cases hgroup <;> rfl

end PartialStats

/-! ## Facets -/

theorem PartialFacets.addRows_alike {p : PartialFacets} (hp : WellFormed p) (pipe : FacetsPipe)
    (h : List.Forall₂ Alike rows rows') : p.addRows pipe rows = p.addRows pipe rows' := by
  induction h generalizing p with
  | nil => rfl
  | @cons a b rows rows' hrow _ ih =>
    have hfields := addFields_perm hp pipe hrow.fields
    simp only [addFields, mk.injEq, true_and] at hfields
    have hadd : p.addRow pipe a = p.addRow pipe b := by
      rw [addRow, addRow, hfields]
    show (p.addRow pipe a).addRows pipe rows = (p.addRow pipe b).addRows pipe rows'
    rw [ih (wellFormed_addRow hp pipe a), hadd]

/-! ## Pipes that look at all rows together -/

namespace Pipe

/-- The pipe comes to the same for rows that are alike. -/
def IgnoresFieldOrder : Pipe → Prop
  | .stats s => ∀ f ∈ s.funcs, f.IgnoresFieldOrder
  | .facets _ => True
  | _ => False

theorem IgnoresFieldOrder.apply_alike {p : Pipe} (hp : p.IgnoresFieldOrder)
    (h : List.Forall₂ Alike rows rows') : p.apply rows = p.apply rows' := by
  cases p with
  | stats s => exact congrArg (PartialStats.finalize · s) (PartialStats.ofRows_alike hp h)
  | facets f =>
    exact congrArg (PartialFacets.finalize · f)
      (PartialFacets.addRows_alike PartialFacets.wellFormed_empty f h)
  | _ => exact hp.elim

theorem IgnoresOrderOf.alike {p : Pipe} (hp : p.IgnoresOrderOf rows)
    (h : List.Forall₂ Alike rows rows') : p.IgnoresOrderOf rows' := by
  cases p with
  | stats s =>
    intro f hf key
    exact (f.lawfulInAnyOrder_alike (PartialStats.groupRows_alike s key h)).1 (hp f hf key)
  | facets f => trivial
  | _ => exact hp.elim

end Pipe

/-! ## Queries -/

namespace RemoteQuery

variable {q : RemoteQuery} {a b : StoredRow}

theorem select?_eq_of_selectFields (hq : Pipe.SelectFields q.pipes)
    (h : Alike (.ofStored a) (.ofStored b)) : q.select? a = q.select? b := by
  rw [select?, select?, q.filter.accepts_alike h, Pipe.applyRowAll_eq_of_selectFields hq h]

theorem select?_alike (hq : ¬ Pipe.SelectFields q.pipes)
    (h : Alike (.ofStored a) (.ofStored b)) : Option.Rel Alike (q.select? a) (q.select? b) := by
  rw [select?, select?, q.filter.accepts_alike h]
  split
  · exact Pipe.applyRowAll_alike hq h
  · exact .none

end RemoteQuery

namespace Query

variable {q : Query} {p : Pipe} {rows rows' : List StoredRow}

/-- No order of fields shows in what becomes of the rows behind a selection of fields, or if the
    first pipe that looks at all rows together shows none. -/
def IgnoresFieldOrder (q : Query) : Prop :=
  Pipe.SelectFields q.rowLocal ∨ ∀ p ∈ q.gathering.head?, p.IgnoresFieldOrder

/-- Rows that are alike reach the pipes that look at all rows together as the same rows, or these
    pipes do not tell them apart. -/
theorem applyAll_reaching_alike (hq : q.IgnoresFieldOrder) (hfirst : q.gathering.head? = some p)
    (hp : p.IgnoresOrderOf (q.reaching rows))
    (h : List.Forall₂ (fun a b => Alike (.ofStored a) (.ofStored b)) rows rows') :
    p.IgnoresOrderOf (q.reaching rows') ∧
      Pipe.applyAll q.gathering (q.reaching rows')
        = Pipe.applyAll q.gathering (q.reaching rows) := by
  by_cases hselect : Pipe.SelectFields q.rowLocal
  · have hsame : q.reaching rows' = q.reaching rows := by
      clear hp
      unfold reaching
      induction h with
      | nil => rfl
      | cons hrow _ ih =>
        rw [List.filterMap_cons, List.filterMap_cons, ih,
          RemoteQuery.select?_eq_of_selectFields hselect hrow]
    rw [hsame]
    exact ⟨hp, rfl⟩
  · have hreaching : List.Forall₂ Alike (q.reaching rows) (q.reaching rows') :=
      List.rel_filterMap (fun _ _ hrow => RemoteQuery.select?_alike hselect hrow) h
    have hpipe := (hq.resolve_left hselect) p hfirst
    obtain ⟨rest, hgathering⟩ := List.head?_eq_some_iff.1 hfirst
    rw [hgathering]
    exact ⟨hp.alike hreaching,
      congrArg (Pipe.applyAll rest) (hpipe.apply_alike hreaching).symm⟩

end Query

end Logbook
