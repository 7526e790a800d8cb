import Mathlib.Data.List.Induction
import Mathlib.Data.List.Nodup
import Logbook.Proofs.Json.RoundTrip
import Logbook.Proofs.SortedMap
import Logbook.Search.Series

set_option autoImplicit false

/-! # Series and their samples

Samples are put into series by the text of their labels. Labels are texts, so that their own text
tells them (`Json.render_obj_inj`), and every sample is in one series, once
(`Series.samples_collect`). Series have distinct labels, and if no two samples have both their time
and their labels in common, the times of a series ascend strictly. -/

namespace Logbook

/-! ## Objects of texts -/

namespace Json

theorem member?_putMember {α : Type} (members : List (String × α)) (key : String) (value : α)
    (name : String) :
    member? (putMember members key value) name
      = if key = name then some value else member? members name := by
  induction members with
  | nil => by_cases h : key = name <;> simp [putMember, member?, h]
  | cons m rest ih =>
    obtain ⟨k, v⟩ := m
    rw [putMember]
    by_cases hk : k = key
    · subst hk
      by_cases h : k = name <;> simp [member?, h]
    · rw [if_neg hk]
      by_cases hname : k = name
      · have hkey : key ≠ name := fun h => hk (hname.trans h.symm)
        simp [member?, hname, hkey]
      · simpa [member?, hname] using ih

/-- All values of the object are texts. -/
def Texts (members : List (String × Json)) : Prop :=
  ∀ m ∈ members, ∃ s, m.2 = .str s

theorem Texts.putMember {members : List (String × Json)} (h : Texts members) (key value : String) :
    Texts (putMember members key (.str value)) := by
  induction members with
  | nil => exact List.forall_mem_singleton.2 ⟨value, rfl⟩
  | cons m rest ih =>
    obtain ⟨hm, hrest⟩ := List.forall_mem_cons.1 h
    rw [Json.putMember]
    split
    · exact List.forall_mem_cons.2 ⟨⟨value, rfl⟩, hrest⟩
    · exact List.forall_mem_cons.2 ⟨hm, ih hrest⟩

/-- An object of texts is read back. -/
theorem parse?_renderChars_of_texts {members : List (String × Json)} (h : Texts members) :
    parse? (obj members).renderChars = some (obj members) := by
  have hmembers : depthMembers members = 0 ∧ receivedMembers? members = some members := by
    induction members with
    | nil => exact ⟨rfl, rfl⟩
    | cons m rest ih =>
      obtain ⟨⟨s, hm⟩, hrest⟩ := List.forall_mem_cons.1 h
      obtain ⟨key, value⟩ := m
      obtain rfl : value = .str s := hm
      obtain ⟨hdepth, hreceived⟩ := ih hrest
      constructor
      · rw [depthMembers, hdepth]
        rfl
      · rw [receivedMembers?, hreceived]
        rfl
  rw [parse?_renderChars, depth, hmembers.1, received?, hmembers.2]
  rfl

/-- **The text of an object of texts tells the object.** -/
theorem render_obj_inj {ms ns : List (String × Json)} (hms : Texts ms) (hns : Texts ns)
    (h : (obj ms).render = (obj ns).render) : ms = ns := by
  have hread := parse?_renderChars_of_texts hms
  rw [String.ofList_inj.1 h, parse?_renderChars_of_texts hns] at hread
  exact (obj.inj (Option.some.inj hread)).symm

end Json

/-! ## Labels -/

namespace SampleLayout

/-- The members of the labels of a value. -/
def members (l : SampleLayout) (row : QueryRow) (name : String) : List (String × Json) :=
  l.labels.foldl (fun members label => Json.putMember members label (.str (row.value label)))
    [("__name__", .str name)]

theorem metric_eq (l : SampleLayout) (row : QueryRow) (name : String) :
    l.metric row name = .obj (l.members row name) := rfl

theorem texts_members (l : SampleLayout) (row : QueryRow) (name : String) :
    Json.Texts (l.members row name) := by
  rw [members]
  generalize hinit : [("__name__", Json.str name)] = init
  have htexts : Json.Texts init := by
    rw [← hinit]
    exact List.forall_mem_singleton.2 ⟨name, rfl⟩
  clear hinit
  induction l.labels generalizing init with
  | nil => exact htexts
  | cons label labels ih => exact ih _ (htexts.putMember label _)

theorem member?_members (l : SampleLayout) (row : QueryRow) (name key : String) :
    Json.member? (l.members row name) key
      = if key ∈ l.labels then some (.str (row.value key))
        else Json.member? [("__name__", .str name)] key := by
  rw [members]
  generalize [("__name__", Json.str name)] = init
  induction l.labels generalizing init with
  | nil => rfl
  | cons label labels ih =>
    rw [List.foldl_cons, ih, Json.member?_putMember]
    by_cases hlabel : label = key
    · subst hlabel
      simp
    · simp [hlabel, Ne.symm hlabel]

/-- Rows with the same values under the labels have the same labels. -/
theorem metric_congr {l : SampleLayout} {row row' : QueryRow}
    (h : ∀ label ∈ l.labels, row.value label = row'.value label) (name : String) :
    l.metric row name = l.metric row' name := by
  rw [metric_eq, metric_eq, members, members]
  generalize [("__name__", Json.str name)] = init
  generalize l.labels = labels at h
  induction labels generalizing init with
  | nil => rfl
  | cons label labels ih =>
    rw [List.forall_mem_cons] at h
    rw [List.foldl_cons, List.foldl_cons, h.1]
    exact ih _ h.2

/-- The labels of a value tell its name and what the row has under the labels. -/
theorem metric_inj {l : SampleLayout} (hname : "__name__" ∉ l.labels) {row row' : QueryRow}
    {name name' : String} (h : l.metric row name = l.metric row' name') :
    name = name' ∧ ∀ label ∈ l.labels, row.value label = row'.value label := by
  have hmembers : l.members row name = l.members row' name' := Json.obj.inj h
  have hvalue := fun key => congrArg (Json.member? · key) hmembers
  simp only [member?_members] at hvalue
  constructor
  · have h := hvalue "__name__"
    rw [if_neg hname, if_neg hname] at h
    exact Json.str.inj (Option.some.inj h)
  · intro label hlabel
    have h := hvalue label
    rw [if_pos hlabel, if_pos hlabel] at h
    exact Json.str.inj (Option.some.inj h)

end SampleLayout

/-! ## Tables -/

namespace SortedMap

variable {α β γ : Type} [Ord α]

/-- The entries after a change at a key. -/
theorem mem_alter {m : SortedMap α β} {key : α} {f : Option β → β} {e : α × β}
    (h : e ∈ alter m key f) :
    e ∈ m ∨ e = (key, f none) ∨
      ∃ k v, (k, v) ∈ m ∧ compare key k = .eq ∧ e = (k, f (some v)) := by
  induction m with
  | nil => exact .inr (.inl (List.mem_singleton.1 h))
  | cons entry rest ih =>
    obtain ⟨k, v⟩ := entry
    rw [alter] at h
    split at h
    · exact (List.mem_cons.1 h).elim (fun he => .inr (.inl he)) .inl
    · next heq =>
      rcases List.mem_cons.1 h with he | he
      · exact .inr (.inr ⟨k, v, List.mem_cons_self, heq, he⟩)
      · exact .inl (List.mem_cons_of_mem _ he)
    · rcases List.mem_cons.1 h with he | he
      · exact .inl (he ▸ List.mem_cons_self)
      · rcases ih he with hmem | hnew | ⟨k', v', hmem, heq, he⟩
        · exact .inl (List.mem_cons_of_mem _ hmem)
        · exact .inr (.inl hnew)
        · exact .inr (.inr ⟨k', v', List.mem_cons_of_mem _ hmem, heq, he⟩)

/-- What a change at a key adds to what the values consist of. -/
theorem flatMap_alter_perm {m : SortedMap α β} {key : α} {f : Option β → β} {parts : β → List γ}
    {x : γ} (hnew : parts (f none) = [x])
    (hold : ∀ k v, (k, v) ∈ m → compare key k = .eq → (parts (f (some v))).Perm (x :: parts v)) :
    ((alter m key f).flatMap fun e => parts e.2).Perm (x :: m.flatMap fun e => parts e.2) := by
  induction m with
  | nil => simp [alter, hnew]
  | cons entry rest ih =>
    obtain ⟨k, v⟩ := entry
    rw [alter]
    split
    · simp [hnew]
    · next heq => exact (hold k v List.mem_cons_self heq).append_right _
    · have hrest := ih fun k' v' hmem => hold k' v' (List.mem_cons_of_mem _ hmem)
      exact (hrest.append_left (parts v)).trans List.perm_middle

end SortedMap

namespace Series

/-- A sample with its time: the labels and the value. -/
abbrev TimedSample := Timestamp × Json × String

/-- The samples of a row with its time; a row without a time has none. -/
def timed (l : SampleLayout) (row : QueryRow) : List TimedSample :=
  match row.timestamp with
  | none => []
  | some t => (l.samples row).map (t, ·)

/-- The series of samples by the text of their labels. -/
def collect (samples : List TimedSample) : Table :=
  samples.foldl (fun table sample => addSample sample.1 table sample.2) []

theorem ofRows_eq (l : SampleLayout) (rows : List QueryRow) :
    ofRows l rows = (collect (rows.flatMap (timed l))).map (·.2) := by
  have hrow : ∀ (table : Table) (row : QueryRow), addRow l table row
      = (timed l row).foldl (fun table sample => addSample sample.1 table sample.2) table := by
    intro table row
    rw [addRow, timed]
    cases row.timestamp with
    | none => rfl
    | some t => rw [List.foldl_map]
  rw [ofRows, collect, List.foldl_flatMap]
  exact congrArg (fun step => (rows.foldl step []).map (·.2)) (funext₂ hrow)

/-- The samples of a series. -/
def samples (s : Series) : List TimedSample :=
  s.points.map fun (t, value) => (t, s.metric, value)

theorem collect_append_singleton (samples : List TimedSample) (sample : TimedSample) :
    collect (samples ++ [sample]) = addSample sample.1 (collect samples) sample.2 :=
  List.foldl_append

/-- Series are kept under the text of their labels, which are those of a sample. -/
theorem mem_collect {samples : List TimedSample} {e : String × Series}
    (h : e ∈ collect samples) :
    e.2.metric.render = e.1 ∧ ∃ sample ∈ samples, sample.2.1 = e.2.metric := by
  induction samples using List.reverseRecOn generalizing e with
  | nil => cases h
  | append_singleton samples sample ih =>
    have hmono : ∀ e' : String × Series, e' ∈ collect samples → e'.2.metric.render = e'.1 ∧
        ∃ s ∈ samples ++ [sample], s.2.1 = e'.2.metric := by
      intro e' he'
      obtain ⟨hrender, s, hs, hmetric⟩ := ih he'
      exact ⟨hrender, s, List.mem_append_left _ hs, hmetric⟩
    rw [collect_append_singleton] at h
    rcases SortedMap.mem_alter h with hmem | rfl | ⟨k, s, hmem, -, rfl⟩
    · exact hmono e hmem
    · exact ⟨rfl, sample, List.mem_append_right _ (List.mem_singleton_self _), rfl⟩
    · exact hmono (k, s) hmem

theorem sorted_collect (samples : List TimedSample) : SortedMap.Sorted (collect samples) := by
  induction samples using List.reverseRecOn with
  | nil => exact SortedMap.sorted_nil
  | append_singleton samples sample ih =>
    rw [collect_append_singleton]
    exact SortedMap.sorted_alter ih _ _

/-- **Every sample is in a series, once**, if the text of labels tells the labels. -/
theorem samples_collect {samples : List TimedSample}
    (hrender : ∀ a ∈ samples, ∀ b ∈ samples, a.2.1.render = b.2.1.render → a.2.1 = b.2.1) :
    ((collect samples).flatMap fun e => e.2.samples).Perm samples := by
  induction samples using List.reverseRecOn with
  | nil => exact .nil
  | append_singleton samples sample ih =>
    have hsamples := ih fun a ha b hb =>
      hrender a (List.mem_append_left _ ha) b (List.mem_append_left _ hb)
    -- the labels of a series are those of a sample with the same text, and so are the last ones
    have hadd : ∀ k (s : Series), (k, s) ∈ collect samples →
        compare sample.2.1.render k = .eq →
          ({ s with points := s.points ++ [(sample.1, sample.2.2)] } : Series).samples.Perm
            (sample :: s.samples) := by
      intro k s hmem heq
      obtain ⟨hkey, other, hother, hother'⟩ := mem_collect hmem
      have hmetric : s.metric = sample.2.1 := by
        rw [← hother']
        refine hrender other (List.mem_append_left _ hother) sample
          (List.mem_append_right _ (List.mem_singleton_self _)) ?_
        rw [hother', hkey, Std.LawfulEqOrd.compare_eq_iff_eq.1 heq]
      simp only [Series.samples, List.map_append, List.map_cons, List.map_nil, hmetric]
      exact List.perm_append_singleton sample _
    rw [collect_append_singleton]
    exact (SortedMap.flatMap_alter_perm rfl hadd).trans
      ((hsamples.cons sample).trans (List.perm_append_singleton sample samples).symm)

/-- **Series have distinct labels.** -/
theorem nodup_metrics_collect (samples : List TimedSample) :
    ((collect samples).map fun e => e.2.metric).Nodup := by
  refine List.pairwise_map.2 ((sorted_collect samples).imp_of_mem ?_)
  intro e e' he he' hlt hmetric
  have hkeys : e.1 = e'.1 := by
    rw [← (mem_collect he).1, ← (mem_collect he').1, hmetric]
  rw [hkeys, Std.ReflOrd.compare_self] at hlt
  cases hlt

/-- Points of different times come out in the order of their times. -/
theorem pairwise_lt_sorted {s : Series} (h : (s.points.map (·.1)).Nodup) :
    (s.sorted.map (·.1)).Pairwise (· < ·) := by
  have hperm : s.sorted.Perm s.points := List.mergeSort_perm ..
  have hle : s.sorted.Pairwise fun a b => a.1 ≤ b.1 := by
    let le : Timestamp × String → Timestamp × String → Bool := fun a b => a.1 ≤ b.1
    have htrans : ∀ a b c, le a b = true → le b c = true → le a c = true :=
      fun a b c hab hbc =>
        decide_eq_true (Int64.le_trans (of_decide_eq_true hab) (of_decide_eq_true hbc))
    have htotal : ∀ a b, (le a b || le b a) = true :=
      fun a b => by simpa [le] using Int64.le_total a.1 b.1
    exact (List.pairwise_mergeSort htrans htotal s.points).imp of_decide_eq_true
  have hnodup := (hperm.map (·.1)).nodup_iff.2 h
  rw [List.pairwise_map]
  refine (hle.and (List.pairwise_map.1 hnodup)).imp ?_
  rintro a b ⟨hab, hne⟩
  exact Int64.lt_of_le_of_ne hab hne

/-- If no two samples have their time and their labels in common, the points of a series have
    different times. -/
theorem nodup_times_of_mem_collect {samples : List TimedSample}
    (hrender : ∀ a ∈ samples, ∀ b ∈ samples, a.2.1.render = b.2.1.render → a.2.1 = b.2.1)
    (h : (samples.map fun s => (s.1, s.2.1)).Nodup) {e : String × Series}
    (he : e ∈ collect samples) : (e.2.points.map (·.1)).Nodup := by
  have hall := ((samples_collect hrender).map fun s => (s.1, s.2.1)).nodup_iff.2 h
  rw [List.map_flatMap, List.nodup_flatMap] at hall
  have htimes : e.2.samples.map (fun s => (s.1, s.2.1))
      = (e.2.points.map (·.1)).map fun t => (t, e.2.metric) := by
    rw [Series.samples, List.map_map, List.map_map]
    rfl
  exact (htimes ▸ hall.1 e he).of_map _

/-! ### Values of a result -/

/-- The name that is among labels. -/
def nameIn? (metric : Json) : Option String :=
  match metric.members?.bind (Json.member? · "__name__") with
  | some (.str name) => some name
  | _ => none

theorem nameIn?_metric {l : SampleLayout} (hname : "__name__" ∉ l.labels) (row : QueryRow)
    (name : String) : nameIn? (l.metric row name) = some name := by
  have hmember : Json.member? (l.members row name) "__name__" = some (.str name) := by
    rw [SampleLayout.member?_members, if_neg hname]
    rfl
  rw [nameIn?, SampleLayout.metric_eq, Json.members?, Option.bind_some, hmember]

/-- The values of all points of the series of a result. -/
def valuesOf (name : String) (series : List Series) : List String :=
  (series.filter (nameIn? ·.metric == some name)).flatMap fun s => s.sorted.map (·.2)

theorem valuesOf_perm (name : String) (series : List Series) :
    (valuesOf name series).Perm
      (((series.flatMap samples).filter (nameIn? ·.2.1 == some name)).map (·.2.2)) := by
  induction series with
  | nil => exact .nil
  | cons s series ih =>
    have hmetric : ∀ x ∈ s.samples, x.2.1 = s.metric := by
      intro x hx
      obtain ⟨point, -, rfl⟩ := List.mem_map.1 hx
      rfl
    have hvalues : s.samples.map (·.2.2) = s.points.map (·.2) := by
      rw [samples, List.map_map]
      rfl
    rw [List.flatMap_cons, List.filter_append, List.map_append, valuesOf, List.filter_cons]
    by_cases h : (nameIn? s.metric == some name) = true
    · have hall : s.samples.filter (nameIn? ·.2.1 == some name) = s.samples :=
        List.filter_eq_self.2 fun x hx => by rw [hmetric x hx]; exact h
      have hsorted : (s.sorted.map (·.2)).Perm (s.points.map (·.2)) :=
        (List.mergeSort_perm ..).map _
      rw [if_pos h, hall, hvalues]
      exact hsorted.append ih
    · have hnone : s.samples.filter (nameIn? ·.2.1 == some name) = [] :=
        List.filter_eq_nil_iff.2 fun x hx => by rw [hmetric x hx]; exact h
      rw [if_neg h, hnone]
      exact ih

/-- The values of a result are those of its samples. -/
theorem valuesOf_collect_perm {samples : List TimedSample}
    (hrender : ∀ a ∈ samples, ∀ b ∈ samples, a.2.1.render = b.2.1.render → a.2.1 = b.2.1)
    (name : String) :
    (valuesOf name ((collect samples).map (·.2))).Perm
      ((samples.filter (nameIn? ·.2.1 == some name)).map (·.2.2)) := by
  refine (valuesOf_perm name _).trans ?_
  rw [List.flatMap_map]
  exact ((samples_collect hrender).filter _).map _

end Series

end Logbook
