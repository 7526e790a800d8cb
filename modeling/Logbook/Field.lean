set_option autoImplicit false

/-! # Fields

A log row is a list of fields, each a name with a value. Names may repeat in what a client sends;
`Field.dedup` resolves repetitions the same way everywhere: the last value wins and keeps the place
of the first. -/

namespace Logbook

/-- A name with its value. -/
@[ext]
structure Field where
  name : String
  value : String
  deriving DecidableEq, Repr, Inhabited

/-- Name of the message field. -/
def msgName : String := "_msg"

/-- Name of the timestamp as queries see it. -/
def timeName : String := "_time"

/-- Name of the rendered stream tags as queries see them. -/
def streamName : String := "_stream"

/-- Name of the stream identifier as queries see it. -/
def streamIdName : String := "_stream_id"

/-- Names that are computed and never taken from a client. -/
def isReservedName (name : String) : Bool :=
  name == timeName || name == streamName || name == streamIdName

namespace Field

/-- Writes a field into a list: over the value of the first field of that name, else at the end. -/
def put : List Field → Field → List Field
  | [], f => [f]
  | g :: rest, f => if g.name = f.name then { g with value := f.value } :: rest else g :: put rest f

/-- Resolves repeated names: each name keeps its first position and its last value. -/
def dedup (fields : List Field) : List Field :=
  fields.foldl put []

/-- The value of the first field of that name. -/
def first? (fields : List Field) (name : String) : Option String :=
  (fields.find? (·.name == name)).map (·.value)

/-- The value of the last field of that name. -/
def last? (fields : List Field) (name : String) : Option String :=
  first? fields.reverse name

/-- The value of the field of that name in a list that is sorted by name: the list is halved until
    the field in the middle has the name. -/
def bisect? (fields : List Field) (name : String) : Option String :=
  match h : fields.drop (fields.length / 2) with
  | [] => none
  | f :: after =>
    if f.name = name then some f.value
    else if f.name < name then bisect? after name
    else bisect? (fields.take (fields.length / 2)) name
termination_by fields.length
decreasing_by
  all_goals
    have hdrop := congrArg List.length h
    simp only [List.length_drop, List.length_cons] at hdrop
  · omega
  · rw [List.length_take]
    omega

/-- The names of the fields, in order. -/
def names (fields : List Field) : List String :=
  fields.map (·.name)

@[simp] theorem names_nil : names [] = [] := rfl

@[simp] theorem names_cons (f : Field) (fs : List Field) : names (f :: fs) = f.name :: names fs :=
  rfl

@[simp] theorem names_append (fs gs : List Field) : names (fs ++ gs) = names fs ++ names gs := by
  simp [names]

theorem mem_names_of_mem {f : Field} {fs : List Field} (h : f ∈ fs) : f.name ∈ names fs :=
  List.mem_map.2 ⟨f, h, rfl⟩

/-! ## Writing a field adds its name once -/

/-- Writing over a name that is there leaves the names alone; a new name goes to the end. -/
theorem names_put (fs : List Field) (f : Field) :
    names (put fs f) = if f.name ∈ names fs then names fs else names fs ++ [f.name] := by
  induction fs with
  | nil => simp [put]
  | cons g rest ih =>
    simp only [put]
    by_cases h : g.name = f.name
    · simp [h]
    · have h' : ¬ f.name = g.name := fun e => h e.symm
      rw [if_neg h, names_cons, ih]
      by_cases hm : f.name ∈ names rest <;> simp [h', hm]

theorem nodup_names_put {fs : List Field} (f : Field) (h : (names fs).Nodup) :
    (names (put fs f)).Nodup := by
  rw [names_put]
  split
  · exact h
  · next hnot =>
    refine List.nodup_append.2 ⟨h, by simp, ?_⟩
    intro a ha b hb e
    rw [List.mem_singleton.1 hb] at e
    exact hnot (e ▸ ha)

/-- No name is left twice. -/
theorem nodup_names_foldl_put (fs : List Field) {acc : List Field} (h : (names acc).Nodup) :
    (names (fs.foldl put acc)).Nodup := by
  induction fs generalizing acc with
  | nil => exact h
  | cons f rest ih => exact ih (nodup_names_put f h)

theorem nodup_names_dedup (fs : List Field) : (names (dedup fs)).Nodup :=
  nodup_names_foldl_put fs (by simp)

/-! ## Values are never made up -/

theorem mem_put {fs : List Field} {f g : Field} (h : g ∈ put fs f) :
    g ∈ fs ∨ g = f := by
  induction fs with
  | nil => exact Or.inr (List.mem_singleton.1 h)
  | cons a rest ih =>
    simp only [put] at h
    split at h
    · next hname =>
      rcases List.mem_cons.1 h with rfl | hr
      · right
        cases f
        simp_all
      · exact Or.inl (List.mem_cons_of_mem _ hr)
    · rcases List.mem_cons.1 h with rfl | hr
      · exact Or.inl List.mem_cons_self
      · exact (ih hr).imp (List.mem_cons_of_mem _) id

theorem mem_foldl_put {fs acc : List Field} {g : Field} (h : g ∈ fs.foldl put acc) :
    g ∈ acc ∨ g ∈ fs := by
  induction fs generalizing acc with
  | nil => exact Or.inl h
  | cons f rest ih =>
    rcases ih h with hp | hr
    · exact (mem_put hp).imp id fun e => List.mem_cons.2 (Or.inl e)
    · exact Or.inr (List.mem_cons_of_mem _ hr)

theorem mem_of_mem_dedup {fs : List Field} {g : Field} (h : g ∈ dedup fs) : g ∈ fs := by
  rcases mem_foldl_put h with h | h
  · exact absurd h (by simp)
  · exact h

end Field

end Logbook
