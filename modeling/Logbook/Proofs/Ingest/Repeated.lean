import Logbook.Proofs.Ingest.Shape

set_option autoImplicit false

/-! # Names that a row repeats

Extra fields and the message are written over the first field of their name, and repetitions are
resolved afterwards, when the last value of a name wins. So an extra field is stored just if no
other value of its name lies behind the first field of that name
(**`Classifier.extra_field_stored_iff`**), and the field that is chosen as the message is the
message just if no other message lies behind it (**`Classifier.chosen_message_stored_iff`**). -/

namespace Logbook

namespace Classifier

variable {c : Classifier} {row : DecodedRow} {name value : String}

/-! ## Extra fields -/

/-- The fields of a row that the extra fields are written over. -/
def carried (c : Classifier) (row : DecodedRow) : List Field :=
  row.streamFields ++ renameMessage c.msgFields row.otherFields

/-- The value of a name that an extra field gives a value. -/
theorem get?_apply_of_extra (now : Timestamp) (hextra : Field.last? c.extraFields name = some value)
    (hvalue : value ≠ "") (hreserved : isReservedName name = false)
    (hignored : name ∉ c.ignoreFields) :
    (c.apply now row).get? name
      = some ((Field.last? ((Field.behind name (c.carried row)).filter c.keeps) name).getD
          value) := by
  have hkeeps : c.keeps ⟨name, value⟩ = true := keeps_iff.2 ⟨hreserved, hignored, Or.inr hvalue⟩
  show Field.last? (c.fields row) name = _
  rw [last?_fields]
  show (Field.last? ((c.extraFields.foldl Field.put (c.carried row)).filter c.keeps) name).or _ = _
  rw [Field.last?_filter_foldl_put_of_last? hextra hkeeps]
  cases Field.last? ((Field.behind name (c.carried row)).filter c.keeps) name <;> rfl

/-- **An extra field is stored just if the fields that repeat its name end in its value**: of the
    fields of that name behind the first one, the last that is kept, if any is, has the value of the
    extra field. -/
theorem extra_field_stored_iff (c : Classifier) (row : DecodedRow) (now : Timestamp)
    (name value : String) (hextra : Field.last? c.extraFields name = some value)
    (hvalue : value ≠ "") (hreserved : isReservedName name = false)
    (hignored : name ∉ c.ignoreFields) :
    (c.apply now row).get? name = some value
      ↔ ∀ other, Field.last? ((Field.behind name (c.carried row)).filter c.keeps) name = some other
          → other = value := by
  rw [get?_apply_of_extra now hextra hvalue hreserved hignored, Option.some_inj]
  cases Field.last? ((Field.behind name (c.carried row)).filter c.keeps) name with
  | none => simp
  | some other => simp

/-- Says the environment. -/
def sampleWithEnv : Classifier where
  extraFields := [⟨"env", "test"⟩, ⟨"env", "prod"⟩]

/-- A row that names its environment twice. -/
def sampleTwoEnvs : DecodedRow :=
  ⟨some 5, [⟨"env", "dev"⟩], [⟨"env", "stage"⟩, ⟨msgName, "started"⟩]⟩

/-- A row that names its environment twice keeps the second one. -/
theorem second_env_stays :
    Field.last? sampleWithEnv.extraFields "env" = some "prod" ∧ "prod" ≠ "" ∧
      isReservedName "env" = false ∧ "env" ∉ sampleWithEnv.ignoreFields ∧
      (sampleWithEnv.apply 0 sampleTwoEnvs).get? "env" ≠ some "prod" := by
  have hextra : Field.last? sampleWithEnv.extraFields "env" = some "prod" := by decide +kernel
  have hreserved : isReservedName "env" = false := by decide +kernel
  refine ⟨hextra, by decide, hreserved, List.not_mem_nil, ?_⟩
  intro hstored
  have hend := (extra_field_stored_iff sampleWithEnv sampleTwoEnvs 0 "env" "prod" hextra (by decide)
    hreserved List.not_mem_nil).1 hstored "stage" (by decide +kernel)
  exact absurd hend (by decide)

/-! ## The message -/

theorem find?_candidates (names : List String) (fields : List Field) :
    (names.find? fun name => fields.any (·.name == name))
      = names.find? (Field.names fields).contains := by
  congr 1
  funext name
  rw [Bool.eq_iff_iff]
  simp [Field.names]

theorem renameMessage_of_chosen {names : List String} {fields : List Field}
    (h : names.find? (Field.names fields).contains = some name) :
    renameMessage names fields = renameFirst name msgName fields := by
  unfold renameMessage
  rw [find?_candidates, h]

/-- The renamed field is read under its new name unless a later field of that name is kept. -/
theorem last?_filter_renameFirst_new {newName : String} {p : Field → Bool} {fields : List Field}
    (h : Field.first? fields name = some value) (hp : p ⟨newName, value⟩ = true) :
    Field.last? ((renameFirst name newName fields).filter p) newName
      = (Field.last? ((Field.behind name fields).filter p) newName).or (some value) := by
  induction fields with
  | nil => cases h
  | cons f rest ih =>
    rw [Field.first?_cons] at h
    rw [renameFirst, Field.behind]
    by_cases hf : f.name = name
    · rw [if_pos hf] at h
      cases h
      rw [if_pos hf, if_pos hf, List.filter_cons_of_pos hp, Field.last?_cons, if_pos rfl]
    · rw [if_neg hf] at h
      rw [if_neg hf, if_neg hf, List.filter_cons]
      split
      · rw [Field.last?_cons, ih h, Option.or_assoc, Option.some_or]
      · exact ih h

/-- The message of a row one of whose fields is chosen as the message. -/
theorem message_apply_of_chosen (now : Timestamp)
    (hchosen : c.msgFields.find? (Field.names row.otherFields).contains = some name)
    (hextra : msgName ∉ Field.names c.extraFields) (hignored : msgName ∉ c.ignoreFields)
    (hvalue : Field.first? row.otherFields name = some value) :
    (c.apply now row).message
      = (Field.last? (Field.behind name row.otherFields) msgName).getD value := by
  have hkeeps : ∀ v, c.keeps ⟨msgName, v⟩ = true := fun v => keeps_message_iff.2 hignored
  have hbehind : Field.last? ((Field.behind name row.otherFields).filter c.keeps) msgName
      = Field.last? (Field.behind name row.otherFields) msgName := by
    have hall : ∀ f ∈ Field.behind name row.otherFields, f.name = msgName →
        c.keeps f = (fun _ => true) f := by
      intro f _ hf
      rw [← hkeeps f.value, ← hf]
    rw [Field.last?_filter_congr hall, List.filter_true]
  have hcarried : Field.last? ((c.overridden row).filter c.keeps) msgName
      = some ((Field.last? (Field.behind name row.otherFields) msgName).getD value) := by
    unfold overridden
    rw [Field.last?_filter_foldl_put hextra, renameMessage_of_chosen hchosen, List.filter_append,
      Field.last?_append, last?_filter_renameFirst_new hvalue (hkeeps value), hbehind]
    cases Field.last? (Field.behind name row.otherFields) msgName <;> rfl
  show (Field.last? (c.fields row) msgName).getD "" = _
  rw [last?_fields, hcarried, Option.some_or, Option.getD_some]

/-- **The field that is chosen as the message is the message just if no message lies behind it that
    says something else.** -/
theorem chosen_message_stored_iff (c : Classifier) (row : DecodedRow) (now : Timestamp)
    (name value : String)
    (hchosen : c.msgFields.find? (Field.names row.otherFields).contains = some name)
    (hextra : msgName ∉ Field.names c.extraFields) (hignored : msgName ∉ c.ignoreFields)
    (hvalue : Field.first? row.otherFields name = some value) :
    (c.apply now row).message = value
      ↔ ∀ other, Field.last? (Field.behind name row.otherFields) msgName = some other
          → other = value := by
  rw [message_apply_of_chosen now hchosen hextra hignored hvalue]
  cases Field.last? (Field.behind name row.otherFields) msgName with
  | none => simp
  | some other => simp

/-- Takes the message from another field. -/
def sampleFromLog : Classifier where
  msgFields := ["message", "log"]

/-- A row with messages around the field that is chosen. -/
def sampleMessages : DecodedRow :=
  ⟨some 5, [⟨msgName, "first"⟩],
    [⟨msgName, "second"⟩, ⟨"log", "chosen"⟩, ⟨"log", "third"⟩, ⟨msgName, "fourth"⟩]⟩

/-- The message behind the field that is chosen stays the message. -/
theorem later_message_stays :
    sampleFromLog.msgFields.find? (Field.names sampleMessages.otherFields).contains = some "log" ∧
      msgName ∉ Field.names sampleFromLog.extraFields ∧ msgName ∉ sampleFromLog.ignoreFields ∧
      Field.first? sampleMessages.otherFields "log" = some "chosen" ∧
      (sampleFromLog.apply 0 sampleMessages).message ≠ "chosen" := by
  have hchosen : sampleFromLog.msgFields.find?
      (Field.names sampleMessages.otherFields).contains = some "log" := by
    decide +kernel
  have hvalue : Field.first? sampleMessages.otherFields "log" = some "chosen" := by decide +kernel
  refine ⟨hchosen, List.not_mem_nil, List.not_mem_nil, hvalue, ?_⟩
  intro hstored
  have hend := (chosen_message_stored_iff sampleFromLog sampleMessages 0 "log" "chosen" hchosen
    List.not_mem_nil List.not_mem_nil hvalue).1 hstored "fourth" (by decide +kernel)
  exact absurd hend (by decide)

end Classifier

end Logbook
