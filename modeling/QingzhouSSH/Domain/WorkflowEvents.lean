/-
  QingzhouSSH.Domain.WorkflowEvents — the events of a workflow run.

  An event is written to the database as redacted JSON of at most 32 KiB and read back
  for the interface.

  Main results:
    * `ofValue_redacted` — a redacted event reads back, with its free texts redacted;
    * `fits_of_short` — an event without a long free text is never too long.
-/
import QingzhouSSH.Core.Redaction
import QingzhouSSH.Domain.WorkflowRun

namespace QingzhouSSH.Domain

open String (utf8Len)
open QingzhouSSH.Core.Redaction (Redactor isSensitiveKey redact_plain)

/-! ## §1. Payloads. -/

inductive WorkflowEventPayload where
  | runStarted (runId workflowId : Uuid) (serverId : Text)
  | runStatusChanged (runId : Uuid) (status : WorkflowRunStatus) (message : Option Text)
  | nodeStarted (runId nodeId : Uuid) (attempt : Attempt)
  | nodeStatusChanged (runId nodeId : Uuid) (attempt : Attempt) (status : WorkflowNodeStatus)
      (executionId : Option Uuid) (message : Option Text)
  | conditionEvaluated (runId nodeId : Uuid) (result : Bool)
  | restorePointChanged (runId nodeId restorePointId : Uuid) (status : Text)
  | finished (runId : Uuid) (status : WorkflowRunStatus) (durationMs : Fin (2 ^ 64))

/-- An attempt number or a duration as a JSON number. -/
def natValue (n : Fin (2 ^ 64)) : Value := .int ⟨n.val, by omega, by omega⟩

def attemptValue (attempt : Attempt) : Value := natValue ⟨attempt.val, by omega⟩

/-- `None` is `null`. -/
def optionValue {α : Type} (toValue : α → Value) : Option α → Value
  | some a => toValue a
  | none => .null

def uuidValue (id : Uuid) : Value := .string id.text

/-- An object, its fields given with their names. -/
def objectValue (fields : List (String × Value)) : Value :=
  .object (fields.map fun field => (field.1.toList, field.2))

namespace WorkflowEventPayload

/-- `serde_json::to_value`, the fields in key order. -/
def toValue : WorkflowEventPayload → Value
  | runStarted runId workflowId serverId =>
      objectValue [("runId", uuidValue runId), ("serverId", .string serverId),
        ("type", .string "runStarted".toList), ("workflowId", uuidValue workflowId)]
  | runStatusChanged runId status message =>
      objectValue [("message", optionValue .string message), ("runId", uuidValue runId),
        ("status", .string status.asStr), ("type", .string "runStatusChanged".toList)]
  | nodeStarted runId nodeId attempt =>
      objectValue [("attempt", attemptValue attempt), ("nodeId", uuidValue nodeId),
        ("runId", uuidValue runId), ("type", .string "nodeStarted".toList)]
  | nodeStatusChanged runId nodeId attempt status executionId message =>
      objectValue [("attempt", attemptValue attempt),
        ("executionId", optionValue uuidValue executionId),
        ("message", optionValue .string message), ("nodeId", uuidValue nodeId),
        ("runId", uuidValue runId), ("status", .string status.asStr),
        ("type", .string "nodeStatusChanged".toList)]
  | conditionEvaluated runId nodeId result =>
      objectValue [("nodeId", uuidValue nodeId), ("result", .bool result),
        ("runId", uuidValue runId), ("type", .string "conditionEvaluated".toList)]
  | restorePointChanged runId nodeId restorePointId status =>
      objectValue [("nodeId", uuidValue nodeId), ("restorePointId", uuidValue restorePointId),
        ("runId", uuidValue runId), ("status", .string status),
        ("type", .string "restorePointChanged".toList)]
  | finished runId status durationMs =>
      objectValue [("durationMs", natValue durationMs), ("runId", uuidValue runId),
        ("status", .string status.asStr), ("type", .string "finished".toList)]

end WorkflowEventPayload

/-! ## §2. Reading back. -/

section Reading

variable (fields : List (Text × Value))

def textField (name : String) : Option Text := (Value.getField fields name.toList).bind Value.asStr

def uuidField (name : String) : Option Uuid := (textField fields name).bind Uuid.parseStr

def runStatusField (name : String) : Option WorkflowRunStatus :=
  (textField fields name).bind WorkflowRunStatus.fromStr

def nodeStatusField (name : String) : Option WorkflowNodeStatus :=
  (textField fields name).bind WorkflowNodeStatus.fromStr

/-- An optional field: absent and `null` are `None`. -/
def optionalField {α : Type} (read : String → Option α) (name : String) : Option (Option α) :=
  match Value.getField fields name.toList with
  | none | some .null => some none
  | some _ => (read name).map some

/-- A number below `bound`. -/
def natField (bound : Nat) (name : String) : Option (Fin bound) :=
  ((Value.getField fields name.toList).bind Value.asU64).bind fun n =>
    if h : n < bound then some ⟨n, h⟩ else none

def boolField (name : String) : Option Bool := (Value.getField fields name.toList).bind Value.asBool

end Reading

/-- `serde_json::from_value`. -/
def WorkflowEventPayload.ofValue (value : Value) : Option WorkflowEventPayload := do
  let fields ← value.asObject
  let tag ← textField fields "type"
  if tag = "runStarted".toList then
    return .runStarted (← uuidField fields "runId") (← uuidField fields "workflowId")
      (← textField fields "serverId")
  else if tag = "runStatusChanged".toList then
    return .runStatusChanged (← uuidField fields "runId") (← runStatusField fields "status")
      (← optionalField fields (textField fields) "message")
  else if tag = "nodeStarted".toList then
    return .nodeStarted (← uuidField fields "runId") (← uuidField fields "nodeId")
      (← natField fields (2 ^ 31) "attempt")
  else if tag = "nodeStatusChanged".toList then
    return .nodeStatusChanged (← uuidField fields "runId") (← uuidField fields "nodeId")
      (← natField fields (2 ^ 31) "attempt") (← nodeStatusField fields "status")
      (← optionalField fields (uuidField fields) "executionId")
      (← optionalField fields (textField fields) "message")
  else if tag = "conditionEvaluated".toList then
    return .conditionEvaluated (← uuidField fields "runId") (← uuidField fields "nodeId")
      (← boolField fields "result")
  else if tag = "restorePointChanged".toList then
    return .restorePointChanged (← uuidField fields "runId") (← uuidField fields "nodeId")
      (← uuidField fields "restorePointId") (← textField fields "status")
  else if tag = "finished".toList then
    return .finished (← uuidField fields "runId") (← runStatusField fields "status")
      (← natField fields (2 ^ 64) "durationMs")
  else none

/-! ## §3. Round trips. -/

theorem getField_cons (key name : String) (value : Value) (rest : List (Text × Value)) :
    Value.getField ((key.toList, value) :: rest) name.toList
      = if key = name then some value else Value.getField rest name.toList := by
  unfold Value.getField
  rw [List.find?_cons]
  by_cases hname : key = name
  · rw [if_pos hname, hname, beq_self_eq_true]
    rfl
  · rw [if_neg hname, beq_eq_false_iff_ne.mpr fun h => hname (String.toList_inj.mp h)]

theorem WorkflowRunStatus.fromStr_asStr (status : WorkflowRunStatus) :
    WorkflowRunStatus.fromStr status.asStr = some status := by
  cases status <;> decide

theorem WorkflowNodeStatus.fromStr_asStr (status : WorkflowNodeStatus) :
    WorkflowNodeStatus.fromStr status.asStr = some status := by
  cases status <;> decide

/-- **An event reads back as it was written.** -/
theorem WorkflowEventPayload.ofValue_toValue :
    ∀ payload : WorkflowEventPayload, WorkflowEventPayload.ofValue payload.toValue = some payload
  | runStarted _ _ _ | runStatusChanged _ _ none | runStatusChanged _ _ (some _)
  | nodeStarted _ _ _ | nodeStatusChanged _ _ _ _ none none
  | nodeStatusChanged _ _ _ _ none (some _) | nodeStatusChanged _ _ _ _ (some _) none
  | nodeStatusChanged _ _ _ _ (some _) (some _) | conditionEvaluated _ _ _
  | restorePointChanged _ _ _ _ | finished _ _ _ => by
      unfold WorkflowEventPayload.toValue WorkflowEventPayload.ofValue objectValue
      simp [textField, uuidField, runStatusField, nodeStatusField, natField, boolField,
        optionalField, optionValue, Value.asObject, Value.asStr, Value.asU64, Value.asBool,
        uuidValue, natValue, attemptValue, Uuid.parseStr_text, WorkflowRunStatus.fromStr_asStr,
        WorkflowNodeStatus.fromStr_asStr, getField_cons, String.toList_inj, -String.reduceToList]

/-! ## §4. Redacted events. -/

/-- `Redactor::default`. -/
def defaultRedactor : Redactor := { runtimeSecrets := [], nonempty := by simp }

/-- The event with its free texts redacted. -/
def WorkflowEventPayload.redacted : WorkflowEventPayload → WorkflowEventPayload
  | runStarted runId workflowId serverId =>
      runStarted runId workflowId (defaultRedactor.redact serverId)
  | runStatusChanged runId status message =>
      runStatusChanged runId status (message.map defaultRedactor.redact)
  | nodeStatusChanged runId nodeId attempt status executionId message =>
      nodeStatusChanged runId nodeId attempt status executionId
        (message.map defaultRedactor.redact)
  | restorePointChanged runId nodeId restorePointId status =>
      restorePointChanged runId nodeId restorePointId (defaultRedactor.redact status)
  | payload => payload

theorem redactJson_string (s : Text) :
    defaultRedactor.redactJson (.string s) = .string (defaultRedactor.redact s) := rfl

theorem redactJson_uuidValue (id : Uuid) :
    defaultRedactor.redactJson (uuidValue id) = uuidValue id := by
  unfold uuidValue
  rw [redactJson_string, redact_plain rfl]
  · refine ⟨' ', by decide, fun hblank => ?_⟩
    have := id.text_chars ' ' hblank
    revert this
    decide
  · intro c hc
    rcases id.text_chars c hc with rfl | hrange | hrange
    · decide
    · refine ⟨?_, ?_⟩ <;> rintro rfl <;> revert hrange <;> decide
    · refine ⟨?_, ?_⟩ <;> rintro rfl <;> revert hrange <;> decide

theorem redactJson_runStatus (status : WorkflowRunStatus) :
    defaultRedactor.redactJson (.string status.asStr) = .string status.asStr := by
  rw [redactJson_string, redact_plain rfl]
  · exact ⟨' ', by decide, by cases status <;> decide⟩
  · cases status <;> decide

theorem redactJson_nodeStatus (status : WorkflowNodeStatus) :
    defaultRedactor.redactJson (.string status.asStr) = .string status.asStr := by
  rw [redactJson_string, redact_plain rfl]
  · exact ⟨' ', by decide, by cases status <;> decide⟩
  · cases status <;> decide

/-- The names of the fields. -/
def eventFields : List String :=
  ["attempt", "durationMs", "executionId", "message", "nodeId", "restorePointId", "result",
    "runId", "serverId", "status", "type", "workflowId"]

theorem eventFields_plain : ∀ name ∈ eventFields, isSensitiveKey name.toList = false := by
  decide

/-- The types of events. -/
def eventTypes : List String :=
  ["runStarted", "runStatusChanged", "nodeStarted", "nodeStatusChanged", "conditionEvaluated",
    "restorePointChanged", "finished"]

theorem redactJson_eventType {name : String} (h : name ∈ eventTypes) :
    defaultRedactor.redactJson (.string name.toList) = .string name.toList := by
  rw [redactJson_string, redact_plain rfl]
  · exact ⟨' ', by decide, by revert name; decide⟩
  · revert name
    decide

/-- Where no name is sensitive, every field is redacted for itself. -/
theorem redactJson_fields (redactor : Redactor) {fields : List (String × Value)}
    (h : ∀ field ∈ fields, isSensitiveKey field.1.toList = false) :
    redactor.redactJson (objectValue fields)
      = objectValue (fields.map fun field => (field.1, redactor.redactJson field.2)) := by
  have hfields : redactor.redactFields (fields.map fun field => (field.1.toList, field.2))
      = (fields.map fun field => (field.1, redactor.redactJson field.2)).map
        fun field => (field.1.toList, field.2) := by
    induction fields with
    | nil => rfl
    | cons field rest ih =>
        rw [List.map_cons, Redactor.redactFields, h field List.mem_cons_self,
          ih fun other hother => h other (List.mem_cons_of_mem _ hother)]
        rfl
  unfold objectValue
  rw [Redactor.redactJson, hfields]

theorem redactJson_objectValue {fields : List (String × Value)}
    (h : ∀ field ∈ fields, field.1 ∈ eventFields) :
    defaultRedactor.redactJson (objectValue fields)
      = objectValue (fields.map fun field => (field.1, defaultRedactor.redactJson field.2)) :=
  redactJson_fields defaultRedactor fun field hfield => eventFields_plain field.1 (h field hfield)

/-- **Redaction touches the free texts of an event only.** -/
theorem WorkflowEventPayload.redactJson_toValue : ∀ payload : WorkflowEventPayload,
    defaultRedactor.redactJson payload.toValue = payload.redacted.toValue
  | runStarted _ _ _ | runStatusChanged _ _ none | runStatusChanged _ _ (some _)
  | nodeStarted _ _ _ | nodeStatusChanged _ _ _ _ none none
  | nodeStatusChanged _ _ _ _ none (some _) | nodeStatusChanged _ _ _ _ (some _) none
  | nodeStatusChanged _ _ _ _ (some _) (some _) | conditionEvaluated _ _ _
  | restorePointChanged _ _ _ _ | finished _ _ _ => by
      unfold WorkflowEventPayload.redacted WorkflowEventPayload.toValue
      rw [redactJson_objectValue (by simp [eventFields])]
      simp (disch := decide) only [List.map_cons, List.map_nil, optionValue,
        Option.map_some, Option.map_none, redactJson_uuidValue, redactJson_runStatus,
        redactJson_nodeStatus, redactJson_eventType, -String.reduceToList]
      rfl

/-- **A redacted event reads back, with its free texts redacted.** -/
theorem WorkflowEventPayload.ofValue_redacted (payload : WorkflowEventPayload) :
    WorkflowEventPayload.ofValue (defaultRedactor.redactJson payload.toValue)
      = some payload.redacted := by
  rw [redactJson_toValue, ofValue_toValue]

/-! ## §5. The length of an event. -/

/-- The text that is stored. -/
def WorkflowEventPayload.stored (payload : WorkflowEventPayload) : Text :=
  (defaultRedactor.redactJson payload.toValue).toJson

/-- `append_event` takes the event. -/
def WorkflowEventPayload.Fits (payload : WorkflowEventPayload) : Prop :=
  utf8Len payload.stored ≤ 32 * 1024

/-- The text of an event that is not from a fixed vocabulary. -/
def WorkflowEventPayload.freeText : WorkflowEventPayload → Text
  | runStarted _ _ serverId => serverId
  | runStatusChanged _ _ message | nodeStatusChanged _ _ _ _ _ message => message.getD []
  | restorePointChanged _ _ _ status => status
  | nodeStarted _ _ _ | conditionEvaluated _ _ _ | finished _ _ _ => []

theorem utf8Len_uuidValue (id : Uuid) : utf8Len (uuidValue id).toJson ≤ 3002 := by
  have hid := utf8Len_le_length id.text
  rw [id.length_text] at hid
  have := Value.utf8Len_jsonString_le id.text
  unfold uuidValue Value.toJson
  omega

theorem utf8Len_natValue (n : Fin (2 ^ 64)) : utf8Len (natValue n).toJson ≤ 3002 := by
  have hdigits : (showNat n.val).length ≤ 20 :=
    (Nat.length_toDigits_le_iff (by omega) (by omega)).mpr (by omega)
  have hlength := utf8Len_le_length (showNat n.val)
  unfold natValue Value.toJson
  show utf8Len (showNat n.val) ≤ 3002
  omega

theorem utf8Len_string {s : Text} (h : utf8Len s ≤ 500) :
    utf8Len (Value.string s).toJson ≤ 3002 := by
  have := Value.utf8Len_jsonString_le s
  unfold Value.toJson
  omega

theorem utf8Len_eventField : ∀ name ∈ eventFields, utf8Len (Value.jsonString name.toList) ≤ 20 := by
  decide

/-- **An event without a long text fits.** -/
theorem WorkflowEventPayload.fits_of_short {payload : WorkflowEventPayload}
    (h : utf8Len payload.redacted.freeText ≤ 500) : payload.Fits := by
  have hobject : ∀ fields : List (String × Value), fields.length ≤ 7 →
      (∀ field ∈ fields, field.1 ∈ eventFields ∧ utf8Len field.2.toJson ≤ 3002) →
      utf8Len (objectValue fields).toJson ≤ 32 * 1024 := by
    intro fields hcount hfields
    unfold objectValue
    have hle : utf8Len (Value.object (fields.map fun field => (field.1.toList, field.2))).toJson
        ≤ _ := Value.utf8Len_object (n := 3022) (by
        intro field hfield
        obtain ⟨original, hmem, rfl⟩ := List.mem_map.mp hfield
        obtain ⟨hname, hvalue⟩ := hfields original hmem
        have := utf8Len_eventField original.1 hname
        show utf8Len (Value.jsonString original.1.toList) + utf8Len original.2.toJson ≤ 3022
        omega)
    rw [List.length_map] at hle
    have : fields.length * (3022 + 2) ≤ 7 * (3022 + 2) := Nat.mul_le_mul_right _ hcount
    omega
  have hnull : utf8Len Value.null.toJson ≤ 3002 := by decide
  have hbool : ∀ b : Bool, utf8Len (Value.bool b).toJson ≤ 3002 := by decide
  have hrun : ∀ status : WorkflowRunStatus, utf8Len (Value.string status.asStr).toJson ≤ 3002 :=
    fun status => utf8Len_string (by cases status <;> decide)
  have hnode : ∀ status : WorkflowNodeStatus,
      utf8Len (Value.string status.asStr).toJson ≤ 3002 :=
    fun status => utf8Len_string (by cases status <;> decide)
  have htype : ∀ name ∈ eventTypes, utf8Len (Value.string name.toList).toJson ≤ 3002 :=
    fun name hname => utf8Len_string (by revert name; decide)
  have hmessage : ∀ message : Option Text, utf8Len (message.getD []) ≤ 500 →
      utf8Len (optionValue .string message).toJson ≤ 3002 := by
    intro message hshort
    cases message with
    | none => exact hnull
    | some m => exact utf8Len_string hshort
  have hexecution : ∀ id : Option Uuid, utf8Len (optionValue uuidValue id).toJson ≤ 3002 := by
    intro id
    cases id with
    | none => exact hnull
    | some id => exact utf8Len_uuidValue id
  unfold Fits stored
  rw [redactJson_toValue]
  cases payload <;> unfold redacted toValue <;> refine hobject _ (by simp) ?_ <;>
    unfold redacted freeText at h <;>
    simp (disch := decide) only [List.mem_cons, List.not_mem_nil, or_false, forall_eq_or_imp,
      forall_eq, eventFields, true_or, or_true, true_and, and_true, utf8Len_uuidValue, attemptValue,
      utf8Len_natValue, hrun, hnode, hbool, htype, hexecution, -String.reduceToList]
  case runStarted => exact utf8Len_string h
  case runStatusChanged => exact hmessage _ h
  case nodeStatusChanged => exact hmessage _ h
  case restorePointChanged => exact utf8Len_string h

end QingzhouSSH.Domain
