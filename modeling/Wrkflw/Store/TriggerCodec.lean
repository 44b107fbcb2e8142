import Wrkflw.Engine.Types
import Wrkflw.Library.Json

/-!
# The journal's trigger codec

`MarshalTrigger` and `UnmarshalTrigger` (`internal/persistence/store/trigger_codec.go`), with the envelope they share, the
journal rows `writeJournal` inserts and `Entries` reads back.

* `TriggerEnvelope`, `marshalEnvelope`, `unmarshalEnvelope` : the flat JSON shape;
* `marshalTrigger`, `unmarshalTrigger` : the two switches over the kinds;
* `envelope_round_trip` : the envelope is read as it was written;
* `trigger_codec_lossless_iff` : exactly which triggers come back as they were.

`encoding/json` is modelled on the documents' values (`Library.Json`), with its rules for `omitempty`, for missing keys and
for instants. A text is valid UTF-8, a jitter fraction is finite, and a time is its instant, in a zone of whole minutes: RFC
3339 has no seconds of a zone.
-/

namespace Wrkflw

open Library

/-! ## Values -/

/-- What is read of a value that was written: a number comes back as a `float64`, which the engine carries. -/
def Value.decoded : Value → Value
  | .str s => .str s
  | .int n => .other (toString n)
  | .other encoded => .other encoded

/-- The value is one that JSON has. -/
def Value.isJSON : Value → Bool
  | .int _ => false
  | _ => true

def Vars.IsJSON (m : Vars) : Prop := ∀ e ∈ m, e.2.isJSON = true

def valueJSON (v : Value) : Json Value := .any v

def readValue : Json Value → Option Value
  | .any v => some v.decoded
  | _ => none

def varsField : Vars → Option (Json Value) := mapField valueJSON

def readVars : Option (Json Value) → Option Vars := readOr [] (Json.map? readValue)

/-- `time.Time.MarshalJSON` writes the years 0 to 9999. -/
def writableTime (t : Time) : Bool :=
  let day : Int := 86400 * 1000000000
  decide (-366 * day ≤ t) && decide (t < 3652059 * day)

def stringsField : List String → Option (Json Value) := listField .str

def readStrings : Option (Json Value) → Option (List String) := readOr [] (Json.list? Json.text?)

/-- The fields of `authz.Actor`; `id` has no `omitempty`. -/
def actorFields : List (String × (Actor → Option (Json Value))) :=
  [("id", fun a => some (.str a.id)), ("roles", fun a => stringsField a.roles),
    ("privileges", fun a => stringsField a.privileges), ("attributes", fun a => varsField a.attributes)]

def actorJSON (a : Actor) : Json Value := .obj (encodeRecord actorFields a)

def readActor : Json Value → Option Actor
  | .obj doc => do
    let id ← readOr "" Json.text? (doc.lookup "id")
    let roles ← readStrings (doc.lookup "roles")
    let privileges ← readStrings (doc.lookup "privileges")
    let attributes ← readVars (doc.lookup "attributes")
    return { id, roles, privileges, attributes }
  | _ => none

/-! ## The envelope -/

/-- `triggerEnvelope`. -/
structure TriggerEnvelope where
  at_ : Time
  vars : Vars := []
  output : Vars := []
  payload : Vars := []
  commandID : String := ""
  err : String := ""
  retryable : Bool := false
  taskID : String := ""
  outcome : String := ""
  note : String := ""
  candidates : List Actor := []
  actor : Actor := { id := "" }
  from_ : String := ""
  to_ : String := ""
  by_ : Actor := { id := "" }
  timerID : String := ""
  name : String := ""
  correlationKey : String := ""
  toNode : String := ""
  reverseNode : String := ""
  resetVars : Bool := false
  restoreTargetVars : Bool := false
  jitter : Rat := 0
  incidentID : String := ""
  addAttempts : Int := 0
  disposition : Option Int := none

/-- The envelope's keys. `omitempty` leaves no struct out, and a pointer only when it is nil. -/
def envelopeFields : List (String × (TriggerEnvelope → Option (Json Value))) :=
  [("at", fun e => some (.time e.at_)),
    ("vars", fun e => varsField e.vars),
    ("output", fun e => varsField e.output),
    ("payload", fun e => varsField e.payload),
    ("command_id", fun e => textField e.commandID),
    ("err", fun e => textField e.err),
    ("retryable", fun e => boolField e.retryable),
    ("task_id", fun e => textField e.taskID),
    ("outcome", fun e => textField e.outcome),
    ("note", fun e => textField e.note),
    ("candidates", fun e => listField actorJSON e.candidates),
    ("actor", fun e => some (actorJSON e.actor)),
    ("from", fun e => textField e.from_),
    ("to", fun e => textField e.to_),
    ("by", fun e => some (actorJSON e.by_)),
    ("timer_id", fun e => textField e.timerID),
    ("name", fun e => textField e.name),
    ("correlation_key", fun e => textField e.correlationKey),
    ("to_node", fun e => textField e.toNode),
    ("reverse_node", fun e => textField e.reverseNode),
    ("reset_vars", fun e => boolField e.resetVars),
    ("restore_target_vars", fun e => boolField e.restoreTargetVars),
    ("jitter", fun e => numField e.jitter),
    ("incident_id", fun e => textField e.incidentID),
    ("add_attempts", fun e => intField e.addAttempts),
    ("disposition", fun e => e.disposition.map .int)]

/-- `json.Marshal(env)`: it fails on an instant it cannot write. -/
def marshalEnvelope (e : TriggerEnvelope) : Except String (Json Value) :=
  if writableTime e.at_ then .ok (.obj (encodeRecord envelopeFields e))
  else .error "workflow-store: marshal trigger: Time.MarshalJSON: year outside of range [0,9999]"

def readEnvelope (doc : List (String × Json Value)) : Option TriggerEnvelope := do
  let at_ ← readOr 0 Json.time? (doc.lookup "at")
  let vars ← readVars (doc.lookup "vars")
  let output ← readVars (doc.lookup "output")
  let payload ← readVars (doc.lookup "payload")
  let commandID ← readOr "" Json.text? (doc.lookup "command_id")
  let err ← readOr "" Json.text? (doc.lookup "err")
  let retryable ← readOr false Json.bool? (doc.lookup "retryable")
  let taskID ← readOr "" Json.text? (doc.lookup "task_id")
  let outcome ← readOr "" Json.text? (doc.lookup "outcome")
  let note ← readOr "" Json.text? (doc.lookup "note")
  let candidates ← readOr [] (Json.list? readActor) (doc.lookup "candidates")
  let actor ← readOr { id := "" } readActor (doc.lookup "actor")
  let from_ ← readOr "" Json.text? (doc.lookup "from")
  let to_ ← readOr "" Json.text? (doc.lookup "to")
  let by_ ← readOr { id := "" } readActor (doc.lookup "by")
  let timerID ← readOr "" Json.text? (doc.lookup "timer_id")
  let name ← readOr "" Json.text? (doc.lookup "name")
  let correlationKey ← readOr "" Json.text? (doc.lookup "correlation_key")
  let toNode ← readOr "" Json.text? (doc.lookup "to_node")
  let reverseNode ← readOr "" Json.text? (doc.lookup "reverse_node")
  let resetVars ← readOr false Json.bool? (doc.lookup "reset_vars")
  let restoreTargetVars ← readOr false Json.bool? (doc.lookup "restore_target_vars")
  let jitter ← readOr 0 Json.num? (doc.lookup "jitter")
  let incidentID ← readOr "" Json.text? (doc.lookup "incident_id")
  let addAttempts ← readOr 0 Json.int? (doc.lookup "add_attempts")
  let disposition ← readOr none (fun j => j.int?.map some) (doc.lookup "disposition")
  return { at_, vars, output, payload, commandID, err, retryable, taskID, outcome, note, candidates, actor, from_, to_, by_,
           timerID, name, correlationKey, toNode, reverseNode, resetVars, restoreTargetVars, jitter, incidentID,
           addAttempts, disposition }

/-- `json.Unmarshal(data, &env)`. -/
def unmarshalEnvelope (kind : String) (data : Json Value) : Except String TriggerEnvelope :=
  let failed := "workflow-store: unmarshal trigger " ++ quoted kind ++ ": json: cannot unmarshal"
  match data with
  | .obj doc =>
    match readEnvelope doc with
    | some e => .ok e
    | none => .error failed
  | _ => .error failed

/-! ## The switches -/

def kindStartInstance := "start_instance"
def kindActionCompleted := "action_completed"
def kindActionFailed := "action_failed"
def kindHumanCompleted := "human_completed"
def kindHumanClaimed := "human_claimed"
def kindHumanCandidatesRes := "human_candidates_resolved"
def kindHumanReassigned := "human_reassigned"
def kindTimerFired := "timer_fired"
def kindSignalReceived := "signal_received"
def kindMessageReceived := "message_received"
def kindSubInstanceCompleted := "sub_instance_completed"
def kindSubInstanceFailed := "sub_instance_failed"
def kindCompensateRequested := "compensate_requested"
def kindCancelRequested := "cancel_requested"
def kindResolveIncident := "resolve_incident"
def kindResolveCompStall := "resolve_compensation_stall"

/-- `int(v.Disposition)`. -/
def CompensationDisposition.toInt : CompensationDisposition → Int
  | .retry => 0
  | .skip => 1
  | .abandon => 2

/-- `CompensationDisposition(n)`; the engine declares no other value. -/
def CompensationDisposition.ofInt? (n : Int) : Option CompensationDisposition :=
  if n = 0 then some .retry else if n = 1 then some .skip else if n = 2 then some .abandon else none

/-- The kind and the envelope of a trigger. -/
def envelopeOf (t : Trigger) : String × TriggerEnvelope :=
  let env : TriggerEnvelope := { at_ := t.occurredAt }
  match t.body with
  | .startInstance vars _ => (kindStartInstance, { env with vars := vars })
  | .actionCompleted commandID output => (kindActionCompleted, { env with commandID := commandID, output := output })
  | .actionFailed commandID err retryable jitter _ =>
    (kindActionFailed, { env with commandID := commandID, err := err, retryable := retryable, jitter := jitter })
  | .humanCompleted taskID outcome note output actor =>
    (kindHumanCompleted, { env with taskID := taskID, output := output, actor := actor, outcome := outcome, note := note })
  | .humanCandidatesResolved taskID candidates =>
    (kindHumanCandidatesRes, { env with taskID := taskID, candidates := candidates })
  | .humanClaimed taskID actor => (kindHumanClaimed, { env with taskID := taskID, actor := actor })
  | .humanReassigned taskID from_ to_ by_ =>
    (kindHumanReassigned, { env with taskID := taskID, from_ := from_, to_ := to_, by_ := by_ })
  | .timerFired timerID => (kindTimerFired, { env with timerID := timerID })
  | .signalReceived name payload => (kindSignalReceived, { env with name := name, payload := payload })
  | .messageReceived name correlationKey payload =>
    (kindMessageReceived, { env with name := name, correlationKey := correlationKey, payload := payload })
  | .subInstanceCompleted commandID output =>
    (kindSubInstanceCompleted, { env with commandID := commandID, output := output })
  | .subInstanceFailed commandID err => (kindSubInstanceFailed, { env with commandID := commandID, err := err })
  | .compensateRequested toNode reverseNode resetVars restoreTargetVars =>
    (kindCompensateRequested, { env with
      toNode := toNode, reverseNode := reverseNode, resetVars := resetVars, restoreTargetVars := restoreTargetVars })
  | .cancelRequested => (kindCancelRequested, env)
  | .resolveIncident incidentID addAttempts =>
    (kindResolveIncident, { env with incidentID := incidentID, addAttempts := addAttempts })
  | .resolveCompensationStall commandID incidentID disposition =>
    (kindResolveCompStall, { env with
      commandID := commandID, incidentID := incidentID, disposition := some disposition.toInt })

/-- `MarshalTrigger`: the document and the kind. -/
def marshalTrigger (t : Trigger) : Except String (Json Value × String) := do
  let data ← marshalEnvelope (envelopeOf t).2
  return (data, (envelopeOf t).1)

/-- The trigger of a kind and an envelope; `none` for an unknown kind. -/
def triggerOf (kind : String) (e : TriggerEnvelope) : Option Trigger :=
  let built := fun (body : TriggerBody) => some (⟨e.at_, body⟩ : Trigger)
  if kind == kindStartInstance then built (.startInstance e.vars "")
  else if kind == kindActionCompleted then built (.actionCompleted e.commandID e.output)
  else if kind == kindActionFailed then built (.actionFailed e.commandID e.err e.retryable e.jitter none)
  else if kind == kindHumanCompleted then built (.humanCompleted e.taskID e.outcome e.note e.output e.actor)
  else if kind == kindHumanCandidatesRes then built (.humanCandidatesResolved e.taskID e.candidates)
  else if kind == kindHumanClaimed then built (.humanClaimed e.taskID e.actor)
  else if kind == kindHumanReassigned then built (.humanReassigned e.taskID e.from_ e.to_ e.by_)
  else if kind == kindTimerFired then built (.timerFired e.timerID)
  else if kind == kindSignalReceived then built (.signalReceived e.name e.payload)
  else if kind == kindMessageReceived then built (.messageReceived e.name e.correlationKey e.payload)
  else if kind == kindSubInstanceCompleted then built (.subInstanceCompleted e.commandID e.output)
  else if kind == kindSubInstanceFailed then built (.subInstanceFailed e.commandID e.err)
  else if kind == kindCompensateRequested then
    built (.compensateRequested e.toNode e.reverseNode e.resetVars e.restoreTargetVars)
  else if kind == kindCancelRequested then built .cancelRequested
  else if kind == kindResolveIncident then built (.resolveIncident e.incidentID e.addAttempts)
  else if kind == kindResolveCompStall then
    -- a missing disposition is the zero one
    (CompensationDisposition.ofInt? (e.disposition.getD 0)).bind (fun disposition =>
      built (.resolveCompensationStall e.commandID e.incidentID disposition))
  else none

/-- `UnmarshalTrigger`. -/
def unmarshalTrigger (kind : String) (data : Json Value) : Except String Trigger := do
  let e ← unmarshalEnvelope kind data
  match triggerOf kind e with
  | some t => return t
  | none => throw ("workflow-store: unmarshal trigger: unknown kind " ++ quoted kind)

/-! ## The journal -/

/-- `writeJournal`, for the triggers of the committed steps in order. -/
def writeJournal (ts : List Trigger) : Except String (List (Json Value × String)) := ts.mapM marshalTrigger

/-- `Entries`. -/
def entries (rows : List (Json Value × String)) : Except String (List Trigger) :=
  rows.mapM (fun row => unmarshalTrigger row.2 row.1)

/-! ## Reading back -/

theorem Value.decoded_of_isJSON {v : Value} (h : v.isJSON = true) : v.decoded = v := by
  cases v with
  | str s => rfl
  | int n => cases h
  | other encoded => rfl

theorem readVars_varsField {m : Vars} (h : m.IsJSON) : readVars (varsField m) = some m := by
  have hvalue : ∀ e ∈ m, readValue (valueJSON e.2) = some e.2.decoded := fun e _ => rfl
  have hread := readMap_mapField hvalue
  have hback : m.map (fun e => (e.1, e.2.decoded)) = m := by
    refine (List.map_congr_left (fun e he => ?_)).trans (List.map_id m)
    rw [Value.decoded_of_isJSON (h e he)]
    rfl
  rw [hback] at hread
  exact hread

theorem readStrings_stringsField (l : List String) : readStrings (stringsField l) = some l :=
  readList_listField (fun _ _ => rfl)

theorem actor_round_trip {a : Actor} (h : a.attributes.IsJSON) : readActor (actorJSON a) = some a := by
  have hkeys : (actorFields.map Prod.fst).Nodup := by decide
  have hfound : ∀ (i : Nat) {k : String} {f : Actor → Option (Json Value)}, actorFields[i]? = some (k, f) →
      (encodeRecord actorFields a).lookup k = f a := fun i _ _ hi => lookup_encodeRecord hkeys (List.mem_of_getElem? hi) a
  have hid : readOr "" Json.text? (some (.str a.id) : Option (Json Value)) = some a.id := rfl
  unfold readActor actorJSON
  dsimp only
  rw [hfound 0 rfl, hfound 1 rfl, hfound 2 rfl, hfound 3 rfl, hid, readStrings_stringsField, readStrings_stringsField,
    readVars_varsField h]
  rfl

/-- The maps of the envelope are JSON ones. -/
structure TriggerEnvelope.IsJSON (e : TriggerEnvelope) : Prop where
  vars : e.vars.IsJSON
  output : e.output.IsJSON
  payload : e.payload.IsJSON
  candidates : ∀ a ∈ e.candidates, a.attributes.IsJSON
  actor : e.actor.attributes.IsJSON
  by_ : e.by_.attributes.IsJSON

theorem envelope_keys : (envelopeFields.map Prod.fst).Nodup := by decide

theorem envelope_found (e : TriggerEnvelope) (i : Nat) {k : String} {f : TriggerEnvelope → Option (Json Value)}
    (hi : envelopeFields[i]? = some (k, f)) : (encodeRecord envelopeFields e).lookup k = f e :=
  lookup_encodeRecord envelope_keys (List.mem_of_getElem? hi) e

/-- The envelope is read as it was written. -/
theorem envelope_round_trip {e : TriggerEnvelope} (h : e.IsJSON) : readEnvelope (encodeRecord envelopeFields e) = some e := by
  have htime : readOr 0 Json.time? (some (.time e.at_) : Option (Json Value)) = some e.at_ := rfl
  have hactor : ∀ {a : Actor}, a.attributes.IsJSON → readOr { id := "" } readActor (some (actorJSON a)) = some a :=
    fun ha => actor_round_trip ha
  have hdisp : readOr none (fun j => j.int?.map some) (e.disposition.map Json.int : Option (Json Value)) =
      some e.disposition := by
    cases e.disposition with
    | none => rfl
    | some n => rfl
  unfold readEnvelope
  rw [envelope_found e 0 rfl, envelope_found e 1 rfl, envelope_found e 2 rfl, envelope_found e 3 rfl,
    envelope_found e 4 rfl, envelope_found e 5 rfl, envelope_found e 6 rfl, envelope_found e 7 rfl, envelope_found e 8 rfl,
    envelope_found e 9 rfl, envelope_found e 10 rfl, envelope_found e 11 rfl, envelope_found e 12 rfl,
    envelope_found e 13 rfl, envelope_found e 14 rfl, envelope_found e 15 rfl, envelope_found e 16 rfl,
    envelope_found e 17 rfl, envelope_found e 18 rfl, envelope_found e 19 rfl, envelope_found e 20 rfl,
    envelope_found e 21 rfl, envelope_found e 22 rfl, envelope_found e 23 rfl, envelope_found e 24 rfl,
    envelope_found e 25 rfl]
  rw [htime, readVars_varsField h.vars, readVars_varsField h.output, readVars_varsField h.payload,
    readList_listField (fun a ha => actor_round_trip (h.candidates a ha)), hactor h.actor, hactor h.by_, hdisp]
  simp only [readText_textField, readBool_boolField, readNum_numField, readInt_intField]
  rfl

/-! ## The round trip -/

/-- The trigger as the journal keeps it: the in-memory cause of a failure is not written. -/
def Trigger.persisted (t : Trigger) : Trigger :=
  { t with body := match t.body with
      | .actionFailed commandID err retryable jitter _ => .actionFailed commandID err retryable jitter none
      | body => body }

/-- The payload maps hold JSON values. -/
def TriggerBody.IsJSON : TriggerBody → Prop
  | .startInstance vars _ => vars.IsJSON
  | .actionCompleted _ output => output.IsJSON
  | .humanCompleted _ _ _ output actor => output.IsJSON ∧ actor.attributes.IsJSON
  | .humanCandidatesResolved _ candidates => ∀ a ∈ candidates, a.attributes.IsJSON
  | .humanClaimed _ actor => actor.attributes.IsJSON
  | .humanReassigned _ _ _ by_ => by_.attributes.IsJSON
  | .signalReceived _ payload => payload.IsJSON
  | .messageReceived _ _ payload => payload.IsJSON
  | .subInstanceCompleted _ output => output.IsJSON
  | _ => True

/-- The trigger starts no instance at a start node of its own. -/
def TriggerBody.startsManually : TriggerBody → Bool
  | .startInstance _ startNodeID => startNodeID == ""
  | _ => true

theorem Vars.isJSON_nil : Vars.IsJSON [] := fun e he => absurd he (by simp)

theorem envelopeOf_isJSON {t : Trigger} (h : t.body.IsJSON) : (envelopeOf t).2.IsJSON := by
  obtain ⟨at_, body⟩ := t
  have hnil := Vars.isJSON_nil
  have hnone : ∀ a ∈ ([] : List Actor), a.attributes.IsJSON := by simp
  cases body with
  | startInstance vars startNodeID => exact ⟨h, hnil, hnil, hnone, hnil, hnil⟩
  | actionCompleted commandID output => exact ⟨hnil, h, hnil, hnone, hnil, hnil⟩
  | humanCompleted taskID outcome note output actor => exact ⟨hnil, h.1, hnil, hnone, h.2, hnil⟩
  | humanCandidatesResolved taskID candidates => exact ⟨hnil, hnil, hnil, h, hnil, hnil⟩
  | humanClaimed taskID actor => exact ⟨hnil, hnil, hnil, hnone, h, hnil⟩
  | humanReassigned taskID from_ to_ by_ => exact ⟨hnil, hnil, hnil, hnone, hnil, h⟩
  | signalReceived name payload => exact ⟨hnil, hnil, h, hnone, hnil, hnil⟩
  | messageReceived name correlationKey payload => exact ⟨hnil, hnil, h, hnone, hnil, hnil⟩
  | subInstanceCompleted commandID output => exact ⟨hnil, h, hnil, hnone, hnil, hnil⟩
  | _ => exact ⟨hnil, hnil, hnil, hnone, hnil, hnil⟩

/-- What the switches make of a trigger: the start node is gone. -/
def Trigger.decoded (t : Trigger) : Trigger :=
  { t.persisted with body := match t.persisted.body with
      | .startInstance vars _ => .startInstance vars ""
      | body => body }

theorem triggerOf_envelopeOf (t : Trigger) : triggerOf (envelopeOf t).1 (envelopeOf t).2 = some t.decoded := by
  obtain ⟨at_, body⟩ := t
  cases body with
  | resolveCompensationStall commandID incidentID disposition => cases disposition <;> rfl
  | _ => rfl

theorem envelopeOf_at (t : Trigger) : (envelopeOf t).2.at_ = t.occurredAt := by
  obtain ⟨at_, body⟩ := t
  cases body <;> rfl

theorem decoded_eq_persisted_iff (t : Trigger) : t.decoded = t.persisted ↔ t.body.startsManually = true := by
  obtain ⟨at_, body⟩ := t
  cases body with
  | startInstance vars startNodeID =>
    change (⟨at_, .startInstance vars ""⟩ : Trigger) = ⟨at_, .startInstance vars startNodeID⟩ ↔ (startNodeID == "") = true
    rw [Trigger.mk.injEq, TriggerBody.startInstance.injEq, beq_iff_eq]
    constructor
    · rintro ⟨-, -, he⟩
      exact he.symm
    · rintro rfl
      exact ⟨rfl, rfl, rfl⟩
  | _ => exact ⟨fun _ => rfl, fun _ => rfl⟩

/-- What the codec makes of a trigger. -/
theorem unmarshal_marshal {t : Trigger} (h : t.body.IsJSON) :
    (marshalTrigger t).bind (fun row => unmarshalTrigger row.2 row.1) =
      if writableTime t.occurredAt then .ok t.decoded
      else .error "workflow-store: marshal trigger: Time.MarshalJSON: year outside of range [0,9999]" := by
  unfold marshalTrigger marshalEnvelope
  rw [envelopeOf_at]
  by_cases ht : writableTime t.occurredAt = true
  · rw [if_pos ht, if_pos ht]
    change unmarshalTrigger (envelopeOf t).1 (.obj (encodeRecord envelopeFields (envelopeOf t).2)) = .ok t.decoded
    have hread : unmarshalEnvelope (envelopeOf t).1 (.obj (encodeRecord envelopeFields (envelopeOf t).2)) =
        .ok (envelopeOf t).2 := by
      unfold unmarshalEnvelope
      dsimp only
      rw [envelope_round_trip (envelopeOf_isJSON h)]
    unfold unmarshalTrigger
    rw [hread]
    change (match triggerOf (envelopeOf t).1 (envelopeOf t).2 with
      | some t => Except.ok t
      | none => _) = _
    rw [triggerOf_envelopeOf]
  · rw [if_neg ht, if_neg ht]
    rfl

/-- A journal that is written has a row for each trigger. -/
theorem marshal_of_writeJournal {t : Trigger} {ts : List Trigger} {rows : List (Json Value × String)}
    (h : writeJournal ts = .ok rows) (ht : t ∈ ts) : ∃ row, marshalTrigger t = .ok row := by
  unfold writeJournal at h
  induction ts generalizing rows with
  | nil => cases ht
  | cons t' ts ih =>
    rw [List.mapM_cons] at h
    cases hrow : marshalTrigger t' with
    | error err =>
      rw [hrow] at h
      cases h
    | ok row =>
      rw [hrow] at h
      cases hrest : ts.mapM marshalTrigger with
      | error err =>
        rw [hrest] at h
        cases h
      | ok rows' =>
        rcases List.mem_cons.mp ht with rfl | ht
        · exact ⟨row, hrow⟩
        · exact ih hrest ht

/-- What the journal makes of the triggers of the committed steps. -/
theorem entries_writeJournal {ts : List Trigger} (h : ∀ t ∈ ts, t.body.IsJSON)
    (htime : ∀ t ∈ ts, writableTime t.occurredAt = true) :
    (writeJournal ts).bind entries = .ok (ts.map Trigger.decoded) := by
  have hrow : ∀ t ∈ ts, ∃ row, marshalTrigger t = .ok row ∧ unmarshalTrigger row.2 row.1 = .ok t.decoded := by
    intro t ht
    have hback := unmarshal_marshal (h t ht)
    rw [if_pos (htime t ht)] at hback
    cases hrow : marshalTrigger t with
    | error err =>
      rw [hrow] at hback
      cases hback
    | ok row =>
      rw [hrow] at hback
      exact ⟨row, rfl, hback⟩
  clear h htime
  have hall : ∃ rows, writeJournal ts = .ok rows ∧ entries rows = .ok (ts.map Trigger.decoded) := by
    unfold writeJournal entries
    induction ts with
    | nil => exact ⟨[], rfl, rfl⟩
    | cons t ts ih =>
      obtain ⟨row, hmarshal, hunmarshal⟩ := hrow t List.mem_cons_self
      obtain ⟨rows, hwrite, hread⟩ := ih (fun t' ht' => hrow t' (List.mem_cons_of_mem _ ht'))
      refine ⟨row :: rows, ?_, ?_⟩
      · rw [List.mapM_cons, hmarshal, hwrite]
        rfl
      · rw [List.mapM_cons, hunmarshal, hread]
        rfl
  obtain ⟨rows, hwrite, hread⟩ := hall
  rw [hwrite]
  exact hread

/-- The codec reads the trigger as it was, but for the cause of a failure. -/
def Lossless (t : Trigger) : Prop :=
  ∃ data kind, marshalTrigger t = .ok (data, kind) ∧ unmarshalTrigger kind data = .ok t.persisted

/-- A trigger with JSON payloads survives the codec exactly when it starts nothing at a node of its own, at an instant that
can be written; and a journal reads back the committed triggers exactly when each of them survives. -/
theorem trigger_codec_lossless_iff (t : Trigger) (ts : List Trigger) (h : t.body.IsJSON) (hs : ∀ t ∈ ts, t.body.IsJSON) :
    (Lossless t ↔ t.body.startsManually = true ∧ writableTime t.occurredAt = true) ∧
      ((writeJournal ts).bind entries = .ok (ts.map Trigger.persisted) ↔
        ∀ t ∈ ts, t.body.startsManually = true ∧ writableTime t.occurredAt = true) := by
  have hback : ∀ {t : Trigger}, t.body.IsJSON →
      (Lossless t ↔ t.body.startsManually = true ∧ writableTime t.occurredAt = true) := by
    intro t h
    have hcodec := unmarshal_marshal h
    constructor
    · rintro ⟨data, kind, hmarshal, hunmarshal⟩
      rw [hmarshal] at hcodec
      change unmarshalTrigger kind data = _ at hcodec
      rw [hunmarshal] at hcodec
      by_cases htime : writableTime t.occurredAt = true
      · rw [if_pos htime] at hcodec
        exact ⟨(decoded_eq_persisted_iff t).mp (Except.ok.inj hcodec).symm, htime⟩
      · rw [if_neg htime] at hcodec
        cases hcodec
    · rintro ⟨hmanual, htime⟩
      rw [if_pos htime, (decoded_eq_persisted_iff t).mpr hmanual] at hcodec
      cases hmarshal : marshalTrigger t with
      | error err =>
        rw [hmarshal] at hcodec
        cases hcodec
      | ok row =>
        rw [hmarshal] at hcodec
        exact ⟨row.1, row.2, hmarshal, hcodec⟩
  refine ⟨hback h, ?_⟩
  constructor
  · intro hread t ht
    -- every row was written, so every instant can be; then the rows are compared one by one
    have htime : ∀ t ∈ ts, writableTime t.occurredAt = true := by
      intro t ht
      cases hwrite : writeJournal ts with
      | error err =>
        rw [hwrite] at hread
        cases hread
      | ok rows =>
        obtain ⟨row, hrow⟩ := marshal_of_writeJournal hwrite ht
        unfold marshalTrigger marshalEnvelope at hrow
        rw [envelopeOf_at] at hrow
        by_contra hno
        rw [if_neg hno] at hrow
        cases hrow
    rw [entries_writeJournal hs htime] at hread
    exact ⟨(decoded_eq_persisted_iff t).mp (List.map_inj_left.mp (Except.ok.inj hread) t ht), htime t ht⟩
  · intro hall
    rw [entries_writeJournal hs (fun t ht => (hall t ht).2)]
    congr 1
    exact List.map_congr_left (fun t ht => (decoded_eq_persisted_iff t).mpr (hall t ht).1)

/-- A started and completed instance's journal reads back. -/
theorem manual_journal_lossless :
    Lossless ⟨7, .humanCompleted "i-h1" "approve" "" [("amount", .other "3.5")] { id := "ann", roles := ["clerk"] }⟩ ∧
    (writeJournal [⟨1, .startInstance [("order", .str "o-1")] ""⟩,
    ⟨2, .actionFailed "i-c1" "down" true (1 / 2) (some "timeout")⟩]).bind
      entries = .ok [⟨1, .startInstance [("order", .str "o-1")] ""⟩, ⟨2, .actionFailed "i-c1" "down" true (1 / 2) none⟩] := by
  have hboth := trigger_codec_lossless_iff
    ⟨7, .humanCompleted "i-h1" "approve" "" [("amount", .other "3.5")] { id := "ann", roles := ["clerk"] }⟩
    [⟨1, .startInstance [("order", .str "o-1")] ""⟩, ⟨2, .actionFailed "i-c1" "down" true (1 / 2) (some "timeout")⟩]
    ⟨by simp [Vars.IsJSON, Value.isJSON], by simp [Vars.IsJSON]⟩
    (by simp [TriggerBody.IsJSON, Vars.IsJSON, Value.isJSON])
  exact ⟨hboth.1.mpr ⟨rfl, by decide⟩, hboth.2.mpr (by simp [TriggerBody.startsManually]; decide)⟩

/-- An instance started at the event start node `onOrder`: the journal's trigger starts it at the manual start. -/
theorem event_start_not_lossless : TriggerBody.IsJSON (.startInstance [] "onOrder") ∧
    ¬ Lossless ⟨1, .startInstance [] "onOrder"⟩ ∧
    (writeJournal [⟨1, .startInstance [] "onOrder"⟩]).bind entries = .ok [⟨1, .startInstance [] ""⟩] := by
  have hjson : TriggerBody.IsJSON (.startInstance [] "onOrder") := Vars.isJSON_nil
  refine ⟨hjson, ?_, ?_⟩
  · rintro ⟨data, kind, hmarshal, hunmarshal⟩
    have hcodec := unmarshal_marshal (t := ⟨1, .startInstance [] "onOrder"⟩) hjson
    rw [hmarshal] at hcodec
    have hsame := hunmarshal.symm.trans hcodec
    rw [if_pos (by decide)] at hsame
    exact absurd (Except.ok.inj hsame) (by decide)
  · have hall : ∀ t ∈ [(⟨1, .startInstance [] "onOrder"⟩ : Trigger)], t.body.IsJSON := by simpa using hjson
    exact entries_writeJournal hall (by decide)

end Wrkflw
