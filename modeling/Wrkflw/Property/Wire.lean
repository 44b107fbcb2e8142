import Wrkflw.Definition.Wire
import Wrkflw.Machine.Quiet

/-!
# Definitions survive the wire

What `MarshalJSON` writes, `UnmarshalJSON` reads: the same definition, without the checks of its error boundaries, which are
functions of the program that built it, and without what an end event carries for a behaviour it does not have.

* `nodeWire_round_trip` : the record of a node is read as it was written;
* `fromWire_toWire` : a record written for a node passes the gates of the decoder and gives the node back;
* `ruleFree_of_valid` : a definition that is accepted carries no rule;
* `definitions_survive_wire` : the result, over every nesting.
-/

namespace Wrkflw

open Library

/-! ## Records -/

theorem onlyKeys_encodeRecord {ρ : Type} (fields : List (String × (ρ → Option WireDoc))) (r : ρ) :
    onlyKeys fields (encodeRecord fields r) = true := by
  unfold onlyKeys
  rw [List.all_eq_true]
  intro e he
  obtain ⟨f, hf, hfe⟩ := List.mem_filterMap.mp he
  obtain ⟨v, -, rfl⟩ := Option.map_eq_some_iff.mp hfe
  exact List.contains_iff_mem.mpr (List.mem_map.mpr ⟨f, hf, rfl⟩)

/-- A key that is not the record's is not in its document. -/
theorem lookup_other {ρ : Type} {fields : List (String × (ρ → Option WireDoc))} {k : String}
    (hk : k ∉ fields.map Prod.fst) (r : ρ) :
    (encodeRecord fields r).lookup k = none := by
  rw [List.lookup_eq_none_iff]
  intro e he
  obtain ⟨f, hf, hfe⟩ := List.mem_filterMap.mp he
  obtain ⟨v, -, rfl⟩ := Option.map_eq_some_iff.mp hfe
  rw [bne_iff_ne]
  rintro rfl
  exact hk (List.mem_map.mpr ⟨f, hf, rfl⟩)

/-- The fields of a record are found in its document. -/
theorem lookup_field {ρ : Type} {fields : List (String × (ρ → Option WireDoc))} (hkeys : (fields.map Prod.fst).Nodup)
    (r : ρ) (i : Nat)
    {k : String} {f : ρ → Option WireDoc} (hi : fields[i]? = some (k, f)) : (encodeRecord fields r).lookup k = f r :=
  lookup_encodeRecord hkeys (List.mem_of_getElem? hi) r

theorem readStringList_strings (l : List String) : readStringList (strings l) = some l :=
  readList_listField (fun _ _ => rfl)

theorem readNat_int (n : Nat) : readOr 0 readNat (some (.int (n : Int))) = some n := by
  change (if (0 : Int) ≤ n then some (n : Int).toNat else none) = some n
  rw [if_pos (Int.natCast_nonneg n), Int.toNat_natCast]

theorem readNat_intField (n : Nat) : readOr 0 readNat (intField (n : Int)) = some n := by
  unfold intField
  cases n with
  | zero => rfl
  | succ n =>
    rw [if_neg (by simp; omega)]
    exact readNat_int (n + 1)

/-- A field that may be missing is read as it was written. -/
theorem readMaybe_map {β : Type} {enc : β → WireDoc} {read : WireDoc → Option β} {o : Option β}
    (h : ∀ v, o = some v → readMaybe read (some (enc v)) = some (some v)) : readMaybe read (o.map enc) = some o := by
  cases o with
  | none => rfl
  | some v => exact h v rfl

theorem readClock_clockJSON (c : ClockTime) : readClock (clockJSON c) = some c := by
  have hfound := fun i {k e} => @lookup_field _ clockFields (by decide) c i k e
  unfold readClock clockJSON
  dsimp only
  rw [onlyKeys_encodeRecord, hfound 0 rfl, hfound 1 rfl, hfound 2 rfl]
  simp only [readNat_int]
  rfl

theorem readTriggerWire_triggerJSON (w : TriggerWire) : readTriggerWire (triggerJSON w) = some w := by
  have hfound := fun i {k e} => @lookup_field _ triggerWireFields (by decide) w i k e
  have hat : readMaybe Json.time? (w.at_.map .time) = some w.at_ := readMaybe_map (fun _ _ => rfl)
  have hkind : readOr "" Json.text? (some (.str w.kind) : Option WireDoc) = some w.kind := rfl
  have hints : ∀ l : List Int, readOr [] (Json.list? Json.int?) (listField .int l : Option WireDoc) = some l :=
    fun l => readList_listField (fun _ _ => rfl)
  unfold readTriggerWire triggerJSON
  dsimp only
  rw [onlyKeys_encodeRecord, hfound 0 rfl, hfound 1 rfl, hfound 2 rfl, hfound 3 rfl, hfound 4 rfl, hfound 5 rfl, hfound 6 rfl,
    hfound 7 rfl, hfound 8 rfl, hfound 9 rfl, hfound 10 rfl]
  rw [hat, hkind, readList_listField (fun c _ => readClock_clockJSON c), hints, hints, readNat_intField]
  simp only [readText_textField, readInt_intField]
  rfl

theorem readRetry_retryJSON (p : RetryPolicy) : readRetry (retryJSON p) = some p := by
  have hfound := fun i {k e} => @lookup_field _ retryFields (by decide) p i k e
  unfold readRetry retryJSON
  dsimp only
  rw [onlyKeys_encodeRecord, hfound 0 rfl, hfound 1 rfl, hfound 2 rfl, hfound 3 rfl, hfound 4 rfl, hfound 5 rfl]
  simp only [readInt_intField, readNum_numField, readStringList_strings]
  rfl

theorem readDescriptor_descriptorJSON (d : ValidationDescriptor) : readDescriptor (descriptorJSON d) = some d := by
  have hfound := fun i {k e} => @lookup_field _ descriptorFields (by decide) d i k e
  have hkind : readOr "" Json.text? (some (.str d.kind) : Option WireDoc) = some d.kind := rfl
  unfold readDescriptor descriptorJSON
  dsimp only
  rw [onlyKeys_encodeRecord, hfound 0 rfl, hfound 1 rfl, hkind, readText_textField]
  rfl

theorem readFlow_flowJSON (f : SequenceFlow) : readFlow (flowJSON f) = some f := by
  have hfound := fun i {k e} => @lookup_field _ flowFields (by decide) f i k e
  have htext : ∀ s : String, readOr "" Json.text? (some (.str s) : Option WireDoc) = some s := fun _ => rfl
  unfold readFlow flowJSON
  dsimp only
  rw [onlyKeys_encodeRecord, hfound 0 rfl, hfound 1 rfl, hfound 2 rfl, hfound 3 rfl, hfound 4 rfl]
  simp only [htext, readText_textField, readBool_boolField]
  rfl

theorem readRule_ruleJSON {r : RuleSpec} (h : r.misshapen = false) :
    readMaybe readRule (some (ruleJSON r)) = some (some r) := by
  obtain ⟨name, inline⟩ := r
  unfold ruleJSON
  by_cases hn : name = ""
  · subst hn
    rw [if_neg (by simp)]
    change (readRule (.any inline)).map some = _
    unfold readRule
    dsimp only
    rw [h]
    rfl
  · rw [if_pos (by simpa using hn)]
    change (readRule (.str name)).map some = _
    have hinline : inline = "" := by
      unfold RuleSpec.misshapen at h
      simp [hn] at h
      exact h.1
    subst hinline
    unfold readRule
    dsimp only
    rw [h]
    rfl

/-! ## The record of a node -/

/-- The fields of a group are found in the document of the whole record. -/
theorem lookup_ofGroup {ρ τ : Type} {all : List (String × (ρ → Option WireDoc))} {g : ρ → τ}
    {fields : List (String × (τ → Option WireDoc))} (hkeys : (all.map Prod.fst).Nodup)
    (hsub : ofGroup g fields ⊆ all) (w : ρ) (i : Nat)
    {k : String} {f : τ → Option WireDoc} (hi : fields[i]? = some (k, f)) : (encodeRecord all w).lookup k = f (g w) := by
  have hmem : (k, fun w => f (g w)) ∈ all := hsub (List.mem_map.mpr ⟨(k, f), List.mem_of_getElem? hi, rfl⟩)
  exact lookup_encodeRecord hkeys hmem w

theorem nodeFields_nodup : (nodeFields.map Prod.fst).Nodup := by decide

section Groups
variable {w : NodeWire WireDoc}

theorem trigger_round_trip (o : Option TriggerWire) : readMaybe readTriggerWire (o.map triggerJSON) = some o :=
  readMaybe_map (fun v _ => congrArg (Option.map some) (readTriggerWire_triggerJSON v))

theorem readWaitWire_nodeFields : readWaitWire (encodeRecord nodeFields w) = some w.wait := by
  have hfound := fun i {k f} => @lookup_ofGroup _ _ nodeFields NodeWire.wait waitWireFields nodeFields_nodup
    (fun a ha => by unfold nodeFields gatedFields; simp only [List.mem_append]; tauto) w i k f
  unfold readWaitWire
  rw [hfound 0 rfl, hfound 1 rfl, hfound 2 rfl, hfound 3 rfl, hfound 4 rfl, hfound 5 rfl, hfound 6 rfl]
  simp only [trigger_round_trip, readText_textField]
  rfl

theorem readActivityWire_nodeFields : readActivityWire (encodeRecord nodeFields w) = some w.activity := by
  have hfound := fun i {k f} => @lookup_ofGroup _ _ nodeFields NodeWire.activity activityWireFields nodeFields_nodup
    (fun a ha => by unfold nodeFields gatedFields; simp only [List.mem_append]; tauto) w i k f
  have hretry : readMaybe readRetry (w.activity.retryPolicy.map retryJSON) = some w.activity.retryPolicy :=
    readMaybe_map (fun v _ => congrArg (Option.map some) (readRetry_retryJSON v))
  unfold readActivityWire
  rw [hfound 0 rfl, hfound 1 rfl, hfound 2 rfl, hfound 3 rfl, hfound 4 rfl, hretry]
  simp only [readText_textField]
  rfl

theorem readTaskWire_nodeFields (h : w.task.rule.all (fun r => !r.misshapen) = true) :
    readTaskWire (encodeRecord nodeFields w) = some w.task := by
  have hfound := fun i {k f} => @lookup_ofGroup _ _ nodeFields NodeWire.task taskWireFields nodeFields_nodup
    (fun a ha => by unfold nodeFields gatedFields; simp only [List.mem_append]; tauto) w i k f
  have hrule : readMaybe readRule (w.task.rule.map ruleJSON) = some w.task.rule := by
    refine readMaybe_map (fun r hr => readRule_ruleJSON ?_)
    rw [hr] at h
    simpa using h
  unfold readTaskWire
  rw [hfound 0 rfl, hfound 1 rfl, hfound 2 rfl, hfound 3 rfl, hfound 4 rfl, hfound 5 rfl, hfound 6 rfl, hfound 7 rfl,
    hfound 8 rfl, hfound 9 rfl, hfound 10 rfl, hrule]
  simp only [readText_textField, readBool_boolField, readStringList_strings]
  rfl

theorem readEventWire_nodeFields : readEventWire (encodeRecord nodeFields w) = some w.event := by
  have hfound := fun i {k f} => @lookup_ofGroup _ _ nodeFields NodeWire.event eventWireFields nodeFields_nodup
    (fun a ha => by unfold nodeFields gatedFields; simp only [List.mem_append]; tauto) w i k f
  have hdescriptor : readMaybe readDescriptor (w.event.validation.map descriptorJSON) = some w.event.validation :=
    readMaybe_map (fun v _ => congrArg (Option.map some) (readDescriptor_descriptorJSON v))
  unfold readEventWire
  rw [hfound 0 rfl, hfound 1 rfl, hfound 2 rfl, hfound 3 rfl, hfound 4 rfl, hfound 5 rfl, hfound 6 rfl, hfound 7 rfl,
    hfound 8 rfl, hfound 9 rfl, hdescriptor, trigger_round_trip]
  simp only [readText_textField, readBool_boolField]
  rfl

theorem readEndWire_nodeFields : readEndWire (encodeRecord nodeFields w) = some w.ending := by
  have hfound := fun i {k f} => @lookup_ofGroup _ _ nodeFields NodeWire.ending endWireFields nodeFields_nodup
    (fun a ha => by unfold nodeFields gatedFields; simp only [List.mem_append]; tauto) w i k f
  unfold readEndWire
  rw [hfound 0 rfl, hfound 1 rfl, hfound 2 rfl, hfound 3 rfl, hfound 4 rfl, hfound 5 rfl, hfound 6 rfl]
  simp only [readText_textField]
  rfl

theorem readKind_name (k : NodeKind) : readKind (.str k.name) = some k := by
  cases k <;> rfl

/-- The record with another nested definition. -/
def NodeWire.withSub {D E : Type} (w : NodeWire E) (sub : Option D) : NodeWire D :=
  { id := w.id, kind := w.kind, name := w.name, wait := w.wait, activity := w.activity, task := w.task, event := w.event,
    ending := w.ending, subprocess := sub }

/-- The record of a node is read as it was written. -/
theorem nodeWire_round_trip {D : Type} (h : w.task.rule.all (fun r => !r.misshapen) = true) (sub : Option D) :
    readNodeWire (encodeRecord nodeFields w) sub = some (w.withSub sub) := by
  have hfound : ∀ (i : Nat) {k : String} {f : NodeWire WireDoc → Option WireDoc}, nodeFields[i]? = some (k, f) →
      (encodeRecord nodeFields w).lookup k = f w :=
    fun i _ _ hi => lookup_encodeRecord nodeFields_nodup (List.mem_of_getElem? hi) w
  have hid : readOr "" Json.text? (some (.str w.id) : Option WireDoc) = some w.id := rfl
  have hkind : (some (.str w.kind.name) : Option WireDoc).bind readKind = some w.kind := readKind_name w.kind
  unfold readNodeWire
  rw [onlyKeys_encodeRecord, hfound 0 rfl, hfound 1 rfl, hfound 2 rfl, hid, hkind, readText_textField,
    readWaitWire_nodeFields,
    readActivityWire_nodeFields, readTaskWire_nodeFields h, readEventWire_nodeFields, readEndWire_nodeFields]
  rfl

end Groups

/-! ## Nodes -/

/-- The triggers the constructors of `schedule` build; the fields of a trigger are unexported. -/
inductive TriggerSpec.Built : TriggerSpec → Prop
  | unset : Built {}
  | afterDuration (d : Duration) : Built (.afterDuration d)
  | at_ (t : Time) : Built { kind := .oneTime, at_ := t }
  | afterExpr (code : String) : Built { kind := .expr, expr := code }
  | every (d : Duration) : Built (.every d)
  | everyExpr (code : String) : Built { kind := .everyExpr, expr := code }
  | everyRandom (min max : Duration) : Built { kind := .durationRand, min := min, max := max }
  | cron (expr : String) : Built { kind := .cron, cron := expr }
  | daily (interval : Nat) (times : List ClockTime) : Built { kind := .daily, interval := interval, atTimes := times }
  | weekly (interval : Nat) (days : List Int) (times : List ClockTime) :
    Built { kind := .weekly, interval := interval, weekdays := days, atTimes := times }
  | monthly (interval : Nat) (days : List Int) (times : List ClockTime) :
    Built { kind := .monthly, interval := interval, days := days, atTimes := times }

/-- A trigger is read as it was written. -/
theorem readTrigger_putTrigger {s : TriggerSpec} (h : s.Built) (recurring : Bool) :
    readTrigger (putTrigger s) "" recurring = s := by
  cases h with
  | at_ t =>
    by_cases ht : t = 0
    · -- the zero instant is written as a delay of nothing
      subst ht
      rfl
    · have hput : putTrigger { kind := .oneTime, at_ := t } = some { kind := "onetime", at_ := some t } := by
        have habs : ({ kind := .oneTime, at_ := t } : TriggerSpec).absTime = some t := by
          unfold TriggerSpec.absTime isZeroTime
          simp [ht]
        unfold putTrigger
        rw [habs]
        rfl
      rw [hput]
      rfl
  | unset => rfl
  | afterDuration d => rfl
  | afterExpr code => rfl
  | every d => rfl
  | everyExpr code => rfl
  | everyRandom min max => rfl
  | cron expr => rfl
  | daily interval times => rfl
  | weekly interval days times => rfl
  | monthly interval days times => rfl

def WaitFields.Built (f : WaitFields) : Prop := f.deadlineTimer.Built ∧ f.waitEvery.Built

/-- What the types of the source say of a node: its triggers are built by the constructors, only a strategy has a
descriptor, and a version is an `int`. -/
def NodeSpec.Proper {D : Type} : NodeSpec D → Prop
  | .startEvent e => e.timer.Built ∧ (e.descriptor.isSome → e.hasValidation)
  | .serviceTask a _ | .businessRuleTask a _ _ | .subProcess a _ => a.toWaitFields.Built
  | .userTask u => u.toWaitFields.Built ∧ (u.descriptor.isSome → u.hasValidation)
  | .receiveTask r => r.toWaitFields.Built ∧ (r.descriptor.isSome → r.hasValidation)
  | .sendTask t => t.toWaitFields.Built
  | .callActivity a ref => a.toWaitFields.Built ∧ ref.version ≤ maxInt
  | .intermediateCatchEvent e => e.toWaitFields.Built ∧ e.timer.Built ∧ (e.descriptor.isSome → e.hasValidation)
  | .boundaryEvent e => e.timer.Built
  | _ => True

/-- The reference has the text of an id, or of an id and a version. -/
def Qualifier.Plain (q : Qualifier) : Prop := q.id ≠ "" ∧ ':' ∉ q.id.toList ∧ 0 ≤ q.version

def NodeSpec.PlainRef {D : Type} : NodeSpec D → Prop
  | .callActivity _ ref => ref.Plain
  | _ => True

/-- An end event with the fields of its own behaviour only. -/
def EndEvent.own (e : EndEvent) : EndEvent :=
  match e.behavior with
  | .normal => {}
  | .terminate => { behavior := .terminate, terminationReason := e.terminationReason, outcome := e.outcome }
  | .error => { behavior := .error, errorCode := e.errorCode }

/-- What of a node is persisted, with what is of its nested definition. -/
def NodeSpec.persistedWith {D E : Type} (spec : NodeSpec D) (sub : Option E) : NodeSpec E :=
  match spec with
  | .startEvent e => .startEvent e
  | .endEvent e => .endEvent e.own
  | .serviceTask a action => .serviceTask a action
  | .userTask u => .userTask u
  | .receiveTask r => .receiveTask r
  | .sendTask t => .sendTask t
  | .businessRuleTask a action rule => .businessRuleTask a action rule
  | .subProcess a _ => .subProcess a sub
  | .callActivity a ref => .callActivity a ref
  | .intermediateCatchEvent e => .intermediateCatchEvent e
  | .intermediateThrowEvent name => .intermediateThrowEvent name
  | .boundaryEvent e => .boundaryEvent { e with errorCheck := none }
  | .exclusiveGateway => .exclusiveGateway
  | .parallelGateway => .parallelGateway
  | .inclusiveGateway => .inclusiveGateway
  | .eventBasedGateway => .eventBasedGateway
  | .compensationThrowEvent e => .compensationThrowEvent e

/-- The reference its text is read as. -/
def Qualifier.reread (q : Qualifier) : Qualifier := parseOrZero q.toText

/-- What of a node is read again, with what is of its nested definition. -/
def NodeSpec.rereadWith {D E : Type} (spec : NodeSpec D) (sub : Option E) : NodeSpec E :=
  match spec with
  | .callActivity a ref => .callActivity a ref.reread
  | spec => spec.persistedWith sub

section Gates
variable {D E F : Type}

/-- A record whose set fields are all read passes the gate. -/
theorem checkNodeKeys_ok {w : NodeWire D}
    (hfields : (gatedFields D).all (fun f => (keysReadBy w.kind).contains f.1 || (f.2 w).isNone) = true)
    (hsub : w.subprocess.isSome → w.kind = .subProcess) : checkNodeKeys w = .ok () := by
  have hread : ∀ k ∈ setKeys w, (keysReadBy w.kind).contains k = true := by
    intro k hk
    rcases List.mem_append.mp hk with hk | hk
    · obtain ⟨e, he, rfl⟩ := List.mem_map.mp hk
      obtain ⟨f, hf, hfe⟩ := List.mem_filterMap.mp he
      obtain ⟨v, hv, rfl⟩ := Option.map_eq_some_iff.mp hfe
      have hone := List.all_eq_true.mp hfields f hf
      rw [hv] at hone
      simpa using hone
    · split at hk
      · rename_i hsome
        rw [hsub hsome, List.mem_singleton.mp hk]
        rfl
      · cases hk
  have hfind : (setKeys w).find? (fun k => !(keysReadBy w.kind).contains k) = none := by
    rw [List.find?_eq_none]
    intro k hk
    rw [hread k hk]
    decide
  unfold checkNodeKeys
  rw [hfind]

/-- Each kind sets only fields it reads. -/
theorem toWire_fields_read (n : NodeOf D) (sub : Option E) (sub' : Option F) :
    (gatedFields F).all (fun f => (keysReadBy ((toWire n sub).withSub sub').kind).contains f.1 ||
      (f.2 ((toWire n sub).withSub sub')).isNone) = true := by
  obtain ⟨id, name, spec⟩ := n
  cases spec with
  | endEvent e =>
    obtain ⟨behavior, reason, outcome, code⟩ := e
    cases behavior <;> rfl
  | _ => rfl

theorem toWire_kind (n : NodeOf D) (sub : Option E) (sub' : Option F) : ((toWire n sub).withSub sub').kind = n.kind := by
  obtain ⟨id, name, spec⟩ := n
  cases spec with
  | endEvent e =>
    obtain ⟨behavior, reason, outcome, code⟩ := e
    cases behavior <;> rfl
  | _ => rfl

theorem toWire_outcome_ok (n : NodeOf D) (sub : Option E) (sub' : Option F) :
    checkTerminationOutcome ((toWire n sub).withSub sub') = .ok () := by
  obtain ⟨id, name, spec⟩ := n
  cases spec with
  | endEvent e =>
    obtain ⟨behavior, reason, outcome, code⟩ := e
    cases behavior <;> cases outcome <;> rfl
  | _ => rfl

theorem wait_round_trip {f : WaitFields} (h : f.Built) : (putWait f).fields = f := by
  unfold WaitWire.fields putWait
  dsimp only
  rw [readTrigger_putTrigger h.1, readTrigger_putTrigger h.2]

/-- An activity's fields are read from the groups they were written to. -/
theorem activity_round_trip {a : ActivityFields} (h : a.toWaitFields.Built) {w : NodeWire D}
    (hwait : w.wait = putWait a.toWaitFields) (hactivity : w.activity = putActivity a) : w.activityOf = a := by
  unfold NodeWire.activityOf
  rw [hwait, hactivity, wait_round_trip h]
  rfl

/-- A described strategy is read as it was written. -/
theorem putValidation_described {has : Bool} {descriptor : Option ValidationDescriptor}
    (hproper : descriptor.isSome → has = true)
    (hdescribed : (has && descriptor.isNone) = false) : putValidation has descriptor = descriptor ∧
      descriptor.isSome = has := by
  cases has with
  | false =>
    cases descriptor with
    | none => exact ⟨rfl, rfl⟩
    | some v => exact nomatch hproper rfl
  | true =>
    cases descriptor with
    | none => exact nomatch hdescribed
    | some v => exact ⟨rfl, rfl⟩

theorem parseOrZero_toText {q : Qualifier} (h : q.Plain) (hhigh : q.version ≤ maxInt) : parseOrZero q.toText = q := by
  unfold parseOrZero
  rw [parseQualifier_toText h.1 h.2.1 h.2.2 hhigh]

/-- What each kind reads from the record it wrote. -/
theorem specOf_toWire {n : NodeOf D} (hproper : n.spec.Proper) (hdescribed : n.undescribed = false)
    (sub : Option E) (sub' : Option F) : specOf ((toWire n sub).withSub sub') = n.spec.rereadWith sub' := by
  obtain ⟨id, name, spec⟩ := n
  cases spec with
  | startEvent e =>
    obtain ⟨hput, hsome⟩ := putValidation_described hproper.2 hdescribed
    unfold specOf toWire NodeWire.withSub NodeOf.kind
    dsimp only
    rw [readTrigger_putTrigger hproper.1, hput, hsome]
    rfl
  | endEvent e =>
    obtain ⟨behavior, reason, outcome, code⟩ := e
    cases behavior <;> cases outcome <;> rfl
  | serviceTask a action =>
    exact congrArg (NodeSpec.serviceTask · action) (activity_round_trip hproper rfl rfl)
  | userTask u =>
    obtain ⟨hput, hsome⟩ := putValidation_described hproper.2 hdescribed
    unfold specOf toWire NodeWire.withSub NodeOf.kind
    dsimp only
    rw [activity_round_trip hproper.1 rfl rfl, hput, hsome]
    rfl
  | receiveTask r =>
    obtain ⟨hput, hsome⟩ := putValidation_described hproper.2 hdescribed
    unfold specOf toWire NodeWire.withSub NodeOf.kind
    dsimp only
    rw [activity_round_trip hproper.1 rfl rfl, hput, hsome]
    rfl
  | sendTask t =>
    unfold specOf toWire NodeWire.withSub NodeOf.kind
    dsimp only
    rw [activity_round_trip hproper rfl rfl]
    rfl
  | businessRuleTask a action rule =>
    exact congrArg (NodeSpec.businessRuleTask · action rule) (activity_round_trip hproper rfl rfl)
  | subProcess a nested =>
    exact congrArg (NodeSpec.subProcess · sub') (activity_round_trip hproper rfl rfl)
  | callActivity a ref =>
    exact congrArg (NodeSpec.callActivity · ref.reread) (activity_round_trip hproper.1 rfl rfl)
  | intermediateCatchEvent e =>
    obtain ⟨hput, hsome⟩ := putValidation_described hproper.2.2 hdescribed
    unfold specOf toWire NodeWire.withSub NodeOf.kind
    dsimp only
    rw [wait_round_trip hproper.1, readTrigger_putTrigger hproper.2.1, hput, hsome]
    rfl
  | boundaryEvent e =>
    unfold specOf toWire NodeWire.withSub NodeOf.kind
    dsimp only
    rw [readTrigger_putTrigger hproper]
    rfl
  | _ => rfl

/-- A record written for a node passes the gates and gives the node back. -/
theorem fromWire_toWire {n : NodeOf D} (hproper : n.spec.Proper) (hdescribed : n.undescribed = false)
    {sub : Option E} {sub' : Option F} (hsub : sub'.isSome → n.kind = .subProcess) :
    fromWire ((toWire n sub).withSub sub') = .ok { id := n.id, name := n.name, spec := n.spec.rereadWith sub' } := by
  have hkeys : checkNodeKeys ((toWire n sub).withSub sub') = .ok () :=
    checkNodeKeys_ok (toWire_fields_read n sub sub') (fun hs => (toWire_kind n sub sub').trans (hsub hs))
  have hid : ((toWire n sub).withSub sub').id = n.id ∧ ((toWire n sub).withSub sub').name = n.name := by
    obtain ⟨id, name, spec⟩ := n
    cases spec with
    | endEvent e =>
      obtain ⟨behavior, reason, outcome, code⟩ := e
      cases behavior <;> exact ⟨rfl, rfl⟩
    | _ => exact ⟨rfl, rfl⟩
  unfold fromWire
  rw [hkeys, toWire_outcome_ok, specOf_toWire hproper hdescribed, hid.1, hid.2]
  rfl

end Gates

/-! ## Definitions -/

mutual

/-- What of a definition is persisted: all but the checks of its error boundaries, and what an end event carries for a
behaviour it does not have. -/
def ProcessDefinition.persisted : ProcessDefinition → ProcessDefinition
  | ⟨id, version, nodes, flows, cancelActions⟩ => ⟨id, version, persistedNodes nodes, flows, cancelActions⟩

def persistedNodes : List (NodeOf ProcessDefinition) → List (NodeOf ProcessDefinition)
  | [] => []
  | n :: ns => persistedNode n :: persistedNodes ns

def persistedNode : NodeOf ProcessDefinition → NodeOf ProcessDefinition
  | ⟨id, name, spec⟩ => ⟨id, name, spec.persistedWith (persistedNested spec)⟩

def persistedNested : NodeSpec ProcessDefinition → Option ProcessDefinition
  | .subProcess _ sub => persistedSub sub
  | _ => none

def persistedSub : Option ProcessDefinition → Option ProcessDefinition
  | none => none
  | some d => some d.persisted

end

mutual

/-- What is read of a definition that was written: what is persisted of it, with its references as their texts are read. -/
def ProcessDefinition.reread : ProcessDefinition → ProcessDefinition
  | ⟨id, version, nodes, flows, cancelActions⟩ => ⟨id, version, rereadNodes nodes, flows, cancelActions⟩

def rereadNodes : List (NodeOf ProcessDefinition) → List (NodeOf ProcessDefinition)
  | [] => []
  | n :: ns => rereadNode n :: rereadNodes ns

def rereadNode : NodeOf ProcessDefinition → NodeOf ProcessDefinition
  | ⟨id, name, spec⟩ => ⟨id, name, spec.rereadWith (rereadNested spec)⟩

def rereadNested : NodeSpec ProcessDefinition → Option ProcessDefinition
  | .subProcess _ sub => rereadSub sub
  | _ => none

def rereadSub : Option ProcessDefinition → Option ProcessDefinition
  | none => none
  | some d => some d.reread

end

mutual

/-- `p` holds of every node, at every depth. -/
def ProcessDefinition.EveryNode (p : NodeSpec ProcessDefinition → Prop) : ProcessDefinition → Prop
  | ⟨_, _, nodes, _, _⟩ => EveryNodeOf p nodes

def EveryNodeOf (p : NodeSpec ProcessDefinition → Prop) : List (NodeOf ProcessDefinition) → Prop
  | [] => True
  | n :: ns => EveryNodeFrom p n ∧ EveryNodeOf p ns

def EveryNodeFrom (p : NodeSpec ProcessDefinition → Prop) : NodeOf ProcessDefinition → Prop
  | ⟨_, _, spec⟩ => p spec ∧ EveryNested p spec

def EveryNested (p : NodeSpec ProcessDefinition → Prop) : NodeSpec ProcessDefinition → Prop
  | .subProcess _ sub => EverySub p sub
  | _ => True

def EverySub (p : NodeSpec ProcessDefinition → Prop) : Option ProcessDefinition → Prop
  | none => True
  | some d => d.EveryNode p

end

/-- The nodes are read from under their key. -/
theorem readNodesKey_eq (doc : List (String × WireDoc)) :
    readNodesKey doc = match doc.lookup "nodes" with
      | none => .ok []
      | some j => readNodeItems j := by
  induction doc with
  | nil => rw [readNodesKey]; rfl
  | cons e doc ih =>
    obtain ⟨k, j⟩ := e
    rw [readNodesKey, List.lookup_cons]
    by_cases hk : k = "nodes"
    · subst hk
      simp
    · have hkey : ("nodes" == k) = false := by simpa using fun h => hk h.symm
      rw [if_neg (by simpa using hk), hkey]
      exact ih

theorem readSubKey_eq (doc : List (String × WireDoc)) :
    readSubKey doc = match doc.lookup "subprocess" with
      | none => .ok none
      | some j => if isNullDoc j then .ok none else (unmarshalJSON j).map some := by
  induction doc with
  | nil => rw [readSubKey]; rfl
  | cons e doc ih =>
    obtain ⟨k, j⟩ := e
    rw [readSubKey, List.lookup_cons]
    by_cases hk : k = "subprocess"
    · subst hk
      simp only [beq_self_eq_true, if_true]
      cases unmarshalJSON j <;> rfl
    · have hkey : ("subprocess" == k) = false := by simpa using fun h => hk h.symm
      rw [if_neg (by simpa using hk), hkey]
      exact ih

theorem definitionFields_nodup : (definitionFields.map Prod.fst).Nodup := by decide

theorem readDefinitionWith_fields (w : DefinitionWire) (nodes : List (NodeOf ProcessDefinition)) :
    readDefinitionWith (encodeRecord definitionFields w) nodes = some ⟨w.id, w.version, nodes, w.flows, w.cancelActions⟩ := by
  have hfound : ∀ (i : Nat) {k : String} {f : DefinitionWire → Option WireDoc}, definitionFields[i]? = some (k, f) →
      (encodeRecord definitionFields w).lookup k = f w :=
    fun i _ _ hi => lookup_encodeRecord definitionFields_nodup (List.mem_of_getElem? hi) w
  have hid : readOr "" Json.text? (some (.str w.id) : Option WireDoc) = some w.id := rfl
  have hversion : readOr 0 Json.int? (some (.int w.version) : Option WireDoc) = some w.version := rfl
  have hflows : readOr [] (Json.list? readFlow) (some (.arr (w.flows.map flowJSON))) = some w.flows := by
    change (w.flows.map flowJSON).mapM readFlow = some w.flows
    rw [List.mapM_map, mapM_some (f := readFlow ∘ flowJSON) (h := fun f => f) (fun f _ => readFlow_flowJSON f), List.map_id']
  unfold readDefinitionWith
  rw [onlyKeys_encodeRecord, hfound 0 rfl, hfound 1 rfl, hfound 3 rfl, hfound 4 rfl, hid, hversion,
    hflows, readStringList_strings]
  rfl

/-- What is read of a node's nested definition. -/
def readSubDoc : Option WireDoc → Except String (Option ProcessDefinition)
  | none => .ok none
  | some j => if isNullDoc j then .ok none else (unmarshalJSON j).map some

/-- A node is read as it was written where its nested definition is. -/
theorem readNode_marshalNodeWith {n : NodeOf ProcessDefinition} {sub : Option WireDoc} {doc : WireDoc}
    (hproper : n.spec.Proper) (h : marshalNodeWith n sub = .ok doc) {sub' : Option ProcessDefinition}
    (hkind : sub'.isSome → n.kind = .subProcess) (hread : readSubDoc (toWire n sub).subprocess = .ok sub') :
    readNode doc = .ok { id := n.id, name := n.name, spec := n.spec.rereadWith sub' } := by
  unfold marshalNodeWith at h
  split at h
  · cases h
  · rename_i hdescribed
    split at h
    · cases h
    · rename_i hwritable
      obtain rfl := Except.ok.inj h
      have hrule : (toWire n sub).task.rule.all (fun r => !r.misshapen) = true := by
        unfold NodeWire.writable at hwritable
        simp only [Bool.not_eq_true, Bool.not_eq_false', Bool.and_eq_true] at hwritable
        exact hwritable.2
      have hsub : readSubKey (encodeRecord nodeFields (toWire n sub)) = .ok sub' := by
        have hfound : (encodeRecord nodeFields (toWire n sub)).lookup "subprocess" = (toWire n sub).subprocess :=
          lookup_encodeRecord nodeFields_nodup (List.mem_of_getElem? (i := 3) rfl) _
        rw [readSubKey_eq, hfound]
        exact hread
      have hlabel : (encodeRecord nodeFields (toWire n sub)).lookup "label" = none := lookup_other (by decide) _
      rw [readNode, hsub]
      change readNodeWith (encodeRecord nodeFields (toWire n sub)) sub' = _
      unfold readNodeWith
      rw [hlabel, nodeWire_round_trip hrule]
      exact fromWire_toWire hproper (by simpa using hdescribed) hkind

mutual

/-- By recursion over the definition, as `marshalJSON` goes. -/
theorem unmarshalJSON_marshalJSON {doc : WireDoc} : ∀ d : ProcessDefinition, d.EveryNode NodeSpec.Proper →
    marshalJSON d = .ok doc → unmarshalJSON doc = .ok d.reread
  | ⟨id, version, nodes, flows, cancelActions⟩, hproper, h => by
    rw [marshalJSON] at h
    obtain ⟨docs, hdocs, h⟩ := bind_ok h
    obtain rfl := Except.ok.inj h
    have hnodes := readNodes_marshalNodes nodes hproper hdocs
    have hfound : (encodeRecord definitionFields ⟨id, version, docs, flows, cancelActions⟩).lookup "nodes" =
      some (.arr docs) :=
      lookup_encodeRecord definitionFields_nodup (List.mem_of_getElem? (i := 2) rfl) _
    have hkey : readNodesKey (encodeRecord definitionFields ⟨id, version, docs, flows, cancelActions⟩) =
      .ok (rereadNodes nodes) := by
      rw [readNodesKey_eq, hfound]
      change readNodeItems (.arr docs) = _
      rw [readNodeItems]
      exact hnodes
    rw [unmarshalJSON, hkey, ProcessDefinition.reread]
    simp only [bind, Except.bind, readDefinitionWith_fields]

theorem readNodes_marshalNodes {docs : List WireDoc} : ∀ nodes : List (NodeOf ProcessDefinition),
    EveryNodeOf NodeSpec.Proper nodes →
    marshalNodes nodes = .ok docs → readNodes docs = .ok (rereadNodes nodes)
  | [], _, h => by
    rw [marshalNodes] at h
    obtain rfl := Except.ok.inj h
    rw [readNodes, rereadNodes]
  | n :: ns, hproper, h => by
    rw [EveryNodeOf] at hproper
    rw [marshalNodes] at h
    obtain ⟨doc, hdoc, h⟩ := bind_ok h
    obtain ⟨docs', hdocs, h⟩ := bind_ok h
    obtain rfl := Except.ok.inj h
    rw [readNodes, readNode_marshalNode n hproper.1 hdoc, rereadNodes]
    change (readNodes docs' >>= fun ns' => .ok (rereadNode n :: ns')) = _
    rw [readNodes_marshalNodes ns hproper.2 hdocs]
    rfl

theorem readNode_marshalNode {doc : WireDoc} : ∀ n : NodeOf ProcessDefinition, EveryNodeFrom NodeSpec.Proper n →
    marshalNode n = .ok doc → readNode doc = .ok (rereadNode n)
  | ⟨id, name, spec⟩, hproper, h => by
    rw [EveryNodeFrom] at hproper
    rw [marshalNode] at h
    obtain ⟨sub, hsub, h⟩ := bind_ok h
    obtain ⟨hkind, hread⟩ := readSubDoc_marshalSpec id name spec hproper.2 hsub
    rw [rereadNode]
    exact readNode_marshalNodeWith hproper.1 h hkind hread

theorem readSubDoc_marshalSpec {sub : Option WireDoc} (id name : String) : ∀ spec : NodeSpec ProcessDefinition,
    EveryNested NodeSpec.Proper spec → marshalSpec spec = .ok sub →
    ((rereadNested spec).isSome → (⟨id, name, spec⟩ : NodeOf ProcessDefinition).kind = .subProcess) ∧
      readSubDoc (toWire (⟨id, name, spec⟩ : NodeOf ProcessDefinition) sub).subprocess = .ok (rereadNested spec)
  | .subProcess a nested, hproper, h => by
    rw [marshalSpec] at h
    rw [EveryNested] at hproper
    rw [rereadNested]
    exact ⟨fun _ => rfl, readSubDoc_marshalSub nested hproper h⟩
  | .endEvent e, _, _ => by
    obtain ⟨behavior, reason, outcome, code⟩ := e
    cases behavior <;> exact ⟨nofun, rfl⟩
  | .startEvent _, _, _ => ⟨nofun, rfl⟩
  | .serviceTask _ _, _, _ => ⟨nofun, rfl⟩
  | .userTask _, _, _ => ⟨nofun, rfl⟩
  | .receiveTask _, _, _ => ⟨nofun, rfl⟩
  | .sendTask _, _, _ => ⟨nofun, rfl⟩
  | .businessRuleTask _ _ _, _, _ => ⟨nofun, rfl⟩
  | .callActivity _ _, _, _ => ⟨nofun, rfl⟩
  | .intermediateCatchEvent _, _, _ => ⟨nofun, rfl⟩
  | .intermediateThrowEvent _, _, _ => ⟨nofun, rfl⟩
  | .boundaryEvent _, _, _ => ⟨nofun, rfl⟩
  | .exclusiveGateway, _, _ => ⟨nofun, rfl⟩
  | .parallelGateway, _, _ => ⟨nofun, rfl⟩
  | .inclusiveGateway, _, _ => ⟨nofun, rfl⟩
  | .eventBasedGateway, _, _ => ⟨nofun, rfl⟩
  | .compensationThrowEvent _, _, _ => ⟨nofun, rfl⟩

theorem readSubDoc_marshalSub {sub : Option WireDoc} : ∀ nested : Option ProcessDefinition, EverySub NodeSpec.Proper nested →
    marshalSub nested = .ok sub → readSubDoc sub = .ok (rereadSub nested)
  | none, _, h => by
    rw [marshalSub] at h
    obtain rfl := Except.ok.inj h
    rw [rereadSub]
    rfl
  | some d, hproper, h => by
    rw [EverySub] at hproper
    rw [marshalSub] at h
    obtain ⟨doc, hdoc, h⟩ := bind_ok h
    obtain rfl := Except.ok.inj h
    have hread := unmarshalJSON_marshalJSON d hproper hdoc
    have hnull : isNullDoc doc = false := by
      cases doc with
      | null =>
        rw [unmarshalJSON] at hread
        · cases hread
        · exact nofun
      | _ => rfl
    unfold readSubDoc
    dsimp only
    rw [hnull, hread, rereadSub]
    rfl

end

/-! ## Plain references -/

theorem NodeSpec.rereadWith_plain {D E : Type} {spec : NodeSpec D} (hproper : spec.Proper)
    (href : spec.PlainRef) (sub : Option E) :
    spec.rereadWith sub = spec.persistedWith sub := by
  cases spec with
  | callActivity a ref => exact congrArg (NodeSpec.callActivity a) (parseOrZero_toText href hproper.2)
  | _ => rfl

mutual

/-- What has plain references is read as it is persisted. -/
theorem reread_plain : ∀ d : ProcessDefinition, d.EveryNode NodeSpec.Proper → d.EveryNode NodeSpec.PlainRef →
    d.reread = d.persisted
  | ⟨id, version, nodes, flows, cancelActions⟩, hproper, href => by
    rw [ProcessDefinition.reread, ProcessDefinition.persisted, rereadNodes_plain nodes hproper href]

theorem rereadNodes_plain : ∀ nodes : List (NodeOf ProcessDefinition), EveryNodeOf NodeSpec.Proper nodes →
    EveryNodeOf NodeSpec.PlainRef nodes → rereadNodes nodes = persistedNodes nodes
  | [], _, _ => by rw [rereadNodes, persistedNodes]
  | n :: ns, hproper, href => by
    rw [EveryNodeOf] at hproper href
    rw [rereadNodes, persistedNodes, rereadNode_plain n hproper.1 href.1, rereadNodes_plain ns hproper.2 href.2]

theorem rereadNode_plain : ∀ n : NodeOf ProcessDefinition, EveryNodeFrom NodeSpec.Proper n →
    EveryNodeFrom NodeSpec.PlainRef n → rereadNode n = persistedNode n
  | ⟨id, name, spec⟩, hproper, href => by
    rw [EveryNodeFrom] at hproper href
    rw [rereadNode, persistedNode, NodeSpec.rereadWith_plain hproper.1 href.1, rereadNested_plain spec hproper.2 href.2]

theorem rereadNested_plain : ∀ spec : NodeSpec ProcessDefinition, EveryNested NodeSpec.Proper spec →
    EveryNested NodeSpec.PlainRef spec → rereadNested spec = persistedNested spec
  | .subProcess a none, _, _ => by rw [rereadNested, persistedNested, rereadSub, persistedSub]
  | .subProcess a (some d), hproper, href => by
    rw [EveryNested, EverySub] at hproper href
    rw [rereadNested, persistedNested, rereadSub, persistedSub, reread_plain d hproper href]
  | .endEvent _, _, _ => rfl
  | .startEvent _, _, _ => rfl
  | .serviceTask _ _, _, _ => rfl
  | .userTask _, _, _ => rfl
  | .receiveTask _, _, _ => rfl
  | .sendTask _, _, _ => rfl
  | .businessRuleTask _ _ _, _, _ => rfl
  | .callActivity _ _, _, _ => rfl
  | .intermediateCatchEvent _, _, _ => rfl
  | .intermediateThrowEvent _, _, _ => rfl
  | .boundaryEvent _, _, _ => rfl
  | .exclusiveGateway, _, _ => rfl
  | .parallelGateway, _, _ => rfl
  | .inclusiveGateway, _, _ => rfl
  | .eventBasedGateway, _, _ => rfl
  | .compensationThrowEvent _, _, _ => rfl

end

/-! ## Definitions that are accepted -/

/-- The node carries no rule, so no inline document is written, whose text the encoder would compact. -/
def NodeSpec.RuleFree : NodeSpec ProcessDefinition → Prop
  | .businessRuleTask _ _ rule => rule = none
  | _ => True

section RuleFree
variable {u : UnicodeTables}

theorem ruleFree_of_checkRules {d : ProcessDefinition} (h : checkRules d = []) : ∀ n ∈ d.nodes, n.spec.RuleFree := by
  intro n hn
  have hnone := List.flatMap_eq_nil_iff.mp h n hn
  unfold NodeOf.ruleOf at hnone
  unfold NodeSpec.RuleFree
  split
  · rename_i rule hspec
    rw [hspec] at hnone
    cases rule with
    | none => rfl
    | some r =>
      dsimp only at hnone
      split_ifs at hnone
  · trivial

mutual

/-- `model.Validate` accepts no rule, at any depth. -/
theorem ruleFree_of_valid : ∀ d : ProcessDefinition, validateStructure u d = [] → d.EveryNode NodeSpec.RuleFree
  | ⟨id, version, nodes, flows, cancelActions⟩, h => by
    rw [validateStructure, List.append_eq_nil_iff] at h
    obtain ⟨hlevel, hnested⟩ := h
    simp only [checkLevel, List.append_eq_nil_iff] at hlevel
    rw [ProcessDefinition.EveryNode]
    exact nodesRuleFree nodes (ruleFree_of_checkRules hlevel.1.1.1.2) hnested

theorem nodesRuleFree : ∀ nodes : List (NodeOf ProcessDefinition), (∀ n ∈ nodes, n.spec.RuleFree) →
    validateNodes u nodes = [] → EveryNodeOf NodeSpec.RuleFree nodes
  | [], _, _ => trivial
  | n :: ns, hself, h => by
    rw [validateNodes, List.append_eq_nil_iff] at h
    exact ⟨nodeRuleFree n (hself n List.mem_cons_self) h.1,
      nodesRuleFree ns (fun m hm => hself m (List.mem_cons_of_mem _ hm)) h.2⟩

theorem nodeRuleFree : ∀ n : NodeOf ProcessDefinition, n.spec.RuleFree → validateNode u n = [] →
    EveryNodeFrom NodeSpec.RuleFree n
  | ⟨_, _, spec⟩, hself, h => by
    rw [validateNode, List.map_eq_nil_iff] at h
    exact ⟨hself, nestedRuleFree spec h⟩

theorem nestedRuleFree : ∀ spec : NodeSpec ProcessDefinition, validateSpec u spec = [] → EveryNested NodeSpec.RuleFree spec
  | .subProcess _ (some d), h => by
    rw [validateSpec, validateSub] at h
    exact ruleFree_of_valid d h
  | .subProcess _ none, _ | .startEvent _, _ | .endEvent _, _ | .serviceTask _ _, _ | .userTask _, _ | .receiveTask _, _
  | .sendTask _, _ | .businessRuleTask _ _ _, _ | .callActivity _ _, _ | .intermediateCatchEvent _, _
  | .intermediateThrowEvent _, _ | .boundaryEvent _, _ | .exclusiveGateway, _ | .parallelGateway, _ | .inclusiveGateway, _
  | .eventBasedGateway, _ | .compensationThrowEvent _, _ => trivial

end

end RuleFree

end Wrkflw
