import Wrkflw.Definition.Model
import Wrkflw.Library.Graph
import Mathlib.Logic.Function.Iterate

/-!
# `model.Validate`

The publish-time gate of a definition. Every check of `validate.go` appends its defects; a definition
is accepted when none is left (`Accepted`). Nodes are values of a closed type here, so the
foreign-node-type check has nothing to reject, and nested definitions are finite trees, so the
visited set of the source is not needed.

`unicode.IsLetter` and `unicode.IsDigit` are tables outside the repository and are taken as a
parameter.
-/

namespace Wrkflw

open Library (reach)

/-- The Unicode classes `isIdentifier` consults. -/
structure UnicodeTables where
  isLetter : Char → Bool
  isDigit : Char → Bool

/-- The tables on the ASCII characters. -/
def asciiTables : UnicodeTables := ⟨Char.isAlpha, Char.isDigit⟩

inductive ValidateErr where
  | invalidVersion | duplicateNodeID | duplicateFlowID | noStartEvent | eventStartMissingTrigger
  | ambiguousStartTrigger | multipleManualStarts | danglingFlow | deadEnd | startHasIncoming
  | endHasOutgoing | conditionNotAllowed | defaultNotAllowed | multipleDefaults | eventGatewayTarget
  | mixedGateway | eventSubprocessOnFlow | unreachableNode | unpairedJoin | boundaryAttachment
  | boundaryErrorHost | boundaryTriggerHost | missingSubprocess | missingDefRef | invalidRetryPolicy
  | invalidRecoveryFlow | payloadValidationRequiresMessage | catchEventMissingTrigger
  | throwEventMissingTrigger | emptyMessageName | blankEventName | deadlineTriggerRecurring
  | triggerNeverDue | deadlineActionWithoutDeadline | completionActionUnsupportedKind | invalidRule
  | ruleAndAction | ruleNotSupported | compensateActionWithoutForwardAction | manualTaskValidation
  | rolesAndPrivileges | emptyOutcome | duplicateOutcome | invalidOutcomeVariable | manualTaskOutcome
  | outcomeExposureWithoutOutcomes | emptyCancelAction | scopeLocalWithCompensateRef
  | compensateRefNotFound
  deriving DecidableEq, Repr

/-- One defect: the sentinel and the text that names where it was found. -/
structure Defect where
  err : ValidateErr
  detail : String
  deriving DecidableEq, Repr

/-- `unicode.IsSpace`. -/
def isSpace (c : Char) : Bool :=
  let n := c.toNat
  (9 ≤ n && n ≤ 13) || n == 32 || n == 0x85 || n == 0xA0 || n == 0x1680 || (0x2000 ≤ n && n ≤ 0x200A)
    || n == 0x2028 || n == 0x2029 || n == 0x202F || n == 0x205F || n == 0x3000

/-- `strings.TrimSpace(s) == ""`. -/
def isBlank (s : String) : Bool := s.toList.all isSpace

def isIdentifier (u : UnicodeTables) (s : String) : Bool :=
  match s.toList with
  | [] => false
  | c :: cs => (c == '_' || u.isLetter c) && cs.all (fun r => r == '_' || u.isLetter r || u.isDigit r)

section Kinds

def activityKinds : NodeKind → Bool
  | .serviceTask | .userTask | .receiveTask | .sendTask | .businessRuleTask | .subProcess
  | .callActivity => true
  | _ => false

def gatewayKinds : NodeKind → Bool
  | .exclusiveGateway | .inclusiveGateway | .parallelGateway | .eventBasedGateway => true
  | _ => false

def errorBoundaryHostKinds : NodeKind → Bool
  | .serviceTask | .subProcess | .callActivity => true
  | _ => false

def triggerBoundaryHostKinds : NodeKind → Bool
  | .serviceTask | .businessRuleTask | .receiveTask | .userTask => true
  | _ => false

end Kinds

/-! ## The wire fields the checks read -/

namespace NodeOf
variable {D : Type}

def messageName (n : NodeOf D) : String :=
  match n.spec with
  | .startEvent e => e.messageName
  | .receiveTask r => r.messageName
  | .sendTask t => t.messageName
  | .intermediateCatchEvent e => e.messageName
  | .boundaryEvent e => e.messageName
  | _ => ""

def signalName (n : NodeOf D) : String :=
  match n.spec with
  | .startEvent e => e.signalName
  | .intermediateCatchEvent e => e.signalName
  | .intermediateThrowEvent s => s
  | .boundaryEvent e => e.signalName
  | _ => ""

def timer (n : NodeOf D) : TriggerSpec :=
  match n.spec with
  | .startEvent e => e.timer
  | .intermediateCatchEvent e => e.timer
  | .boundaryEvent e => e.timer
  | _ => {}

def correlationKey (n : NodeOf D) : String :=
  match n.spec with
  | .startEvent e => e.correlationKey
  | .receiveTask r => r.correlationKey
  | .sendTask t => t.correlationKey
  | .intermediateCatchEvent e => e.correlationKey
  | .boundaryEvent e => e.correlationKey
  | _ => ""

/-- `ValidationStrategyFor(n) != nil`. -/
def hasValidation (n : NodeOf D) : Bool :=
  match n.spec with
  | .startEvent e => e.hasValidation
  | .userTask u => u.hasValidation
  | .receiveTask r => r.hasValidation
  | .intermediateCatchEvent e => e.hasValidation
  | _ => false

def hasTriggerFamily (n : NodeOf D) : Bool :=
  n.messageName != "" || n.signalName != "" || !n.timer.isZero

/-- The host a boundary event is attached to; empty on any other node. -/
def attachedTo (n : NodeOf D) : String :=
  match n.spec with
  | .boundaryEvent e => e.attachedTo
  | _ => ""

def subprocess (n : NodeOf D) : Option D :=
  match n.spec with
  | .subProcess _ sub => sub
  | _ => none

end NodeOf

def isEventTriggeredSubprocess (n : Node) : Bool :=
  match n.subprocess with
  | some sub => sub.startNodes.any (fun st => st.hasTriggerFamily)
  | none => false

/-! ## Reachability -/

/-- The nodes a token on `seed` can reach along sequence flows, `seed` included. -/
def forwardReachable (d : ProcessDefinition) (seed : String) : List String :=
  reach (fun n => (d.outgoing n).map (·.target)) (d.flows.length + 1) seed

/-- The grow-until-stable pass over the boundary events: one round adds what the boundaries of
reached hosts reach. -/
def growBoundaries (d : ProcessDefinition) (reached : List String) : List String :=
  d.nodes.foldl (fun acc n =>
    if n.kind == .boundaryEvent && !acc.contains n.id && acc.contains n.attachedTo then
      acc ++ (forwardReachable d n.id).filter (fun id => !acc.contains id)
    else acc) reached

/-- The reached set: the starts, the event sub-processes and, until nothing is added, the boundaries
of reached hosts. One round per node is enough, since a growing round reaches a new boundary. -/
def reachedNodes (d : ProcessDefinition) : List String :=
  let seeds := d.startNodes ++ d.nodes.filter isEventTriggeredSubprocess
  (growBoundaries d)^[d.nodes.length] (seeds.flatMap (fun n => forwardReachable d n.id))

def hasConcurrencySource (d : ProcessDefinition) (joinID : String) : Bool :=
  d.nodes.any (fun f =>
    f.id != joinID && (f.kind == .parallelGateway || f.kind == .inclusiveGateway) &&
      decide (1 < (d.outgoing f.id).length) &&
      decide (2 ≤ ((d.outgoing f.id).filter
        (fun b => (forwardReachable d b.target).contains joinID)).length))

/-! ## The checks -/

section Checks
variable (u : UnicodeTables) (d : ProcessDefinition)

def atNode (n : Node) : String := "node " ++ quoted n.id

/-- A defect on every node that fails `bad`. -/
def nodeDefects (err : ValidateErr) (bad : Node → Bool) : List Defect :=
  (d.nodes.filter bad).map (fun n => ⟨err, atNode n⟩)

/-- A defect on every flow that fails `bad`. -/
def flowDefects (err : ValidateErr) (bad : SequenceFlow → Bool) : List Defect :=
  (d.flows.filter bad).map (fun f => ⟨err, "flow " ++ quoted f.id⟩)

/-- The ids that occur a second time. -/
def duplicates : List String → List String → List String
  | _, [] => []
  | seen, x :: xs => if seen.contains x then x :: duplicates seen xs else duplicates (x :: seen) xs

def checkIDs : List Defect :=
  (duplicates [] (d.nodes.map (·.id))).map (fun id => ⟨.duplicateNodeID, "node " ++ quoted id⟩) ++
    (duplicates [] ((d.flows.map (·.id)).filter (· != ""))).map
      (fun id => ⟨.duplicateFlowID, "flow " ++ quoted id⟩)

/-- How many of the three trigger families the start declares. -/
def triggerFamilies (n : Node) : Nat :=
  (if n.messageName != "" then 1 else 0) + (if n.signalName != "" then 1 else 0) +
    (if !n.timer.isZero then 1 else 0)

def checkStarts : List Defect :=
  let missing := fun (s : Node) => s.messageName == "" && s.correlationKey != ""
  let manual := d.startNodes.filter (fun s => !missing s && triggerFamilies s == 0)
  (if d.startNodes.isEmpty then [⟨.noStartEvent, ""⟩] else []) ++
    nodeDefects d .eventStartMissingTrigger (fun n => n.kind == .startEvent && missing n) ++
    nodeDefects d .ambiguousStartTrigger
      (fun n => n.kind == .startEvent && !missing n && decide (1 < triggerFamilies n)) ++
    (if 1 < manual.length then [⟨.multipleManualStarts, ""⟩] else [])

def checkDangling : List Defect :=
  flowDefects d .danglingFlow (fun f => (d.node f.source).isNone) ++
    flowDefects d .danglingFlow (fun f => (d.node f.target).isNone)

def checkEnds : List Defect :=
  nodeDefects d .deadEnd (fun n => n.kind != .endEvent && !isEventTriggeredSubprocess n &&
      (d.outgoing n.id).isEmpty) ++
    nodeDefects d .startHasIncoming (fun n => n.kind == .startEvent && !(d.incoming n.id).isEmpty) ++
    nodeDefects d .endHasOutgoing (fun n => n.kind == .endEvent && !(d.outgoing n.id).isEmpty)

def conditional (n : Node) : Bool := n.kind == .exclusiveGateway || n.kind == .inclusiveGateway

def checkConditions : List Defect :=
  d.nodes.flatMap (fun n =>
    (d.outgoing n.id).flatMap (fun f =>
      (if f.condition != "" && !conditional n then
        [⟨.conditionNotAllowed, "flow " ++ quoted f.id ++ " from " ++ atNode n⟩] else []) ++
      (if f.isDefault && !conditional n then
        [⟨.defaultNotAllowed, "flow " ++ quoted f.id ++ " from " ++ atNode n⟩] else [])) ++
    (if 1 < ((d.outgoing n.id).filter (·.isDefault)).length then [⟨.multipleDefaults, atNode n⟩] else []))

def checkGateways : List Defect :=
  nodeDefects d .eventGatewayTarget (fun n => n.kind == .eventBasedGateway &&
      (d.outgoing n.id).any (fun f => match d.node f.target with
        | some t => t.kind != .intermediateCatchEvent
        | none => false)) ++
    nodeDefects d .mixedGateway (fun n => gatewayKinds n.kind && decide (1 < (d.incoming n.id).length) &&
      decide (1 < (d.outgoing n.id).length)) ++
    nodeDefects d .eventSubprocessOnFlow (fun n => isEventTriggeredSubprocess n &&
      (!(d.incoming n.id).isEmpty || !(d.outgoing n.id).isEmpty))

def checkReachability : List Defect :=
  if d.startNodes.isEmpty then [] else
    let reached := reachedNodes d
    nodeDefects d .unreachableNode (fun n => !reached.contains n.id) ++
      nodeDefects d .unpairedJoin (fun n => n.kind == .parallelGateway &&
        decide (1 < (d.incoming n.id).length) && (d.outgoing n.id).length == 1 &&
        reached.contains n.id && !hasConcurrencySource d n.id)

def checkBoundaries : List Defect :=
  d.nodes.flatMap (fun n =>
    if n.kind != .boundaryEvent then [] else
    match d.node n.attachedTo with
    | none => [⟨.boundaryAttachment, "boundary event " ++ quoted n.id⟩]
    | some host =>
      if !activityKinds host.kind then [⟨.boundaryAttachment, "boundary event " ++ quoted n.id⟩]
      else if !n.hasTriggerFamily then
        (if errorBoundaryHostKinds host.kind then []
          else [⟨.boundaryErrorHost, "boundary error event " ++ quoted n.id⟩])
      else
        (if triggerBoundaryHostKinds host.kind then []
          else [⟨.boundaryTriggerHost, "boundary event " ++ quoted n.id⟩]))

def checkActivities : List Defect :=
  nodeDefects d .missingSubprocess (fun n => n.kind == .subProcess && n.subprocess.isNone) ++
    nodeDefects d .missingDefRef (fun n => match n.spec with
      | .callActivity _ ref => ref.toText == ""
      | _ => false) ++
    nodeDefects d .invalidRetryPolicy (fun n => match n.retryPolicyOf with
      | some p => decide (p.maxAttempts < 0) || decide (p.initialInterval < 0) ||
          decide (p.maxInterval < 0) || (decide (0 < p.initialInterval) && decide (p.backoffCoef < 1))
      | none => false) ++
    nodeDefects d .invalidRecoveryFlow (fun n => n.recoveryFlowOf != "" &&
      !d.flows.any (fun f => f.id == n.recoveryFlowOf && f.source == n.id))

def checkEvents : List Defect :=
  nodeDefects d .payloadValidationRequiresMessage (fun n => n.kind == .intermediateCatchEvent &&
      n.hasValidation && n.messageName == "") ++
    nodeDefects d .catchEventMissingTrigger (fun n => n.kind == .intermediateCatchEvent &&
      !n.hasTriggerFamily) ++
    nodeDefects d .throwEventMissingTrigger (fun n => n.kind == .intermediateThrowEvent &&
      n.signalName == "") ++
    nodeDefects d .emptyMessageName (fun n => n.kind == .receiveTask && isBlank n.messageName) ++
    nodeDefects d .blankEventName (fun n => (n.signalName != "" && isBlank n.signalName) ||
      (n.messageName != "" && isBlank n.messageName))

def checkTimers : List Defect :=
  nodeDefects d .deadlineTriggerRecurring (fun n => !n.deadlineOf.1.isZero && n.deadlineOf.1.recurring) ++
    nodeDefects d .triggerNeverDue (fun n => !n.timer.isZero && n.timer.neverDue) ++
    nodeDefects d .triggerNeverDue (fun n => !n.waitActionOf.1.isZero && n.waitActionOf.1.neverDue) ++
    nodeDefects d .deadlineActionWithoutDeadline (fun n => n.deadlineOf.2.2 != "" && n.deadlineOf.1.isZero)

/-- The inline document's shape is a JSON question outside the repository; a business-rule task that
carries any rule is rejected whatever its shape is. -/
def checkRules : List Defect :=
  d.nodes.flatMap (fun n => match n.ruleOf with
    | none => []
    | some r =>
      if (r.name == "" && r.inline == "") || (r.name != "" && (r.inline != "" || isBlank r.name)) then
        [⟨.invalidRule, atNode n⟩]
      else if n.actionOf != "" then [⟨.ruleAndAction, atNode n⟩]
      else [⟨.ruleNotSupported, atNode n⟩])

def checkTaskActions : List Defect :=
  let userOrReceive := fun (n : Node) => n.kind == .userTask || n.kind == .receiveTask
  nodeDefects d .completionActionUnsupportedKind (fun n => n.completionActionOf != "" && !userOrReceive n) ++
    nodeDefects d .compensateActionWithoutForwardAction (fun n => userOrReceive n &&
      n.compensateActionOf != "" && n.completionActionOf == "")

def validateOutcomes (n : Node) (t : UserTask) : List Defect :=
  (if t.outcomes.any isBlank then [⟨.emptyOutcome, atNode n⟩] else []) ++
    (duplicates [] (t.outcomes.filter (fun o => !isBlank o))).map
      (fun o => ⟨.duplicateOutcome, atNode n ++ " outcome " ++ quoted o⟩) ++
    (if t.outcomeVariable != "" && !isIdentifier u t.outcomeVariable then
      [⟨.invalidOutcomeVariable, atNode n ++ " variable " ++ quoted t.outcomeVariable⟩] else []) ++
    (if t.manual && (!t.outcomes.isEmpty || t.exposeOutcome || t.outcomeVariable != "") then
      [⟨.manualTaskOutcome, atNode n⟩] else []) ++
    (if !t.manual && t.outcomes.isEmpty && (t.exposeOutcome || t.outcomeVariable != "") then
      [⟨.outcomeExposureWithoutOutcomes, atNode n⟩] else [])

def checkUserTasks : List Defect :=
  d.nodes.flatMap (fun n => match n.spec with
    | .userTask t =>
      (if t.manual && t.hasValidation then [⟨.manualTaskValidation, atNode n⟩] else []) ++
        (if !t.eligibleRoles.isEmpty && !t.eligiblePrivileges.isEmpty then
          [⟨.rolesAndPrivileges, atNode n⟩] else []) ++
        validateOutcomes u n t
    | _ => [])

def checkCompensation : List Defect :=
  (if d.cancelActions.contains "" then [⟨.emptyCancelAction, "CancelActions"⟩] else []) ++
    d.nodes.flatMap (fun n => match n.spec with
      | .compensationThrowEvent e =>
        if e.compensateRef == "" then [] else
          (if e.scopeLocal then [⟨.scopeLocalWithCompensateRef, "throw " ++ quoted n.id⟩] else []) ++
          (if (d.node e.compensateRef).isNone then
            [⟨.compensateRefNotFound, "throw " ++ quoted n.id ++ " -> " ++ quoted e.compensateRef⟩] else [])
      | _ => [])

/-- Every check of one level of the definition. -/
def checkLevel : List Defect :=
  checkIDs d ++ checkStarts d ++ checkDangling d ++ checkEnds d ++ checkConditions d ++ checkGateways d ++
    checkReachability d ++ checkBoundaries d ++ checkActivities d ++ checkEvents d ++ checkTimers d ++
    checkRules d ++ checkTaskActions d ++ checkUserTasks u d ++ checkCompensation d

end Checks

section Nested
variable (u : UnicodeTables)

mutual

/-- The checks of a definition and of every definition nested in it. -/
def validateStructure : ProcessDefinition → List Defect
  | ⟨id, version, nodes, flows, cancelActions⟩ =>
    checkLevel u ⟨id, version, nodes, flows, cancelActions⟩ ++ validateNodes nodes

def validateNodes : List (NodeOf ProcessDefinition) → List Defect
  | [] => []
  | n :: ns => validateNode n ++ validateNodes ns

def validateNode : NodeOf ProcessDefinition → List Defect
  | ⟨id, _, spec⟩ => (validateSpec spec).map
      (fun e => ⟨e.err, "subprocess " ++ quoted id ++ ": " ++ e.detail⟩)

def validateSpec : NodeSpec ProcessDefinition → List Defect
  | .subProcess _ sub => validateSub sub
  | _ => []

def validateSub : Option ProcessDefinition → List Defect
  | none => []
  | some d => validateStructure d

end

/-- `model.Validate`, as the list of defects it joins. -/
def validate (d : ProcessDefinition) : List Defect :=
  (if d.version < 1 then [⟨.invalidVersion, toString d.version⟩] else []) ++ validateStructure u d

/-- The definitions `model.Validate` accepts. -/
def Accepted (d : ProcessDefinition) : Prop := validate u d = []

instance (d : ProcessDefinition) : Decidable (Accepted u d) := inferInstanceAs (Decidable (_ = _))

end Nested

end Wrkflw
