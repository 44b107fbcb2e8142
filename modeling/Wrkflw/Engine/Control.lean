import Wrkflw.Engine.Types
import Mathlib.Data.List.Sort

/-!
# The control state

The part of an instance the control flow and the rollback are about, with the operations of
`step_state.go`, `close_kind.go`, `state_compensation.go` and `flow_identity.go` on it:

* `FlowRef`, `outgoingFlows`, `incomingFlows` : flows with the identity a token carries;
* `ControlState` : tokens, visits, scopes, compensation records, the walk's cursor, the pending cancel
  and the deferred throws. A field the source updates through a pointer is updated by id here;
* `defForScope` : the definition a scope executes;
* placing, moving and consuming tokens; opening, archiving and closing scopes; the records a walk has
  dispatched.

`trace` is a history variable: it lists what the engine did, newest first. No operation reads it.
-/

namespace Wrkflw

/-! ## Flow identities -/

/-- A flow with its position in the definition. -/
structure FlowRef where
  index : Nat
  flow : SequenceFlow
  deriving DecidableEq, Repr

def FlowRef.identity (r : FlowRef) : String := toString r.index ++ ":" ++ r.flow.id

/-- The flows of a definition with their positions. -/
def flowRefs (d : ProcessDefinition) : List FlowRef :=
  d.flows.zipIdx.map (fun p => ⟨p.2, p.1⟩)

def outgoingFlows (d : ProcessDefinition) (nodeID : String) : List FlowRef :=
  (flowRefs d).filter (fun r => r.flow.source == nodeID)

def incomingFlows (d : ProcessDefinition) (nodeID : String) : List FlowRef :=
  (flowRefs d).filter (fun r => r.flow.target == nodeID)

def flowRefByID (d : ProcessDefinition) (id : String) : Option FlowRef :=
  (flowRefs d).find? (fun r => r.flow.id == id)

/-! ## The state -/

/-- The archive of closed scopes' records, keyed by the sub-process node. -/
abbrev Archive := List (String × List CompensationRecord)

/-- What the engine did. An event that closes, fires or takes out something carries what the code saw
before. -/
inductive Event where
  | arrived (token node scope flow : String)
  | cancelled (token : Token) (queue : List String) (walking : Bool)
  | resolved (token : Token) (queue : List String)
  | passed (token : String) (queue : List String) (walking : Bool)
  | resumed (popDeferred : Bool) (queue : List String)
  | reactivated (token : String)
  | parallelFired (scope node : String) (consumed : List Token)
  | inclusiveFired (scope node : String) (consumed tokens : List Token) (scopes : List Scope)
      (cursor : CompensationCursor)
  | opened (scope node parent : String)
  | exited (scope : String) (enclosing : Bool) (tokens : List Token) (scopes : List Scope)
      (cursor : CompensationCursor)
  | interrupted (scope : String) (cursor : CompensationCursor)
  | recorded (record : CompensationRecord)
  | dispatched (record : CompensationRecord) (cmdID : String)
  | redispatched (record : CompensationRecord) (cmdID : String)
  | cancelPended (cursor : CompensationCursor)
  | deferredFailure (errorCode : String) (cursor : CompensationCursor)
  | childFailed (err : String) (cursor : CompensationCursor)
  | forced (outcome : TerminationOutcome) (pendingCancel : Bool)
  | ended (status : Status) (err : String) (cursor : CompensationCursor)
  deriving Repr

structure ControlState where
  instanceID : String := ""
  status : Status := .running
  tokens : List Token := []
  history : List NodeVisit := []
  scopes : List Scope := []
  rootCompensations : List CompensationRecord := []
  archivedCompensations : Archive := []
  compensating : CompensationCursor := {}
  pendingCancel : Bool := false
  pendingFinalStatus : Status := .running
  pendingFinalErr : String := ""
  deferredCompensationThrows : List String := []
  recentCompensationCmdIDs : List String := []
  cmdSeq : Nat := 0
  tokenSeq : Nat := 0
  scopeSeq : Nat := 0
  trace : List Event := []
  deriving Repr

namespace Archive

/-- `m[key]`, nil when absent. -/
def get (m : Archive) (key : String) : List CompensationRecord :=
  match m.find? (fun e => e.1 == key) with
  | some e => e.2
  | none => []

/-- `m[key] = records`. -/
def set (m : Archive) (key : String) (records : List CompensationRecord) : Archive :=
  if m.any (fun e => e.1 == key) then m.map (fun e => if e.1 == key then (key, records) else e)
  else m ++ [(key, records)]

/-- `delete(m, key)`. -/
def erase (m : Archive) (key : String) : Archive := m.filter (fun e => e.1 != key)

/-- The record at a position of the bucket goes; the bucket goes with its last record. -/
def dropAt (m : Archive) (key : String) (i : Int) : Archive :=
  if i < 0 || ((m.get key).length : Int) ≤ i then m
  else if ((m.get key).eraseIdx i.toNat).isEmpty then m.erase key
  else m.set key ((m.get key).eraseIdx i.toNat)

/-- The records bucket by bucket, in the order of the sorted keys. -/
def flattened (m : Archive) : List CompensationRecord :=
  ((m.map (·.1)).insertionSort (· ≤ ·)).flatMap (fun k => m.get k)

end Archive

/-- `cmp.Or(a.CompletedAt.Compare(b.CompletedAt), cmp.Compare(a.NodeID, b.NodeID)) <= 0`. -/
def CompensationRecord.le (a b : CompensationRecord) : Prop :=
  a.completedAt < b.completedAt ∨ (a.completedAt = b.completedAt ∧ a.nodeID ≤ b.nodeID)

instance : DecidableRel CompensationRecord.le :=
  fun a b => inferInstanceAs (Decidable (a.completedAt < b.completedAt ∨ _))

/-! ## Scopes -/

def scopeByID (scopes : List Scope) (id : String) : Option Scope := scopes.find? (fun sc => sc.id == id)

/-- `defForScope`, with one unit of fuel per parent link. -/
def defForScopeAux (top : ProcessDefinition) (scopes : List Scope) :
    Nat → String → Except EngineError ProcessDefinition
  | 0, _ => .error ⟨.outOfFuel, ""⟩
  | fuel + 1, scopeID =>
    if scopeID == "" then .ok top else
    match scopeByID scopes scopeID with
    | none => .error (plainError ("defForScope: unknown scope " ++ quoted scopeID))
    | some scope =>
      match defForScopeAux top scopes fuel scope.parentID with
      | .error e => .error e
      | .ok parentDef =>
        match parentDef.node scope.nodeID with
        | none => .error (plainError ("defForScope: sub-process node " ++ quoted scope.nodeID ++
            " not found in parent definition"))
        | some node =>
          match node.spec with
          | .subProcess _ (some sub) => .ok sub
          | _ => .error (plainError ("defForScope: node " ++ quoted scope.nodeID ++
              " has no Subprocess definition"))

def defForScope (top : ProcessDefinition) (scopes : List Scope) (scopeID : String) :
    Except EngineError ProcessDefinition :=
  defForScopeAux top scopes (scopes.length + 1) scopeID

/-- `descendantScopeIDs`: one pass over the scopes in the order they were opened. -/
def descendantScopeIDs (scopes : List Scope) (scopeID : String) : List String :=
  scopes.foldl (fun ids sc =>
    if ids.contains sc.id || ids.contains sc.parentID then ids ++ [sc.id] else ids) [scopeID]

def tokensInScope (tokens : List Token) (scopeID : String) : Nat :=
  (tokens.filter (fun t => t.scopeID == scopeID)).length

def tokensInScopeSubtree (tokens : List Token) (scopes : List Scope) (scopeID : String) : Nat :=
  (tokens.filter (fun t => (descendantScopeIDs scopes scopeID).contains t.scopeID)).length

def hasChildScopeWithTokens (tokens : List Token) (scopes : List Scope) (parentID exceptID : String) : Bool :=
  scopes.any (fun sc => sc.parentID == parentID && sc.id != exceptID &&
    decide (0 < tokensInScopeSubtree tokens scopes sc.id))

/-- Applies `f` to the first entry of the list that satisfies `p`. -/
def updateFirst {α : Type} (p : α → Bool) (f : α → α) : List α → List α
  | [] => []
  | a :: l => if p a then f a :: l else a :: updateFirst p f l

namespace ControlState
variable (s : ControlState)

def tokenByID (tokenID : String) : Option Token :=
  if tokenID == "" then none else s.tokens.find? (fun t => t.id == tokenID)

def firstActive : Option Token := s.tokens.find? (fun t => t.state == .active)

def tokenAwaiting (cmdID : String) : Option Token :=
  if cmdID == "" then none else s.tokens.find? (fun t => t.awaitCommand == cmdID)

def tokenAwaitingMessage (name correlationKey : String) : Option Token :=
  if name == "" then none
  else s.tokens.find? (fun t => t.awaitMessage == name && t.awaitMessageKey == correlationKey)

def tokenIDsAwaitingSignal (name : String) : List String :=
  if name == "" then [] else (s.tokens.filter (fun t => t.awaitSignal == name)).map (·.id)

def note (e : Event) : ControlState := { s with trace := e :: s.trace }

/-- A compensation walk is in flight. -/
def walking : Bool := s.compensating.activeCmdID != ""

/-! ## Visits -/

/-- Updates the visit `openVisitFor` finds: the latest open one of the token at the node. -/
def updateOpenVisit (tokenID nodeID : String) (f : NodeVisit → NodeVisit) : ControlState :=
  if tokenID == "" || nodeID == "" then s else
    let isOpen := fun (v : NodeVisit) => v.tokenID == tokenID && v.nodeID == nodeID && v.leftAt.isNone
    { s with history := (updateFirst isOpen f s.history.reverse).reverse }

def openVisit (tokenID nodeID : String) (at_ : Time) : ControlState :=
  { s with history := s.history ++ [{ nodeID := nodeID, tokenID := tokenID, enteredAt := at_ }] }

def closeVisitAs (tokenID nodeID : String) (at_ : Time) (kind : CloseKind) : ControlState :=
  s.updateOpenVisit tokenID nodeID (fun v => { v with leftAt := some at_, closeKind := kind })

/-- `closeVisit` leaves the close kind alone. -/
def closeVisit (tokenID nodeID : String) (at_ : Time) : ControlState :=
  s.updateOpenVisit tokenID nodeID (fun v => { v with leftAt := some at_ })

def setVisitTask (tokenID nodeID taskID : String) : ControlState :=
  s.updateOpenVisit tokenID nodeID (fun v => { v with taskID := taskID })

/-! ## Tokens -/

/-- A write through the pointer to the token with this id. -/
def updateToken (id : String) (f : Token → Token) : ControlState :=
  { s with tokens := s.tokens.map (fun t => if t.id == id then f t else t) }

def setTokenState (id : String) (st : TokenState) : ControlState :=
  s.updateToken id (fun t => { t with state := st })

def placeTokenInScope (g : IDGenerator) (nodeID scopeID arrivalFlow : String) (at_ : Time) : ControlState :=
  let id := g.newID .token (s.tokenSeq + 1)
  let tok : Token := { id := id, nodeID := nodeID, scopeID := scopeID, enteredAt := at_, arrivalFlow := arrivalFlow }
  ({ s with tokenSeq := s.tokenSeq + 1, tokens := s.tokens ++ [tok] }.openVisit id nodeID at_).note
    (.arrived id nodeID scopeID arrivalFlow)

def removeToken (id : String) : ControlState :=
  if id == "" then s else { s with tokens := s.tokens.filter (fun t => t.id != id) }

def consumeTokenAs (tok : Token) (at_ : Time) (kind : CloseKind) : ControlState :=
  (s.closeVisitAs tok.id tok.nodeID at_ kind).removeToken tok.id

def consumeToken (tok : Token) (at_ : Time) : ControlState := s.consumeTokenAs tok at_ .normal

/-- The token leaves its node for `target` and its arrival flow is set; its state is kept. -/
def relocate (tok : Token) (target arrivalFlow : String) (at_ : Time) : ControlState :=
  ((s.updateToken tok.id (fun t => { t with nodeID := target, enteredAt := at_, arrivalFlow := arrivalFlow })).openVisit
    tok.id target at_).note (.arrived tok.id target tok.scopeID arrivalFlow)

def moveTokenToTargetAs (tok : Token) (target arrivalFlow : String) (at_ : Time) (kind : CloseKind) : ControlState :=
  ((s.closeVisitAs tok.id tok.nodeID at_ kind).setTokenState tok.id .active).relocate tok target arrivalFlow at_

def moveTokenToTarget (tok : Token) (target arrivalFlow : String) (at_ : Time) : ControlState :=
  s.moveTokenToTargetAs tok target arrivalFlow at_ .normal

/-- The token is taken out by a cancellation. -/
def cancelToken (tok : Token) (at_ : Time) (kind : CloseKind) : ControlState :=
  match s.tokenByID tok.id with
  | some t => (s.consumeTokenAs t at_ kind).note (.cancelled t s.deferredCompensationThrows s.walking)
  | none => s

/-- Every token is taken out by one cancellation (`s.Tokens = nil` after closing the visits). -/
def cancelAllTokens (at_ : Time) (kind : CloseKind) : ControlState :=
  let closed := s.tokens.foldl (fun s tok =>
    (s.closeVisitAs tok.id tok.nodeID at_ kind).note (.cancelled tok s.deferredCompensationThrows s.walking)) s
  { closed with tokens := [] }

/-! ## Compensation records -/

def setCompensations (scopeID : String) (f : List CompensationRecord → List CompensationRecord) : ControlState :=
  { s with scopes := updateFirst (fun sc => sc.id == scopeID)
             (fun sc => { sc with compensations := f sc.compensations }) s.scopes }

/-- `recordCompensation`. A record for a scope that is gone is dropped. -/
def recordCompensation (scopeID : String) (rec : CompensationRecord) : ControlState :=
  if scopeID == "" then { s with rootCompensations := s.rootCompensations ++ [rec] }.note (.recorded rec)
  else
    match scopeByID s.scopes scopeID with
    | none => s
    | some _ => (s.setCompensations scopeID (· ++ [rec])).note (.recorded rec)

def openScope (g : IDGenerator) (nodeID parentScopeID : String) : ControlState × String :=
  let id := g.newID .scope (s.scopeSeq + 1)
  let scope : Scope := { id := id, nodeID := nodeID, parentID := parentScopeID }
  ({ s with scopeSeq := s.scopeSeq + 1, scopes := s.scopes ++ [scope] }.note (.opened id nodeID parentScopeID), id)

/-- `scopeWideWalkDraining`: the walk in flight works on a copy of this scope's records. -/
def scopeWideWalkDraining (scopeID : String) : Bool :=
  s.compensating.activeCmdID != "" && !s.compensating.records.isEmpty && s.compensating.scopeID == scopeID

/-- `partitionForLiveWalk`: what to archive of a scope's records, and how many of them the walk in
flight has still to dispatch when it is this scope's walk. -/
def partitionForLiveWalk (scopeID : String) (records : List CompensationRecord) :
    List CompensationRecord × Option Nat :=
  if !s.scopeWideWalkDraining scopeID then (records, none) else
    let drained := min s.compensating.startRecordCount.toNat records.length
    let undispatched := min s.compensating.nextIndex.toNat drained
    (records.take undispatched ++ records.drop drained, some undispatched)

/-- The archive once a scope's records joined it under the scope's node. -/
def archivedWith (scope : Scope) (toArchive : List CompensationRecord) : Archive :=
  if toArchive.isEmpty then s.archivedCompensations
  else s.archivedCompensations.set scope.nodeID (s.archivedCompensations.get scope.nodeID ++ toArchive)

/-- The cursor that remembers where in the archive the records of its own scope went. -/
def cursorWithWindow (scope : Scope) : Option Nat → CompensationCursor
  | none => s.compensating
  | some n =>
    { s.compensating with
      teardownArchiveKey := scope.nodeID
      teardownArchiveOffset := (s.archivedCompensations.get scope.nodeID).length
      teardownArchiveCount := n }

def archiveCompensations (scopeID : String) : ControlState :=
  match scopeByID s.scopes scopeID with
  | none => s
  | some scope =>
    if scope.compensations.isEmpty then s else
      { s.setCompensations scopeID (fun _ => []) with
        archivedCompensations := s.archivedWith scope (s.partitionForLiveWalk scopeID scope.compensations).1
        compensating := s.cursorWithWindow scope (s.partitionForLiveWalk scopeID scope.compensations).2 }

def harvestOpenScopeCompensations : ControlState :=
  (s.scopes.map (·.id)).foldl (fun s id => s.archiveCompensations id) s

def consolidateArchiveIntoRoot : ControlState :=
  if s.archivedCompensations.isEmpty then s else
    { s with
      rootCompensations := (s.rootCompensations ++ s.archivedCompensations.flattened).insertionSort CompensationRecord.le
      archivedCompensations := [] }

def deleteArchiveSlot (key : String) : ControlState :=
  { s with archivedCompensations := s.archivedCompensations.erase key }

def dropArchiveRecordAt (key : String) (i : Int) : ControlState :=
  { s with archivedCompensations := s.archivedCompensations.dropAt key i }

def consumeDispatchedRecord (idx : Int) : ControlState :=
  let cur := s.compensating
  if cur.records.isEmpty then s
  else if cur.archiveKey != "" then s.dropArchiveRecordAt cur.archiveKey idx
  else if cur.teardownArchiveKey == "" || cur.teardownArchiveCount ≤ idx then s
  else { s.dropArchiveRecordAt cur.teardownArchiveKey (cur.teardownArchiveOffset + idx) with
         compensating := { cur with teardownArchiveCount := idx } }

def closeScope (scopeID : String) : ControlState :=
  if (scopeByID s.scopes scopeID).isNone then s else
    { s with scopes := s.scopes.filter (fun sc => !(descendantScopeIDs s.scopes scopeID).contains sc.id) }

def closeScopeDescendants (scopeID : String) : ControlState :=
  let doomed := descendantScopeIDs s.scopes scopeID
  { s with scopes := s.scopes.filter (fun sc => !(sc.id != scopeID && doomed.contains sc.id)) }

def compensationWalkHoldsScope (scopeID : String) : Bool :=
  if s.compensating.activeCmdID == "" || scopeID == "" then false
  else s.compensating.resumeScope == scopeID

/-- `compensationRecordsForScope`; the records of an unknown scope are nil. -/
def compensationRecordsForScope (scopeID : String) : List CompensationRecord :=
  if scopeID == "" then s.rootCompensations
  else match scopeByID s.scopes scopeID with
    | some sc => sc.compensations
    | none => []

def cursorRecords (cur : CompensationCursor) : List CompensationRecord :=
  if !cur.records.isEmpty then cur.records
  else if cur.archiveKey != "" then s.archivedCompensations.get cur.archiveKey
  else s.compensationRecordsForScope cur.scopeID

/-- Rewrites a scope's records (the root's for the empty id). -/
def mapRecords (scopeID : String) (f : List CompensationRecord → List CompensationRecord) : ControlState :=
  if scopeID == "" then { s with rootCompensations := f s.rootCompensations } else s.setCompensations scopeID f

def clearRecords (scopeID : String) : ControlState := s.mapRecords scopeID (fun _ => [])

def clearRecordsPrefix (scopeID : String) (n : Int) : ControlState :=
  s.mapRecords scopeID (fun records => records.drop n.toNat)

def setScopeRecords (scopeID : String) (records : List CompensationRecord) : ControlState :=
  s.mapRecords scopeID (fun _ => records)

def retainedRecordPrefix (scopeID : String) (n : Int) : List CompensationRecord :=
  (s.compensationRecordsForScope scopeID).take n.toNat

/-- `maxRecentCompensationCmdIDs`. -/
def maxRecentCompensationCmdIDs : Nat := 16

def recordCompensationDispatch (cmdID : String) : ControlState :=
  let ids := s.recentCompensationCmdIDs ++ [cmdID]
  { s with recentCompensationCmdIDs := ids.drop (ids.length - maxRecentCompensationCmdIDs) }

def isBenignCompensationDuplicate (cmdID : String) : Bool :=
  cmdID != s.compensating.activeCmdID && s.recentCompensationCmdIDs.contains cmdID

def spawnsNewWork : Bool :=
  match s.status with
  | .running => true
  | .compensating => !s.compensating.walkTerminates s.pendingCancel
  | _ => false

def popOneDeferredThrow : ControlState :=
  match s.deferredCompensationThrows with
  | [] => s
  | tok :: rest =>
    let s' := { s with deferredCompensationThrows := rest }
    match s'.tokenByID tok with
    | some t => (s'.setTokenState t.id .active).note (.reactivated tok)
    | none => s'

/-- The control part of `endInstance`; `err` is the text of the `FailInstance` it emits. -/
def endControl (st : Status) (err : String) : ControlState :=
  let s1 := ({ s with status := st }.harvestOpenScopeCompensations).note (.ended st err s.compensating)
  { s1 with compensating := {}, scopes := [] }

end ControlState

end Wrkflw
