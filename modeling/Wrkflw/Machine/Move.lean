import Wrkflw.Engine.Step
import Mathlib.Logic.Relation

/-!
# The control machine

An abstract machine over control states: `Move` says everything the engine can do to one between two
points where nothing is half done, with the guards the code establishes there, and `End` the ways an
instance ends. `Reaches` is a sequence of moves that may end with an `End`.

* `Forward` : the instance has not ended, no terminating root walk is in flight and no failure waits
  for a throw's walk, so new work may start;
* `Free` : the token waits on something, or is active on a node that lets it go on;
* `Stays`, `Leaves` : the token stops where it is, the token goes on along a flow;
* `Sweep` : what is done between two walks;
* `Finishing` : a walk is over, or there was nothing to walk over.
-/

namespace Wrkflw

namespace Token

def Awaits (t : Token) : Prop := t.awaitCommand ≠ "" ∨ t.awaitSignal ≠ "" ∨ t.awaitMessage ≠ ""

/-- What a token waits on fits its state: nothing while it is active or parked on a join, and never two
things at once. -/
structure AwaitOK (t : Token) : Prop where
  quiet : t.state = .active ∨ t.state = .joining → ¬ t.Awaits
  command : t.awaitCommand ≠ "" ∨ t.state = .incident → t.awaitSignal = "" ∧ t.awaitMessage = ""
  signal : t.awaitSignal ≠ "" → t.awaitMessage = ""

/-- The two tokens stand at the same place. -/
structure SamePlace (t t' : Token) : Prop where
  id : t'.id = t.id
  nodeID : t'.nodeID = t.nodeID
  scopeID : t'.scopeID = t.scopeID
  arrivalFlow : t'.arrivalFlow = t.arrivalFlow

end Token

/-- The node is a gateway with several incoming flows that joins them. -/
def Converging (d : ProcessDefinition) (nodeID : String) : Prop :=
  ∃ node, d.node nodeID = some node ∧ (node.kind = .parallelGateway ∨ node.kind = .inclusiveGateway) ∧
    1 < (d.incoming nodeID).length

/-- The node is a compensation-throw event. -/
def ThrowNode (d : ProcessDefinition) (nodeID : String) : Prop :=
  ∃ node e, d.node nodeID = some node ∧ node.spec = .compensationThrowEvent e

/-- The id is one of the first `n` of its kind. -/
def Minted (g : IDGenerator) (kind : IDKind) (n : Nat) (id : String) : Prop := ∃ k ≤ n, id = g.newID kind k

/-- The status an instance ended with. -/
def Event.end? : Event → Option Status
  | .ended st _ _ => some st
  | _ => none

/-- A failure waits, or waited, for a throw's walk. -/
def FailureDeferred (trace : List Event) : Prop :=
  ∃ err cur, Event.deferredFailure err cur ∈ trace ∧ cur.resumeNode ≠ ""

/-- The statuses a terminating walk may have been begun with. -/
def Status.Aborts (st : Status) : Prop := st = .running ∨ st = .terminated ∨ st = .failed

namespace ControlState

def InFlight (s : ControlState) : Prop := s.compensating.activeCmdID ≠ ""

/-- A walk over the root's records that ends the instance or restarts it is in flight. -/
def RootWalk (s : ControlState) : Prop :=
  s.InFlight ∧ s.compensating.resumeNode = "" ∧ s.compensating.toNode = ""

def Sealed (s : ControlState) : Prop := s.RootWalk ∨ FailureDeferred s.trace

/-- The instance may start new work. -/
structure Forward (s : ControlState) : Prop where
  live : s.status.isTerminal = false
  unsealed : ¬ s.Sealed

/-- The id is the root's or one that was minted for a scope. -/
def ScopeRef (g : IDGenerator) (s : ControlState) (scopeID : String) : Prop :=
  scopeID = "" ∨ Minted g .scope s.scopeSeq scopeID

/-- A command id is used up. -/
def mintCommand (s : ControlState) : ControlState := { s with cmdSeq := s.cmdSeq + 1 }

def nextCmdID (s : ControlState) (g : IDGenerator) : String := g.newID .command (s.cmdSeq + 1)

/-- Every scope of the list is archived, in turn. -/
def archiveAll (ids : List String) (s : ControlState) : ControlState :=
  ids.foldl (fun s id => s.archiveCompensations id) s

/-- The scope and the open scopes nested in it, the scope first. -/
def subtreeIDs (s : ControlState) (scopeID : String) : List String :=
  scopeID :: (s.scopes.map (·.id)).filter
    (fun id => id != scopeID && (descendantScopeIDs s.scopes scopeID).contains id)

def cancelListed (at_ : Time) (kind : CloseKind) (toks : List Token) (s : ControlState) : ControlState :=
  toks.foldl (fun s tok => s.cancelToken tok at_ kind) s

/-- The parked tokens a firing join consumes leave. -/
def withoutJoined (s : ControlState) (nodeID scopeID : String) (consumed : List Token) : ControlState :=
  { s with tokens := s.tokens.filter (fun t => !(joinedAt t nodeID scopeID && hasToken consumed t)) }

/-- The state a finished walk is taken up in. -/
def settled (s : ControlState) : ControlState := { s with compensating := {} }

/-- The root walk of an outcome dispatches the last of the root's records. -/
def beginWalk (g : IDGenerator) (s : ControlState) (o : CompensationOutcome) (at_ : Time) (rec : CompensationRecord) :
    ControlState :=
  { s.mintCommand with status := .compensating }.beginDispatch
    (o.walkCursor {} at_ ((s.rootCompensations.length : Int) - 1) (s.nextCmdID g)) rec (s.nextCmdID g)

/-- The cursor moves to the record below and dispatches it. -/
def advance (g : IDGenerator) (s : ControlState) (rec : CompensationRecord) : ControlState :=
  s.mintCommand.dispatch { s.compensating with
    nextIndex := s.compensating.nextIndex - 1, activeCmdID := s.nextCmdID g, retryAttempts := 0, retryTimerID := "" }
    (s.compensating.nextIndex - 1) rec (s.nextCmdID g)

/-- The record the cursor stands on is dispatched again. -/
def retryCurrent (g : IDGenerator) (s : ControlState) (rec : CompensationRecord) (attempts : Int) : ControlState :=
  s.mintCommand.redispatch { s.compensating with
    activeCmdID := s.nextCmdID g, retryAttempts := attempts, retryTimerID := "" } rec (s.nextCmdID g)

end ControlState

/-- The scope executes the definition. -/
inductive ScopeDefn (top : ProcessDefinition) (trace : List Event) : String → ProcessDefinition → Prop
  | root : ScopeDefn top trace "" top
  | nested {scope node parent : String} {d sub : ProcessDefinition} {n : Node} {activity : ActivityFields}
      (hopen : Event.opened scope node parent ∈ trace) (hparent : ScopeDefn top trace parent d)
      (hnode : d.node node = some n) (hspec : n.spec = .subProcess activity (some sub)) :
      ScopeDefn top trace scope sub

/-- The definition of the parent has the node as a sub-process. -/
def Hosts (top : ProcessDefinition) (trace : List Event) (node parent : String) : Prop :=
  ∃ d n activity sub, ScopeDefn top trace parent d ∧ d.node node = some n ∧ n.spec = .subProcess activity (some sub)

/-- A scope can be opened for the node: its parent is the root or open. -/
structure Openable (top : ProcessDefinition) (s : ControlState) (node parent : String) : Prop where
  parentOpen : parent = "" ∨ ∃ sc ∈ s.scopes, sc.id = parent
  hosts : Hosts top s.trace node parent

section Guards
variable (top : ProcessDefinition) (s : ControlState)

/-- The token may leave its node: no join holds it, and a throw event let it pass. -/
def Free (t : Token) : Prop :=
  t.Awaits ∨ (t.state = .active ∧ ∃ d, defForScope top s.scopes t.scopeID = .ok d ∧ ¬ Converging d t.nodeID ∧
    (ThrowNode d t.nodeID → Event.passed t.id s.deferredCompensationThrows s.walking ∈ s.trace))

/-- The token stops at its place. -/
structure Stays (t t' : Token) : Prop where
  place : t.SamePlace t'
  state : t'.state = .waiting ∨ t'.state = .incident
  free : Free top s t
  ok : t.AwaitOK → t'.AwaitOK

/-- The token goes on to `target`. -/
structure Leaves (t t' : Token) (target scope flow : String) : Prop where
  id : t'.id = t.id
  scope : t.scopeID = scope
  scopeID : t'.scopeID = t.scopeID
  nodeID : t'.nodeID = target
  arrivalFlow : t'.arrivalFlow = flow
  state : t'.state = .active
  free : Free top s t
  ok : t.AwaitOK → t'.AwaitOK

/-- `p` is the state a join is tried in: as it is, or with an active token parked on it first. -/
def ParkedOn (p : ControlState) (node : Node) (scopeID : String) : Prop :=
  p = s ∨ ∃ tok ∈ s.tokens, tok.state = .active ∧ tok.nodeID = node.id ∧ tok.scopeID = scopeID ∧
    p = s.setTokenState tok.id .joining

/-- The node of the scope's definition is a converging gateway of this kind. -/
structure JoinSite (d : ProcessDefinition) (node : Node) (scopeID : String) (kind : NodeKind) : Prop where
  defn : defForScope top s.scopes scopeID = .ok d
  found : d.node node.id = some node
  kind_eq : node.kind = kind
  converging : 1 < (d.incoming node.id).length

/-- The active token stands on a compensation-throw event. -/
structure AtThrow (tok : Token) : Prop where
  mem : tok ∈ s.tokens
  active : tok.state = .active
  node : ∃ d, defForScope top s.scopes tok.scopeID = .ok d ∧ ThrowNode d tok.nodeID

/-- The cursor a compensation throw starts its walk with, and the record it dispatches. -/
structure ThrowCursor (tok : Token) (cmdID : String) (cur : CompensationCursor) (rec : CompensationRecord) : Prop where
  resumeNode : cur.resumeNode ≠ ""
  resumeScope : cur.resumeScope = tok.scopeID
  active : cur.activeCmdID = cmdID
  last : cur.records.getLast? = some rec
  nextIndex : cur.nextIndex = (cur.records.length : Int) - 1
  toNode : cur.toNode = ""
  reverseNode : cur.reverseNode = ""
  finalStatus : cur.finalStatus = .running
  window : cur.teardownArchiveKey = ""
  source : (cur.archiveKey ≠ "" ∧ cur.scopeID = "" ∧ cur.records = s.archivedCompensations.get cur.archiveKey) ∨
    (cur.archiveKey = "" ∧ cur.scopeID = tok.scopeID ∧ cur.startRecordCount = cur.records.length ∧
      cur.records = s.compensationRecordsForScope tok.scopeID)

/-- The trigger answers, skips or abandons the walk's command. -/
def Answers (trg : TriggerBody) : Prop :=
  match trg with
  | .actionCompleted id _ | .actionFailed id _ _ _ _ | .resolveCompensationStall id _ _ =>
    id = s.compensating.activeCmdID
  | _ => False

/-- Nothing is left for the walk to dispatch. -/
def Exhausted : Prop :=
  s.compensating.nextIndex ≤ 0 ∨
    ((s.cursorRecords s.compensating).length : Int) < s.compensating.nextIndex ∨
    s.compensating.nextIndex - 1 ≤ (eligibleRange (s.cursorRecords s.compensating) s.compensating.toNode).2

/-- The outcome of a root walk the trigger asks for. A rollback to a node is always asked for by a trigger,
and an ended instance is only rolled back as a whole. -/
structure Asked (trg : TriggerBody) (o : CompensationOutcome) : Prop where
  finalStatus : o.finalStatus.Aborts
  toNode : o.toNode ≠ "" → ∃ reverseNode resetVars restore,
    trg = .compensateRequested o.toNode reverseNode resetVars restore
  terminal : s.status.isTerminal = true → o.toNode = "" ∧ o.reverseNode = ""

end Guards

/-- One step of clearing a state between two walks. -/
inductive Sweep (s : ControlState) : ControlState → Prop
  | archive (id : String) : Sweep s (s.archiveCompensations id)
  | cancel (tok : Token) (at_ : Time) (kind : CloseKind) : Sweep s (s.cancelToken tok at_ kind)
  | consolidate : Sweep s s.consolidateArchiveIntoRoot

abbrev Sweeps : ControlState → ControlState → Prop := Relation.ReflTransGen Sweep

/-- No token is left and the archive has joined the root's records. -/
structure Cleared (s : ControlState) : Prop where
  tokens : s.tokens = []
  archive : s.archivedCompensations = []

/-- A walk of `s` is over, or there was nothing to walk over; the cursor is the finished one. -/
inductive Finishing (trg : TriggerBody) (s : ControlState) : CompensationCursor → Prop
  | walk (hflight : s.InFlight) (hans : (Answers s trg ∧ Exhausted s) ∨ s.currentRecord = none) :
      Finishing trg s s.compensating
  | idle (o : CompensationOutcome) (hidle : ¬ s.InFlight) (hclear : Cleared s) (hasked : Asked s trg o)
      (hnone : o.toNode = "" → s.rootCompensations = []) :
      Finishing trg s { o.idleCursor with toNode := o.toNode }

/-- One thing the engine does. -/
inductive Move (top : ProcessDefinition) (g : IDGenerator) (trg : TriggerBody) (s : ControlState) :
    ControlState → Prop
  | book (h : List NodeVisit) (n : Nat) (hh : s.history ≠ [] → h ≠ []) (hn : s.cmdSeq ≤ n) :
      Move top g trg s { s with history := h, cmdSeq := n }
  | place (node scope flow : String) (at_ : Time) (hfwd : s.Forward) (hscope : s.ScopeRef g scope) :
      Move top g trg s (s.placeTokenInScope g node scope flow at_)
  | touch (id : String) (f : Token → Token) (hf : ∀ t ∈ s.tokens, t.id = id → Stays top s t (f t)) :
      Move top g trg s (s.updateToken id f)
  | leave (id target scope flow : String) (f : Token → Token) (hmem : ∃ t ∈ s.tokens, t.id = id)
      (hf : ∀ t ∈ s.tokens, t.id = id → Leaves top s t (f t) target scope flow) :
      Move top g trg s ((s.updateToken id f).note (.arrived id target scope flow))
  | pass (tok : Token) (hthrow : AtThrow top s tok) :
      Move top g trg s (s.note (.passed tok.id s.deferredCompensationThrows s.walking))
  | resolve (tok : Token) (f : Token → Token) (hmem : tok ∈ s.tokens)
      (hf : ∀ t, t.SamePlace (f t) ∧ (f t).state = .waiting ∧ (t.state = .incident → t.AwaitOK → (f t).AwaitOK)) :
      Move top g trg s ((s.note (.resolved tok s.deferredCompensationThrows)).updateToken tok.id f)
  | consume (tok : Token) (hmem : tok ∈ s.tokens) (hfree : Free top s tok) :
      Move top g trg s (s.removeToken tok.id)
  | cancel (tok : Token) (at_ : Time) (kind : CloseKind) : Move top g trg s (s.cancelToken tok at_ kind)
  | park (p : ControlState) (d : ProcessDefinition) (node : Node) (scopeID : String) (kind : NodeKind) (at_ : Time)
      (hp : ParkedOn s p node scopeID) (hsite : JoinSite top s d node scopeID kind)
      (hkind : kind = .parallelGateway ∨ kind = .inclusiveGateway) (hnone : tryJoin g d p node scopeID at_ = none) :
      Move top g trg s p
  | fireParallel (p : ControlState) (d : ProcessDefinition) (node : Node) (scopeID : String) (consumed : List Token)
      (hp : ParkedOn s p node scopeID) (hsite : JoinSite top s d node scopeID .parallelGateway)
      (hmatch : matchJoinTokensToFlows d p.tokens node.id scopeID = some consumed) :
      Move top g trg s ((p.note (.parallelFired scopeID node.id consumed)).withoutJoined node.id scopeID consumed)
  | fireInclusive (p : ControlState) (d : ProcessDefinition) (node : Node) (scopeID : String) (consumed : List Token)
      (hp : ParkedOn s p node scopeID) (hsite : JoinSite top s d node scopeID .inclusiveGateway)
      (htok : p.tokens.any (fun t => !joinedAt t node.id scopeID && t.scopeID == scopeID &&
        (nodesThatCanReach d node.id).contains t.nodeID) = false)
      (hsub : subtreeCanReachJoin p.tokens p.scopes scopeID (nodesThatCanReach d node.id) = false)
      (hcons : consumed = p.tokens.filter (fun t => joinedAt t node.id scopeID)) :
      Move top g trg s ((p.note (.inclusiveFired scopeID node.id consumed p.tokens p.scopes p.compensating)).withoutJoined
        node.id scopeID consumed)
  | openScope (node parent : String) (hfwd : s.Forward) (hparent : s.ScopeRef g parent)
      (hopens : Openable top s node parent) :
      Move top g trg s (s.openScope g node parent).1
  | teardown (scope : String) : Move top g trg s ((s.archiveAll (s.subtreeIDs scope)).closeScope scope)
  | interrupt (scope : String) :
      Move top g trg s (((s.archiveAll (s.subtreeIDs scope)).closeScopeDescendants scope).note
        (.interrupted scope s.compensating))
  | exit (scope : String) (enclosing : Bool) (hne : scope ≠ "") (htok : tokensInScope s.tokens scope = 0)
      (hchild : ∀ sc ∈ s.scopes, sc.parentID = scope → tokensInScopeSubtree s.tokens s.scopes sc.id = 0)
      (hhold : enclosing = false → s.compensationWalkHoldsScope scope = false) :
      Move top g trg s (s.exitScope scope enclosing)
  | record (scope : String) (rec : CompensationRecord) (hfwd : s.Forward) (hhist : s.history ≠ []) :
      Move top g trg s (s.recordCompensation scope rec)
  | sweep (s' : ControlState) (hidle : ¬ s.InFlight) (hsweep : Sweep s s') : Move top g trg s s'
  | deferThrow (tok : Token) (hthrow : AtThrow top s tok) (hflight : s.InFlight) :
      Move top g trg s (s.deferCompensationThrow tok.id)
  | throwWalk (tok : Token) (at_ : Time) (cur : CompensationCursor) (rec : CompensationRecord)
      (hthrow : AtThrow top s tok) (hfwd : s.Forward) (hidle : ¬ s.InFlight)
      (hcur : ThrowCursor s tok (s.nextCmdID g) cur rec) :
      Move top g trg s (s.mintCommand.throwDispatch tok at_ cur rec (s.nextCmdID g))
  | next (rec : CompensationRecord) (hflight : s.InFlight) (hans : Answers s trg)
      (hpos : 0 < s.compensating.nextIndex)
      (hto : ¬ s.compensating.nextIndex - 1 ≤
        (eligibleRange (s.cursorRecords s.compensating) s.compensating.toNode).2)
      (hrec : (s.cursorRecords s.compensating)[(s.compensating.nextIndex - 1).toNat]? = some rec) :
      Move top g trg s (s.advance g rec)
  | again (rec : CompensationRecord) (attempts : Int) (hflight : s.InFlight) (hrec : s.currentRecord = some rec)
      (htrg : Answers s trg ∨ ∃ timerID, trg = .timerFired timerID) :
      Move top g trg s (s.retryCurrent g rec attempts)
  | retryLater (timerID : String) (attempts : Int) (hflight : s.InFlight) :
      Move top g trg s { s with compensating := { s.compensating with
        retryTimerID := timerID, retryAttempts := attempts } }
  | pendCancel (hflight : s.InFlight) (hmode : s.compensating.resumeNode ≠ "" ∨ s.compensating.reverseNode ≠ "") :
      Move top g trg s ({ s with
        pendingCancel := true, pendingFinalStatus := .terminated, pendingFinalErr := "cancelled" }.note
          (.cancelPended s.compensating))
  | pendFailure (err : String) (hflight : s.InFlight) (hfwd : s.Forward) (htok : s.tokens = []) :
      Move top g trg s ({ s with
        pendingCancel := true, pendingFinalStatus := .failed, pendingFinalErr := err }.note
          (.deferredFailure err s.compensating))
  | begin (at_ : Time) (o : CompensationOutcome) (rec : CompensationRecord) (hidle : ¬ s.InFlight)
      (hclear : Cleared s) (hasked : Asked s trg o) (hrec : s.rootCompensations.getLast? = some rec) :
      Move top g trg s (s.beginWalk g o at_ rec)
  | resume (cur : CompensationCursor) (at_ : Time) (hfin : Finishing trg s cur)
      (hres : (finishPlan s.settled cur).resume = true)
      (hpend : (finishPlan s.settled cur).consumePendingCancel = true → s.pendingCancel = false)
      (hscope : s.ScopeRef g cur.resumeScope) :
      Move top g trg s (resumeControl g at_ (finishPlan s.settled cur)
        (applyDeleteArchive (finishPlan s.settled cur) s.settled))
  | pendingWalk (cur : CompensationCursor) (at_ : Time) (p : ControlState) (rec : CompensationRecord)
      (hfin : Finishing trg s cur) (hcons : (finishPlan s.settled cur).consumePendingCancel = true)
      (hpend : s.pendingCancel = true)
      (hsweep : Sweeps (takePending (finishPlan s.settled cur)
        (applyDeleteArchive (finishPlan s.settled cur) s.settled)) p)
      (hclear : Cleared p) (hrec : p.rootCompensations.getLast? = some rec) :
      Move top g trg s (p.beginWalk g (pendingOutcome s) at_ rec)

/-- The status a finished terminating walk ends in. -/
def finalStatusOf (st : Status) : Status := if st = .running then .terminated else st

/-- The status a force-termination ends in. -/
def forcedStatus : TerminationOutcome → Status
  | .abort => .terminated
  | .complete => .completed

/-- The ways an instance ends. -/
inductive End (trg : TriggerBody) (s : ControlState) : ControlState → Prop
  | complete (hlive : s.status.isTerminal = false) (hdrained : s.drained = true) : End trg s (s.endControl .completed "")
  | idle (st : Status) (err : String) (hlive : s.status.isTerminal = false) (hidle : ¬ s.InFlight)
      (hst : st = .terminated ∨ st = .failed) : End trg s (s.endControl st err)
  | childFailed (err : String) (hlive : s.status.isTerminal = false) (htok : s.tokens ≠ []) :
      End trg s ((s.note (.childFailed err s.compensating)).endControl .failed err)
  | forced (outcome : TerminationOutcome) (at_ : Time) (err : String) (hlive : s.status.isTerminal = false)
      (htok : s.tokens ≠ []) :
      End trg s (((s.note (.forced outcome s.pendingCancel)).cancelListed at_ .terminated s.tokens).endControl
        (forcedStatus outcome) err)
  | terminate (cur : CompensationCursor) (hfin : Finishing trg s cur) (hmode : cur.walkMode = .admin) :
      End trg s ((s.settled.clearRecords cur.scopeID).endControl (finalStatusOf cur.finalStatus) cur.finalErr)
  | abandon (hflight : s.InFlight) (hans : Answers s trg) (hmode : s.compensating.walkMode = .admin) :
      End trg s (((s.settled.clearRecords s.compensating.scopeID).endControl
        (finalStatusOf s.compensating.finalStatus) s.compensating.finalErr).setScopeRecords s.compensating.scopeID
          (s.retainedRecordPrefix s.compensating.scopeID s.compensating.nextIndex))
  | pending (cur : CompensationCursor) (p : ControlState) (hfin : Finishing trg s cur)
      (hcons : (finishPlan s.settled cur).consumePendingCancel = true) (hpend : s.pendingCancel = true)
      (hsweep : Sweeps (takePending (finishPlan s.settled cur)
        (applyDeleteArchive (finishPlan s.settled cur) s.settled)) p)
      (hclear : Cleared p) (hnone : p.rootCompensations = []) :
      End trg s (p.endControl (pendingOutcome s).finalStatus (pendingOutcome s).finalErr)

/-- A sequence of moves. -/
abbrev Moves (top : ProcessDefinition) (g : IDGenerator) (trg : TriggerBody) : ControlState → ControlState → Prop :=
  Relation.ReflTransGen (Move top g trg)

/-- A sequence of moves that may end with the instance. -/
def Reaches (top : ProcessDefinition) (g : IDGenerator) (trg : TriggerBody) (s s' : ControlState) : Prop :=
  ∃ m, Moves top g trg s m ∧ (s' = m ∨ End trg m s')

end Wrkflw
