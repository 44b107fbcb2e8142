import Wrkflw.Library.Keyed
import Wrkflw.Runtime.Driver
import Wrkflw.Store.TriggerCodec

/-!
# The two task stores

`MemTaskStore` (`humantask/memory.go`) and `HumanTaskStore` (`internal/persistence/store/humantask_store.go`), which writes a
task over the columns of `wrkflw_human_task` and rebuilds it from them.

* `MemTaskStore.upsert`, `.get`, `.assignedTo`, `.claimableBy` : the map of tasks;
* `HumanTaskRow`, `taskBinds`, `scanTask` : one row, how it is bound and how it is scanned;
* `HumanTaskStore.upsert`, `.get`, `.assignedTo`, `.claimableBy` : the statements over the table.

The database hands a column back as it was bound, and compares and orders text by its bytes. A text timestamp is kept as the
instant it renders; only the years 0 to 9999 are parsed back.
-/

namespace Wrkflw

open Library

/-! ## In memory -/

def candidateContains (candidates : List Actor) (id : String) : Bool := candidates.any (fun c => c.id == id)

def hasRoleOverlap (actorRoles specRoles : List String) : Bool := specRoles.any (fun r => actorRoles.contains r)

/-- The actor is a candidate or has one of the roles. -/
def HumanTask.claimableBy (t : HumanTask) (actor : Actor) : Bool :=
  candidateContains t.candidates actor.id || hasRoleOverlap actor.roles t.eligibility.roles

/-- `humantask.ErrTaskNotFound`. -/
def errTaskNotFound : String := "workflow-humantask: task not found"

abbrev MemTaskStore := List HumanTask

namespace MemTaskStore

def upsert (m : MemTaskStore) (t : HumanTask) : Except String MemTaskStore :=
  match t.validate with
  | some err => .error err
  | none => .ok (putBy (·.taskID) t m)

def get (m : MemTaskStore) (taskID : String) : Except String HumanTask :=
  match m.find? (fun t => t.taskID == taskID) with
  | some t => .ok t
  | none => .error errTaskNotFound

def assignedTo (m : MemTaskStore) (actorID : String) : Except String (List HumanTask) :=
  if actorID = "" then .ok []
  else .ok (orderBy (·.taskID) (m.filter (fun t => t.claim.any (fun c => c.1.id == actorID))))

def claimableBy (m : MemTaskStore) (actor : Actor) : Except String (List HumanTask) :=
  .ok (orderBy (·.taskID) (m.filter (fun t => t.state == .unclaimed && t.claimableBy actor)))

end MemTaskStore

/-! ## Columns -/

/-- A timestamp column: text where `TimestampsAsText`, an instant elsewhere. -/
inductive TimeCell where
  | text (t : Time)
  | native (t : Time)
  deriving DecidableEq, Repr

def timeArg (asText : Bool) (t : Time) : TimeCell := if asText then .text t else .native t

def TimeCell.read : TimeCell → Except String Time
  | .text t => if writableTime t then .ok t else .error "workflow-store: parse timestamp"
  | .native t => .ok t

/-- `wrkflw_human_task`. -/
structure HumanTaskRow where
  taskID : String
  instanceID : String
  nodeID : String
  state : String
  claimedBy : String
  claimedAt : Option TimeCell
  claimActor : Option (Json Value)
  completedBy : Option String
  completedAt : Option TimeCell
  outcome : Option String
  note : Option String
  completionActor : Option (Json Value)
  eligibility : Json Value
  candidates : Json Value
  vars : Json Value
  createdAt : TimeCell
  dueAt : Option TimeCell

def TaskState.toText : TaskState → String
  | .unclaimed => "unclaimed"
  | .claimed => "claimed"
  | .completed => "completed"
  | .cancelled => "cancelled"

def htParseTaskState (s : String) : TaskState :=
  if s == TaskState.claimed.toText then .claimed
  else if s == TaskState.completed.toText then .completed
  else if s == TaskState.cancelled.toText then .cancelled
  else .unclaimed

/-- `authz.AuthzSpec` has no tags. -/
def specFields : List (String × (AuthzSpec → Option (Json Value))) :=
  [("Roles", fun a => some (.arr (a.roles.map .str))), ("Privileges", fun a => some (.arr (a.privileges.map .str))),
    ("Attribute", fun a => some (.str a.attributeExpr))]

def specJSON (a : AuthzSpec) : Json Value := .obj (encodeRecord specFields a)

def readSpec : Json Value → Option AuthzSpec
  | .obj doc => do
    let roles ← readStrings (doc.lookup "Roles")
    let privileges ← readStrings (doc.lookup "Privileges")
    let attributeExpr ← readOr "" Json.text? (doc.lookup "Attribute")
    return { roles, privileges, attributeExpr }
  | _ => none

/-! ## Binding -/

/-- `htActorRemainder`. -/
structure ActorRemainder where
  roles : List String
  attributes : Vars

def remainderFields : List (String × (ActorRemainder → Option (Json Value))) :=
  [("roles", fun a => stringsField a.roles), ("attributes", fun a => varsField a.attributes)]

def readRemainder : Json Value → Option ActorRemainder
  | .obj doc => do
    let roles ← readStrings (doc.lookup "roles")
    let attributes ← readVars (doc.lookup "attributes")
    return { roles, attributes }
  | _ => none

def htMarshalActorRemainder (a : Actor) : Json Value :=
  .obj (encodeRecord remainderFields ⟨a.roles, a.attributes⟩)

def htDecodeActor (id : String) (remainder : Option (Json Value)) : Except String Actor :=
  match remainder with
  | none => .ok { id := id }
  | some j =>
    match readRemainder j with
    | some rem => .ok { id := id, roles := rem.roles, attributes := rem.attributes }
    | none => .error "json: cannot unmarshal"

def errZeroAuditTime (record : String) : String :=
  "workflow-store: " ++ record ++ " has a zero timestamp: presence is keyed on the timestamp, so it must be set"

def htClaimantID (t : HumanTask) : String :=
  match t.claim with
  | none => ""
  | some c => c.1.id

structure ClaimBind where
  claimedAt : Option TimeCell := none
  claimActor : Option (Json Value) := none

def htClaimBinds (asText : Bool) : Option (Actor × Time) → Except String ClaimBind
  | none => .ok {}
  | some (actor, at_) =>
    if isZeroTime at_ then .error (errZeroAuditTime "claim")
    else .ok { claimedAt := some (timeArg asText at_), claimActor := some (htMarshalActorRemainder actor) }

structure CompletionBind where
  completedBy : Option String := none
  completedAt : Option TimeCell := none
  outcome : Option String := none
  note : Option String := none
  completionActor : Option (Json Value) := none

def htCompletionBinds (asText : Bool) : Option Completion → Except String CompletionBind
  | none => .ok {}
  | some c =>
    if isZeroTime c.timestamp then .error (errZeroAuditTime "completion")
    else .ok { completedBy := some c.actor.id, completedAt := some (timeArg asText c.timestamp), outcome := some c.outcome,
               note := some c.note, completionActor := some (htMarshalActorRemainder c.actor) }

/-- The values bound to the columns, in their order. -/
def taskBinds (asText : Bool) (t : HumanTask) (claim : ClaimBind) (completion : CompletionBind) : HumanTaskRow :=
  { taskID := t.taskID, instanceID := t.instanceID, nodeID := t.nodeID, state := t.state.toText,
    claimedBy := htClaimantID t, claimedAt := claim.claimedAt, claimActor := claim.claimActor,
    completedBy := completion.completedBy, completedAt := completion.completedAt, outcome := completion.outcome,
    note := completion.note, completionActor := completion.completionActor, eligibility := specJSON t.eligibility,
    candidates := .arr (t.candidates.map actorJSON), vars := .obj (t.vars.map (fun e => (e.1, valueJSON e.2))),
    createdAt := timeArg asText t.createdAt, dueAt := t.dueAt.map (timeArg asText) }

/-! ## Scanning -/

structure AuditDecodeError where
  taskID : String
  column : String
  err : String
  deriving DecidableEq, Repr

/-- The column is there or not, whether its value parses or not. -/
def htAuditTime : Option TimeCell → Time × Bool × Option String
  | none => (0, false, none)
  | some cell =>
    match cell.read with
    | .ok t => (t, true, none)
    | .error err => (0, true, some err)

def AuditDecodeError.ofOption (taskID column : String) : Option String → List AuditDecodeError
  | none => []
  | some err => [⟨taskID, column, err⟩]

/-- An actor whose remainder cannot be read is its id alone. -/
def scanActor (taskID column id : String) (remainder : Option (Json Value)) : Actor × List AuditDecodeError :=
  match htDecodeActor id remainder with
  | .ok actor => (actor, [])
  | .error err => ({ id := id }, [⟨taskID, column, err⟩])

def scanClaim (row : HumanTaskRow) : Option (Actor × Time) × List AuditDecodeError :=
  let (claimedAt, claimed, err) := htAuditTime row.claimedAt
  let errs := AuditDecodeError.ofOption row.taskID "claimed_at" err
  if claimed then
    let (actor, actorErrs) := scanActor row.taskID "claim_actor" row.claimedBy row.claimActor
    (some (actor, claimedAt), errs ++ actorErrs)
  else (none, errs)

def scanCompletion (row : HumanTaskRow) : Option Completion × List AuditDecodeError :=
  let (completedAt, completed, err) := htAuditTime row.completedAt
  let errs := AuditDecodeError.ofOption row.taskID "completed_at" err
  if completed then
    let (actor, actorErrs) := scanActor row.taskID "completion_actor" (row.completedBy.getD "") row.completionActor
    (some { actor := actor, timestamp := completedAt, outcome := row.outcome.getD "", note := row.note.getD "" },
      errs ++ actorErrs)
  else (none, errs)

def readColumn {β : Type} (column : String) (read : Json Value → Option β) (j : Json Value) : Except String β :=
  match read j with
  | some b => .ok b
  | none => .error ("unmarshal " ++ column ++ ": json: cannot unmarshal")

def readDue : Option TimeCell → Except String (Option Time)
  | none => .ok none
  | some cell =>
    match cell.read with
    | .ok t => .ok (some t)
    | .error err => .error ("parse due_at: " ++ err)

def readCreated (cell : TimeCell) : Except String Time :=
  match cell.read with
  | .ok t => .ok t
  | .error err => .error ("parse created_at: " ++ err)

def scanTask (row : HumanTaskRow) : Except String (HumanTask × List AuditDecodeError) := do
  let createdAt ← readCreated row.createdAt
  let dueAt ← readDue row.dueAt
  let eligibility ← readColumn "eligibility" readSpec row.eligibility
  let candidates ← readColumn "candidates" (Json.list? readActor) row.candidates
  let vars ← readColumn "vars" (Json.map? readValue) row.vars
  -- what routes a task is read first; the audit degrades
  let (claim, claimErrs) := scanClaim row
  let (completion, completionErrs) := scanCompletion row
  return ({ taskID := row.taskID, instanceID := row.instanceID, nodeID := row.nodeID, eligibility, candidates,
            state := htParseTaskState row.state, claim, completion, createdAt, dueAt, vars }, claimErrs ++ completionErrs)

/-! ## In SQL -/

abbrev HumanTaskStore := List HumanTaskRow

namespace HumanTaskStore

def upsert (asText : Bool) (rows : HumanTaskStore) (t : HumanTask) : Except String HumanTaskStore :=
  match t.validate with
  | some err => .error err
  | none =>
    match htClaimBinds asText t.claim with
    | .error err => .error ("workflow-store: upsert task " ++ t.taskID ++ ": marshal claim_actor: " ++ err)
    | .ok claim =>
      match htCompletionBinds asText t.completion with
      | .error err => .error ("workflow-store: upsert task " ++ t.taskID ++ ": marshal completion_actor: " ++ err)
      | .ok completion => .ok (putBy (·.taskID) (taskBinds asText t claim completion) rows)

/-- `joinAuditErrors`: `errors.Join` writes one error a line. -/
def joinAuditErrors (errs : List AuditDecodeError) : String :=
  "\n".intercalate (errs.map (fun e => "unmarshal " ++ e.column ++ " for task " ++ e.taskID ++ ": " ++ e.err))

def get (rows : HumanTaskStore) (taskID : String) : Except String HumanTask :=
  match rows.find? (fun row => row.taskID == taskID) with
  | none => .error errTaskNotFound
  | some row =>
    match scanTask row with
    | .error err => .error ("workflow-store: get task " ++ taskID ++ ": " ++ err)
    | .ok (t, []) => .ok t
    | .ok (_, errs) => .error ("workflow-store: get task " ++ taskID ++ ": " ++ joinAuditErrors errs)

/-- The rows of a query are scanned in turn; an audit column that cannot be read is dropped from its row. -/
def scanAll (op : String) : List HumanTaskRow → Except String (List HumanTask)
  | [] => .ok []
  | row :: rows =>
    match scanTask row with
    | .error err => .error ("workflow-store: human task " ++ op ++ ": scan: " ++ err)
    | .ok (t, _) =>
      match scanAll op rows with
      | .error err => .error err
      | .ok ts => .ok (t :: ts)

def query (op : String) (rows : HumanTaskStore) (sel : HumanTaskRow → Bool) : Except String (List HumanTask) :=
  scanAll op (orderBy (·.taskID) (rows.filter sel))

def assignedTo (rows : HumanTaskStore) (actorID : String) : Except String (List HumanTask) :=
  if actorID = "" then .ok [] else query "assigned-to" rows (fun row => row.claimedBy == actorID)

def claimableBy (rows : HumanTaskStore) (actor : Actor) : Except String (List HumanTask) :=
  match query "claimable-by" rows (fun row => row.state == TaskState.unclaimed.toText) with
  | .error err => .error err
  | .ok ts => .ok (ts.filter (fun t => t.claimableBy actor))

end HumanTaskStore

end Wrkflw
