import Mathlib.Algebra.Group.Nat.Defs
import Wrkflw.Definition.Qualifier
import Wrkflw.Definition.Validate
import Wrkflw.Store.TriggerCodec

/-!
# The outbox and its relay

`writeOutbox` (`internal/persistence/store/store_core.go`) appends a row for each event of a step; `DrainOnce`
(`relay.go`) claims the due rows, publishes them and marks each with its outcome, in one transaction. The table is the list
of its rows in the order of their ids, a column holds what was bound to it, and every statement of the database succeeds.

`ValidateDefinition` (`runtime/kernel/mem_definition_registry.go`) admits the definitions events refer to.
-/

namespace Wrkflw

open Library

/-! ## Admission -/

/-- `MaxDefinitionIDRunes`. -/
def maxDefinitionIDRunes : Nat := 255

/-- `MaxDefinitionVersion`. -/
def maxDefinitionVersion : Int := 2147483647

def ProcessDefinition.qualifier (d : ProcessDefinition) : Qualifier := ⟨d.id, d.version⟩

/-- `ValidateDefinition`; a text is always valid UTF-8 here. -/
def validateDefinition (u : UnicodeTables) (d : ProcessDefinition) : Except String Unit :=
  if d.id == "" then .error "workflow-runtime: empty definition ID"
  else if d.id.toList.contains '\x00' then
    .error "workflow-runtime: invalid definition: workflow-runtime: definition ID contains a NUL byte"
  else if maxDefinitionIDRunes < d.id.length then
    .error ("workflow-runtime: invalid definition: workflow-runtime: definition ID too long: " ++ toString d.id.length ++
      " runes exceeds the " ++ toString maxDefinitionIDRunes ++ "-rune limit")
  else if maxDefinitionVersion < d.version then
    .error ("workflow-runtime: invalid definition: workflow-runtime: definition version too large: " ++
      toString d.version ++ " exceeds the maximum of " ++ toString maxDefinitionVersion)
  else if validate u d != [] then .error ("workflow-runtime: invalid definition: " ++ quoted d.qualifier.toText)
  else .ok ()

/-! ## Rows -/

structure OutboxEvent where
  topic : String
  /-- No list for a nil map. -/
  payload : Option Vars
  dedupKey : String := ""
  instanceID : String
  definitionRef : Qualifier

inductive OutboxStatus where
  | pending | published | dead
  deriving DecidableEq, Repr

structure OutboxRow where
  id : Nat
  instanceID : String
  topic : String
  payload : Json Value
  dedupKey : String
  nextAttemptAt : Time
  definitionRef : String
  status : OutboxStatus := .pending
  retryCount : Nat := 0
  lastError : String := ""
  publishedAt : Option Time := none

/-- `json.Marshal` of a payload. -/
def marshalPayload : Option Vars → Json Value
  | none => .null
  | some vars => .obj (vars.map (fun e => (e.1, .any e.2)))

/-- `json.Unmarshal` into a `map[string]any`. -/
def unmarshalPayload : Json Value → Except String (Option Vars)
  | .null => .ok none
  | .obj fields =>
    match fields.mapM (fun e => (readValue e.2).map (fun v => (e.1, v))) with
    | some vars => .ok (some vars)
    | none => .error "json: cannot unmarshal"
  | _ => .error "json: cannot unmarshal"

/-- `"<instanceID>:<seq>:<eventIndex>"`. -/
def dedupKeyOf (instanceID : String) (seq : Int) (i : Nat) : String := instanceID ++ ":" ++ toString seq ++ ":" ++ toString i

/-- The row of one event. -/
def outboxRow (id : Nat) (instanceID : String) (seq : Int) (i : Nat) (ev : OutboxEvent) (createdAt : Time) : OutboxRow where
  id := id
  instanceID := instanceID
  topic := ev.topic
  payload := marshalPayload ev.payload
  dedupKey := dedupKeyOf instanceID seq i
  nextAttemptAt := createdAt
  definitionRef := ev.definitionRef.toText

/-- The rows of the events from number `i` on. -/
def writeOutboxFrom (rows : List OutboxRow) (instanceID : String) (seq : Int) (createdAt : Time) : Nat → List OutboxEvent →
    List OutboxRow
  | _, [] => rows
  | i, ev :: events =>
    writeOutboxFrom (rows ++ [outboxRow (rows.length + 1) instanceID seq i ev createdAt]) instanceID seq createdAt
      (i + 1) events

def writeOutbox (rows : List OutboxRow) (instanceID : String) (seq : Int) (events : List OutboxEvent) (createdAt : Time) :
    List OutboxRow :=
  writeOutboxFrom rows instanceID seq createdAt 0 events

/-! ## The relay -/

/-- `parseDefRef`. -/
def parseDefRef (s : String) : Except String Qualifier :=
  if s == "" then .ok { id := "" }
  else match parseQualifier s with
    | .ok q => .ok q
    | .error err => .error ("workflow-store: parse definition_ref: " ++ err)

structure ClaimRow where
  id : Nat
  retryCount : Nat
  event : OutboxEvent

/-- One row of `scanClaimRows`. -/
def scanClaimRow (row : OutboxRow) : Except String ClaimRow :=
  match unmarshalPayload row.payload with
  | .error err => .error ("workflow-store: relay: unmarshal payload id=" ++ toString row.id ++ ": " ++ err)
  | .ok payload =>
    match parseDefRef row.definitionRef with
    | .error err => .error ("workflow-store: relay: def ref id=" ++ toString row.id ++ ": " ++ err)
    | .ok defRef =>
      .ok ⟨row.id, row.retryCount, ⟨row.topic, payload, row.dedupKey, row.instanceID, defRef⟩⟩

/-- `scanClaimRows`: the first row that cannot be read fails them all. -/
def scanClaimRows : List OutboxRow → Except String (List ClaimRow)
  | [] => .ok []
  | row :: rows =>
    match scanClaimRow row with
    | .error err => .error err
    | .ok claim =>
      match scanClaimRows rows with
      | .error err => .error err
      | .ok claims => .ok (claim :: claims)

structure Relay where
  batch : Nat
  maxDel : Nat
  base : Duration
  max : Duration

/-- `WithRelayBackoff`: a value that is not positive is ignored. -/
def withRelayBackoff (base maxInterval : Duration) (r : Relay) : Relay :=
  { r with base := if 0 < base then base else r.base, max := if 0 < maxInterval then maxInterval else r.max }

/-- What a signed word of 64 bits holds of a number. -/
def wrap64 (n : Int) : Int := n.bmod (2 ^ 64)

/-- `delay` doubled `n` times, up to the cap: the cap is looked at after each doubling. -/
def doubled (maxInterval : Duration) : Nat → Duration → Duration
  | 0, delay => if maxInterval < delay then maxInterval else delay
  | n + 1, delay =>
    if maxInterval ≤ wrap64 (delay * 2) then maxInterval else doubled maxInterval n (wrap64 (delay * 2))

/-- `RelayBackoff`. -/
def relayBackoff (retryCount : Int) (base maxInterval : Duration) : Duration :=
  if base ≤ 0 ∨ retryCount < 0 then 0 else doubled maxInterval retryCount.toNat base

/-- The row is pending and due. -/
def OutboxRow.due (now : Time) (row : OutboxRow) : Bool := row.status == .pending && decide (row.nextAttemptAt ≤ now)

/-- `claimInTx`, up to the scan. -/
def claimed (r : Relay) (now : Time) (rows : List OutboxRow) : List OutboxRow := (rows.filter (·.due now)).take r.batch

/-- The row after its event was published, or failed to be. -/
def Relay.settle (r : Relay) (now : Time) (outcome : Option String) (row : OutboxRow) : OutboxRow :=
  match outcome with
  | none => { row with status := .published, publishedAt := some now }
  | some err =>
    { row with
      retryCount := row.retryCount + 1
      status := if r.maxDel ≤ row.retryCount + 1 then .dead else .pending
      nextAttemptAt := now + relayBackoff row.retryCount r.base r.max
      lastError := err }

/-- The claims are published in turn, each row marked with its outcome; how many went through. -/
def publishClaims (r : Relay) (now : Time) (publish : OutboxEvent → Option String) :
    List ClaimRow → Nat → List OutboxRow → Nat × List OutboxRow
  | [], published, rows => (published, rows)
  | c :: claims, published, rows =>
    let outcome := publish c.event
    publishClaims r now publish claims (if outcome.isNone then published + 1 else published)
      (rows.map (fun row => if row.id == c.id then r.settle now outcome row else row))

/-- `DrainOnce`; an error leaves the table as it was. -/
def drainOnce (r : Relay) (now : Time) (publish : OutboxEvent → Option String) (rows : List OutboxRow) :
    Except String (Nat × List OutboxRow) :=
  match scanClaimRows (claimed r now rows) with
  | .error err => .error ("workflow-store: relay: claim: " ++ err)
  | .ok claims => .ok (publishClaims r now publish claims 0 rows)

end Wrkflw
