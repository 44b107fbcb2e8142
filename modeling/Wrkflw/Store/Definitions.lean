import Wrkflw.Library.JsonOrder
import Wrkflw.Definition.Wire
import Wrkflw.Store.Outbox

/-!
# Published definitions

`PublishDefinition`, `readPublished`, `compareWithPublished`, `sameDefinitionContent`, `normaliseDefinition` and
`GetDefinition` of `internal/persistence/store/definitions.go`, as steps over one table: a call checks and encodes its
definition, inserts the row if its key is free, reads the row of the key back and compares. Each statement is one
step, so calls interleave between them, and each statement may fail.

* `Catalogs` : the scoped actions of a definition and of those nested in it, which `MarshalJSON` names and
`UnmarshalJSON` drops;
* `DefinitionStore.Step` : one step of one call; the database gives a document back with its keys in any order.

The collation of the key is a parameter: it decides which ids are one id.
-/

namespace Wrkflw

open Library

/-! ## Scoped actions -/

/-- The names of the scoped actions of a definition, and those of the definitions nested in its nodes. -/
inductive Catalogs where
  | empty
  | named (names : List String) (nested : String → Catalogs)

/-- The entry under the key, with its value changed. -/
def atKey (key : String) (f : WireDoc → WireDoc) (o : List (String × WireDoc)) : List (String × WireDoc) :=
  o.map (fun e => if e.1 == key then (e.1, f e.2) else e)

/-- The id of a node's document. -/
def nodeID (o : List (String × WireDoc)) : String := ((o.lookup "id").bind Json.text?).getD ""

/-- The nested definition of a node's document, changed. -/
def inSubprocess (f : String → WireDoc → WireDoc) : WireDoc → WireDoc
  | .obj node => .obj (atKey "subprocess" (f (nodeID node)) node)
  | j => j

/-- The nested definitions of a list of nodes, changed. -/
def inNodes (f : String → WireDoc → WireDoc) : WireDoc → WireDoc
  | .arr items => .arr (items.map (inSubprocess f))
  | j => j

/-- `scoped_actions` in the document of a definition, and in those nested in it. -/
def Catalogs.onto : Catalogs → WireDoc → WireDoc
  | .empty, j => j
  | .named names nested, j =>
    match j with
    | .obj o =>
      .obj (atKey "nodes" (inNodes (fun id => (nested id).onto)) o ++
        ((strings names).map (fun j => ("scoped_actions", j))).toList)
    | j => j

/-- `json.Marshal` of a definition with its catalogs. -/
def marshalDefinition (c : Catalogs) (d : ProcessDefinition) : Except String WireDoc := (marshalJSON d).map c.onto

/-! ## Comparing -/

inductive PublishFailureKind where
  | invalidDefinition | unencodable | statementFailed | concurrentPublish | undecodable | definitionExists
  deriving DecidableEq, Repr

structure PublishFailure where
  kind : PublishFailureKind
  text : String
  deriving DecidableEq, Repr

/-- The definition's id and version, as the errors write them. -/
def ProcessDefinition.keyText (d : ProcessDefinition) : String := d.id ++ ":" ++ toString d.version

/-- An error under the store's own name for the call. -/
def publishFailure (d : ProcessDefinition) (kind : PublishFailureKind) (err : String) : PublishFailure :=
  ⟨kind, "workflow-store: publish definition " ++ d.keyText ++ ": " ++ err⟩

def normaliseDefinition (data : WireDoc) : Except String WireDoc :=
  match unmarshalJSON data with
  | .error err => .error ("unmarshal: " ++ err)
  | .ok d =>
    match marshalJSON d with
    | .error err => .error ("re-marshal: " ++ err)
    | .ok normalised => .ok normalised

def sameDefinitionContent (stored incoming : WireDoc) : Except String Bool :=
  -- the incoming side first: its errors are the caller's own
  match normaliseDefinition incoming with
  | .error err => .error ("cannot re-decode the definition supplied for publication: " ++ err)
  | .ok normIncoming =>
    match normaliseDefinition stored with
    | .error _ => .error "cannot decode the stored definition"
    | .ok normStored => .ok (normStored.equal normIncoming)

/-- No error for the same content. -/
def compareWithPublished (stored incoming : WireDoc) (d : ProcessDefinition) : Option PublishFailure :=
  match sameDefinitionContent stored incoming with
  | .error err => some (publishFailure d .undecodable err)
  | .ok true => none
  | .ok false =>
    some ⟨.definitionExists,
      "workflow-runtime: definition already registered: " ++ d.keyText ++ ": content differs from the published version"⟩

/-! ## The table -/

/-- A row of `wrkflw_definitions`; the time it was created at is left out. -/
structure DefinitionRow where
  defID : String
  version : Int
  definition : WireDoc

/-- Where a call of `PublishDefinition` stands. -/
inductive PublishStage where
  | called
  | inserting (data : WireDoc)
  | reading (data : WireDoc)
  | returned (err : Option PublishFailure)

structure PublishCall where
  definition : ProcessDefinition
  catalogs : Catalogs
  stage : PublishStage

/-- The table, and the calls that were made. -/
structure DefinitionStore where
  rows : List DefinitionRow := []
  calls : List PublishCall := []

/-- The gate and the encoding, before any statement. -/
def preparePublish (u : UnicodeTables) (d : ProcessDefinition) (c : Catalogs) : PublishStage :=
  match validateDefinition u d with
  | .error err => .returned (some ⟨.invalidDefinition, err⟩)
  | .ok () =>
    match marshalDefinition c d with
    | .error err => .returned (some (publishFailure d .unencodable ("marshal: " ++ err)))
    | .ok data => .inserting data

section Table
variable (collate : String → String)

/-- `WHERE def_id = ? AND version = ?`. -/
def selectDefinition (rows : List DefinitionRow) (defID : String) (version : Int) : Option DefinitionRow :=
  rows.find? (fun r => collate r.defID == collate defID && r.version == version)

/-- `INSERT` with the conflict clause. -/
def insertIgnoreDefinition (rows : List DefinitionRow) (row : DefinitionRow) : List DefinitionRow :=
  if (selectDefinition collate rows row.defID row.version).isSome then rows else rows ++ [row]

/-- What `GetDefinition` makes of the document it is given. -/
def getDefinition (given : WireDoc) : Except String ProcessDefinition := unmarshalJSON given

def DefinitionStore.setStage (s : DefinitionStore) (i : Nat) (call : PublishCall) (stage : PublishStage) : DefinitionStore :=
  { s with calls := s.calls.set i { call with stage := stage } }

/-- One step of one call, or a call that comes in. A statement that fails may have taken effect. -/
inductive DefinitionStore.Step (u : UnicodeTables) : DefinitionStore → DefinitionStore → Prop
  | call (s : DefinitionStore) (d : ProcessDefinition) (c : Catalogs) :
    Step u s { s with calls := s.calls ++ [⟨d, c, .called⟩] }
  | prepare {s : DefinitionStore} {i : Nat} {call : PublishCall} (hcall : s.calls[i]? = some call)
      (hstage : call.stage = .called) :
    Step u s (s.setStage i call (preparePublish u call.definition call.catalogs))
  | insert {s : DefinitionStore} {i : Nat} {call : PublishCall} {data kept : WireDoc} (hcall : s.calls[i]? = some call)
      (hstage : call.stage = .inserting data) (hkept : data.Same kept) :
    Step u s { s.setStage i call (.reading data) with
      rows := insertIgnoreDefinition collate s.rows ⟨call.definition.id, call.definition.version, kept⟩ }
  | insertFails {s : DefinitionStore} {i : Nat} {call : PublishCall} {data : WireDoc} (hcall : s.calls[i]? = some call)
      (hstage : call.stage = .inserting data) (err : String) :
    Step u s (s.setStage i call (.returned (some (publishFailure call.definition .statementFailed ("exec: " ++ err)))))
  | insertUnheard {s : DefinitionStore} {i : Nat} {call : PublishCall} {data kept : WireDoc} (hcall : s.calls[i]? = some call)
      (hstage : call.stage = .inserting data) (hkept : data.Same kept) (err : String) :
    Step u s { s.setStage i call (.returned (some (publishFailure call.definition .statementFailed ("exec: " ++ err)))) with
      rows := insertIgnoreDefinition collate s.rows ⟨call.definition.id, call.definition.version, kept⟩ }
  | readMissing {s : DefinitionStore} {i : Nat} {call : PublishCall} {data : WireDoc} (hcall : s.calls[i]? = some call)
      (hstage : call.stage = .reading data)
      (hrow : selectDefinition collate s.rows call.definition.id call.definition.version = none) :
    Step u s (s.setStage i call (.returned (some ⟨.concurrentPublish,
      "workflow-store: definition publish raced a concurrent publish: " ++ call.definition.keyText⟩)))
  | readFails {s : DefinitionStore} {i : Nat} {call : PublishCall} {data : WireDoc} (hcall : s.calls[i]? = some call)
      (hstage : call.stage = .reading data) (err : String) :
    Step u s (s.setStage i call (.returned (some (publishFailure call.definition .statementFailed ("read back: " ++ err)))))
  | read {s : DefinitionStore} {i : Nat} {call : PublishCall} {data given : WireDoc} {row : DefinitionRow}
      (hcall : s.calls[i]? = some call) (hstage : call.stage = .reading data)
      (hrow : selectDefinition collate s.rows call.definition.id call.definition.version = some row)
      (hgiven : row.definition.Same given) :
    Step u s (s.setStage i call (.returned (compareWithPublished given data call.definition)))

end Table

end Wrkflw
