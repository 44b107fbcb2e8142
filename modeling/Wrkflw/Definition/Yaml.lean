import Wrkflw.Definition.Wire

/-!
# Definitions in YAML

`ParseYAML` (`definition/model/yaml.go`) on a decoded document, `WithValidatorRegistry` and `Build` (`builder.go`), and
`reconcileNodeValidation` (`validation_wire.go`). What a registry makes of a descriptor is a parameter. A loaded definition
comes with the strategies its nodes hold, those of nested definitions apart from those of its own nodes.
-/

namespace Wrkflw

/-! ## Documents -/

/-- The flat fields of a node, but its kind and its nested definition. -/
structure NodeFieldsYAML where
  id : String
  name : String := ""
  deadlineDuration : String := ""
  deadlineFlow : String := ""
  deadlineAction : String := ""
  waitEvery : String := ""
  waitAction : String := ""
  activity : ActivityWire := {}
  task : TaskWire := {}
  timerDuration : String := ""
  signalName : String := ""
  messageName : String := ""
  correlationKey : String := ""
  messageStartSingleton : Bool := false
  nonInterrupting : Bool := false
  compensateRef : String := ""
  compensateScopeLocal : Bool := false
  validation : Option ValidationDescriptor := none
  ending : EndWire := {}

/-- `nodeYAML`; of the retired key only whether it is there. -/
structure NodeYAMLOf (D : Type) where
  label : Bool := false
  kind : String
  fields : NodeFieldsYAML
  subprocess : Option D := none

/-- `definitionYAML`. -/
structure DefinitionYAML where
  id : String
  version : Int
  nodes : List (NodeYAMLOf DefinitionYAML)
  flows : List SequenceFlow := []
  cancelActions : List String := []

abbrev NodeYAML := NodeYAMLOf DefinitionYAML

def NodeFieldsYAML.wire (f : NodeFieldsYAML) (kind : NodeKind) (sub : Option ProcessDefinition) :
    NodeWire ProcessDefinition where
  id := f.id
  kind := kind
  name := f.name
  wait := { deadlineDuration := f.deadlineDuration, waitEvery := f.waitEvery, deadlineFlow := f.deadlineFlow,
            deadlineAction := f.deadlineAction, waitAction := f.waitAction }
  activity := f.activity
  task := f.task
  event := { timerDuration := f.timerDuration, signalName := f.signalName, messageName := f.messageName,
             correlationKey := f.correlationKey, messageStartSingleton := f.messageStartSingleton,
             nonInterrupting := f.nonInterrupting, compensateRef := f.compensateRef,
             compensateScopeLocal := f.compensateScopeLocal, validation := f.validation }
  ending := f.ending
  subprocess := sub

/-! ## Building -/

/-- A strategy that was rebuilt, with the ids of the nodes that lead to its own. -/
structure Resolved (σ : Type) where
  path : List String
  desc : ValidationDescriptor
  strategy : σ

/-- `definitionCore`: the definition with its nodes' descriptors pending, and the strategies of the nested definitions. -/
structure DefinitionCore (σ : Type) where
  definition : ProcessDefinition
  nested : List (Resolved σ)

structure Loaded (σ : Type) where
  definition : ProcessDefinition
  nested : List (Resolved σ)
  root : List (Resolved σ)

/-- The strategies of a definition, seen from the node it is nested in. -/
def Loaded.within {σ : Type} (l : Loaded σ) (id : String) : List (Resolved σ) :=
  (l.nested ++ l.root).map (fun r => { r with path := id :: r.path })

/-- The pending descriptor of the node's validation slot. -/
def NodeOf.pending {D : Type} (n : NodeOf D) : Option ValidationDescriptor :=
  match n.spec with
  | .startEvent e => putValidation e.hasValidation e.descriptor
  | .userTask t => putValidation t.hasValidation t.descriptor
  | .receiveTask t => putValidation t.hasValidation t.descriptor
  | .intermediateCatchEvent e => putValidation e.hasValidation e.descriptor
  | _ => none

section Build
variable {σ : Type} (u : UnicodeTables) (strategy : ValidationDescriptor → Except String σ)

/-- `reconcileNodeValidation` of each node. -/
def reconcileNodes : List Node → Except String (List (Resolved σ))
  | [] => .ok []
  | n :: ns =>
    match n.pending with
    | none => reconcileNodes ns
    | some desc =>
      match strategy desc with
      | .error err => .error ("workflow-model: node " ++ quoted n.id ++ ": " ++ err)
      | .ok live =>
        match reconcileNodes ns with
        | .error err => .error err
        | .ok rs => .ok (⟨[n.id], desc, live⟩ :: rs)

/-- `build`, with the registry the core has. -/
def DefinitionCore.build (c : DefinitionCore σ) : Except String (Loaded σ) :=
  match reconcileNodes strategy c.definition.nodes with
  | .error err => .error err
  | .ok root =>
    if validate u c.definition = [] then .ok ⟨c.definition, c.nested, root⟩
    else .error ("workflow-definition: invalid definition " ++ quoted c.definition.id)

/-! ## Parsing -/

mutual

/-- `coreFromYAML`. -/
def coreFromYAML : DefinitionYAML → Except String (DefinitionCore σ)
  | ⟨id, version, nodes, flows, cancelActions⟩ =>
    match nodesFromYAML nodes with
    | .error err => .error err
    | .ok (ns, nested) => .ok ⟨⟨id, version, ns, flows, cancelActions⟩, nested⟩

def nodesFromYAML : List NodeYAML → Except String (List Node × List (Resolved σ))
  | [] => .ok ([], [])
  | ny :: nys =>
    match fromNodeYAML ny with
    | .error err => .error err
    | .ok (n, rs) =>
      match nodesFromYAML nys with
      | .error err => .error err
      | .ok (ns, rss) => .ok (n :: ns, rs ++ rss)

/-- `fromNodeYAML`. -/
def fromNodeYAML : NodeYAML → Except String (Node × List (Resolved σ))
  | ⟨label, kind, fields, sub⟩ =>
    if label then
      .error ("workflow-definition: the \"label\" node key is retired; use \"name\" (the display string): node " ++
        quoted fields.id)
    else
      match nodeKinds.find? (fun k => k.name == kind) with
      | none => .error ("workflow-definition: unknown node kind " ++ quoted kind)
      | some k =>
        match subFromYAML fields.id sub with
        | .error err => .error err
        | .ok (d, rs) =>
          match fromWire (fields.wire k d) with
          | .error err => .error err
          | .ok n => .ok (n, rs)

/-- The nested definition is built at once. -/
def subFromYAML (id : String) : Option DefinitionYAML → Except String (Option ProcessDefinition × List (Resolved σ))
  | none => .ok (none, [])
  | some d =>
    match coreFromYAML d with
    | .error err => .error ("workflow-definition: subprocess " ++ quoted id ++ ": " ++ err)
    | .ok core =>
      match core.build u strategy with
      | .error err => .error ("workflow-definition: subprocess " ++ quoted id ++ ": " ++ err)
      | .ok l => .ok (some l.definition, l.within id)

end

end Build

/-- Nested definitions are built with one registry, the document's own nodes with the other. -/
def loadWith {σ : Type} (u : UnicodeTables) (inner outer : ValidationDescriptor → Except String σ) (doc : DefinitionYAML) :
    Except String (Loaded σ) :=
  match coreFromYAML u inner doc with
  | .error err => .error err
  | .ok core => core.build u outer

/-- `ParseYAML` with `WithValidatorRegistry`, then `Build`: the option is applied when the nested definitions are built
already, with `validate.DefaultRegistry`. -/
def loadYAML {σ : Type} (u : UnicodeTables) (defaults registry : ValidationDescriptor → Except String σ)
    (doc : DefinitionYAML) :
    Except String (Loaded σ) := loadWith u defaults registry doc

end Wrkflw
