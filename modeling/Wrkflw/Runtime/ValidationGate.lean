import Wrkflw.Definition.Model

/-!
# The validator cache

`Gate` (`runtime/validation/gate.go`), the registries its strategies come from (`definition/model/validate/registry.go`), and
what becomes of a pending descriptor (`definition/model/validation_wire.go`). A strategy is what the gate can see of it: what
`NewValidator` gives, and for a describable one its descriptor; a validator is a function of the input.
-/

namespace Wrkflw

/-- A rejection is its text. -/
abbrev InputValidator := Vars → Option String

inductive ValidationStrategy where
  | callback (newValidator : Except String InputValidator)
  | describable (descriptor : ValidationDescriptor) (newValidator : Except String InputValidator)
  | pending (desc : ValidationDescriptor)

namespace ValidationStrategy

def newValidator : ValidationStrategy → Except String InputValidator
  | callback v => v
  | describable _ v => v
  | pending desc =>
    .error ("workflow-model: validation strategy not reconstructed (missing registry): kind " ++ quoted desc.kind)

/-- `DescriptorOf`. -/
def descriptorOf : ValidationStrategy → Option ValidationDescriptor
  | callback _ => none
  | describable d _ => some d
  | pending d => some d

end ValidationStrategy

/-! ## Registries -/

abbrev StrategyFactory := String → Except String ValidationStrategy

/-- The factories, the latest registration first. -/
structure ValidatorRegistry where
  factories : List (String × StrategyFactory) := []

namespace ValidatorRegistry

def register (r : ValidatorRegistry) (kind : String) (f : StrategyFactory) : ValidatorRegistry := ⟨(kind, f) :: r.factories⟩

def strategy (r : ValidatorRegistry) (d : ValidationDescriptor) : Except String ValidationStrategy :=
  match r.factories.find? (fun e => e.1 == d.kind) with
  | none => .error ("workflow-validation: unknown validation kind: " ++ quoted d.kind)
  | some (_, f) => f d.schema

end ValidatorRegistry

/-- `reconcileNodeValidation` on a node's validation slot. -/
def reconcileValidation (nodeID : String) (reg : ValidatorRegistry) : Option ValidationStrategy →
    Except String (Option ValidationStrategy)
  | some (.pending desc) =>
    match reg.strategy desc with
    | .ok live => .ok (some live)
    | .error e => .error ("workflow-model: node " ++ quoted nodeID ++ ": " ++ e)
  | slot => .ok slot

/-- `reconcileNodeValidationLenient`: a slot that cannot be resolved stays pending. -/
def reconcileValidationLenient (nodeID : String) (reg : ValidatorRegistry) (slot : Option ValidationStrategy) :
    Option ValidationStrategy :=
  match reconcileValidation nodeID reg slot with
  | .ok reconciled => reconciled
  | .error _ => slot

/-! ## The gate -/

/-- `Gate`: the validators built so far, by key. -/
structure ValidationGate where
  built : List (String × InputValidator) := []

/-- The key of the cache. -/
def validatorKey (d : ValidationDescriptor) : String := d.kind ++ "\x00" ++ d.schema

def invalidInput (err : String) : String := "workflow-validation: invalid input: " ++ err

namespace ValidationGate

def cached (g : ValidationGate) (key : String) : Option InputValidator := (g.built.find? (fun e => e.1 == key)).map (·.2)

/-- `validator`: what is returned, and the gate afterwards. A call that misses twice, under the read lock and the write lock,
builds and stores under the latter. -/
def validator (g : ValidationGate) (s : ValidationStrategy) : Except String InputValidator × ValidationGate :=
  match s.descriptorOf with
  | none => (s.newValidator, g)
  | some d =>
    match g.cached (validatorKey d) with
    | some v => (.ok v, g)
    | none =>
      match s.newValidator with
      | .error e => (.error e, g)
      | .ok v => (.ok v, ⟨(validatorKey d, v) :: g.built⟩)

/-- `Validate`; `none` accepts. -/
def validate (g : ValidationGate) (s : ValidationStrategy) (input : Vars) : Option String × ValidationGate :=
  match g.validator s with
  | (.error e, g') => (some e, g')
  | (.ok v, g') => ((v input).map invalidInput, g')

/-- The answers to a sequence of calls. -/
def validateAll (g : ValidationGate) : List (ValidationStrategy × Vars) → List (Option String)
  | [] => []
  | (s, input) :: calls => (g.validate s input).1 :: (g.validate s input).2.validateAll calls

end ValidationGate

/-- What a validator freshly built from the strategy answers. -/
def freshAnswer (s : ValidationStrategy) (input : Vars) : Option String :=
  match s.newValidator with
  | .error e => some e
  | .ok v => (v input).map invalidInput

end Wrkflw
