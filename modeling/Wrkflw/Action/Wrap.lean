import Wrkflw.Definition.Model

/-!
# Resiliency layers around actions

`Wrap`, `Unwrap` and `ResolvePolicy` (`action/wrap.go`, `policy.go`), the default policy of a catalog (`catalog.go`), and
what the runtime makes of a resolved action (`runtime/processdriver_action.go`: `effectiveActionPolicy`, `actionContextFor`,
`invokeActionDo`).

* `Action` : a type of the consumer's own, with the capabilities it declares, or one of the three layers of the library;
* `ConsumerDo`, `DecoratorDo` : the `Do` of a consumer's type. A decorator is one that has an `Unwrap` method, so that the
  library can see what it decorates; a decorator without one is a plain type here.
-/

namespace Wrkflw

structure RetrySpecs where
  maxAttempts : Int
  initialInterval : Duration
  multiplier : Rat
  maxInterval : Duration
  deriving DecidableEq, Repr

/-- `Policy`; also the capability interfaces a type implements. -/
structure Policy where
  timeout : Option Duration := none
  retry : Option RetrySpecs := none
  recover : Option Bool := none
  deriving DecidableEq, Repr

def Policy.empty (p : Policy) : Bool := p.timeout.isNone && p.retry.isNone && p.recover.isNone

inductive ActionOption where
  | withExecTimeout (d : Duration)
  | withRetrySpecs (rp : RetrySpecs)
  | withRecover (on : Bool)
  deriving DecidableEq, Repr

def ActionOption.apply (p : Policy) : ActionOption → Policy
  | withExecTimeout d => { p with timeout := some d }
  | withRetrySpecs rp => { p with retry := some rp }
  | withRecover on => { p with recover := some on }

/-- What a call of `Do` comes to. -/
inductive DoResult where
  | returned (out : Vars)
  | failed (err : String)
  | panicked (value : String)
  deriving DecidableEq, Repr

/-- A context is the deadlines it was derived with, the latest first. -/
abbrev ConsumerDo := List Duration → Vars → DoResult

abbrev DecoratorDo := ConsumerDo → ConsumerDo

inductive Action where
  | plain (capabilities : Policy) (run : ConsumerDo)
  | decorator (capabilities : Policy) (run : DecoratorDo) (inner : Action)
  | timed (d : Duration) (bare : Action)
  | retriable (p : RetrySpecs) (bare : Action)
  | recoverable (on : Bool) (bare : Action)

/-- `actionContextFor`. -/
def actionContextFor (parent : List Duration) (d : Duration) : List Duration := if d ≤ 0 then parent else d :: parent

/-- A panic becomes an error. -/
def recoverInto (text : String) : DoResult → DoResult
  | .panicked value => .failed (text ++ value)
  | result => result

namespace Action

/-- `Do`. -/
def perform : Action → ConsumerDo
  | plain _ run => run
  | decorator _ run inner => run inner.perform
  | timed d bare => fun ctx input => bare.perform (actionContextFor ctx d) input
  | retriable _ bare => bare.perform
  | recoverable on bare => fun ctx input =>
    if on then recoverInto "workflow-action: action panicked: " (bare.perform ctx input) else bare.perform ctx input

/-- The type has an `Unwrap` method. -/
def unwraps : Action → Bool
  | plain .. => false
  | _ => true

def unwrap : Action → Action
  | a@(plain ..) => a
  | decorator _ _ inner => inner.unwrap
  | timed _ bare => bare.unwrap
  | retriable _ bare => bare.unwrap
  | recoverable _ bare => bare.unwrap

/-- The capabilities of one layer. -/
def declares : Action → Policy
  | plain capabilities _ => capabilities
  | decorator capabilities _ _ => capabilities
  | timed d _ => { timeout := some d }
  | retriable p _ => { retry := some p }
  | recoverable on _ => { recover := some on }

end Action

/-- The first occurrence of a concern wins. -/
def Policy.orElse (p q : Policy) : Policy :=
  ⟨p.timeout.or q.timeout, p.retry.or q.retry, p.recover.or q.recover⟩

/-- The loop of `ResolvePolicy`, with the policy gathered so far. -/
def resolvePolicyFrom (p : Policy) : Action → Policy
  | a@(.plain ..) => p.orElse a.declares
  | a@(.decorator _ _ inner) => resolvePolicyFrom (p.orElse a.declares) inner
  | a@(.timed _ bare) => resolvePolicyFrom (p.orElse a.declares) bare
  | a@(.retriable _ bare) => resolvePolicyFrom (p.orElse a.declares) bare
  | a@(.recoverable _ bare) => resolvePolicyFrom (p.orElse a.declares) bare

def resolvePolicy (a : Action) : Policy := resolvePolicyFrom {} a

/-- The layers of a policy, in canonical order. -/
def layered (p : Policy) (bare : Action) : Action :=
  let result := match p.recover with
    | some on => .recoverable on bare
    | none => bare
  let result := match p.retry with
    | some rp => .retriable rp result
    | none => result
  match p.timeout with
  | some d => .timed d result
  | none => result

def wrap (a : Action) (opts : List ActionOption) : Action :=
  layered (opts.foldl ActionOption.apply (resolvePolicy a)) a.unwrap

/-- `applyDefaults`. -/
def applyDefaults (a : Action) (defaults : List ActionOption) : Action :=
  if defaults.isEmpty || !(resolvePolicy a).empty then a else wrap a defaults

/-- `effectiveActionPolicy` of a driver with this timeout: the action to run, its timeout and whether panics are recovered. -/
def effectiveActionPolicy (actionTimeout : Duration) (a : Action) : Action × Duration × Bool :=
  (a.unwrap, (resolvePolicy a).timeout.getD actionTimeout, (resolvePolicy a).recover.getD true)

/-- `invokeActionDo` on the effective policy, as the driver does for a resolved action. -/
def invokeAction (actionTimeout : Duration) (a : Action) (ctx : List Duration) (input : Vars) : DoResult :=
  let (bare, timeout, recoverPanics) := effectiveActionPolicy actionTimeout a
  let result := bare.perform (actionContextFor ctx timeout) input
  if recoverPanics then recoverInto "workflow-runtime: action panicked: " result else result

end Wrkflw
