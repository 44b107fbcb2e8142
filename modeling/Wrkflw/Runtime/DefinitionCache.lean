import Wrkflw.Definition.Model
import Mathlib.Logic.Function.Basic

/-!
# The caching definition registry

`CachingDefinitionRegistry.Lookup` (`runtime/kernel/caching_definition_registry.go`) over any backing registry. The cache and
the single-flight group are keyed by the text of the reference; each goroutine goes on by one access to the cache, the clock
or the backing registry.

* `LookupStage` : where a lookup is;
* `DefinitionCache.goOn` : its next action;
* `DefinitionCache.step` : one step of any goroutine.

One flight per key is under way at a time, and the lookups that wait under the key share its outcome. `answers`, `asked` and
the moment of an answer are history variables: no operation reads them.
-/

namespace Wrkflw

structure CacheEntry (δ : Type) where
  definition : δ
  expiresAt : Time

/-- What a lookup returned: an entry that a reading of the clock found fresh, the answer of the backing registry or its
error. -/
inductive Found (δ : Type) where
  | hit (definition : δ)
  | answered (definition : δ)
  | failed

inductive LookupStage (δ : Type) where
  /-- The cache is to be looked at. -/
  | called
  | missed
  /-- It leads the flight of its key. -/
  | leads
  /-- In the flight the clock was read again. -/
  | checks (now : Time)
  | fetches
  /-- The backing registry answered at a moment; the answer is to be cached. -/
  | stores (definition : δ) (answeredAt : Time)
  /-- It shares the flight of another. -/
  | waits
  | returned (found : Found δ)

/-- The lookup is in the function of the single-flight group. -/
def LookupStage.flying {δ : Type} : LookupStage δ → Bool
  | .leads | .checks _ | .fetches | .stores _ _ => true
  | _ => false

def LookupStage.waiting {δ : Type} : LookupStage δ → Bool
  | .waits => true
  | _ => false

structure LookupCall (δ : Type) where
  qualifier : Qualifier
  /-- What the clock read when the lookup was made. -/
  madeAt : Time
  /-- How many answers the backing registry had given before the lookup was made. -/
  asked : Nat
  stage : LookupStage δ

def LookupCall.key {δ : Type} (c : LookupCall δ) : String := c.qualifier.toText

/-- The backing registry returned the definition for the reference at a moment of the clock. -/
structure Answer (δ : Type) where
  qualifier : Qualifier
  definition : δ
  answeredAt : Time

structure DefinitionCache (δ : Type) where
  ttl : Duration
  entries : String → Option (CacheEntry δ) := fun _ => none
  calls : List (LookupCall δ) := []
  answers : List (Answer δ) := []

inductive LookupChoice (δ : Type) where
  | lookup (q : Qualifier) (now : Time)
  /-- The lookup goes on; `now` is the moment, as the clock would tell it, and `answer` what the backing registry
  returns where it is asked. -/
  | goOn (i : Nat) (now : Time) (answer : Option δ)

namespace DefinitionCache
variable {δ : Type} (s : DefinitionCache δ)

/-- `c.entries[key]`, if it has not expired. -/
def fresh (key : String) (now : Time) : Option δ :=
  match s.entries key with
  | some e => if now < e.expiresAt then some e.definition else none
  | none => none

/-- A flight of the key is under way. -/
def flying (key : String) : Bool := s.calls.any (fun c => c.key == key && c.stage.flying)

/-- The flight of the `i`-th lookup ends: it and those that wait under its key return. -/
def land (i : Nat) (c : LookupCall δ) (found : Found δ) : DefinitionCache δ :=
  let share := fun (c' : LookupCall δ) =>
    if c'.key == c.key && c'.stage.waiting then { c' with stage := .returned found } else c'
  { s with calls := (s.calls.map share).set i { c with stage := .returned found } }

def goTo (i : Nat) (c : LookupCall δ) (stage : LookupStage δ) : DefinitionCache δ :=
  { s with calls := s.calls.set i { c with stage := stage } }

/-- The next action of a lookup. -/
def goOn (i : Nat) (c : LookupCall δ) (now : Time) (answer : Option δ) : Option (DefinitionCache δ) :=
  match c.stage with
  | .called =>
    match s.fresh c.key c.madeAt with
    | some d => some (s.goTo i c (.returned (.hit d)))
    | none => some (s.goTo i c .missed)
  | .missed => some (s.goTo i c (if s.flying c.key then .waits else .leads))
  | .leads => some (s.goTo i c (.checks now))
  | .checks read =>
    match s.fresh c.key read with
    | some d => some (s.land i c (.hit d))
    | none => some (s.goTo i c .fetches)
  | .fetches =>
    match answer with
    | some d =>
      let s' : DefinitionCache δ := { s with answers := s.answers ++ [⟨c.qualifier, d, now⟩] }
      some (s'.goTo i c (.stores d now))
    | none => some (s.land i c .failed)
  | .stores d _ =>
    let s' : DefinitionCache δ := { s with entries := Function.update s.entries c.key (some ⟨d, now + s.ttl⟩) }
    some (s'.land i c (.answered d))
  | .waits | .returned _ => none

def step : LookupChoice δ → Option (DefinitionCache δ)
  | .lookup q now => some { s with calls := s.calls ++ [⟨q, now, s.answers.length, .called⟩] }
  | .goOn i now answer => do
    let c ← s.calls[i]?
    s.goOn i c now answer

end DefinitionCache

end Wrkflw
