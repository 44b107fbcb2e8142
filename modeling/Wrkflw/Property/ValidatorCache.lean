import Wrkflw.Runtime.ValidationGate
import Mathlib.Data.List.Basic

/-!
# When the validator cache can be told

The gate keeps one validator per key, the kind and the schema joined by a NUL, and the first strategy with the key
that builds puts it there. `holder` is that strategy's validator in a sequence of calls; each answer of the gate is
the holder's if there is one and a fresh validator's if not (`CacheHolds.answer`). So the cache cannot be told,
whatever the inputs, exactly when the strategies that come with one key build validators that accept the same inputs
(`cache_transparent_iff`). A second registry with another factory for the kind, a placeholder that was never rebuilt
and a NUL in a kind all meet a validator that is not theirs.
-/

namespace Wrkflw

variable {s : ValidationStrategy}

/-- The call accepts or rejects as a fresh validator would. -/
def SameVerdict (answer : Option String) (s : ValidationStrategy) (input : Vars) : Prop :=
  (answer = none ↔ freshAnswer s input = none) ∧ ∀ e, s.newValidator = .error e → answer ≠ none

/-- Every call of the sequence does. -/
def Transparent (calls : List (ValidationStrategy × Vars)) : Prop :=
  List.Forall₂ (fun answer call => SameVerdict answer call.1 call.2) (({} : ValidationGate).validateAll calls) calls

/-- The strategy builds a validator, and it accepts the input. -/
def ValidationStrategy.Accepts (s : ValidationStrategy) (input : Vars) : Prop :=
  ∃ own, s.newValidator = .ok own ∧ own input = none

/-- Where the two have one key and the earlier one builds a validator, both accept the same inputs. -/
def ValidationStrategy.Agrees (earlier later : ValidationStrategy) : Prop :=
  ∀ d d' v, earlier.descriptorOf = some d → later.descriptorOf = some d' → validatorKey d = validatorKey d' →
    earlier.newValidator = .ok v → ∀ input, earlier.Accepts input ↔ later.Accepts input

/-- The validator of the first strategy with the key that builds. -/
def holder (calls : List (ValidationStrategy × Vars)) (key : String) : Option InputValidator :=
  calls.findSome? (fun call => if call.1.descriptorOf.map validatorKey = some key then call.1.newValidator.toOption else none)

/-- The call's input is judged by the validator its key has already as by the call's own strategy. -/
def MeetsOwn (before : List (ValidationStrategy × Vars)) (call : ValidationStrategy × Vars) : Prop :=
  ∀ d v, call.1.descriptorOf = some d → holder before (validatorKey d) = some v →
    (v call.2 = none ↔ call.1.Accepts call.2)

variable {before calls : List (ValidationStrategy × Vars)} {call : ValidationStrategy × Vars} {g : ValidationGate}

/-- The gate's cache after the calls. -/
def CacheHolds (g : ValidationGate) (before : List (ValidationStrategy × Vars)) : Prop :=
  ∀ key, g.cached key = holder before key

theorem holder_append (before : List (ValidationStrategy × Vars)) (call : ValidationStrategy × Vars) (key : String) :
    holder (before ++ [call]) key = (holder before key).or (holder [call] key) := by
  unfold holder
  rw [List.findSome?_append]

/-- One call leaves in the cache what its strategy builds, if there was nothing for the key. -/
theorem CacheHolds.validate (h : CacheHolds g before) (s : ValidationStrategy) (input : Vars) :
    CacheHolds (g.validate s input).2 (before ++ [(s, input)]) := by
  intro key
  rw [holder_append, ← h key]
  have hone : holder [(s, input)] key =
      if s.descriptorOf.map validatorKey = some key then s.newValidator.toOption else none := by
    unfold holder
    rw [List.findSome?_cons, List.findSome?_nil]
    split <;> simp_all
  rw [hone]
  unfold ValidationGate.validate ValidationGate.validator
  cases hd : s.descriptorOf with
  | none => cases hv : s.newValidator <;> simp
  | some d =>
    simp only [Option.map_some, Option.some.injEq]
    cases hc : g.cached (validatorKey d) with
    | some v =>
      dsimp only
      split
      · rename_i hk
        rw [← hk, hc]
        rfl
      · rw [Option.or_none]
    | none =>
      cases hv : s.newValidator with
      | error e =>
        dsimp only
        have hnone : (if validatorKey d = key then (Except.error e : Except String InputValidator).toOption else none) =
          none := by
          split <;> rfl
        rw [hnone, Option.or_none]
      | ok v =>
        dsimp only
        by_cases hk : validatorKey d = key
        · subst hk
          rw [if_pos rfl, hc]
          unfold ValidationGate.cached
          rw [List.find?_cons_of_pos (by simp)]
          rfl
        · rw [if_neg hk, Option.or_none]
          unfold ValidationGate.cached
          rw [List.find?_cons_of_neg (by simpa using hk)]

/-- The answer of a call, by what its key holds. -/
theorem CacheHolds.answer (h : CacheHolds g before) (s : ValidationStrategy) (input : Vars) :
    (g.validate s input).1 =
      match s.descriptorOf.bind (fun d => holder before (validatorKey d)) with
      | some v => (v input).map invalidInput
      | none => freshAnswer s input := by
  unfold ValidationGate.validate ValidationGate.validator freshAnswer
  cases hd : s.descriptorOf with
  | none => cases hv : s.newValidator <;> rfl
  | some d =>
    rw [Option.bind_some, ← h (validatorKey d)]
    cases hc : g.cached (validatorKey d) with
    | some v => simp [hc]
    | none => cases hv : s.newValidator <;> simp [hc]

/-- A fresh validator accepts where the strategy builds one that does. -/
theorem freshAnswer_none_iff (s : ValidationStrategy) (input : Vars) :
    freshAnswer s input = none ↔ s.Accepts input := by
  unfold freshAnswer ValidationStrategy.Accepts
  cases hv : s.newValidator with
  | error e => simp
  | ok v => simp [Option.map_eq_none_iff]

/-- The second half of a verdict is part of the first: a strategy that builds nothing accepts nothing. -/
theorem sameVerdict_of_accepts {answer : Option String} {input : Vars} :
    SameVerdict answer s input ↔ (answer = none ↔ freshAnswer s input = none) := by
  refine ⟨fun h => h.1, fun h => ⟨h, fun e he hnone => ?_⟩⟩
  obtain ⟨own, hown, -⟩ := (freshAnswer_none_iff s input).mp (h.mp hnone)
  rw [he] at hown
  cases hown

/-- One call gives the verdict of its own strategy exactly when its key's holder does. -/
theorem CacheHolds.sameVerdict_iff (h : CacheHolds g before) (s : ValidationStrategy) (input : Vars) :
    SameVerdict (g.validate s input).1 s input ↔ MeetsOwn before (s, input) := by
  rw [h.answer, sameVerdict_of_accepts]
  cases hd : s.descriptorOf with
  | none =>
    refine ⟨fun _ d v hs => ?_, fun _ => Iff.rfl⟩
    rw [hd] at hs
    cases hs
  | some d =>
    rw [Option.bind_some]
    cases hh : holder before (validatorKey d) with
    | none =>
      refine ⟨fun _ d' v hs hv => ?_, fun _ => Iff.rfl⟩
      obtain rfl := Option.some.inj (hd.symm.trans hs)
      rw [hh] at hv
      cases hv
    | some v =>
      dsimp only
      rw [freshAnswer_none_iff, Option.map_eq_none_iff]
      refine ⟨fun hsame d' v' hs hv => ?_, fun hown => hown d v hd hh⟩
      obtain rfl := Option.some.inj (hd.symm.trans hs)
      obtain rfl := Option.some.inj (hh.symm.trans hv)
      exact hsame

/-- The calls of a sequence, each with those before it. -/
theorem CacheHolds.transparent_iff (h : CacheHolds g before) (calls : List (ValidationStrategy × Vars)) :
    List.Forall₂ (fun answer call => SameVerdict answer call.1 call.2) (g.validateAll calls) calls ↔
      ∀ pre call post, calls = pre ++ call :: post → MeetsOwn (before ++ pre) call := by
  induction calls generalizing g before with
  | nil =>
    refine ⟨fun _ pre call post he => ?_, fun _ => .nil⟩
    cases pre <;> cases he
  | cons c calls ih =>
    obtain ⟨s, input⟩ := c
    rw [ValidationGate.validateAll, List.forall₂_cons, h.sameVerdict_iff, ih (h.validate s input)]
    constructor
    · rintro ⟨hfirst, hrest⟩ pre call post he
      cases pre with
      | nil =>
        obtain ⟨rfl, -⟩ := List.cons.inj he
        rw [List.append_nil]
        exact hfirst
      | cons c' pre =>
        obtain ⟨rfl, he'⟩ := List.cons.inj he
        have := hrest pre call post he'
        rwa [List.append_assoc, List.singleton_append] at this
    · intro hall
      refine ⟨?_, fun pre call post he => ?_⟩
      · have := hall [] (s, input) calls rfl
        rwa [List.append_nil] at this
      · have := hall ((s, input) :: pre) call post (by rw [he, List.cons_append])
        rwa [List.append_assoc, List.singleton_append]

theorem blank_holds : CacheHolds {} [] := fun _ => rfl

/-- The holder is one of the strategies with the key. -/
theorem holder_some {key : String} {v : InputValidator} (h : holder before key = some v) :
    ∃ call ∈ before, ∃ d, call.1.descriptorOf = some d ∧ validatorKey d = key ∧ call.1.newValidator = .ok v := by
  obtain ⟨call, hmem, hcall⟩ := List.exists_of_findSome?_eq_some h
  split at hcall
  · rename_i hkey
    obtain ⟨d, hd, hk⟩ := Option.map_eq_some_iff.mp hkey
    refine ⟨call, hmem, d, hd, hk, ?_⟩
    cases hv : call.1.newValidator with
    | error e =>
      rw [hv] at hcall
      cases hcall
    | ok own =>
      rw [hv] at hcall
      exact congrArg Except.ok (Option.some.inj hcall)
  · cases hcall

theorem accepts_iff {v : InputValidator} (h : s.newValidator = .ok v) (input : Vars) :
    s.Accepts input ↔ v input = none := by
  unfold ValidationStrategy.Accepts
  rw [h]
  simp

/-- Where each call is judged as by its own strategy, a strategy that builds judges the input as the holder of its key, itself
if it has none before it. -/
theorem accepts_holder {pre : List (ValidationStrategy × Vars)} (post : List (ValidationStrategy × Vars)) {input : Vars}
    {d : ValidationDescriptor} {v : InputValidator} (hown : MeetsOwn pre (s, input)) (hd : s.descriptorOf = some d)
    (hv : s.newValidator = .ok v) :
    ∃ h, holder (pre ++ (s, input) :: post) (validatorKey d) = some h ∧ (h input = none ↔ s.Accepts input) := by
  unfold holder
  rw [List.findSome?_append, List.findSome?_cons]
  change ∃ h, (holder pre (validatorKey d)).or _ = some h ∧ _
  cases hh : holder pre (validatorKey d) with
  | some h => exact ⟨h, rfl, hown d h hd hh⟩
  | none =>
    refine ⟨v, ?_, (accepts_iff hv input).symm⟩
    simp [hd, hv, Except.toOption]

/-- Whatever the inputs, every call accepts or rejects as a validator freshly built from its own strategy would, exactly when
every two strategies agree, the earlier with the later. -/
theorem cache_transparent_iff (strategies : List ValidationStrategy) :
    (∀ calls : List (ValidationStrategy × Vars), calls.map (·.1) = strategies → Transparent calls) ↔
      strategies.Pairwise ValidationStrategy.Agrees := by
  constructor
  · intro hall
    refine List.pairwise_iff_getElem.mpr (fun i j hi hj hij d d' v hd hd' hkey hv input => ?_)
    -- both meet the holder of their key in the sequence that asks every strategy about the input
    have hmeets := (blank_holds.transparent_iff (strategies.map (·, input))).mp (hall _ (by simp [Function.comp_def]))
    have hsplit : ∀ {k : Nat} (hk : k < strategies.length),
        strategies.map (·, input) = (strategies.take k).map (·, input) ++ (strategies[k], input) ::
          (strategies.drop (k + 1)).map (·, input) := by
      intro k hk
      rw [← List.map_cons (f := fun s => (s, input)), ← List.map_append, List.getElem_cons_drop, List.take_append_drop]
    have hearlier := hmeets _ _ _ (hsplit hi)
    have hlater := hmeets _ _ _ (hsplit hj)
    have htake : strategies.take j = strategies.take i ++ strategies[i] :: (strategies.take j).drop (i + 1) := by
      have hlt : i < (strategies.take j).length := by
        rw [List.length_take]
        omega
      have hparts := List.take_append_drop i (strategies.take j)
      rw [List.take_take, Nat.min_eq_left (by omega), ← List.getElem_cons_drop hlt, List.getElem_take] at hparts
      exact hparts.symm
    obtain ⟨h, hh, haccepts⟩ := accepts_holder (((strategies.take j).drop (i + 1)).map (·, input)) hearlier hd hv
    rw [List.nil_append, ← List.map_cons (f := fun s => (s, input)), ← List.map_append, ← htake, hkey] at hh
    exact haccepts.symm.trans (hlater d' h hd' hh)
  · rintro hpairs calls rfl
    refine (blank_holds.transparent_iff calls).mpr (fun pre call post he d v hd hv => ?_)
    obtain ⟨first, hmem, d', hd', hkey, hbuilt⟩ := holder_some hv
    rw [he, List.map_append, List.map_cons] at hpairs
    have hagrees := (List.pairwise_append.mp hpairs).2.2 first.1 (List.mem_map_of_mem hmem) call.1 List.mem_cons_self
    exact (accepts_iff hbuilt call.2).symm.trans (hagrees d' d v hd' hd hkey hbuilt call.2)

/-! ## Meeting another strategy's validator -/

/-- A kind whose validator rejects every input, and one whose validator accepts every input. -/
def strict : ValidatorRegistry :=
  ({} : ValidatorRegistry).register "shape"
    (fun schema => .ok (.describable ⟨"shape", schema⟩ (.ok (fun _ => some "refused"))))

def lax : ValidatorRegistry :=
  ({} : ValidatorRegistry).register "shape" (fun schema => .ok (.describable ⟨"shape", schema⟩ (.ok (fun _ => none))))

/-- The slot of a node that holds the descriptor, reloaded with the registry. -/
def reloaded (reg : ValidatorRegistry) : Option ValidationStrategy :=
  reconcileValidationLenient "n" reg (some (.pending ⟨"shape", "s"⟩))

/-- The answers of a gate to one call for each slot. -/
def answersFor (slots : List (Option ValidationStrategy)) : List (Option String) :=
  ({} : ValidationGate).validateAll ((slots.filterMap (fun s => s)).map (fun s => (s, [])))

/-- The strict registry's strategy accepts once the lax one's was asked, and so does a placeholder nobody rebuilt. -/
theorem cache_serves_others :
    answersFor [reloaded strict] = [some "workflow-validation: invalid input: refused"] ∧
      answersFor [reloaded {}] =
        [some "workflow-model: validation strategy not reconstructed (missing registry): kind \"shape\""] ∧
      answersFor [reloaded lax, reloaded strict, reloaded {}] = [none, none, none] ∧
      ¬ Transparent (([reloaded lax, reloaded strict].filterMap (fun s => s)).map (fun s => (s, []))) := by
  refine ⟨by decide, by decide, by decide, ?_⟩
  intro h
  have hsame := (blank_holds.transparent_iff _).mp h [(.describable ⟨"shape", "s"⟩ (.ok (fun _ => none)), [])]
    (.describable ⟨"shape", "s"⟩ (.ok (fun _ => some "refused")), []) [] rfl ⟨"shape", "s"⟩ (fun _ => none) rfl rfl
  obtain ⟨own, hown, haccepts⟩ := hsame.mp rfl
  obtain rfl := Except.ok.inj hown
  cases haccepts

end Wrkflw
