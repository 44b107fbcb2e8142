import Wrkflw.Action.Wrap
import Mathlib.Data.List.Induction

/-!
# Wrapping composes, and skips decorators that can be unwrapped

A wrapped action resolves to the policy of the action overridden by the options, and wrapping twice is wrapping once with both
lists of options (`resolvePolicy_wrap`, `wrap_wrap`). What the runtime runs is the action without the library's layers exactly
when the consumer's type under them has no `Unwrap` method (`wrapping_composes_iff`): the chain is followed through every type
that has one, and the `Do` of a decorator on the way is never called.
-/

namespace Wrkflw

/-! ## Policies -/

/-- The last option of each concern wins over the policy. -/
def Policy.overriddenBy (p : Policy) (opts : List ActionOption) : Policy where
  timeout := (opts.reverse.findSome? (fun o => match o with | .withExecTimeout d => some d | _ => none)).or p.timeout
  retry := (opts.reverse.findSome? (fun o => match o with | .withRetrySpecs rp => some rp | _ => none)).or p.retry
  recover := (opts.reverse.findSome? (fun o => match o with | .withRecover on => some on | _ => none)).or p.recover

theorem foldl_apply (opts : List ActionOption) (p : Policy) : opts.foldl ActionOption.apply p = p.overriddenBy opts := by
  induction opts using List.reverseRecOn with
  | nil => rfl
  | append_singleton opts o ih =>
    rw [List.foldl_append, List.foldl_cons, List.foldl_nil, ih]
    unfold Policy.overriddenBy
    rw [List.reverse_append]
    cases o <;> rfl

theorem Policy.orElse_assoc (p q r : Policy) : (p.orElse q).orElse r = p.orElse (q.orElse r) := by
  simp only [Policy.orElse, Option.or_assoc]

theorem Policy.empty_orElse (p : Policy) : ({} : Policy).orElse p = p := rfl

/-- What was gathered before goes first. -/
theorem resolvePolicyFrom_eq (a : Action) (p : Policy) : resolvePolicyFrom p a = p.orElse (resolvePolicy a) := by
  have hstep : ∀ {p q : Policy} {b : Action}, (∀ p, resolvePolicyFrom p b = p.orElse (resolvePolicyFrom {} b)) →
      resolvePolicyFrom (p.orElse q) b = p.orElse (resolvePolicyFrom (({} : Policy).orElse q) b) := by
    intro p q b hb
    rw [hb, hb (({} : Policy).orElse q), Policy.orElse_assoc, Policy.empty_orElse]
  unfold resolvePolicy
  induction a generalizing p with
  | plain capabilities run => rfl
  | decorator capabilities run inner ih => exact hstep ih
  | timed d bare ih => exact hstep ih
  | retriable rp bare ih => exact hstep ih
  | recoverable on bare ih => exact hstep ih

/-! ## Chains -/

namespace Action

theorem resolvePolicy_inner {a : Action} (inner : Action)
    (h : resolvePolicyFrom {} a = resolvePolicyFrom (({} : Policy).orElse a.declares) inner) :
    resolvePolicy a = a.declares.orElse (resolvePolicy inner) := by
  unfold resolvePolicy at *
  rw [h, Policy.empty_orElse, resolvePolicyFrom_eq]
  rfl

/-- The innermost action has no `Unwrap` method. -/
theorem unwraps_unwrap (a : Action) : a.unwrap.unwraps = false := by
  induction a with
  | plain capabilities run => rfl
  | decorator capabilities run inner ih => exact ih
  | timed d bare ih => exact ih
  | retriable rp bare ih => exact ih
  | recoverable on bare ih => exact ih

theorem unwrap_of_bare {a : Action} (h : a.unwraps = false) : a.unwrap = a := by
  cases a with
  | plain capabilities run => rfl
  | _ => cases h

theorem resolvePolicy_of_bare {a : Action} (h : a.unwraps = false) : resolvePolicy a = a.declares := by
  cases a with
  | plain capabilities run => rfl
  | _ => cases h

/-- What the innermost action declares is part of the resolved policy, behind the layers. -/
theorem resolvePolicy_innermost (a : Action) : ∃ p : Policy, resolvePolicy a = p.orElse a.unwrap.declares := by
  have hstep : ∀ {q r : Policy} {c : Policy}, r = q.orElse c → ∀ p : Policy, ∃ p' : Policy, p.orElse r = p'.orElse c := by
    rintro q r c rfl p
    exact ⟨p.orElse q, (Policy.orElse_assoc p q c).symm⟩
  induction a with
  | plain capabilities run => exact ⟨{}, rfl⟩
  | decorator capabilities run inner ih =>
    obtain ⟨q, hq⟩ := ih
    rw [resolvePolicy_inner inner rfl]
    exact hstep hq _
  | timed d bare ih =>
    obtain ⟨q, hq⟩ := ih
    rw [resolvePolicy_inner bare rfl]
    exact hstep hq _
  | retriable rp bare ih =>
    obtain ⟨q, hq⟩ := ih
    rw [resolvePolicy_inner bare rfl]
    exact hstep hq _
  | recoverable on bare ih =>
    obtain ⟨q, hq⟩ := ih
    rw [resolvePolicy_inner bare rfl]
    exact hstep hq _

/-- The consumer's action under the library's own layers. -/
def stripped : Action → Action
  | timed _ bare => bare.stripped
  | retriable _ bare => bare.stripped
  | recoverable _ bare => bare.stripped
  | a => a

theorem unwrap_stripped (a : Action) : a.stripped.unwrap = a.unwrap := by
  induction a with
  | plain capabilities run => rfl
  | decorator capabilities run inner ih => rfl
  | timed d bare ih => exact ih
  | retriable rp bare ih => exact ih
  | recoverable on bare ih => exact ih

theorem unwrap_eq_stripped_iff (a : Action) : a.unwrap = a.stripped ↔ a.stripped.unwraps = false := by
  rw [← unwrap_stripped]
  refine ⟨fun h => ?_, unwrap_of_bare⟩
  rw [← h]
  exact unwraps_unwrap _

end Action

/-! ## Layers -/

theorem unwrap_layered (p : Policy) (a : Action) : (layered p a).unwrap = a.unwrap := by
  obtain ⟨timeout, retry, recover⟩ := p
  cases timeout <;> cases retry <;> cases recover <;> rfl

/-- The layers declare the policy, and the action under them what is left. -/
theorem resolvePolicy_layered (p : Policy) (a : Action) : resolvePolicy (layered p a) = p.orElse (resolvePolicy a) := by
  have hrecover : ∀ a : Action, resolvePolicy (layered ⟨none, none, p.recover⟩ a) =
      (⟨none, none, p.recover⟩ : Policy).orElse (resolvePolicy a) := by
    intro a
    cases p.recover with
    | none => rfl
    | some on => exact Action.resolvePolicy_inner _ rfl
  have hretry : ∀ a : Action, resolvePolicy (layered ⟨none, p.retry, none⟩ a) =
      (⟨none, p.retry, none⟩ : Policy).orElse (resolvePolicy a) := by
    intro a
    cases p.retry with
    | none => rfl
    | some rp => exact Action.resolvePolicy_inner _ rfl
  have htimeout : ∀ a : Action, resolvePolicy (layered ⟨p.timeout, none, none⟩ a) =
      (⟨p.timeout, none, none⟩ : Policy).orElse (resolvePolicy a) := by
    intro a
    cases p.timeout with
    | none => rfl
    | some d => exact Action.resolvePolicy_inner _ rfl
  have hsplit : layered p a =
      layered ⟨p.timeout, none, none⟩ (layered ⟨none, p.retry, none⟩ (layered ⟨none, none, p.recover⟩ a)) := rfl
  rw [hsplit, htimeout, hretry, hrecover, ← Policy.orElse_assoc, ← Policy.orElse_assoc]
  simp only [Policy.orElse, Option.or_none, Option.none_or]

/-! ## Wrapping -/

theorem unwrap_wrap (a : Action) (opts : List ActionOption) : (wrap a opts).unwrap = a.unwrap := by
  unfold wrap
  rw [unwrap_layered]
  exact Action.unwrap_of_bare a.unwraps_unwrap

/-- The policy of a wrapped action is the action's own, overridden by the options. -/
theorem resolvePolicy_wrap (a : Action) (opts : List ActionOption) :
    resolvePolicy (wrap a opts) = (resolvePolicy a).overriddenBy opts := by
  obtain ⟨p, hp⟩ := a.resolvePolicy_innermost
  unfold wrap
  rw [resolvePolicy_layered, foldl_apply, Action.resolvePolicy_of_bare a.unwraps_unwrap, hp]
  unfold Policy.overriddenBy Policy.orElse
  simp only [Option.or_assoc, Option.or_self]

/-- Wrapping again is wrapping once with both lists of options. -/
theorem wrap_wrap (a : Action) (o1 o2 : List ActionOption) : wrap (wrap a o1) o2 = wrap a (o1 ++ o2) := by
  have hfold : (o1 ++ o2).foldl ActionOption.apply (resolvePolicy a) = o2.foldl ActionOption.apply
    (resolvePolicy (wrap a o1)) := by
    rw [List.foldl_append, foldl_apply o1, ← resolvePolicy_wrap]
  change layered (o2.foldl ActionOption.apply (resolvePolicy (wrap a o1))) (wrap a o1).unwrap = layered _ a.unwrap
  rw [hfold, unwrap_wrap]

theorem unwrap_applyDefaults (a : Action) (defaults : List ActionOption) : (applyDefaults a defaults).unwrap = a.unwrap := by
  unfold applyDefaults
  split
  · rfl
  · exact unwrap_wrap a defaults

/-- The laws of wrapping hold, and the action the runtime runs, however it was wrapped or defaulted, is the action without the
library's layers, exactly when the consumer's type under the layers has no `Unwrap` method. -/
theorem wrapping_composes_iff (a : Action) (o1 o2 defaults : List ActionOption) (actionTimeout : Duration) :
    (resolvePolicy (wrap a o1) = (resolvePolicy a).overriddenBy o1 ∧
      resolvePolicy (wrap (wrap a o1) o2) = resolvePolicy (wrap a (o1 ++ o2)) ∧
      (effectiveActionPolicy actionTimeout (wrap (wrap a o1) o2)).1 =
      (effectiveActionPolicy actionTimeout (wrap a (o1 ++ o2))).1 ∧
      (effectiveActionPolicy actionTimeout a).1 = a.stripped ∧
      (effectiveActionPolicy actionTimeout (wrap a o1)).1 = a.stripped ∧
      (effectiveActionPolicy actionTimeout (applyDefaults a defaults)).1 = a.stripped) ↔
      a.stripped.unwraps = false := by
  rw [← Action.unwrap_eq_stripped_iff, wrap_wrap]
  unfold effectiveActionPolicy
  dsimp only
  rw [unwrap_wrap, unwrap_wrap, unwrap_applyDefaults]
  exact ⟨fun h => h.2.2.2.1, fun h => ⟨resolvePolicy_wrap a o1, rfl, rfl, h, h, h⟩⟩

/-- An action that answers with a marker, and a decorator with an `Unwrap` method that refuses every call. -/
def answering : Action := .plain {} (fun _ _ => .returned [("done", .str "yes")])

def refusing : Action := .decorator {} (fun _ _ _ => .failed "refused") answering

/-- The decorator refuses, but the driver never asks it. -/
theorem decorator_skipped : refusing.perform [] [] = .failed "refused" ∧
    invokeAction 0 refusing [] [] = .returned [("done", .str "yes")] ∧
    ¬ (effectiveActionPolicy 0 refusing).1 = refusing.stripped := by
  refine ⟨rfl, rfl, ?_⟩
  intro h
  cases h

end Wrkflw
