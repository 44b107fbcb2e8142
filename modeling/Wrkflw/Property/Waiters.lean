import Wrkflw.Runtime.Waiters

/-!
# Message waiters are not forgotten

While a running instance waits for a message, the driver's table should lead to an instance that does. A sync overwrites
the entry of another instance and deletes it when its own instance stops waiting, so the table leads nowhere once the
instance that listed a pair last has left it, whoever else waits.
-/

namespace Wrkflw

/-- Whenever an instance awaits a pair, the table leads to one that does, and the message is taken there. -/
def NeverForgets (syncs : List InstanceState) : Prop :=
  ∀ k id, AwaitsNow syncs id k → ∃ owner, findMessageWaiter (msgWaiters syncs) k.name k.correlationKey = some owner ∧
    AwaitsNow syncs owner k ∧ ∀ defs, deliverMessage (msgWaiters syncs) defs k.name k.correlationKey = .correlate owner

/-- No awaited pair was listed last by an instance that has left it. -/
def OwnersStay (syncs : List InstanceState) : Prop :=
  ∀ k id, AwaitsNow syncs id k → ∃ owner, lastLister syncs k = some owner ∧ AwaitsNow syncs owner k

/-- The table forgets no waiter exactly when, for every pair some instance awaits, the instance that was the last to list it
awaits it still. -/
theorem never_forgets_iff (syncs : List InstanceState) : NeverForgets syncs ↔ OwnersStay syncs := by
  constructor
  · intro h k id hid
    obtain ⟨owner, hfind, hnow, -⟩ := h k id hid
    exact ⟨owner, ((msgWaiters_eq syncs k owner).mp hfind).1, hnow⟩
  · intro h k id hid
    obtain ⟨owner, hlast, hnow⟩ := h k id hid
    have hfind : findMessageWaiter (msgWaiters syncs) k.name k.correlationKey = some owner :=
      (msgWaiters_eq syncs k owner).mpr ⟨hlast, hnow⟩
    refine ⟨owner, hfind, hnow, fun defs => ?_⟩
    obtain ⟨st, -, hst⟩ := hid
    unfold deliverMessage
    rw [if_neg (by simpa using awaits_name hst), hfind]

/-- An instance that waits for the message `"paid"` without a key. -/
def awaitsPaid (id : String) : InstanceState :=
  { instanceID := id, tokens := [{ id := id ++ "-t1", nodeID := "r", awaitMessage := "paid", state := .waiting }] }

/-- Two instances wait for the same message, and the second, which listed it last, completes: the first still waits and the
message leads nowhere. -/
theorem waiter_forgotten : ¬ NeverForgets [awaitsPaid "a", awaitsPaid "b", { instanceID := "b", status := .completed }] := by
  intro h
  obtain ⟨owner, hfind, -⟩ := h ⟨"paid", ""⟩ "a" ⟨awaitsPaid "a", by rfl, by decide⟩
  have hnone : findMessageWaiter (msgWaiters [awaitsPaid "a", awaitsPaid "b", { instanceID := "b", status := .completed }])
      "paid" "" = none := by rfl
  rw [hnone] at hfind
  cases hfind

end Wrkflw
