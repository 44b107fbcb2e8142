import Wrkflw.Store.Dedup
import Wrkflw.Library.Pool
import Mathlib.Data.List.Nodup

/-!
# Exactly-once effect

A consumer that gets a message more than once should process it once. `messages_processed_once` says, for every interleaving
of consumers with each other and with the pruner, how often the messages of a key were processed, and that none is skipped
without another of its key having been processed. A message is processed where `Seen` takes it for new in a transaction
that commits.

* `Dedup.known`, `Dedup.held` : the keys that are or were in the table, and those of the open transactions;
* `Dedup.Sound` : the invariant, with one lemma for each statement.
-/

namespace Wrkflw

open Library
open scoped List

theorem DedupTx.keys_takes (tx : DedupTx) (stored : String → String) (m : Message) (now : Time) :
    (tx.takes stored m now).keys = tx.keys ++ [m.key stored] := List.map_append

theorem DedupTx.keys_skips (tx : DedupTx) (m : Message) : (tx.skips m).keys = tx.keys := rfl

namespace Dedup

def known (x : Dedup) : List Message := x.keys ++ x.pruned

def held (x : Dedup) : List Message := x.txs.flatMap DedupTx.keys

structure Sound (stored : String → String) (x : Dedup) : Prop where
  /-- The primary key, with the rows that are not yet committed. -/
  unique : (x.keys ++ x.held).Nodup
  wrote : ∀ tx ∈ x.txs, tx.keys = tx.processed.map (Message.key stored)
  account : x.processed.map (Message.key stored) ~ x.known
  skipped : ∀ m ∈ x.skipped, m.key stored ∈ x.known
  skips : ∀ tx ∈ x.txs, ∀ m ∈ tx.skipped, m.key stored ∈ x.known ++ tx.keys

theorem sound_empty (stored : String → String) : Sound stored {} where
  unique := List.nodup_nil
  wrote := fun _ h => absurd h List.not_mem_nil
  account := List.Perm.nil
  skipped := fun _ h => absurd h List.not_mem_nil
  skips := fun _ h => absurd h List.not_mem_nil

variable {stored : String → String} {x : Dedup} {i : Nat} {tx : DedupTx}

theorem held_perm (htx : x.txs[i]? = some tx) : x.held ~ tx.keys ++ (x.txs.eraseIdx i).flatMap DedupTx.keys :=
  perm_flatMap_eraseIdx htx _

namespace Sound

/-! ## One transaction -/

theorem opens (h : Sound stored x) : Sound stored { x with txs := x.txs ++ [{}] } where
  unique := by
    have hheld : held { x with txs := x.txs ++ [{}] } = x.held := by
      simp [held, DedupTx.keys]
    rw [hheld]
    exact h.unique
  wrote := forall_mem_concat h.wrote rfl
  account := h.account
  skipped := h.skipped
  skips := forall_mem_concat h.skips (fun _ hm => by cases hm)

/-- The transaction inserts the row of a key that nobody holds. -/
theorem takes (h : Sound stored x) (htx : x.txs[i]? = some tx) (m : Message) (now : Time)
    (hfree : m.key stored ∉ x.keys ++ x.held) : Sound stored { x with txs := x.txs.set i (tx.takes stored m now) } where
  unique := by
    have hgrow : held { x with txs := x.txs.set i (tx.takes stored m now) } ~ x.held ++ [m.key stored] := by
      refine perm_flatMap_set htx DedupTx.keys ?_
      rw [DedupTx.keys_takes]
    refine (hgrow.append_left _).nodup_iff.mpr ?_
    show (x.keys ++ (x.held ++ [m.key stored])).Nodup
    rw [← List.append_assoc]
    refine List.nodup_append.mpr ⟨h.unique, by simp, ?_⟩
    rintro key hkey _ hnew rfl
    rw [List.mem_singleton.mp hnew] at hkey
    exact hfree hkey
  wrote := by
    refine forall_mem_set h.wrote ?_
    rw [DedupTx.keys_takes, h.wrote tx (List.mem_of_getElem? htx)]
    show _ = (tx.processed ++ [m]).map (Message.key stored)
    rw [List.map_append]
    rfl
  account := h.account
  skipped := h.skipped
  skips := by
    refine forall_mem_set (P := fun t : DedupTx => ∀ m ∈ t.skipped, m.key stored ∈ x.known ++ t.keys) h.skips ?_
    intro m' hm'
    rw [DedupTx.keys_takes, ← List.append_assoc]
    exact List.mem_append_left _ (h.skips tx (List.mem_of_getElem? htx) m' hm')

/-- The transaction skips a message whose key is in the table or its own. -/
theorem passes (h : Sound stored x) (htx : x.txs[i]? = some tx) (m : Message) (hdup : m.key stored ∈ x.keys ++ tx.keys) :
    Sound stored { x with txs := x.txs.set i (tx.skips m) } where
  unique := by
    have hsame : held { x with txs := x.txs.set i (tx.skips m) } ~ x.held ++ [] := by
      refine perm_flatMap_set htx DedupTx.keys ?_
      rw [DedupTx.keys_skips, List.append_nil]
    rw [List.append_nil] at hsame
    exact (hsame.append_left _).nodup_iff.mpr h.unique
  wrote := forall_mem_set h.wrote (h.wrote tx (List.mem_of_getElem? htx) :)
  account := h.account
  skipped := h.skipped
  skips := by
    refine forall_mem_set (P := fun t : DedupTx => ∀ m ∈ t.skipped, m.key stored ∈ x.known ++ t.keys) h.skips ?_
    rw [DedupTx.keys_skips]
    refine forall_mem_concat (h.skips tx (List.mem_of_getElem? htx)) ?_
    rcases List.mem_append.mp hdup with hkey | hkey
    · exact List.mem_append_left _ (List.mem_append_left _ hkey)
    · exact List.mem_append_right _ hkey

theorem seen (h : Sound stored x) (htx : x.txs[i]? = some tx) {m : Message} {now : Time} {y : Dedup}
    (hy : x.seen stored i tx m now = some y) : Sound stored y := by
  unfold Dedup.seen at hy
  split at hy
  · cases hy
  rename_i hothers
  split at hy
  · rename_i hdup
    cases hy
    exact h.passes htx m (by simpa using hdup)
  · rename_i hnew
    cases hy
    refine h.takes htx m now ?_
    intro hmem
    rcases List.mem_append.mp hmem with hkey | hheld
    · exact hnew (by simpa using Or.inl hkey)
    · rcases List.mem_append.mp ((held_perm htx).mem_iff.mp hheld) with hown | hother
      · exact hnew (by simpa using Or.inr hown)
      · exact hothers (List.contains_iff_mem.mpr hother)

/-- The rows of the transaction get into the table. -/
theorem commit (h : Sound stored x) (htx : x.txs[i]? = some tx) : Sound stored (x.commit i tx) := by
  have hmem := List.mem_of_getElem? htx
  have hkeys : (x.commit i tx).keys = x.keys ++ tx.keys := List.map_append
  have hknown : (x.commit i tx).known ~ x.known ++ tx.keys := by
    unfold known
    rw [hkeys, List.append_assoc, List.append_assoc]
    exact List.perm_append_comm.append_left _
  constructor
  · rw [hkeys, List.append_assoc]
    exact ((held_perm htx).append_left _).nodup_iff.mp h.unique
  · exact forall_mem_eraseIdx h.wrote
  · refine List.Perm.trans ?_ hknown.symm
    calc (x.commit i tx).processed.map (Message.key stored)
        = x.processed.map (Message.key stored) ++ tx.processed.map (Message.key stored) := List.map_append
      _ = x.processed.map (Message.key stored) ++ tx.keys := by rw [h.wrote tx hmem]
      _ ~ x.known ++ tx.keys := h.account.append_right _
  · intro m hm
    rcases List.mem_append.mp hm with hm | hm
    · exact hknown.mem_iff.mpr (List.mem_append_left _ (h.skipped m hm))
    · exact hknown.mem_iff.mpr (h.skips tx hmem m hm)
  · refine forall_mem_eraseIdx (P := fun t : DedupTx => ∀ m ∈ t.skipped, m.key stored ∈ (x.commit i tx).known ++ t.keys) ?_
    intro t ht m hm
    rcases List.mem_append.mp (h.skips t ht m hm) with hold | hown
    · exact List.mem_append_left _ (hknown.mem_iff.mpr (List.mem_append_left _ hold))
    · exact List.mem_append_right _ hown

theorem rollback (h : Sound stored x) (htx : x.txs[i]? = some tx) : Sound stored { x with txs := x.txs.eraseIdx i } where
  unique := by
    have hperm := (held_perm htx).append_left x.keys
    have hnodup := hperm.nodup_iff.mp h.unique
    exact hnodup.sublist ((List.sublist_append_right _ _).append_left _)
  wrote := forall_mem_eraseIdx h.wrote
  account := h.account
  skipped := h.skipped
  skips := forall_mem_eraseIdx (P := fun t : DedupTx => ∀ m ∈ t.skipped, m.key stored ∈ x.known ++ t.keys) h.skips

theorem prune (h : Sound stored x) (before : Time) : Sound stored (x.prune before) := by
  have hknown : (x.prune before).known ~ x.known := by
    have hsplit := (List.filter_append_perm (fun row : ProcessedRow => decide (row.processedAt < before)) x.rows).map (·.key)
    rw [List.map_append] at hsplit
    unfold known keys Dedup.prune
    calc (x.rows.filter _).map (·.key) ++ (x.pruned ++ (x.rows.filter _).map (·.key))
        ~ ((x.rows.filter (fun row => decide (row.processedAt < before))).map (·.key) ++
            (x.rows.filter (fun row => !decide (row.processedAt < before))).map (·.key)) ++ x.pruned := by
          rw [← List.append_assoc]
          refine List.perm_append_comm.trans ?_
          rw [← List.append_assoc]
      _ ~ x.rows.map (·.key) ++ x.pruned := hsplit.append_right _
  constructor
  · exact h.unique.sublist ((List.filter_sublist.map _).append_right _)
  · exact h.wrote
  · exact h.account.trans hknown.symm
  · exact fun m hm => hknown.mem_iff.mpr (h.skipped m hm)
  · exact fun tx htx m hm => (hknown.append_right _).mem_iff.mpr (h.skips tx htx m hm)

theorem step (h : Sound stored x) {s : DedupStep} {y : Dedup} (hy : x.step stored s = some y) : Sound stored y := by
  cases s with
  | opens =>
    cases hy
    exact h.opens
  | seen i m now =>
    obtain ⟨tx, htx, hseen⟩ := Option.bind_eq_some_iff.mp hy
    exact h.seen htx hseen
  | commit i =>
    obtain ⟨tx, htx, rfl⟩ := Option.map_eq_some_iff.mp hy
    exact h.commit htx
  | rollback i =>
    obtain ⟨tx, htx, rfl⟩ := Option.map_eq_some_iff.mp hy
    exact h.rollback htx
  | prune before =>
    cases hy
    exact h.prune before

end Sound

end Dedup

/-- After every run: the messages of a key were processed once if its row is there, and once more for every time it
was pruned; a message that was skipped has its key in common with one that was processed, which is that message itself
where the columns tell all texts apart; and two open transactions never hold one key. -/
theorem messages_processed_once {stored : String → String} {steps : List DedupStep} {x : Dedup}
    (h : Library.Runs (Dedup.step stored) (fun _ _ => True) {} steps x) :
    (∀ key, (x.processed.map (Message.key stored)).count key = (if key ∈ x.keys then 1 else 0) + x.pruned.count key) ∧
    (∀ m ∈ x.skipped, ∃ m' ∈ x.processed, m'.key stored = m.key stored ∧ (Function.Injective stored → m' = m)) ∧
    x.held.Nodup := by
  have hs : Dedup.Sound stored x := h.invariant (Dedup.sound_empty stored) (fun hx _ hy => hx.step hy)
  have hkeys : x.keys.Nodup := (List.nodup_append.mp hs.unique).1
  refine ⟨fun key => ?_, fun m hm => ?_, (List.nodup_append.mp hs.unique).2.1⟩
  · rw [hs.account.count_eq, Dedup.known, List.count_append]
    congr 1
    split
    · rename_i hmem
      exact List.count_eq_one_of_mem hkeys hmem
    · rename_i hmem
      exact List.count_eq_zero.mpr hmem
  · obtain ⟨m', hm', hkey⟩ := List.mem_map.mp (hs.account.mem_iff.mpr (hs.skipped m hm))
    refine ⟨m', hm', hkey, fun hinj => ?_⟩
    obtain ⟨hsub, hid⟩ := Message.mk.inj hkey
    exact congrArg₂ Message.mk (hinj hsub) (hinj hid)

/-- One message delivered twice at once, and a third time after the pruner: it is skipped once and processed twice. -/
theorem redelivered_after_prune : ∃ steps x, Library.Runs (Dedup.step id) (fun _ _ => True) {} steps x ∧
    (x.processed.map (Message.key id)).count ⟨"mail", "m1"⟩ = 2 ∧ x.pruned.count ⟨"mail", "m1"⟩ = 1 ∧
    x.skipped = [⟨"mail", "m1"⟩] := by
  have hplay : plays (Dedup.step id) (fun _ _ => True) {}
      [.opens, .opens, .seen 0 ⟨"mail", "m1"⟩ 5, .commit 0, .seen 0 ⟨"mail", "m1"⟩ 6, .commit 0, .prune 9,
        .opens, .seen 0 ⟨"mail", "m1"⟩ 10, .commit 0]
      (fun x => decide (x.keys = [⟨"mail", "m1"⟩] ∧ x.pruned = [⟨"mail", "m1"⟩] ∧ x.skipped = [⟨"mail", "m1"⟩])) = true := by
    decide
  obtain ⟨x, hrun, hx⟩ := runs_of_plays hplay
  obtain ⟨hkeys, hpruned, hskipped⟩ := of_decide_eq_true hx
  refine ⟨_, x, hrun, ?_, ?_, hskipped⟩
  · rw [(messages_processed_once hrun).1, hkeys, hpruned]
    rfl
  · rw [hpruned]
    rfl

end Wrkflw
