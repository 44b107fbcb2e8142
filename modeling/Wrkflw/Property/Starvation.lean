import Wrkflw.Store.CallLinks
import Wrkflw.Library.Batches

/-!
# Links that cannot be delivered

A link whose delivery fails stays claimable and keeps its place in the order of the claim query. Each drain claims the same
number from the front, so a link comes up exactly where fewer failing links stand before it than a batch holds.

* `drainCallLinks_spec` : what one drain leaves to claim is what a round of `Library.leave` leaves;
* `drainAll_spec` : the same over any number of drains, and what became of the rows;
* `finallyNotified_iff_not_blocked` : finitely many drains notify every link that can be delivered exactly where none of
  them is blocked;
* `links_notified_iff` : in terms of the rows, where no such link has a batch of failing links before it.
-/

namespace Wrkflw

open Library

variable {row : CallLinkRow}

variable {c : Collation} {deliver : CallLink → LinkDelivery} {batch : Nat} {now : Time} {rows : List CallLinkRow}

abbrev CallLinkRow.id (row : CallLinkRow) : String := row.link.childInstanceID

/-- The delivery of the row's link goes through. -/
def CallLinkRow.settles (deliver : CallLink → LinkDelivery) (row : CallLinkRow) : Bool := (deliver row.link).settles

/-- What the claim query finds, without its limit. -/
def pendingRows (c : Collation) (rows : List CallLinkRow) : List CallLinkRow := orderByChild c (rows.filter (·.claimable))

/-- The ids a drain marks. -/
def settledIDs (c : Collation) (deliver : CallLink → LinkDelivery) (batch : Nat) (rows : List CallLinkRow) : List String :=
  (((pendingRows c rows).take batch).filter (·.settles deliver)).map (·.id)

def CallLinkRow.mark (now : Time) (row : CallLinkRow) : CallLinkRow :=
  { row with status := .notified, notifiedAt := some now }

/-! ## One drain -/

theorem CallLinkRow.scan_ok {output : Option Vars} (h : row.readOutput = .ok output) :
    ∃ p : PendingNotify, row.scan = .ok p ∧ p.link = row.link := by
  unfold CallLinkRow.scan
  rw [h]
  exact ⟨_, rfl, rfl⟩

theorem scanRows_ok : ∀ {rows : List CallLinkRow}, (∀ row ∈ rows, ∃ output, row.readOutput = .ok output) →
    ∃ pending, rows.mapM CallLinkRow.scan = .ok pending ∧ pending.map (·.link) = rows.map (·.link) := by
  intro rows
  induction rows with
  | nil =>
    intro _
    exact ⟨[], rfl, rfl⟩
  | cons row rows ih =>
    intro h
    obtain ⟨output, hout⟩ := h row List.mem_cons_self
    obtain ⟨p, hp, hlink⟩ := CallLinkRow.scan_ok hout
    obtain ⟨pending, hpending, hlinks⟩ := ih (fun r hr => h r (List.mem_cons_of_mem _ hr))
    refine ⟨p :: pending, ?_, by rw [List.map_cons, List.map_cons, hlink, hlinks]⟩
    rw [List.mapM_cons, hp, hpending]
    rfl

theorem drainLinks_eq (now : Time) : ∀ (pending : List PendingNotify) (k : Nat) (rows : List CallLinkRow),
    (drainLinks deliver now pending k rows).2 = rows.map (fun row =>
      if row.id ∈ ((pending.map (·.link)).filter (fun l => (deliver l).settles)).map (·.childInstanceID) then row.mark now
      else row) := by
  intro pending
  induction pending with
  | nil =>
    intro k rows
    simp [drainLinks]
  | cons p pending ih =>
    intro k rows
    rw [drainLinks, List.map_cons]
    split
    · next hd => rw [ih, List.filter_cons_of_neg (by rw [hd]; decide)]
    · next hd => rw [ih, List.filter_cons_of_neg (by rw [hd]; exact Bool.false_ne_true)]
    all_goals
      next hd =>
        rw [ih, List.filter_cons_of_pos (by rw [hd]; rfl), List.map_cons, markNotifiedRow, List.map_map]
        refine List.map_congr_left (fun row _ => ?_)
        simp only [Function.comp_apply, List.mem_cons]
        by_cases heq : row.id = p.link.childInstanceID
        · rw [if_pos heq]
          refine Eq.trans ?_ (if_pos (Or.inl heq)).symm
          split <;> rfl
        · rw [if_neg heq]
          simp only [heq, false_or]

theorem mem_pendingRows : row ∈ pendingRows c rows ↔ row ∈ rows ∧ row.claimable = true := by
  unfold pendingRows orderByChild
  rw [List.mem_mergeSort, List.mem_filter]

theorem pendingRows_perm (c : Collation) (rows : List CallLinkRow) :
    (pendingRows c rows).Perm (rows.filter (·.claimable)) := List.mergeSort_perm _ _

theorem pendingRows_sorted (c : Collation) (rows : List CallLinkRow) :
    (pendingRows c rows).Pairwise (fun a b => c.le a.id b.id = true) :=
  List.pairwise_mergeSort (fun a b d => c.trans a.id b.id d.id) (fun a b => c.total a.id b.id) _

theorem pendingRows_nodup (t : CallLinkTable) : ((pendingRows c t.rows).map (·.id)).Nodup := by
  have hfilter : ((t.rows.filter (·.claimable)).map (·.id)).Nodup := t.key.sublist (List.filter_sublist.map _)
  exact ((pendingRows_perm c t.rows).map _).nodup_iff.mpr hfilter

/-- Two rows of the table under one key are one row. -/
theorem CallLinkTable.row_ext (t : CallLinkTable) {a b : CallLinkRow} (ha : a ∈ t.rows) (hb : b ∈ t.rows) (h : a.id = b.id) :
    a = b := List.inj_on_of_nodup_map t.key ha hb h

/-- The query over fewer rows finds the rest in the same order. -/
theorem pendingRows_filter (t : CallLinkTable) (q : CallLinkRow → Bool) :
    pendingRows c (t.rows.filter q) = (pendingRows c t.rows).filter q := by
  have hperm : (pendingRows c (t.rows.filter q)).Perm ((pendingRows c t.rows).filter q) := by
    refine (pendingRows_perm c _).trans (List.Perm.symm ?_)
    rw [List.filter_filter]
    refine ((pendingRows_perm c t.rows).filter q).trans ?_
    rw [List.filter_filter]
    simp only [Bool.and_comm]
    exact List.Perm.refl _
  refine List.Perm.eq_of_pairwise ?_ (pendingRows_sorted c _) ((pendingRows_sorted c t.rows).filter q) hperm
  intro a b ha hb hab hba
  have ha' := (mem_pendingRows.mp ha).1
  have hb' := (mem_pendingRows.mp (List.mem_of_mem_filter hb)).1
  exact t.row_ext (List.mem_of_mem_filter ha') hb' (c.antisymm _ _ hab hba)

/-- The rows of the batch that can be delivered are those that leave. -/
theorem filter_settledIDs (t : CallLinkTable) :
    (pendingRows c t.rows).filter (fun row => !decide (row.id ∈ settledIDs c deliver batch t.rows)) =
      leave (·.settles deliver) batch (pendingRows c t.rows) := by
  have hnodup := pendingRows_nodup (c := c) t
  have hsettled : settledIDs c deliver batch t.rows =
      (((pendingRows c t.rows).take batch).filter (·.settles deliver)).map (·.id) := rfl
  generalize pendingRows c t.rows = l at hnodup hsettled ⊢
  have hsplit : l = l.take batch ++ l.drop batch := (List.take_append_drop batch l).symm
  have hdisj : ∀ a ∈ l.take batch, ∀ x ∈ l.drop batch, a.id ≠ x.id := by
    rw [hsplit, List.map_append] at hnodup
    intro a ha x hx heq
    exact (List.nodup_append.mp hnodup).2.2 _ (List.mem_map_of_mem ha) _ (List.mem_map_of_mem hx) heq
  have hinj : ∀ a ∈ l, ∀ x ∈ l, a.id = x.id → a = x := fun a ha x hx h => List.inj_on_of_nodup_map hnodup ha hx h
  unfold leave
  conv_lhs => rw [hsplit, List.filter_append]
  congr 1
  · refine List.filter_congr (fun row hrow => ?_)
    rw [hsettled]
    congr 1
    rw [Bool.eq_iff_iff, decide_eq_true_iff, List.mem_map]
    constructor
    · rintro ⟨a, ha, heq⟩
      obtain ⟨hmem, hgood⟩ := List.mem_filter.mp ha
      rwa [← hinj a (List.mem_of_mem_take hmem) row (List.mem_of_mem_take hrow) heq]
    · intro hgood
      exact ⟨row, List.mem_filter.mpr ⟨hrow, hgood⟩, rfl⟩
  · refine List.filter_eq_self.mpr (fun row hrow => ?_)
    rw [hsettled, Bool.not_eq_true', decide_eq_false_iff_not, List.mem_map]
    rintro ⟨a, ha, heq⟩
    exact hdisj a (List.mem_filter.mp ha).1 row hrow heq

/-- The table with the rows of some ids marked. -/
def CallLinkTable.mark (t : CallLinkTable) (ids : List String) (now : Time) : CallLinkTable where
  rows := t.rows.map (fun row => if row.id ∈ ids then row.mark now else row)
  key := by
    rw [List.map_map]
    refine (List.map_congr_left (fun row _ => ?_)).symm ▸ t.key
    simp only [Function.comp_apply]
    split <;> rfl
  readable row' h := by
    obtain ⟨row, hrow, rfl⟩ := List.mem_map.mp h
    split
    · exact t.readable row hrow
    · exact t.readable row hrow

theorem pendingRows_mark (t : CallLinkTable) (ids : List String) (now : Time) :
    pendingRows c (t.mark ids now).rows = (pendingRows c t.rows).filter (fun row => !decide (row.id ∈ ids)) := by
  rw [← pendingRows_filter]
  unfold pendingRows
  congr 1
  have hrows : (t.mark ids now).rows = t.rows.map (fun row => if row.id ∈ ids then row.mark now else row) := rfl
  rw [hrows]
  induction t.rows with
  | nil => rfl
  | cons row rows ih =>
    rw [List.map_cons]
    by_cases h : row.id ∈ ids
    · -- a marked row is claimed no more
      have hout : (row :: rows).filter (fun r : CallLinkRow => !decide (r.id ∈ ids)) =
          rows.filter (fun r : CallLinkRow => !decide (r.id ∈ ids)) := List.filter_cons_of_neg (by simpa using h)
      rw [if_pos h, hout, List.filter_cons_of_neg (by exact Bool.false_ne_true), ih]
    · have hin : (row :: rows).filter (fun r : CallLinkRow => !decide (r.id ∈ ids)) =
          row :: rows.filter (fun r : CallLinkRow => !decide (r.id ∈ ids)) := List.filter_cons_of_pos (by simpa using h)
      rw [if_neg h, hin, List.filter_cons, List.filter_cons, ih]

theorem drainCallLinks_spec (c : Collation) (deliver : CallLink → LinkDelivery) (t : CallLinkTable) (hbatch : 0 < batch)
    (now : Time) :
    (∃ k, drainCallLinks c deliver batch now t.rows = .ok (k, (t.mark (settledIDs c deliver batch t.rows) now).rows)) ∧
      pendingRows c (t.mark (settledIDs c deliver batch t.rows) now).rows =
        leave (·.settles deliver) batch (pendingRows c t.rows) := by
  refine ⟨?_, by rw [pendingRows_mark, filter_settledIDs]⟩
  have hclaim : limited batch (orderByChild c (t.rows.filter (·.claimable))) = (pendingRows c t.rows).take batch := by
    unfold limited
    rw [if_pos (by omega), Int.toNat_natCast]
    rfl
  have hread : ∀ row ∈ (pendingRows c t.rows).take batch, ∃ output, row.readOutput = .ok output :=
    fun row hrow => t.readable row (mem_pendingRows.mp (List.mem_of_mem_take hrow)).1
  obtain ⟨pending, hscan, hlinks⟩ := scanRows_ok hread
  refine ⟨(drainLinks deliver now pending 0 t.rows).1, ?_⟩
  unfold drainCallLinks claimPendingPlain
  rw [hclaim, hscan]
  refine congrArg Except.ok (Prod.ext rfl ?_)
  rw [drainLinks_eq, hlinks]
  have hids : (((((pendingRows c t.rows).take batch).map (·.link)).filter (fun l => (deliver l).settles)).map
      (·.childInstanceID)) = settledIDs c deliver batch t.rows := by
    unfold settledIDs
    rw [List.filter_map, List.map_map]
    rfl
  rw [hids]
  rfl

/-! ## Any number of drains -/

/-- A row is as it was, or was marked. -/
def CallLinkRow.Marked (row row' : CallLinkRow) : Prop :=
  row' = row ∨ ∃ now, row' = row.mark now

theorem CallLinkRow.Marked.link {row' : CallLinkRow} (h : row.Marked row') : row'.link = row.link := by
  rcases h with rfl | ⟨now, rfl⟩ <;> rfl

theorem CallLinkRow.Marked.trans {a b d : CallLinkRow} (h : a.Marked b) (h' : b.Marked d) : a.Marked d := by
  rcases h' with rfl | ⟨now, rfl⟩
  · exact h
  · rcases h with rfl | ⟨_, rfl⟩ <;> exact .inr ⟨now, rfl⟩

theorem drainAll_spec (c : Collation) (deliver : CallLink → LinkDelivery) (hbatch : 0 < batch) :
    ∀ (times : List Time) (t : CallLinkTable), ∃ t' : CallLinkTable,
    drainAll c deliver batch times t.rows = .ok t'.rows ∧
      pendingRows c t'.rows = (leave (·.settles deliver) batch)^[times.length] (pendingRows c t.rows) ∧
      ∃ g : CallLinkRow → CallLinkRow, t'.rows = t.rows.map g ∧ ∀ row : CallLinkRow, row.Marked (g row) := by
  intro times
  induction times with
  | nil =>
    intro t
    exact ⟨t, rfl, rfl, id, (List.map_id _).symm, fun row => .inl rfl⟩
  | cons now times ih =>
    intro t
    obtain ⟨⟨k, hdrain⟩, hleave⟩ := drainCallLinks_spec c deliver t hbatch now
    obtain ⟨t', hall, hpending, g, hrows, hg⟩ := ih (t.mark (settledIDs c deliver batch t.rows) now)
    refine ⟨t', by rw [drainAll, hdrain]; exact hall, ?_,
      fun row => g (if row.id ∈ settledIDs c deliver batch t.rows then row.mark now else row), ?_, fun row => ?_⟩
    · rw [hpending, hleave, List.length_cons, Function.iterate_succ_apply]
    · rw [hrows]
      exact List.map_map
    · refine CallLinkRow.Marked.trans ?_ (hg _)
      split
      · exact .inr ⟨now, rfl⟩
      · exact .inl rfl

/-! ## Which links are notified -/

/-- The failing links the query finds before a row. -/
def failingBefore (c : Collation) (deliver : CallLink → LinkDelivery) (rows : List CallLinkRow) (row : CallLinkRow) :
    List CallLinkRow :=
  rows.filter (fun r => r.claimable && !r.settles deliver && c.le r.id row.id)

theorem failingBefore_length (t : CallLinkTable) {pre post : List CallLinkRow}
    (h : pendingRows c t.rows = pre ++ row :: post) (hgood : row.settles deliver = true) :
    (failingBefore c deliver t.rows row).length = failing (·.settles deliver) pre := by
  have hsorted := pendingRows_sorted c t.rows
  have hnodup := pendingRows_nodup (c := c) t
  have hperm := pendingRows_perm c t.rows
  rw [h] at hsorted hnodup hperm
  have hcount : (failingBefore c deliver t.rows row).length =
      ((pre ++ row :: post).filter (fun r => !r.settles deliver && c.le r.id row.id)).length := by
    rw [(hperm.filter _).length_eq, List.filter_filter]
    unfold failingBefore
    congr 2
    funext r
    rw [Bool.and_comm _ r.claimable, Bool.and_assoc]
  obtain ⟨_, hrest, hcross⟩ := List.pairwise_append.mp hsorted
  rw [List.map_append, List.map_cons] at hnodup
  have hpost : ∀ r ∈ post, c.le r.id row.id = false := by
    intro r hr
    by_contra hle
    have heq := c.antisymm _ _ (List.rel_of_pairwise_cons hrest hr) (Bool.not_eq_false _ |>.mp hle)
    have := (List.nodup_cons.mp (List.nodup_append.mp hnodup).2.1).1
    exact this (heq ▸ List.mem_map_of_mem hr)
  have hnone : post.filter (fun r => !r.settles deliver && c.le r.id row.id) = [] :=
    List.filter_eq_nil_iff.mpr (fun r hr => by rw [hpost r hr, Bool.and_false]; exact Bool.false_ne_true)
  rw [hcount, List.filter_append, List.filter_cons_of_neg (by rw [hgood]; exact Bool.false_ne_true), hnone, List.append_nil]
  unfold failing
  congr 1
  refine List.filter_congr (fun r hr => ?_)
  rw [hcross r hr row List.mem_cons_self, Bool.and_true]

theorem blocked_pendingRows_iff (t : CallLinkTable) :
    Blocked (·.settles deliver) batch (pendingRows c t.rows) ↔
      ∃ row ∈ t.rows, row.claimable = true ∧ row.settles deliver = true ∧
        batch ≤ (failingBefore c deliver t.rows row).length := by
  constructor
  · rintro ⟨pre, row, post, heq, hgood, hle⟩
    have hmem : row ∈ pendingRows c t.rows := heq ▸ List.mem_append_right _ List.mem_cons_self
    obtain ⟨hrow, hclaim⟩ := mem_pendingRows.mp hmem
    exact ⟨row, hrow, hclaim, hgood, by rwa [failingBefore_length t heq hgood]⟩
  · rintro ⟨row, hrow, hclaim, hgood, hle⟩
    obtain ⟨pre, post, heq⟩ := List.append_of_mem (mem_pendingRows.mpr ⟨hrow, hclaim⟩)
    exact ⟨pre, row, post, heq, hgood, by rwa [failingBefore_length t heq hgood] at hle⟩

/-- Every link of the table that can be delivered is notified. -/
def AllNotified (deliver : CallLink → LinkDelivery) (rows rows' : List CallLinkRow) : Prop :=
  ∀ row ∈ rows, row.claimable = true → row.settles deliver = true →
    ∃ row' ∈ rows', row'.link = row.link ∧ row'.status = .notified ∧ row'.notifiedAt.isSome = true

theorem allNotified_iff {t t' : CallLinkTable} {g : CallLinkRow → CallLinkRow} (hrows : t'.rows = t.rows.map g)
    (hg : ∀ row : CallLinkRow, row.Marked (g row)) :
    AllNotified deliver t.rows t'.rows ↔ ∀ x ∈ pendingRows c t'.rows, x.settles deliver = false := by
  constructor
  · intro h x hx
    obtain ⟨hmem, hclaim⟩ := mem_pendingRows.mp hx
    rw [hrows] at hmem
    obtain ⟨row, hrow, rfl⟩ := List.mem_map.mp hmem
    have hsame : g row = row := by
      rcases hg row with heq | ⟨now, heq⟩
      · exact heq
      · rw [heq] at hclaim
        cases hclaim
    by_contra hgood
    rw [hsame] at hclaim hgood
    obtain ⟨row', hrow', hlink, hstatus, _⟩ := h row hrow hclaim (Bool.not_eq_false _ |>.mp hgood)
    have heq : row' = g row := t'.row_ext hrow' (hrows ▸ hmem) (by rw [CallLinkRow.id, hlink, hsame])
    rw [heq, hsame] at hstatus
    unfold CallLinkRow.claimable at hclaim
    rw [hstatus] at hclaim
    cases hclaim
  · intro h row hrow hclaim hgood
    refine ⟨g row, hrows ▸ List.mem_map_of_mem hrow, (hg row).link, ?_⟩
    rcases hg row with heq | ⟨now, heq⟩
    · have hx : g row ∈ pendingRows c t'.rows :=
        mem_pendingRows.mpr ⟨hrows ▸ List.mem_map_of_mem hrow, by rwa [heq]⟩
      have := h _ hx
      rw [heq, hgood] at this
      cases this
    · rw [heq]
      exact ⟨rfl, rfl⟩

/-- Finitely many drains notify every link that can be delivered. -/
def FinallyNotified (c : Collation) (deliver : CallLink → LinkDelivery) (batch : Nat) (t : CallLinkTable) : Prop :=
  ∃ n, ∀ times : List Time, times.length = n →
    ∃ rows', drainAll c deliver batch times t.rows = .ok rows' ∧ AllNotified deliver t.rows rows'

theorem finallyNotified_iff_not_blocked (hbatch : 0 < batch) (t : CallLinkTable) :
    FinallyNotified c deliver batch t ↔ ¬ Blocked (·.settles deliver) batch (pendingRows c t.rows) := by
  rw [← cleared_iff]
  constructor
  · rintro ⟨n, h⟩
    obtain ⟨t', hall, hpending, g, hrows, hg⟩ := drainAll_spec c deliver hbatch (List.replicate n 0) t
    obtain ⟨rows', hok, hnotified⟩ := h (List.replicate n 0) List.length_replicate
    rw [hall] at hok
    cases hok
    rw [List.length_replicate] at hpending
    exact ⟨n, hpending ▸ (allNotified_iff hrows hg).mp hnotified⟩
  · rintro ⟨n, h⟩
    refine ⟨n, fun times hlen => ?_⟩
    obtain ⟨t', hall, hpending, g, hrows, hg⟩ := drainAll_spec c deliver hbatch times t
    rw [hlen] at hpending
    exact ⟨t'.rows, hall, (allNotified_iff hrows hg).mpr (hpending ▸ h)⟩

/-- Every link that can be delivered is notified after some number of drains exactly where each of them has fewer failing
links before it than a batch holds. -/
theorem links_notified_iff (c : Collation) (deliver : CallLink → LinkDelivery) (batch : Nat) (hbatch : 0 < batch)
    (t : CallLinkTable) :
    FinallyNotified c deliver batch t ↔
      ∀ row ∈ t.rows, row.claimable = true → row.settles deliver = true →
        (failingBefore c deliver t.rows row).length < batch := by
  rw [finallyNotified_iff_not_blocked hbatch, blocked_pendingRows_iff]
  constructor
  · intro h row hrow hclaim hgood
    by_contra hlt
    exact h ⟨row, hrow, hclaim, hgood, Nat.le_of_not_lt hlt⟩
  · rintro h ⟨row, hrow, hclaim, hgood, hle⟩
    exact absurd (h row hrow hclaim hgood) (Nat.not_lt.mpr hle)

/-- The ended child of a parent, by its id. -/
def endedLink (child defID : String) : CallLinkRow where
  link := ⟨child, "p", "c1", defID, 1, 0⟩
  status := .completed
  createdAt := 0

/-- Two ended children; the parent's definition of one of them is not registered. -/
def twoLinks (first second : String) : CallLinkTable where
  rows := [endedLink "a" first, endedLink "b" second]
  key := by simp [endedLink]
  readable := by
    intro row h
    rcases List.mem_cons.mp h with rfl | h
    · exact ⟨none, rfl⟩
    · rw [List.mem_singleton.mp h]
      exact ⟨none, rfl⟩

def lookupOnly (defID : String) (l : CallLink) : LinkDelivery := if l.parentDefID = defID then .delivered else .lookupFails

/-- The failing link is the later one. -/
theorem earlier_link_notified : FinallyNotified .binary (lookupOnly "d") 1 (twoLinks "d" "x") :=
  (links_notified_iff .binary (lookupOnly "d") 1 (by decide) (twoLinks "d" "x")).mpr (by
    intro row h
    rcases List.mem_cons.mp h with rfl | h
    · intro _ _
      decide
    · rw [List.mem_singleton.mp h]
      intro _ hgood
      cases hgood)

/-- The failing link is the earlier one, and each batch of one is spent on it. -/
theorem later_link_starved : ¬ FinallyNotified .binary (lookupOnly "d") 1 (twoLinks "x" "d") := by
  rw [finallyNotified_iff_not_blocked (by decide), not_not, blocked_pendingRows_iff]
  exact ⟨endedLink "b" "d", List.mem_cons_of_mem _ List.mem_cons_self, rfl, by decide, by decide⟩

end Wrkflw
