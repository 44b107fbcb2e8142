import Wrkflw.Library.Pool
import Wrkflw.Property.Outbox
import Wrkflw.Store.Relays

/-!
# What relays beside each other do to the outbox

`OutboxTable.Sound` ties the table to the drains that are open: each row is held by one drain at most, a held row is pending
and as it was claimed, and what went out is accounted for.

* `relays_account` : a written row is in the table as it was written or was pruned, and its event went out once if the row is
  published, besides the times a drain failed behind it;
* `dead_letters_exact` : a row counts its refusals, and is dead when these have come to the limit.
-/

namespace Wrkflw

open Library

variable {c : ClaimRow} {outcome : Option String} {rows : List OutboxRow}

/-! ## The marks of a drain -/

section Marks
variable {r : Relay} {now : Time} {d : RelayDrain} {row : OutboxRow}

theorem Relay.mark_id (c : ClaimRow) (outcome : Option String) (row : OutboxRow) :
    (r.mark now c outcome row).id = row.id := by
  unfold Relay.mark
  split
  · rfl
  · cases outcome <;> rfl

theorem Relay.mark_content (c : ClaimRow) (outcome : Option String) (row : OutboxRow) :
    (r.mark now c outcome row).content = row.content := by
  unfold Relay.mark
  split
  · rfl
  · cases outcome <;> rfl

theorem Relay.mark_other (h : row.id ≠ c.id) : r.mark now c outcome row = row :=
  if_pos h

theorem Relay.foldl_mark_id (marks : List (ClaimRow × Option String)) (row : OutboxRow) :
    (marks.foldl (fun row m => r.mark now m.1 m.2 row) row).id = row.id := by
  induction marks generalizing row with
  | nil => rfl
  | cons m marks ih => exact (ih _).trans (mark_id _ _ _)

theorem Relay.foldl_mark_other {marks : List (ClaimRow × Option String)} (h : row.id ∉ marks.map (·.1.id)) :
    marks.foldl (fun row m => r.mark now m.1 m.2 row) row = row := by
  induction marks with
  | nil => rfl
  | cons m marks ih =>
    rw [List.map_cons, List.mem_cons, not_or] at h
    rw [List.foldl_cons, mark_other h.1]
    exact ih h.2

theorem Relay.foldl_mark_own {marks : List (ClaimRow × Option String)} (hnd : (marks.map (·.1.id)).Nodup)
    (hm : (c, outcome) ∈ marks) (h : row.id = c.id) :
    marks.foldl (fun row m => r.mark now m.1 m.2 row) row = r.mark now c outcome row := by
  induction marks with
  | nil => cases hm
  | cons m marks ih =>
    rw [List.map_cons, List.nodup_cons] at hnd
    rw [List.foldl_cons]
    rcases List.mem_cons.mp hm with rfl | hm
    · refine foldl_mark_other ?_
      rw [mark_id, h]
      exact hnd.1
    · have hne : row.id ≠ m.1.id := by
        intro heq
        exact hnd.1 (List.mem_map.mpr ⟨(c, outcome), hm, h.symm.trans heq⟩)
      rw [mark_other hne]
      exact ih hnd.2 hm

namespace RelayDrain

theorem marked_id (d : RelayDrain) (row : OutboxRow) : (d.marked row).id = row.id := Relay.foldl_mark_id _ _

theorem marked_content (d : RelayDrain) (row : OutboxRow) : (d.marked row).content = row.content := by
  unfold marked
  induction d.marks generalizing row with
  | nil => rfl
  | cons m marks ih => exact (ih _).trans (Relay.mark_content _ _ _)

theorem mem_sent {id : Nat} : id ∈ d.sent ↔ ∃ c, (c, none) ∈ d.marks ∧ c.id = id := by
  unfold sent
  rw [List.mem_map]
  constructor
  · rintro ⟨⟨c, outcome⟩, hm, rfl⟩
    obtain ⟨hm, hnone⟩ := List.mem_filter.mp hm
    obtain rfl : outcome = none := Option.isNone_iff_eq_none.mp hnone
    exact ⟨c, hm, rfl⟩
  · rintro ⟨c, hm, rfl⟩
    exact ⟨(c, none), List.mem_filter.mpr ⟨hm, rfl⟩, rfl⟩

theorem sent_sublist (d : RelayDrain) : d.sent.Sublist d.held :=
  (List.filter_sublist.map _).trans (List.sublist_append_left _ _)

theorem mem_failed {id : Nat} : id ∈ d.failed ↔ ∃ c err, (c, some err) ∈ d.marks ∧ c.id = id := by
  unfold failed
  rw [List.mem_map]
  constructor
  · rintro ⟨⟨c, outcome⟩, hm, rfl⟩
    obtain ⟨hm, hsome⟩ := List.mem_filter.mp hm
    obtain ⟨err, rfl⟩ := Option.isSome_iff_exists.mp hsome
    exact ⟨c, err, hm, rfl⟩
  · rintro ⟨c, err, hm, rfl⟩
    exact ⟨(c, some err), List.mem_filter.mpr ⟨hm, rfl⟩, rfl⟩

theorem failed_sublist (d : RelayDrain) : d.failed.Sublist d.held :=
  (List.filter_sublist.map _).trans (List.sublist_append_left _ _)

theorem marks_nodup (h : d.held.Nodup) : (d.marks.map (·.1.id)).Nodup := (List.nodup_append.mp h).1

/-- A row has one outcome. -/
theorem outcome_unique (h : d.held.Nodup) {c' : ClaimRow} {o o' : Option String} (hm : (c, o) ∈ d.marks)
    (hm' : (c', o') ∈ d.marks) (hid : c.id = c'.id) : o = o' :=
  congrArg Prod.snd (List.inj_on_of_nodup_map (marks_nodup h) hm hm' hid)

end RelayDrain
end Marks

/-! ## Claims -/

theorem scanClaimRow_fields {row : OutboxRow} (h : scanClaimRow row = .ok c) :
    c.id = row.id ∧ c.retryCount = row.retryCount := by
  unfold scanClaimRow at h
  split at h
  · cases h
  · split at h
    · cases h
    · rw [← Except.ok.inj h]
      exact ⟨rfl, rfl⟩

theorem scanClaimRows_rows {claims : List ClaimRow} (h : scanClaimRows rows = .ok claims) :
    claims.map (fun c => (c.id, c.retryCount)) = rows.map (fun row => (row.id, row.retryCount)) := by
  induction rows generalizing claims with
  | nil =>
    cases h
    rfl
  | cons row rows ih =>
    unfold scanClaimRows at h
    split at h
    · cases h
    · rename_i c hc
      split at h
      · cases h
      · rename_i cs hcs
        cases h
        rw [List.map_cons, List.map_cons, (scanClaimRow_fields hc).1, (scanClaimRow_fields hc).2, ih hcs]

theorem scanClaimRows_ids {claims : List ClaimRow} (h : scanClaimRows rows = .ok claims) :
    claims.map (·.id) = rows.map (·.id) := by
  have hfst := congrArg (List.map Prod.fst) (scanClaimRows_rows h)
  rwa [List.map_map, List.map_map] at hfst

theorem scanClaimRows_mem {claims : List ClaimRow} (h : scanClaimRows rows = .ok claims)
    (hc : c ∈ claims) : ∃ row ∈ rows, row.id = c.id ∧ row.retryCount = c.retryCount := by
  have hmem : (c.id, c.retryCount) ∈ claims.map (fun c => (c.id, c.retryCount)) := List.mem_map_of_mem hc
  rw [scanClaimRows_rows h] at hmem
  obtain ⟨row, hrow, heq⟩ := List.mem_map.mp hmem
  exact ⟨row, hrow, congrArg Prod.fst heq, congrArg Prod.snd heq⟩

/-! ## The table and its drains -/

/-- The claim holds its row as it is in the table. -/
def ClaimRow.Holds (rows : List OutboxRow) (c : ClaimRow) : Prop :=
  ∃ row ∈ rows, row.id = c.id ∧ row.status = .pending ∧ row.retryCount = c.retryCount

def RelayDrain.claims (d : RelayDrain) : List ClaimRow := d.marks.map (·.1) ++ d.todo

theorem RelayDrain.claims_id (d : RelayDrain) : d.claims.map (·.id) = d.held := by
  unfold RelayDrain.claims RelayDrain.held
  rw [List.map_append, List.map_map]
  rfl

namespace OutboxTable

structure Sound (x : OutboxTable) : Prop where
  ids : (x.rows.map (·.id)).Nodup
  below : ∀ row ∈ x.rows, row.id < x.nextID
  /-- No row is held by two drains, or twice by one. -/
  held : (x.drains.flatMap RelayDrain.held).Nodup
  holds : ∀ d ∈ x.drains, ∀ c ∈ d.claims, c.Holds x.rows
  gone : ∀ id ∈ x.pruned, id < x.nextID ∧ id ∉ x.rows.map (·.id)
  once : x.pruned.Nodup
  kept : ∀ w ∈ x.written, (∃ row ∈ x.rows, row.id = w.id ∧ row.content = w.content) ∨ w.id ∈ x.pruned
  sent : x.sent.Perm (x.published ++ x.pruned ++ (x.undone ++ x.drains.flatMap RelayDrain.sent))
  refusals : ∀ row ∈ x.rows, row.retryCount = x.failed.count row.id
  refused : ∀ id ∈ x.failed, id < x.nextID

variable {x : OutboxTable}

theorem mem_published {id : Nat} : id ∈ x.published ↔ ∃ row ∈ x.rows, row.status = .published ∧ row.id = id := by
  unfold published
  simp only [List.mem_map, List.mem_filter, beq_iff_eq]
  constructor
  · rintro ⟨row, ⟨hrow, hst⟩, rfl⟩
    exact ⟨row, hrow, hst, rfl⟩
  · rintro ⟨row, hrow, hst, rfl⟩
    exact ⟨row, ⟨hrow, hst⟩, rfl⟩

theorem sound_empty : Sound {} where
  ids := List.nodup_nil
  below := by simp
  held := List.nodup_nil
  holds := by simp
  gone := by simp
  once := List.nodup_nil
  kept := by simp
  sent := List.Perm.refl _
  refusals := by simp
  refused := by simp

namespace Sound

theorem published_nodup (h : x.Sound) : x.published.Nodup := h.ids.sublist (List.filter_sublist.map _)

theorem row_unique (h : x.Sound) {row row' : OutboxRow} (hr : row ∈ x.rows) (hr' : row' ∈ x.rows) (hid : row.id = row'.id) :
    row = row' := List.inj_on_of_nodup_map h.ids hr hr' hid

theorem drain_held (h : x.Sound) {d : RelayDrain} (hd : d ∈ x.drains) : d.held.Nodup :=
  (List.nodup_flatMap.mp h.held).1 d hd

/-- A row is written. -/
theorem write (h : x.Sound) (instanceID : String) (seq : Int) (i : Nat) (ev : OutboxEvent) (createdAt : Time) :
    Sound { x with
      nextID := x.nextID + 1
      rows := x.rows ++ [outboxRow x.nextID instanceID seq i ev createdAt]
      written := x.written ++ [outboxRow x.nextID instanceID seq i ev createdAt] } where
  ids := by
    rw [List.map_append, List.nodup_append]
    refine ⟨h.ids, List.nodup_singleton _, ?_⟩
    intro id hid id' hid' heq
    obtain ⟨row, hrow, rfl⟩ := List.mem_map.mp hid
    have hlt := h.below row hrow
    rw [heq, List.mem_singleton.mp hid'] at hlt
    exact Nat.lt_irrefl _ hlt
  below := forall_mem_concat (fun row hrow => Nat.lt_succ_of_lt (h.below row hrow)) (Nat.lt_succ_self _)
  held := h.held
  holds := by
    intro d hd c hc
    obtain ⟨row, hrow, hrest⟩ := h.holds d hd c hc
    exact ⟨row, List.mem_append_left _ hrow, hrest⟩
  gone := by
    intro id hid
    obtain ⟨hlt, hnot⟩ := h.gone id hid
    refine ⟨Nat.lt_succ_of_lt hlt, ?_⟩
    rw [List.map_append, List.mem_append, not_or]
    refine ⟨hnot, ?_⟩
    intro heq
    rw [List.mem_singleton.mp heq] at hlt
    exact Nat.lt_irrefl _ hlt
  once := h.once
  kept := by
    intro w hw
    rcases List.mem_append.mp hw with hw | hw
    · rcases h.kept w hw with ⟨row, hrow, hrest⟩ | hgone
      · exact .inl ⟨row, List.mem_append_left _ hrow, hrest⟩
      · exact .inr hgone
    · exact .inl ⟨w, List.mem_append_right _ hw, rfl, rfl⟩
  sent := by
    have hpub : published { x with
        nextID := x.nextID + 1
        rows := x.rows ++ [outboxRow x.nextID instanceID seq i ev createdAt]
        written := x.written ++ [outboxRow x.nextID instanceID seq i ev createdAt] } = x.published := by
      simp [published, outboxRow]
    rw [hpub]
    exact h.sent
  refusals := by
    refine forall_mem_concat h.refusals (List.count_eq_zero.mpr ?_).symm
    intro hmem
    exact Nat.lt_irrefl _ (h.refused _ hmem)
  refused := fun id hid => Nat.lt_succ_of_lt (h.refused id hid)

theorem mem_claimable {r : Relay} {now : Time} {row : OutboxRow} (h : row ∈ x.claimable r now) :
    row ∈ x.rows ∧ row.status = .pending ∧ x.locked row.id = false := by
  obtain ⟨hrow, hdue⟩ := List.mem_filter.mp (List.mem_of_mem_take h)
  unfold OutboxRow.due at hdue
  simp only [Bool.and_eq_true, beq_iff_eq, Bool.not_eq_true'] at hdue
  exact ⟨hrow, hdue.1.1, hdue.2⟩

/-- What a drain claims is locked by no other. -/
theorem claim (h : x.Sound) (r : Relay) (now : Time) : (x.claim r now).Sound := by
  unfold OutboxTable.claim
  split
  · exact h
  · rename_i claims hclaims
    have hids := scanClaimRows_ids hclaims
    have hfresh : RelayDrain.held { relay := r, now := now, todo := claims } = (x.claimable r now).map (·.id) := hids
    have hsub : ((x.claimable r now).map (·.id)).Sublist (x.rows.map (·.id)) :=
      ((List.take_sublist _ _).trans List.filter_sublist).map _
    refine { h with held := ?_, holds := ?_, sent := ?_ }
    · rw [List.flatMap_append, List.flatMap_singleton, hfresh, List.nodup_append]
      refine ⟨h.held, h.ids.sublist hsub, ?_⟩
      rintro id hheld _ hnew rfl
      obtain ⟨row, hrow, rfl⟩ := List.mem_map.mp hnew
      obtain ⟨d, hd, hid⟩ := List.mem_flatMap.mp hheld
      have hfree := (mem_claimable hrow).2.2
      rw [locked, List.any_eq_false] at hfree
      exact hfree d hd (List.contains_iff_mem.mpr hid)
    · refine forall_mem_concat h.holds (fun c hc => ?_)
      obtain ⟨row, hrow, hid, hretry⟩ := scanClaimRows_mem hclaims (c := c) hc
      obtain ⟨hmem, hpending, -⟩ := mem_claimable hrow
      exact ⟨row, hmem, hid, hpending, hretry⟩
    · rw [List.flatMap_append, List.flatMap_singleton]
      change x.sent.Perm (x.published ++ x.pruned ++ (x.undone ++ (x.drains.flatMap RelayDrain.sent ++ [])))
      rw [List.append_nil]
      exact h.sent

/-- A claim goes out or is refused. -/
theorem publish (h : x.Sound) {i : Nat} {d : RelayDrain} (hd : x.drains[i]? = some d)
    {y : OutboxTable} (hy : x.publish i d outcome = some y) : y.Sound := by
  unfold OutboxTable.publish at hy
  split at hy
  · cases hy
  · rename_i c todo htodo
    cases hy
    have hclaims : RelayDrain.claims { d with todo := todo, marks := d.marks ++ [(c, outcome)] } = d.claims := by
      unfold RelayDrain.claims
      rw [htodo, List.map_append, List.append_assoc]
      rfl
    have hheld : RelayDrain.held { d with todo := todo, marks := d.marks ++ [(c, outcome)] } = d.held := by
      rw [← RelayDrain.claims_id, hclaims, RelayDrain.claims_id]
    refine { h with held := ?_, holds := ?_, sent := ?_ }
    · refine (perm_flatMap_set hd RelayDrain.held (n := []) ?_).nodup_iff.mpr ?_
      · rw [hheld, List.append_nil]
      · rw [List.append_nil]
        exact h.held
    · refine forall_mem_set (P := fun d : RelayDrain => ∀ c ∈ d.claims, c.Holds x.rows) h.holds ?_
      rw [hclaims]
      exact h.holds d (List.mem_of_getElem? hd)
    · cases outcome with
      | none =>
        have hgrow := perm_flatMap_set hd RelayDrain.sent (b := { d with todo := todo, marks := d.marks ++ [(c, none)] })
          (n := [c.id]) (by simp [RelayDrain.sent])
        have hall := (hgrow.symm.append_left x.undone).append_left (x.published ++ x.pruned)
        rw [← List.append_assoc x.undone, ← List.append_assoc] at hall
        exact (h.sent.append_right [c.id]).trans hall
      | some err =>
        have hsame := perm_flatMap_set hd RelayDrain.sent (b := { d with todo := todo, marks := d.marks ++ [(c, some err)] })
          (n := []) (by simp [RelayDrain.sent])
        rw [List.append_nil] at hsame
        exact h.sent.trans ((hsame.symm.append_left x.undone).append_left _)

/-- A drain that fails leaves the table as it was. -/
theorem rollback (h : x.Sound) {i : Nat} {d : RelayDrain} (hd : x.drains[i]? = some d) :
    Sound { x with drains := x.drains.eraseIdx i, undone := x.undone ++ d.sent } := by
  refine { h with held := ?_, holds := ?_, sent := ?_ }
  · exact (List.nodup_append.mp ((perm_flatMap_eraseIdx hd RelayDrain.held).nodup_iff.mp h.held)).2.1
  · exact forall_mem_eraseIdx h.holds
  · have hall := ((perm_flatMap_eraseIdx hd RelayDrain.sent).append_left x.undone).append_left (x.published ++ x.pruned)
    rw [← List.append_assoc x.undone] at hall
    exact h.sent.trans hall

theorem map_rows_id {f : OutboxRow → OutboxRow} (hid : ∀ row, (f row).id = row.id) (rows : List OutboxRow) :
    (rows.map f).map (·.id) = rows.map (·.id) := by
  rw [List.map_map]
  exact List.map_congr_left (fun row _ => hid row)

/-- A statement that keeps the id and the content of every row keeps what was written. -/
theorem mapRows (h : x.Sound) {f : OutboxRow → OutboxRow} (hid : ∀ row, (f row).id = row.id)
    (hcontent : ∀ row, (f row).content = row.content) {drains : List RelayDrain} {failed : List Nat}
    (hheld : (drains.flatMap RelayDrain.held).Nodup) (hholds : ∀ d ∈ drains, ∀ c ∈ d.claims, c.Holds (x.rows.map f))
    (hsent : x.sent.Perm
      (published { x with rows := x.rows.map f } ++ x.pruned ++ (x.undone ++ drains.flatMap RelayDrain.sent)))
    (hrefusals : ∀ row ∈ x.rows, (f row).retryCount = failed.count row.id) (hrefused : ∀ id ∈ failed, id < x.nextID) :
    Sound { x with rows := x.rows.map f, drains := drains, failed := failed } where
  ids := by
    rw [map_rows_id hid]
    exact h.ids
  below := by
    intro row' hrow'
    obtain ⟨row, hrow, rfl⟩ := List.mem_map.mp hrow'
    rw [hid]
    exact h.below row hrow
  held := hheld
  holds := hholds
  gone := by
    rw [map_rows_id hid]
    exact h.gone
  once := h.once
  kept := by
    intro w hw
    rcases h.kept w hw with ⟨row, hrow, hw, hwrote⟩ | hgone
    · exact .inl ⟨f row, List.mem_map_of_mem hrow, (hid row).trans hw, (hcontent row).trans hwrote⟩
    · exact .inr hgone
  sent := hsent
  refusals := by
    intro row' hrow'
    obtain ⟨row, hrow, rfl⟩ := List.mem_map.mp hrow'
    rw [hid]
    exact hrefusals row hrow
  refused := hrefused

/-- The marks of a drain at one of the rows it holds. -/
theorem marked_cases (h : x.Sound) {d : RelayDrain} (hd : d ∈ x.drains) (htodo : d.todo = []) {row : OutboxRow}
    (hrow : row ∈ x.rows) :
    (row.id ∉ d.held ∧ d.marked row = row) ∨
      ∃ c outcome, (c, outcome) ∈ d.marks ∧ row.id = c.id ∧ row.status = .pending ∧ row.retryCount = c.retryCount ∧
        d.marked row = d.relay.mark d.now c outcome row := by
  have hheld : d.held = d.marks.map (·.1.id) := by
    unfold RelayDrain.held
    rw [htodo]
    exact List.append_nil _
  by_cases hmem : row.id ∈ d.held
  · obtain ⟨⟨c, outcome⟩, hm, hid⟩ := List.mem_map.mp (hheld ▸ hmem)
    have hid : c.id = row.id := hid
    obtain ⟨row', hrow', hid', hpending, hretry⟩ := h.holds d hd c
      (List.mem_append_left _ (List.mem_map.mpr ⟨(c, outcome), hm, rfl⟩))
    obtain rfl := h.row_unique hrow hrow' (hid.symm.trans hid'.symm)
    exact .inr ⟨c, outcome, hm, hid.symm, hpending, hretry,
      Relay.foldl_mark_own (RelayDrain.marks_nodup (h.drain_held hd)) hm hid.symm⟩
  · exact .inl ⟨hmem, Relay.foldl_mark_other (hheld ▸ hmem)⟩

theorem published_marked (h : x.Sound) {d : RelayDrain} (hd : d ∈ x.drains) (htodo : d.todo = []) :
    (published { x with rows := x.rows.map d.marked }).Perm (x.published ++ d.sent) := by
  have hnodup : (published { x with rows := x.rows.map d.marked }).Nodup := by
    refine List.Nodup.sublist (List.filter_sublist.map _) ?_
    rw [map_rows_id d.marked_id]
    exact h.ids
  have hdisj : ∀ id ∈ x.published, ∀ id' ∈ d.sent, id ≠ id' := by
    rintro id hpub _ hsent rfl
    obtain ⟨row, hrow, hst, rfl⟩ := mem_published.mp hpub
    obtain ⟨c, hm, hid⟩ := RelayDrain.mem_sent.mp hsent
    obtain ⟨row', hrow', hid', hpending, -⟩ := h.holds d hd c (List.mem_append_left _ (List.mem_map.mpr ⟨_, hm, rfl⟩))
    obtain rfl := h.row_unique hrow hrow' (hid.symm.trans hid'.symm)
    rw [hst] at hpending
    cases hpending
  have hboth : (x.published ++ d.sent).Nodup :=
    List.nodup_append.mpr ⟨h.published_nodup, (h.drain_held hd).sublist d.sent_sublist, hdisj⟩
  refine (List.perm_ext_iff_of_nodup hnodup hboth).mpr (fun id => ?_)
  rw [mem_published, List.mem_append, mem_published]
  constructor
  · rintro ⟨_, hrow', hst, rfl⟩
    obtain ⟨row, hrow, rfl⟩ := List.mem_map.mp hrow'
    rw [d.marked_id]
    rcases h.marked_cases hd htodo hrow with ⟨-, hsame⟩ | ⟨c, outcome, hm, hid, -, -, hmark⟩
    · rw [hsame] at hst
      exact .inl ⟨row, hrow, hst, rfl⟩
    · cases outcome with
      | none => exact .inr (RelayDrain.mem_sent.mpr ⟨c, hm, hid.symm⟩)
      | some err =>
        rw [hmark, Relay.mark, if_neg (not_not.mpr hid)] at hst
        dsimp only at hst
        split at hst
        · cases hst
        · cases hst
  · rintro (⟨row, hrow, hst, rfl⟩ | hsent)
    · refine ⟨d.marked row, List.mem_map_of_mem hrow, ?_, d.marked_id row⟩
      rcases h.marked_cases hd htodo hrow with ⟨-, hsame⟩ | ⟨c, outcome, -, -, hpending, -, -⟩
      · rw [hsame]
        exact hst
      · rw [hst] at hpending
        cases hpending
    · obtain ⟨c, hm, rfl⟩ := RelayDrain.mem_sent.mp hsent
      obtain ⟨row, hrow, hid, -, -⟩ := h.holds d hd c (List.mem_append_left _ (List.mem_map.mpr ⟨_, hm, rfl⟩))
      refine ⟨d.marked row, List.mem_map_of_mem hrow, ?_, (d.marked_id row).trans hid⟩
      have hmark : d.marked row = d.relay.mark d.now c none row :=
        Relay.foldl_mark_own (RelayDrain.marks_nodup (h.drain_held hd)) hm hid
      rw [hmark, Relay.mark, if_neg (not_not.mpr hid)]

/-- A refusal is counted once. -/
theorem refusals_marked (h : x.Sound) {d : RelayDrain} (hd : d ∈ x.drains) (htodo : d.todo = []) {row : OutboxRow}
    (hrow : row ∈ x.rows) : (d.marked row).retryCount = (x.failed ++ d.failed).count row.id := by
  have hheld := h.drain_held hd
  rw [List.count_append, ← h.refusals row hrow]
  rcases h.marked_cases hd htodo hrow with ⟨hnot, hsame⟩ | ⟨c, outcome, hm, hid, -, hretry, hmark⟩
  · rw [hsame, List.count_eq_zero.mpr (fun hf => hnot (d.failed_sublist.subset hf)), Nat.add_zero]
  · cases outcome with
    | none =>
      rw [hmark, Relay.mark, if_neg (not_not.mpr hid)]
      have hnot : row.id ∉ d.failed := by
        intro hf
        obtain ⟨c', err, hm', hid'⟩ := RelayDrain.mem_failed.mp hf
        cases RelayDrain.outcome_unique hheld hm hm' (hid.symm.trans hid'.symm)
      rw [List.count_eq_zero.mpr hnot, Nat.add_zero]
    | some err =>
      rw [hmark, Relay.mark, if_neg (not_not.mpr hid)]
      have hone : d.failed.count row.id = 1 := by
        refine List.count_eq_one_of_mem (hheld.sublist d.failed_sublist) ?_
        exact RelayDrain.mem_failed.mpr ⟨c, err, hm, hid.symm⟩
      rw [hone, hretry]

/-- The marks of a drain that commits become the table's. -/
theorem commit (h : x.Sound) {i : Nat} {d : RelayDrain} (hd : x.drains[i]? = some d) {y : OutboxTable}
    (hy : x.commit i d = some y) : y.Sound := by
  unfold OutboxTable.commit at hy
  split at hy
  · rename_i htodo
    cases hy
    have hmem : d ∈ x.drains := List.mem_of_getElem? hd
    have hsplit := (perm_flatMap_eraseIdx hd RelayDrain.held).nodup_iff.mp h.held
    refine h.mapRows d.marked_id d.marked_content (List.nodup_append.mp hsplit).2.1 ?holds ?sent
      (fun row hrow => h.refusals_marked hmem htodo hrow) ?refused
    case holds =>
      intro d' hd' c hc
      obtain ⟨row, hrow, hid, hrest⟩ := h.holds d' (List.mem_of_mem_eraseIdx hd') c hc
      refine ⟨row, List.mem_map.mpr ⟨row, hrow, ?_⟩, hid, hrest⟩
      rcases h.marked_cases hmem htodo hrow with ⟨-, hsame⟩ | ⟨c', outcome, hm, hid', -, -, -⟩
      · exact hsame
      · -- the row is held by the other drain
        have hmine : c'.id ∈ d.held := List.mem_append_left _ (List.mem_map.mpr ⟨_, hm, rfl⟩)
        have hother : c.id ∈ (x.drains.eraseIdx i).flatMap RelayDrain.held :=
          List.mem_flatMap.mpr ⟨d', hd', d'.claims_id ▸ List.mem_map_of_mem hc⟩
        exact absurd (hid'.symm.trans hid) ((List.nodup_append.mp hsplit).2.2 _ hmine _ hother)
    case sent =>
      rw [List.perm_iff_count]
      intro id
      have hsent := h.sent.count_eq id
      have hpub := (h.published_marked hmem htodo).count_eq id
      have hdrains := (perm_flatMap_eraseIdx hd RelayDrain.sent).count_eq id
      simp only [List.count_append] at hsent hpub hdrains ⊢
      change x.sent.count id = (published { x with rows := x.rows.map d.marked }).count id + _ + _
      omega
    case refused =>
      intro id hid
      rcases List.mem_append.mp hid with hid | hid
      · exact h.refused id hid
      · obtain ⟨c, err, hm, rfl⟩ := RelayDrain.mem_failed.mp hid
        obtain ⟨row, hrow, hid, -⟩ := h.holds d hmem c (List.mem_append_left _ (List.mem_map.mpr ⟨_, hm, rfl⟩))
        rw [← hid]
        exact h.below row hrow
  · cases hy

theorem redriven_id (ids : List Nat) (now : Time) (row : OutboxRow) : (row.redriven ids now).id = row.id := by
  unfold OutboxRow.redriven
  split <;> rfl

theorem redriven_content (ids : List Nat) (now : Time) (row : OutboxRow) : (row.redriven ids now).content = row.content := by
  unfold OutboxRow.redriven
  split <;> rfl

theorem redriven_of_not_dead {ids : List Nat} {now : Time} {row : OutboxRow} (h : row.status ≠ .dead) :
    row.redriven ids now = row := by
  unfold OutboxRow.redriven
  rw [beq_eq_false_iff_ne.mpr h]
  rfl

/-- Dead rows start anew. -/
theorem redrive (h : x.Sound) (ids : List Nat) (now : Time) : Sound { x with
    rows := x.rows.map (OutboxRow.redriven ids now)
    failed := x.failed.filter (fun id =>
      !(ids.contains id && x.rows.any (fun row => row.id == id && row.status == .dead))) } := by
  refine h.mapRows (redriven_id ids now) (redriven_content ids now) h.held ?holds ?sent ?refusals
    (fun id hid => h.refused id (List.mem_of_mem_filter hid))
  case holds =>
    intro d hd c hc
    obtain ⟨row, hrow, hid, hpending, hretry⟩ := h.holds d hd c hc
    refine ⟨row, List.mem_map.mpr ⟨row, hrow, redriven_of_not_dead ?_⟩, hid, hpending, hretry⟩
    rw [hpending]
    decide
  case sent =>
    have hpub : published { x with rows := x.rows.map (OutboxRow.redriven ids now) } = x.published := by
      unfold published
      dsimp only
      rw [List.filter_map, List.map_map]
      have hsame : ((fun row : OutboxRow => row.status == .published) ∘ OutboxRow.redriven ids now) =
          (fun row => row.status == .published) := by
        funext row
        simp only [Function.comp_apply, OutboxRow.redriven]
        split
        · rename_i hdead
          rw [Bool.and_eq_true, beq_iff_eq] at hdead
          rw [hdead.1]
          rfl
        · rfl
      rw [hsame]
      exact List.map_congr_left (fun row _ => redriven_id ids now row)
    rw [hpub]
    exact h.sent
  case refusals =>
    intro row hrow
    unfold OutboxRow.redriven
    split
    · rename_i hdead
      rw [Bool.and_eq_true, beq_iff_eq] at hdead
      refine (List.count_eq_zero.mpr ?_).symm
      intro hmem
      have hgone := (List.mem_filter.mp hmem).2
      rw [hdead.2, Bool.true_and, Bool.not_eq_true', List.any_eq_false] at hgone
      exact hgone row hrow (by rw [hdead.1]; simp)
    · rename_i hkept
      rw [List.count_filter, h.refusals row hrow]
      rw [Bool.not_eq_true']
      by_contra hany
      rw [Bool.not_eq_false, Bool.and_eq_true, List.any_eq_true] at hany
      obtain ⟨hin, row', hrow', hdead⟩ := hany
      rw [Bool.and_eq_true, beq_iff_eq, beq_iff_eq] at hdead
      obtain rfl := h.row_unique hrow' hrow hdead.1
      exact hkept (by rw [hdead.2, hin]; rfl)

/-- Only published rows are pruned. -/
theorem pruneOutbox (h : x.Sound) (cutoff : Time) : Sound { x with
    rows := x.rows.filter (fun row => !row.prunable cutoff)
    pruned := x.pruned ++ (x.rows.filter (·.prunable cutoff)).map (·.id) } := by
  have hpub : ∀ row : OutboxRow, row.prunable cutoff = true → row.status = .published := by
    intro row hrow
    unfold OutboxRow.prunable at hrow
    rw [Bool.and_eq_true, beq_iff_eq] at hrow
    exact hrow.1
  constructor
  case ids => exact h.ids.sublist (List.filter_sublist.map _)
  case below => exact fun row hrow => h.below row (List.mem_of_mem_filter hrow)
  case held => exact h.held
  case holds =>
    intro d hd c hc
    obtain ⟨row, hrow, hid, hpending, hretry⟩ := h.holds d hd c hc
    refine ⟨row, List.mem_filter.mpr ⟨hrow, ?_⟩, hid, hpending, hretry⟩
    rw [Bool.not_eq_true']
    by_contra hprune
    rw [Bool.not_eq_false] at hprune
    rw [hpub row hprune] at hpending
    cases hpending
  case gone =>
    intro id hid
    rcases List.mem_append.mp hid with hid | hid
    · exact ⟨(h.gone id hid).1, fun hmem => (h.gone id hid).2 ((List.filter_sublist.map _).subset hmem)⟩
    · obtain ⟨row, hrow, rfl⟩ := List.mem_map.mp hid
      obtain ⟨hrow, hprune⟩ := List.mem_filter.mp hrow
      refine ⟨h.below row hrow, fun hmem => ?_⟩
      obtain ⟨row', hrow', hid'⟩ := List.mem_map.mp hmem
      obtain ⟨hrow', hkept⟩ := List.mem_filter.mp hrow'
      rw [h.row_unique hrow' hrow hid', hprune] at hkept
      cases hkept
  case once =>
    refine List.nodup_append.mpr ⟨h.once, h.ids.sublist (List.filter_sublist.map _), ?_⟩
    rintro id hold _ hnew rfl
    exact (h.gone id hold).2 ((List.filter_sublist.map _).subset hnew)
  case kept =>
    intro w hw
    rcases h.kept w hw with ⟨row, hrow, hid, hcontent⟩ | hgone
    · cases hprune : row.prunable cutoff with
      | true =>
        refine .inr (List.mem_append_right _ (List.mem_map.mpr ⟨row, List.mem_filter.mpr ⟨hrow, hprune⟩, hid⟩))
      | false => exact .inl ⟨row, List.mem_filter.mpr ⟨hrow, by rw [hprune]; rfl⟩, hid, hcontent⟩
    · exact .inr (List.mem_append_left _ hgone)
  case sent =>
    have hsplit : x.published.Perm ((x.rows.filter (·.prunable cutoff)).map (·.id) ++
        ((x.rows.filter (fun row => !row.prunable cutoff)).filter (·.status == .published)).map (·.id)) := by
      unfold published
      rw [← List.map_append]
      refine List.Perm.map _ ?_
      refine (List.filter_append_perm (·.prunable cutoff) (x.rows.filter (·.status == .published))).symm.trans ?_
      rw [List.filter_filter, List.filter_filter, List.filter_filter]
      refine List.Perm.of_eq (congr_arg₂ _ (List.filter_congr (fun row _ => ?_)) (List.filter_congr (fun row _ => ?_)))
      · cases hprune : row.prunable cutoff with
        | true =>
          rw [hpub row hprune]
          rfl
        | false => rfl
      · exact Bool.and_comm _ _
    rw [List.perm_iff_count]
    intro id
    have hsent := h.sent.count_eq id
    have hparts := hsplit.count_eq id
    simp only [List.count_append] at hsent hparts ⊢
    unfold published at hsent hparts ⊢
    dsimp only at hsent hparts ⊢
    omega
  case refusals => exact fun row hrow => h.refusals row (List.mem_of_mem_filter hrow)
  case refused => exact h.refused

theorem step (h : x.Sound) {y : OutboxTable} {s : RelayStep} (hy : x.step s = some y) : y.Sound := by
  cases s with
  | write instanceID seq i ev createdAt =>
    cases hy
    exact h.write instanceID seq i ev createdAt
  | claim relay now =>
    cases hy
    exact h.claim relay now
  | publish i outcome =>
    obtain ⟨d, hd, hy⟩ := Option.bind_eq_some_iff.mp hy
    exact h.publish hd hy
  | commit i =>
    obtain ⟨d, hd, hy⟩ := Option.bind_eq_some_iff.mp hy
    exact h.commit hd hy
  | rollback i =>
    obtain ⟨d, hd, rfl⟩ := Option.map_eq_some_iff.mp hy
    exact h.rollback hd
  | redrive ids now =>
    cases hy
    exact h.redrive ids now
  | pruneOutbox cutoff =>
    cases hy
    exact h.pruneOutbox cutoff

end Sound

theorem runs_sound {P : OutboxTable → RelayStep → Prop} {steps : List RelayStep} (h : Library.Runs step P {} steps x) :
    x.Sound :=
  h.invariant sound_empty (fun hx _ hy => hx.step hy)

end OutboxTable

open OutboxTable

/-- No written event is lost, and each goes out once, besides the times a drain fails after it went out: a row that is
published or pruned was sent once more than that, any other row no more often than that and the drains that are open have
sent it. No row is in two drains. -/
theorem relays_account {steps : List RelayStep} {x : OutboxTable}
    (h : Library.Runs OutboxTable.step (fun _ _ => True) {} steps x) :
    (∀ w ∈ x.written, (∃ row ∈ x.rows, row.id = w.id ∧ row.content = w.content) ∨ w.id ∈ x.pruned) ∧
    (x.drains.flatMap RelayDrain.held).Nodup ∧
    ∀ id, x.sent.count id =
      (if id ∈ x.published ++ x.pruned then 1 else 0) + x.undone.count id + (x.drains.flatMap RelayDrain.sent).count id := by
  have hs := runs_sound h
  refine ⟨hs.kept, hs.held, fun id => ?_⟩
  have hnodup : (x.published ++ x.pruned).Nodup := by
    refine List.nodup_append.mpr ⟨hs.published_nodup, hs.once, ?_⟩
    rintro id hpub _ hpruned rfl
    exact (hs.gone id hpruned).2 ((List.filter_sublist.map _).subset hpub)
  have hcount : (x.published ++ x.pruned).count id = if id ∈ x.published ++ x.pruned then 1 else 0 := by
    split
    · rename_i hmem
      exact List.count_eq_one_of_mem hnodup hmem
    · rename_i hmem
      exact List.count_eq_zero.mpr hmem
  rw [hs.sent.count_eq, List.count_append, hcount, List.count_append, Nat.add_assoc]

/-- An event of the topic. -/
def topicEvent (topic : String) : OutboxEvent where
  topic := topic
  payload := none
  instanceID := "i"
  definitionRef := { id := "" }

def plainRelay : Relay where
  batch := 100
  maxDel := 2
  base := 1
  max := 60

/-- The first drain fails after the event went out; the second sends it again. -/
theorem event_sent_again : ∃ steps x, Library.Runs OutboxTable.step (fun _ _ => True) {} steps x ∧ x.undone = [1] ∧
    x.published = [1] ∧ x.sent.count 1 = 1 + 1 := by
  have hplay : plays OutboxTable.step (fun _ _ => True) {}
      [.write "i" 1 0 (topicEvent "t") 5, .claim plainRelay 6, .claim plainRelay 6, .publish 0 none, .rollback 0, .rollback 0,
        .claim plainRelay 7, .publish 0 none, .commit 0]
      (fun x => decide (x.undone = [1] ∧ x.published = [1] ∧ x.drains.flatMap RelayDrain.sent = [])) = true := by decide
  obtain ⟨x, hrun, hQ⟩ := runs_of_plays hplay
  obtain ⟨hundone, hpub, hdrains⟩ := of_decide_eq_true hQ
  refine ⟨_, x, hrun, hundone, hpub, ?_⟩
  rw [(relays_account hrun).2.2, hundone, hpub, hdrains]
  rfl

/-! ## Dead letters -/

/-- Every relay gives up after `m` refusals. -/
def RelayStep.LimitedTo (m : Nat) : RelayStep → Prop
  | .claim relay _ => relay.maxDel = m
  | _ => True

instance RelayStep.decidableLimitedTo (m : Nat) (s : RelayStep) : Decidable (s.LimitedTo m) :=
  match s with
  | .claim relay _ => inferInstanceAs (Decidable (relay.maxDel = m))
  | .write .. | .publish .. | .commit _ | .rollback _ | .redrive .. | .pruneOutbox _ => .isTrue trivial

/-- The row counts up to `m`, and is dead there. -/
def OutboxRow.Counted (m : Nat) (row : OutboxRow) : Prop := row.retryCount ≤ m ∧ (row.status = .dead ↔ row.retryCount = m)

theorem OutboxRow.Counted.mark {m : Nat} {row : OutboxRow} (h : row.Counted m) {r : Relay} (hr : r.maxDel = m) (now : Time)
    (outcome : Option String) (hid : row.id = c.id) (hpending : row.status = .pending)
    (hretry : row.retryCount = c.retryCount) : (r.mark now c outcome row).Counted m := by
  -- a pending row has tries left
  have hne : row.retryCount ≠ m := by
    intro heq
    rw [h.2.mpr heq] at hpending
    cases hpending
  have hlt : row.retryCount < m := Nat.lt_of_le_of_ne h.1 hne
  unfold OutboxRow.Counted Relay.mark
  rw [if_neg (not_not.mpr hid), hr]
  cases outcome with
  | none => exact ⟨h.1, iff_of_false (fun hst => by cases hst) hne⟩
  | some err =>
    dsimp only
    rw [← hretry]
    split
    · exact ⟨hlt, iff_of_true rfl (by omega)⟩
    · exact ⟨hlt, iff_of_false (fun hst => by cases hst) (by omega)⟩

namespace OutboxTable

structure Limited (m : Nat) (x : OutboxTable) : Prop where
  relays : ∀ d ∈ x.drains, d.relay.maxDel = m
  rows : ∀ row ∈ x.rows, row.Counted m

variable {m : Nat} {x y : OutboxTable}

theorem Limited.step (h : x.Limited m) (hm : 0 < m) (hs : x.Sound) {s : RelayStep} (hlim : s.LimitedTo m)
    (hy : x.step s = some y) : y.Limited m := by
  have hfresh : ∀ row : OutboxRow, row.status = .pending → row.retryCount = 0 → row.Counted m := by
    intro row hst hretry
    unfold OutboxRow.Counted
    rw [hst, hretry]
    exact ⟨hm.le, iff_of_false (fun hst => by cases hst) hm.ne⟩
  cases s with
  | write instanceID seq i ev createdAt =>
    cases hy
    exact ⟨h.relays, forall_mem_concat h.rows (hfresh _ rfl rfl)⟩
  | claim relay now =>
    cases hy
    unfold OutboxTable.claim
    split
    · exact h
    · exact ⟨forall_mem_concat h.relays hlim, h.rows⟩
  | publish i outcome =>
    obtain ⟨d, hd, hy⟩ := Option.bind_eq_some_iff.mp hy
    unfold OutboxTable.publish at hy
    split at hy
    · cases hy
    · cases hy
      refine ⟨?_, h.rows⟩
      exact forall_mem_set (P := fun d : RelayDrain => d.relay.maxDel = m) h.relays (h.relays d (List.mem_of_getElem? hd))
  | commit i =>
    obtain ⟨d, hd, hy⟩ := Option.bind_eq_some_iff.mp hy
    have hmem : d ∈ x.drains := List.mem_of_getElem? hd
    unfold OutboxTable.commit at hy
    split at hy
    · rename_i htodo
      cases hy
      refine ⟨forall_mem_eraseIdx h.relays, fun row' hrow' => ?_⟩
      obtain ⟨row, hrow, rfl⟩ := List.mem_map.mp hrow'
      rcases hs.marked_cases hmem htodo hrow with ⟨-, hsame⟩ | ⟨c, outcome, -, hid, hpending, hretry, hmark⟩
      · rw [hsame]
        exact h.rows row hrow
      · rw [hmark]
        exact (h.rows row hrow).mark (h.relays d hmem) d.now outcome hid hpending hretry
    · cases hy
  | rollback i =>
    obtain ⟨d, hd, rfl⟩ := Option.map_eq_some_iff.mp hy
    exact ⟨forall_mem_eraseIdx h.relays, h.rows⟩
  | redrive ids now =>
    cases hy
    refine ⟨h.relays, fun row' hrow' => ?_⟩
    obtain ⟨row, hrow, rfl⟩ := List.mem_map.mp hrow'
    unfold OutboxRow.redriven
    split
    · exact hfresh _ rfl rfl
    · exact h.rows row hrow
  | pruneOutbox cutoff =>
    cases hy
    exact ⟨h.relays, fun row hrow => h.rows row (List.mem_of_mem_filter hrow)⟩

end OutboxTable

/-- Where every relay gives up after `m` refusals: each row counts the refusals that were committed since it was written or
last redriven, never more than `m`, and it is dead exactly when there are `m`. -/
theorem dead_letters_exact {m : Nat} (hm : 0 < m) {steps : List RelayStep} {x : OutboxTable}
    (h : Library.Runs OutboxTable.step (fun _ s => s.LimitedTo m) {} steps x) {row : OutboxRow} (hrow : row ∈ x.rows) :
    row.retryCount = x.failed.count row.id ∧ row.retryCount ≤ m ∧ (row.status = .dead ↔ row.retryCount = m) := by
  have hempty : Limited m {} := by
    constructor
    · intro d hd
      cases hd
    · intro row hrow
      cases hrow
  have hboth : x.Sound ∧ x.Limited m := h.invariant (I := fun x => x.Sound ∧ x.Limited m) ⟨sound_empty, hempty⟩
    (fun hy hlim hz => ⟨hy.1.step hz, hy.2.step hm hy.1 hlim hz⟩)
  exact ⟨hboth.1.refusals row hrow, hboth.2.rows row hrow⟩

/-- Two refusals, one of them undone by a failure, one redrive: the row is pending again with one refusal. -/
theorem redriven_row_counts_anew : ∃ steps x row,
    Library.Runs OutboxTable.step (fun _ s => s.LimitedTo 2) {} steps x ∧ row ∈ x.rows ∧
    x.failed = [1] ∧ row.retryCount = 1 ∧ row.status ≠ .dead := by
  have hplay : plays OutboxTable.step (fun _ s => s.LimitedTo 2) {}
      [.write "i" 1 0 (topicEvent "t") 5, .claim plainRelay 6, .publish 0 (some "down"), .commit 0, .claim plainRelay 100,
        .publish 0 (some "down"), .commit 0, .redrive [1] 101, .claim plainRelay 102, .publish 0 (some "down"), .rollback 0,
        .claim plainRelay 103, .publish 0 (some "down"), .commit 0]
      (fun x => decide (x.failed = [1] ∧ x.rows.map (·.id) = [1])) = true := by decide
  obtain ⟨x, hrun, hQ⟩ := runs_of_plays hplay
  obtain ⟨hfailed, hids⟩ := of_decide_eq_true hQ
  obtain ⟨row, hrow, hid⟩ : ∃ row ∈ x.rows, row.id = 1 := List.mem_map.mp (hids ▸ List.mem_singleton.mpr rfl)
  obtain ⟨hcount, -, hdead⟩ := dead_letters_exact (by decide) hrun hrow
  have hone : row.retryCount = 1 := by
    rw [hcount, hid, hfailed]
    rfl
  refine ⟨_, x, row, hrun, hrow, hfailed, hone, fun hst => ?_⟩
  have htwo := hdead.mp hst
  omega

end Wrkflw
