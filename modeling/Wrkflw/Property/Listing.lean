import Wrkflw.Runtime.Lister
import Mathlib.Data.String.Basic
import Mathlib.Tactic.Ring

/-!
# Which listings are walked exactly

* `InstanceSummary.later` : the order of the listing, strict;
* `Stamp.written` : a start time as the cursor of its row has it;
* `InstanceSummary.Resumable` : the cursor of a row leads on to the row after it;
* `listing_exact_iff` : following the cursors returns every matching instance once and in order exactly when this is so at
  the end of every full page but the last.
-/

namespace Wrkflw

open Library

variable {a b : InstanceSummary}

/-! ## The order of the rows -/

def InstanceSummary.later (a b : InstanceSummary) : Prop :=
  b.startedAt.instant < a.startedAt.instant ∨ (b.startedAt.instant = a.startedAt.instant ∧ b.instanceID < a.instanceID)

theorem InstanceSummary.later_of_notAfter (h : a.notAfter b) (hne : a.instanceID ≠ b.instanceID) :
    a.later b := by
  obtain h | ⟨htime, hid⟩ := h
  · exact .inl h
  · exact .inr ⟨htime, lt_of_le_of_ne hid (Ne.symm hne)⟩

theorem InstanceSummary.later.ne (h : a.later b) : a ≠ b := by
  rintro rfl
  obtain h | ⟨-, hid⟩ := h
  · exact lt_irrefl _ h
  · exact lt_irrefl _ hid

theorem InstanceSummary.later.lessThan (h : a.later b) {k : Stamp × String} (ha : a.lessThan k = true) :
    b.lessThan k = true := by
  simp only [InstanceSummary.lessThan, Bool.or_eq_true, Bool.and_eq_true, decide_eq_true_eq] at ha ⊢
  obtain h | ⟨htime, hid⟩ := h
  · obtain ha | ⟨ha, -⟩ := ha
    · exact .inl (lt_trans h ha)
    · exact .inl (ha ▸ h)
  · obtain ha | ⟨ha, hida⟩ := ha
    · exact .inl (htime ▸ ha)
    · exact .inr ⟨htime.trans ha, lt_trans hid hida⟩

instance : Std.Total InstanceSummary.notAfter where
  total a b := by
    obtain h | h | h := lt_trichotomy a.startedAt.instant b.startedAt.instant
    · exact .inr (.inl h)
    · obtain hid | hid := le_total b.instanceID a.instanceID
      · exact .inl (.inr ⟨h.symm, hid⟩)
      · exact .inr (.inr ⟨h, hid⟩)
    · exact .inl (.inl h)

instance : IsTrans InstanceSummary InstanceSummary.notAfter where
  trans a b c hab hbc := by
    obtain hab | ⟨hab, hid⟩ := hab
    · obtain hbc | ⟨hbc, -⟩ := hbc
      · exact .inl (lt_trans hbc hab)
      · exact .inl (hbc ▸ hab)
    · obtain hbc | ⟨hbc, hid'⟩ := hbc
      · exact .inl (hab ▸ hbc)
      · exact .inr ⟨hbc.trans hab, le_trans hid' hid⟩

variable (m : InstanceTable) (f : InstanceFilter)

theorem InstanceTable.matching_nodup : ((m.matching f).map (·.instanceID)).Nodup := by
  unfold InstanceTable.matching
  rw [List.map_map]
  exact m.key.sublist ((List.filter_sublist).map _)

theorem InstanceTable.sorted_later : (m.sorted f).Pairwise InstanceSummary.later := by
  have hsorted : (m.sorted f).Pairwise InstanceSummary.notAfter := List.pairwise_insertionSort _ _
  have hperm : (m.sorted f).Perm (m.matching f) := List.perm_insertionSort _ _
  have hids : ((m.sorted f).map (·.instanceID)).Nodup := (hperm.map _).nodup_iff.mpr (m.matching_nodup f)
  have hne : (m.sorted f).Pairwise (fun a b => a.instanceID ≠ b.instanceID) := List.pairwise_map.mp hids
  exact (hsorted.and hne).imp (fun h => InstanceSummary.later_of_notAfter h.1 h.2)

/-- There is one list of the matching rows in this order. -/
theorem InstanceTable.eq_sorted_iff {rows : List InstanceSummary} :
    rows = m.sorted f ↔ rows.Perm (m.matching f) ∧ rows.Pairwise InstanceSummary.later := by
  have hperm : (m.sorted f).Perm (m.matching f) := List.perm_insertionSort _ _
  constructor
  · rintro rfl
    exact ⟨hperm, m.sorted_later f⟩
  · rintro ⟨hrows, hlater⟩
    refine List.Perm.eq_of_pairwise ?_ hlater (m.sorted_later f) (hrows.trans hperm.symm)
    intro a b _ _ hab hba
    exfalso
    obtain hab | ⟨hab, hid⟩ := hab
    · obtain hba | ⟨hba, -⟩ := hba
      · exact lt_asymm hab hba
      · exact hab.ne hba.symm
    · obtain hba | ⟨-, hid'⟩ := hba
      · exact hba.ne hab.symm
      · exact lt_asymm hid hid'

/-! ## What a cursor carries -/

/-- The time that is read back: the seconds of the zone are lost, and the instant moves by them. -/
def Stamp.written (t : Stamp) : Stamp := ⟨t.instant + t.offset.tmod 60 * second, t.offset.tdiv 60 * 60⟩

/-- The time has an RFC 3339 text: a year of four digits, and a zone of less than a day. -/
def Stamp.Writable (t : Stamp) : Prop := writableTime t.wall = true ∧ t.offset.natAbs < 24 * 60 * 60

theorem Stamp.zone_natAbs (t : Stamp) : t.zone.natAbs / 60 < 24 ↔ t.offset.natAbs < 24 * 60 * 60 := by
  unfold Stamp.zone
  have habs : (t.offset.tdiv 60).natAbs = t.offset.natAbs / 60 := Int.natAbs_tdiv _ _
  rw [habs]
  omega

theorem Stamp.marshalJSON_read (t : Stamp) (r : Rfc3339) (h : t.marshalJSON = .ok r) : t.Writable ∧ r.read = t.written := by
  unfold Stamp.marshalJSON at h
  split at h
  · cases h
  · rename_i hyear
    split at h
    · cases h
    · rename_i hzone
      cases h
      refine ⟨⟨by simpa using hyear, (t.zone_natAbs).mp (Nat.not_le.mp hzone)⟩, ?_⟩
      have hsplit := Int.mul_tdiv_add_tmod t.offset 60
      simp only [Rfc3339.read, Stamp.written, Stamp.wall, Stamp.zone, Stamp.mk.injEq, and_true]
      nth_rewrite 1 [← hsplit]
      ring

theorem Stamp.marshalJSON_of_writable {t : Stamp} (h : t.Writable) : t.marshalJSON = .ok ⟨t.wall, t.zone⟩ := by
  unfold Stamp.marshalJSON
  rw [if_neg (by simp [h.1]), if_neg (Nat.not_le.mpr ((t.zone_natAbs).mpr h.2))]

/-- A cursor is written for a time that has a text. -/
theorem encodeCursor_iff (t : Stamp) (id : String) (c : CursorText) :
    encodeCursor t id = .ok c ↔ t.Writable ∧
      c = .document (.obj [("kind", .str instanceCursorKind), ("started_at", .any ⟨t.wall, t.zone⟩),
      ("instance_id", .str id)]) := by
  constructor
  · intro h
    have hwritable : t.Writable := by
      cases hjson : t.marshalJSON with
      | error err => simp [encodeCursor, encodeCursorPayload, CursorPayload.marshal, hjson] at h
      | ok r => exact (t.marshalJSON_read r hjson).1
    refine ⟨hwritable, ?_⟩
    simp only [encodeCursor, encodeCursorPayload, CursorPayload.marshal, Stamp.marshalJSON_of_writable hwritable] at h
    cases h
    rfl
  · rintro ⟨hwritable, rfl⟩
    simp only [encodeCursor, encodeCursorPayload, CursorPayload.marshal, Stamp.marshalJSON_of_writable hwritable]

theorem Stamp.read_of_writable {t : Stamp} (h : t.Writable) : Rfc3339.read ⟨t.wall, t.zone⟩ = t.written :=
  (t.marshalJSON_read _ (Stamp.marshalJSON_of_writable h)).2

/-- A cursor that was written is read, unless the row has no id or its start time, as written, is the zero time. -/
theorem decodeCursor_written {t : Stamp} (h : t.Writable) (id : String) (k : Stamp × String) :
    decodeCursor (.document (.obj [("kind", .str instanceCursorKind), ("started_at", .any ⟨t.wall, t.zone⟩),
      ("instance_id", .str id)])) = .ok k ↔ id ≠ "" ∧ t.written.instant ≠ 0 ∧ k = (t.written, id) := by
  have hinto : decodeCursorInto (.document (.obj [("kind", .str instanceCursorKind), ("started_at", .any ⟨t.wall, t.zone⟩),
      ("instance_id", .str id)])) = .ok ⟨instanceCursorKind, t.written, id⟩ := by
    rw [← Stamp.read_of_writable h]
    rfl
  simp only [decodeCursor, hinto]
  rw [if_neg (by simp)]
  by_cases hid : id = ""
  · rw [if_pos hid]
    simp [hid]
  · rw [if_neg hid]
    by_cases hzero : t.written.instant = 0
    · simp [isZeroTime, hzero]
    · rw [if_neg (by simpa [isZeroTime] using hzero), Except.ok.injEq, eq_comm]
      exact ⟨fun h => ⟨hid, hzero, h⟩, fun h => h.2.2⟩

/-- The cursor of a row leads on to the row after it: it can be written and read, and the start time as it is written,
without the seconds of its zone, is not past the row and not before the next. -/
def InstanceSummary.Resumable (last next : InstanceSummary) : Prop :=
  last.startedAt.Writable ∧ last.instanceID ≠ "" ∧ last.startedAt.written.instant ≠ 0 ∧
    last.startedAt.written.instant ≤ last.startedAt.instant ∧
    (next.startedAt.instant < last.startedAt.written.instant ∨
      (next.startedAt.instant = last.startedAt.written.instant ∧ next.instanceID < last.instanceID))

def instanceKeyset : Keyset InstanceSummary CursorText (Stamp × String) String where
  encode row := encodeCursor row.startedAt row.instanceID
  decode := decodeCursor
  below := InstanceSummary.lessThan

theorem InstanceSummary.resumes_iff (last next : InstanceSummary) :
    instanceKeyset.Resumes last next ↔ last.Resumable next := by
  have hlast : ∀ t : Stamp, last.lessThan (t, last.instanceID) = false ↔ t.instant ≤ last.startedAt.instant := by
    intro t
    simp [InstanceSummary.lessThan]
  have hnext : ∀ t : Stamp, next.lessThan (t, last.instanceID) = true ↔
      (next.startedAt.instant < t.instant ∨ (next.startedAt.instant = t.instant ∧ next.instanceID < last.instanceID)) := by
    intro t
    simp [InstanceSummary.lessThan]
  constructor
  · rintro ⟨c, k, hencode, hdecode, habove, hbelow⟩
    obtain ⟨hwritable, rfl⟩ := (encodeCursor_iff _ _ _).mp hencode
    obtain ⟨hid, hzero, rfl⟩ := (decodeCursor_written hwritable _ _).mp hdecode
    exact ⟨hwritable, hid, hzero, (hlast _).mp habove, (hnext _).mp hbelow⟩
  · rintro ⟨hwritable, hid, hzero, habove, hbelow⟩
    exact ⟨_, _, (encodeCursor_iff _ _ _).mpr ⟨hwritable, rfl⟩, (decodeCursor_written hwritable _ _).mpr ⟨hid, hzero, rfl⟩,
      (hlast _).mpr habove, (hnext _).mpr hbelow⟩

/-! ## The walk -/

/-- The page under a cursor. -/
def InstanceTable.request (m : InstanceTable) (f : InstanceFilter) (cursor : CursorText) :
    Except String (Page InstanceSummary CursorText) :=
  (m.list { f with cursor := cursor }).map (·.toPage)

theorem normalizeLimit_pos (n : Int) : 0 < normalizeLimit n := by
  unfold normalizeLimit
  split
  · decide
  · split
    · decide
    · omega

/-- Past its cursor, a request cuts a page off the rows. -/
theorem InstanceTable.request_eq {cursor : CursorText} {rest : List InstanceSummary}
    (h : afterCursor (m.sorted f) cursor = .ok rest) :
    m.request f cursor = instanceKeyset.pageOf .empty (normalizeLimit f.limit) rest := by
  have hsorted : m.sorted { f with cursor := cursor } = m.sorted f := rfl
  simp only [InstanceTable.request, InstanceTable.list, hsorted, h, Keyset.pageOf]
  by_cases hmore : normalizeLimit f.limit < rest.length
  · simp only [hmore, decide_true, if_true, nextCursor, Bool.true_eq_false, if_false]
    cases hlast : (rest.take (normalizeLimit f.limit)).getLast? with
    | none => rfl
    | some last =>
      simp only [instanceKeyset]
      cases encodeCursor last.startedAt last.instanceID with
      | error err => rfl
      | ok c => rfl
  · simp only [hmore, decide_false, Bool.false_eq_true, if_false, nextCursor, if_true]
    rfl

theorem InstanceTable.serves :
    instanceKeyset.Serves .empty (normalizeLimit f.limit) (m.sorted f) (m.request f) where
  start := m.request_eq f rfl
  next {r c} hencode {k} hdecode := by
    obtain ⟨-, rfl⟩ := (encodeCursor_iff _ _ _).mp hencode
    refine m.request_eq f ?_
    simp only [instanceKeyset] at hdecode ⊢
    simp only [afterCursor, hdecode]
  refuse {r c} hencode {err} hdecode := by
    obtain ⟨-, rfl⟩ := (encodeCursor_iff _ _ _).mp hencode
    simp only [instanceKeyset] at hdecode
    simp only [InstanceTable.request, InstanceTable.list, afterCursor, hdecode]
    rfl

theorem InstanceTable.ordered : instanceKeyset.Ordered (m.sorted f) :=
  (m.sorted_later f).imp (fun h => ⟨h.ne, fun _ => h.lessThan⟩)

/-- Following the cursors from the first page ends with every matching instance, each once and in the order of the
listing, on pages that are no longer than the limit, if and only if the cursor of the last row of each full page leads
on to the row after. -/
theorem listing_exact_iff (m : InstanceTable) (f : InstanceFilter) :
    (∃ pages, Follows (fun cursor => (m.list { f with cursor := cursor }).map (·.toPage)) .empty pages ∧
      pages.flatten.Perm (m.matching f) ∧ pages.flatten.Pairwise InstanceSummary.later ∧
      ∀ page ∈ pages, page.length ≤ normalizeLimit f.limit) ↔
    ∀ i last next, normalizeLimit f.limit ∣ i + 1 → (m.sorted f)[i]? = some last → (m.sorted f)[i + 1]? = some next →
      last.Resumable next := by
  have hexact := Keyset.follows_exact_iff (normalizeLimit_pos f.limit) (m.ordered f) (m.serves f)
  simp only [Keyset.ResumesAt, InstanceSummary.resumes_iff, m.eq_sorted_iff f] at hexact
  simp only [and_assoc] at hexact
  exact hexact

/-! ## Two instances with the zero start time -/

def zeroStarts : InstanceTable where
  instances := [⟨{ instanceID := "a" }, 0⟩, ⟨{ instanceID := "b" }, 0⟩]
  key := by decide

/-- One a page: the cursor of the first is refused. -/
theorem zero_start_refused :
    ¬ ∃ pages, Follows (fun cursor => (zeroStarts.list { limit := 1, cursor := cursor }).map (·.toPage)) .empty pages ∧
      pages.flatten.Perm (zeroStarts.matching { limit := 1 }) ∧ pages.flatten.Pairwise InstanceSummary.later ∧
      ∀ page ∈ pages, page.length ≤ normalizeLimit 1 := by
  rintro ⟨pages, hfollows, -⟩
  cases hfollows with
  | last h hmore =>
    cases h
    cases hmore
  | more h hmore hrest =>
    cases h
    cases hrest with
    | last h _ => cases h
    | more h _ _ => cases h

end Wrkflw
