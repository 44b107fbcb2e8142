import Mathlib.Data.List.Flatten
import Mathlib.Data.List.Pairwise
import Wrkflw.Machine.Run
import Wrkflw.Machine.Recorded
import Wrkflw.Machine.Buckets

/-!
# Where the records are

A record is in the root's list, in the list of an open scope or in a bucket of the archive, and it is moved between them.
`Files` says that an operation brings no record in and leaves the root's list in order: as it was but for records that went,
or sorted afresh. One lemma per operation, then one for the moves (`Move.files`) and one for the ends.

* `Archive.filed`, `ControlState.held` : the records of the archive and of the instance;
* `Reversed` : the root's list is in the order of recording, if records are recorded in ascending order.
-/

namespace Wrkflw

open ControlState

/-! ## The order of the records -/

instance : Std.Total CompensationRecord.le where
  total a b := by
    unfold CompensationRecord.le
    rcases lt_trichotomy a.completedAt b.completedAt with hlt | heq | hgt
    · exact .inl (.inl hlt)
    · exact (String.le_total a.nodeID b.nodeID).imp (fun h => .inr ⟨heq, h⟩) (fun h => .inr ⟨heq.symm, h⟩)
    · exact .inr (.inl hgt)

instance : IsTrans CompensationRecord CompensationRecord.le where
  trans a b c := by
    rintro (hlt | ⟨heq, hle⟩) (hlt' | ⟨heq', hle'⟩)
    · exact .inl (hlt.trans hlt')
    · exact .inl (heq' ▸ hlt)
    · exact .inl (heq ▸ hlt')
    · exact .inr ⟨heq.trans heq', String.le_trans hle hle'⟩

/-! ## The archive -/

/-- The records of all buckets. -/
def Archive.filed (m : Archive) : List CompensationRecord := m.flatMap (·.2)

namespace Archive
variable {m : Archive}

theorem filed_append (m m' : Archive) : (m ++ m').filed = m.filed ++ m'.filed := List.flatMap_append

/-- The bucket of a key among the others. -/
theorem Keyed.filed_set (hk : m.Keyed) (key : String) : ∃ before after, m.filed = before ++ m.get key ++ after ∧
    ∀ records, (m.set key records).filed = before ++ records ++ after := by
  by_cases hany : m.any (fun e => e.1 == key) = true
  · obtain ⟨e, he, hkey⟩ := List.any_eq_true.mp hany
    obtain rfl : e.1 = key := by simpa using hkey
    have hget := hk.get_eq he
    obtain ⟨pre, post, rfl⟩ := List.append_of_mem he
    have hkeys : (pre.map (·.1) ++ e.1 :: post.map (·.1)).Nodup := by
      unfold Keyed at hk
      rwa [List.map_append, List.map_cons] at hk
    obtain ⟨-, hpost, hpre⟩ := List.nodup_append.mp hkeys
    have hbefore : ∀ e' ∈ pre, e'.1 ≠ e.1 := fun e' he' => hpre _ (List.mem_map_of_mem he') _ List.mem_cons_self
    have hafter : ∀ e' ∈ post, e'.1 ≠ e.1 := fun e' he' heq =>
      (List.nodup_cons.mp hpost).1 (heq ▸ List.mem_map_of_mem he')
    refine ⟨filed pre, filed post, ?_, fun records => ?_⟩
    · rw [hget, filed_append, List.append_assoc]
      rfl
    · have hothers : ∀ l : Archive, (∀ e' ∈ l, e'.1 ≠ e.1) →
        l.map (fun e' => if e'.1 == e.1 then (e.1, records) else e') = l := by
        intro l hl
        calc l.map _ = l.map id := List.map_congr_left (fun e' he' => if_neg (by simpa using hl e' he'))
          _ = l := List.map_id l
      unfold Archive.set
      rw [if_pos hany, List.map_append, List.map_cons, hothers pre hbefore, hothers post hafter, if_pos (beq_self_eq_true _),
        filed_append, List.append_assoc]
      rfl
  · have hnone : m.find? (fun e => e.1 == key) = none := by
      rw [List.find?_eq_none]
      exact fun e he heq => hany (List.any_eq_true.mpr ⟨e, he, heq⟩)
    have hget : m.get key = [] := by
      unfold Archive.get
      rw [hnone]
    refine ⟨m.filed, [], by rw [hget, List.append_nil, List.append_nil], fun records => ?_⟩
    unfold Archive.set
    rw [if_neg hany, filed_append, List.append_nil]
    exact congrArg (m.filed ++ ·) (List.append_nil records)

theorem filed_erase (m : Archive) (key : String) : (m.erase key).filed.Sublist m.filed := List.filter_sublist.flatMap _

theorem Keyed.filed_dropAt (hk : m.Keyed) (key : String) (i : Int) : (m.dropAt key i).filed.Sublist m.filed := by
  unfold Archive.dropAt
  split
  · exact List.Sublist.refl _
  · split
    · exact m.filed_erase key
    · obtain ⟨before, after, hfiled, hset⟩ := hk.filed_set key
      rw [hfiled, hset]
      exact ((List.Sublist.refl before).append (List.eraseIdx_sublist _ _)).append (List.Sublist.refl after)

theorem dropAt_nil (key : String) (i : Int) : dropAt [] key i = [] := by
  unfold Archive.dropAt
  have hout : (decide (i < 0) || decide ((((get [] key).length : Nat) : Int) ≤ i)) = true := by
    rw [Bool.or_eq_true, decide_eq_true_eq, decide_eq_true_eq]
    change i < 0 ∨ (0 : Int) ≤ i
    omega
  rw [if_pos hout]

theorem Keyed.perm_flattened (hk : m.Keyed) : m.flattened.Perm m.filed := by
  have hget : (m.map (·.1)).flatMap (fun k => m.get k) = m.filed := by
    rw [List.flatMap_map]
    exact List.flatMap_congr (fun e he => hk.get_eq he)
  rw [← hget]
  exact (List.perm_insertionSort _ _).flatMap_right _

end Archive

/-! ## The instance -/

namespace ControlState

/-- The records of the open scopes. -/
def inScopes (s : ControlState) : List CompensationRecord := s.scopes.flatMap (·.compensations)

/-- The records of the instance. -/
def held (s : ControlState) : List CompensationRecord := s.rootCompensations ++ (s.inScopes ++ s.archivedCompensations.filed)

end ControlState

/-- The list of one scope among the others. -/
theorem updateFirst_append_of_find {α : Type} {p : α → Bool} {l : List α} {a : α} (h : l.find? p = some a) :
    ∃ before after, l = before ++ a :: after ∧ ∀ f, updateFirst p f l = before ++ f a :: after := by
  induction l with
  | nil => cases h
  | cons b l ih =>
    cases hb : p b with
    | true =>
      rw [List.find?_cons_of_pos hb] at h
      cases h
      refine ⟨[], l, rfl, fun f => ?_⟩
      unfold updateFirst
      rw [if_pos hb]
      rfl
    | false =>
      rw [List.find?_cons_of_neg (by rw [hb]; exact Bool.false_ne_true)] at h
      obtain ⟨before, after, rfl, hf⟩ := ih h
      refine ⟨b :: before, after, rfl, fun f => ?_⟩
      unfold updateFirst
      rw [if_neg (by rw [hb]; exact Bool.false_ne_true), hf]
      rfl

theorem updateFirst_of_none {α : Type} {p : α → Bool} {l : List α} (h : l.find? p = none) (f : α → α) :
    updateFirst p f l = l := by
  induction l with
  | nil => rfl
  | cons b l ih =>
    rw [List.find?_eq_none, List.forall_mem_cons] at h
    unfold updateFirst
    rw [if_neg h.1, ih (List.find?_eq_none.mpr h.2)]

theorem subperm_of_count {l l' : List CompensationRecord} (h : ∀ rec, l.count rec ≤ l'.count rec) : l.Subperm l' :=
  List.subperm_ext_iff.mpr (fun rec _ => h rec)

namespace ControlState

theorem partition_count (s : ControlState) (scopeID : String) (records : List CompensationRecord) (rec : CompensationRecord) :
    (s.partitionForLiveWalk scopeID records).1.count rec ≤ records.count rec := by
  unfold partitionForLiveWalk
  split
  · exact le_rfl
  · dsimp only
    rw [List.count_append]
    calc _ ≤ (records.take (min s.compensating.startRecordCount.toNat records.length)).count rec +
          (records.drop (min s.compensating.startRecordCount.toNat records.length)).count rec :=
        Nat.add_le_add_right ((List.take_sublist_take_left (Nat.min_le_right _ _)).count_le rec) _
      _ = records.count rec := by rw [← List.count_append, List.take_append_drop]

theorem archivedWith_count (s : ControlState) (hk : s.archivedCompensations.Keyed) (scope : Scope)
    (records : List CompensationRecord) (rec : CompensationRecord) :
    (s.archivedWith scope records).filed.count rec = s.archivedCompensations.filed.count rec + records.count rec := by
  unfold archivedWith
  split
  · rename_i hempty
    rw [List.isEmpty_iff.mp hempty, List.count_nil, Nat.add_zero]
  · obtain ⟨before, after, hfiled, hset⟩ := hk.filed_set scope.nodeID
    rw [hset, hfiled]
    simp only [List.count_append]
    omega

end ControlState

/-- Every record is in the root's list. -/
def Flat (s : ControlState) : Prop := s.inScopes = [] ∧ s.archivedCompensations = []

/-- No record comes in, and the root's list stays in order. -/
structure Files (s s' : ControlState) : Prop where
  recorded : s'.recorded = s.recorded
  keyed : Refiles s s'
  held : s.archivedCompensations.Keyed → s'.held.Subperm s.held
  root : s'.rootCompensations.Sublist s.rootCompensations ∨ s'.rootCompensations.Pairwise CompensationRecord.le
  flat : Flat s → Flat s' ∧ s'.rootCompensations.Sublist s.rootCompensations

namespace Files
variable {s s' : ControlState}

theorem trans {s1 s2 s3 : ControlState} (h : Files s1 s2) (h' : Files s2 s3) : Files s1 s3 where
  recorded := h'.recorded.trans h.recorded
  keyed := h.keyed.trans h'.keyed
  held := fun hk => (h'.held (h.keyed hk)).trans (h.held hk)
  root := by
    rcases h'.root with hsub | hsorted
    · rcases h.root with hsub' | hsorted
      · exact .inl (hsub.trans hsub')
      · exact .inr (hsorted.sublist hsub)
    · exact .inr hsorted
  flat := fun hflat => by
    obtain ⟨hmid, hsub⟩ := h.flat hflat
    obtain ⟨hlast, hsub'⟩ := h'.flat hmid
    exact ⟨hlast, hsub'.trans hsub⟩

/-- Records that go from the lists. -/
theorem of_sublists (hrec : s'.recorded = s.recorded) (hroot : s'.rootCompensations.Sublist s.rootCompensations)
    (hscoped : s'.inScopes.Sublist s.inScopes) (harch : s'.archivedCompensations = s.archivedCompensations) : Files s s' where
  recorded := hrec
  keyed := Refiles.same harch
  held := fun _ => by
    unfold ControlState.held
    rw [harch]
    exact (hroot.append (hscoped.append (List.Sublist.refl _))).subperm
  root := .inl hroot
  flat := fun hflat => ⟨⟨List.sublist_nil.mp (hflat.1 ▸ hscoped), harch.trans hflat.2⟩, hroot⟩

theorem same (hrec : s'.recorded = s.recorded) (hroot : s'.rootCompensations = s.rootCompensations)
    (hscopes : s'.scopes = s.scopes) (harch : s'.archivedCompensations = s.archivedCompensations) : Files s s' := by
  refine of_sublists hrec (hroot ▸ List.Sublist.refl _) ?_ harch
  unfold inScopes
  rw [hscopes]

/-- Records that go from the archive. -/
theorem of_archive (hrec : s'.recorded = s.recorded) (hroot : s'.rootCompensations = s.rootCompensations)
    (hscopes : s'.scopes = s.scopes) (hkeyed : Refiles s s')
    (hfiled : s.archivedCompensations.Keyed → s'.archivedCompensations.filed.Sublist s.archivedCompensations.filed)
    (hnil : s.archivedCompensations = [] → s'.archivedCompensations = []) : Files s s' where
  recorded := hrec
  keyed := hkeyed
  held := fun hk => by
    unfold ControlState.held inScopes
    rw [hroot, hscopes]
    exact ((List.Sublist.refl _).append ((List.Sublist.refl _).append (hfiled hk))).subperm
  root := .inl (hroot ▸ List.Sublist.refl _)
  flat := fun hflat => by
    refine ⟨⟨?_, hnil hflat.2⟩, hroot ▸ List.Sublist.refl _⟩
    unfold inScopes
    rw [hscopes]
    exact hflat.1

theorem filterScopes (p : Scope → Bool) : Files s { s with scopes := s.scopes.filter p } :=
  of_sublists rfl (List.Sublist.refl _) (List.filter_sublist.flatMap _) rfl

theorem closeScope (s : ControlState) (id : String) : Files s (s.closeScope id) := by
  unfold ControlState.closeScope
  split
  · exact same rfl rfl rfl rfl
  · exact filterScopes _

theorem archive (s : ControlState) (id : String) : Files s (s.archiveCompensations id) where
  recorded := s.recorded_archiveCompensations id
  keyed := Refiles.archive s id
  held := fun hk => by
    unfold ControlState.archiveCompensations
    split
    · exact List.Subperm.refl _
    · rename_i scope hscope
      split
      · exact List.Subperm.refl _
      · obtain ⟨before, after, hscopes, hset⟩ := updateFirst_append_of_find hscope
        have hpart := s.partition_count id scope.compensations
        have hfiled := s.archivedWith_count hk scope (s.partitionForLiveWalk id scope.compensations).1
        refine subperm_of_count (fun rec => ?_)
        change (s.rootCompensations ++ ((updateFirst _ (fun sc => { sc with compensations := [] }) s.scopes).flatMap
          (·.compensations) ++ (s.archivedWith scope _).filed)).count rec ≤
            (s.rootCompensations ++ (s.scopes.flatMap (·.compensations) ++ _)).count rec
        rw [hset, hscopes]
        simp only [List.flatMap_append, List.flatMap_cons, List.count_append, List.count_nil, hfiled rec]
        have hle := hpart rec
        omega
  root := by
    unfold ControlState.archiveCompensations
    split
    · exact .inl (List.Sublist.refl _)
    · split
      · exact .inl (List.Sublist.refl _)
      · exact .inl (List.Sublist.refl _)
  flat := fun hflat => by
    unfold ControlState.archiveCompensations
    split
    · exact ⟨hflat, List.Sublist.refl _⟩
    · rename_i scope hscope
      have hnone : scope.compensations = [] := List.flatMap_eq_nil_iff.mp hflat.1 scope (List.mem_of_find?_eq_some hscope)
      rw [if_pos (List.isEmpty_iff.mpr hnone)]
      exact ⟨hflat, List.Sublist.refl _⟩

theorem archiveAll (ids : List String) (s : ControlState) : Files s (s.archiveAll ids) := by
  induction ids generalizing s with
  | nil => exact same rfl rfl rfl rfl
  | cons id ids ih => exact (archive s id).trans (ih _)

theorem consolidate (s : ControlState) : Files s s.consolidateArchiveIntoRoot where
  recorded := s.recorded_consolidateArchiveIntoRoot
  keyed := Refiles.consolidate s
  held := fun hk => by
    unfold consolidateArchiveIntoRoot
    split
    · exact List.Subperm.refl _
    · refine subperm_of_count (fun rec => ?_)
      have hsort := (List.perm_insertionSort CompensationRecord.le
        (s.rootCompensations ++ s.archivedCompensations.flattened)).count_eq rec
      have hflat := hk.perm_flattened.count_eq rec
      change (List.insertionSort _ _ ++ (s.inScopes ++ [])).count rec ≤ (s.rootCompensations ++ (s.inScopes ++ _)).count rec
      simp only [List.count_append, List.count_nil] at hsort ⊢
      omega
  root := by
    unfold consolidateArchiveIntoRoot
    split
    · exact .inl (List.Sublist.refl _)
    · exact .inr (List.pairwise_insertionSort _ _)
  flat := fun hflat => by
    unfold consolidateArchiveIntoRoot
    rw [if_pos (List.isEmpty_iff.mpr hflat.2)]
    exact ⟨hflat, List.Sublist.refl _⟩

theorem removeToken (s : ControlState) (id : String) : Files s (s.removeToken id) := by
  obtain ⟨p, he, -⟩ := s.removeToken_shape id
  rw [he]
  exact same rfl rfl rfl rfl

theorem cancelToken (s : ControlState) (tok : Token) (at_ : Time) (kind : CloseKind) :
    Files s (s.cancelToken tok at_ kind) := by
  have hrec := s.recorded_cancelToken tok at_ kind
  rcases s.cancelToken_shape tok at_ kind with he | ⟨t, -, -, -, h, -, he⟩
  · rw [he]
    exact same rfl rfl rfl rfl
  · rw [he] at hrec ⊢
    exact same hrec rfl rfl rfl

theorem cancelListed (at_ : Time) (kind : CloseKind) (toks : List Token) (s : ControlState) :
    Files s (s.cancelListed at_ kind toks) := by
  induction toks generalizing s with
  | nil => exact same rfl rfl rfl rfl
  | cons tok toks ih => exact (cancelToken s tok at_ kind).trans (ih _)

theorem sweep (h : Sweep s s') : Files s s' := by
  cases h with
  | archive id => exact archive s id
  | cancel tok at_ kind => exact cancelToken s tok at_ kind
  | consolidate => exact consolidate s

theorem sweeps (h : Sweeps s s') : Files s s' := by
  induction h with
  | refl => exact same rfl rfl rfl rfl
  | tail _ hstep ih => exact ih.trans (sweep hstep)

theorem dropArchiveRecordAt (s : ControlState) (key : String) (i : Int) : Files s (s.dropArchiveRecordAt key i) :=
  of_archive rfl rfl rfl (fun hk => hk.dropAt key i) (fun hk => hk.filed_dropAt key i) (fun hnil => by
    change s.archivedCompensations.dropAt key i = []
    rw [hnil, Archive.dropAt_nil])

theorem dropArchiveWindow (key : String) (off : Int) (n : Nat) (s : ControlState) :
    Files s (Wrkflw.dropArchiveWindow key off n s) := by
  induction n generalizing s with
  | zero => exact same rfl rfl rfl rfl
  | succ n ih => exact (dropArchiveRecordAt s key (off + n)).trans (ih _)

/-- A list of a scope is cut down. -/
theorem mapRecords (s : ControlState) (scopeID : String) {f : List CompensationRecord → List CompensationRecord}
    (hf : ∀ records, (f records).Sublist records) : Files s (s.mapRecords scopeID f) := by
  unfold ControlState.mapRecords
  split
  · exact of_sublists rfl (hf _) (List.Sublist.refl _) rfl
  · refine of_sublists rfl (List.Sublist.refl _) ?_ rfl
    unfold setCompensations inScopes
    cases hfind : scopeByID s.scopes scopeID with
    | none =>
      dsimp only
      rw [updateFirst_of_none hfind]
    | some scope =>
      obtain ⟨before, after, hscopes, hset⟩ := updateFirst_append_of_find hfind
      dsimp only
      rw [hset, hscopes, List.flatMap_append, List.flatMap_append, List.flatMap_cons, List.flatMap_cons]
      exact (List.Sublist.refl _).append ((hf _).append (List.Sublist.refl _))

theorem clearing (plan : FinishPlan) (s : ControlState) : Files s (applyPlanRecordClearing plan s) := by
  have hprefix := mapRecords s plan.clearScope (fun records => List.drop_sublist plan.drainedCount.toNat records)
  unfold applyPlanRecordClearing
  split
  · exact same rfl rfl rfl rfl
  · split
    · dsimp only
      split
      · exact hprefix
      · exact hprefix.trans (dropArchiveWindow _ _ _ _)
    · exact mapRecords s _ (fun records => List.nil_sublist records)

theorem deleted (plan : FinishPlan) (s : ControlState) : Files s (applyDeleteArchive plan s) := by
  unfold applyDeleteArchive
  split
  · exact of_archive rfl rfl rfl (fun hk => hk.erase _) (fun _ => Archive.filed_erase _ _) (fun hnil => by
      change s.archivedCompensations.erase _ = []
      rw [hnil]
      rfl)
  · exact same rfl rfl rfl rfl

theorem dispatch (s : ControlState) (cur : CompensationCursor) (idx : Int) (rec : CompensationRecord) (cmdID : String) :
    Files s (s.dispatch cur idx rec cmdID) := by
  have hdrop : Files { s with compensating := cur } ({ s with compensating := cur }.consumeDispatchedRecord idx) := by
    unfold consumeDispatchedRecord
    dsimp only
    split
    · exact same rfl rfl rfl rfl
    · split
      · exact dropArchiveRecordAt _ _ _
      · split
        · exact same rfl rfl rfl rfl
        · exact (dropArchiveRecordAt { s with compensating := cur } _ _).trans (same rfl rfl rfl rfl)
  have hbefore : Files s { s with compensating := cur } := same rfl rfl rfl rfl
  exact (hbefore.trans hdrop).trans (same rfl rfl rfl rfl)

theorem popOne (s : ControlState) : Files s s.popOneDeferredThrow := by
  unfold popOneDeferredThrow
  split
  · exact same rfl rfl rfl rfl
  · dsimp only
    split
    · exact same rfl rfl rfl rfl
    · exact same rfl rfl rfl rfl

theorem resume (g : IDGenerator) (at_ : Time) (plan : FinishPlan) (s : ControlState) :
    Files s (resumeControl g at_ plan s) := by
  have hclear : Files s ({ applyPlanRecordClearing plan s with status := .running }.note
      (.resumed plan.popDeferred s.deferredCompensationThrows)) := (clearing plan s).trans (same rfl rfl rfl rfl)
  refine hclear.trans ?_
  unfold resumeControl
  dsimp only
  generalize ({ applyPlanRecordClearing plan s with status := .running }.note
    (.resumed plan.popDeferred s.deferredCompensationThrows)) = s1
  have hplace : Files s1 (if resumeDropped plan s1 then s1
      else s1.placeTokenInScope g plan.resumeAt plan.resumeScope plan.resumeFlow at_) := by
    split
    · exact same rfl rfl rfl rfl
    · exact same rfl rfl rfl rfl
  split
  · exact hplace.trans (popOne _)
  · exact hplace

theorem takePending (plan : FinishPlan) (s : ControlState) : Files s (Wrkflw.takePending plan s) := by
  have hreset : Files s { s with pendingCancel := false, pendingFinalStatus := .running, pendingFinalErr := "" } :=
    same rfl rfl rfl rfl
  exact (hreset.trans (clearing plan _)).trans (same rfl rfl rfl rfl)

theorem endControl (s : ControlState) (st : Status) (err : String) : Files s (s.endControl st err) := by
  have hst : Files s { s with status := st } := same rfl rfl rfl rfl
  refine (hst.trans (archiveAll _ _)).trans (of_sublists rfl (List.Sublist.refl _) ?_ rfl)
  exact List.nil_sublist _

theorem parkedOn {p : ControlState} {node : Node} {scopeID : String} (h : ParkedOn s p node scopeID) : Files s p := by
  rcases h with rfl | ⟨tok, -, -, -, -, rfl⟩
  · exact same rfl rfl rfl rfl
  · exact same rfl rfl rfl rfl

/-- A walk that is given up: the records it did not reach are put back behind the end. -/
theorem abandoned (s : ControlState) (scopeID : String) (n : Int) (st : Status) (err : String) :
    Files s (((s.settled.clearRecords scopeID).endControl st err).setScopeRecords scopeID
      (s.retainedRecordPrefix scopeID n)) := by
  have hset : Files s s.settled := same rfl rfl rfl rfl
  have hended : Files s ((s.settled.clearRecords scopeID).endControl st err) :=
    (hset.trans (mapRecords _ scopeID (fun records => List.nil_sublist records))).trans (endControl _ st err)
  unfold setScopeRecords retainedRecordPrefix compensationRecordsForScope
  by_cases hroot : (scopeID == "") = true
  · have hrest := endControl (s.settled.clearRecords scopeID) st err
    have hcleared : s.settled.clearRecords scopeID = { s.settled with rootCompensations := [] } := by
      unfold clearRecords ControlState.mapRecords
      rw [if_pos hroot]
    rw [if_pos hroot]
    unfold ControlState.mapRecords
    rw [if_pos hroot]
    refine ⟨hended.recorded, hended.keyed, fun hk => subperm_of_count (fun rec => ?_), .inl (List.take_sublist _ _),
      fun hflat => ?_⟩
    rotate_left
    · exact ⟨(hended.flat hflat).1, List.take_sublist _ _⟩
    have hle := (hrest.held (by rw [hcleared]; exact hk)).count_le rec
    have htake := (List.take_sublist n.toNat s.rootCompensations).count_le rec
    rw [hcleared] at hle ⊢
    generalize { s.settled with rootCompensations := [] }.endControl st err = e at hle ⊢
    change (e.rootCompensations ++ (e.inScopes ++ e.archivedCompensations.filed)).count rec ≤
      ([] ++ (s.inScopes ++ s.archivedCompensations.filed)).count rec at hle
    change (s.rootCompensations.take n.toNat ++ (e.inScopes ++ e.archivedCompensations.filed)).count rec ≤
      (s.rootCompensations ++ (s.inScopes ++ s.archivedCompensations.filed)).count rec
    simp only [List.count_append, List.nil_append] at hle ⊢
    omega
  · -- the end has closed the scope
    have hclosed : ((s.settled.clearRecords scopeID).endControl st err).scopes = [] := rfl
    refine hended.trans ?_
    generalize (s.settled.clearRecords scopeID).endControl st err = e at hclosed ⊢
    unfold ControlState.mapRecords
    rw [if_neg hroot]
    refine same rfl rfl ?_ rfl
    unfold setCompensations
    rw [hclosed]
    rfl

end Files

section Moves
variable {top : ProcessDefinition} {g : IDGenerator} {trg : TriggerBody} {s s' : ControlState}

/-- The record is noted and joins a list, or the scope is gone and nothing happens. -/
theorem recordCompensation_cases (s : ControlState) (scope : String) (rec : CompensationRecord) :
    s.recordCompensation scope rec = s ∨
      ((s.recordCompensation scope rec).recorded = rec :: s.recorded ∧
        (s.recordCompensation scope rec).archivedCompensations = s.archivedCompensations ∧
        (∀ r, (s.recordCompensation scope rec).held.count r = (rec :: s.held).count r) ∧
        ((s.recordCompensation scope rec).rootCompensations = s.rootCompensations ++ [rec] ∨
          (s.recordCompensation scope rec).rootCompensations = s.rootCompensations)) := by
  unfold recordCompensation
  split
  · refine .inr ⟨rfl, rfl, fun r => ?_, .inl rfl⟩
    change ((s.rootCompensations ++ [rec]) ++ (s.inScopes ++ s.archivedCompensations.filed)).count r = (rec :: s.held).count r
    unfold held
    simp only [List.count_append, List.count_cons, List.count_nil]
    omega
  · cases hfind : scopeByID s.scopes scope with
    | none => exact .inl rfl
    | some sc =>
      refine .inr ⟨rfl, rfl, fun r => ?_, .inr rfl⟩
      obtain ⟨before, after, hscopes, hset⟩ := updateFirst_append_of_find hfind
      change (s.rootCompensations ++ ((updateFirst _ _ s.scopes).flatMap (·.compensations) ++
        s.archivedCompensations.filed)).count r = (rec :: s.held).count r
      unfold held inScopes
      rw [hset, hscopes]
      simp only [List.flatMap_append, List.flatMap_cons, List.count_append, List.count_cons, List.count_nil]
      omega

/-- A move records, or brings no record in. -/
theorem Move.files (hmove : Move top g trg s s') :
    Files s s' ∨ ∃ scope rec, s.Forward ∧ s' = s.recordCompensation scope rec := by
  have hset : Files s s.settled := Files.same rfl rfl rfl rfl
  cases hmove with
  | record scope rec hfwd hhist => exact .inr ⟨scope, rec, hfwd, rfl⟩
  | consume tok hmem hfree => exact .inl (Files.removeToken s tok.id)
  | cancel tok at_ kind => exact .inl (Files.cancelToken s tok at_ kind)
  | park p d node scopeID kind at_ hp hsite hkind hnone => exact .inl (Files.parkedOn hp)
  | fireParallel p d node scopeID consumed hp hsite hmatch =>
      exact .inl ((Files.parkedOn hp).trans (Files.same rfl rfl rfl rfl))
  | fireInclusive p d node scopeID consumed hp hsite htok hsub hcons =>
    exact .inl ((Files.parkedOn hp).trans (Files.same rfl rfl rfl rfl))
  | openScope node parent hfwd hparent hopens =>
    refine .inl (Files.of_sublists rfl (List.Sublist.refl _) ?_ rfl)
    change (List.flatMap _ (s.scopes ++ [_])).Sublist _
    rw [List.flatMap_append]
    change (_ ++ []).Sublist _
    rw [List.append_nil]
    exact List.Sublist.refl _
  | teardown scope => exact .inl ((Files.archiveAll _ s).trans (Files.closeScope _ scope))
  | interrupt scope =>
    exact .inl (((Files.archiveAll (s.subtreeIDs scope) s).trans (Files.filterScopes _)).trans (Files.same rfl rfl rfl rfl))
  | exit scope enclosing hne htok hchild hhold =>
    have hnote : Files s (s.note (.exited scope enclosing s.tokens s.scopes s.compensating)) := Files.same rfl rfl rfl rfl
    exact .inl ((hnote.trans (Files.archive _ scope)).trans (Files.closeScope _ scope))
  | sweep s' hidle hsweep => exact .inl (Files.sweep hsweep)
  | throwWalk tok at_ cur rec hthrow hfwd hidle hcur =>
    have hcons : Files s { s.mintCommand.consumeToken tok at_ with status := .compensating } := by
      have hmint : Files s s.mintCommand := Files.same rfl rfl rfl rfl
      obtain ⟨v, -, he⟩ := s.mintCommand.consumeTokenAs_shape tok at_ .normal
      unfold consumeToken
      rw [he]
      exact (hmint.trans (Files.removeToken s.mintCommand tok.id)).trans (Files.same rfl rfl rfl rfl)
    exact .inl (hcons.trans (Files.dispatch _ _ _ _ _))
  | next rec hflight hans hpos hto hrec =>
    have hmint : Files s s.mintCommand := Files.same rfl rfl rfl rfl
    exact .inl (hmint.trans (Files.dispatch _ _ _ _ _))
  | resume cur at_ hfin hres hpend hscope => exact .inl ((hset.trans (Files.deleted _ _)).trans (Files.resume g at_ _ _))
  | pendingWalk cur at_ p rec hfin hcons hpend hsweep hclear hrec =>
    have hswept : Files s p := ((hset.trans (Files.deleted _ _)).trans (Files.takePending _ _)).trans (Files.sweeps hsweep)
    exact .inl (hswept.trans (Files.same rfl rfl rfl rfl))
  | _ => exact .inl (Files.same rfl rfl rfl rfl)

theorem End.files (hend : End trg s s') : Files s s' := by
  have hset : Files s s.settled := Files.same rfl rfl rfl rfl
  have hcleared : ∀ scope, Files s (s.settled.clearRecords scope) := fun scope =>
    hset.trans (Files.mapRecords _ scope (fun records => List.nil_sublist records))
  cases hend with
  | complete hlive hdrained => exact Files.endControl s _ _
  | idle st err hlive hidle hst => exact Files.endControl s _ _
  | childFailed err hlive htok =>
    have hnote : Files s (s.note (.childFailed err s.compensating)) := Files.same rfl rfl rfl rfl
    exact hnote.trans (Files.endControl _ _ _)
  | forced outcome at_ err hlive htok =>
    have hnote : Files s (s.note (.forced outcome s.pendingCancel)) := Files.same rfl rfl rfl rfl
    exact (hnote.trans (Files.cancelListed at_ .terminated s.tokens _)).trans (Files.endControl _ _ _)
  | terminate cur hfin hmode => exact (hcleared _).trans (Files.endControl _ _ _)
  | abandon hflight hans hmode => exact Files.abandoned s _ _ _ _
  | pending cur p hfin hcons hpend hsweep hclear hnone =>
    exact (((hset.trans (Files.deleted _ _)).trans (Files.takePending _ _)).trans (Files.sweeps hsweep)).trans
      (Files.endControl _ _ _)

end Moves

/-! ## The order of recording -/

/-- Recorded in ascending order of completion, of two of one moment in the order of the node ids; the latest stands first. -/
def Ascends (recorded : List CompensationRecord) : Prop := recorded.Pairwise (fun later earlier => ¬ later.le earlier)

instance (recorded : List CompensationRecord) : Decidable (Ascends recorded) :=
  inferInstanceAs (Decidable (List.Pairwise _ recorded))

/-- The record is the other one or above it. -/
def CompensationRecord.After (a b : CompensationRecord) : Prop := a = b ∨ ¬ a.le b

instance : Std.Antisymm CompensationRecord.After where
  antisymm a b := by
    rintro (rfl | hab) (heq | hba)
    · rfl
    · rfl
    · exact heq.symm
    · exact ((Std.Total.total (r := CompensationRecord.le) a b).elim hab hba).elim

/-- Two records that are one, or not of one moment and one node. -/
def CompensationRecord.Apart (a b : CompensationRecord) : Prop := a = b ∨ ¬ a.le b ∨ ¬ b.le a

instance : Std.Symm CompensationRecord.Apart where
  symm a b := by
    rintro (rfl | h | h)
    · exact .inl rfl
    · exact .inr (.inr h)
    · exact .inr (.inl h)

/-- A sorted list of records that were recorded in ascending order is in the order of recording. -/
theorem Ascends.reversed {recorded l : List CompensationRecord} (h : Ascends recorded) (hsub : l.Subperm recorded)
    (hsorted : l.Pairwise CompensationRecord.le) : l.reverse.Sublist recorded := by
  have happart : ∀ a ∈ recorded, ∀ b ∈ recorded, a.Apart b :=
    List.Pairwise.forall_of_forall (fun _ _ => .inl rfl) (h.imp (fun hle => .inr (.inl hle)))
  refine List.sublist_of_subperm_of_pairwise (r := CompensationRecord.After) ((List.reverse_perm l).subperm_right.mpr hsub) ?_
    (h.imp .inr)
  rw [List.pairwise_reverse]
  refine hsorted.imp_of_mem (fun {a b} ha hb hle => ?_)
  rcases happart b (hsub.subset hb) a (hsub.subset ha) with heq | hnot | hnot
  · exact .inl heq
  · exact .inr hnot
  · exact absurd hle hnot

/-- The root's list is in the order of recording. -/
structure Reversed (s : ControlState) : Prop where
  keyed : s.archivedCompensations.Keyed
  held : s.held.Subperm s.recorded
  root : Ascends s.recorded → s.rootCompensations.reverse.Sublist s.recorded

theorem Files.reversed {s s' : ControlState} (hf : Files s s') (h : Reversed s) : Reversed s' := by
  have hheld : s'.held.Subperm s'.recorded := by
    rw [hf.recorded]
    exact (hf.held h.keyed).trans h.held
  refine ⟨hf.keyed h.keyed, hheld, fun hasc => ?_⟩
  rcases hf.root with hsub | hsorted
  · rw [hf.recorded] at hasc ⊢
    exact hsub.reverse.trans (h.root hasc)
  · exact hasc.reversed ((List.sublist_append_left _ _).subperm.trans hheld) hsorted

theorem Reversed.record {s : ControlState} (h : Reversed s) (scope : String) (rec : CompensationRecord) :
    Reversed (s.recordCompensation scope rec) := by
  rcases recordCompensation_cases s scope rec with heq | ⟨hrec, harch, hheld, hroot⟩
  · rw [heq]
    exact h
  · refine ⟨harch ▸ h.keyed, ?_, fun hasc => ?_⟩
    · rw [hrec]
      exact (subperm_of_count (fun r => (hheld r).le)).trans ((List.subperm_cons rec).mpr h.held)
    · rw [hrec] at hasc ⊢
      have hsub := h.root (List.pairwise_cons.mp hasc).2
      rcases hroot with hroot | hroot
      · rw [hroot, List.reverse_append]
        exact hsub.cons_cons rec
      · rw [hroot]
        exact hsub.cons rec

theorem Run.reversed {d : ProcessDefinition} {gen : Option IDGenerator} {inst : String} {calls : List Call}
    {x : InstanceState} (hrun : Run d gen inst calls x) : Reversed x.toControlState := by
  refine Run.induction (I := Reversed) (P := fun _ => True) (C := fun _ => True) hrun (fun _ _ => trivial)
    (fun _ _ => trivial)
    ⟨List.nodup_nil, List.Subperm.refl _, fun _ => List.Sublist.refl _⟩ ?_ (fun _ _ _ h hend => hend.files.reversed h)
  intro trg s s' hwf _ _ h hmove
  rcases hmove.files with hf | ⟨scope, rec, -, rfl⟩
  · exact hf.reversed h
  · exact h.record scope rec

/-- In a run that opens no scope every record goes to the end of the root's list. -/
theorem Run.flat {d : ProcessDefinition} {gen : Option IDGenerator} {inst : String} {calls : List Call} {x : InstanceState}
    (hrun : Run d gen inst calls x) (hplain : ∀ e ∈ x.trace, e.OpensNothing) :
    Flat x.toControlState ∧ x.rootCompensations.reverse.Sublist x.recorded := by
  refine Run.induction (I := fun s => Flat s ∧ s.rootCompensations.reverse.Sublist s.recorded) (P := fun _ => True)
    (C := Event.OpensNothing) hrun (fun _ _ => trivial) hplain ⟨⟨rfl, rfl⟩, List.Sublist.refl _⟩ ?_ ?_
  · intro trg s s' hwf _ hnone ⟨hflat, hroot⟩ hmove
    rcases hmove.files with hf | ⟨scope, rec, -, rfl⟩
    · obtain ⟨hflat', hsub⟩ := hf.flat hflat
      rw [hf.recorded]
      exact ⟨hflat', hsub.reverse.trans hroot⟩
    · -- without a scope the record is the root's
      have hkept : s.trace ⊆ (s.recordCompensation scope rec).trace := by
        unfold recordCompensation
        split
        · exact List.subset_cons_self _ _
        · split
          · exact List.Subset.refl _
          · exact List.subset_cons_self _ _
      have hscopes : s.scopes = [] := by
        refine List.eq_nil_iff_forall_not_mem.mpr (fun sc hsc => ?_)
        exact hnone _ (hkept (hwf.names.scopes.noted sc hsc))
      unfold recordCompensation
      split
      · refine ⟨hflat, ?_⟩
        change (s.rootCompensations ++ [rec]).reverse.Sublist (rec :: s.recorded)
        rw [List.reverse_append]
        exact hroot.cons_cons rec
      · rw [hscopes]
        exact ⟨hflat, hroot⟩
  · intro trg s s' hwf _ _ ⟨hflat, hroot⟩ hend
    obtain ⟨hflat', hsub⟩ := hend.files.flat hflat
    rw [hend.files.recorded]
    exact ⟨hflat', hsub.reverse.trans hroot⟩

end Wrkflw
