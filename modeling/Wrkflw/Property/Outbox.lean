import Wrkflw.Store.Outbox

/-!
# No row of the outbox holds up the others

Every row should be read with the reference it was written with, and a drain should settle each row it claims by its own
outcome. A pinned reference whose id has a colon cannot be read, and the scan of a batch fails as a whole: `each_row_counts`
says that this is the only thing in the way.
-/

namespace Wrkflw

/-- What is done to the table. -/
inductive OutboxOp where
  | write (instanceID : String) (seq : Int) (events : List OutboxEvent) (createdAt : Time)
  | drain (relay : Relay) (now : Time) (publish : OutboxEvent → Option String)

def OutboxOp.apply (rows : List OutboxRow) : OutboxOp → List OutboxRow
  | .write instanceID seq events createdAt => writeOutbox rows instanceID seq events createdAt
  | .drain relay now publish =>
    match drainOnce relay now publish rows with
    | .ok (_, rows') => rows'
    | .error _ => rows

def outboxAfter (ops : List OutboxOp) : List OutboxRow := ops.foldl OutboxOp.apply []

/-- The events of a write, with their instance and the keys they get, from number `i` on. -/
def keyedFrom (instanceID : String) (seq : Int) : Nat → List OutboxEvent → List OutboxEvent
  | _, [] => []
  | i, ev :: events =>
    { ev with dedupKey := dedupKeyOf instanceID seq i, instanceID := instanceID } :: keyedFrom instanceID seq (i + 1) events

/-- The events an operation writes. -/
def OutboxOp.events : OutboxOp → List OutboxEvent
  | .write instanceID seq events _ => keyedFrom instanceID seq 0 events
  | .drain .. => []

/-- Everything that was written. -/
def eventsOf (ops : List OutboxOp) : List OutboxEvent := ops.flatMap OutboxOp.events

/-- What the outcome of a row's own event makes of it. -/
def relayRow (r : Relay) (now : Time) (publish : OutboxEvent → Option String) (row : OutboxRow) : OutboxRow :=
  match scanClaimRow row with
  | .ok claim => r.settle now (publish claim.event) row
  | .error _ => row

/-- The event as it is read: a number of its payload comes back as a `float64`. -/
def OutboxEvent.reread (ev : OutboxEvent) : OutboxEvent :=
  { ev with payload := ev.payload.map (·.map (fun e => (e.1, e.2.decoded))) }

/-- Every row is read as it was written, and every drain settles each row it claims by its own outcome. -/
structure EachRowCounts (ops : List OutboxOp) : Prop where
  read : (outboxAfter ops).map (fun row => (scanClaimRow row).map (·.event)) = (eventsOf ops).map (fun ev => .ok ev.reread)
  drained : ∀ r now publish, ∃ n, drainOnce r now publish (outboxAfter ops) = .ok (n, (outboxAfter ops).map (fun row =>
    if (claimed r now (outboxAfter ops)).any (fun c => c.id == row.id) then relayRow r now publish row else row))

/-- The events refer to definitions that were admitted. -/
def Admitted (u : UnicodeTables) (ops : List OutboxOp) : Prop :=
  ∀ ev ∈ eventsOf ops, ∃ d, validateDefinition u d = .ok () ∧ ev.definitionRef = d.qualifier

/-! ## Rows keep what was written -/

/-- What a row was written with. -/
def OutboxRow.content (row : OutboxRow) : String × String × Library.Json Value × String × String :=
  (row.instanceID, row.topic, row.payload, row.dedupKey, row.definitionRef)

def OutboxEvent.content (ev : OutboxEvent) : String × String × Library.Json Value × String × String :=
  (ev.instanceID, ev.topic, marshalPayload ev.payload, ev.dedupKey, ev.definitionRef.toText)

section Rows
variable {rows : List OutboxRow} {r : Relay} {now : Time} {publish : OutboxEvent → Option String}

theorem Relay.settle_id (outcome : Option String) (row : OutboxRow) : (r.settle now outcome row).id = row.id := by
  cases outcome <;> rfl

theorem Relay.settle_content (outcome : Option String) (row : OutboxRow) :
    (r.settle now outcome row).content = row.content := by
  cases outcome <;> rfl

/-- The claims settle their rows, each row at most once. -/
theorem publishClaims_eq (claims : List ClaimRow) (hids : (claims.map (·.id)).Nodup) (n : Nat) (rows : List OutboxRow) :
    ∃ m, publishClaims r now publish claims n rows = (m, rows.map (fun row =>
      match claims.find? (fun c => c.id == row.id) with
      | some c => r.settle now (publish c.event) row
      | none => row)) := by
  induction claims generalizing n rows with
  | nil => exact ⟨n, by simp [publishClaims]⟩
  | cons c claims ih =>
    rw [List.map_cons, List.nodup_cons] at hids
    obtain ⟨m, hm⟩ := ih hids.2 (if (publish c.event).isNone then n + 1 else n)
      (rows.map (fun row => if row.id == c.id then r.settle now (publish c.event) row else row))
    refine ⟨m, ?_⟩
    unfold publishClaims
    dsimp only
    rw [hm, List.map_map]
    congr 1
    refine List.map_congr_left (fun row _ => ?_)
    rw [Function.comp_apply, List.find?_cons]
    by_cases hid : row.id = c.id
    · -- the row of this claim is no other claim's
      have hnone : claims.find? (fun c' => c'.id == (r.settle now (publish c.event) row).id) = none := by
        rw [List.find?_eq_none]
        intro c' hc' heq
        rw [Relay.settle_id, beq_iff_eq] at heq
        exact hids.1 (List.mem_map.mpr ⟨c', hc', heq.trans hid⟩)
      rw [if_pos (beq_iff_eq.mpr hid), hnone, beq_iff_eq.mpr hid.symm]
    · have hne : (c.id == row.id) = false := beq_eq_false_iff_ne.mpr (Ne.symm hid)
      rw [if_neg (by simpa using hid), hne]

/-- A drain leaves the ids and what was written. -/
theorem publishClaims_keeps (claims : List ClaimRow) (n : Nat) (rows : List OutboxRow) :
    (publishClaims r now publish claims n rows).2.map (fun row => (row.id, row.content)) =
      rows.map (fun row => (row.id, row.content)) := by
  induction claims generalizing n rows with
  | nil => rfl
  | cons c claims ih =>
    unfold publishClaims
    dsimp only
    rw [ih, List.map_map]
    refine List.map_congr_left (fun row _ => ?_)
    rw [Function.comp_apply]
    split
    · rw [Relay.settle_id, Relay.settle_content]
    · rfl

/-- The rows stand for the events, under the ids `1, 2, ..`. -/
structure Stands (rows : List OutboxRow) (events : List OutboxEvent) : Prop where
  content : rows.map (·.content) = events.map (·.content)
  ids : rows.map (·.id) = List.range' 1 rows.length

theorem Stands.write {events : List OutboxEvent} (h : Stands rows events) (instanceID : String) (seq : Int) (createdAt : Time)
    (i : Nat) (new : List OutboxEvent) :
    Stands (writeOutboxFrom rows instanceID seq createdAt i new) (events ++ keyedFrom instanceID seq i new) := by
  induction new generalizing rows events i with
  | nil =>
    unfold writeOutboxFrom keyedFrom
    rw [List.append_nil]
    exact h
  | cons ev new ih =>
    unfold writeOutboxFrom keyedFrom
    have hstep : Stands (rows ++ [outboxRow (rows.length + 1) instanceID seq i ev createdAt])
        (events ++ [{ ev with dedupKey := dedupKeyOf instanceID seq i, instanceID := instanceID }]) := by
      refine ⟨?_, ?_⟩
      · rw [List.map_append, List.map_append, h.content]
        rfl
      · rw [List.map_append, h.ids, List.length_append, List.length_singleton, List.range'_concat, Nat.one_mul,
          Nat.add_comm 1]
        rfl
    have hrest := ih hstep (i + 1)
    rw [List.append_assoc, List.singleton_append] at hrest
    exact hrest

theorem Stands.drain {events : List OutboxEvent} (h : Stands rows events) (r : Relay) (now : Time)
    (publish : OutboxEvent → Option String) : Stands (OutboxOp.apply rows (.drain r now publish)) events := by
  unfold OutboxOp.apply drainOnce
  dsimp only
  cases scanClaimRows (claimed r now rows) with
  | error err => exact h
  | ok claims =>
    have hkeeps := @publishClaims_keeps r now publish claims 0 rows
    have hlen : (publishClaims r now publish claims 0 rows).2.length = rows.length := by
      simpa using congrArg List.length hkeeps
    have hids := congrArg (List.map Prod.fst) hkeeps
    have hcontent := congrArg (List.map Prod.snd) hkeeps
    rw [List.map_map, List.map_map] at hids hcontent
    refine ⟨hcontent.trans h.content, ?_⟩
    dsimp only
    rw [hlen, ← h.ids]
    exact hids

theorem stands_after (ops : List OutboxOp) : Stands (outboxAfter ops) (eventsOf ops) := by
  have hgen : ∀ (rows : List OutboxRow) (events : List OutboxEvent), Stands rows events →
      Stands (ops.foldl OutboxOp.apply rows) (events ++ eventsOf ops) := by
    induction ops with
    | nil =>
      intro rows events h
      simpa [eventsOf] using h
    | cons op ops ih =>
      intro rows events h
      have hop : Stands (OutboxOp.apply rows op) (events ++ op.events) := by
        cases op with
        | write instanceID seq new createdAt => exact h.write instanceID seq createdAt 0 new
        | drain r now publish =>
          rw [OutboxOp.events, List.append_nil]
          exact h.drain r now publish
      have hrest := ih _ _ hop
      rw [List.append_assoc] at hrest
      exact hrest
  have hnil := hgen [] [] ⟨rfl, rfl⟩
  rwa [List.nil_append] at hnil

/-! ## Reading the rows -/

theorem unmarshal_marshalPayload (payload : Option Vars) : unmarshalPayload (marshalPayload payload) =
    .ok (payload.map (·.map (fun e => (e.1, e.2.decoded)))) := by
  cases payload with
  | none => rfl
  | some vars =>
    have hread : (vars.map (fun e => (e.1, Library.Json.any e.2))).mapM
        (fun e => (readValue e.2).map (fun v => (e.1, v))) = some (vars.map (fun e => (e.1, e.2.decoded))) := by
      induction vars with
      | nil => rfl
      | cons e vars ih =>
        rw [List.map_cons, List.mapM_cons, ih]
        rfl
    unfold marshalPayload unmarshalPayload
    dsimp only
    rw [hread]
    rfl

theorem scanClaimRow_event {row : OutboxRow} {ev : OutboxEvent} (h : row.content = ev.content) :
    (scanClaimRow row).map (·.event) = (parseDefRef ev.definitionRef.toText).map
      (fun q => { ev.reread with definitionRef := q }) ∨
      ∃ err err', scanClaimRow row = .error err ∧ parseDefRef ev.definitionRef.toText = .error err' := by
  unfold OutboxRow.content OutboxEvent.content at h
  simp only [Prod.mk.injEq] at h
  obtain ⟨hinst, htopic, hpayload, hkey, href⟩ := h
  unfold scanClaimRow
  rw [hpayload, unmarshal_marshalPayload, href]
  dsimp only
  cases parseDefRef ev.definitionRef.toText with
  | error err => exact Or.inr ⟨_, _, rfl, rfl⟩
  | ok q =>
    refine Or.inl ?_
    rw [hinst, htopic, hkey]
    rfl

theorem scanClaimRow_id {row : OutboxRow} {claim : ClaimRow} (h : scanClaimRow row = .ok claim) : claim.id = row.id := by
  unfold scanClaimRow at h
  split at h
  · cases h
  · split at h
    · cases h
    · rw [← Except.ok.inj h]

/-- Rows that can be read are claimed one by one. -/
theorem scanClaimRows_ok {rows : List OutboxRow} (h : ∀ row ∈ rows, ∃ claim, scanClaimRow row = .ok claim) :
    ∃ claims, scanClaimRows rows = .ok claims ∧ List.Forall₂ (fun row claim => scanClaimRow row = .ok claim) rows claims := by
  induction rows with
  | nil => exact ⟨[], rfl, .nil⟩
  | cons row rows ih =>
    obtain ⟨claim, hclaim⟩ := h row List.mem_cons_self
    obtain ⟨claims, hclaims, hall⟩ := ih (fun row' hrow' => h row' (List.mem_cons_of_mem _ hrow'))
    refine ⟨claim :: claims, ?_, .cons hclaim hall⟩
    unfold scanClaimRows
    rw [hclaim, hclaims]

theorem claims_ids {rows : List OutboxRow} {claims : List ClaimRow}
    (h : List.Forall₂ (fun row claim => scanClaimRow row = .ok claim) rows claims) :
    claims.map (·.id) = rows.map (·.id) := by
  induction h with
  | nil => rfl
  | cons hclaim _ ih => rw [List.map_cons, List.map_cons, ih, scanClaimRow_id hclaim]

/-- The claim under an id is that of the row under it. -/
theorem claims_find {rows : List OutboxRow} {claims : List ClaimRow}
    (h : List.Forall₂ (fun row claim => scanClaimRow row = .ok claim) rows claims) (id : Nat) :
    (rows.any (fun row => row.id == id) = false ∧ claims.find? (fun c => c.id == id) = none) ∨
      (rows.any (fun row => row.id == id) = true ∧
        ∃ row ∈ rows, row.id = id ∧ ∃ claim, scanClaimRow row = .ok claim ∧
        claims.find? (fun c => c.id == id) = some claim) := by
  induction h with
  | nil => exact Or.inl ⟨rfl, rfl⟩
  | @cons row claim rows claims hclaim _ ih =>
    rw [List.any_cons, List.find?_cons, scanClaimRow_id hclaim]
    by_cases hid : row.id = id
    · rw [beq_iff_eq.mpr hid]
      exact Or.inr ⟨rfl, row, List.mem_cons_self, hid, claim, hclaim, rfl⟩
    · rw [beq_eq_false_iff_ne.mpr hid, Bool.false_or]
      rcases ih with ⟨hany, hfind⟩ | ⟨hany, row', hrow', hid', claim', hclaim', hfind⟩
      · exact Or.inl ⟨hany, hfind⟩
      · exact Or.inr ⟨hany, row', List.mem_cons_of_mem _ hrow', hid', claim', hclaim', hfind⟩

/-- A drain of rows that can be read settles each row it claims by its own outcome. -/
theorem drainOnce_settles (hids : (rows.map (·.id)).Nodup) (hread : ∀ row ∈ rows, ∃ claim, scanClaimRow row = .ok claim)
    (r : Relay) (now : Time) (publish : OutboxEvent → Option String) :
    ∃ n, drainOnce r now publish rows = .ok (n, rows.map (fun row =>
      if (claimed r now rows).any (fun c => c.id == row.id) then relayRow r now publish row else row)) := by
  have hsub : (claimed r now rows).Sublist rows := (List.take_sublist _ _).trans List.filter_sublist
  obtain ⟨claims, hclaims, hall⟩ := scanClaimRows_ok (fun row hrow => hread row (hsub.subset hrow))
  have hnodup : (claims.map (·.id)).Nodup := by
    rw [claims_ids hall]
    exact (hsub.map _).nodup hids
  obtain ⟨n, hn⟩ := @publishClaims_eq r now publish claims hnodup 0 rows
  refine ⟨n, ?_⟩
  unfold drainOnce
  rw [hclaims]
  dsimp only
  rw [hn]
  congr 2
  refine List.map_congr_left (fun row hrow => ?_)
  rcases claims_find hall row.id with ⟨hany, hfind⟩ | ⟨hany, row', hrow', hid', claim, hclaim, hfind⟩
  · rw [hany, hfind]
    rfl
  · have heq : row' = row := List.inj_on_of_nodup_map hids (hsub.subset hrow') hrow hid'
    subst heq
    rw [hany, hfind, if_pos rfl]
    unfold relayRow
    rw [hclaim]

end Rows

/-! ## References -/

section References
variable {u : UnicodeTables} {d : ProcessDefinition}

/-- What an admitted definition's reference is like. -/
theorem admitted_ref (h : validateDefinition u d = .ok ()) : d.id ≠ "" ∧ 1 ≤ d.version ∧ d.version ≤ maxInt := by
  unfold validateDefinition at h
  split at h
  · cases h
  · rename_i hid
    split at h
    · cases h
    · split at h
      · cases h
      · split at h
        · cases h
        · rename_i hhigh
          split at h
          · cases h
          · rename_i hvalid
            have haccepted : validate u d = [] := by simpa using hvalid
            unfold validate at haccepted
            obtain ⟨hlow, -⟩ := List.append_eq_nil_iff.mp haccepted
            refine ⟨by simpa using hid, ?_, ?_⟩
            · by_contra hlt
              rw [if_pos (by omega)] at hlow
              cases hlow
            · unfold maxDefinitionVersion at hhigh
              unfold maxInt
              omega

/-- The reference of an admitted definition is read as it was written exactly when its id has no colon. -/
theorem parseDefRef_admitted (h : validateDefinition u d = .ok ()) :
    (':' ∉ d.id.toList → parseDefRef d.qualifier.toText = .ok d.qualifier) ∧
      (':' ∈ d.id.toList → ∃ err, parseDefRef d.qualifier.toText = .error err) := by
  obtain ⟨hid, hlow, hhigh⟩ := admitted_ref h
  have hne : d.qualifier.toText ≠ "" := by
    intro he
    have hl := congrArg String.toList he
    obtain ⟨v, hv⟩ := Int.eq_ofNat_of_zero_le (show 0 ≤ d.version by omega)
    cases v with
    | zero => omega
    | succ n =>
      rw [toText_pinned (q := d.qualifier) hv] at hl
      simp at hl
  unfold parseDefRef
  rw [if_neg (by simpa using hne)]
  refine ⟨fun hcolon => ?_, fun hcolon => ?_⟩
  · rw [parseQualifier_toText (q := d.qualifier) hid hcolon (by unfold ProcessDefinition.qualifier; dsimp only; omega) hhigh]
  · obtain ⟨err, herr⟩ := parseQualifier_colon (q := d.qualifier) hcolon hlow
    rw [herr]
    exact ⟨_, rfl⟩

end References

/-- After any writes of events of admitted definitions and any drains, every row is read as it was written and every drain
settles each row it claims by its own outcome, exactly when no definition referred to has a colon in its id. -/
theorem each_row_counts {u : UnicodeTables} {ops : List OutboxOp} (hadm : Admitted u ops) :
    EachRowCounts ops ↔ ∀ ev ∈ eventsOf ops, ':' ∉ ev.definitionRef.id.toList := by
  have hstands := stands_after ops
  constructor
  · intro h ev hev hcolon
    obtain ⟨d, hd, href⟩ := hadm ev hev
    rw [congrArg Qualifier.id href] at hcolon
    obtain ⟨err, herr⟩ := (parseDefRef_admitted hd).2 hcolon
    rw [← href] at herr
    -- the row of the event
    obtain ⟨i, hi, rfl⟩ := List.mem_iff_getElem.mp hev
    have hlen : (outboxAfter ops).length = (eventsOf ops).length := by simpa using congrArg List.length hstands.content
    have hrow : (outboxAfter ops)[i].content = (eventsOf ops)[i].content := by
      have hget := congrArg (fun l => l[i]?) hstands.content
      simpa [hi, hlen] using hget
    have hread := congrArg (fun l => l[i]?) h.read
    simp only [List.getElem?_map, hi, hlen, getElem?_pos, Option.map_some, Option.some.injEq] at hread
    rcases scanClaimRow_event hrow with he | ⟨err1, err2, he, -⟩
    · rw [herr, hread] at he
      cases he
    · rw [he] at hread
      cases hread
  · intro h
    have hscan : ∀ (rows : List OutboxRow) (events : List OutboxEvent), rows.map (·.content) = events.map (·.content) →
        (∀ ev ∈ events, ev ∈ eventsOf ops) →
          rows.map (fun row => (scanClaimRow row).map (·.event)) = events.map (fun ev => .ok ev.reread) := by
      intro rows
      induction rows with
      | nil =>
        intro events hc _
        rw [List.map_nil, eq_comm, List.map_eq_nil_iff] at hc
        rw [hc]
        rfl
      | cons row rows ih =>
        intro events hc hmem
        cases events with
        | nil => cases hc
        | cons ev events =>
          rw [List.map_cons, List.map_cons, List.cons.injEq] at hc
          rw [List.map_cons, List.map_cons, ih events hc.2 (fun e he => hmem e (List.mem_cons_of_mem _ he))]
          obtain ⟨d, hd, href⟩ := hadm ev (hmem ev List.mem_cons_self)
          have hcolon := h ev (hmem ev List.mem_cons_self)
          rw [congrArg Qualifier.id href] at hcolon
          have hparse := (parseDefRef_admitted hd).1 hcolon
          rw [← href] at hparse
          rcases scanClaimRow_event hc.1 with he | ⟨_, _, -, herr⟩
          · rw [he, hparse]
            rfl
          · rw [hparse] at herr
            cases herr
    have hread := hscan _ _ hstands.content (fun _ he => he)
    refine ⟨hread, drainOnce_settles ?_ ?_⟩
    · rw [hstands.ids]
      exact List.nodup_range'
    · intro row hrow
      have hin : (scanClaimRow row).map (·.event) ∈ (eventsOf ops).map (fun ev => .ok ev.reread) := by
        rw [← hread]
        exact List.mem_map.mpr ⟨row, hrow, rfl⟩
      obtain ⟨ev, -, hev⟩ := List.mem_map.mp hin
      cases hc : scanClaimRow row with
      | error err =>
        rw [hc] at hev
        cases hev
      | ok claim => exact ⟨claim, rfl⟩

/-- The smallest definition under an id. -/
def namedDefinition (id : String) : ProcessDefinition where
  id := id
  version := 1
  nodes := [{ id := "s", spec := .startEvent {} }, { id := "e", spec := .endEvent {} }]
  flows := [{ id := "f", source := "s", target := "e" }]

/-- The completion of an instance of the definition. -/
def completedEvent (id instanceID : String) : OutboxEvent where
  topic := "instance.completed"
  payload := some []
  instanceID := instanceID
  definitionRef := (namedDefinition id).qualifier

/-- Two events of a plain definition are read and drained each for itself. -/
theorem plain_rows_count : EachRowCounts
    [.write "i" 1 [completedEvent "order" "i"] 0, .write "j" 1 [completedEvent "order" "j"] 0] := by
  have hadm : Admitted asciiTables
      [.write "i" 1 [completedEvent "order" "i"] 0, .write "j" 1 [completedEvent "order" "j"] 0] := by
    intro ev hev
    refine ⟨namedDefinition "order", by decide, ?_⟩
    simp only [eventsOf, OutboxOp.events, keyedFrom, List.flatMap_cons, List.flatMap_nil, List.append_nil,
      List.mem_append, List.mem_singleton] at hev
    rcases hev with rfl | rfl <;> rfl
  refine (each_row_counts hadm).mpr (fun ev hev => ?_)
  simp only [eventsOf, OutboxOp.events, keyedFrom, List.flatMap_cons, List.flatMap_nil, List.append_nil,
    List.mem_append, List.mem_singleton] at hev
  rcases hev with rfl | rfl <;> decide

/-- The event of a definition `"eu:order"` is not read: the drain fails before it publishes the event behind it. -/
theorem colon_blocks_outbox : validateDefinition asciiTables (namedDefinition "eu:order") = .ok () ∧
    ¬ EachRowCounts [.write "i" 1 [completedEvent "eu:order" "i"] 0, .write "j" 1 [completedEvent "order" "j"] 0] ∧
    ∀ publish, ∃ err, drainOnce ⟨10, 5, 1, 60⟩ 7 publish (outboxAfter
      [.write "i" 1 [completedEvent "eu:order" "i"] 0, .write "j" 1 [completedEvent "order" "j"] 0]) = .error err := by
  have hfails : ∀ publish, ∃ err, drainOnce ⟨10, 5, 1, 60⟩ 7 publish (outboxAfter
      [.write "i" 1 [completedEvent "eu:order" "i"] 0, .write "j" 1 [completedEvent "order" "j"] 0]) = .error err :=
    fun publish => ⟨_, rfl⟩
  refine ⟨by decide, fun h => ?_, hfails⟩
  obtain ⟨n, hn⟩ := h.drained ⟨10, 5, 1, 60⟩ 7 (fun _ => none)
  obtain ⟨err, herr⟩ := hfails (fun _ => none)
  rw [herr] at hn
  cases hn

end Wrkflw
