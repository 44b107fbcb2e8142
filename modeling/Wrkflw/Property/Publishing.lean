import Wrkflw.Property.WireOrder
import Wrkflw.Store.Definitions

/-!
# Published definitions are immutable, republishable and readable

* `unmarshalJSON_onto` : the decoder drops the names of scoped actions, at every depth;
* `compareWithPublished_eq` : what the comparison answers for documents of two definitions;
* `DefinitionStore.Kept` : the invariant of the table and the calls, kept by each step (`Step.kept`) and so by every run;
* `published_for_good` : the result.
-/

namespace Wrkflw

open Library

variable {c : Catalogs} {data : WireDoc}

/-! ## Scoped actions -/

theorem lookup_atKey (key k : String) (f : WireDoc → WireDoc) (o : List (String × WireDoc)) :
    (atKey key f o).lookup k = if k = key then (o.lookup k).map f else o.lookup k := by
  induction o with
  | nil => simp [atKey]
  | cons e o ih =>
    obtain ⟨k', j⟩ := e
    unfold atKey at ih ⊢
    rw [List.map_cons]
    by_cases hk' : k' = key
    · subst hk'
      by_cases hk : k = k'
      · subst hk
        simp
      · have hne : (k == k') = false := by simpa using hk
        rw [if_neg hk] at ih ⊢
        simp only [beq_self_eq_true, if_true, List.lookup_cons, hne]
        exact ih
    · have hkeep : (k' == key) = false := by simpa using hk'
      rw [hkeep]
      by_cases hk : k = k'
      · subst hk
        simp [hk']
      · have hne : (k == k') = false := by simpa using hk
        simp only [Bool.false_eq_true, if_false, List.lookup_cons, hne]
        exact ih

theorem onlyKeys_atKey {ρ : Type} (fields : List (String × (ρ → Option WireDoc))) (key : String) (f : WireDoc → WireDoc)
    (o : List (String × WireDoc)) : onlyKeys fields (atKey key f o) = onlyKeys fields o := by
  unfold onlyKeys atKey
  rw [List.all_map]
  congr 1
  funext e
  rw [Function.comp_apply]
  split <;> rfl

/-- A node reads nothing but a definition under `subprocess`. -/
theorem readNodeWith_atKey (f : WireDoc → WireDoc) (o : List (String × WireDoc)) (sub : Option ProcessDefinition) :
    readNodeWith (atKey "subprocess" f o) sub = readNodeWith o sub := by
  unfold readNodeWith readNodeWire readWaitWire readActivityWire readTaskWire readEventWire readEndWire
  simp only [lookup_atKey, onlyKeys_atKey, String.reduceEq, if_false]

theorem isNullDoc_onto (c : Catalogs) (j : WireDoc) : isNullDoc (c.onto j) = isNullDoc j := by
  cases c <;> cases j <;> rfl

/-- The keys but `scoped_actions`. -/
theorem lookup_scoped {k : String} (hk : k ≠ "scoped_actions") (o : List (String × WireDoc)) (v : Option WireDoc) :
    (o ++ (v.map (fun j => ("scoped_actions", j))).toList).lookup k = o.lookup k := by
  have hnone : ((v.map (fun j => ("scoped_actions", j))).toList : List (String × WireDoc)).lookup k = none := by
    cases v with
    | none => rfl
    | some j =>
      have hne : (k == "scoped_actions") = false := by simpa using hk
      simp [List.lookup_cons, hne]
  rw [List.lookup_append, hnone, Option.or_none]

theorem readDefinitionWith_scoped (f : WireDoc → WireDoc) (o : List (String × WireDoc)) (v : Option WireDoc)
    (nodes : List (NodeOf ProcessDefinition)) :
    readDefinitionWith (atKey "nodes" f o ++ (v.map (fun j => ("scoped_actions", j))).toList) nodes =
      readDefinitionWith o nodes := by
  have honly : onlyKeys definitionFields (atKey "nodes" f o ++ (v.map (fun j => ("scoped_actions", j))).toList) =
      onlyKeys definitionFields o := by
    have hlast : onlyKeys definitionFields (v.map (fun j => ("scoped_actions", j))).toList = true := by
      cases v <;> rfl
    rw [← onlyKeys_atKey definitionFields "nodes" f o]
    unfold onlyKeys at hlast ⊢
    rw [List.all_append, hlast, Bool.and_true]
  unfold readDefinitionWith
  rw [honly, lookup_scoped (by decide), lookup_scoped (by decide), lookup_scoped (by decide), lookup_scoped (by decide)]
  simp only [lookup_atKey, String.reduceEq, if_false]

/-- The decoder drops the names of scoped actions. -/
theorem unmarshalJSON_onto (c : Catalogs) (j : WireDoc) : unmarshalJSON (c.onto j) = unmarshalJSON j := by
  induction c generalizing j with
  | empty => cases j <;> rfl
  | named names nested ih =>
    cases j with
    | obj o =>
      have hnode : ∀ n : WireDoc, readNode (inSubprocess (fun id => (nested id).onto) n) = readNode n := by
        intro n
        cases n with
        | obj node =>
          have hsub : readSubKey (atKey "subprocess" (nested (nodeID node)).onto node) = readSubKey node := by
            rw [readSubKey_eq, readSubKey_eq, lookup_atKey, if_pos rfl]
            cases hfound : node.lookup "subprocess" with
            | none => rfl
            | some j =>
              simp only [Option.map_some]
              rw [isNullDoc_onto, ih]
          unfold inSubprocess
          rw [readNode, readNode, hsub]
          simp only [readNodeWith_atKey]
        | _ => rfl
      have hitems : ∀ items : List WireDoc,
        readNodes (items.map (inSubprocess (fun id => (nested id).onto))) = readNodes items := by
        intro items
        refine readNodes_congr (List.length_map _) (fun i a a' ha ha' => ?_)
        rw [List.getElem?_map, ha'] at ha
        obtain rfl := Option.some.inj ha
        exact hnode a'
      unfold Catalogs.onto
      rw [unmarshalJSON, unmarshalJSON]
      simp only [readDefinitionWith_scoped]
      congr 1
      rw [readNodesKey_eq, readNodesKey_eq, lookup_scoped (by decide), lookup_atKey, if_pos rfl]
      cases hfound : o.lookup "nodes" with
      | none => rfl
      | some j =>
        cases j with
        | arr items =>
          simp only [Option.map_some, inNodes]
          rw [readNodeItems, readNodeItems]
          exact hitems items
        | _ => rfl
    | _ => rfl

/-- What is written of a definition with its catalogs is read as what is written without them. -/
theorem marshalDefinition_read {d : ProcessDefinition} (hproper : d.EveryNode NodeSpec.Proper)
    (h : marshalDefinition c d = .ok data) : unmarshalJSON data = .ok d.reread ∧ Canonical d.reread := by
  unfold marshalDefinition at h
  cases hdoc : marshalJSON d with
  | error err =>
    rw [hdoc] at h
    cases h
  | ok doc =>
    rw [hdoc] at h
    obtain rfl := Except.ok.inj h
    rw [unmarshalJSON_onto]
    exact ⟨unmarshalJSON_marshalJSON d hproper hdoc, reread_canonical d hproper hdoc⟩

/-! ## Comparing -/

theorem normaliseDefinition_canonical {d : ProcessDefinition} (hread : unmarshalJSON data = .ok d) (h : Canonical d) :
    ∃ doc, marshalJSON d = .ok doc ∧ normaliseDefinition data = .ok doc := by
  obtain ⟨doc, hdoc⟩ := h.written
  refine ⟨doc, hdoc, ?_⟩
  unfold normaliseDefinition
  rw [hread]
  dsimp only
  rw [hdoc]

/-- The comparison tells the definitions apart. -/
theorem compareWithPublished_eq {given : WireDoc} {a b : ProcessDefinition} (hgiven : unmarshalJSON given = .ok a)
    (hdata : unmarshalJSON data = .ok b) (ha : Canonical a) (hb : Canonical b) (d : ProcessDefinition) :
    (compareWithPublished given data d = none ∧ a = b) ∨
      ∃ err, compareWithPublished given data d = some err ∧ err.kind = .definitionExists ∧ a ≠ b := by
  obtain ⟨doc, hdoc, hnorm⟩ := normaliseDefinition_canonical hgiven ha
  obtain ⟨doc', hdoc', hnorm'⟩ := normaliseDefinition_canonical hdata hb
  have hsame : sameDefinitionContent given data = .ok (doc.equal doc') := by
    unfold sameDefinitionContent
    rw [hnorm', hnorm]
  unfold compareWithPublished
  rw [hsame]
  cases hequal : doc.equal doc' with
  | true =>
    obtain rfl := (Json.equal_iff doc doc').mp hequal
    exact Or.inl ⟨rfl, ha.eq hb hdoc hdoc'⟩
  | false =>
    refine Or.inr ⟨_, rfl, rfl, ?_⟩
    rintro rfl
    rw [hdoc] at hdoc'
    rw [Except.ok.inj hdoc', (Json.equal_iff doc' doc').mpr rfl] at hequal
    cases hequal

/-! ## The table -/

section Table
variable {collate : String → String} {rows : List DefinitionRow} {row : DefinitionRow}

/-- An insert leaves what is found. -/
theorem selectDefinition_insert {found : DefinitionRow} {defID : String} {version : Int}
    (h : selectDefinition collate rows defID version = some found) :
    selectDefinition collate (insertIgnoreDefinition collate rows row) defID version = some found := by
  unfold insertIgnoreDefinition
  split
  · exact h
  · unfold selectDefinition at h ⊢
    rw [List.find?_append, h]
    rfl

/-- After an insert the key is taken. -/
theorem selectDefinition_inserted :
    (selectDefinition collate (insertIgnoreDefinition collate rows row) row.defID row.version).isSome = true := by
  unfold insertIgnoreDefinition
  split
  · rename_i hsome
    exact hsome
  · unfold selectDefinition
    rw [List.find?_isSome]
    exact ⟨row, List.mem_append_right _ (List.mem_singleton.mpr rfl), by simp⟩

theorem mem_insertIgnoreDefinition {r : DefinitionRow} (h : r ∈ insertIgnoreDefinition collate rows row) :
    r ∈ rows ∨ r = row := by
  unfold insertIgnoreDefinition at h
  split at h
  · exact Or.inl h
  · exact (List.mem_append.mp h).imp id List.mem_singleton.mp

end Table

/-! ## Runs -/

/-- The row of the definition's key holds a definition. -/
def HoldsDefinition (collate : String → String) (rows : List DefinitionRow) (d held : ProcessDefinition) : Prop :=
  ∃ row, selectDefinition collate rows d.id d.version = some row ∧ unmarshalJSON row.definition = .ok held

/-- What is known of a call in each of its stages. -/
def PublishStage.Kept (u : UnicodeTables) (collate : String → String) (rows : List DefinitionRow) (d : ProcessDefinition) :
    PublishStage → Prop
  | .called => True
  | .inserting data => unmarshalJSON data = .ok d.reread ∧ Canonical d.reread
  | .reading data => (unmarshalJSON data = .ok d.reread ∧ Canonical d.reread) ∧
    (selectDefinition collate rows d.id d.version).isSome = true
  | .returned none => HoldsDefinition collate rows d d.reread
  | .returned (some err) => match err.kind with
    | .invalidDefinition => validateDefinition u d ≠ .ok ()
    | .unencodable => ∀ doc, marshalJSON d ≠ .ok doc
    | .statementFailed => True
    | .concurrentPublish | .undecodable => False
    | .definitionExists => ∃ held, HoldsDefinition collate rows d held ∧ held ≠ d.reread

structure DefinitionStore.Kept (u : UnicodeTables) (collate : String → String) (s : DefinitionStore) : Prop where
  rows : ∀ row ∈ s.rows, ∃ d, unmarshalJSON row.definition = .ok d ∧ Canonical d
  calls : ∀ call ∈ s.calls, call.stage.Kept u collate s.rows call.definition

/-- Nothing that is found is lost. -/
def KeepsRows (collate : String → String) (rows rows' : List DefinitionRow) : Prop :=
  ∀ defID version row, selectDefinition collate rows defID version = some row →
    selectDefinition collate rows' defID version = some row

section Runs
variable {u : UnicodeTables} {collate : String → String} {s s' x y : DefinitionStore} {d held : ProcessDefinition}
  {rows rows' : List DefinitionRow}

theorem HoldsDefinition.keeps (h : HoldsDefinition collate rows d held) (hkeeps : KeepsRows collate rows rows') :
    HoldsDefinition collate rows' d held := by
  obtain ⟨row, hrow, hread⟩ := h
  exact ⟨row, hkeeps _ _ _ hrow, hread⟩

theorem PublishStage.Kept.keeps {stage : PublishStage} (h : stage.Kept u collate rows d)
    (hkeeps : KeepsRows collate rows rows') :
    stage.Kept u collate rows' d := by
  cases stage with
  | called => exact trivial
  | inserting data => exact h
  | reading data =>
    refine ⟨h.1, ?_⟩
    obtain ⟨row, hrow⟩ := Option.isSome_iff_exists.mp h.2
    rw [hkeeps _ _ _ hrow]
    rfl
  | returned err =>
    cases err with
    | none => exact HoldsDefinition.keeps h hkeeps
    | some err =>
      unfold PublishStage.Kept at h ⊢
      dsimp only at h ⊢
      split at h <;> try exact h
      obtain ⟨held, hheld, hne⟩ := h
      exact ⟨held, hheld.keeps hkeeps, hne⟩

open DefinitionStore (Step)

theorem KeepsRows.refl : KeepsRows collate rows rows := fun _ _ _ h => h

theorem KeepsRows.insert {row : DefinitionRow} : KeepsRows collate rows (insertIgnoreDefinition collate rows row) :=
  fun _ _ _ h => selectDefinition_insert h

/-- No step changes a row or takes it away. -/
theorem DefinitionStore.Step.keeps (h : Step collate u s s') : KeepsRows collate s.rows s'.rows := by
  cases h with
  | insert => exact KeepsRows.insert
  | insertUnheard => exact KeepsRows.insert
  | _ => exact KeepsRows.refl

/-- A call is about one definition all the time. -/
theorem DefinitionStore.Step.definitions (h : Step collate u s s') {call : PublishCall} (hcall : call ∈ s.calls) :
    ∃ call' ∈ s'.calls, call'.definition = call.definition := by
  have hset : ∀ {i : Nat} {at_ : PublishCall} {stage : PublishStage}, s.calls[i]? = some at_ →
      ∃ call' ∈ s.calls.set i { at_ with stage := stage }, call'.definition = call.definition := by
    intro i at_ stage hat
    obtain ⟨k, hk⟩ := List.mem_iff_getElem?.mp hcall
    by_cases hik : i = k
    · subst hik
      obtain rfl := Option.some.inj (hat.symm.trans hk)
      have hlt : i < s.calls.length := (List.getElem?_eq_some_iff.mp hk).1
      exact ⟨_, List.mem_set hlt _, rfl⟩
    · refine ⟨call, List.mem_iff_getElem?.mpr ⟨k, ?_⟩, rfl⟩
      rw [List.getElem?_set_ne hik]
      exact hk
  cases h with
  | call d c => exact ⟨call, List.mem_append_left _ hcall, rfl⟩
  | prepare hat => exact hset hat
  | insert hat => exact hset hat
  | insertFails hat => exact hset hat
  | insertUnheard hat => exact hset hat
  | readMissing hat => exact hset hat
  | readFails hat => exact hset hat
  | read hat => exact hset hat

/-- The gate and the encoder let through what is read again. -/
theorem preparePublish_kept (hproper : d.EveryNode NodeSpec.Proper) (c : Catalogs) :
    (preparePublish u d c).Kept u collate rows d := by
  unfold preparePublish
  cases hvalid : validateDefinition u d with
  | error err =>
    change validateDefinition u d ≠ .ok ()
    rw [hvalid]
    exact nofun
  | ok _ =>
    dsimp only
    cases hdata : marshalDefinition c d with
    | error err =>
      change ∀ doc, marshalJSON d ≠ .ok doc
      intro doc hdoc
      unfold marshalDefinition at hdata
      rw [hdoc] at hdata
      cases hdata
    | ok data => exact marshalDefinition_read hproper hdata

/-- What a step does to the call it is of, and to the rows. -/
theorem DefinitionStore.Step.advances (h : Step collate u s s') (hkept : s.Kept u collate)
    (hproper : ∀ call ∈ s.calls, call.definition.EveryNode NodeSpec.Proper) :
    (∀ row ∈ s'.rows, ∃ d, unmarshalJSON row.definition = .ok d ∧ Canonical d) ∧
      ((∃ d c, s'.calls = s.calls ++ [⟨d, c, .called⟩]) ∨ ∃ (i : Nat) (call : PublishCall) (stage : PublishStage),
        s'.calls = s.calls.set i { call with stage := stage } ∧ stage.Kept u collate s'.rows call.definition) := by
  have hcalls : ∀ {i : Nat} {call : PublishCall} {stage : PublishStage}, s.calls[i]? = some call → call.stage = stage →
      stage.Kept u collate s.rows call.definition := by
    rintro i call stage hcall rfl
    exact hkept.calls call (List.mem_of_getElem? hcall)
  have hrows : ∀ {defID : String} {version : Int} {data kept : WireDoc} {d : ProcessDefinition}, unmarshalJSON data = .ok d →
    Canonical d →
      data.Same kept → ∀ row ∈ insertIgnoreDefinition collate s.rows ⟨defID, version, kept⟩,
        ∃ d, unmarshalJSON row.definition = .ok d ∧ Canonical d := by
    intro defID version data kept d hread hsettled hsame row hrow
    rcases mem_insertIgnoreDefinition hrow with hold | rfl
    · exact hkept.rows row hold
    · exact ⟨d, (unmarshalJSON_same hsame).symm.trans hread, hsettled⟩
  cases h with
  | call d c => exact ⟨hkept.rows, Or.inl ⟨d, c, rfl⟩⟩
  | @prepare i call hcall hstage =>
    exact ⟨hkept.rows, Or.inr ⟨i, call, _, rfl, preparePublish_kept (hproper call (List.mem_of_getElem? hcall)) _⟩⟩
  | @insert i call data kept hcall hstage hsame =>
    have hdata := hcalls hcall hstage
    exact ⟨hrows hdata.1 hdata.2 hsame, Or.inr ⟨i, call, .reading data, rfl, hdata, selectDefinition_inserted⟩⟩
  | @insertFails i call data hcall hstage err => exact ⟨hkept.rows, Or.inr ⟨i, call, _, rfl, trivial⟩⟩
  | @insertUnheard i call data kept hcall hstage hsame err =>
    have hdata := hcalls hcall hstage
    exact ⟨hrows hdata.1 hdata.2 hsame, Or.inr ⟨i, call, _, rfl, trivial⟩⟩
  | @readMissing i call data hcall hstage hrow =>
    -- the insert came before
    have hsome := (hcalls hcall hstage).2
    rw [hrow] at hsome
    cases hsome
  | @readFails i call data hcall hstage err => exact ⟨hkept.rows, Or.inr ⟨i, call, _, rfl, trivial⟩⟩
  | @read i call data given row hcall hstage hrow hgiven =>
    obtain ⟨⟨hdata, hsettled⟩, -⟩ := hcalls hcall hstage
    obtain ⟨held, hheld, hsettled'⟩ := hkept.rows row (List.mem_of_find?_eq_some hrow)
    have hread : unmarshalJSON given = .ok held := (unmarshalJSON_same hgiven).symm.trans hheld
    refine ⟨hkept.rows, Or.inr ⟨i, call, _, rfl, ?_⟩⟩
    rcases compareWithPublished_eq hread hdata hsettled' hsettled call.definition with ⟨hnone, rfl⟩ | ⟨err, hsome, hkind, hne⟩
    · rw [hnone]
      exact ⟨row, hrow, hheld⟩
    · rw [hsome]
      unfold PublishStage.Kept
      dsimp only
      rw [hkind]
      exact ⟨held, ⟨row, hrow, hheld⟩, hne⟩

theorem DefinitionStore.Step.kept (h : Step collate u s s') (hkept : s.Kept u collate)
    (hproper : ∀ call ∈ s.calls, call.definition.EveryNode NodeSpec.Proper) : s'.Kept u collate := by
  obtain ⟨hrows, hcalls⟩ := h.advances hkept hproper
  refine ⟨hrows, fun call hcall => ?_⟩
  have hold : ∀ c ∈ s.calls, c.stage.Kept u collate s'.rows c.definition := fun c hc => (hkept.calls c hc).keeps h.keeps
  rcases hcalls with ⟨d, c, he⟩ | ⟨i, c, stage, he, hstage⟩
  · rw [he] at hcall
    rcases List.mem_append.mp hcall with hin | hin
    · exact hold call hin
    · rw [List.mem_singleton.mp hin]
      exact trivial
  · rw [he] at hcall
    rcases List.mem_or_eq_of_mem_set hcall with hin | rfl
    · exact hold call hin
    · exact hstage

/-- Any number of steps of any calls. -/
def DefinitionStore.Steps (u : UnicodeTables) (collate : String → String) : DefinitionStore → DefinitionStore → Prop :=
  Relation.ReflTransGen (Step collate u)

theorem DefinitionStore.Steps.keeps (h : DefinitionStore.Steps u collate x y) : KeepsRows collate x.rows y.rows := by
  induction h with
  | refl => exact KeepsRows.refl
  | tail _ hstep ih => exact fun defID version row hrow => hstep.keeps _ _ _ (ih _ _ _ hrow)

theorem DefinitionStore.Steps.kept (h : DefinitionStore.Steps u collate x y) (hkept : x.Kept u collate)
    (hproper : ∀ call ∈ y.calls, call.definition.EveryNode NodeSpec.Proper) : y.Kept u collate := by
  induction h with
  | refl => exact hkept
  | @tail s s' _ hstep ih =>
    have hbefore : ∀ call ∈ s.calls, call.definition.EveryNode NodeSpec.Proper := fun call hcall => by
      obtain ⟨call', hcall', he⟩ := hstep.definitions hcall
      exact he ▸ hproper call' hcall'
    exact hstep.kept (ih hbefore) hbefore

/-- However the database orders the keys, the row of the definition's key is read as a definition. -/
def Stored (collate : String → String) (rows : List DefinitionRow) (d held : ProcessDefinition) : Prop :=
  ∃ row, selectDefinition collate rows d.id d.version = some row ∧ ∀ given, row.definition.Same given →
    getDefinition given = .ok held

theorem HoldsDefinition.stored (h : HoldsDefinition collate rows d held) : Stored collate rows d held := by
  obtain ⟨row, hrow, hread⟩ := h
  exact ⟨row, hrow, fun given hgiven => (unmarshalJSON_same hgiven).symm.trans hread⟩

theorem Stored.unique {held' : ProcessDefinition} (h : Stored collate rows d held) (h' : Stored collate rows d held') :
    held = held' := by
  obtain ⟨row, hrow, hread⟩ := h
  obtain ⟨row', hrow', hread'⟩ := h'
  obtain rfl := Option.some.inj (hrow.symm.trans hrow')
  exact Except.ok.inj ((hread _ (.refl _)).symm.trans (hread' _ (.refl _)))

/-- What a call returned, beside what is stored. -/
structure Answered (u : UnicodeTables) (collate : String → String) (rows : List DefinitionRow) (d : ProcessDefinition)
    (err : Option PublishFailure) : Prop where
  /-- No error: what is stored is the definition. -/
  published : err = none → Stored collate rows d d.persisted
  /-- `ErrDefinitionExists`: it is another one. -/
  conflict : ∀ e, err = some e → e.kind = .definitionExists → ∃ held, Stored collate rows d held ∧ held ≠ d.persisted
  /-- One or the other, unless a statement of the database fails. -/
  decided : validateDefinition u d = .ok () → (∃ doc, marshalJSON d = .ok doc) →
    (∀ e, err = some e → e.kind ≠ .statementFailed) →
    (err = none ↔ Stored collate rows d d.persisted) ∧ ∀ e, err = some e → e.kind = .definitionExists

theorem PublishStage.Kept.answered {err : Option PublishFailure} (h : (PublishStage.returned err).Kept u collate rows d)
    (hproper : d.EveryNode NodeSpec.Proper) (href : d.EveryNode NodeSpec.PlainRef) : Answered u collate rows d err := by
  have hplain := reread_plain d hproper href
  cases err with
  | none =>
    have hstored : Stored collate rows d d.persisted := hplain ▸ HoldsDefinition.stored h
    exact ⟨fun _ => hstored, nofun, fun _ _ _ => ⟨⟨fun _ => hstored, fun _ => rfl⟩, nofun⟩⟩
  | some err =>
    have hconflict : err.kind = .definitionExists → ∃ held, Stored collate rows d held ∧ held ≠ d.persisted := by
      intro hkind
      unfold PublishStage.Kept at h
      dsimp only at h
      rw [hkind] at h
      obtain ⟨held, hheld, hne⟩ := h
      exact ⟨held, hheld.stored, hplain ▸ hne⟩
    refine ⟨nofun, fun e he => ?_, fun hvalid hdoc hran => ?_⟩
    · obtain rfl := Option.some.inj he
      exact hconflict
    · have hkind : err.kind = .definitionExists := by
        have hnot := hran err rfl
        unfold PublishStage.Kept at h
        dsimp only at h
        obtain ⟨doc, hdoc⟩ := hdoc
        cases hk : err.kind with
        | invalidDefinition =>
          rw [hk] at h
          exact absurd hvalid h
        | unencodable =>
          rw [hk] at h
          exact absurd hdoc (h doc)
        | statementFailed => exact absurd hk hnot
        | concurrentPublish =>
          rw [hk] at h
          exact h.elim
        | undecodable =>
          rw [hk] at h
          exact h.elim
        | definitionExists => rfl
      refine ⟨⟨nofun, fun hstored => ?_⟩, fun e he => ?_⟩
      · obtain ⟨held, hheld, hne⟩ := hconflict hkind
        exact absurd (hheld.unique hstored) hne
      · obtain rfl := Option.some.inj he
        exact hkind

end Runs

end Wrkflw
