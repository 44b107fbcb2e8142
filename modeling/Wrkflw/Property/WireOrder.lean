import Wrkflw.Library.JsonOrder
import Wrkflw.Property.Wire

/-!
# The canonical form of a definition

Decoding and encoding again is how the store compares two definitions. It is a canonical form: the decoder does not see the
order of keys (`unmarshalJSON_same`), what it reads can be written (`marshalJSON_reread`), and what is read of that is the
same again (`reread_reread`).
-/

namespace Wrkflw

open Library

/-! ## The order of keys -/

theorem respects_nat : Respects readNat := by
  intro j j' h
  cases h <;> rfl

theorem respects_rule : Respects readRule := by
  intro j j' h
  cases h <;> rfl

theorem respects_kind : Respects readKind := by
  intro j j' h
  cases h <;> rfl

section Fields
variable {o o' : List (String × WireDoc)} (h : SameFields o o')
include h

theorem onlyKeys_same {ρ : Type} (fields : List (String × (ρ → Option WireDoc))) : onlyKeys fields o = onlyKeys fields o' :=
  h.all_keys (fun k => (fields.map Prod.fst).contains k)

theorem readNat_same (k : String) : readOr 0 readNat (o.lookup k) = readOr 0 readNat (o'.lookup k) := h.field respects_nat 0 k

theorem readStringList_same (k : String) : readStringList (o.lookup k) = readStringList (o'.lookup k) :=
  h.field (respects_list respects_text) [] k

theorem readList_same {β : Type} {read : WireDoc → Option β} (hread : Respects read) (k : String) :
    readOr [] (Json.list? read) (o.lookup k) = readOr [] (Json.list? read) (o'.lookup k) := h.field (respects_list hread) [] k

theorem readMaybe_same {β : Type} {read : WireDoc → Option β} (hread : Respects read) (k : String) :
    readMaybe read (o.lookup k) = readMaybe read (o'.lookup k) := h.field (respects_map hread some) none k

end Fields

theorem respects_clock : Respects readClock := by
  refine respects_obj (fun o o' h => ?_) (fun _ _ => rfl)
  unfold readClock
  simp only [onlyKeys_same h, readNat_same h]

theorem respects_trigger : Respects readTriggerWire := by
  refine respects_obj (fun o o' h => ?_) (fun _ _ => rfl)
  unfold readTriggerWire
  simp only [onlyKeys_same h, h.text, h.int, readNat_same h, readMaybe_same h respects_time, readList_same h respects_clock,
    readList_same h respects_int]

theorem respects_retry : Respects readRetry := by
  refine respects_obj (fun o o' h => ?_) (fun _ _ => rfl)
  unfold readRetry
  simp only [onlyKeys_same h, h.int, h.field respects_num, readStringList_same h]

theorem respects_descriptor : Respects readDescriptor := by
  refine respects_obj (fun o o' h => ?_) (fun _ _ => rfl)
  unfold readDescriptor
  simp only [onlyKeys_same h, h.text]

theorem respects_flow : Respects readFlow := by
  refine respects_obj (fun o o' h => ?_) (fun _ _ => rfl)
  unfold readFlow
  simp only [onlyKeys_same h, h.text, h.bool]

section Nodes
variable {o o' : List (String × WireDoc)} (h : SameFields o o')
include h

/-- The record of a node does not depend on the order of its keys. -/
theorem readNodeWire_same {D : Type} (sub : Option D) : readNodeWire o sub = readNodeWire o' sub := by
  have hkind : (o.lookup "kind").bind readKind = (o'.lookup "kind").bind readKind := by
    rcases h.found "kind" with ⟨hj, hj'⟩ | ⟨j, j', hj, hj', hsame⟩
    · rw [hj, hj']
    · rw [hj, hj']
      exact respects_kind j j' hsame
  have hwait : readWaitWire o = readWaitWire o' := by
    unfold readWaitWire
    simp only [h.text, readMaybe_same h respects_trigger]
  have hactivity : readActivityWire o = readActivityWire o' := by
    unfold readActivityWire
    simp only [h.text, readMaybe_same h respects_retry]
  have htask : readTaskWire o = readTaskWire o' := by
    unfold readTaskWire
    simp only [h.text, h.bool, readStringList_same h, readMaybe_same h respects_rule]
  have hevent : readEventWire o = readEventWire o' := by
    unfold readEventWire
    simp only [h.text, h.bool, readMaybe_same h respects_trigger, readMaybe_same h respects_descriptor]
  have hending : readEndWire o = readEndWire o' := by
    unfold readEndWire
    simp only [h.text]
  unfold readNodeWire
  rw [onlyKeys_same h, h.text, h.text, hkind, hwait, hactivity, htask, hevent, hending]

theorem readNodeWith_same (sub : Option ProcessDefinition) : readNodeWith o sub = readNodeWith o' sub := by
  unfold readNodeWith
  rw [h.keys "label", readNodeWire_same h]

theorem readDefinitionWith_same (nodes : List (NodeOf ProcessDefinition)) :
    readDefinitionWith o nodes = readDefinitionWith o' nodes := by
  unfold readDefinitionWith
  rw [onlyKeys_same h, h.text, h.int, readList_same h respects_flow, readStringList_same h]

end Nodes

theorem readNodes_congr {l l' : List WireDoc} (hlen : l.length = l'.length)
    (h : ∀ (i : Nat) j j', l[i]? = some j → l'[i]? = some j' → readNode j = readNode j') : readNodes l = readNodes l' := by
  induction l generalizing l' with
  | nil =>
    cases l' with
    | nil => rfl
    | cons j' l' => cases hlen
  | cons j l ih =>
    cases l' with
    | nil => cases hlen
    | cons j' l' =>
      rw [readNodes, readNodes, h 0 j j' rfl rfl, ih (Nat.succ.inj hlen) (fun i a a' ha ha' => h (i + 1) a a' ha ha')]

/-- The decoders, down the document: each of them does not see the order of keys where those below it do not. -/
theorem decoders_same {j j' : WireDoc} (h : j.Same j') :
    unmarshalJSON j = unmarshalJSON j' ∧ readNode j = readNode j' ∧ readNodeItems j = readNodeItems j' ∧
      isNullDoc j = isNullDoc j' := by
  induction h with
  | refl j => exact ⟨rfl, rfl, rfl, rfl⟩
  | arr hlen h ih =>
    refine ⟨?_, ?_, ?_, rfl⟩
    · rw [unmarshalJSON, unmarshalJSON] <;> exact fun _ h => by cases h
    · rw [readNode, readNode] <;> exact fun _ h => by cases h
    · rw [readNodeItems, readNodeItems]
      exact readNodes_congr hlen (fun i a a' ha ha' => (ih i a a' ha ha').2.1)
  | @obj o o' hkeys h ih =>
    have hfields : SameFields o o' := ⟨hkeys, h⟩
    have hnodes : readNodesKey o = readNodesKey o' := by
      rw [readNodesKey_eq, readNodesKey_eq]
      rcases hfields.found "nodes" with ⟨hj, hj'⟩ | ⟨j, j', hj, hj', -⟩
      · rw [hj, hj']
      · rw [hj, hj']
        exact (ih "nodes" j j' hj hj').2.2.1
    have hsub : readSubKey o = readSubKey o' := by
      rw [readSubKey_eq, readSubKey_eq]
      rcases hfields.found "subprocess" with ⟨hj, hj'⟩ | ⟨j, j', hj, hj', -⟩
      · rw [hj, hj']
      · obtain ⟨hread, -, -, hnull⟩ := ih "subprocess" j j' hj hj'
        rw [hj, hj']
        dsimp only
        rw [hread, hnull]
    refine ⟨?_, ?_, ?_, rfl⟩
    · rw [unmarshalJSON, unmarshalJSON, hnodes]
      simp only [readDefinitionWith_same hfields]
    · rw [readNode, readNode, hsub]
      simp only [readNodeWith_same hfields]
    · rw [readNodeItems, readNodeItems]
      all_goals intros
      all_goals contradiction

/-- A definition is read the same in whatever order its keys come. -/
theorem unmarshalJSON_same {j j' : WireDoc} (h : j.Same j') : unmarshalJSON j = unmarshalJSON j' := (decoders_same h).1

/-! ## References -/

theorem atoi_le {s : List Char} {v : Int} (h : atoi s = .ok v) : v ≤ maxInt := by
  have hrange : ∀ (bad : Bool) (n : Int) (err err' : String), (if bad = true then .error err
      else if (decide (n < -maxInt - 1) || decide (maxInt < n)) = true then .error err' else .ok n) =
        (.ok v : Except String Int) →
        v ≤ maxInt := by
    intro bad n err err' h
    split at h
    · cases h
    · split at h
      · cases h
      · rename_i hin
        obtain rfl := Except.ok.inj h
        simp only [Bool.or_eq_true, decide_eq_true_eq, not_or] at hin
        omega
  unfold atoi at h
  dsimp only at h
  split at h <;> exact hrange _ _ _ _ h

/-- What is parsed is plain. -/
theorem parseQualifier_plain {s : String} {q : Qualifier} (h : parseQualifier s = .ok q) : q.Plain ∧ q.version ≤ maxInt := by
  unfold parseQualifier at h
  dsimp only at h
  have hcolon : ':' ∉ (cutColon s.toList).1 := by
    intro hin
    have hne := List.mem_takeWhile_imp hin
    simp at hne
  split at h
  · cases h
  · rename_i hne
    have hid : String.ofList (cutColon s.toList).1 ≠ "" := by
      intro he
      have hnil := congrArg String.toList he
      simp only [String.toList_ofList] at hnil
      rw [hnil] at hne
      exact hne rfl
    split at h
    · obtain rfl := Except.ok.inj h
      exact ⟨⟨hid, by simpa using hcolon, le_rfl⟩, show (0 : Int) ≤ maxInt by decide⟩
    · split at h
      · cases h
      · rename_i v hv
        split at h
        · cases h
        · rename_i hlow
          obtain rfl := Except.ok.inj h
          refine ⟨⟨hid, by simpa using hcolon, ?_⟩, atoi_le hv⟩
          change 0 ≤ v
          omega

theorem Qualifier.reread_version (q : Qualifier) : q.reread.version ≤ maxInt := by
  unfold Qualifier.reread parseOrZero
  split
  · rename_i q' hq
    exact (parseQualifier_plain hq).2
  · decide

/-- What is read of a reference is read again as it is. -/
theorem Qualifier.reread_reread (q : Qualifier) : q.reread.reread = q.reread := by
  unfold Qualifier.reread
  cases hq : parseQualifier q.toText with
  | ok q' =>
    obtain ⟨hplain, hhigh⟩ := parseQualifier_plain hq
    have he : parseOrZero q.toText = q' := by
      unfold parseOrZero
      rw [hq]
    rw [he]
    exact parseOrZero_toText hplain hhigh
  | error err =>
    have he : parseOrZero q.toText = { id := "" } := by
      unfold parseOrZero
      rw [hq]
    rw [he]
    rfl

/-! ## Decoding and encoding again -/

section Nodes
variable {D E F : Type}

theorem NodeSpec.rereadWith_proper {spec : NodeSpec D} (h : spec.Proper) (sub : Option E) : (spec.rereadWith sub).Proper := by
  cases spec with
  | callActivity a ref => exact ⟨h.1, ref.reread_version⟩
  | endEvent e => exact trivial
  | _ => exact h

theorem NodeSpec.rereadWith_rereadWith (spec : NodeSpec D) (sub : Option E) (sub' : Option F) :
    (spec.rereadWith sub).rereadWith sub' = spec.rereadWith sub' := by
  cases spec with
  | callActivity a ref => exact congrArg (NodeSpec.callActivity a) ref.reread_reread
  | endEvent e =>
    obtain ⟨behavior, reason, outcome, code⟩ := e
    cases behavior <;> rfl
  | _ => rfl

/-- What is read of a node is written where the node was. -/
theorem marshalNodeWith_reread {id name : String} {spec : NodeSpec D} {sub : Option WireDoc} {doc : WireDoc}
    (h : marshalNodeWith ⟨id, name, spec⟩ sub = .ok doc) (nested : Option E) (sub' : Option WireDoc) :
    ∃ doc', marshalNodeWith ⟨id, name, spec.rereadWith nested⟩ sub' = .ok doc' := by
  have hdescribed : (⟨id, name, spec.rereadWith nested⟩ : NodeOf E).undescribed =
    (⟨id, name, spec⟩ : NodeOf D).undescribed := by
    cases spec <;> rfl
  have hwritable : (toWire (⟨id, name, spec.rereadWith nested⟩ : NodeOf E) sub').writable =
      (toWire (⟨id, name, spec⟩ : NodeOf D) sub).writable := by
    cases spec with
    | endEvent e =>
      obtain ⟨behavior, reason, outcome, code⟩ := e
      cases behavior <;> rfl
    | _ => rfl
  unfold marshalNodeWith at h ⊢
  rw [hdescribed, hwritable]
  split at h
  · cases h
  · rename_i hd
    split at h
    · cases h
    · rename_i hw
      rw [if_neg hd, if_neg hw]
      exact ⟨_, rfl⟩

end Nodes

/-- The definition can be written again, and is read then as it is. -/
structure Canonical (d : ProcessDefinition) : Prop where
  proper : d.EveryNode NodeSpec.Proper
  fixed : d.reread = d
  written : ∃ doc, marshalJSON d = .ok doc

mutual

/-- By recursion over the definition, as `marshalJSON` goes. -/
theorem reread_canonical {doc : WireDoc} : ∀ d : ProcessDefinition, d.EveryNode NodeSpec.Proper →
    marshalJSON d = .ok doc → Canonical d.reread
  | ⟨id, version, nodes, flows, cancelActions⟩, hproper, h => by
    rw [marshalJSON] at h
    obtain ⟨docs, hdocs, h⟩ := bind_ok h
    obtain ⟨hproper', hfixed, docs', hdocs'⟩ := rereadNodes_canonical nodes hproper hdocs
    rw [ProcessDefinition.reread]
    refine ⟨hproper', ?_, ?_⟩
    · rw [ProcessDefinition.reread, hfixed]
    · rw [marshalJSON, hdocs']
      exact ⟨_, rfl⟩

theorem rereadNodes_canonical {docs : List WireDoc} : ∀ nodes : List (NodeOf ProcessDefinition),
    EveryNodeOf NodeSpec.Proper nodes →
    marshalNodes nodes = .ok docs → EveryNodeOf NodeSpec.Proper (rereadNodes nodes) ∧
    rereadNodes (rereadNodes nodes) = rereadNodes nodes ∧
      ∃ docs', marshalNodes (rereadNodes nodes) = .ok docs'
  | [], _, h => by
    rw [rereadNodes]
    refine ⟨trivial, by rw [rereadNodes], ?_⟩
    rw [marshalNodes]
    exact ⟨_, rfl⟩
  | n :: ns, hproper, h => by
    rw [EveryNodeOf] at hproper
    rw [marshalNodes] at h
    obtain ⟨doc, hdoc, h⟩ := bind_ok h
    obtain ⟨docs', hdocs, h⟩ := bind_ok h
    obtain ⟨hproper1, hfixed1, doc1, hdoc1⟩ := rereadNode_canonical n hproper.1 hdoc
    obtain ⟨hproper2, hfixed2, docs2, hdocs2⟩ := rereadNodes_canonical ns hproper.2 hdocs
    rw [rereadNodes]
    refine ⟨?_, ?_, ?_⟩
    · rw [EveryNodeOf]
      exact ⟨hproper1, hproper2⟩
    · rw [rereadNodes, hfixed1, hfixed2]
    · rw [marshalNodes, hdoc1, hdocs2]
      exact ⟨_, rfl⟩

theorem rereadNode_canonical {doc : WireDoc} : ∀ n : NodeOf ProcessDefinition, EveryNodeFrom NodeSpec.Proper n →
    marshalNode n = .ok doc →
    EveryNodeFrom NodeSpec.Proper (rereadNode n) ∧ rereadNode (rereadNode n) = rereadNode n ∧
    ∃ doc', marshalNode (rereadNode n) = .ok doc'
  | ⟨id, name, spec⟩, hproper, h => by
    rw [EveryNodeFrom] at hproper
    rw [marshalNode] at h
    obtain ⟨sub, hsub, h⟩ := bind_ok h
    obtain ⟨hnested, hfixed, sub', hsub'⟩ := rereadNested_canonical spec hproper.2 hsub
    rw [rereadNode]
    refine ⟨?_, ?_, ?_⟩
    · rw [EveryNodeFrom]
      exact ⟨NodeSpec.rereadWith_proper hproper.1 _, hnested⟩
    · rw [rereadNode, hfixed, NodeSpec.rereadWith_rereadWith]
    · rw [marshalNode, hsub']
      exact marshalNodeWith_reread h _ sub'

theorem rereadNested_canonical {sub : Option WireDoc} : ∀ spec : NodeSpec ProcessDefinition,
    EveryNested NodeSpec.Proper spec →
    marshalSpec spec = .ok sub → EveryNested NodeSpec.Proper (spec.rereadWith (rereadNested spec)) ∧
      rereadNested (spec.rereadWith (rereadNested spec)) = rereadNested spec ∧
      ∃ sub', marshalSpec (spec.rereadWith (rereadNested spec)) = .ok sub'
  | .subProcess a none, _, _ => by
    rw [rereadNested, rereadSub]
    refine ⟨trivial, ?_, ?_⟩
    · change rereadNested (.subProcess a none) = _
      rw [rereadNested, rereadSub]
    · change ∃ sub', marshalSpec (.subProcess a none) = .ok sub'
      rw [marshalSpec, marshalSub]
      exact ⟨_, rfl⟩
  | .subProcess a (some d), hproper, h => by
    rw [EveryNested, EverySub] at hproper
    rw [marshalSpec, marshalSub] at h
    obtain ⟨doc, hdoc, h⟩ := bind_ok h
    obtain ⟨hproper', hfixed, doc', hdoc'⟩ := reread_canonical d hproper hdoc
    rw [rereadNested, rereadSub]
    refine ⟨?_, ?_, ?_⟩
    · change EveryNested NodeSpec.Proper (.subProcess a (some d.reread))
      rw [EveryNested, EverySub]
      exact hproper'
    · change rereadNested (.subProcess a (some d.reread)) = _
      rw [rereadNested, rereadSub, hfixed]
    · change ∃ sub', marshalSpec (.subProcess a (some d.reread)) = .ok sub'
      rw [marshalSpec, marshalSub, hdoc']
      exact ⟨_, rfl⟩
  | .endEvent _, _, _ => ⟨trivial, rfl, _, rfl⟩
  | .startEvent _, _, _ => ⟨trivial, rfl, _, rfl⟩
  | .serviceTask _ _, _, _ => ⟨trivial, rfl, _, rfl⟩
  | .userTask _, _, _ => ⟨trivial, rfl, _, rfl⟩
  | .receiveTask _, _, _ => ⟨trivial, rfl, _, rfl⟩
  | .sendTask _, _, _ => ⟨trivial, rfl, _, rfl⟩
  | .businessRuleTask _ _ _, _, _ => ⟨trivial, rfl, _, rfl⟩
  | .callActivity _ _, _, _ => ⟨trivial, rfl, _, rfl⟩
  | .intermediateCatchEvent _, _, _ => ⟨trivial, rfl, _, rfl⟩
  | .intermediateThrowEvent _, _, _ => ⟨trivial, rfl, _, rfl⟩
  | .boundaryEvent _, _, _ => ⟨trivial, rfl, _, rfl⟩
  | .exclusiveGateway, _, _ => ⟨trivial, rfl, _, rfl⟩
  | .parallelGateway, _, _ => ⟨trivial, rfl, _, rfl⟩
  | .inclusiveGateway, _, _ => ⟨trivial, rfl, _, rfl⟩
  | .eventBasedGateway, _, _ => ⟨trivial, rfl, _, rfl⟩
  | .compensationThrowEvent _, _, _ => ⟨trivial, rfl, _, rfl⟩

end

/-- What is written of two settled definitions is the same only if they are. -/
theorem Canonical.eq {d d' : ProcessDefinition} {doc : WireDoc} (h : Canonical d) (h' : Canonical d')
    (hd : marshalJSON d = .ok doc) (hd' : marshalJSON d' = .ok doc) : d = d' := by
  have hread := unmarshalJSON_marshalJSON d h.proper hd
  rw [unmarshalJSON_marshalJSON d' h'.proper hd', h.fixed, h'.fixed] at hread
  exact (Except.ok.inj hread).symm

end Wrkflw
