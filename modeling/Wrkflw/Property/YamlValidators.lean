import Wrkflw.Definition.Yaml

/-!
# Validators of nested definitions

A nested definition is built while the document is parsed, before the options of the loader are applied. Its descriptors are
so looked up in the default registry, whatever registry the loader is given; only those of the document's own nodes are
looked up in that one.

* `RegistryGives` : strategies that are what a registry gives for the descriptors of given places;
* `coreFromYAML_found`, `coreFromYAML_finds` : a document is read with a registry exactly where it is read without one and
  the registry has a strategy for each nested descriptor;
* `loadWith_ok`, `loadWith_isOk` : the same for a loaded document;
* `yaml_validators_follow_registry_iff` : when a registry is followed at every depth.
-/

namespace Wrkflw

variable {σ τ : Type} {u : UnicodeTables} {strategy : ValidationDescriptor → Except String σ}

/-- No registry: each descriptor stands for itself. -/
def unread (desc : ValidationDescriptor) : Except String ValidationDescriptor := .ok desc

def Resolved.place (r : Resolved σ) : List String × ValidationDescriptor := (r.path, r.desc)

/-- The strategies are those the registry gives for the descriptors of the places. -/
structure RegistryGives (strategy : ValidationDescriptor → Except String σ) (rs : List (Resolved τ))
    (rs' : List (Resolved σ)) : Prop where
  places : rs'.map Resolved.place = rs.map Resolved.place
  found : ∀ r ∈ rs', strategy r.desc = .ok r.strategy

/-- The registry has a strategy for each descriptor. -/
def Finds (strategy : ValidationDescriptor → Except String σ) (rs : List (Resolved τ)) : Prop :=
  ∀ r ∈ rs, ∃ s, strategy r.desc = .ok s

namespace RegistryGives
variable {rs rs2 : List (Resolved τ)} {rs' rs2' : List (Resolved σ)}

theorem nil : RegistryGives strategy ([] : List (Resolved τ)) [] := ⟨rfl, nofun⟩

theorem append (h : RegistryGives strategy rs rs') (h2 : RegistryGives strategy rs2 rs2') :
    RegistryGives strategy (rs ++ rs2) (rs' ++ rs2') := by
  refine ⟨by rw [List.map_append, List.map_append, h.places, h2.places], fun r hr => ?_⟩
  rcases List.mem_append.mp hr with hr | hr
  · exact h.found r hr
  · exact h2.found r hr

theorem cons (h : RegistryGives strategy rs rs') {path : List String} {desc : ValidationDescriptor} {t : τ} {s : σ}
    (hs : strategy desc = .ok s) : RegistryGives strategy (⟨path, desc, t⟩ :: rs) (⟨path, desc, s⟩ :: rs') := by
  refine ⟨congrArg (List.cons (path, desc)) h.places, fun r hr => ?_⟩
  rcases List.mem_cons.mp hr with rfl | hr
  · exact hs
  · exact h.found r hr

theorem within (h : RegistryGives strategy rs rs') (id : String) :
    RegistryGives strategy (rs.map (fun r => { r with path := id :: r.path }))
    (rs'.map (fun r => { r with path := id :: r.path })) := by
  constructor
  · have hmap : ∀ {α : Type} (l : List (Resolved α)),
        (l.map (fun r => { r with path := id :: r.path })).map Resolved.place =
          (l.map Resolved.place).map (fun p => (id :: p.1, p.2)) := by
      intro α l
      rw [List.map_map, List.map_map]
      rfl
    rw [hmap, hmap, h.places]
  · intro r hr
    obtain ⟨r', hr', rfl⟩ := List.mem_map.mp hr
    exact h.found r' hr'

/-- The descriptors of the places are those of the strategies. -/
theorem desc_mem (h : RegistryGives strategy rs rs') {r : Resolved τ} (hr : r ∈ rs) : ∃ r' ∈ rs', r'.desc = r.desc := by
  have hplace : r.place ∈ rs'.map Resolved.place := h.places ▸ List.mem_map_of_mem hr
  obtain ⟨r', hr', heq⟩ := List.mem_map.mp hplace
  exact ⟨r', hr', congrArg Prod.snd heq⟩

theorem mem_desc (h : RegistryGives strategy rs rs') {r' : Resolved σ} (hr : r' ∈ rs') : ∃ r ∈ rs, r.desc = r'.desc := by
  have hplace : r'.place ∈ rs.map Resolved.place := h.places ▸ List.mem_map_of_mem hr
  obtain ⟨r, hr, heq⟩ := List.mem_map.mp hplace
  exact ⟨r, hr, congrArg Prod.snd heq⟩

theorem finds (h : RegistryGives strategy rs rs') : Finds strategy rs := by
  intro r hr
  obtain ⟨r', hr', heq⟩ := h.desc_mem hr
  exact ⟨r'.strategy, heq ▸ h.found r' hr'⟩

end RegistryGives

theorem Finds.append_left {rs rs2 : List (Resolved τ)} (h : Finds strategy (rs ++ rs2)) : Finds strategy rs :=
  fun r hr => h r (List.mem_append_left _ hr)

theorem Finds.append_right {rs rs2 : List (Resolved τ)} (h : Finds strategy (rs ++ rs2)) : Finds strategy rs2 :=
  fun r hr => h r (List.mem_append_right _ hr)

theorem Finds.within {rs : List (Resolved τ)} {id : String}
    (h : Finds strategy (rs.map (fun r => { r with path := id :: r.path }))) : Finds strategy rs :=
  fun r hr => h { r with path := id :: r.path } (List.mem_map.mpr ⟨r, hr, rfl⟩)

/-! ## The nodes of one definition -/

theorem reconcileNodes_found : ∀ {nodes : List Node} {rs : List (Resolved σ)}, reconcileNodes strategy nodes = .ok rs →
    ∃ rs0, reconcileNodes unread nodes = .ok rs0 ∧ RegistryGives strategy rs0 rs := by
  intro nodes
  induction nodes with
  | nil =>
    intro rs h
    cases h
    exact ⟨[], rfl, .nil⟩
  | cons n nodes ih =>
    intro rs h
    unfold reconcileNodes at h ⊢
    split at h
    · exact ih h
    · next desc hdesc =>
      split at h
      · cases h
      · next live hlive =>
        split at h
        · cases h
        · next rs' hrs =>
          cases h
          obtain ⟨rs0, hrs0, hfound⟩ := ih hrs
          dsimp only [unread]
          rw [hrs0]
          exact ⟨_, rfl, hfound.cons hlive⟩

theorem reconcileNodes_finds : ∀ {nodes : List Node} {rs0 : List (Resolved ValidationDescriptor)},
    reconcileNodes unread nodes = .ok rs0 → Finds strategy rs0 → ∃ rs, reconcileNodes strategy nodes = .ok rs := by
  intro nodes
  induction nodes with
  | nil =>
    intro rs0 _ _
    exact ⟨[], rfl⟩
  | cons n nodes ih =>
    intro rs0 h hfinds
    unfold reconcileNodes at h ⊢
    split at h
    · exact ih h hfinds
    · next desc hdesc =>
      dsimp only [unread] at h
      split at h
      · cases h
      · next rs' hrs =>
        cases h
        obtain ⟨s, hs⟩ := hfinds _ List.mem_cons_self
        obtain ⟨rs, hrs'⟩ := ih hrs (fun r hr => hfinds r (List.mem_cons_of_mem _ hr))
        dsimp only at hs ⊢
        rw [hs]
        dsimp only
        rw [hrs']
        exact ⟨_, rfl⟩

theorem build_found {c : DefinitionCore σ} {c0 : DefinitionCore ValidationDescriptor} {l : Loaded σ}
    (hdef : c0.definition = c.definition) (h : c.build u strategy = .ok l) :
    ∃ l0, c0.build u unread = .ok l0 ∧ l.definition = l0.definition ∧ l.nested = c.nested ∧ l0.nested = c0.nested ∧
      RegistryGives strategy l0.root l.root := by
  unfold DefinitionCore.build at h ⊢
  split at h
  · cases h
  · next root hroot =>
    split at h
    · next hvalid =>
      cases h
      obtain ⟨rs0, hrs0, hfound⟩ := reconcileNodes_found hroot
      rw [hdef, hrs0]
      dsimp only
      rw [if_pos hvalid]
      exact ⟨_, rfl, rfl, rfl, rfl, hfound⟩
    · cases h

theorem build_finds {c : DefinitionCore σ} {c0 : DefinitionCore ValidationDescriptor} {l0 : Loaded ValidationDescriptor}
    (hdef : c.definition = c0.definition) (h : c0.build u unread = .ok l0) (hfinds : Finds strategy l0.root) :
    ∃ l, c.build u strategy = .ok l := by
  unfold DefinitionCore.build at h ⊢
  split at h
  · cases h
  · next root hroot =>
    split at h
    · next hvalid =>
      cases h
      obtain ⟨rs, hrs⟩ := reconcileNodes_finds hroot hfinds
      rw [hdef, hrs]
      dsimp only
      rw [if_pos hvalid]
      exact ⟨_, rfl⟩
    · cases h

/-! ## A document -/

mutual

theorem coreFromYAML_found : ∀ (d : DefinitionYAML) {c : DefinitionCore σ}, coreFromYAML u strategy d = .ok c →
    ∃ c0, coreFromYAML u unread d = .ok c0 ∧ c0.definition = c.definition ∧ RegistryGives strategy c0.nested c.nested
  | ⟨id, version, nodes, flows, cancelActions⟩, c, h => by
    unfold coreFromYAML at h ⊢
    split at h
    · cases h
    · next ns nested hns =>
      cases h
      obtain ⟨nested0, hns0, hfound⟩ := nodesFromYAML_found nodes hns
      rw [hns0]
      exact ⟨_, rfl, rfl, hfound⟩

theorem nodesFromYAML_found : ∀ (nys : List NodeYAML) {ns : List Node} {rs : List (Resolved σ)},
    nodesFromYAML u strategy nys = .ok (ns, rs) →
      ∃ rs0, nodesFromYAML u unread nys = .ok (ns, rs0) ∧ RegistryGives strategy rs0 rs
  | [], ns, rs, h => by
    unfold nodesFromYAML at h ⊢
    cases h
    exact ⟨[], rfl, .nil⟩
  | ny :: nys, ns, rs, h => by
    unfold nodesFromYAML at h ⊢
    split at h
    · cases h
    · next n rs1 hn =>
      split at h
      · cases h
      · next ns' rss hns =>
        cases h
        obtain ⟨rs10, hn0, hfound⟩ := fromNodeYAML_found ny hn
        obtain ⟨rss0, hns0, hfounds⟩ := nodesFromYAML_found nys hns
        rw [hn0]
        dsimp only
        rw [hns0]
        exact ⟨_, rfl, hfound.append hfounds⟩

theorem fromNodeYAML_found : ∀ (ny : NodeYAML) {n : Node} {rs : List (Resolved σ)},
    fromNodeYAML u strategy ny = .ok (n, rs) → ∃ rs0, fromNodeYAML u unread ny = .ok (n, rs0) ∧ RegistryGives strategy rs0 rs
  | ⟨label, kind, fields, sub⟩, n, rs, h => by
    unfold fromNodeYAML at h ⊢
    split at h
    · cases h
    · next hlabel =>
      rw [if_neg hlabel]
      split at h
      · cases h
      · next k hk =>
        split at h
        · cases h
        · next d rs1 hsub =>
          obtain ⟨rs0, hsub0, hfound⟩ := subFromYAML_found fields.id sub hsub
          split at h
          · cases h
          · next n' hwire =>
            cases h
            rw [hsub0]
            dsimp only
            rw [hwire]
            exact ⟨_, rfl, hfound⟩

theorem subFromYAML_found (id : String) : ∀ (sub : Option DefinitionYAML) {d : Option ProcessDefinition}
    {rs : List (Resolved σ)}, subFromYAML u strategy id sub = .ok (d, rs) →
      ∃ rs0, subFromYAML u unread id sub = .ok (d, rs0) ∧ RegistryGives strategy rs0 rs
  | none, d, rs, h => by
    unfold subFromYAML at h ⊢
    cases h
    exact ⟨[], rfl, .nil⟩
  | some doc, d, rs, h => by
    unfold subFromYAML at h ⊢
    split at h
    · cases h
    · next core hcore =>
      split at h
      · cases h
      · next l hl =>
        cases h
        obtain ⟨c0, hc0, hdef, hfound⟩ := coreFromYAML_found doc hcore
        obtain ⟨l0, hl0, hldef, hnested, hnested0, hroot⟩ := build_found hdef hl
        rw [hc0]
        dsimp only
        rw [hl0, hldef]
        refine ⟨_, rfl, ?_⟩
        unfold Loaded.within
        rw [hnested, hnested0]
        exact (hfound.append hroot).within id

end

mutual

theorem coreFromYAML_finds : ∀ (d : DefinitionYAML) {c0 : DefinitionCore ValidationDescriptor},
    coreFromYAML u unread d = .ok c0 → Finds strategy c0.nested →
      ∃ c, coreFromYAML u strategy d = .ok c ∧ c.definition = c0.definition
  | ⟨id, version, nodes, flows, cancelActions⟩, c0, h, hfinds => by
    unfold coreFromYAML at h ⊢
    split at h
    · cases h
    · next ns nested hns =>
      cases h
      obtain ⟨rs, hrs⟩ := nodesFromYAML_finds nodes hns hfinds
      rw [hrs]
      exact ⟨_, rfl, rfl⟩

theorem nodesFromYAML_finds : ∀ (nys : List NodeYAML) {ns : List Node}
    {rs0 : List (Resolved ValidationDescriptor)}, nodesFromYAML u unread nys = .ok (ns, rs0) → Finds strategy rs0 →
      ∃ rs, nodesFromYAML u strategy nys = .ok (ns, rs)
  | [], ns, rs0, h, _ => by
    unfold nodesFromYAML at h ⊢
    cases h
    exact ⟨[], rfl⟩
  | ny :: nys, ns, rs0, h, hfinds => by
    unfold nodesFromYAML at h ⊢
    split at h
    · cases h
    · next n rs1 hn =>
      split at h
      · cases h
      · next ns' rss hns =>
        cases h
        obtain ⟨rs, hrs⟩ := fromNodeYAML_finds ny hn hfinds.append_left
        obtain ⟨rss', hrss⟩ := nodesFromYAML_finds nys hns hfinds.append_right
        rw [hrs]
        dsimp only
        rw [hrss]
        exact ⟨_, rfl⟩

theorem fromNodeYAML_finds : ∀ (ny : NodeYAML) {n : Node} {rs0 : List (Resolved ValidationDescriptor)},
    fromNodeYAML u unread ny = .ok (n, rs0) → Finds strategy rs0 → ∃ rs, fromNodeYAML u strategy ny = .ok (n, rs)
  | ⟨label, kind, fields, sub⟩, n, rs0, h, hfinds => by
    unfold fromNodeYAML at h ⊢
    split at h
    · cases h
    · next hlabel =>
      rw [if_neg hlabel]
      split at h
      · cases h
      · next k hk =>
        split at h
        · cases h
        · next d rs1 hsub =>
          split at h
          · cases h
          · next n' hwire =>
            cases h
            obtain ⟨rs, hrs⟩ := subFromYAML_finds fields.id sub hsub hfinds
            rw [hrs]
            dsimp only
            rw [hwire]
            exact ⟨_, rfl⟩

theorem subFromYAML_finds (id : String) : ∀ (sub : Option DefinitionYAML) {d : Option ProcessDefinition}
    {rs0 : List (Resolved ValidationDescriptor)}, subFromYAML u unread id sub = .ok (d, rs0) → Finds strategy rs0 →
      ∃ rs, subFromYAML u strategy id sub = .ok (d, rs)
  | none, d, rs0, h, _ => by
    unfold subFromYAML at h ⊢
    cases h
    exact ⟨[], rfl⟩
  | some doc, d, rs0, h, hfinds => by
    unfold subFromYAML at h ⊢
    split at h
    · cases h
    · next core hcore =>
      split at h
      · cases h
      · next l0 hl0 =>
        cases h
        have hall : Finds strategy (l0.nested ++ l0.root) := Finds.within hfinds
        have hnested : l0.nested = core.nested := by
          obtain ⟨-, -, -, hnested, -⟩ := build_found rfl hl0
          exact hnested
        obtain ⟨c, hc, hdef⟩ := coreFromYAML_finds doc hcore (hnested ▸ hall.append_left)
        obtain ⟨l, hl⟩ := build_finds hdef hl0 hall.append_right
        have hldef : l.definition = l0.definition := by
          obtain ⟨l0', hl0', hldef, -⟩ := build_found hdef.symm hl
          rw [hl0] at hl0'
          cases hl0'
          exact hldef
        rw [hc]
        dsimp only
        rw [hl, ← hldef]
        exact ⟨_, rfl⟩

end

/-! ## Loading -/

section Load
variable {inner outer : ValidationDescriptor → Except String σ} {doc : DefinitionYAML}

/-- A document that is loaded: it can be, without a registry, and the two registries gave its strategies. -/
theorem loadWith_ok {l : Loaded σ} (h : loadWith u inner outer doc = .ok l) :
    ∃ l0, loadWith u unread unread doc = .ok l0 ∧ RegistryGives inner l0.nested l.nested ∧
      RegistryGives outer l0.root l.root := by
  unfold loadWith at h ⊢
  split at h
  · cases h
  · next core hcore =>
    obtain ⟨c0, hc0, hdef, hfound⟩ := coreFromYAML_found doc hcore
    obtain ⟨l0, hl0, -, hnested, hnested0, hroot⟩ := build_found hdef h
    rw [hc0]
    exact ⟨l0, hl0, by rwa [hnested, hnested0], hroot⟩

theorem loadWith_finds {l0 : Loaded ValidationDescriptor} (h : loadWith u unread unread doc = .ok l0)
    (hinner : Finds inner l0.nested) (houter : Finds outer l0.root) : ∃ l, loadWith u inner outer doc = .ok l := by
  unfold loadWith at h ⊢
  split at h
  · cases h
  · next core hcore =>
    have hnested : l0.nested = core.nested := by
      obtain ⟨-, -, -, hnested, -⟩ := build_found rfl h
      exact hnested
    obtain ⟨c, hc, hdef⟩ := coreFromYAML_finds doc hcore (hnested ▸ hinner)
    obtain ⟨l, hl⟩ := build_finds hdef h houter
    rw [hc]
    exact ⟨l, hl⟩

/-- What a document needs of the registries. -/
theorem loadWith_ok_iff : (∃ l, loadWith u inner outer doc = .ok l) ↔
    ∃ l0, loadWith u unread unread doc = .ok l0 ∧ Finds inner l0.nested ∧ Finds outer l0.root := by
  constructor
  · rintro ⟨l, hl⟩
    obtain ⟨l0, hl0, hinner, houter⟩ := loadWith_ok hl
    exact ⟨l0, hl0, hinner.finds, houter.finds⟩
  · rintro ⟨l0, hl0, hinner, houter⟩
    exact loadWith_finds hl0 hinner houter

end Load

/-- Every strategy of the loaded definition is the registry's for its descriptor, and the document is loaded exactly where it
would be with every descriptor looked up as those of its own nodes are. -/
structure FollowsRegistry (u : UnicodeTables) (defaults registry : ValidationDescriptor → Except String σ)
    (doc : DefinitionYAML) : Prop where
  resolved : ∀ l, loadYAML u defaults registry doc = .ok l → ∀ r ∈ l.nested ++ l.root, registry r.desc = .ok r.strategy
  loads : (∃ l, loadYAML u defaults registry doc = .ok l) ↔ ∃ l, loadWith u registry registry doc = .ok l

/-- What the document needs of the default registry: it is refused whatever the registries have for its nested
descriptors, or both registries refuse one of these, or both have one strategy for each of them. -/
def DefaultsSuffice (u : UnicodeTables) (defaults registry : ValidationDescriptor → Except String σ) (doc : DefinitionYAML) :
    Prop :=
  ∀ l0, loadWith u unread unread doc = .ok l0 → Finds registry l0.root →
    (¬ Finds defaults l0.nested ∧ ¬ Finds registry l0.nested) ∨
      ∀ r ∈ l0.nested, ∃ s, defaults r.desc = .ok s ∧ registry r.desc = .ok s

theorem yaml_validators_follow_registry_iff (u : UnicodeTables) (defaults registry : ValidationDescriptor → Except String σ)
    (doc : DefinitionYAML) : FollowsRegistry u defaults registry doc ↔ DefaultsSuffice u defaults registry doc := by
  constructor
  · intro h l0 hl0 hroot
    by_cases hdefaults : Finds defaults l0.nested
    · right
      obtain ⟨l, hl⟩ := loadWith_finds hl0 hdefaults hroot
      obtain ⟨l0', hl0', hinner, houter⟩ := loadWith_ok hl
      cases hl0.symm.trans hl0'
      intro r hr
      obtain ⟨r', hr', heq⟩ := hinner.desc_mem hr
      refine ⟨r'.strategy, heq ▸ hinner.found r' hr', ?_⟩
      rw [← heq]
      exact h.resolved l hl r' (List.mem_append_left _ hr')
    · refine .inl ⟨hdefaults, fun hregistry => ?_⟩
      obtain ⟨l, hl⟩ := h.loads.mpr (loadWith_finds hl0 hregistry hroot)
      obtain ⟨l0', hl0', hinner, -⟩ := loadWith_ok hl
      cases hl0.symm.trans hl0'
      exact hdefaults hinner.finds
  · intro h
    constructor
    · intro l hl r hr
      obtain ⟨l0, hl0, hinner, houter⟩ := loadWith_ok hl
      rcases List.mem_append.mp hr with hr | hr
      · rcases h l0 hl0 houter.finds with hneither | hagree
        · exact absurd hinner.finds hneither.1
        · obtain ⟨r0, hr0, heq⟩ := hinner.mem_desc hr
          obtain ⟨s, hdefault, hregistry⟩ := hagree r0 hr0
          rw [heq] at hdefault hregistry
          cases hdefault.symm.trans (hinner.found r hr)
          exact hregistry
      · exact houter.found r hr
    · unfold loadYAML
      rw [loadWith_ok_iff, loadWith_ok_iff]
      constructor
      · rintro ⟨l0, hl0, hinner, houter⟩
        rcases h l0 hl0 houter with hneither | hagree
        · exact absurd hinner hneither.1
        · exact ⟨l0, hl0, fun r hr => (hagree r hr).imp (fun _ hs => hs.2), houter⟩
      · rintro ⟨l0, hl0, hinner, houter⟩
        rcases h l0 hl0 houter with hneither | hagree
        · exact absurd hinner hneither.2
        · exact ⟨l0, hl0, fun r hr => (hagree r hr).imp (fun _ hs => hs.1), houter⟩

/-- A task with a validator of the kind `custom`, from start to end. -/
def guardedTask : DefinitionYAML where
  id := "guarded"
  version := 1
  nodes := [{ kind := "startEvent", fields := { id := "s" } },
    { kind := "userTask", fields := { id := "t", validation := some { kind := "custom" } } },
    { kind := "endEvent", fields := { id := "e" } }]
  flows := [{ id := "f", source := "s", target := "t" }, { id := "g", source := "t", target := "e" }]

/-- The same, as a sub-process. -/
def guardedWithin : DefinitionYAML where
  id := "outer"
  version := 1
  nodes := [{ kind := "startEvent", fields := { id := "s" } },
    { kind := "subProcess", fields := { id := "p" }, subprocess := some guardedTask },
    { kind := "endEvent", fields := { id := "e" } }]
  flows := [{ id := "f", source := "s", target := "p" }, { id := "g", source := "p", target := "e" }]

/-- A registry with one kind. -/
def registryOf (kind : String) (desc : ValidationDescriptor) : Except String String :=
  if desc.kind = kind then .ok kind else .error ("workflow-validation: unknown validation kind: " ++ quoted desc.kind)

/-- The loader is given a registry with the kind `custom`, which the default registry has not: the task is loaded at the root
and refused in a sub-process. -/
theorem nested_validator_refused :
    (∃ l, loadYAML asciiTables (registryOf "expr") (registryOf "custom") guardedTask = .ok l) ∧
      ¬ (∃ l, loadYAML asciiTables (registryOf "expr") (registryOf "custom") guardedWithin = .ok l) ∧
      ¬ FollowsRegistry asciiTables (registryOf "expr") (registryOf "custom") guardedWithin := by
  have hroot : ∃ l, loadYAML asciiTables (registryOf "expr") (registryOf "custom") guardedTask = .ok l := ⟨_, rfl⟩
  have hrefused : ¬ ∃ l, loadYAML asciiTables (registryOf "expr") (registryOf "custom") guardedWithin = .ok l := by
    rintro ⟨l, hl⟩
    cases hl
  have hideal : ∃ l, loadWith asciiTables (registryOf "custom") (registryOf "custom") guardedWithin = .ok l := ⟨_, rfl⟩
  exact ⟨hroot, hrefused, fun h => hrefused (h.loads.mpr hideal)⟩

end Wrkflw
