import KjAtlas.Patch.Lint

/-! # What the linter says about the patched document

The maps of the linter and the document follow the operations side by side.
They agree on cards, islands and edges. Of the evidence links the maps may keep
more, since only the document loses the links of a deleted card. A patch that
passes the linter therefore leaves no dangling reference.
-/

namespace KjAtlas

open Js

/-! ## Simulation -/

/-- The maps describe the document; they may hold further evidence links. -/
structure Simulates (maps : EntityMaps) (doc : DocumentV1) : Prop where
  cards : ∀ id, maps.cards.get? id = (findBy Card.id id doc.cards).map fun _ => ()
  islands : ∀ id, maps.islands.get? id = findBy Island.id id doc.islands
  edges : ∀ id, maps.edges.get? id = findBy Edge.id id doc.edges
  links : ∀ id link, findBy EvidenceLink.id id doc.links = some link →
    maps.evidenceLinks.get? id = some link

namespace Simulates

theorem ofDocument {doc : DocumentV1}
    (hunique : ∀ kind, kind ≠ .relSummary → (doc.ids kind).Nodup) :
    Simulates (.ofDocument doc) doc where
  cards := InsertionMap.get?_ofList_map _ _ (hunique .card (by simp))
  islands := get?_mapBy _ (hunique .island (by simp))
  edges := get?_mapBy _ (hunique .edge (by simp))
  links id link hfind := (get?_mapBy _ (hunique .evidenceLink (by simp)) id).trans hfind

theorem apply {maps : EntityMaps} {doc : DocumentV1} (hsim : Simulates maps doc)
    (hnodup : (doc.ids .evidenceLink).Nodup) (op : PatchOp) :
    Simulates (maps.apply op) (applyPatchOp doc op) := by
  obtain ⟨hcards, hislands, hedges, hlinks⟩ := hsim
  obtain ⟨opId, change⟩ := op
  cases change with
  | upsertCard card =>
      refine ⟨fun id => ?_, hislands, hedges, hlinks⟩
      simp only [EntityMaps.apply, applyPatchOp, InsertionMap.get?_set, upsertById_eq_upsertBy,
        findBy_upsertBy, hcards]
      split <;> rfl
  | deleteCard cardId =>
      refine ⟨fun id => ?_, hislands, hedges, fun id link hfind => hlinks id link ?_⟩
      · simp only [EntityMaps.apply, applyPatchOp, InsertionMap.get?_delete, findBy_filter_key,
          hcards]
        split <;> rfl
      · -- a link that outlives the cascade was there before
        rw [applyPatchOp, DocumentV1.links, Option.getD_some, findBy_filter _ _ _ hnodup,
          Option.filter_eq_some_iff] at hfind
        exact hfind.1
  | upsertIsland island =>
      refine ⟨hcards, fun id => ?_, hedges, hlinks⟩
      simp only [EntityMaps.apply, applyPatchOp, InsertionMap.get?_set, upsertById_eq_upsertBy,
        findBy_upsertBy, hislands]
  | deleteIsland islandId =>
      refine ⟨hcards, fun id => ?_, hedges, hlinks⟩
      simp only [EntityMaps.apply, applyPatchOp, InsertionMap.get?_delete, findBy_filter_key,
        hislands]
  | upsertEdge edge =>
      refine ⟨hcards, hislands, fun id => ?_, hlinks⟩
      simp only [EntityMaps.apply, applyPatchOp, InsertionMap.get?_set, upsertById_eq_upsertBy,
        findBy_upsertBy, hedges]
  | deleteEdge edgeId =>
      refine ⟨hcards, hislands, fun id => ?_, hlinks⟩
      simp only [EntityMaps.apply, applyPatchOp, InsertionMap.get?_delete, findBy_filter_key,
        hedges]
  | upsertRelationSummary summary => exact ⟨hcards, hislands, hedges, hlinks⟩
  | deleteRelationSummary sourceSignature => exact ⟨hcards, hislands, hedges, hlinks⟩
  | upsertEvidenceLink link =>
      refine ⟨hcards, hislands, hedges, fun id other hfind => ?_⟩
      rw [applyPatchOp, DocumentV1.links, Option.getD_some, upsertById_eq_upsertBy,
        findBy_upsertBy] at hfind
      rw [EntityMaps.apply, InsertionMap.get?_set]
      split at hfind
      next hid => rw [if_pos hid, hfind]
      next hid => rw [if_neg hid, hlinks id other hfind]
  | deleteEvidenceLink linkId =>
      refine ⟨hcards, hislands, hedges, fun id other hfind => ?_⟩
      rw [applyPatchOp, DocumentV1.links, Option.getD_some, findBy_filter_key] at hfind
      rw [EntityMaps.apply, InsertionMap.get?_delete]
      split at hfind
      next hid => contradiction
      next hid => rw [if_neg hid, hlinks id other hfind]

theorem run {maps : EntityMaps} {doc : DocumentV1} (hsim : Simulates maps doc)
    (hnodup : (doc.ids .evidenceLink).Nodup) (ops : List PatchOp) :
    Simulates (ops.foldl EntityMaps.apply maps) (applyPatchOps ops doc) := by
  induction ops generalizing maps doc with
  | nil => exact hsim
  | cons op ops ih => exact ih (hsim.apply hnodup op) (nodup_ids_applyPatchOp hnodup op)

end Simulates

theorem foldl_lintState_maps (ops : List PatchOp) (state : LintState) :
    (ops.foldl LintState.apply state).maps = ops.foldl EntityMaps.apply state.maps := by
  induction ops generalizing state with
  | nil => rfl
  | cons op ops ih => exact ih (state.apply op)

theorem applyPatchToMaps_maps (doc : DocumentV1) (patch : PatchV1) :
    (applyPatchToMaps doc patch).maps = patch.ops.foldl EntityMaps.apply (.ofDocument doc) :=
  foldl_lintState_maps patch.ops _

theorem simulates_applyPatchToMaps {doc : DocumentV1}
    (hunique : ∀ kind, kind ≠ .relSummary → (doc.ids kind).Nodup) (patch : PatchV1) :
    Simulates (applyPatchToMaps doc patch).maps (applyPatchOps patch.ops doc) := by
  rw [applyPatchToMaps_maps]
  exact (Simulates.ofDocument hunique).run (hunique .evidenceLink (by simp)) patch.ops

/-! ## Soundness -/

/-- Ids are unique and references between entities do not dangle. -/
structure WellFormed (doc : DocumentV1) : Prop where
  ids : ∀ kind, kind ≠ .relSummary → (doc.ids kind).Nodup
  islands : ∀ island ∈ doc.islands, ∀ cardId ∈ island.cardIds, ∃ card ∈ doc.cards, card.id = cardId
  edges : ∀ edge ∈ doc.edges,
    doc.hasEndpoint edge.fromKind edge.fromId ∧ doc.hasEndpoint edge.toKind edge.toId
  links : ∀ link ∈ doc.links,
    (∃ card ∈ doc.cards, card.id = link.fromCardId) ∧ ∃ card ∈ doc.cards, card.id = link.toCardId

section Soundness

variable {state : LintState} {doc : DocumentV1}

section

variable (hsim : Simulates state.maps doc)
include hsim

theorem has_card {cardId : String} :
    state.maps.cards.has cardId = true ↔ ∃ card ∈ doc.cards, card.id = cardId := by
  rw [InsertionMap.has, hsim.cards, Option.isSome_map, findBy_isSome]

theorem hasEndpoint_of_not_missing {kind : Option EdgeEndpointKind} {id : String}
    (hmissing : endpointMissing state (kind.getD .card) id = false) : doc.hasEndpoint kind id := by
  unfold DocumentV1.hasEndpoint
  unfold endpointMissing at hmissing
  cases hkind : kind.getD .card with
  | card =>
      rw [hkind, Bool.not_eq_false'] at hmissing
      exact (has_card hsim).mp hmissing
  | island =>
      rw [hkind, Bool.not_eq_false', InsertionMap.has, hsim.islands, findBy_isSome] at hmissing
      exact hmissing

theorem cards_of_islandIssue_eq_none {island : Island} (hnone : islandIssue state island = none) :
    ∀ cardId ∈ island.cardIds, ∃ card ∈ doc.cards, card.id = cardId := by
  intro cardId hcardId
  simp only [islandIssue, ite_eq_left_iff, reduceCtorEq, imp_false, not_not,
    List.isEmpty_iff, List.filter_eq_nil_iff] at hnone
  have hhas := hnone cardId hcardId
  rw [Bool.not_eq_true, Bool.not_eq_false'] at hhas
  exact (has_card hsim).mp hhas

theorem endpoints_of_edgeIssue_eq_none {edge : Edge} (hnone : edgeIssue state edge = none) :
    doc.hasEndpoint edge.fromKind edge.fromId ∧ doc.hasEndpoint edge.toKind edge.toId := by
  simp only [edgeIssue, ite_eq_left_iff, reduceCtorEq, imp_false, not_not,
    List.isEmpty_iff, List.append_eq_nil_iff] at hnone
  obtain ⟨hfrom, hto⟩ := hnone
  constructor
  · apply hasEndpoint_of_not_missing hsim
    rw [← Bool.not_eq_true]
    intro hmissing
    simp [hmissing] at hfrom
  · apply hasEndpoint_of_not_missing hsim
    rw [← Bool.not_eq_true]
    intro hmissing
    simp [hmissing] at hto

theorem cards_of_evidenceLinkIssue_eq_none {link : EvidenceLink}
    (hnone : evidenceLinkIssue state link = none) :
    (∃ card ∈ doc.cards, card.id = link.fromCardId) ∧
      ∃ card ∈ doc.cards, card.id = link.toCardId := by
  simp only [evidenceLinkIssue, ite_eq_left_iff, reduceCtorEq, imp_false, not_not,
    List.isEmpty_iff, List.filter_eq_nil_iff, List.mem_cons, List.not_mem_nil, or_false,
    forall_eq_or_imp, forall_eq, Bool.not_eq_true, Bool.not_eq_false'] at hnone
  exact ⟨(has_card hsim).mp hnone.1, (has_card hsim).mp hnone.2⟩

end

end Soundness

section Lint

variable {doc : DocumentV1} {patch : PatchV1}

/-- Without an error, a check that reports errors finds nothing. -/
theorem no_issue_of_not_blocked {α : Type} {issues : List PatchLintIssue}
    {check : α → Option PatchLintIssue} (items : List α)
    (hlint : shouldBlockPatchApplyByLint issues = false) (hreported : ∀ issue ∈ items.filterMap check, issue ∈ issues)
    (herror : ∀ item issue, check item = some issue → issue.severity = .error) :
    ∀ item ∈ items, check item = none := by
  intro item hitem
  cases hcheck : check item with
  | none => rfl
  | some issue =>
      have hmem := hreported issue (List.mem_filterMap.mpr ⟨item, hitem, hcheck⟩)
      have hblocked : shouldBlockPatchApplyByLint issues = true :=
        List.any_eq_true.mpr ⟨issue, hmem, decide_eq_true (herror item issue hcheck)⟩
      rw [hlint] at hblocked
      contradiction

/-- The linter reports dangling references as errors. -/
theorem severity_of_issue (state : LintState) :
    (∀ island issue, islandIssue state island = some issue → issue.severity = .error) ∧
      (∀ edge issue, edgeIssue state edge = some issue → issue.severity = .error) ∧
        ∀ link issue, evidenceLinkIssue state link = some issue → issue.severity = .error := by
  refine ⟨fun island issue hissue => ?_, fun edge issue hissue => ?_, fun link issue hissue => ?_⟩
  · simp only [islandIssue, Option.ite_none_left_eq_some] at hissue
    rw [← Option.some.inj hissue.2]
  · simp only [edgeIssue, Option.ite_none_left_eq_some] at hissue
    rw [← Option.some.inj hissue.2]
  · simp only [evidenceLinkIssue, Option.ite_none_left_eq_some] at hissue
    rw [← Option.some.inj hissue.2]

/-- A patch without lint errors leaves a well-formed document. -/
theorem wellFormed_of_lint (lc : Collation) (resolutions : String → Option PatchResolution)
    (hunique : ∀ kind, kind ≠ .relSummary → (doc.ids kind).Nodup)
    (hlint : shouldBlockPatchApplyByLint (lintPatchAgainstCurrentDoc doc patch) = false) :
    WellFormed
      (applyPatchWithResolutionsDetailed lc doc patch resolutions none none).document := by
  rw [document_of_no_baseline]
  have hsim := simulates_applyPatchToMaps hunique patch
  have hids : ∀ kind, kind ≠ .relSummary → ((applyPatchOps patch.ops doc).ids kind).Nodup :=
    fun kind hkind => nodup_ids_applyPatchOps (hunique kind hkind) patch.ops
  obtain ⟨hisland, hedge, hlink⟩ := severity_of_issue (applyPatchToMaps doc patch)
  have hislands := no_issue_of_not_blocked (applyPatchToMaps doc patch).maps.islands.values
    hlint (fun issue hissue => by simp [lintPatchAgainstCurrentDoc, hissue]) hisland
  have hedges := no_issue_of_not_blocked (applyPatchToMaps doc patch).maps.edges.values
    hlint (fun issue hissue => by simp [lintPatchAgainstCurrentDoc, hissue]) hedge
  have hlinks := no_issue_of_not_blocked (applyPatchToMaps doc patch).maps.evidenceLinks.values
    hlint (fun issue hissue => by simp [lintPatchAgainstCurrentDoc, hissue]) hlink
  refine ⟨hids, fun island hmem => ?_, fun edge hmem => ?_, fun link hmem => ?_⟩
  · apply cards_of_islandIssue_eq_none hsim
    apply hislands
    rw [InsertionMap.mem_values]
    exact ⟨island.id, by rw [hsim.islands, findBy_of_mem Island.id (hids .island (by simp)) hmem]⟩
  · apply endpoints_of_edgeIssue_eq_none hsim
    apply hedges
    rw [InsertionMap.mem_values]
    exact ⟨edge.id, by rw [hsim.edges, findBy_of_mem Edge.id (hids .edge (by simp)) hmem]⟩
  · apply cards_of_evidenceLinkIssue_eq_none hsim
    apply hlinks
    rw [InsertionMap.mem_values]
    exact ⟨link.id, hsim.links _ _
      (findBy_of_mem EvidenceLink.id (hids .evidenceLink (by simp)) hmem)⟩

/-- A patch that replaces a card and moves a link to the new one. -/
theorem wellFormed_of_lint_replaced_card :
    shouldBlockPatchApplyByLint (lintPatchAgainstCurrentDoc
        (.smallest [.smallest "a" "text", .smallest "b" "text"] [.smallest "l" "a" "b"])
        (.ofOps [⟨"1", .deleteCard "b"⟩, ⟨"2", .upsertCard (.smallest "c" "text")⟩,
          ⟨"3", .upsertEvidenceLink (.smallest "l" "a" "c")⟩])) = false ∧
      WellFormed (applyPatchWithResolutionsDetailed .codeUnit
        (.smallest [.smallest "a" "text", .smallest "b" "text"] [.smallest "l" "a" "b"])
        (.ofOps [⟨"1", .deleteCard "b"⟩, ⟨"2", .upsertCard (.smallest "c" "text")⟩,
          ⟨"3", .upsertEvidenceLink (.smallest "l" "a" "c")⟩])
        (fun _ => none) none none).document :=
  ⟨by decide, wellFormed_of_lint .codeUnit _
    (fun kind _ => by cases kind <;> decide) (by decide)⟩

end Lint

/-! ## Evidence links -/

section Links

variable {doc : DocumentV1} {patch : PatchV1}

/-- What a sequence of operations makes of an entity when deleted cards do not
take their links along. -/
def lastValue (key : EntityKey) (ops : List PatchOp) (entity : Option Entity) : Option Entity :=
  ops.foldl (fun entity op => if op.entityKey = key then op.theirValue else entity) entity

variable {key : EntityKey} {ops : List PatchOp} {value : Entity}

theorem lastValue_of_untouched (hother : ∀ op ∈ ops, op.entityKey ≠ key) (entity : Option Entity) :
    lastValue key ops entity = entity := by
  induction ops with
  | nil => rfl
  | cons op ops ih =>
      rw [List.forall_mem_cons] at hother
      rw [lastValue, List.foldl_cons, if_neg hother.1, ← lastValue, ih hother.2]

theorem lastValue_of_last {op : PatchOp} {after : List PatchOp} (hop : op.entityKey = key)
    (hafter : ∀ later ∈ after, later.entityKey ≠ key) (before : List PatchOp)
    (entity : Option Entity) : lastValue key (before ++ op :: after) entity = op.theirValue := by
  rw [lastValue, List.foldl_append, List.foldl_cons, if_pos hop, ← lastValue,
    lastValue_of_untouched hafter]

theorem lastValue_of_agree {value : Option Entity}
    (hagree : ∀ op ∈ ops, op.entityKey = key → op.theirValue = value) (entity : Option Entity) :
    lastValue key ops entity = if ∃ op ∈ ops, op.entityKey = key then value else entity := by
  rcases none_or_exists_last (fun op : PatchOp => op.entityKey = key) ops with
    hnone | ⟨op, after, hsuffix, hkey, hafter⟩
  · rw [lastValue_of_untouched hnone, if_neg]
    rintro ⟨op, hop, hkey⟩
    exact hnone op hop hkey
  · have hop : op ∈ ops := hsuffix.mem List.mem_cons_self
    rw [if_pos ⟨op, hop, hkey⟩, ← hagree op hop hkey]
    obtain ⟨before, rfl⟩ := hsuffix
    exact lastValue_of_last hkey hafter before entity

/-- A value that no deletion of a card reaches is what the run leaves. -/
theorem entityRun_eq_lastValue {entity : Option Entity}
    (hsafe : ∀ value ∈ lastValue key ops entity, ∀ op ∈ ops, op.cascades value = false) :
    entityRun key ops entity = lastValue key ops entity := by
  rcases none_or_exists_last (fun op : PatchOp => op.entityKey = key) ops with
    hnone | ⟨op, after, hsuffix, hkey, hafter⟩
  · rw [lastValue_of_untouched hnone] at hsafe ⊢
    rw [entityRun_of_untouched hnone, filter_eq_self_iff]
    intro value hvalue
    rw [Bool.not_eq_true', List.any_eq_false]
    exact fun op hop => by rw [hsafe value hvalue op hop]; exact Bool.false_ne_true
  · obtain ⟨before, rfl⟩ := hsuffix
    rw [lastValue_of_last hkey hafter] at hsafe ⊢
    rw [entityRun_of_last hkey hafter, filter_eq_self_iff]
    intro value hvalue
    rw [Bool.not_eq_true', List.any_eq_false]
    intro later hlater
    have hmem : later ∈ before ++ op :: after :=
      List.mem_append_right _ (List.mem_cons_of_mem _ hlater)
    rw [hsafe value hvalue later hmem]
    exact Bool.false_ne_true

theorem key_of_lastValue (ops : List PatchOp)
    (hvalue : value ∈ lastValue key ops (doc.lookup key)) : value.key = key := by
  rcases none_or_exists_last (fun op : PatchOp => op.entityKey = key) ops with
    hnone | ⟨op, after, ⟨before, rfl⟩, hkey, hafter⟩
  · rw [lastValue_of_untouched hnone] at hvalue
    exact DocumentV1.lookup_key hvalue
  · rw [lastValue_of_last hkey hafter] at hvalue
    exact (PatchOp.key_of_theirValue hvalue).trans hkey

/-- Deleting cards only reaches evidence links. -/
theorem not_cascades_of_key (hkind : value.key.kind ≠ .evidenceLink) (op : PatchOp) :
    op.cascades value = false := by
  have htouches : ∀ cardId, value.touches cardId = false := by
    intro cardId
    cases value with
    | evidenceLink link => exact absurd rfl hkind
    | _ => rfl
  rw [PatchOp.cascades, Option.any_eq_false_iff_get]
  exact fun hsome => htouches _

theorem lookup_applyPatchOps_of_not_link (hkind : key.kind ≠ .evidenceLink) (ops : List PatchOp) :
    (applyPatchOps ops doc).lookup key = lastValue key ops (doc.lookup key) := by
  rw [lookup_applyPatchOps fun hlink => absurd hlink hkind, entityRun_eq_lastValue]
  intro value hvalue op _
  exact not_cascades_of_key (by rwa [key_of_lastValue ops hvalue]) op

theorem evidenceLinks_get?_apply (maps : EntityMaps) (op : PatchOp) (id : String) :
    ((maps.apply op).evidenceLinks.get? id).map Entity.evidenceLink =
      if op.entityKey = ⟨.evidenceLink, id⟩ then op.theirValue
      else (maps.evidenceLinks.get? id).map Entity.evidenceLink := by
  obtain ⟨opId, change⟩ := op
  cases change with
  | upsertEvidenceLink link =>
      simp only [EntityMaps.apply, InsertionMap.get?_set, PatchOp.entityKey, PatchOp.theirValue,
        EntityKey.mk.injEq, true_and]
      split <;> rfl
  | deleteEvidenceLink linkId =>
      simp only [EntityMaps.apply, InsertionMap.get?_delete, PatchOp.entityKey, PatchOp.theirValue,
        EntityKey.mk.injEq, true_and]
      split <;> rfl
  | _ => simp [EntityMaps.apply, PatchOp.entityKey]

theorem evidenceLinks_get?_applyPatchToMaps (hnodup : (doc.ids .evidenceLink).Nodup) (id : String) :
    ((applyPatchToMaps doc patch).maps.evidenceLinks.get? id).map Entity.evidenceLink =
      lastValue ⟨.evidenceLink, id⟩ patch.ops (doc.lookup ⟨.evidenceLink, id⟩) := by
  have hrun : ∀ (ops : List PatchOp) (maps : EntityMaps),
      ((ops.foldl EntityMaps.apply maps).evidenceLinks.get? id).map Entity.evidenceLink =
        lastValue ⟨.evidenceLink, id⟩ ops
          ((maps.evidenceLinks.get? id).map Entity.evidenceLink) := by
    intro ops
    induction ops with
    | nil => exact fun _ => rfl
    | cons op ops ih =>
        intro maps
        rw [List.foldl_cons, ih, evidenceLinks_get?_apply]
        rfl
  rw [applyPatchToMaps_maps, hrun, EntityMaps.ofDocument, get?_mapBy _ hnodup]
  rfl

/-- The maps and the patched document hold evidence links under the same ids. -/
def SameLinkIds (lc : Collation) (doc : DocumentV1) (patch : PatchV1)
    (resolutions : String → Option PatchResolution) : Prop :=
  ∀ id, id ∈ (applyPatchToMaps doc patch).maps.evidenceLinks.keys ↔
    id ∈ (applyPatchWithResolutionsDetailed lc doc patch resolutions none none).document.ids
      .evidenceLink

/-- No link loses a card after the last operation on the link. For a link of
the document that the patch does not target, no operation deletes a card of it;
after the last operation on a link that writes the link, none deletes a card of
what it wrote. -/
structure NoCascade (doc : DocumentV1) (ops : List PatchOp) : Prop where
  kept : ∀ link ∈ doc.links, (∀ op ∈ ops, op.entityKey ≠ ⟨.evidenceLink, link.id⟩) →
    ∀ op ∈ ops, op.cascades (.evidenceLink link) = false
  written : ∀ op after link, op :: after <:+ ops → op.change = .upsertEvidenceLink link →
    (∀ later ∈ after, later.entityKey ≠ op.entityKey) →
      ∀ later ∈ after, later.cascades (.evidenceLink link) = false

theorem link_of_theirValue {op : PatchOp} {id : String} (hkey : op.entityKey = ⟨.evidenceLink, id⟩)
    (hvalue : value ∈ op.theirValue) :
    ∃ link, op.change = .upsertEvidenceLink link ∧ value = .evidenceLink link := by
  obtain ⟨opId, change⟩ := op
  cases change with
  | upsertEvidenceLink link => exact ⟨link, rfl, (Option.some.inj hvalue).symm⟩
  | deleteEvidenceLink linkId => simp [PatchOp.theirValue] at hvalue
  | _ => simp [PatchOp.entityKey] at hkey

theorem isSome_filter_cascades (entity : Option Entity) (ops : List PatchOp) :
    (entity.isSome ↔
        (entity.filter fun value => !ops.any fun op => op.cascades value).isSome) ↔
      ∀ value ∈ entity, ∀ op ∈ ops, op.cascades value = false := by
  cases entity with
  | none => simp
  | some value => simp [Option.filter_some, apply_ite Option.isSome]

/-- Both interpretations of the operations keep the same links exactly when no
deletion of a card reaches a link. -/
theorem isSome_lastValue_iff_entityRun (hnodup : (doc.ids .evidenceLink).Nodup)
    (ops : List PatchOp) :
    (∀ id, (lastValue ⟨.evidenceLink, id⟩ ops (doc.lookup ⟨.evidenceLink, id⟩)).isSome ↔
        (entityRun ⟨.evidenceLink, id⟩ ops (doc.lookup ⟨.evidenceLink, id⟩)).isSome) ↔
      NoCascade doc ops := by
  constructor
  · intro hsame
    refine ⟨fun link hlink huntouched => ?_, fun op after link hsuffix hchange hafter => ?_⟩
    · have hid := hsame link.id
      rw [lastValue_of_untouched huntouched, entityRun_of_untouched huntouched,
        isSome_filter_cascades] at hid
      apply hid
      simp only [DocumentV1.lookup, findBy_of_mem EvidenceLink.id hnodup hlink, Option.map_some,
        Option.mem_some]
    · obtain ⟨before, rfl⟩ := hsuffix
      have hkey : op.entityKey = ⟨.evidenceLink, link.id⟩ := by rw [PatchOp.entityKey, hchange]
      have hvalue : op.theirValue = some (.evidenceLink link) := by
        rw [PatchOp.theirValue, hchange]
      rw [hkey] at hafter
      have hid := hsame link.id
      rw [lastValue_of_last hkey hafter, entityRun_of_last hkey hafter,
        isSome_filter_cascades] at hid
      exact hid _ hvalue
  · intro hcascade id
    rcases none_or_exists_last (fun op : PatchOp => op.entityKey = ⟨.evidenceLink, id⟩) ops with
      huntouched | ⟨op, after, hsuffix, hkey, hafter⟩
    · rw [lastValue_of_untouched huntouched, entityRun_of_untouched huntouched,
        isSome_filter_cascades]
      intro value hvalue
      simp only [DocumentV1.lookup, Option.mem_def, Option.map_eq_some_iff] at hvalue
      obtain ⟨link, hfind, rfl⟩ := hvalue
      obtain ⟨hmem, rfl⟩ := findBy_eq_some _ hfind
      exact hcascade.kept link hmem huntouched
    · obtain ⟨before, rfl⟩ := hsuffix
      rw [lastValue_of_last hkey hafter, entityRun_of_last hkey hafter, isSome_filter_cascades]
      intro value hvalue
      obtain ⟨link, hchange, rfl⟩ := link_of_theirValue hkey hvalue
      exact hcascade.written op after link (List.suffix_append _ _) hchange
        (fun later hlater heq => hafter later hlater (heq.trans hkey))

/-- The linter and the application of a patch agree on the evidence links
exactly when no deletion of a card reaches a link. -/
theorem sameLinkIds_iff (lc : Collation) (resolutions : String → Option PatchResolution)
    (hunique : doc.UniqueIds) :
    SameLinkIds lc doc patch resolutions ↔ NoCascade doc patch.ops := by
  rw [← isSome_lastValue_iff_entityRun (hunique .evidenceLink) patch.ops]
  refine forall_congr' fun id => ?_
  have hmaps : id ∈ (applyPatchToMaps doc patch).maps.evidenceLinks.keys ↔
      (lastValue ⟨.evidenceLink, id⟩ patch.ops (doc.lookup ⟨.evidenceLink, id⟩)).isSome := by
    rw [InsertionMap.mem_keys, ← evidenceLinks_get?_applyPatchToMaps (hunique .evidenceLink),
      Option.isSome_map]
  have hdoc : id ∈ (applyPatchOps patch.ops doc).ids .evidenceLink ↔
      (entityRun ⟨.evidenceLink, id⟩ patch.ops (doc.lookup ⟨.evidenceLink, id⟩)).isSome := by
    rw [← lookup_applyPatchOps fun _ => hunique .evidenceLink]
    simp only [DocumentV1.lookup, DocumentV1.ids, Option.isSome_map, findBy_isSome, List.mem_map]
  rw [document_of_no_baseline, hmaps, hdoc]

/-- The equivalence for a patch that removes a link before its card. -/
theorem sameLinkIds_iff_link_first :
    SameLinkIds .codeUnit (.smallest [.smallest "a" "text", .smallest "b" "text"]
        [.smallest "l" "a" "b"])
        (.ofOps [⟨"1", .deleteEvidenceLink "l"⟩, ⟨"2", .deleteCard "b"⟩]) (fun _ => none) ↔
      NoCascade (.smallest [.smallest "a" "text", .smallest "b" "text"] [.smallest "l" "a" "b"])
        [⟨"1", .deleteEvidenceLink "l"⟩, ⟨"2", .deleteCard "b"⟩] :=
  sameLinkIds_iff .codeUnit _ fun kind => by cases kind <;> decide

/-- Deleting a card and writing it again drops a link that the linter keeps:
it reports nothing. -/
theorem link_lost_without_issue :
    ¬SameLinkIds .codeUnit (.smallest [.smallest "a" "text", .smallest "b" "text"]
        [.smallest "l" "a" "b"])
        (.ofOps [⟨"1", .deleteCard "b"⟩, ⟨"2", .upsertCard (.smallest "b" "text")⟩])
        (fun _ => none) ∧
      lintPatchAgainstCurrentDoc (.smallest [.smallest "a" "text", .smallest "b" "text"]
        [.smallest "l" "a" "b"])
        (.ofOps [⟨"1", .deleteCard "b"⟩, ⟨"2", .upsertCard (.smallest "b" "text")⟩]) = [] := by
  constructor
  · intro hsame
    have hlink := hsame "l"
    revert hlink
    decide
  · decide

end Links

end KjAtlas
