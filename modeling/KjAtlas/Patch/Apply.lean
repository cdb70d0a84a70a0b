import KjAtlas.Patch.Conflict

/-! # Applying patches

Operations are applied in sequence. Deleting a card also removes the evidence
links at the card. Each entity can be followed on its own: what a run makes of
it depends only on its value before the run and on the operations.
-/

namespace KjAtlas

open Js

def upsertById {α : Type} (key : α → String) (items : List α) (value : α) : List α :=
  match items.findIdx? fun item => decide (key item = key value) with
  | none => items ++ [value]
  | some index => items.set index value

theorem upsertById_eq_upsertBy {α : Type} (key : α → String) (items : List α) (value : α) :
    upsertById key items value = upsertBy key value items := by
  induction items with
  | nil => rfl
  | cons item items ih =>
      rw [upsertBy, ← ih, upsertById, upsertById, List.findIdx?_cons]
      by_cases hkey : key item = key value
      · simp [hkey]
      · simp only [hkey, decide_false, Bool.false_eq_true, if_false]
        cases items.findIdx? fun item => decide (key item = key value) <;> rfl

def applyPatchOp (currentDoc : DocumentV1) (op : PatchOp) : DocumentV1 :=
  match op.change with
  | .upsertCard card => { currentDoc with cards := upsertById Card.id currentDoc.cards card }
  | .deleteCard cardId =>
      { currentDoc with
        cards := currentDoc.cards.filter fun card => !decide (card.id = cardId)
        evidenceLinks := some (currentDoc.links.filter fun link => !link.touches cardId) }
  | .upsertIsland island =>
      { currentDoc with islands := upsertById Island.id currentDoc.islands island }
  | .deleteIsland islandId =>
      { currentDoc with
        islands := currentDoc.islands.filter fun island => !decide (island.id = islandId) }
  | .upsertEdge edge => { currentDoc with edges := upsertById Edge.id currentDoc.edges edge }
  | .deleteEdge edgeId =>
      { currentDoc with edges := currentDoc.edges.filter fun edge => !decide (edge.id = edgeId) }
  | .upsertRelationSummary summary =>
      { currentDoc with
        relationSummaries :=
          some (upsertById RelationSummary.sourceSignature currentDoc.summaries summary) }
  | .deleteRelationSummary sourceSignature =>
      { currentDoc with
        relationSummaries := some (currentDoc.summaries.filter fun summary =>
          !decide (summary.sourceSignature = sourceSignature)) }
  | .upsertEvidenceLink link =>
      { currentDoc with evidenceLinks := some (upsertById EvidenceLink.id currentDoc.links link) }
  | .deleteEvidenceLink linkId =>
      { currentDoc with
        evidenceLinks :=
          some (currentDoc.links.filter fun link => !decide (link.id = linkId)) }

/-- The operations in sequence. -/
def applyPatchOps (ops : List PatchOp) (doc : DocumentV1) : DocumentV1 := ops.foldl applyPatchOp doc

/-! ## A patch with resolutions -/

inductive PatchResolution where
  | yours
  | theirs
  | skip
deriving DecidableEq

structure PatchApplyStats where
  upsertCards : Nat := 0
  deleteCards : Nat := 0
  upsertIslands : Nat := 0
  deleteIslands : Nat := 0
  upsertEdges : Nat := 0
  deleteEdges : Nat := 0
  upsertRelationSummaries : Nat := 0
  deleteRelationSummaries : Nat := 0
  upsertEvidenceLinks : Nat := 0
  deleteEvidenceLinks : Nat := 0

def createEmptyApplyStats : PatchApplyStats := {}

def incrementApplyStats (stats : PatchApplyStats) : PatchOpKind → PatchApplyStats
  | .upsertCard => { stats with upsertCards := stats.upsertCards + 1 }
  | .deleteCard => { stats with deleteCards := stats.deleteCards + 1 }
  | .upsertIsland => { stats with upsertIslands := stats.upsertIslands + 1 }
  | .deleteIsland => { stats with deleteIslands := stats.deleteIslands + 1 }
  | .upsertEdge => { stats with upsertEdges := stats.upsertEdges + 1 }
  | .deleteEdge => { stats with deleteEdges := stats.deleteEdges + 1 }
  | .upsertRelationSummary =>
      { stats with upsertRelationSummaries := stats.upsertRelationSummaries + 1 }
  | .deleteRelationSummary =>
      { stats with deleteRelationSummaries := stats.deleteRelationSummaries + 1 }
  | .upsertEvidenceLink => { stats with upsertEvidenceLinks := stats.upsertEvidenceLinks + 1 }
  | .deleteEvidenceLink => { stats with deleteEvidenceLinks := stats.deleteEvidenceLinks + 1 }

structure PatchConflictMeta where
  totalConflicts : Nat
  chosenYours : Nat
  chosenTheirs : Nat
  chosenSkip : Nat

structure ApplyResultMeta where
  appliedOpIds : List String
  stats : PatchApplyStats
  conflictMeta : Option PatchConflictMeta

/-- What the loop over the operations carries along. -/
structure ApplyState where
  nextDoc : DocumentV1
  appliedOpIds : List String
  stats : PatchApplyStats
  chosenConflictCounts : PatchConflictMeta

namespace ApplyState

/-- Apply one operation and record it. -/
def apply (state : ApplyState) (op : PatchOp) : ApplyState :=
  { state with
    nextDoc := applyPatchOp state.nextDoc op
    appliedOpIds := state.appliedOpIds ++ [op.id]
    stats := incrementApplyStats state.stats op.kind }

def choose (state : ApplyState) : PatchResolution → ApplyState
  | .theirs => { state with chosenConflictCounts.chosenTheirs :=
      state.chosenConflictCounts.chosenTheirs + 1 }
  | .yours => { state with chosenConflictCounts.chosenYours :=
      state.chosenConflictCounts.chosenYours + 1 }
  | .skip => { state with chosenConflictCounts.chosenSkip :=
      state.chosenConflictCounts.chosenSkip + 1 }

end ApplyState

/-- The body of the loop over the operations. -/
def applyStep (conflictOpIds : List String) (resolutions : String → Option PatchResolution)
    (selectedOpIds : Option (List String)) (state : ApplyState) (op : PatchOp) : ApplyState :=
  if selectedOpIds.any fun selected => !decide (op.id ∈ selected) then state
  else if op.id ∈ conflictOpIds then
    match (resolutions op.id).getD .skip with
    | .theirs => (state.choose .theirs).apply op
    | .yours => state.choose .yours
    | .skip => state.choose .skip
  else state.apply op

structure ApplyResult where
  document : DocumentV1
  info : ApplyResultMeta

section Resolutions

variable (lc : Collation)

def applyPatchWithResolutionsDetailed (currentDoc : DocumentV1) (patch : PatchV1)
    (resolutions : String → Option PatchResolution) (baselineDoc : Option DocumentV1)
    (selectedOpIds : Option (List String)) : ApplyResult :=
  let conflictReport := baselineDoc.map fun baseline =>
    detectPatchConflicts lc baseline currentDoc patch
  let conflicts := (conflictReport.map ConflictReport.conflicts).getD []
  let start : ApplyState := {
    nextDoc := currentDoc
    appliedOpIds := []
    stats := createEmptyApplyStats
    chosenConflictCounts := ⟨conflicts.length, 0, 0, 0⟩ }
  let final := patch.ops.foldl
    (applyStep (conflicts.map ConflictItem.opId) resolutions selectedOpIds) start
  { document := final.nextDoc
    info := {
      appliedOpIds := final.appliedOpIds
      stats := final.stats
      conflictMeta := conflictReport.map fun _ => final.chosenConflictCounts } }

/-- `applyPatchWithResolutions`: the document alone. -/
def applyPatchWithResolutions (currentDoc : DocumentV1) (patch : PatchV1)
    (resolutions : String → Option PatchResolution) (baselineDoc : Option DocumentV1)
    (selectedOpIds : Option (List String)) : DocumentV1 :=
  (applyPatchWithResolutionsDetailed lc currentDoc patch resolutions baselineDoc
    selectedOpIds).document

/-- Whether the loop applies an operation. -/
def isApplied (conflictOpIds : List String) (resolutions : String → Option PatchResolution)
    (selectedOpIds : Option (List String)) (op : PatchOp) : Bool :=
  !(selectedOpIds.any fun selected => !decide (op.id ∈ selected)) &&
    (!decide (op.id ∈ conflictOpIds) || decide (resolutions op.id = some .theirs))

theorem applyStep_eq (conflictOpIds : List String)
    (resolutions : String → Option PatchResolution) (selectedOpIds : Option (List String))
    (state : ApplyState) (op : PatchOp) :
    let next := applyStep conflictOpIds resolutions selectedOpIds state op
    if isApplied conflictOpIds resolutions selectedOpIds op then
      next.nextDoc = applyPatchOp state.nextDoc op ∧
        next.appliedOpIds = state.appliedOpIds ++ [op.id] ∧
          next.stats = incrementApplyStats state.stats op.kind
    else next.nextDoc = state.nextDoc ∧ next.appliedOpIds = state.appliedOpIds ∧
      next.stats = state.stats := by
  intro next
  simp only [next, applyStep, isApplied]
  cases hselected : selectedOpIds.any fun selected => !decide (op.id ∈ selected) with
  | true => simp
  | false =>
      by_cases hconflict : op.id ∈ conflictOpIds
      · simp only [hconflict, if_true, decide_true, Bool.not_true, Bool.false_or]
        cases hresolution : resolutions op.id with
        | none => simp [ApplyState.choose]
        | some resolution => cases resolution <;> simp [ApplyState.choose, ApplyState.apply]
      · simp [hconflict, ApplyState.apply]

/-- The loop applies exactly the operations that pass its tests, in order. -/
theorem foldl_applyStep (conflictOpIds : List String)
    (resolutions : String → Option PatchResolution) (selectedOpIds : Option (List String))
    (ops : List PatchOp) (state : ApplyState) :
    let applied := ops.filter (isApplied conflictOpIds resolutions selectedOpIds)
    let final := ops.foldl (applyStep conflictOpIds resolutions selectedOpIds) state
    final.nextDoc = applyPatchOps applied state.nextDoc ∧
      final.appliedOpIds = state.appliedOpIds ++ applied.map PatchOp.id ∧
        final.stats = (applied.map PatchOp.kind).foldl incrementApplyStats state.stats := by
  induction ops generalizing state with
  | nil => simp [applyPatchOps]
  | cons op ops ih =>
      have hstep := applyStep_eq conflictOpIds resolutions selectedOpIds state op
      obtain ⟨hdoc, hids, hstats⟩ :=
        ih (applyStep conflictOpIds resolutions selectedOpIds state op)
      simp only [List.foldl_cons, List.filter_cons]
      rw [hdoc, hids, hstats]
      split at hstep
      next happlied =>
        obtain ⟨hdoc', hids', hstats'⟩ := hstep
        simp [happlied, hdoc', hids', hstats', applyPatchOps]
      next happlied =>
        obtain ⟨hdoc', hids', hstats'⟩ := hstep
        simp [happlied, hdoc', hids', hstats', applyPatchOps]

theorem applyPatchWithResolutions_none (doc : DocumentV1) (patch : PatchV1)
    (resolutions : String → Option PatchResolution) (selectedOpIds : Option (List String)) :
    applyPatchWithResolutions lc doc patch resolutions none selectedOpIds =
      applyPatchOps (patch.ops.filter (isApplied [] resolutions selectedOpIds)) doc :=
  (foldl_applyStep [] resolutions selectedOpIds patch.ops _).1

theorem document_of_no_baseline (doc : DocumentV1) (patch : PatchV1)
    (resolutions : String → Option PatchResolution) :
    (applyPatchWithResolutionsDetailed lc doc patch resolutions none none).document =
      applyPatchOps patch.ops doc := by
  refine (applyPatchWithResolutions_none lc doc patch resolutions none).trans ?_
  rw [List.filter_eq_self.mpr]
  simp [isApplied]

end Resolutions

/-! ## Following one entity -/

def entityStep (key : EntityKey) (entity : Option Entity) (op : PatchOp) : Option Entity :=
  if op.entityKey = key then op.theirValue else entity.filter fun value => !op.cascades value

/-- What a sequence of operations makes of the entity under a key. -/
def entityRun (key : EntityKey) (ops : List PatchOp) (entity : Option Entity) : Option Entity :=
  ops.foldl (entityStep key) entity

variable {op : PatchOp} {doc : DocumentV1} {key : EntityKey}

theorem filter_not_cascades {entity : Option Entity}
    (hnot : ∀ value ∈ entity, op.cascades value = false) :
    (entity.filter fun value => !op.cascades value) = entity :=
  (filter_eq_self_iff _ entity).mpr fun value hvalue => by rw [hnot value hvalue, Bool.not_false]

theorem entityStep_of_deletedCard_none (hop : op.deletedCard? = none) (key : EntityKey)
    (entity : Option Entity) :
    entityStep key entity op = if op.entityKey = key then op.theirValue else entity := by
  rw [entityStep, filter_not_cascades]
  simp [PatchOp.cascades, hop]

theorem lookup_of_deletedCard_none (doc : DocumentV1) (hop : op.deletedCard? = none)
    (key : EntityKey) :
    (applyPatchOp doc op).lookup key =
      if op.entityKey = key then op.theirValue else doc.lookup key := by
  obtain ⟨kind, k⟩ := key
  obtain ⟨opId, change⟩ := op
  cases change with
  | deleteCard cardId => simp [PatchOp.deletedCard?] at hop
  | _ =>
      cases kind <;>
      simp only [DocumentV1.lookup, DocumentV1.links, DocumentV1.summaries, applyPatchOp,
        upsertById_eq_upsertBy, findBy_upsertBy, findBy_filter_key, PatchOp.entityKey,
        PatchOp.theirValue, EntityKey.mk.injEq, reduceCtorEq, false_and, if_false, true_and,
        Option.getD_some]
      all_goals
        split <;> rfl

/-- One operation acts on each entity separately. Only for evidence links this
takes distinct ids: removing the links of a card may uncover another link with
the same id. -/
theorem lookup_applyPatchOp (hlinks : key.kind = .evidenceLink → (doc.ids .evidenceLink).Nodup)
    (op : PatchOp) : (applyPatchOp doc op).lookup key = entityStep key (doc.lookup key) op := by
  obtain ⟨opId, change⟩ := op
  cases change with
  | deleteCard cardId =>
      rw [entityStep]
      obtain ⟨kind, k⟩ := key
      cases kind with
      | card =>
          simp only [DocumentV1.lookup, applyPatchOp, findBy_filter_key, PatchOp.entityKey,
            PatchOp.theirValue, EntityKey.mk.injEq, true_and]
          split
          · rfl
          · rw [filter_not_cascades]
            simp [PatchOp.cascades, PatchOp.deletedCard?, Entity.touches]
      | evidenceLink =>
          simp only [DocumentV1.lookup, applyPatchOp, PatchOp.entityKey, EntityKey.mk.injEq,
            reduceCtorEq, false_and, if_false]
          rw [DocumentV1.links, Option.getD_some, findBy_filter _ _ _ (hlinks rfl),
            Option.filter_map]
          rfl
      | _ =>
          simp only [DocumentV1.lookup, applyPatchOp, DocumentV1.summaries, PatchOp.entityKey,
            EntityKey.mk.injEq, reduceCtorEq, false_and, if_false]
          rw [filter_not_cascades]
          simp [PatchOp.cascades, PatchOp.deletedCard?, Entity.touches]
  | _ => rw [lookup_of_deletedCard_none doc rfl, entityStep_of_deletedCard_none rfl]

/-- Distinct ids of a kind stay distinct. -/
theorem nodup_ids_applyPatchOp {kind : EntityKind} (hunique : (doc.ids kind).Nodup) (op : PatchOp) :
    ((applyPatchOp doc op).ids kind).Nodup := by
  obtain ⟨id, change⟩ := op
  have hfilter : ∀ {α : Type} (idOf : α → String) (keep : α → Bool) (items : List α),
      (items.map idOf).Nodup → ((items.filter keep).map idOf).Nodup :=
    fun _ _ _ hitems => hitems.sublist (List.filter_sublist.map _)
  have hupsert : ∀ {α : Type} (idOf : α → String) (value : α) (items : List α),
      (items.map idOf).Nodup → ((upsertById idOf items value).map idOf).Nodup := by
    intro α idOf value items hitems
    rw [upsertById_eq_upsertBy]
    exact nodup_upsertBy idOf value hitems
  cases change <;> cases kind <;>
    first
    | exact hunique
    | exact hfilter _ _ _ hunique
    | exact hupsert _ _ _ hunique

/-- Operations on other entities only remove an evidence link, when they
delete one of its cards. -/
theorem entityRun_of_untouched {ops : List PatchOp} (hother : ∀ op ∈ ops, op.entityKey ≠ key)
    (entity : Option Entity) :
    entityRun key ops entity =
      entity.filter fun value => !ops.any fun op => op.cascades value := by
  induction ops generalizing entity with
  | nil => cases entity <;> rfl
  | cons op ops ih =>
      rw [List.forall_mem_cons] at hother
      have hrest := ih hother.2 (entityStep key entity op)
      rw [entityStep, if_neg hother.1, Option.filter_filter] at hrest
      rw [entityRun, List.foldl_cons, ← entityRun, entityStep, if_neg hother.1, hrest]
      simp only [List.any_cons, Bool.not_or]

/-- The last operation on an entity decides, up to the later deletions of cards. -/
theorem entityRun_of_last {after : List PatchOp} (hop : op.entityKey = key)
    (hafter : ∀ later ∈ after, later.entityKey ≠ key) (before : List PatchOp)
    (entity : Option Entity) :
    entityRun key (before ++ op :: after) entity =
      op.theirValue.filter fun value => !after.any fun later => later.cascades value := by
  rw [entityRun, List.foldl_append, List.foldl_cons, entityStep, if_pos hop, ← entityRun,
    entityRun_of_untouched hafter]

theorem nodup_ids_applyPatchOps {kind : EntityKind} (hunique : (doc.ids kind).Nodup)
    (ops : List PatchOp) : ((applyPatchOps ops doc).ids kind).Nodup := by
  induction ops generalizing doc with
  | nil => exact hunique
  | cons op ops ih => exact ih (nodup_ids_applyPatchOp hunique op)

theorem lookup_applyPatchOps (hlinks : key.kind = .evidenceLink → (doc.ids .evidenceLink).Nodup)
    (ops : List PatchOp) :
    (applyPatchOps ops doc).lookup key = entityRun key ops (doc.lookup key) := by
  induction ops generalizing doc with
  | nil => rfl
  | cons op ops ih =>
      have hrest := ih fun hkind => nodup_ids_applyPatchOp (hlinks hkind) op
      rw [lookup_applyPatchOp hlinks] at hrest
      exact hrest

theorem findBy_links_applyPatchOp {id : String} (hother : op.entityKey ≠ ⟨.evidenceLink, id⟩)
    (doc : DocumentV1) (keep : EvidenceLink → Bool) :
    findBy EvidenceLink.id id ((applyPatchOp doc op).links.filter keep) =
      findBy EvidenceLink.id id
        (doc.links.filter fun link => keep link && !op.cascades (.evidenceLink link)) := by
  have hsame : (fun link => keep link && !false) = keep := by
    funext link
    rw [Bool.not_false, Bool.and_true]
  obtain ⟨opId, change⟩ := op
  cases change with
  | deleteCard cardId => exact congrArg _ List.filter_filter
  | upsertEvidenceLink link =>
      have hne : link.id ≠ id := fun heq => hother (congrArg (EntityKey.mk .evidenceLink) heq)
      change findBy EvidenceLink.id id ((upsertById EvidenceLink.id doc.links link).filter keep) =
        findBy EvidenceLink.id id (doc.links.filter fun link => keep link && !false)
      rw [upsertById_eq_upsertBy, findBy_filter_upsertBy EvidenceLink.id hne, hsame]
  | deleteEvidenceLink linkId =>
      have hne : linkId ≠ id := fun heq => hother (congrArg (EntityKey.mk .evidenceLink) heq)
      change findBy EvidenceLink.id id
          ((doc.links.filter fun link => !decide (link.id = linkId)).filter keep) =
        findBy EvidenceLink.id id (doc.links.filter fun link => keep link && !false)
      rw [List.filter_comm, findBy_filter_key, if_neg hne, hsame]
  | _ => exact congrArg (fun keep => findBy EvidenceLink.id id (doc.links.filter keep)) hsame.symm

/-- The link found under an id without operations is the first that no deletion
of a card removes. -/
theorem findBy_links_applyPatchOps {ops : List PatchOp} {id : String}
    (hother : ∀ op ∈ ops, op.entityKey ≠ ⟨.evidenceLink, id⟩) (doc : DocumentV1) :
    findBy EvidenceLink.id id (applyPatchOps ops doc).links =
      findBy EvidenceLink.id id
        (doc.links.filter fun link => !ops.any fun op => op.cascades (.evidenceLink link)) := by
  induction ops generalizing doc with
  | nil => exact congrArg _ (List.filter_eq_self.mpr fun _ _ => rfl).symm
  | cons op ops ih =>
      rw [List.forall_mem_cons] at hother
      rw [applyPatchOps, List.foldl_cons, ← applyPatchOps, ih hother.2,
        findBy_links_applyPatchOp hother.1]
      simp only [List.any_cons, Bool.not_or, Bool.and_comm]

/-! ## A patch without a baseline -/

section WithoutBaseline

variable {lc : Collation} {resolutions : String → Option PatchResolution}
  {selectedOpIds : Option (List String)}

/-- Operations leave an entity the same value whatever it was, unless none of them is on it. -/
theorem entityRun_forgets (ops : List PatchOp) :
    (∀ entity other, entityRun key ops entity = entityRun key ops other) ∨
      ∀ op ∈ ops, op.entityKey ≠ key := by
  induction ops with
  | nil => exact Or.inr (by simp)
  | cons op ops ih =>
      rcases ih with hforgets | hother
      · exact Or.inl fun entity other => hforgets _ _
      · by_cases hkey : op.entityKey = key
        · left
          intro entity other
          rw [entityRun, entityRun, List.foldl_cons, List.foldl_cons, entityStep, entityStep,
            if_pos hkey, if_pos hkey]
        · exact Or.inr (List.forall_mem_cons.mpr ⟨hkey, hother⟩)

theorem entityRun_again (ops : List PatchOp) (entity : Option Entity) :
    entityRun key ops (entityRun key ops entity) = entityRun key ops entity := by
  rcases entityRun_forgets ops with hforgets | hother
  · exact hforgets _ _
  · rw [entityRun_of_untouched hother, entityRun_of_untouched hother, Option.filter_filter]
    simp only [Bool.and_self]

/-- A patch that is applied again leaves every entity as it is. -/
theorem patch_applies_once (patch : PatchV1) (hlinks : (doc.ids .evidenceLink).Nodup)
    (key : EntityKey) :
    let apply := fun doc => applyPatchWithResolutions lc doc patch resolutions none selectedOpIds
    (apply (apply doc)).lookup key = (apply doc).lookup key := by
  simp only [applyPatchWithResolutions_none]
  rw [lookup_applyPatchOps fun _ => nodup_ids_applyPatchOps hlinks _,
    lookup_applyPatchOps fun _ => hlinks, entityRun_again]

theorem patch_applies_once_dropped_link :
    let apply := fun doc => applyPatchWithResolutions .codeUnit doc (.ofOps
      [⟨"1", .upsertCard (.smallest "a" "new")⟩, ⟨"2", .deleteCard "a"⟩]) (fun _ => none) none none
    let doc := .smallest [.smallest "a" "old"] [.smallest "l" "a" "b"]
    (apply (apply doc)).lookup ⟨.evidenceLink, "l"⟩ = (apply doc).lookup ⟨.evidenceLink, "l"⟩ :=
  patch_applies_once _ (by decide) _

theorem entityStep_comm {first second : PatchOp} (hne : first.entityKey ≠ second.entityKey)
    (hfirst : ∀ value ∈ second.theirValue, first.cascades value = false)
    (hsecond : ∀ value ∈ first.theirValue, second.cascades value = false)
    (entity : Option Entity) :
    entityStep key (entityStep key entity first) second =
      entityStep key (entityStep key entity second) first := by
  unfold entityStep
  by_cases hkey : first.entityKey = key
  · rw [if_pos hkey, if_neg fun h => hne (hkey.trans h.symm), if_pos hkey,
      filter_not_cascades hsecond]
  · rw [if_neg hkey, if_neg hkey]
    split
    next => exact (filter_not_cascades hfirst).symm
    next =>
      rw [Option.filter_filter, Option.filter_filter]
      simp only [Bool.and_comm]

/-- The order of operations on different entities does not matter, if none of them deletes a card
of a link that another one writes. -/
theorem patch_order_is_irrelevant {patch other : PatchV1} (hperm : patch.ops.Perm other.ops)
    (hkeys : (patch.ops.map PatchOp.entityKey).Nodup)
    (hcascades : ∀ op ∈ patch.ops, ∀ written ∈ patch.ops, ∀ value ∈ written.theirValue,
      op.cascades value = false) (hlinks : (doc.ids .evidenceLink).Nodup) (key : EntityKey) :
    (applyPatchWithResolutions lc doc patch resolutions none selectedOpIds).lookup key =
      (applyPatchWithResolutions lc doc other resolutions none selectedOpIds).lookup key := by
  rw [applyPatchWithResolutions_none, applyPatchWithResolutions_none,
    lookup_applyPatchOps fun _ => hlinks, lookup_applyPatchOps fun _ => hlinks]
  apply (hperm.filter _).foldl_eq'
  intro first hfirst second hsecond entity
  have hfirst := List.mem_of_mem_filter hfirst
  have hsecond := List.mem_of_mem_filter hsecond
  by_cases hsame : first = second
  · rw [hsame]
  · exact entityStep_comm (fun heq => hsame (List.inj_on_of_nodup_map hkeys hfirst hsecond heq))
      (hcascades first hfirst second hsecond) (hcascades second hsecond first hfirst) entity

theorem patch_order_is_irrelevant_two :
    let apply := fun ops => applyPatchWithResolutions .codeUnit (.smallest [] []) (.ofOps ops)
      (fun _ => none) none none
    let upsert : PatchOp := ⟨"1", .upsertCard (.smallest "a" "text")⟩
    (apply [upsert, ⟨"2", .deleteCard "b"⟩]).lookup ⟨.card, "a"⟩ =
      (apply [⟨"2", .deleteCard "b"⟩, upsert]).lookup ⟨.card, "a"⟩ :=
  patch_order_is_irrelevant (List.Perm.swap _ _ _) (by decide) (by decide) (by decide) _

end WithoutBaseline

end KjAtlas
