import KjAtlas.Import.Importer

/-! # Normal forms of the importer

What the importer makes of the parts of a document is read again as it is. Only
geometries and shapes change their representation: one that was made for an
island is read like one that the island had itself.
-/

namespace KjAtlas

open Js

namespace Importer

open Reader Property

/-! ## Readers that are stable -/

@[simp] theorem stable_isoDate (dates : DateFormat) : (isoDate dates).Stable := by
  intro value result hread
  obtain ⟨text, -, hread⟩ := Option.bind_eq_some_iff.mp hread
  obtain ⟨time, hparse, rfl⟩ := Option.map_eq_some_iff.mp hread
  change (dates.parse (dates.toISOString time)).map _ = _
  rw [dates.parse_toISOString hparse, Option.map_some]

@[simp] theorem stable_orNull (shape : Shape) : (orNull shape).Stable := stable_ofShape _

@[simp] theorem stable_allTexts : allTexts.Stable := stable_ofShape _

@[simp] theorem stable_parseTransform : parseTransform.Stable :=
  stable_record (by decide) (by simp [transformProperties])

@[simp] theorem stable_parseClaimType : parseClaimType.Stable := stable_literal _

@[simp] theorem stable_parseCritiqueTags : parseCritiqueTags.Stable := stable_someItems stable_text

@[simp] theorem stable_parseCardMeta : parseCardMeta.Stable :=
  stable_someRecord (by decide) (by simp [cardMetaProperties])

@[simp] theorem stable_parseCardKa : parseCardKa.Stable :=
  stable_someRecord (by decide) (by simp [cardKaProperties])

theorem nodup_cardProperties : (cardProperties.map Property.name).Nodup := by decide

theorem stable_cardProperties : ∀ property ∈ cardProperties, property.Stable := by
  simp [cardProperties]

@[simp] theorem stable_parseEdges : parseEdges.Stable := by
  refine stable_items (stable_record (by decide) ?_)
  have hdefault : ((literal ["island"]) (.string "card")).getD (.string "card") =
      .string "card" := by decide
  simp [edgeProperties, hdefault]

@[simp] theorem stable_parseSummaryHistory : parseSummaryHistory.Stable :=
  stable_someItems (stable_record (by decide) (by simp [summaryHistoryEntryProperties]))

theorem nodup_representativeCueProperties (canHaveImageRef : Bool) :
    ((representativeCueProperties canHaveImageRef).map Property.name).Nodup := by
  simp [representativeCueProperties, must, spreading]

theorem nodup_evidenceLinkProperties (fromCardId : Option JsValue) :
    ((evidenceLinkProperties fromCardId).map Property.name).Nodup := by
  simp [evidenceLinkProperties, must, may, spreading]

theorem nodup_shelfEntryProperties (dates : DateFormat) (cardIds : List String) :
    ((shelfEntryProperties dates cardIds).map Property.name).Nodup := by
  simp [shelfEntryProperties, must, whenProvided]

theorem nodup_voidProperties (dates : DateFormat) :
    ((voidProperties dates).map Property.name).Nodup := by
  simp [voidProperties, must, spreading]

@[simp] theorem stable_parseRepresentativeCue : parseRepresentativeCue.Stable := by
  intro value result hread
  have hkind : result.props.get "kind" = value.props.get "kind" := by
    obtain ⟨-, props, hprops, rfl⟩ := record_eq_some.mp hread
    have hget := get_readProps (nodup_representativeCueProperties _) hprops List.mem_cons_self
    obtain ⟨kind, hkind, heq⟩ := Option.map_eq_some_iff.mp hget
    obtain ⟨_, hvalue, hliteral⟩ := Option.bind_eq_some_iff.mp hkind
    obtain ⟨-, rfl⟩ := ofShape_eq_some.mp hliteral
    exact heq.symm.trans hvalue.symm
  unfold parseRepresentativeCue canHaveImageRef at hread ⊢
  rw [hkind]
  exact stable_record (nodup_representativeCueProperties _)
    (by simp [representativeCueProperties]) hread

@[simp] theorem stable_parseEvidenceLink : parseEvidenceLink.Stable := by
  intro value result hread
  have hfrom : result.props.get "fromCardId" = value.props.get "fromCardId" := by
    obtain ⟨-, props, hprops, rfl⟩ := record_eq_some.mp hread
    have hget := get_readProps (nodup_evidenceLinkProperties _) hprops
      (List.mem_cons_of_mem _ (List.mem_cons_of_mem _ List.mem_cons_self))
    obtain ⟨cardId, hcardId, heq⟩ := Option.map_eq_some_iff.mp hget
    obtain ⟨_, hvalue, htext⟩ := Option.bind_eq_some_iff.mp hcardId
    obtain ⟨-, rfl⟩ := ofShape_eq_some.mp htext
    exact heq.symm.trans hvalue.symm
  unfold parseEvidenceLink at hread ⊢
  rw [hfrom]
  exact stable_record (nodup_evidenceLinkProperties _) (by simp [evidenceLinkProperties]) hread

@[simp] theorem stable_parseEvidenceLinks : parseEvidenceLinks.Stable :=
  stable_distinctItems stable_parseEvidenceLink

@[simp] theorem stable_parseShelf (dates : DateFormat) (cardIds : List String) :
    (parseShelf dates cardIds).Stable :=
  stable_someDistinctItems (stable_record (nodup_shelfEntryProperties dates cardIds)
    (by simp [shelfEntryProperties]))

@[simp] theorem stable_parseVoids (dates : DateFormat) : (parseVoids dates).Stable :=
  stable_someDistinctItems (stable_record (nodup_voidProperties dates) (by simp [voidProperties]))

/-! ## The parts that are read on their own -/

theorem stable_parseOrder : parseOrder.Stable := by
  intro value result hread
  unfold parseOrder at hread
  split at hread
  · split at hread
    · cases hread
      decide
    · contradiction
  · contradiction

theorem stable_relationType : relationType.Stable := by
  intro value result hread
  obtain ⟨type, -, rfl⟩ := Option.map_eq_some_iff.mp hread
  by_cases hknown : (Schema.knownEdgeTypes.contains type || decide (type = "unknown")) = true
  · rw [if_pos hknown, relationType, JsValue.string?, Option.map_some, if_pos hknown]
  · rw [if_neg hknown]
    rfl

@[simp] theorem stable_parseDeterministicTieBreak : parseDeterministicTieBreak.Stable :=
  stable_record (by decide) (by simp [deterministicTieBreakProperties, stable_parseOrder])

@[simp] theorem stable_parseNarrativeCheckIssue : parseNarrativeCheckIssue.Stable := by
  have hreference : parseNarrativeCheckReference.Stable :=
    stable_record (by decide) (by simp [narrativeCheckReferenceProperties])
  exact stable_record (by decide)
    (by simp [narrativeCheckIssueProperties, hreference, parseNarrativeCheckDirection])

@[simp] theorem stable_parseNarrativeCheck : parseNarrativeCheck.Stable := by
  have hcounts : parseNarrativeCheckCounts.Stable :=
    stable_record (by decide) (by simp [narrativeCheckCountsProperties, count])
  exact stable_record (by decide) (by simp [narrativeCheckProperties, hcounts])

theorem stable_parseNarratives : parseNarratives.Stable :=
  stable_someItems (stable_record (by decide) (by simp [narrativeProperties]))

theorem stable_parseRelationSummary : parseRelationSummary.Stable := by
  have hentry : parseRelationSummaryHistoryEntry.Stable :=
    stable_record (by decide) (by simp [relationSummaryHistoryEntryProperties])
  exact stable_record (by decide)
    (by simp [relationSummaryProperties, stable_relationType, hentry])

theorem stable_parsePatchApplyLog : parsePatchApplyLog.Stable := by
  have hstats : parsePatchApplyStats.Stable :=
    stable_record (by decide) (by simp [finiteProperties])
  have hmeta : parsePatchConflictMeta.Stable :=
    stable_record (by decide) (by simp [finiteProperties])
  exact stable_someItems (stable_record (by decide)
    (by simp [patchApplyLogEntryProperties, hstats, hmeta]))

theorem stable_parseMergeSuggestionDecisions : parseMergeSuggestionDecisions.Stable :=
  stable_someItems (stable_record (by decide)
    (by simp [mergeSuggestionDecisionProperties, mergeSuggestionDecision]))

theorem stable_optionalReaders (platform : Platform) :
    ∀ entry ∈ optionalReaders platform, entry.2.Stable := by
  have hdecisions : parseContradictionSignalDecisions.Stable :=
    stable_someItems (stable_record (by decide) (by simp [contradictionSignalDecisionProperties]))
  have hsummaries : parseRelationSummaries.Stable :=
    stable_someItems stable_parseRelationSummary
  have horder : parseReadingOrder.Stable := stable_someItems stable_text
  simp [optionalReaders, parseCritiqueInputs, parseReproposalDiffs, parseReviewAttribution,
    hdecisions, hsummaries, horder, stable_parseNarratives, stable_parsePatchApplyLog,
    stable_parseMergeSuggestionDecisions]

/-! ## Geometries and shapes -/

section Outlines

variable (platform : Platform)

def IslandGeometry.Usable : IslandGeometry → Prop
  | .rect _ => True
  | .polygon points => canUsePolygonPoints platform points = true

def Outline.Usable : Outline → Prop
  | .rect => True
  | .polygon points => canUsePolygonPoints platform points = true

/-- Whether a geometry and a shape can be read again. -/
def Usable (outline : IslandGeometry × IslandShape) : Prop :=
  outline.1.Usable platform ∧ outline.2.outline.Usable platform

variable {geometry : IslandGeometry} {shape : IslandShape}

theorem usable_parseIslandGeometry {value : JsValue}
    (hread : parseIslandGeometry platform value = some geometry) : geometry.Usable platform := by
  unfold parseIslandGeometry at hread
  dsimp only at hread
  split at hread
  · cases hread
    trivial
  · split at hread
    · split at hread
      next husable =>
        cases hread
        exact husable
      next => contradiction
    · contradiction

theorem usable_parseIslandShape {value : JsValue}
    (hread : parseIslandShape platform value = some shape) : shape.outline.Usable platform := by
  unfold parseIslandShape at hread
  dsimp only at hread
  split at hread
  · cases hread
    trivial
  · split at hread
    · split at hread
      · split at hread
        next husable =>
          cases hread
          exact husable
        next => contradiction
      · contradiction
    · contradiction

theorem usable_normalizeOutline {geometry : Option IslandGeometry} {shape : Option IslandShape}
    (hgeometry : ∀ g ∈ geometry, g.Usable platform)
    (hshape : ∀ s ∈ shape, s.outline.Usable platform) :
    Usable platform (normalizeOutline geometry shape) := by
  have hmade : (shapeOfGeometry geometry).outline.Usable platform := by
    cases geometry with
    | none => trivial
    | some geometry =>
        cases geometry with
        | rect bounds => trivial
        | polygon points => exact hgeometry _ rfl
  have hused : (shape.getD (shapeOfGeometry geometry)).outline.Usable platform := by
    cases shape with
    | none => exact hmade
    | some shape => exact hshape _ rfl
  refine ⟨?_, hused⟩
  cases geometry with
  | some geometry => exact hgeometry _ rfl
  | none =>
      change (geometryOfShape (shape.getD (shapeOfGeometry none))).Usable platform
      generalize shape.getD (shapeOfGeometry none) = used at hused
      obtain ⟨outline, generatedFrom⟩ := used
      cases outline with
      | rect => trivial
      | polygon points => exact hused

theorem usable_outlineOf (island : Props) : Usable platform (outlineOf platform island) := by
  apply usable_normalizeOutline
  · intro geometry hgeometry
    obtain ⟨_, -, hread⟩ := Option.bind_eq_some_iff.mp hgeometry
    exact usable_parseIslandGeometry platform hread
  · intro shape hshape
    obtain ⟨_, -, hread⟩ := Option.bind_eq_some_iff.mp hshape
    exact usable_parseIslandShape platform hread

theorem filterMap_readPoint (points : List Point) :
    (points.map Point.toJs).filterMap readPoint = points := by
  rw [List.filterMap_map]
  exact List.filterMap_some

theorem filterMap_string? (texts : List String) :
    (texts.map JsValue.string).filterMap JsValue.string? = texts := by
  rw [List.filterMap_map]
  exact List.filterMap_some

/-- A usable geometry is read again. Its bounds are then properties. -/
theorem parseIslandGeometry_toJs (husable : geometry.Usable platform) :
    ∃ again, parseIslandGeometry platform geometry.toJs = some again ∧
      content again.toJs = content geometry.toJs := by
  cases geometry with
  | rect bounds =>
      cases bounds with
      | none =>
          refine ⟨.rect (some ⟨none, none, none, none⟩), rfl, ?_⟩
          rw [IslandGeometry.toJs, IslandGeometry.toJs, content_object, content_object]
          rfl
      | some bounds =>
          obtain ⟨x, y, w, h⟩ := bounds
          refine ⟨.rect (some ⟨x, y, w, h⟩), ?_, rfl⟩
          cases x <;> cases y <;> cases w <;> cases h <;> rfl
  | polygon points =>
      refine ⟨.polygon points, ?_, rfl⟩
      have hpoints : (rawPoints (IslandGeometry.polygon points).toJs.props).filterMap readPoint =
          points := filterMap_readPoint points
      have htype : (IslandGeometry.polygon points).toJs.props.get "type" =
          some (.string "polygon") := rfl
      have hused : canUsePolygonPoints platform points = true := husable
      unfold parseIslandGeometry
      dsimp only
      rw [htype, if_neg (by decide), if_pos rfl, hpoints, if_pos hused]

theorem parseGeneratedFrom_toJs (generatedFrom : GeneratedFrom) :
    parseGeneratedFrom generatedFrom.toJs = some generatedFrom := by
  have hcardIds := filterMap_string? generatedFrom.cardIds
  exact congrArg (fun cardIds => some (GeneratedFrom.mk cardIds generatedFrom.versionToken)) hcardIds

/-- A usable shape is read again, with a property for where it comes from. -/
theorem parseIslandShape_toJs (husable : shape.outline.Usable platform) :
    ∃ again, parseIslandShape platform shape.toJs = some again ∧
      content again.toJs = content shape.toJs := by
  obtain ⟨outline, generatedFrom⟩ := shape
  refine ⟨⟨outline, some generatedFrom.join⟩, ?_, ?_⟩
  · have hgenerated : ((IslandShape.toJs ⟨outline, generatedFrom⟩).props.get "generatedFrom").bind
        parseGeneratedFrom = generatedFrom.join := by
      cases outline <;> cases generatedFrom with
      | none => rfl
      | some generatedFrom =>
          cases generatedFrom with
          | none => rfl
          | some generatedFrom => exact parseGeneratedFrom_toJs generatedFrom
    unfold parseIslandShape
    dsimp only
    rw [hgenerated]
    cases outline with
    | rect => rfl
    | polygon points =>
        have hkind : (IslandShape.toJs ⟨.polygon points, generatedFrom⟩).props.get "kind" =
            some (.string "polygon") := rfl
        have hpoints : (IslandShape.toJs ⟨.polygon points, generatedFrom⟩).props.get "points" =
            some (pointsToJs points) := rfl
        have hused : canUsePolygonPoints platform points = true := husable
        rw [hkind, if_neg (by decide), if_pos rfl, hpoints]
        dsimp only [pointsToJs]
        rw [filterMap_readPoint, if_pos hused]
  · cases generatedFrom with
    | some generatedFrom => rfl
    | none =>
        rw [IslandShape.toJs, IslandShape.toJs, content_object, content_object]
        cases outline <;> rfl

/-- A geometry and a shape that are read again keep their content. -/
theorem normalizeOutline_toJs {outline : IslandGeometry × IslandShape}
    (husable : Usable platform outline) :
    let again := normalizeOutline (parseIslandGeometry platform outline.1.toJs)
      (parseIslandShape platform outline.2.toJs)
    content again.1.toJs = content outline.1.toJs ∧
      content again.2.toJs = content outline.2.toJs := by
  obtain ⟨geometry, hgeometry, hgeometryContent⟩ := parseIslandGeometry_toJs platform husable.1
  obtain ⟨shape, hshape, hshapeContent⟩ := parseIslandShape_toJs platform husable.2
  rw [hgeometry, hshape]
  exact ⟨hgeometryContent, hshapeContent⟩

end Outlines

end Importer

end KjAtlas
