import Mathlib.Data.List.ReduceOption
import KjAtlas.Merge.Representative

/-! # Applying recorded merge decisions

A recorded decision of a person is applied in a second step. The step looks at
the document again before it merges, and afterwards writes the representative
and its sources into the decision.
-/

namespace KjAtlas

open Js

/-! ## Decisions -/

/-- An entry of the decision log. -/
structure MergeSuggestionDecisionEntry where
  props : Props
deriving DecidableEq

namespace MergeSuggestionDecisionEntry

/-- `entry.decisionId ?? entry.id`. -/
def recordedId (entry : MergeSuggestionDecisionEntry) : Option String :=
  (entry.props.string? "decisionId").or (entry.props.string? "id")

def groupId (entry : MergeSuggestionDecisionEntry) : Option String := entry.props.string? "groupId"

/-- `entry.action ?? entry.decision`. -/
def action (entry : MergeSuggestionDecisionEntry) : Option String :=
  (entry.props.string? "action").or (entry.props.string? "decision")

def editedText (entry : MergeSuggestionDecisionEntry) : String :=
  (entry.props.string? "editedText").getD ""

def cardIds (entry : MergeSuggestionDecisionEntry) : List String :=
  (entry.props.strings? "cardIds").getD []

def selectedCardIds (entry : MergeSuggestionDecisionEntry) : Option (List String) :=
  entry.props.strings? "selectedCardIds"

end MergeSuggestionDecisionEntry

/-- `document.mergeSuggestionDecisions ?? []`. -/
def DocumentV1.mergeSuggestionDecisions (document : DocumentV1) :
    List MergeSuggestionDecisionEntry :=
  match document.rest.get "mergeSuggestionDecisions" with
  | some (.array entries) => entries.map fun entry => ⟨entry.props⟩
  | _ => []

def DocumentV1.withMergeSuggestionDecisions (document : DocumentV1)
    (entries : List MergeSuggestionDecisionEntry) : DocumentV1 :=
  { document with
    rest := document.rest.put "mergeSuggestionDecisions"
      (some (.array (entries.map fun entry => .object entry.props))) }

@[simp] theorem mergeSuggestionDecisions_with (document : DocumentV1)
    (entries : List MergeSuggestionDecisionEntry) :
    (document.withMergeSuggestionDecisions entries).mergeSuggestionDecisions = entries := by
  rw [DocumentV1.mergeSuggestionDecisions, DocumentV1.withMergeSuggestionDecisions]
  simp only [Props.get_put, if_true, List.map_map]
  exact List.map_id entries

section Apply

variable (lc : Collation)

inductive RepresentativeResolvedBy where
  | repOf
  | mergedIntoCardId
  | fallback
  | unresolved

def RepresentativeResolvedBy.text : RepresentativeResolvedBy → String
  | .repOf => "repOf"
  | .mergedIntoCardId => "mergedIntoCardId"
  | .fallback => "fallback"
  | .unresolved => "unresolved"

structure RepresentativeOriginTrace where
  representativeCardId : String
  sourceCardIds : List String
  missingSourceCardIds : List String
  representativeResolvedBy : RepresentativeResolvedBy

def resolveRepresentativeOriginTrace (document : DocumentV1) (representativeCardId : String) :
    RepresentativeOriginTrace :=
  let representative := findBy Card.id representativeCardId document.cards
  let cardsById := InsertionMap.ofList (document.cards.map fun card => (card.id, card))
  let repOf := (representative.map Card.repOf).getD []
  let mergedIds := (document.cards.filter fun card =>
    decide (card.mergedIntoCardId = some representativeCardId)).map Card.id
  let sources := (representative.map Card.sources).getD []
  let sortedSourceIds := sortedUniqueIds lc (repOf ++ mergedIds ++ sources)
  { representativeCardId
    sourceCardIds := sortedSourceIds.filter cardsById.has
    missingSourceCardIds := sortedSourceIds.filter fun sourceId => !cardsById.has sourceId
    representativeResolvedBy :=
      if repOf ≠ [] then .repOf
      else if mergedIds ≠ [] then .mergedIntoCardId
      else if sources ≠ [] then .fallback
      else .unresolved }

/-! ## The application -/

inductive MergeSuggestionApplyErrorCode where
  | decisionNotRecorded
  | decisionNotAccepted
  | partialSelectionMissing
  | partialSelectionInvalid
  | sourceCardMissing
  | sourceCardHeld
  | sourceCardAlreadyMerged
  | sourceCardAlreadyCanonicalized
  | claimTypeConflict
  | negateConflict
  | contradictionEvidenceConflict
  | representativeTextEmpty
  | mergeFailed

/-- The result of a successful application. -/
structure MergeSuggestionApplyResult where
  document : DocumentV1
  representativeCardId : String
  sourceCardIds : List String

/-- The same function as `sortedUniqueIds`, written again in another file. -/
def normalizeIds (ids : List String) : List String := sortedUniqueIds lc ids

def sameIds (left right : List String) : Bool := decide (normalizeIds lc left = normalizeIds lc right)

def isSameRecordedDecision (recorded decision : MergeSuggestionDecisionEntry) : Bool :=
  decide (recorded.recordedId = decision.recordedId) &&
    decide (recorded.groupId = decision.groupId) &&
      decide (recorded.action = decision.action) &&
        decide (recorded.editedText = decision.editedText) &&
          sameIds lc recorded.cardIds decision.cardIds

def resolveAppliedSourceIds (recordedDecision : MergeSuggestionDecisionEntry) :
    Except MergeSuggestionApplyErrorCode (List String) :=
  let candidateIds := normalizeIds lc recordedDecision.cardIds
  if recordedDecision.action = some "accept" then .ok candidateIds
  else if recordedDecision.action ≠ some "partial" then .error .decisionNotAccepted
  else
    match recordedDecision.selectedCardIds with
    | none => .error .partialSelectionMissing
    | some selectedCardIds =>
        let selectedIds := normalizeIds lc selectedCardIds
        if selectedIds.length < 2 ∨ candidateIds.length ≤ selectedIds.length then
          .error .partialSelectionInvalid
        else if selectedIds.any fun cardId => !candidateIds.contains cardId then
          .error .partialSelectionInvalid
        else .ok selectedIds

/-- `document.mergeSuggestionDecisions.find(…)`. -/
def DocumentV1.recordedDecision (document : DocumentV1) (decision : MergeSuggestionDecisionEntry) :
    Option MergeSuggestionDecisionEntry :=
  document.mergeSuggestionDecisions.find? fun entry => isSameRecordedDecision lc entry decision

def sourceCardsError (document : DocumentV1) (selectedIds : List String)
    (concreteCards : List Card) : Option MergeSuggestionApplyErrorCode :=
  if concreteCards.any fun card => (card.props.get "holdState").isSome then some .sourceCardHeld
  else if concreteCards.any fun card => (card.props.get "mergedIntoCardId").isSome then
    some .sourceCardAlreadyMerged
  else if concreteCards.any fun card => (card.props.get "canonicalId").isSome then
    some .sourceCardAlreadyCanonicalized
  else if 1 < (definedClaimTypes concreteCards).length then some .claimTypeConflict
  else if hasNegateRelation document selectedIds then some .negateConflict
  else if hasContradictionEvidence document selectedIds then some .contradictionEvidenceConflict
  else none

def MergeSuggestionDecisionEntry.applied (entry : MergeSuggestionDecisionEntry)
    (representativeCardId : String) (trace : RepresentativeOriginTrace) :
    MergeSuggestionDecisionEntry where
  props := (((entry.props.put "representativeCardId" (some (.string representativeCardId))).put
    "representativeResolvedBy" (some (.string trace.representativeResolvedBy.text))).put
    "sourceCardIds" (some (textArray trace.sourceCardIds))).put
    "missingSourceCardIds" (some (textArray trace.missingSourceCardIds))

def applyRecordedMergeSuggestionDecision (averagePosition : List Card → JsNumber × JsNumber)
    (randomUUID : Uuid) (document : DocumentV1) (decision : MergeSuggestionDecisionEntry) :
    Except MergeSuggestionApplyErrorCode MergeSuggestionApplyResult :=
  match document.recordedDecision lc decision with
  | none => .error .decisionNotRecorded
  | some recordedDecision =>
  match resolveAppliedSourceIds lc recordedDecision with
  | .error code => .error code
  | .ok selectedIds =>
  if selectedIds.length < 2 then .error .mergeFailed
  else
    let cardsById := InsertionMap.ofList (document.cards.map fun card => (card.id, card))
    let sourceCards := selectedIds.map cardsById.get?
    if sourceCards.any Option.isNone then .error .sourceCardMissing
    else
      match sourceCardsError document selectedIds sourceCards.reduceOption with
      | some code => .error code
      | none =>
      let representativeText := trim recordedDecision.editedText
      if representativeText = "" then .error .representativeTextEmpty
      else
        match createRepresentativeMerge lc averagePosition randomUUID document selectedIds
            representativeText false with
        | none => .error .mergeFailed
        | some merge =>
            let representativeTrace :=
              resolveRepresentativeOriginTrace lc merge.nextDocument merge.representativeCardId
            let nextDecisions := merge.nextDocument.mergeSuggestionDecisions.map fun entry =>
              if entry.recordedId ≠ recordedDecision.recordedId then entry
              else entry.applied merge.representativeCardId representativeTrace
            .ok {
              representativeCardId := merge.representativeCardId
              sourceCardIds := selectedIds
              document := merge.nextDocument.withMergeSuggestionDecisions nextDecisions }

/-! ## What an application needs -/

/-- The sources of an accepted decision, or of a valid part of it. -/
def MergeSuggestionDecisionEntry.Selects (recordedDecision : MergeSuggestionDecisionEntry)
    (sourceIds : List String) : Prop :=
  recordedDecision.action = some "accept" ∧
      sourceIds = normalizeIds lc recordedDecision.cardIds ∨
    recordedDecision.action = some "partial" ∧ ∃ selectedCardIds,
      recordedDecision.selectedCardIds = some selectedCardIds ∧
        sourceIds = normalizeIds lc selectedCardIds ∧ 2 ≤ sourceIds.length ∧
          sourceIds.length < (normalizeIds lc recordedDecision.cardIds).length ∧
            ∀ id ∈ sourceIds, id ∈ recordedDecision.cardIds

/-- The cards exist, are independent, and nothing opposes two of them. -/
structure SourcesMergeable (document : DocumentV1) (sourceIds : List String) : Prop where
  exist : ∀ id ∈ sourceIds, ∃ card ∈ document.cards, card.id = id
  not_held : ∀ card ∈ document.cards, card.id ∈ sourceIds → card.props.get "holdState" = none
  not_merged : ∀ card ∈ document.cards, card.id ∈ sourceIds →
    card.props.get "mergedIntoCardId" = none
  not_canonicalized : ∀ card ∈ document.cards, card.id ∈ sourceIds →
    card.props.get "canonicalId" = none
  claimTypes : ∀ left ∈ document.cards, left.id ∈ sourceIds → ∀ right ∈ document.cards,
    right.id ∈ sourceIds → ∀ leftType rightType, left.claimType = some leftType →
      right.claimType = some rightType → leftType = rightType
  no_negate : ∀ edge ∈ document.edges, edge.fromKind.getD .card = .card →
    edge.toKind.getD .card = .card → edge.props.string? "type" = some "negate" →
      ¬(edge.fromId ∈ sourceIds ∧ edge.toId ∈ sourceIds)
  no_contradiction : ∀ link ∈ document.links, link.props.string? "type" = some "contradicts" →
    ¬(link.fromCardId ∈ sourceIds ∧ link.toCardId ∈ sourceIds)

@[simp] theorem mem_normalizeIds {ids : List String} {id : String} :
    id ∈ normalizeIds lc ids ↔ id ∈ ids := by
  rw [normalizeIds, sortedUniqueIds, sortOn.mem, mem_distinct]

theorem nodup_normalizeIds (ids : List String) : (normalizeIds lc ids).Nodup :=
  (sortOn.perm lc.le id (distinct ids)).nodup_iff.mpr (nodup_distinct ids)

theorem resolveAppliedSourceIds_eq_ok_iff {recordedDecision : MergeSuggestionDecisionEntry}
    {sourceIds : List String} :
    resolveAppliedSourceIds lc recordedDecision = .ok sourceIds ↔
      recordedDecision.Selects lc sourceIds := by
  unfold resolveAppliedSourceIds MergeSuggestionDecisionEntry.Selects
  dsimp only
  by_cases haccept : recordedDecision.action = some "accept"
  · simp [haccept, eq_comm]
  rw [if_neg haccept]
  by_cases hpart : recordedDecision.action = some "partial"
  · rw [if_neg (not_not.mpr hpart)]
    cases hselected : recordedDecision.selectedCardIds with
    | none => simp [haccept]
    | some selectedCardIds =>
        dsimp only
        split
        next hlength =>
          refine iff_of_false nofun ?_
          rintro (⟨h, -⟩ | ⟨-, _, heq, rfl, htwo, hless, -⟩)
          · exact haccept h
          · cases heq
            omega
        next hlength =>
          split
          next hunknown =>
            refine iff_of_false nofun ?_
            rintro (⟨h, -⟩ | ⟨-, _, heq, rfl, -, -, hknown⟩)
            · exact haccept h
            · cases heq
              obtain ⟨id, hid, hnot⟩ := List.any_eq_true.mp hunknown
              simp [hknown id hid] at hnot
          next hunknown =>
            simp only [List.any_eq_true, not_exists, not_and, Bool.not_eq_true'] at hunknown
            constructor
            · rintro heq
              cases heq
              refine Or.inr ⟨hpart, _, rfl, rfl, by omega, by omega, fun id hid => ?_⟩
              simpa using hunknown id hid
            · rintro (⟨h, -⟩ | ⟨-, _, heq, rfl, -⟩)
              · exact absurd h haccept
              · cases heq
                rfl
  · simp [haccept, hpart]

/-! ## The two checks agree -/

variable {lc} {document : DocumentV1} {sourceIds : List String}

theorem get?_cardsById (hnodup : (document.cards.map Card.id).Nodup) (id : String) :
    (InsertionMap.ofList (document.cards.map fun card => (card.id, card))).get? id =
      findBy Card.id id document.cards := by
  have hget := InsertionMap.get?_ofList_map Card.id (fun card => card) hnodup id
  rwa [Option.map_id'] at hget

variable {card : Card}

theorem mem_sourceCards (hnodup : (document.cards.map Card.id).Nodup) :
    card ∈ (sourceIds.map (InsertionMap.ofList (document.cards.map fun card =>
      (card.id, card))).get?).reduceOption ↔ card ∈ document.cards ∧ card.id ∈ sourceIds := by
  rw [List.reduceOption_mem_iff, List.mem_map]
  simp only [get?_cardsById hnodup]
  constructor
  · rintro ⟨sourceId, hsource, hfind⟩
    obtain ⟨hcard, rfl⟩ := findBy_eq_some Card.id hfind
    exact ⟨hcard, hsource⟩
  · rintro ⟨hcard, hsource⟩
    exact ⟨card.id, hsource, findBy_of_mem Card.id hnodup hcard⟩

theorem any_isNone_sourceCards (hnodup : (document.cards.map Card.id).Nodup) :
    ((sourceIds.map (InsertionMap.ofList (document.cards.map fun card =>
      (card.id, card))).get?).any Option.isNone) = false ↔
        ∀ id ∈ sourceIds, ∃ card ∈ document.cards, card.id = id := by
  rw [List.any_eq_false]
  simp only [List.forall_mem_map, get?_cardsById hnodup, Bool.not_eq_true,
    Option.isNone_eq_false_iff, findBy_isSome]

theorem definedClaimTypes_le_one_iff {cards : List Card} :
    ¬1 < (definedClaimTypes cards).length ↔ ∀ left ∈ cards, ∀ right ∈ cards,
      ∀ leftType rightType, left.claimType = some leftType → right.claimType = some rightType →
        leftType = rightType := by
  rw [not_lt, definedClaimTypes, length_distinct_le_one_iff]
  simp only [List.mem_filterMap, forall_exists_index, and_imp]
  constructor
  · intro hequal left hleft right hright leftType rightType hleftType hrightType
    exact hequal leftType left hleft hleftType rightType right hright hrightType
  · intro hequal leftType left hleft hleftType rightType right hright hrightType
    exact hequal left hleft right hright leftType rightType hleftType hrightType

theorem hasNegateRelation_eq_false_iff :
    hasNegateRelation document sourceIds = false ↔
      ∀ edge ∈ document.edges, edge.fromKind.getD .card = .card →
        edge.toKind.getD .card = .card → edge.props.string? "type" = some "negate" →
          ¬(edge.fromId ∈ sourceIds ∧ edge.toId ∈ sourceIds) := by
  rw [hasNegateRelation, List.any_eq_false]
  simp only [Bool.and_eq_true, decide_eq_true_eq, List.contains_iff_mem, not_and, and_imp]

theorem hasContradictionEvidence_eq_false_iff :
    hasContradictionEvidence document sourceIds = false ↔
      ∀ link ∈ document.links, link.props.string? "type" = some "contradicts" →
        ¬(link.fromCardId ∈ sourceIds ∧ link.toCardId ∈ sourceIds) := by
  rw [hasContradictionEvidence, List.any_eq_false]
  simp only [Bool.and_eq_true, decide_eq_true_eq, List.contains_iff_mem, not_and, and_imp]

/-- The first check finds nothing. -/
theorem sourceCardsError_eq_none_iff {concreteCards : List Card}
    (hconcrete : ∀ card, card ∈ concreteCards ↔ card ∈ document.cards ∧ card.id ∈ sourceIds)
    (hexist : ∀ id ∈ sourceIds, ∃ card ∈ document.cards, card.id = id) :
    sourceCardsError document sourceIds concreteCards = none ↔
      SourcesMergeable document sourceIds := by
  have hany : ∀ key : String, ((concreteCards.any fun card => (card.props.get key).isSome) = true) ↔
      ¬∀ card ∈ document.cards, card.id ∈ sourceIds → card.props.get key = none := by
    intro key
    simp only [List.any_eq_true, hconcrete, not_forall, Option.isSome_iff_ne_none]
    tauto
  have hclaim : (∀ left ∈ concreteCards, ∀ right ∈ concreteCards, ∀ leftType rightType,
      left.claimType = some leftType → right.claimType = some rightType → leftType = rightType) ↔
        ∀ left ∈ document.cards, left.id ∈ sourceIds → ∀ right ∈ document.cards,
          right.id ∈ sourceIds → ∀ leftType rightType, left.claimType = some leftType →
            right.claimType = some rightType → leftType = rightType := by
    simp only [hconcrete, and_imp]
  unfold sourceCardsError
  constructor
  · intro hnone
    split at hnone
    next => cases hnone
    next hheld =>
    split at hnone
    next => cases hnone
    next hmerged =>
    split at hnone
    next => cases hnone
    next hcanonicalized =>
    split at hnone
    next => cases hnone
    next htypes =>
    split at hnone
    next => cases hnone
    next hnegate =>
    split at hnone
    next => cases hnone
    next hcontradiction =>
      rw [hany, not_not] at hheld hmerged hcanonicalized
      rw [Bool.not_eq_true] at hnegate hcontradiction
      exact ⟨hexist, hheld, hmerged, hcanonicalized,
        hclaim.mp (definedClaimTypes_le_one_iff.mp htypes),
        hasNegateRelation_eq_false_iff.mp hnegate,
        hasContradictionEvidence_eq_false_iff.mp hcontradiction⟩
  · intro hmergeable
    rw [if_neg (by rw [hany]; exact not_not.mpr hmergeable.not_held),
      if_neg (by rw [hany]; exact not_not.mpr hmergeable.not_merged),
      if_neg (by rw [hany]; exact not_not.mpr hmergeable.not_canonicalized),
      if_neg (definedClaimTypes_le_one_iff.mpr (hclaim.mpr hmergeable.claimTypes)),
      if_neg (by
        rw [hasNegateRelation_eq_false_iff.mpr hmergeable.no_negate]
        exact Bool.false_ne_true),
      if_neg (by
        rw [hasContradictionEvidence_eq_false_iff.mpr hmergeable.no_contradiction]
        exact Bool.false_ne_true)]

theorem mem_selectedCards {selectedIds : List String} :
    card ∈ document.cards.filter (fun card => selectedIds.contains card.id) ↔
      card ∈ document.cards ∧ card.id ∈ selectedIds := by
  rw [List.mem_filter, List.contains_iff_mem]

/-- The second check of cards that passed the first one. -/
theorem hasMergeConflict_eq_false (hmergeable : SourcesMergeable document sourceIds)
    {selectedCards : List Card}
    (hselected : ∀ card, card ∈ selectedCards ↔ card ∈ document.cards ∧ card.id ∈ sourceIds) :
    hasMergeConflict document selectedCards = false := by
  have hmem : ∀ id ∈ selectedCards.map Card.id, id ∈ sourceIds := by
    intro id hid
    obtain ⟨card, hcard, rfl⟩ := List.mem_map.mp hid
    exact ((hselected card).mp hcard).2
  have htext : ∀ {card : Card} {key : String}, card.props.get key = none → card.text? key = none := by
    intro card key hget
    rw [Card.text?, Props.string?, hget]
    rfl
  have hheld : (selectedCards.any fun card => (card.props.get "holdState").isSome) = false := by
    rw [List.any_eq_false]
    intro card hcard
    obtain ⟨hcard, hid⟩ := (hselected card).mp hcard
    rw [hmergeable.not_held card hcard hid]
    exact Bool.false_ne_true
  have hmerged : (selectedCards.any fun card =>
      truthy card.mergedIntoCardId || truthy card.canonicalId) = false := by
    rw [List.any_eq_false]
    intro card hcard
    obtain ⟨hcard, hid⟩ := (hselected card).mp hcard
    rw [Card.mergedIntoCardId, Card.canonicalId, htext (hmergeable.not_merged card hcard hid),
      htext (hmergeable.not_canonicalized card hcard hid)]
    exact Bool.false_ne_true
  have htypes : ¬1 < (definedClaimTypes selectedCards).length := by
    rw [definedClaimTypes_le_one_iff]
    intro left hleft right hright
    obtain ⟨hleft, hleftId⟩ := (hselected left).mp hleft
    obtain ⟨hright, hrightId⟩ := (hselected right).mp hright
    exact hmergeable.claimTypes left hleft hleftId right hright hrightId
  have hnegate : hasNegateRelation document (selectedCards.map Card.id) = false :=
    hasNegateRelation_eq_false_iff.mpr fun edge hedge hfrom hto htype hends =>
      hmergeable.no_negate edge hedge hfrom hto htype ⟨hmem _ hends.1, hmem _ hends.2⟩
  have hcontradiction : hasContradictionEvidence document (selectedCards.map Card.id) = false :=
    hasContradictionEvidence_eq_false_iff.mpr fun link hlink htype hends =>
      hmergeable.no_contradiction link hlink htype ⟨hmem _ hends.1, hmem _ hends.2⟩
  rw [hasMergeConflict, hheld, hmerged, hnegate, hcontradiction, decide_eq_false htypes]
  rfl

theorem length_selectedCards (hnodup : (document.cards.map Card.id).Nodup)
    (hsource : sourceIds.Nodup) (hexist : ∀ id ∈ sourceIds, ∃ card ∈ document.cards, card.id = id) :
    (document.cards.filter fun card => sourceIds.contains card.id).length = sourceIds.length := by
  have hperm : ((document.cards.filter fun card => sourceIds.contains card.id).map Card.id).Perm
      sourceIds := by
    rw [List.perm_ext_iff_of_nodup (hnodup.sublist (List.filter_sublist.map _)) hsource]
    intro id
    rw [List.mem_map]
    constructor
    · rintro ⟨card, hcard, rfl⟩
      exact (mem_selectedCards.mp hcard).2
    · intro hid
      obtain ⟨card, hcard, rfl⟩ := hexist id hid
      exact ⟨card, mem_selectedCards.mpr ⟨hcard, hid⟩, rfl⟩
  rw [← hperm.length_eq, List.length_map]

theorem length_sortedUniqueIds (hsource : sourceIds.Nodup) :
    (sortedUniqueIds lc sourceIds).length = sourceIds.length := by
  rw [sortedUniqueIds, sortOn.length, distinct_of_nodup hsource]

/-- Cards that passed the first check are merged. -/
theorem createRepresentativeMerge_isSome {averagePosition : List Card → JsNumber × JsNumber}
    {randomUUID : Uuid} {text : String} (hnodup : (document.cards.map Card.id).Nodup)
    (hsource : sourceIds.Nodup) (htwo : 2 ≤ sourceIds.length)
    (hmergeable : SourcesMergeable document sourceIds) (htext : trim text ≠ "")
    (hfresh : ∀ card ∈ document.cards, card.id ≠ randomUUID.text) (rewire : Bool) :
    (createRepresentativeMerge lc averagePosition randomUUID document sourceIds text
      rewire).isSome := by
  have hmem : ∀ id, id ∈ sortedUniqueIds lc sourceIds ↔ id ∈ sourceIds :=
    fun _ => mem_normalizeIds lc
  have hlength : (sortedUniqueIds lc sourceIds).length = sourceIds.length :=
    length_sortedUniqueIds hsource
  have hselected : (document.cards.filter fun card =>
      (sortedUniqueIds lc sourceIds).contains card.id).length =
        (sortedUniqueIds lc sourceIds).length :=
    length_selectedCards hnodup (nodup_normalizeIds lc sourceIds) fun id hid =>
      hmergeable.exist id ((hmem id).mp hid)
  have hconflict : hasMergeConflict document (document.cards.filter fun card =>
      (sortedUniqueIds lc sourceIds).contains card.id) = false :=
    hasMergeConflict_eq_false hmergeable fun card => by rw [mem_selectedCards, hmem]
  have hnew : (document.cards.any fun card => decide (card.id = randomUUID.text)) = false := by
    rw [List.any_eq_false]
    exact fun card hcard heq => hfresh card hcard (of_decide_eq_true heq)
  rw [createRepresentativeMerge, if_neg (by omega), if_neg (not_not.mpr hselected), hconflict,
    if_neg Bool.false_ne_true, if_neg htext, hnew, if_neg Bool.false_ne_true]
  rfl

section Applications

variable {averagePosition : List Card → JsNumber × JsNumber} {randomUUID : Uuid}
  {decision recordedDecision : MergeSuggestionDecisionEntry} {result : MergeSuggestionApplyResult}
  {f : MergeSuggestionDecisionEntry → MergeSuggestionDecisionEntry} {start : DocumentV1}

/-- What a successful application has checked, and what it makes. -/
theorem apply_eq_ok
    (hok : applyRecordedMergeSuggestionDecision lc averagePosition randomUUID document decision =
      .ok result) :
    ∃ recordedDecision merge, document.recordedDecision lc decision = some recordedDecision ∧
      recordedDecision.Selects lc result.sourceCardIds ∧ 2 ≤ result.sourceCardIds.length ∧
      ((result.sourceCardIds.map (InsertionMap.ofList (document.cards.map fun card =>
        (card.id, card))).get?).any Option.isNone) = false ∧
      sourceCardsError document result.sourceCardIds (result.sourceCardIds.map
        (InsertionMap.ofList (document.cards.map fun card =>
          (card.id, card))).get?).reduceOption = none ∧
      trim recordedDecision.editedText ≠ "" ∧
      createRepresentativeMerge lc averagePosition randomUUID document result.sourceCardIds
        (trim recordedDecision.editedText) false = some merge ∧
      result.representativeCardId = merge.representativeCardId ∧
      result.document = merge.nextDocument.withMergeSuggestionDecisions
        (merge.nextDocument.mergeSuggestionDecisions.map fun entry =>
          if entry.recordedId ≠ recordedDecision.recordedId then entry
          else entry.applied merge.representativeCardId
            (resolveRepresentativeOriginTrace lc merge.nextDocument
              merge.representativeCardId)) := by
  unfold applyRecordedMergeSuggestionDecision at hok
  split at hok
  next => cases hok
  next recordedDecision hrecorded =>
  split at hok
  next => cases hok
  next selectedIds hselected =>
  split at hok
  next => cases hok
  next htwo =>
  dsimp only at hok
  split at hok
  next => cases hok
  next hexist =>
  split at hok
  next => cases hok
  next hfree =>
  split at hok
  next => cases hok
  next htext =>
  split at hok
  next => cases hok
  next merge hmerge =>
    cases hok
    exact ⟨recordedDecision, merge, hrecorded, (resolveAppliedSourceIds_eq_ok_iff lc).mp hselected,
      not_lt.mp htwo, Bool.not_eq_true _ ▸ hexist, hfree, htext, hmerge, rfl, rfl⟩

/-- What a successful application has found among cards with distinct ids. -/
theorem exists_of_apply_ok (hnodup : (document.cards.map Card.id).Nodup)
    (hok : applyRecordedMergeSuggestionDecision lc averagePosition randomUUID document decision =
      .ok result) :
    ∃ recordedDecision merge, document.recordedDecision lc decision = some recordedDecision ∧
      recordedDecision.Selects lc result.sourceCardIds ∧ 2 ≤ result.sourceCardIds.length ∧
        SourcesMergeable document result.sourceCardIds ∧ trim recordedDecision.editedText ≠ "" ∧
          createRepresentativeMerge lc averagePosition randomUUID document
              result.sourceCardIds (trim recordedDecision.editedText) false = some merge ∧
            result.document = merge.nextDocument.withMergeSuggestionDecisions
              (merge.nextDocument.mergeSuggestionDecisions.map fun entry =>
                if entry.recordedId ≠ recordedDecision.recordedId then entry
                else entry.applied merge.representativeCardId
                  (resolveRepresentativeOriginTrace lc merge.nextDocument
                    merge.representativeCardId)) := by
  obtain ⟨recordedDecision, merge, hrecorded, hselects, htwo, hexist, hfree, htext, hmerge, -,
    hdocument⟩ := apply_eq_ok hok
  rw [any_isNone_sourceCards hnodup] at hexist
  rw [sourceCardsError_eq_none_iff (fun card => mem_sourceCards hnodup) hexist] at hfree
  exact ⟨recordedDecision, merge, hrecorded, hselects, htwo, hfree, htext, hmerge, hdocument⟩

theorem nodup_of_selects (hselects : recordedDecision.Selects lc sourceIds) : sourceIds.Nodup := by
  rcases hselects with ⟨-, rfl⟩ | ⟨-, selectedCardIds, -, rfl, -⟩
  · exact nodup_normalizeIds lc _
  · exact nodup_normalizeIds lc _

theorem sourceCardsError_ne_mergeFailed (selectedIds : List String) (concreteCards : List Card) :
    sourceCardsError document selectedIds concreteCards ≠ some .mergeFailed := by
  unfold sourceCardsError
  repeat' split
  all_goals exact nofun

section

variable (hnodup : (document.cards.map Card.id).Nodup)
  (hfresh : ∀ card ∈ document.cards, card.id ≠ randomUUID.text)
  (hrecorded : document.recordedDecision lc decision = some recordedDecision)
  (hselects : recordedDecision.Selects lc sourceIds) (htwo : 2 ≤ sourceIds.length)
include hnodup hfresh hrecorded hselects htwo

/-- An application that has found everything succeeds. -/
theorem apply_ok_of_mergeable (hmergeable : SourcesMergeable document sourceIds)
    (htext : trim recordedDecision.editedText ≠ "") :
    ∃ result, applyRecordedMergeSuggestionDecision lc averagePosition randomUUID document decision =
      .ok result := by
  obtain ⟨merge, hmerge⟩ : ∃ merge, createRepresentativeMerge lc averagePosition randomUUID document
      sourceIds (trim recordedDecision.editedText) false = some merge :=
    Option.isSome_iff_exists.mp (createRepresentativeMerge_isSome hnodup
      (nodup_of_selects hselects) htwo hmergeable (by rwa [trim_trim]) hfresh false)
  unfold applyRecordedMergeSuggestionDecision
  rw [hrecorded]
  dsimp only
  rw [(resolveAppliedSourceIds_eq_ok_iff lc).mpr hselects]
  dsimp only
  rw [if_neg (not_lt.mpr htwo), (any_isNone_sourceCards hnodup).mpr hmergeable.exist,
    if_neg Bool.false_ne_true, (sourceCardsError_eq_none_iff (fun card => mem_sourceCards hnodup)
      hmergeable.exist).mpr hmergeable]
  dsimp only
  rw [if_neg htext, hmerge]
  exact ⟨_, rfl⟩

/-- The merge does not fail once the first check has passed. -/
theorem apply_ne_mergeFailed :
    applyRecordedMergeSuggestionDecision lc averagePosition randomUUID document decision ≠
      .error .mergeFailed := by
  by_cases hready : SourcesMergeable document sourceIds ∧ trim recordedDecision.editedText ≠ ""
  · obtain ⟨result, hok⟩ : ∃ result, applyRecordedMergeSuggestionDecision lc averagePosition
        randomUUID document decision = .ok result :=
      apply_ok_of_mergeable hnodup hfresh hrecorded hselects htwo hready.1 hready.2
    rw [hok]
    exact fun heq => by cases heq
  unfold applyRecordedMergeSuggestionDecision
  rw [hrecorded]
  dsimp only
  rw [(resolveAppliedSourceIds_eq_ok_iff lc).mpr hselects]
  dsimp only
  rw [if_neg (not_lt.mpr htwo)]
  split
  next => exact fun heq => by cases heq
  next hexist =>
    rw [Bool.not_eq_true, any_isNone_sourceCards hnodup] at hexist
    split
    next code hcode =>
      rintro heq
      cases heq
      exact sourceCardsError_ne_mergeFailed _ _ hcode
    next hfree =>
      rw [sourceCardsError_eq_none_iff (fun card => mem_sourceCards hnodup) hexist] at hfree
      have htext : trim recordedDecision.editedText = "" :=
        of_not_not fun htext => hready ⟨hfree, htext⟩
      rw [if_pos htext]
      exact fun heq => by cases heq

end

/-! ## Later applications -/

variable (lc averagePosition) in
/-- The document after an application; a failed one leaves it as it is. -/
def documentAfter (document : DocumentV1) (application : MergeSuggestionDecisionEntry × Uuid) :
    DocumentV1 :=
  match applyRecordedMergeSuggestionDecision lc averagePosition application.2 document
      application.1 with
  | .ok result => result.document
  | .error _ => document

variable (lc averagePosition) in
def documentAfterAll (document : DocumentV1)
    (applications : List (MergeSuggestionDecisionEntry × Uuid)) : DocumentV1 :=
  applications.foldl (documentAfter lc averagePosition) document

/-- A function on entries that leaves what applications compare and read. -/
structure KeepsDecision (f : MergeSuggestionDecisionEntry → MergeSuggestionDecisionEntry) :
    Prop where
  recordedId : ∀ entry, (f entry).recordedId = entry.recordedId
  groupId : ∀ entry, (f entry).groupId = entry.groupId
  action : ∀ entry, (f entry).action = entry.action
  editedText : ∀ entry, (f entry).editedText = entry.editedText
  cardIds : ∀ entry, (f entry).cardIds = entry.cardIds
  selectedCardIds : ∀ entry, (f entry).selectedCardIds = entry.selectedCardIds

/-- What a merge of some cards leaves behind. -/
structure Applied (start : DocumentV1) (sourceIds : List String) (document : DocumentV1) :
    Prop where
  nodup : (document.cards.map Card.id).Nodup
  exist : ∀ id ∈ sourceIds, ∃ card ∈ document.cards, card.id = id
  merged : ∀ card ∈ document.cards, card.id ∈ sourceIds →
    card.props.get "mergedIntoCardId" ≠ none
  decisions : ∃ f, KeepsDecision f ∧
    document.mergeSuggestionDecisions = start.mergeSuggestionDecisions.map f

theorem keepsDecision_id : KeepsDecision id :=
  ⟨fun _ => rfl, fun _ => rfl, fun _ => rfl, fun _ => rfl, fun _ => rfl, fun _ => rfl⟩

theorem KeepsDecision.comp {g : MergeSuggestionDecisionEntry → MergeSuggestionDecisionEntry}
    (hf : KeepsDecision f) (hg : KeepsDecision g) : KeepsDecision (f ∘ g) where
  recordedId entry := (hf.recordedId (g entry)).trans (hg.recordedId entry)
  groupId entry := (hf.groupId (g entry)).trans (hg.groupId entry)
  action entry := (hf.action (g entry)).trans (hg.action entry)
  editedText entry := (hf.editedText (g entry)).trans (hg.editedText entry)
  cardIds entry := (hf.cardIds (g entry)).trans (hg.cardIds entry)
  selectedCardIds entry := (hf.selectedCardIds (g entry)).trans (hg.selectedCardIds entry)

theorem keepsDecision_applied (recordedId : Option String) (representativeCardId : String)
    (trace : RepresentativeOriginTrace) :
    KeepsDecision fun entry =>
      if entry.recordedId ≠ recordedId then entry
      else entry.applied representativeCardId trace := by
  constructor <;> intro entry <;> split <;>
    first
      | rfl
      | simp [MergeSuggestionDecisionEntry.applied, MergeSuggestionDecisionEntry.recordedId,
          MergeSuggestionDecisionEntry.groupId, MergeSuggestionDecisionEntry.action,
          MergeSuggestionDecisionEntry.editedText, MergeSuggestionDecisionEntry.cardIds,
          MergeSuggestionDecisionEntry.selectedCardIds, Props.string?_put, Props.strings?_put]

theorem cards_of_merge {selectedCardIds : List String} {text : String} {merge : MergeResult}
    (hmerge : createRepresentativeMerge lc averagePosition randomUUID document selectedCardIds text
      false = some merge) :
    ∃ card : Card, merge.nextDocument.cards = mergedCards document.cards
        (sortedUniqueIds lc selectedCardIds) randomUUID.text ++ [card] ∧
      card.id = randomUUID.text ∧ (∀ card ∈ document.cards, card.id ≠ randomUUID.text) ∧
        merge.nextDocument.rest = document.rest := by
  obtain ⟨-, hfresh, -, position, claimType, hnext⟩ := createRepresentativeMerge_eq_some hmerge
  rw [List.any_eq_false] at hfresh
  refine ⟨_, by rw [hnext], rfl, fun card hcard heq => hfresh card hcard (decide_eq_true heq), ?_⟩
  rw [hnext]

theorem map_id_mergedCards (cards : List Card) (selectedCardIds : List String) (id : String) :
    (mergedCards cards selectedCardIds id).map Card.id = cards.map Card.id := by
  rw [mergedCards, List.map_map]
  refine List.map_congr_left fun card _ => ?_
  rw [Function.comp_apply]
  split <;> rfl

theorem merged_of_mem_mergedCards {cards : List Card} {selectedCardIds : List String} {id : String}
    (hcard : card ∈ mergedCards cards selectedCardIds id) :
    ∃ old ∈ cards, old.id = card.id ∧
      (card.id ∈ selectedCardIds ∨ old.props.get "mergedIntoCardId" ≠ none →
        card.props.get "mergedIntoCardId" ≠ none) := by
  obtain ⟨old, hold, rfl⟩ := List.mem_map.mp hcard
  refine ⟨old, hold, by split <;> rfl, ?_⟩
  split
  next =>
    intro _
    simp [Card.put, Props.get_put]
  next hselected =>
    rintro (hid | hmerged)
    · exact absurd (List.contains_iff_mem.mpr hid) hselected
    · exact hmerged

section

variable (happlied : Applied start sourceIds document)
include happlied

theorem Applied.of_apply_ok
    (hok : applyRecordedMergeSuggestionDecision lc averagePosition randomUUID document decision =
      .ok result) : Applied start (sourceIds ++ result.sourceCardIds) result.document := by
  obtain ⟨recordedDecision, merge, _, _, _, hmergeable, _, hmerge, hdocument⟩ :=
    exists_of_apply_ok happlied.nodup hok
  obtain ⟨representative, hcards, hid, hfresh, hrest⟩ := cards_of_merge hmerge
  have hresult : result.document.cards = mergedCards document.cards
      (sortedUniqueIds lc result.sourceCardIds) randomUUID.text ++ [representative] := by
    rw [hdocument]
    exact hcards
  have hids : result.document.cards.map Card.id = document.cards.map Card.id ++ [randomUUID.text] := by
    rw [hresult, List.map_append, map_id_mergedCards, List.map_singleton, hid]
  have hknown : ∀ id ∈ sourceIds ++ result.sourceCardIds, ∃ card ∈ document.cards, card.id = id := by
    intro id hsource
    rcases List.mem_append.mp hsource with hsource | hsource
    · exact happlied.exist id hsource
    · exact hmergeable.exist id hsource
  refine ⟨?_, fun id hsource => ?_, fun card hcard hsource => ?_, ?_⟩
  · rw [hids, List.nodup_append]
    refine ⟨happlied.nodup, List.nodup_singleton _, fun id hmem new hnew => ?_⟩
    obtain ⟨card, hcard, rfl⟩ := List.mem_map.mp hmem
    rw [List.mem_singleton.mp hnew]
    exact hfresh card hcard
  · obtain ⟨card, hcard, rfl⟩ := hknown id hsource
    have hmem : card.id ∈ result.document.cards.map Card.id := by
      rw [hids]
      exact List.mem_append_left _ (List.mem_map_of_mem hcard)
    exact List.mem_map.mp hmem
  · rw [hresult] at hcard
    rcases mem_snoc.mp hcard with hcard | hcard
    · obtain ⟨old, hold, holdId, himplies⟩ := merged_of_mem_mergedCards hcard
      refine himplies ?_
      rcases List.mem_append.mp hsource with hsource | hsource
      · exact Or.inr (happlied.merged old hold (holdId ▸ hsource))
      · exact Or.inl ((mem_normalizeIds lc).mpr hsource)
    · -- the new card has an id that no card had, in particular no source
      rw [hcard, hid] at hsource
      obtain ⟨old, hold, holdId⟩ := hknown _ hsource
      exact absurd holdId (hfresh old hold)
  · obtain ⟨f, hf, hdecisions⟩ := happlied.decisions
    refine ⟨_, (keepsDecision_applied recordedDecision.recordedId merge.representativeCardId
      (resolveRepresentativeOriginTrace lc merge.nextDocument merge.representativeCardId)).comp hf,
      ?_⟩
    have hlog : merge.nextDocument.mergeSuggestionDecisions = document.mergeSuggestionDecisions := by
      rw [DocumentV1.mergeSuggestionDecisions, hrest]
      rfl
    rw [hdocument, mergeSuggestionDecisions_with, hlog, hdecisions, List.map_map]

theorem Applied.mono {fewer : List String} (hfewer : ∀ id ∈ fewer, id ∈ sourceIds) :
    Applied start fewer document where
  nodup := happlied.nodup
  exist id hid := happlied.exist id (hfewer id hid)
  merged card hcard hid := happlied.merged card hcard (hfewer card.id hid)
  decisions := happlied.decisions

theorem applied_documentAfter (application : MergeSuggestionDecisionEntry × Uuid) :
    Applied start sourceIds (documentAfter lc averagePosition document application) := by
  rw [documentAfter]
  split
  next result hok => exact (happlied.of_apply_ok hok).mono fun _ => List.mem_append_left _
  next => exact happlied

theorem applied_foldl (applications : List (MergeSuggestionDecisionEntry × Uuid)) :
    Applied start sourceIds (documentAfterAll lc averagePosition document applications) := by
  induction applications generalizing document with
  | nil => exact happlied
  | cons application applications ih => exact ih (applied_documentAfter happlied application)

end

theorem isSameRecordedDecision_keeps (hf : KeepsDecision f) (entry : MergeSuggestionDecisionEntry) :
    isSameRecordedDecision lc (f entry) decision = isSameRecordedDecision lc entry decision := by
  unfold isSameRecordedDecision
  rw [hf.recordedId, hf.groupId, hf.action, hf.editedText, hf.cardIds]

theorem selects_keeps (hf : KeepsDecision f) :
    (f recordedDecision).Selects lc sourceIds ↔ recordedDecision.Selects lc sourceIds := by
  unfold MergeSuggestionDecisionEntry.Selects
  rw [hf.action, hf.cardIds, hf.selectedCardIds]

theorem recordedDecision_of_applied {start : DocumentV1} (happlied : Applied start sourceIds document) :
    ∃ f, KeepsDecision f ∧ document.recordedDecision lc decision =
      (start.recordedDecision lc decision).map f := by
  obtain ⟨f, hf, hdecisions⟩ := happlied.decisions
  refine ⟨f, hf, ?_⟩
  rw [DocumentV1.recordedDecision, hdecisions, List.find?_map]
  congr 2
  funext entry
  exact isSameRecordedDecision_keeps hf entry

theorem isSameRecordedDecision_trans {next entry : MergeSuggestionDecisionEntry}
    (hsame : isSameRecordedDecision lc next decision = true) :
    isSameRecordedDecision lc entry next = isSameRecordedDecision lc entry decision := by
  simp only [isSameRecordedDecision, sameIds, Bool.and_eq_true, decide_eq_true_eq] at hsame
  obtain ⟨⟨⟨⟨hid, hgroup⟩, haction⟩, htext⟩, hcards⟩ := hsame
  unfold isSameRecordedDecision sameIds
  rw [hid, hgroup, haction, htext, hcards]

theorem Selects.unique {first second : List String} (hfirst : recordedDecision.Selects lc first)
    (hsecond : recordedDecision.Selects lc second) : first = second :=
  Except.ok.inj (((resolveAppliedSourceIds_eq_ok_iff lc).mpr hfirst).symm.trans
    ((resolveAppliedSourceIds_eq_ok_iff lc).mpr hsecond))

variable (lc) in
def Overlaps (document : DocumentV1) (decision : MergeSuggestionDecisionEntry)
    (cardIds : List String) : Prop :=
  ∃ recordedDecision sourceIds, document.recordedDecision lc decision = some recordedDecision ∧
    recordedDecision.Selects lc sourceIds ∧ ∃ id ∈ sourceIds, id ∈ cardIds

theorem Applied.apply_fails (happlied : Applied start sourceIds document)
    (hoverlaps : Overlaps lc document decision sourceIds) :
    (∃ code, applyRecordedMergeSuggestionDecision lc averagePosition randomUUID document decision =
      .error code) ∧
        documentAfter lc averagePosition document (decision, randomUUID) = document := by
  cases hresult : applyRecordedMergeSuggestionDecision lc averagePosition randomUUID document
      decision with
  | error code =>
      refine ⟨⟨code, rfl⟩, ?_⟩
      rw [documentAfter, hresult]
  | ok result =>
      obtain ⟨recordedDecision, _, hrecorded, hselects, -, hmergeable, -⟩ :=
        exists_of_apply_ok happlied.nodup hresult
      obtain ⟨_, selectedIds, hrecorded', hselects', id, hselected, hsource⟩ := hoverlaps
      rw [hrecorded] at hrecorded'
      cases hrecorded'
      rw [Selects.unique hselects' hselects] at hselected
      obtain ⟨card, hcard, rfl⟩ := happlied.exist id hsource
      exact absurd (hmergeable.not_merged card hcard hselected) (happlied.merged card hcard hsource)

theorem resolveAppliedSourceIds_ne_mergeFailed :
    resolveAppliedSourceIds lc recordedDecision ≠ .error .mergeFailed := by
  unfold resolveAppliedSourceIds
  dsimp only
  repeat' split
  all_goals exact nofun

/-- The first check is as strict as the merge: with a fresh id, the merge fails
only for fewer than two cards, an application succeeds exactly when nothing
speaks against it, and it succeeds once for each card. -/
theorem application_gate_agrees (hnodup : (document.cards.map Card.id).Nodup)
    (hfresh : ∀ card ∈ document.cards, card.id ≠ randomUUID.text)
    (decision : MergeSuggestionDecisionEntry) :
    (applyRecordedMergeSuggestionDecision lc averagePosition randomUUID document decision =
        .error .mergeFailed →
      ∃ recordedDecision sourceIds, document.recordedDecision lc decision = some recordedDecision ∧
        recordedDecision.Selects lc sourceIds ∧ sourceIds.length < 2) ∧
    ((∃ result, applyRecordedMergeSuggestionDecision lc averagePosition randomUUID document
        decision = .ok result) ↔
      ∃ recordedDecision sourceIds, document.recordedDecision lc decision = some recordedDecision ∧
        recordedDecision.Selects lc sourceIds ∧ 2 ≤ sourceIds.length ∧
          SourcesMergeable document sourceIds ∧ trim recordedDecision.editedText ≠ "") ∧
    ∀ result, applyRecordedMergeSuggestionDecision lc averagePosition randomUUID document
        decision = .ok result →
      ∀ applications state, state = documentAfterAll lc averagePosition result.document applications →
        ∀ next nextUUID, isSameRecordedDecision lc next decision = true ∨
            Overlaps lc state next result.sourceCardIds →
          (∃ code, applyRecordedMergeSuggestionDecision lc averagePosition nextUUID state next =
            .error code) ∧
              documentAfter lc averagePosition state (next, nextUUID) = state := by
  refine ⟨fun hfailed => ?_, ⟨?_, ?_⟩, ?_⟩
  · cases hrecorded : document.recordedDecision lc decision with
    | none =>
        rw [applyRecordedMergeSuggestionDecision, hrecorded] at hfailed
        cases hfailed
    | some recordedDecision =>
        cases hselected : resolveAppliedSourceIds lc recordedDecision with
        | error code =>
            rw [applyRecordedMergeSuggestionDecision, hrecorded] at hfailed
            dsimp only at hfailed
            rw [hselected] at hfailed
            cases hfailed
            exact absurd hselected resolveAppliedSourceIds_ne_mergeFailed
        | ok sourceIds =>
            have hselects := (resolveAppliedSourceIds_eq_ok_iff lc).mp hselected
            refine ⟨recordedDecision, sourceIds, rfl, hselects, not_le.mp fun htwo => ?_⟩
            exact apply_ne_mergeFailed hnodup hfresh hrecorded hselects htwo hfailed
  · rintro ⟨result, hok⟩
    obtain ⟨recordedDecision, _, hrecorded, hselects, htwo, hmergeable, htext, -⟩ :=
      exists_of_apply_ok hnodup hok
    exact ⟨recordedDecision, result.sourceCardIds, hrecorded, hselects, htwo, hmergeable, htext⟩
  · rintro ⟨recordedDecision, sourceIds, hrecorded, hselects, htwo, hmergeable, htext⟩
    exact apply_ok_of_mergeable hnodup hfresh hrecorded hselects htwo hmergeable htext
  · rintro result hok applications state rfl next nextUUID hnext
    have hstart : Applied document [] document :=
      ⟨hnodup, fun _ hid => absurd hid List.not_mem_nil, fun _ _ hid => absurd hid List.not_mem_nil,
        id, keepsDecision_id, (List.map_id _).symm⟩
    have happlied : Applied document result.sourceCardIds
        (documentAfterAll lc averagePosition result.document applications) :=
      applied_foldl (hstart.of_apply_ok hok) applications
    refine happlied.apply_fails ?_
    rcases hnext with hsame | hoverlaps
    · -- the same decision still selects the same cards
      obtain ⟨recordedDecision, _, hrecorded, hselects, htwo, -⟩ := exists_of_apply_ok hnodup hok
      obtain ⟨f, hf, hlater⟩ := @recordedDecision_of_applied lc _ _ next _ happlied
      have hnextRecorded : document.recordedDecision lc next = some recordedDecision := by
        rw [← hrecorded, DocumentV1.recordedDecision, DocumentV1.recordedDecision]
        congr 1
        funext entry
        exact isSameRecordedDecision_trans hsame
      rw [hnextRecorded] at hlater
      obtain ⟨id, hid⟩ := List.exists_mem_of_length_pos (by omega : 0 < result.sourceCardIds.length)
      exact ⟨f recordedDecision, result.sourceCardIds, hlater, (selects_keeps hf).mpr hselects,
        id, hid, hid⟩
    · exact hoverlaps

end Applications

end Apply

namespace SuggestionInputs

def accepted : MergeSuggestionDecisionEntry where
  props := [("id", some (.string "d1")), ("groupId", some (.string "g")),
    ("decision", some (.string "accept")), ("cardIds", some (textArray ["b", "a"])),
    ("editedText", some (.string " both "))]

/-- Two cards and the decision. -/
def document : DocumentV1 :=
  (DocumentV1.smallest [.smallest "a" "one", .smallest "b" "two"] []).withMergeSuggestionDecisions
    [accepted]

def origin : List Card → JsNumber × JsNumber := fun _ => (.zero, .zero)

/-- The decision is applied, and only once. -/
theorem application_gate_agrees_two : ∃ result,
    applyRecordedMergeSuggestionDecision .codeUnit origin ⟨"r", by decide⟩ document accepted =
      .ok result ∧
    (∃ code, applyRecordedMergeSuggestionDecision .codeUnit origin ⟨"s", by decide⟩ result.document
      accepted = .error code) := by
  have hagrees := @application_gate_agrees .codeUnit document origin ⟨"r", by decide⟩
    (by decide +kernel) (by decide +kernel) accepted
  have hok : (applyRecordedMergeSuggestionDecision .codeUnit origin ⟨"r", by decide⟩ document
      accepted).isOk = true := by decide +kernel
  obtain ⟨result, hresult⟩ := exists_of_isOk hok
  refine ⟨result, hresult, ?_⟩
  exact (hagrees.2.2 result hresult [] _ rfl accepted ⟨"s", by decide⟩
    (Or.inl (by decide +kernel))).1

end SuggestionInputs

end KjAtlas
