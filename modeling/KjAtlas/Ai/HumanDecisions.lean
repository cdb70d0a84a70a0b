import Mathlib.Data.List.ReduceOption
import KjAtlas.Ai.CardGroups
import KjAtlas.Ai.Documents

/-! # Decisions of people and the model

What a person has set aside stays out of every group. A contradiction that a
person has decided is answered without the model where the first link that
records it in its direction is the decided one: of links with the same ends the
projection reads the first.
-/

/-! ## Contradictions between two cards

Two cards are looked at with the projection of the document around them. Where a
person has recorded and decided a contradiction between them, the answer is taken
from the projection. Otherwise a model is asked.
-/

namespace KjAtlas.Ai

open Ir (IrEvidenceLink)

variable {F : Type} (server : Server F)

/-! ## The projection -/

structure DetectContradictionRequest (F : Type) where
  cardA : CardRef
  cardB : CardRef
  doc : Option (Ir.DocumentV1 F)
  externalProposalRef : Option ExternalProposalReference
  allowUnreviewedText : Option Bool

structure DetectContradictionResponse where
  hasContradiction : Bool
  explanation : Option String
  alreadyRecorded : Bool := false
  existingContradictionState : Option String := none

def DetectContradictionRequest.cards (payload : DetectContradictionRequest F) : List CardRef :=
  [payload.cardA, payload.cardB]

/-- The id of the document, as it is recorded. -/
def DetectContradictionRequest.docId (payload : DetectContradictionRequest F) : String :=
  (payload.doc.map Ir.DocumentV1.id).getD "(no-doc)"

/-- `_detect_contradiction_ir`. -/
def detectContradictionIr (payload : DetectContradictionRequest F) :
    Except Raised (Ir.LlmInputIr F) := do
  ensure (payload.cardA.id ≠ payload.cardB.id)
    (.http 422 (.coded "duplicate_card_id" "cardA and cardB must reference different cards."))
  (Ir.buildLlmInputIr server.runtime
    { includeCoordinates := false
      safeMode := true
      allowUnreviewedText := decide (IsRelaxed server payload.allowUnreviewedText)
      requiredCardIds := [payload.cardA.id, payload.cardB.id]
      requiredRelationIds := [] }
    (requestSource payload.doc payload.cards)).mapError irError

def adjudicatedContradictionStates : List String := ["confirmed", "held"]

/-- `adjudicated_contradiction`: the state of the contradiction, for two different cards. -/
def adjudicatedContradiction (ir : Ir.LlmInputIr F) (cardAId cardBId : String) : Option String :=
  ir.evidenceLinks.findSome? fun link =>
    if link.type = "contradicts" ∧ IsBetween link.fromCardId link.toCardId cardAId cardBId then
      link.contradictionState.filter (adjudicatedContradictionStates.contains ·)
    else none

/-! ## The prompt -/

def detectContradictionHeader : String :=
  "Determine if these two KJ-method cards contradict each other. " ++
    "Return JSON: \x7b\"hasContradiction\": true|false, \"explanation\": \"...\"\x7d\n" ++
    "A mere difference of opinion is not a contradiction.\n"

def evidenceLine (link : IrEvidenceLink) : String :=
  "- " ++ link.type ++ " " ++ link.fromCardId ++ " -> " ++ link.toCardId ++
    " (contradictionState=" ++ (nonEmpty link.contradictionState).getD "n/a" ++ ")"

def pairIslandLine (island : IrIsland) : String :=
  "- " ++ island.id ++ " \"" ++ (nonEmpty island.title).getD "(untitled)" ++ "\" (reviewState=" ++
    island.reviewState ++ ", members=" ++ joinText "," island.cardIds ++ ")"

/-- What the projection knows of the two cards. -/
def pairContext (ir : Ir.LlmInputIr F) (pair : List String) : List String :=
  headed ("Evidence links the human has already recorded (do NOT re-propose a " ++
      "contradiction whose state is confirmed or held):")
    ((ir.evidenceLinks.filter fun link => link.fromCardId ∈ pair ∨ link.toCardId ∈ pair).map
      evidenceLine) ++
  headed "Relations recorded on the canvas (ADR-0048 vocabulary):"
    ((ir.relations.filter fun relation => relation.fromId ∈ pair ∨ relation.toId ∈ pair).map
      relationLine) ++
  headed "Islands the human has confirmed for these cards:"
    ((ir.islands.filter fun island => island.cardIds.any (pair.contains ·)).map pairIslandLine) ++
  headed "Structural observation (no ranking, no scoring):"
    ((ir.graphSummary.contradictionSubgraphs.filter fun item =>
      item.cardIds.any (pair.contains ·)).map fun item =>
        "- " ++ item.subgraphId ++ ": " ++ item.summary)

/-- `_build_detect_contradiction_prompt`. -/
def buildDetectContradictionPrompt (payload : DetectContradictionRequest F) (ir : Ir.LlmInputIr F) :
    Prompt :=
  let context := pairContext ir [payload.cardA.id, payload.cardB.id]
  [plainLine detectContradictionHeader,
    [.plain ("Card A (id=" ++ payload.cardA.id ++ "): "), .card payload.cardA.text],
    [.plain ("Card B (id=" ++ payload.cardB.id ++ "): "), .card payload.cardB.text]] ++
  plainLines (if context = [] then [] else "" :: context)

/-- `_parse_detect_contradiction_response`. -/
def parseDetectContradictionResponse (rawText : Py.Str) :
    Except Raised DetectContradictionResponse := do
  let data ← loadsUncaught server rawText
  let hasContradiction ← dictGetOr data "hasContradiction" "has_contradiction"
  let explanation ← optionalText (← dictGet data "explanation")
  return {
    hasContradiction := (hasContradiction.map (pyBool server)).getD false
    explanation }

/-- The response where a person has decided. -/
def recordedResponse (state : String) : DetectContradictionResponse where
  hasContradiction := false
  explanation := some ("A contradiction between these cards is already recorded and " ++
    "adjudicated by a human (contradictionState=" ++ state ++ "); it is not re-proposed.")
  alreadyRecorded := true
  existingContradictionState := some state

/-- A proposal that the request names must be known for the document. -/
def validateFinalJudgementExternalProposal (payload : DetectContradictionRequest F) :
    Except Raised Unit :=
  match payload.externalProposalRef, payload.doc with
  | none, _ => .ok ()
  | some _, none => .error (.http 422 (.coded "external_proposal_document_required"
      "doc is required when externalProposalRef is supplied."))
  | some ref, some doc => server.validateProposal ref doc.id

/-- The checks before the model is chosen, and the projection. -/
def prepareDetectContradiction (payload : DetectContradictionRequest F) :
    Except Raised (Ir.LlmInputIr F) := do
  rejectUnreviewedCards server (payload.cards.map CardRef.textReviewed) payload.allowUnreviewedText
  validateFinalJudgementExternalProposal server payload
  detectContradictionIr server payload

/-- `detect_contradiction`. -/
def detectContradiction (payload : DetectContradictionRequest F) :
    Route DetectContradictionResponse := do
  let ir ← prepareDetectContradiction server payload
  match adjudicatedContradiction ir payload.cardA.id payload.cardB.id with
  | some state => return recordedResponse state
  | none => do
      let response ← finalJudgement server payload.externalProposalRef payload.docId
        "detect_contradiction" (buildDetectContradictionPrompt payload ir)
      let _ ← server.tenant
      parseDetectContradictionResponse server response.rawText

end KjAtlas.Ai

namespace KjAtlas.Ai

open Ir (SourceEvidenceLink)

variable {F : Type} {server : Server F}

/-! ## Cards that are set aside -/

/-- A card of the document has a hold state. -/
def SetAside (doc : Option (Ir.DocumentV1 F)) (id : String) : Prop :=
  ∃ document ∈ doc, ∃ card ∈ document.cards, card.id = id ∧ card.holdState.isSome = true

instance (doc : Option (Ir.DocumentV1 F)) (id : String) : Decidable (SetAside doc id) :=
  inferInstanceAs (Decidable (∃ _ ∈ doc, ∃ _ ∈ _, _ ∧ _))

/-- The cards that are set aside are named, and they are in no group. -/
structure HoldsRespected (payload : SuggestCardGroupsRequest F)
    (response : SuggestCardGroupsResponse) : Prop where
  excluded : response.excludedCardIds =
    payload.cardIds.filter fun id => decide (SetAside payload.doc id)
  groups : ∀ group ∈ response.groups, ∀ id ∈ group.cardIds,
    id ∈ payload.cardIds ∧ ¬ SetAside payload.doc id

theorem mem_heldCardIds {ir : Ir.LlmInputIr F} {id : String} :
    id ∈ heldCardIds ir ↔
      ∃ card ∈ ir.cards, (nonEmpty card.holdState).isSome = true ∧ card.id = id := by
  rw [heldCardIds, sortOn.mem, List.mem_map]
  simp only [List.mem_filter, and_assoc]

variable {doc : Option (Ir.DocumentV1 F)} {response : SuggestCardGroupsResponse}

theorem mem_requestSource {cards : List CardRef} {card : Ir.SourceCard F}
    (hcard : card ∈ (requestSource doc cards).cards) :
    (∃ document ∈ doc, ∃ other ∈ document.cards, other.toSource = card) ∨
      card.holdState = none := by
  cases doc with
  | none =>
      obtain ⟨other, -, rfl⟩ := List.mem_map.mp hcard
      exact Or.inr rfl
  | some document =>
      rcases List.mem_append.mp hcard with hdoc | hextra
      · obtain ⟨other, hother, heq⟩ := List.mem_map.mp hdoc
        exact Or.inl ⟨document, rfl, other, hother, heq⟩
      · obtain ⟨other, -, rfl⟩ := List.mem_map.mp hextra
        exact Or.inr rfl

theorem toSource_mem_requestSource {cards : List CardRef} {document : Ir.DocumentV1 F}
    (hdocument : document ∈ doc) {card : Ir.Card F} (hcard : card ∈ document.cards) :
    card.toSource ∈ (requestSource doc cards).cards := by
  cases hdocument
  exact List.mem_append_left _ (List.mem_map_of_mem hcard)

/-- A state of the schema is a text. -/
theorem nonEmpty_of_known {state : Option String} (hknown : ∀ value ∈ state, value ∈ holdStates) :
    nonEmpty (state.filter (holdStates.contains ·)) = state := by
  cases state with
  | none => rfl
  | some value =>
      have hmem : value ∈ holdStates := hknown value rfl
      have hne : value ≠ "" := by
        rintro rfl
        exact absurd hmem (by decide)
      rw [Option.filter_some_pos (List.contains_iff_mem.mpr hmem)]
      exact Option.filter_some_pos (decide_eq_true hne)

theorem mem_heldCardIds_of_build {payload : SuggestCardGroupsRequest F} {ir : Ir.LlmInputIr F}
    (hbuild : suggestCardGroupsIr server payload = .ok ir) {id : String}
    (hid : id ∈ payload.cardIds) : id ∈ heldCardIds ir ↔ SetAside payload.doc id := by
  obtain ⟨required, before, after, hstages⟩ := Ir.exists_stages (mapError_eq_ok.mp hbuild)
  have hcards := fun card => @Ir.mem_normalizeCards _ _ _ _ hstages.cards card
  rw [mem_heldCardIds, hstages.shown]
  constructor
  · rintro ⟨card, hcard, hheld, rfl⟩
    obtain ⟨kept, hkept, rfl⟩ := List.mem_map.mp hcard
    obtain ⟨normalized, hnormalized, hshows⟩ := hstages.reduces.cards kept hkept
    obtain ⟨source, hsource, rfl⟩ := (hcards normalized).mp hnormalized
    change (nonEmpty kept.holdState).isSome = true at hheld
    rw [hshows.holdState_eq] at hheld
    rcases mem_requestSource hsource with ⟨document, hdocument, card, hcard, rfl⟩ | hnone
    · refine ⟨document, hdocument, card, hcard, ?_, ?_⟩
      · exact hshows.id_eq.symm
      · have hknown := payload.known_holdStates document hdocument card hcard
        exact (congrArg Option.isSome (nonEmpty_of_known hknown)).symm.trans hheld
    · rw [Ir.normalizeCard, hnone] at hheld
      cases hheld
  · rintro ⟨document, hdocument, card, hcard, rfl, hheld⟩
    have hsource : card.toSource ∈ payload.source.cards :=
      toSource_mem_requestSource hdocument hcard
    have hrequired : card.id ∈ payload.requiredHoldIds := by
      refine List.mem_map.mpr ⟨card.toSource, List.mem_filter.mpr ⟨hsource, ?_⟩, rfl⟩
      exact Bool.and_eq_true_iff.mpr ⟨decide_eq_true hid, hheld⟩
    obtain ⟨kept, hkept, hshows⟩ := hstages.reduces.requiredCards _
      ((hcards _).mpr ⟨_, hsource, rfl⟩) (hstages.requiredIds _ hrequired).1
    refine ⟨kept.toIr, List.mem_map_of_mem hkept, ?_, hshows.id_eq⟩
    change (nonEmpty kept.holdState).isSome = true
    have hknown := payload.known_holdStates document hdocument card hcard
    rw [hshows.holdState_eq]
    exact (congrArg Option.isSome (nonEmpty_of_known hknown)).trans hheld

theorem mem_of_parseSuggestedGroup {candidateIds : List String} {value : Py.Value F}
    {group : SuggestedGroup}
    (hparse : parseSuggestedGroup server candidateIds value = .ok (some group)) :
    ∀ id ∈ group.cardIds, id ∈ candidateIds := by
  unfold parseSuggestedGroup at hparse
  obtain ⟨listed, -, hparse⟩ := bind_eq_ok.mp hparse
  obtain ⟨items, -, hparse⟩ := bind_eq_ok.mp hparse
  dsimp only at hparse
  split at hparse
  next => cases hparse
  next =>
    obtain ⟨label, -, hparse⟩ := bind_eq_ok.mp hparse
    obtain ⟨field, -, hparse⟩ := bind_eq_ok.mp hparse
    obtain ⟨text, -, hparse⟩ := bind_eq_ok.mp hparse
    obtain ⟨rationale, -, hparse⟩ := bind_eq_ok.mp hparse
    cases hparse
    intro id hid
    obtain ⟨item, -, hitem⟩ := List.mem_filterMap.mp hid
    exact List.contains_iff_mem.mp (Option.filter_eq_some_iff.mp hitem).2

theorem parseSuggestCardGroupsResponse_spec {rawText : Py.Str}
    {candidateIds excludedCardIds : List String} {truncated : Bool}
    (hparse : parseSuggestCardGroupsResponse server rawText candidateIds excludedCardIds truncated =
      .ok response) :
    response.excludedCardIds = excludedCardIds ∧
      ∀ group ∈ response.groups, ∀ id ∈ group.cardIds, id ∈ candidateIds := by
  unfold parseSuggestCardGroupsResponse at hparse
  obtain ⟨data, -, hparse⟩ := bind_eq_ok.mp hparse
  obtain ⟨field, -, hparse⟩ := bind_eq_ok.mp hparse
  obtain ⟨groups, -, hparse⟩ := bind_eq_ok.mp hparse
  obtain ⟨suggested, hsuggested, hparse⟩ := bind_eq_ok.mp hparse
  cases hparse
  refine ⟨rfl, ?_⟩
  intro group hgroup
  rw [List.reduceOption_mem_iff] at hgroup
  obtain ⟨value, -, hvalue⟩ := exists_of_forall₂_right (mapM_eq_ok.mp hsuggested) hgroup
  exact mem_of_parseSuggestedGroup hvalue

theorem cardGroupCandidates_spec {payload : SuggestCardGroupsRequest F} {ir : Ir.LlmInputIr F}
    (hbuild : suggestCardGroupsIr server payload = .ok ir) :
    (∀ id ∈ (cardGroupCandidates payload ir).1,
      id ∈ payload.cardIds ∧ ¬ SetAside payload.doc id) ∧
    (cardGroupCandidates payload ir).2 =
      payload.cardIds.filter fun id => decide (SetAside payload.doc id) := by
  constructor
  · intro id hid
    obtain ⟨hrequested, hid⟩ := List.mem_filter.mp hid
    have hnot : id ∉ heldCardIds ir := of_decide_eq_true (Bool.and_eq_true_iff.mp hid).2
    exact ⟨hrequested, fun hset => hnot ((mem_heldCardIds_of_build hbuild hrequested).mpr hset)⟩
  · apply List.filter_congr
    intro id hid
    rw [decide_eq_decide]
    exact mem_heldCardIds_of_build hbuild hid

/-- Whatever the model answers, the response respects what is set aside. -/
theorem holdsRespected_of_returns {payload : SuggestCardGroupsRequest F}
    (hreturns : (suggestCardGroups server payload).Returns response) :
    HoldsRespected payload response := by
  unfold suggestCardGroups at hreturns
  obtain ⟨-, -, hreturns⟩ := Asking.returns_bind.mp hreturns
  obtain ⟨ir, hir, hreturns⟩ := Asking.returns_bind.mp hreturns
  rw [Asking.returns_lift] at hir
  obtain ⟨hcandidates, hexcluded⟩ := cardGroupCandidates_spec hir
  obtain ⟨config, -, hreturns⟩ := Asking.returns_bind.mp hreturns
  split at hreturns
  next =>
    rw [Asking.returns_pure] at hreturns
    subst hreturns
    exact ⟨hexcluded, fun group hgroup => absurd hgroup List.not_mem_nil⟩
  next =>
    obtain ⟨answer, -, hreturns⟩ := Asking.returns_bind.mp hreturns
    obtain ⟨tenantId, -, hreturns⟩ := Asking.returns_bind.mp hreturns
    obtain ⟨hnamed, hgroups⟩ :=
      parseSuggestCardGroupsResponse_spec (Asking.returns_lift.mp hreturns)
    refine ⟨hnamed.trans hexcluded, ?_⟩
    intro group hgroup id hid
    exact hcandidates id (hgroups group hgroup id hid)

/-! ## Contradictions that are decided -/

namespace DetectContradictionRequest

def links (payload : DetectContradictionRequest F) : List SourceEvidenceLink :=
  (requestSource payload.doc payload.cards).evidenceLinks

/-- A decided contradiction from one card to another. -/
def IsDecided (link : SourceEvidenceLink) : Prop :=
  ∃ state ∈ link.contradictionState, state ∈ adjudicatedContradictionStates

instance (link : SourceEvidenceLink) : Decidable (IsDecided link) :=
  inferInstanceAs (Decidable (∃ _ ∈ _, _))

def RecordsDecision (payload : DetectContradictionRequest F) : Prop :=
  ∃ link ∈ payload.links, link.type = "contradicts" ∧
    IsBetween link.fromCardId link.toCardId payload.cardA.id payload.cardB.id ∧ IsDecided link

instance (payload : DetectContradictionRequest F) : Decidable payload.RecordsDecision :=
  inferInstanceAs (Decidable (∃ _ ∈ _, _ ∧ _ ∧ _))

def firstContradiction (payload : DetectContradictionRequest F) (fromCardId toCardId : String) :
    Option SourceEvidenceLink :=
  payload.links.find? fun link => decide (link.key = ("contradicts", fromCardId, toCardId))

def FirstIsDecided (payload : DetectContradictionRequest F) : Prop :=
  (∃ link ∈ payload.firstContradiction payload.cardA.id payload.cardB.id, IsDecided link) ∨
    ∃ link ∈ payload.firstContradiction payload.cardB.id payload.cardA.id, IsDecided link

instance (payload : DetectContradictionRequest F) : Decidable payload.FirstIsDecided :=
  inferInstanceAs (Decidable ((∃ _ ∈ _, _) ∨ ∃ _ ∈ _, _))

end DetectContradictionRequest

section Contradictions

variable {payload : DetectContradictionRequest F} {ir : Ir.LlmInputIr F}

theorem known_of_adjudicated {state : String} (hstate : state ∈ adjudicatedContradictionStates) :
    state ∈ Ir.contradictionStates := by
  have hall : adjudicatedContradictionStates ⊆ Ir.contradictionStates := by decide
  exact hall hstate

theorem mem_evidenceLinks_of_build (hbuild : detectContradictionIr server payload = .ok ir)
    {link : Ir.IrEvidenceLink} (htype : link.type = "contradicts")
    (hbetween : IsBetween link.fromCardId link.toCardId payload.cardA.id payload.cardB.id) :
    link ∈ ir.evidenceLinks ↔
      ∃ source ∈ payload.firstContradiction link.fromCardId link.toCardId,
        source.toIr = link := by
  unfold detectContradictionIr at hbuild
  obtain ⟨-, -, hbuild⟩ := bind_eq_ok.mp hbuild
  obtain ⟨required, before, after, hstages⟩ := Ir.exists_stages (mapError_eq_ok.mp hbuild)
  have hends : ∀ id ∈ [link.fromCardId, link.toCardId],
      id ∈ required ∧ id ∈ before.cards.map Ir.NormalizedCard.id := by
    intro id hid
    apply hstages.requiredIds
    rcases hbetween with ⟨hfrom, hto⟩ | ⟨hfrom, hto⟩
    · rwa [hfrom, hto] at hid
    · rw [hfrom, hto] at hid
      exact List.mem_cons.mpr ((List.mem_cons.mp hid).symm.imp List.mem_singleton.mp
        fun heq => List.mem_singleton.mpr heq)
  have hkey : link.key = ("contradicts", link.fromCardId, link.toCardId) := by
    rw [Ir.IrEvidenceLink.key, htype]
  rw [hstages.shownEvidence]
  have hevidence : before.evidenceLinks =
      Ir.normalizeEvidenceLinks payload.links (before.cards.map Ir.NormalizedCard.id) :=
    hstages.evidence
  have hlinks := @Ir.mem_normalizeEvidenceLinks (before.cards.map Ir.NormalizedCard.id) link
    payload.links
  rw [← hevidence, hkey] at hlinks
  constructor
  · intro hmem
    obtain ⟨source, hsource, -, -, -, heq⟩ := hlinks.mp (hstages.reduces.links link hmem)
    exact ⟨source, hsource, heq⟩
  · rintro ⟨source, hsource, heq⟩
    apply hstages.reduces.requiredLinks link _ hends
    refine hlinks.mpr ⟨source, hsource, ?_, (hends _ (by simp)).2, (hends _ (by simp)).2, heq⟩
    rw [htype]
    decide

theorem toIr_contradictionState {source : SourceEvidenceLink} (htype : source.type = "contradicts")
    {state : String} (hstate : state ∈ adjudicatedContradictionStates) :
    source.toIr.contradictionState = some state ↔ source.contradictionState = some state := by
  rw [SourceEvidenceLink.toIr, Option.filter_eq_some_iff]
  simp only [htype, decide_true, Bool.true_and, List.contains_iff_mem,
    known_of_adjudicated hstate, and_true]

theorem adjudicatedContradiction_isSome_iff
    (hbuild : detectContradictionIr server payload = .ok ir) :
    (adjudicatedContradiction ir payload.cardA.id payload.cardB.id).isSome = true ↔
      payload.FirstIsDecided := by
  have hfirst : ∀ {fromCardId toCardId : String} {source : SourceEvidenceLink},
      source ∈ payload.firstContradiction fromCardId toCardId →
        source.key = ("contradicts", fromCardId, toCardId) := by
    intro fromCardId toCardId source hsource
    have hfound := List.find?_some hsource
    exact of_decide_eq_true hfound
  rw [adjudicatedContradiction, List.findSome?_isSome_iff]
  constructor
  · rintro ⟨link, hlink, hsome⟩
    split at hsome
    next hbetween =>
      obtain ⟨state, hfiltered⟩ := Option.isSome_iff_exists.mp hsome
      obtain ⟨hrecorded, hcontains⟩ := Option.filter_eq_some_iff.mp hfiltered
      have hstate : state ∈ adjudicatedContradictionStates := List.contains_iff_mem.mp hcontains
      obtain ⟨source, hsource, rfl⟩ :=
        (mem_evidenceLinks_of_build hbuild hbetween.1 hbetween.2).mp hlink
      have hdecided : DetectContradictionRequest.IsDecided source :=
        ⟨state, (toIr_contradictionState hbetween.1 hstate).mp hrecorded, hstate⟩
      rcases hbetween.2 with ⟨hfrom, hto⟩ | ⟨hfrom, hto⟩
      · rw [hfrom, hto] at hsource
        exact Or.inl ⟨source, hsource, hdecided⟩
      · rw [hfrom, hto] at hsource
        exact Or.inr ⟨source, hsource, hdecided⟩
    next => cases hsome
  · intro hdecided
    obtain ⟨source, hbetween, hsource, state, hrecorded, hstate⟩ :
        ∃ source : SourceEvidenceLink,
          IsBetween source.fromCardId source.toCardId payload.cardA.id payload.cardB.id ∧
          source ∈ payload.firstContradiction source.fromCardId source.toCardId ∧
          DetectContradictionRequest.IsDecided source := by
      rcases hdecided with ⟨source, hsource, hdecided⟩ | ⟨source, hsource, hdecided⟩
      · have hkey := hfirst hsource
        rw [SourceEvidenceLink.key, Prod.mk.injEq, Prod.mk.injEq] at hkey
        obtain ⟨-, hfrom, hto⟩ := hkey
        exact ⟨source, Or.inl ⟨hfrom, hto⟩, by rw [hfrom, hto]; exact hsource, hdecided⟩
      · have hkey := hfirst hsource
        rw [SourceEvidenceLink.key, Prod.mk.injEq, Prod.mk.injEq] at hkey
        obtain ⟨-, hfrom, hto⟩ := hkey
        exact ⟨source, Or.inr ⟨hfrom, hto⟩, by rw [hfrom, hto]; exact hsource, hdecided⟩
    have htype : source.type = "contradicts" := congrArg Prod.fst (hfirst hsource)
    have hlink : source.toIr ∈ ir.evidenceLinks :=
      (mem_evidenceLinks_of_build hbuild htype hbetween).mpr ⟨source, hsource, rfl⟩
    refine ⟨source.toIr, hlink, ?_⟩
    rw [if_pos ⟨htype, hbetween⟩, (toIr_contradictionState htype hstate).mpr hrecorded,
      Option.filter_some_pos (List.contains_iff_mem.mpr hstate)]
    rfl

/-- A response of a model is never there without a question. -/
theorem generate_ne_done {request : LLMRequest} {response : LLMResponse} :
    generate server request ≠ .done (.ok response) := by
  intro hdone
  obtain ⟨provider, -, hask⟩ := Asking.bind_eq_done.mp hdone
  cases hask

/-- The response is there without a question exactly where the first link is decided. -/
theorem detectContradiction_answers_iff
    (hprepare : prepareDetectContradiction server payload = .ok ir) :
    (∃ response, detectContradiction server payload = .done (.ok response)) ↔
      payload.FirstIsDecided := by
  have hbuild : detectContradictionIr server payload = .ok ir := by
    unfold prepareDetectContradiction at hprepare
    obtain ⟨-, -, hprepare⟩ := bind_eq_ok.mp hprepare
    obtain ⟨-, -, hprepare⟩ := bind_eq_ok.mp hprepare
    exact hprepare
  have hiff := adjudicatedContradiction_isSome_iff hbuild
  unfold detectContradiction
  rw [Asking.lift_bind_of_ok hprepare, ← hiff]
  cases adjudicatedContradiction ir payload.cardA.id payload.cardB.id with
  | some state => exact ⟨fun _ => rfl, fun _ => ⟨recordedResponse state, rfl⟩⟩
  | none =>
      constructor
      · rintro ⟨response, hdone⟩
        obtain ⟨answer, hanswer, -⟩ := Asking.bind_eq_done.mp hdone
        obtain ⟨config, -, hanswer⟩ := Asking.bind_eq_done.mp hanswer
        obtain ⟨result, hgenerate, hresult⟩ := Asking.andThen_eq_done.mp hanswer
        cases result with
        | ok response => exact absurd hgenerate generate_ne_done
        | error error =>
            injection hresult with hraised
            exact absurd hraised holdThenRaise_ne_ok
      · intro hsome
        cases hsome

end Contradictions

/-! ## Both routes -/

/-- Groups respect what people have set aside. A contradiction that people have decided is
answered without the model if and only if the first contradiction that is recorded in one of the
two directions is decided. -/
theorem decisions_win_iff (groups : SuggestCardGroupsRequest F)
    (pair : DetectContradictionRequest F)
    (hbuilt : (prepareDetectContradiction server pair).isOk = true) :
    ((∀ response, (suggestCardGroups server groups).Returns response →
        HoldsRespected groups response) ∧
      (pair.RecordsDecision → ∃ response, detectContradiction server pair = .done (.ok response))) ↔
      (pair.RecordsDecision → pair.FirstIsDecided) := by
  obtain ⟨ir, hprepare⟩ := exists_of_isOk hbuilt
  rw [detectContradiction_answers_iff hprepare, and_iff_right]
  intro response hreturns
  exact holdsRespected_of_returns hreturns

namespace ParallelLinks

/-- Whole numbers, which is all that cards without relations lead to. -/
def runtime : Ir.Runtime Int where
  ofNat n := n
  add := (· + ·)
  sub := (· - ·)
  mul := (· * ·)
  div := (· / ·)
  lt a b := decide (a < b)
  isFinite _ := true
  round x _ := x
  sqrt x := x
  angleDeg _ _ := 0
  dist first second := (first.1 - second.1).natAbs + (first.2 - second.2).natAbs
  nfkc text := text

def settings : Settings where
  llmProvider := "local"
  llmTaskModelMap := ""
  llmHighReasoningModel := none
  localLlmModel := some "m"
  localLlmBaseUrl := none
  largeScaleLlmModel := none
  largeScaleLlmBaseUrl := none
  largeScaleLlmAllowlist := none
  llmLargeScaleOptIn := false
  llmEscalationEnabled := false
  llmFallbackToNone := false
  deepseekApiKey := none
  deepseekBaseUrl := "https://api.deepseek.com"
  deepseekModel := "deepseek-v4-flash"
  environDeepseekApiKey := none
  allowUnreviewedAiText := false

def registry : Registry where
  providers := [⟨"p", "local", some "http://localhost:8080", none, "active"⟩]
  models := [⟨"m", "p", "active"⟩]
  allowlist := []
  nodup_providers := List.nodup_singleton _
  nodup_models := List.nodup_singleton _

def localServer : Server Int where
  platform := ⟨.ascii, fun _ => true, "llm-1"⟩
  settings := settings
  runtime := runtime
  loads _ := .error "JSONDecodeError"
  str _ := ""
  twoDecimals _ := ""
  floatOfInt n := some n
  intField _ := none
  floatField _ := none
  newId := "1"
  registry := registry
  tenant := .ok "t1"
  authorizeWrite _ := .ok "t1"
  hasDocument _ _ := true
  validateProposal _ _ := .ok ()
  holdProposal _ _ := .ok ()
  registerProposal _ _ := .ok ()

def card (id : String) (holdState : Option String) : Ir.Card Int :=
  ⟨id, "text " ++ id, 0, 0, none, none, none, none, none, some true, holdState⟩

/-- Two links in one direction, with their states. -/
def document (first second : String) : Ir.DocumentV1 Int where
  version := 1
  id := "d"
  createdAt := "2026-01-01T00:00:00Z"
  updatedAt := "2026-01-01T00:00:00Z"
  cards := [card "a" none, card "b" (some "held")]
  edges := []
  islands := []
  evidenceLinks := some [⟨"e1", "contradicts", "a", "b", some first⟩,
    ⟨"e2", "contradicts", "a", "b", some second⟩]

def fullCard (id : String) : Card Int := ⟨card id none, none, none, none, none⟩

def ofCards (cards : List (Card Int)) : DocumentV1 Int where
  version := 1
  id := "d"
  createdAt := "2026-01-01T00:00:00Z"
  updatedAt := "2026-01-01T00:00:00Z"
  transform := ⟨0, 0, 1⟩
  cards
  edges := []
  islands := []
  readingOrder := none
  evidenceLinks := none
  rest := []

def pair (first second : String) : DetectContradictionRequest Int :=
  ⟨⟨"a", "text a", true⟩, ⟨"b", "text b", true⟩, some (document first second), none, none⟩

def groups : SuggestCardGroupsRequest Int where
  cards := [⟨"a", "text a", true⟩, ⟨"b", "text b", true⟩]
  doc := some (document "confirmed" "unconfirmed")
  allowUnreviewedText := none
  model := none
  known_holdStates := by decide

/-- The first link is confirmed, so that the model is not asked. -/
theorem confirmed_first_answers :
    ∃ response, detectContradiction localServer (pair "confirmed" "unconfirmed") =
      .done (.ok response) :=
  ((decisions_win_iff groups (pair "confirmed" "unconfirmed") (by decide +kernel)).mpr
    fun _ => by decide +kernel).2 (by decide +kernel)

/-- A second link is confirmed, but the first one is read, and the model is asked. -/
theorem confirmed_second_is_lost :
    (prepareDetectContradiction localServer (pair "unconfirmed" "confirmed")).isOk = true ∧
      (pair "unconfirmed" "confirmed").RecordsDecision ∧
      ∀ response, detectContradiction localServer (pair "unconfirmed" "confirmed") ≠
        .done (.ok response) := by
  refine ⟨by decide +kernel, by decide +kernel, ?_⟩
  have hasks : ((detectContradiction localServer
      (pair "unconfirmed" "confirmed")).firstQuestion.map fun question =>
        question.request.model) = some (some "m") := by decide +kernel
  intro response hdone
  rw [hdone] at hasks
  cases hasks

end ParallelLinks

end KjAtlas.Ai
