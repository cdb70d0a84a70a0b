import KjAtlas.Ai.HumanDecisions
import KjAtlas.Ai.IslandSummary
import KjAtlas.Ai.Merges
import KjAtlas.Ir.RelationIds

/-! # What a task requires is projected

Merges, summaries of islands and opposing viewpoints need some cards in full, and
what is recorded about them. A projection that is built for them has all of it:
a text is not shortened, and a card, a relation or an evidence link is not dropped.
-/

namespace KjAtlas.Ir

variable {F : Type}

/-! ## Cards by their ids -/

variable {nfkc : String → String} {sourceCards : List (SourceCard F)}

theorem eq_of_normalizeCards {cards : List (NormalizedCard F)}
    (hcards : normalizeCards nfkc sourceCards = .ok cards) {first second : SourceCard F}
    (hfirst : first ∈ sourceCards) (hsecond : second ∈ sourceCards) (hid : first.id = second.id) :
    first = second := by
  unfold normalizeCards at hcards
  split at hcards
  next => cases hcards
  next =>
    obtain ⟨unsorted, hunsorted, -⟩ := bind_eq_ok.mp hcards
    have hnodup := (nodup_normalizeCardsFrom hunsorted).1
    rw [normalizeCardsFrom_eq hunsorted, List.map_map] at hnodup
    exact List.inj_on_of_nodup_map hnodup hfirst hsecond hid

/-- A card is shown with its text, without control characters. -/
def IrCard.InFull (shown : IrCard) (card : SourceCard F) : Prop :=
  shown.id = card.id ∧ shown.text = withoutControls card.text

namespace Stages

variable {runtime : Runtime F} {options : Options} {source : IRSource F} {ir : LlmInputIr F}
  {required : List String} {before after : Blocks F}

section

variable (hstages : Stages runtime options source ir required before after)
include hstages

theorem exists_card
    (hshort : ir.truncation.overText = false) {shown : IrCard} (hshown : shown ∈ ir.cards) :
    ∃ card ∈ source.cards, shown.InFull card := by
  rw [hstages.shown] at hshown
  obtain ⟨kept, hkept, rfl⟩ := List.mem_map.mp hshown
  obtain ⟨card, hcard, rfl⟩ :=
    (mem_normalizeCards hstages.cards).mp (hstages.unshortened hshort kept hkept)
  exact ⟨card, hcard, rfl, rfl⟩

theorem exists_relation {shown : IrRelation} (hshown : shown ∈ ir.relations) :
    ∃ relation ∈ source.relations, relation.toIr = shown := by
  rw [hstages.shownRelations] at hshown
  obtain ⟨relation, hrelation, -, heq⟩ := ((normalizeRelations_spec hstages.relations).1 shown).mp
    (hstages.reduces.relations shown hshown)
  exact ⟨relation, hrelation, heq⟩

theorem exists_link {shown : IrEvidenceLink} (hshown : shown ∈ ir.evidenceLinks) :
    ∃ link ∈ source.evidenceLinks, link.toIr = shown := by
  rw [hstages.shownEvidence] at hshown
  have hlink := hstages.reduces.links shown hshown
  rw [hstages.evidence] at hlink
  obtain ⟨link, hfirst, -, -, -, heq⟩ := mem_normalizeEvidenceLinks.mp hlink
  exact ⟨link, List.mem_of_find?_eq_some hfirst, heq⟩

end

end Stages

end KjAtlas.Ir

namespace KjAtlas.Ai

open Ir (SourceEvidenceLink)

variable {F : Type}

/-! ## Meaning -/

/-- What a task needs of a document: cards by their ids, relations between cards, and evidence. -/
structure Meaning where
  card : String → Prop
  relation : SourceRelation → Prop
  evidence : SourceEvidenceLink → Prop

/-- A card that may be merged: it is not held, merged or canonicalized. -/
def IsMergeCandidate (doc : DocumentV1 F) (id : String) : Prop :=
  ∃ card ∈ doc.cards, card.id = id ∧ card.holdState = none ∧
    nonEmpty card.mergedIntoCardId = none ∧ nonEmpty card.canonicalId = none

/-- The candidates, and what is between two of them. -/
def meaningOfMerges (doc : DocumentV1 F) : Meaning where
  card := IsMergeCandidate doc
  relation relation :=
    IsMergeCandidate doc relation.fromId ∧ IsMergeCandidate doc relation.toId
  evidence link :=
    IsMergeCandidate doc link.fromCardId ∧ IsMergeCandidate doc link.toCardId

/-- One of some cards is an end, and another card the other one. -/
def Joins (ids : List String) (fromId toId id : String) : Prop :=
  (fromId ∈ ids ∧ toId = id) ∨ (toId ∈ ids ∧ fromId = id)

/-- Some cards, what is recorded about them, and the cards that are joined with them by it. -/
def meaningAround (doc : DocumentV1 F) (ids : List String) : Meaning where
  card id := id ∈ ids ∨
    (∃ relation ∈ doc.source.relations, IsCardRelation relation ∧
      Joins ids relation.fromId relation.toId id) ∨
    ∃ link ∈ doc.source.evidenceLinks, Joins ids link.fromCardId link.toCardId id
  relation relation := relation.fromId ∈ ids ∨ relation.toId ∈ ids
  evidence link := link.fromCardId ∈ ids ∨ link.toCardId ∈ ids

/-- All that is meant is projected: the cards are there in full, and the relations and the evidence
with their ends and types. -/
structure Carries (doc : DocumentV1 F) (meaning : Meaning) (ir : Ir.LlmInputIr F) : Prop where
  exist : ∀ id, meaning.card id → id ∈ doc.cardIds
  cards : ∀ card ∈ doc.source.cards, meaning.card card.id → ∃ shown ∈ ir.cards, shown.InFull card
  relations : ∀ relation ∈ doc.source.relations, IsCardRelation relation →
    meaning.relation relation → relation.key ∈ ir.relations.map IrRelation.key
  evidence : ∀ link ∈ doc.source.evidenceLinks, meaning.evidence link →
    link.key ∈ ir.evidenceLinks.map Ir.IrEvidenceLink.key

/-- Nothing else is projected. -/
structure CarriesOnly (doc : DocumentV1 F) (meaning : Meaning) (ir : Ir.LlmInputIr F) : Prop where
  cards : ∀ shown ∈ ir.cards, ∃ card ∈ doc.source.cards, meaning.card card.id ∧ shown.InFull card
  relations : ∀ shown ∈ ir.relations, ∃ relation ∈ doc.source.relations,
    IsCardRelation relation ∧ meaning.relation relation ∧ relation.toIr = shown
  evidence : ∀ shown ∈ ir.evidenceLinks, ∃ link ∈ doc.source.evidenceLinks,
    meaning.evidence link ∧ link.toIr = shown

/-! ## What the builders ask for -/

structure RequiredContext.States (context : RequiredContext) (doc : DocumentV1 F)
    (meaning : Meaning) : Prop where
  cards : ∀ id, id ∈ context.cardIds ↔ meaning.card id
  relations : ∀ relation, relation ∈ context.relations ↔
    relation ∈ doc.source.relations ∧ IsCardRelation relation ∧ meaning.relation relation
  evidence : ∀ link, link ∈ context.evidence ↔
    link ∈ doc.source.evidenceLinks ∧ meaning.evidence link

theorem mem_eligibleMergeCardIds {doc : DocumentV1 F} {id : String} :
    id ∈ eligibleMergeCardIds doc ↔ IsMergeCandidate doc id := by
  rw [eligibleMergeCardIds, mem_distinct, List.mem_map]
  unfold IsMergeCandidate
  simp only [List.mem_filter, Bool.and_eq_true, Option.isNone_iff_eq_none, and_assoc]
  apply exists_congr
  intro card
  tauto

theorem contextWithin_states (doc : DocumentV1 F) :
    (contextWithin doc.source (eligibleMergeCardIds doc)).States doc (meaningOfMerges doc) where
  cards _ := mem_eligibleMergeCardIds
  relations relation := by
    simp only [contextWithin, meaningOfMerges, List.mem_filter, Bool.and_eq_true,
      decide_eq_true_eq, List.contains_iff_mem, mem_eligibleMergeCardIds]
  evidence link := by
    simp only [contextWithin, meaningOfMerges, List.mem_filter, Bool.and_eq_true,
      List.contains_iff_mem, mem_eligibleMergeCardIds]

theorem mem_ends_iff {α : Type} {items : List α} {ids : List String} {fromId toId : α → String}
    {id : String} (hends : ∀ item ∈ items, fromId item ∈ ids ∨ toId item ∈ ids) :
    (id ∈ ids ∨ id ∈ items.flatMap fun item => [fromId item, toId item]) ↔
      id ∈ ids ∨ ∃ item ∈ items, Joins ids (fromId item) (toId item) id := by
  constructor
  · rintro (hid | hend)
    · exact Or.inl hid
    · obtain ⟨item, hitem, hend⟩ := List.mem_flatMap.mp hend
      simp only [List.mem_cons, List.not_mem_nil, or_false] at hend
      by_cases hid : id ∈ ids
      · exact Or.inl hid
      · refine Or.inr ⟨item, hitem, ?_⟩
        rcases hend with rfl | rfl
        · exact Or.inr ⟨(hends item hitem).resolve_left hid, rfl⟩
        · exact Or.inl ⟨(hends item hitem).resolve_right hid, rfl⟩
  · rintro (hid | ⟨item, hitem, hjoins⟩)
    · exact Or.inl hid
    · refine Or.inr (List.mem_flatMap.mpr ⟨item, hitem, ?_⟩)
      rcases hjoins with ⟨-, rfl⟩ | ⟨-, rfl⟩ <;> simp

theorem contextAround_states (doc : DocumentV1 F) (ids : List String) :
    (contextAround doc.source ids).States doc (meaningAround doc ids) where
  cards id := by
    have hrelations := @mem_ends_iff _ (contextAround doc.source ids).relations ids
      SourceRelation.fromId SourceRelation.toId id (by simp [contextAround])
    have hevidence := @mem_ends_iff _ (contextAround doc.source ids).evidence ids
      SourceEvidenceLink.fromCardId SourceEvidenceLink.toCardId id (by simp [contextAround])
    have hjoins : ∀ {fromId toId : String}, Joins ids fromId toId id →
        fromId ∈ ids ∨ toId ∈ ids := fun hjoins => hjoins.imp And.left And.left
    have hcontext : id ∈ (contextAround doc.source ids).cardIds ↔
        (id ∈ ids ∨ id ∈ (contextAround doc.source ids).relations.flatMap
          fun relation => [relation.fromId, relation.toId]) ∨
        id ∈ ids ∨ id ∈ (contextAround doc.source ids).evidence.flatMap
          fun link => [link.fromCardId, link.toCardId] := by
      simp only [contextAround, mem_distinct, List.mem_append]
      tauto
    rw [hcontext, hrelations, hevidence]
    simp only [contextAround, meaningAround, List.mem_filter, Bool.and_eq_true, Bool.or_eq_true,
      decide_eq_true_eq, List.contains_iff_mem, and_assoc]
    constructor
    · rintro ((hid | ⟨relation, hrelation, hcard, -, hat⟩) | hid | ⟨link, hlink, -, hat⟩)
      · exact Or.inl hid
      · exact Or.inr (Or.inl ⟨relation, hrelation, hcard, hat⟩)
      · exact Or.inl hid
      · exact Or.inr (Or.inr ⟨link, hlink, hat⟩)
    · rintro (hid | ⟨relation, hrelation, hcard, hat⟩ | ⟨link, hlink, hat⟩)
      · exact Or.inl (Or.inl hid)
      · exact Or.inl (Or.inr ⟨relation, hrelation, hcard, hjoins hat, hat⟩)
      · exact Or.inr (Or.inr ⟨link, hlink, hjoins hat, hat⟩)
  relations relation := by
    simp only [contextAround, meaningAround, List.mem_filter, Bool.and_eq_true, Bool.or_eq_true,
      decide_eq_true_eq, List.contains_iff_mem]
  evidence link := by
    simp only [contextAround, meaningAround, List.mem_filter, Bool.or_eq_true,
      List.contains_iff_mem]

section Build

variable {server : Server F} {allowUnreviewedText : Option Bool} {messages : ContextMessages}
  {context : RequiredContext} {exactly : Bool} {source : Ir.IRSource F} {ir : Ir.LlmInputIr F}
  {doc : DocumentV1 F} {meaning : Meaning}

theorem carries_of_build (hstates : context.States doc meaning)
    (hsource : ∀ card ∈ source.cards, card ∈ doc.source.cards)
    (hkept : ∀ card ∈ doc.source.cards, card.id ∈ context.cardIds → card ∈ source.cards)
    (hbuild : buildWithContext server allowUnreviewedText messages context exactly source = .ok ir) :
    Carries doc meaning ir := by
  obtain ⟨hbuilt, hshort, hcards, hrelations, hevidence⟩ := buildWithContext_spec hbuild
  obtain ⟨required, before, after, hstages⟩ := Ir.exists_stages hbuilt
  have hshown : ∀ {id}, meaning.card id →
      ∃ shown ∈ ir.cards, ∃ card ∈ source.cards, card.id = id ∧ shown.InFull card := by
    intro id hmeant
    obtain ⟨shown, hshown, rfl⟩ := List.mem_map.mp (hcards.1 id ((hstates.cards id).mpr hmeant))
    obtain ⟨card, hcard, hfull⟩ := hstages.exists_card hshort hshown
    exact ⟨shown, hshown, card, hcard, hfull.1.symm, hfull⟩
  constructor
  · intro id hmeant
    obtain ⟨shown, -, card, hcard, rfl, -⟩ := hshown hmeant
    have hdoc := hsource card hcard
    simp only [DocumentV1.source, Ir.sourceFromDocument, DocumentV1.toIr, List.map_map] at hdoc
    obtain ⟨original, horiginal, rfl⟩ := List.mem_map.mp hdoc
    exact List.mem_map_of_mem horiginal
  · intro card hcard hmeant
    obtain ⟨shown, hmem, other, hother, hid, hfull⟩ := hshown hmeant
    have hself := hkept card hcard ((hstates.cards card.id).mpr hmeant)
    rw [Ir.eq_of_normalizeCards hstages.cards hother hself hid] at hfull
    exact ⟨shown, hmem, hfull⟩
  · intro relation hrelation hcard hmeant
    exact hrelations relation ((hstates.relations relation).mpr ⟨hrelation, hcard, hmeant⟩)
  · intro link hlink hmeant
    exact hevidence link ((hstates.evidence link).mpr ⟨hlink, hmeant⟩)

theorem carriesOnly_of_build (hstates : context.States doc meaning)
    (hsource : ∀ card ∈ source.cards, card ∈ doc.source.cards)
    (hrelations : source.relations = context.relations)
    (hevidence : source.evidenceLinks = context.evidence)
    (hbuild : buildWithContext server allowUnreviewedText messages context true source = .ok ir) :
    CarriesOnly doc meaning ir := by
  obtain ⟨hbuilt, hshort, hcards, -⟩ := buildWithContext_spec hbuild
  obtain ⟨required, before, after, hstages⟩ := Ir.exists_stages hbuilt
  constructor
  · intro shown hshown
    obtain ⟨card, hcard, hfull⟩ := hstages.exists_card hshort hshown
    refine ⟨card, hsource card hcard, (hstates.cards card.id).mp ?_, hfull⟩
    exact hfull.1 ▸ hcards.2 rfl shown hshown
  · intro shown hshown
    obtain ⟨relation, hrelation, heq⟩ := hstages.exists_relation hshown
    rw [hrelations] at hrelation
    obtain ⟨hmem, hcard, hmeant⟩ := (hstates.relations relation).mp hrelation
    exact ⟨relation, hmem, hcard, hmeant, heq⟩
  · intro shown hshown
    obtain ⟨link, hlink, heq⟩ := hstages.exists_link hshown
    rw [hevidence] at hlink
    obtain ⟨hmem, hmeant⟩ := (hstates.evidence link).mp hlink
    exact ⟨link, hmem, hmeant, heq⟩

end Build

/-! ## The three builders -/

variable {server : Server F}

theorem merges_carry {payload : SuggestMergesRequest F} {ir : Ir.LlmInputIr F}
    (hbuild : buildMergeSuggestionIrContext server payload = .ok ir) :
    Carries payload.doc (meaningOfMerges payload.doc) ir ∧
      CarriesOnly payload.doc (meaningOfMerges payload.doc) ir := by
  unfold buildMergeSuggestionIrContext at hbuild
  obtain ⟨-, -, hbuild⟩ := bind_eq_ok.mp hbuild
  have hstates := contextWithin_states payload.doc
  have hsource : ∀ card ∈ (mergeSource payload.doc).cards, card ∈ payload.doc.source.cards :=
    fun _ hcard => List.mem_of_mem_filter hcard
  refine ⟨carries_of_build hstates hsource ?_ hbuild,
    carriesOnly_of_build hstates hsource rfl rfl hbuild⟩
  intro card hcard hid
  exact List.mem_filter.mpr ⟨hcard, List.contains_iff_mem.mpr hid⟩

theorem islandSummary_carries {payload : SuggestIslandSummaryRequest F} {memberIds : List String}
    {ir : Ir.LlmInputIr F}
    (hbuild : buildIslandSummaryIrContext server payload memberIds = .ok ir) :
    Carries payload.doc (meaningAround payload.doc memberIds) ir ∧
      CarriesOnly payload.doc (meaningAround payload.doc memberIds) ir := by
  have hstates := contextAround_states payload.doc memberIds
  have hsource : ∀ card ∈ (islandSummarySource payload
      (contextAround payload.doc.source memberIds)).cards, card ∈ payload.doc.source.cards :=
    fun _ hcard => List.mem_of_mem_filter hcard
  refine ⟨carries_of_build hstates hsource ?_ hbuild,
    carriesOnly_of_build hstates hsource rfl rfl hbuild⟩
  intro card hcard hid
  exact List.mem_filter.mpr ⟨hcard, List.contains_iff_mem.mpr hid⟩

theorem opposingViewpoint_carries {payload : ProposeOpposingViewpointRequest F}
    {ir : Ir.LlmInputIr F} (hbuild : buildOpposingViewpointIrContext server payload = .ok ir) :
    Carries payload.doc (meaningAround payload.doc [payload.targetCardId]) ir := by
  unfold buildOpposingViewpointIrContext at hbuild
  obtain ⟨-, -, hbuild⟩ := bind_eq_ok.mp hbuild
  apply carries_of_build (contextAround_states payload.doc [payload.targetCardId]) _ _ hbuild
  · exact fun _ hcard => hcard
  · exact fun _ hcard _ => hcard

/-- Where a projection is built, what the task requires is in it. For merges and summaries of
islands nothing else is. -/
theorem required_meaning_is_carried (server : Server F) :
    (∀ payload ir, buildMergeSuggestionIrContext server payload = .ok ir →
      Carries payload.doc (meaningOfMerges payload.doc) ir ∧
        CarriesOnly payload.doc (meaningOfMerges payload.doc) ir) ∧
    (∀ payload ir, ∀ island ∈ payload.island,
      buildIslandSummaryIrContext server payload island.cardIds = .ok ir →
        Carries payload.doc (meaningAround payload.doc island.cardIds) ir ∧
          CarriesOnly payload.doc (meaningAround payload.doc island.cardIds) ir) ∧
    ∀ payload ir, buildOpposingViewpointIrContext server payload = .ok ir →
      Carries payload.doc (meaningAround payload.doc [payload.targetCardId]) ir := by
  refine ⟨?_, ?_, ?_⟩
  · intro payload ir hbuild
    exact merges_carry hbuild
  · intro payload ir island _ hbuild
    exact islandSummary_carries hbuild
  · intro payload ir hbuild
    exact opposingViewpoint_carries hbuild

namespace CausalCards

open ParallelLinks (localServer fullCard ofCards)

/-- Three cards, of which one is in the island, with a relation to the second one. -/
def document : DocumentV1 Int :=
  { ofCards [fullCard "a", fullCard "b", fullCard "c"] with
    edges := [⟨⟨"a", "b", none, none, "causal"⟩, "e"⟩]
    islands := [⟨⟨"i", ["a"], none, none, none, none⟩, none, none, none⟩] }

def island : SuggestIslandSummaryRequest Int := ⟨document, "i", none, none, none⟩

/-- The summary of the island is built: the second card is there, and the third one is not. -/
theorem required_meaning_is_carried_island :
    ∃ ir, buildIslandSummaryIrContext localServer island ["a"] = .ok ir ∧
      Carries document (meaningAround document ["a"]) ir ∧
        CarriesOnly document (meaningAround document ["a"]) ir := by
  have hbuilt : (buildIslandSummaryIrContext localServer island ["a"]).isOk = true := by
    decide +kernel
  obtain ⟨ir, hbuild⟩ := exists_of_isOk hbuilt
  exact ⟨ir, hbuild, (required_meaning_is_carried localServer).2.1 island ir
    ⟨⟨"i", ["a"], none, none, none, none⟩, none, none, none⟩ rfl hbuild⟩

end CausalCards

end KjAtlas.Ai
