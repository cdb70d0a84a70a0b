import KjAtlas.Ir.Kept
import KjAtlas.Islands.DerivedEdges

/-! # What the projection keeps

Of a document whose relations are all of known types between cards and are not
repeated, the projection keeps the relations between cards of the document, and
each card belongs to the first island that lists it.
-/

/-! ## Relations between islands, from the projection

The counterpart of the derived edges for the input of the language model. It
sees the projected relations and islands only.
-/

namespace KjAtlas

section Derived

variable {F : Type}

/-- `island_by_card`: the first island that lists a card. -/
def islandByCard (ir : Ir.LlmInputIr F) (cardId : String) : Option String :=
  (ir.islands.find? fun island => island.cardIds.contains cardId).map IrIsland.id

def relationPromotion (ir : Ir.LlmInputIr F) (relation : IrRelation) : Option Promotion :=
  let lone (islandId loneCardId : String) : Option Promotion :=
    if loneCardId ∉ ir.cards.map Ir.IrCard.id then none
    else some ⟨.card, islandId, loneCardId, relation.type⟩
  match islandByCard ir relation.fromId, islandByCard ir relation.toId with
  | none, none => none
  | some fromIsland, some toIsland =>
      if fromIsland = toIsland then none
      else
        let (a, b) :=
          if relation.type = "causal" then (fromIsland, toIsland)
          else if codePointLe fromIsland toIsland then (fromIsland, toIsland)
          else (toIsland, fromIsland)
        some ⟨.island, a, b, relation.type⟩
  | some islandId, none => lone islandId relation.toId
  | none, some islandId => lone islandId relation.fromId

/-- A row of the result. -/
structure DerivedIslandRelation where
  id : String
  fromId : String
  toId : String
  fromKind : EdgeEndpointKind
  toKind : EdgeEndpointKind
  type : String
  contributingRelationIds : List String
  contributingCardIds : List String
  aggregateCount : Nat

/-- The row that the first contribution makes; the count follows at the end. -/
def firstEntry (contribution : Promotion × IrRelation) : DerivedIslandRelation where
  id := contribution.1.key
  fromId := contribution.1.fromId
  toId := contribution.1.toId
  fromKind := .island
  toKind := contribution.1.toKind
  type := contribution.2.type
  contributingRelationIds := [contribution.2.id]
  contributingCardIds := addTo (addTo [] contribution.2.fromId) contribution.2.toId
  aggregateCount := 0

def contribute (entry : DerivedIslandRelation) (contribution : Promotion × IrRelation) :
    DerivedIslandRelation :=
  { entry with
    contributingRelationIds := entry.contributingRelationIds ++ [contribution.2.id]
    contributingCardIds :=
      addTo (addTo entry.contributingCardIds contribution.2.fromId) contribution.2.toId }

def relationContributions (ir : Ir.LlmInputIr F) : List (Promotion × IrRelation) :=
  ir.relations.filterMap fun relation =>
    (relationPromotion ir relation).map fun promotion => (promotion, relation)

def derivedIslandRelations (ir : Ir.LlmInputIr F) : List DerivedIslandRelation :=
  let aggregate := collect (fun contribution => contribution.1.key) firstEntry contribute
    (relationContributions ir)
  (sortOn codePointLe DerivedIslandRelation.id aggregate.values).map fun row =>
    { row with aggregateCount := row.contributingRelationIds.length }

end Derived

end KjAtlas

/-! ## Documents as the server reads them -/

namespace KjAtlas

open Js

variable {F : Type} (number : JsNumber → F)

def flag (props : Props) (key : String) : Option Bool := (props.get key).bind JsValue.bool?

/-- The number of a property that is one. -/
def numberOf (props : Props) (key : String) : F :=
  match props.get key with
  | some (.number value) => number value
  | _ => number .zero

def Card.toIr (card : Card) : Ir.Card F where
  id := card.id
  text := (card.props.string? "text").getD ""
  x := numberOf number card.props "x"
  y := numberOf number card.props "y"
  claimType := card.props.string? "claimType"
  mergedIntoCardId := card.props.string? "mergedIntoCardId"
  repOf := card.props.strings? "repOf"
  canonicalId := card.props.string? "canonicalId"
  sources := card.props.strings? "sources"
  textReviewed := flag card.props "textReviewed"
  holdState := card.props.string? "holdState"

def Edge.toIr (edge : Edge) : Ir.Edge where
  fromId := edge.fromId
  toId := edge.toId
  fromKind := edge.fromKind
  toKind := edge.toKind
  type := edge.type

def Island.toIr (island : Island) : Ir.Island where
  id := island.id
  cardIds := island.cardIds
  parentIslandId := island.props.string? "parentIslandId"
  placardCardId := island.props.string? "placardCardId"
  title := island.props.string? "title"
  titleReviewed := flag island.props "titleReviewed"

def EvidenceLink.toIr (link : EvidenceLink) : Ir.EvidenceLink where
  id := link.id
  type := (link.props.string? "type").getD ""
  fromCardId := link.fromCardId
  toCardId := link.toCardId
  contradictionState := link.props.string? "contradictionState"

def DocumentV1.toIr (document : DocumentV1) : Ir.DocumentV1 F where
  version := 1
  id := document.id
  createdAt := (document.rest.string? "createdAt").getD ""
  updatedAt := document.updatedAt
  cards := document.cards.map (Card.toIr number)
  edges := document.edges.map Edge.toIr
  islands := document.islands.map Island.toIr
  evidenceLinks := document.evidenceLinks.map (List.map EvidenceLink.toIr)

variable {sourceRelations : List SourceRelation} {sourceIslands : List SourceIsland}

/-! ## Relations -/

def SourceRelation.key (relation : SourceRelation) : String × String × String :=
  (relation.fromId, relation.toId, relation.type)

/-- Relations between cards, of known types and without repetition. -/
structure PlainRelations (relations : List SourceRelation) : Prop where
  kinds : ∀ relation ∈ relations, relation.fromKind ≠ some .island ∧ relation.toKind ≠ some .island
  types : ∀ relation ∈ relations, relation.type ∈ relationTypes
  nodup : (relations.map SourceRelation.key).Nodup

def SourceRelation.within (relation : SourceRelation) (cardIds : List String) : Bool :=
  cardIds.contains relation.fromId && cardIds.contains relation.toId

variable {cardIds : List String} {cardId : String}

theorem relations_of_normalizeRelationsFrom :
    ∀ {seen : List (String × String × String)} {relations : List IrRelation},
      PlainRelations sourceRelations → (∀ relation ∈ sourceRelations, relation.key ∉ seen) →
        normalizeRelationsFrom cardIds seen sourceRelations = .ok relations →
          relations = (sourceRelations.filter fun relation => relation.within cardIds).map
            SourceRelation.toIr := by
  induction sourceRelations with
  | nil =>
      intro seen relations _ _ hrelations
      cases hrelations
      rfl
  | cons relation rest ih =>
      intro seen relations hplain hseen hrelations
      have hrest : PlainRelations rest :=
        ⟨fun other hother => hplain.kinds other (List.mem_cons_of_mem _ hother),
          fun other hother => hplain.types other (List.mem_cons_of_mem _ hother),
          (List.nodup_cons.mp hplain.nodup).2⟩
      have hseenRest : ∀ other ∈ rest, other.key ∉ seen :=
        fun other hother => hseen other (List.mem_cons_of_mem _ hother)
      obtain ⟨hfrom, hto⟩ := hplain.kinds relation List.mem_cons_self
      rw [normalizeRelationsFrom, if_neg (not_or.mpr ⟨hfrom, hto⟩),
        if_neg (not_not.mpr (hplain.types relation List.mem_cons_self))] at hrelations
      rw [List.filter_cons]
      split at hrelations
      next houtside =>
        rw [if_neg, ih hrest hseenRest hrelations]
        rw [SourceRelation.within, Bool.and_eq_true, List.contains_iff_mem, List.contains_iff_mem]
        exact fun hboth => houtside.elim (fun hnot => hnot hboth.1) fun hnot => hnot hboth.2
      next hinside =>
      split at hrelations
      next => cases hrelations
      next =>
      have hkey : (relation.fromId, relation.toId, relation.type) ∉ seen :=
        hseen relation List.mem_cons_self
      rw [if_neg hkey] at hrelations
      split at hrelations
      next => cases hrelations
      next relations' hkept =>
        cases hrelations
        rw [not_or, not_not, not_not] at hinside
        have hwithin : relation.within cardIds = true := by
          rw [SourceRelation.within, Bool.and_eq_true, List.contains_iff_mem, List.contains_iff_mem]
          exact hinside
        rw [if_pos hwithin, List.map_cons, ih hrest ?_ hkept]
        intro other hother hmem
        rcases List.mem_cons.mp hmem with heq | hmem
        · refine (List.nodup_cons.mp hplain.nodup).1 ?_
          exact List.mem_map.mpr ⟨other, hother, heq⟩
        · exact hseenRest other hother hmem

theorem relations_of_normalizeRelations {relations : List IrRelation}
    (hplain : PlainRelations sourceRelations)
    (hrelations : normalizeRelations sourceRelations cardIds = .ok relations) :
    relations = sortOn relationKeyLe IrRelation.sortKey
      ((sourceRelations.filter fun relation => relation.within cardIds).map
        SourceRelation.toIr) := by
  unfold normalizeRelations at hrelations
  split at hrelations
  next => cases hrelations
  next relations' hkept =>
    cases hrelations
    rw [relations_of_normalizeRelationsFrom hplain (fun _ _ => List.not_mem_nil) hkept]

theorem claimMembers_spec {cardIds : List String} {ids : List String} :
    ∀ {claimed : List String},
      (∀ id, id ∈ (claimMembers cardIds claimed ids).1 ↔ id ∈ ids ∧ id ∈ cardIds ∧ id ∉ claimed) ∧
        ∀ id, id ∈ (claimMembers cardIds claimed ids).2 ↔
          id ∈ claimed ∨ id ∈ (claimMembers cardIds claimed ids).1 := by
  induction ids with
  | nil => simp [claimMembers]
  | cons cardId rest ih =>
      intro claimed
      rw [claimMembers]
      split
      next hskip =>
        obtain ⟨hmembers, hclaimed⟩ := @ih claimed
        refine ⟨fun id => ?_, hclaimed⟩
        rw [hmembers, List.mem_cons]
        constructor
        · exact fun ⟨hid, hrest⟩ => ⟨Or.inr hid, hrest⟩
        · rintro ⟨rfl | hid, hcard, hnot⟩
          · exact absurd hskip (not_or.mpr ⟨not_not.mpr hcard, hnot⟩)
          · exact ⟨hid, hcard, hnot⟩
      next hkeep =>
        rw [not_or, not_not] at hkeep
        obtain ⟨hmembers, hclaimed⟩ := @ih (cardId :: claimed)
        dsimp only
        constructor
        · intro id
          rw [List.mem_cons, hmembers, List.mem_cons, List.mem_cons]
          by_cases heq : id = cardId
          · simp [heq, hkeep.1, hkeep.2]
          · simp [heq]
        · intro id
          rw [hclaimed, List.mem_cons, List.mem_cons]
          tauto

theorem filter_normalizeIslandsFrom {islandIds : List String} (hcard : cardId ∈ cardIds) :
    ∀ {seenIds claimed : List String} {islands : List IrIsland},
      normalizeIslandsFrom islandIds cardIds seenIds claimed sourceIslands = .ok islands →
        (islands.filter fun island => island.cardIds.contains cardId).map IrIsland.id =
          if cardId ∈ claimed then []
          else ((sourceIslands.filter fun island => island.cardIds.contains cardId).map
            SourceIsland.id).head?.toList := by
  induction sourceIslands with
  | nil =>
      intro seenIds claimed islands hislands
      cases hislands
      simp
  | cons island rest ih =>
      intro seenIds claimed islands hislands
      rw [normalizeIslandsFrom] at hislands
      split at hislands
      next => cases hislands
      next =>
      split at hislands
      next => cases hislands
      next =>
      obtain ⟨hmembers, hclaimed⟩ := @claimMembers_spec cardIds island.cardIds claimed
      dsimp only at hislands
      split at hislands
      next => cases hislands
      next islands' hrest =>
        cases hislands
        have hlists : (island.toIr islandIds
            (claimMembers cardIds claimed island.cardIds).1).cardIds.contains cardId = true ↔
              cardId ∈ island.cardIds ∧ cardId ∉ claimed := by
          rw [List.contains_iff_mem, SourceIsland.toIr, sortOn.mem, hmembers]
          simp [hcard]
        rw [List.filter_cons, List.filter_cons]
        have hih := ih hrest
        simp only [hclaimed, hmembers] at hih
        by_cases htaken : cardId ∈ claimed
        · rw [if_pos htaken, if_neg fun h => (hlists.mp h).2 htaken, hih,
            if_pos (Or.inl htaken)]
        · rw [if_neg htaken]
          by_cases hlisted : cardId ∈ island.cardIds
          · rw [if_pos (hlists.mpr ⟨hlisted, htaken⟩), if_pos (List.contains_iff_mem.mpr hlisted),
              List.map_cons, hih, if_pos (Or.inr ⟨hlisted, hcard, htaken⟩)]
            rfl
          · rw [if_neg fun h => hlisted (hlists.mp h).1,
              if_neg fun h => hlisted (List.contains_iff_mem.mp h), hih,
              if_neg fun h => h.elim htaken fun h => hlisted h.1]

/-- Finding an element with a property that at most one element has. -/
theorem find?_of_filter_perm {α : Type} {p : α → Bool} {left right : List α}
    (hperm : left.Perm right) (hfew : (right.filter p).length ≤ 1) :
    left.find? p = right.find? p := by
  have hfilter : left.filter p = right.filter p := by
    have hfiltered := hperm.filter p
    match hright : right.filter p with
    | [] => rw [hright] at hfiltered; exact hfiltered.eq_nil
    | [item] => rw [hright] at hfiltered; exact List.perm_singleton.mp hfiltered
    | _ :: _ :: _ => rw [hright] at hfew; simp at hfew
  rw [← List.head?_filter, ← List.head?_filter, hfilter]

theorem find?_of_normalizeIslands (hcard : cardId ∈ cardIds) {islands : List IrIsland}
    (hislands : normalizeIslands sourceIslands cardIds = .ok islands) :
    (islands.find? fun island => island.cardIds.contains cardId).map IrIsland.id =
      ((sourceIslands.filter fun island => island.cardIds.contains cardId).map
        SourceIsland.id).head? := by
  unfold normalizeIslands at hislands
  dsimp only at hislands
  split at hislands
  next => cases hislands
  next islands' hfrom =>
    cases hislands
    have hfilter := filter_normalizeIslandsFrom hcard hfrom
    rw [if_neg List.not_mem_nil] at hfilter
    have hfew : (islands'.filter fun island => island.cardIds.contains cardId).length ≤ 1 := by
      have hlength := congrArg List.length hfilter
      rw [List.length_map] at hlength
      rw [hlength]
      exact Option.length_toList_le
    rw [find?_of_filter_perm (sortOn.perm codePointLe IrIsland.id islands') hfew,
      ← List.head?_filter, ← List.head?_map, hfilter]
    exact Option.head?_toList

/-! ## The projection of a document -/

/-- A document whose relations are of known types between cards, without
repetition. -/
structure PlainEdges (document : DocumentV1) : Prop where
  kinds : ∀ edge ∈ document.edges, edge.fromKind.getD .card = .card ∧ edge.toKind.getD .card = .card
  types : ∀ edge ∈ document.edges, edge.type ∈ relationTypes
  nodup : (document.edges.map fun edge => (edge.fromId, edge.toId, edge.type)).Nodup

/-- A relation of a document, as the projection reads it. -/
def Edge.toSource (edge : Edge) : SourceRelation := edge.toIr.toSource

def DocumentV1.joinsCards (document : DocumentV1) (edge : Edge) : Bool :=
  (document.cards.map Card.id).contains edge.fromId &&
    (document.cards.map Card.id).contains edge.toId

/-- The relations that the projection keeps, in its order. -/
def projectedEdges (document : DocumentV1) : List Edge :=
  sortOn relationKeyLe (fun edge => (edge.type, edge.fromId, edge.toId))
    (document.edges.filter document.joinsCards)

theorem PlainEdges.relations {document : DocumentV1} (hplain : PlainEdges document) :
    PlainRelations (document.edges.map Edge.toSource) := by
  have hmem : ∀ relation ∈ document.edges.map Edge.toSource,
      ∃ edge ∈ document.edges, edge.toSource = relation := fun _ => List.mem_map.mp
  have hkind : ∀ {kind : Option EdgeEndpointKind}, kind.getD .card = .card → kind ≠ some .island := by
    rintro kind hcard rfl
    cases hcard
  constructor
  · intro relation hrelation
    obtain ⟨edge, hedge, rfl⟩ := hmem relation hrelation
    exact ⟨hkind (hplain.kinds edge hedge).1, hkind (hplain.kinds edge hedge).2⟩
  · intro relation hrelation
    obtain ⟨edge, hedge, rfl⟩ := hmem relation hrelation
    exact hplain.types edge hedge
  · rw [List.map_map]
    exact hplain.nodup

@[simp] theorem relations_toIr (number : JsNumber → F) (document : DocumentV1) :
    (Ir.sourceFromDocument (document.toIr number)).relations =
      document.edges.map Edge.toSource := List.map_map

@[simp] theorem islands_toIr (number : JsNumber → F) (document : DocumentV1) :
    (Ir.sourceFromDocument (document.toIr number)).islands =
      document.islands.map (Ir.Island.toSource ∘ Island.toIr) := List.map_map

section Projection

variable {number : JsNumber → F} {runtime : Ir.Runtime F} {options : Ir.Options}
  {document : DocumentV1} {ir : Ir.LlmInputIr F}
  (hbuild : Ir.buildLlmInputIr runtime options (Ir.sourceFromDocument (document.toIr number)) =
    .ok ir)
  (htruncated : ir.truncation.truncated = false)

include hbuild htruncated

theorem mem_ids_of_build {id : String} :
    id ∈ ir.cards.map Ir.IrCard.id ↔ id ∈ document.cards.map Card.id := by
  rw [(Ir.exists_of_build_ok hbuild htruncated).1, Ir.sourceFromDocument, DocumentV1.toIr,
    List.map_map, List.map_map]
  rfl

theorem relations_of_build (hplain : PlainEdges document) :
    ir.relations = (projectedEdges document).map fun edge => edge.toSource.toIr := by
  have hrelations := (Ir.exists_of_build_ok hbuild htruncated).2.1
  rw [relations_toIr] at hrelations
  rw [relations_of_normalizeRelations hplain.relations hrelations,
    projectedEdges, sortOn.map relationKeyLe (fun edge : Edge =>
      (edge.type, edge.fromId, edge.toId)) IrRelation.sortKey (fun edge => edge.toSource.toIr)
      fun _ => rfl, List.filter_map, List.map_map]
  congr 2
  refine List.filter_congr fun edge _ => ?_
  rw [Function.comp_apply, SourceRelation.within, DocumentV1.joinsCards, Bool.eq_iff_iff]
  simp only [Bool.and_eq_true, List.contains_iff_mem, mem_ids_of_build hbuild htruncated]
  exact Iff.rfl

theorem islandByCard_of_build (hcard : cardId ∈ document.cards.map Card.id) :
    islandByCard ir cardId = (getIslandsForCard document cardId).head? := by
  rw [islandByCard, find?_of_normalizeIslands ((mem_ids_of_build hbuild htruncated).mpr hcard)
    (Ir.exists_of_build_ok hbuild htruncated).2.2, getIslandsForCard, islands_toIr,
    List.filter_map, List.map_map]
  rfl

end Projection

end KjAtlas
