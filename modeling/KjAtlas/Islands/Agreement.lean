import KjAtlas.Ir.Projected

/-! # The two aggregations

The derived edges of a document and the derived relations of its projection are
the same rows unless an edge has an end that an island lists but that is no
card, island ids are ordered differently by code units and by code points, or
different endpoints share an id.
-/

namespace KjAtlas

open Js

/-- Two rows say the same. One side names a relation of the document by the id
of its edge, the other by its type and ends. -/
structure SameRow (document : DocumentV1) (left : DerivedIslandEdge)
    (right : DerivedIslandRelation) : Prop where
  id : left.id = right.id
  fromId : left.fromId = right.fromId
  toId : left.toId = right.toId
  fromKind : left.fromKind = right.fromKind
  toKind : left.toKind = right.toKind
  type : left.type = right.type
  count : left.aggregateCount = right.aggregateCount
  relations : ∃ edges : List Edge, edges.Sublist document.edges ∧
    left.contributingEdgeIds = edges.map Edge.id ∧
      right.contributingRelationIds.Perm (edges.map fun edge =>
        relationId edge.type edge.fromId edge.toId)
  cards : ∀ id, id ∈ left.contributingCardIds ↔ id ∈ right.contributingCardIds

/-- Each row has an equal row on the other side. -/
structure RowsAgree (document : DocumentV1) (edges : List DerivedIslandEdge)
    (relations : List DerivedIslandRelation) : Prop where
  edge : ∀ left ∈ edges, ∃ right ∈ relations, SameRow document left right
  relation : ∀ right ∈ relations, ∃ left ∈ edges, SameRow document left right

/-- The boundary conditions of the comparison. -/
structure WithinBoundary (document : DocumentV1) : Prop where
  edges : PlainEdges document
  one_island : ∀ card ∈ document.cards, (getIslandsForCard document card.id).length ≤ 1

/-- The derived relation of an edge between cards, under a comparison of ids. -/
def promotionBy (le : String → String → Bool) (document : DocumentV1) (edge : Edge) :
    Option Promotion :=
  match (getIslandsForCard document edge.fromId).head?,
      (getIslandsForCard document edge.toId).head? with
  | none, none => none
  | some fromIsland, some toIsland =>
      if fromIsland = toIsland then none
      else if edge.type = "causal" ∨ le fromIsland toIsland = true then
        some ⟨.island, fromIsland, toIsland, edge.type⟩
      else some ⟨.island, toIsland, fromIsland, edge.type⟩
  | some islandId, none => some ⟨.card, islandId, edge.toId, edge.type⟩
  | none, some islandId => some ⟨.card, islandId, edge.fromId, edge.type⟩

/-- No two islands, and no island and card outside of islands, are related by an edge. -/
structure NothingDerived (document : DocumentV1) (edge : Edge) : Prop where
  islands : ∀ fromIsland ∈ getIslandsForCard document edge.fromId,
    ∀ toIsland ∈ getIslandsForCard document edge.toId, fromIsland = toIsland
  from_alone : edge.fromId ∈ document.cards.map Card.id →
    getIslandsForCard document edge.fromId = [] → getIslandsForCard document edge.toId = []
  to_alone : edge.toId ∈ document.cards.map Card.id →
    getIslandsForCard document edge.toId = [] → getIslandsForCard document edge.fromId = []

/-- When the aggregations agree. -/
structure SameAggregation (document : DocumentV1) : Prop where
  /-- Where an end is no card, the ends are in one island, or no island lists
  either, or the other end is no card in an island. -/
  no_ghost : ∀ edge ∈ document.edges, document.joinsCards edge = false →
    NothingDerived document edge
  /-- Code units and code points order the islands of an undirected relation alike. -/
  same_order : ∀ edge ∈ document.edges, document.joinsCards edge = true → edge.type ≠ "causal" →
    ∀ fromIsland ∈ getIslandsForCard document edge.fromId,
      ∀ toIsland ∈ getIslandsForCard document edge.toId,
        codeUnitLe fromIsland toIsland = codePointLe fromIsland toIsland
  /-- Of the relations that derive a row of one id, the first in the document and
  the first in the order of the projection have the same ends. -/
  same_first : ∀ key : String,
    ((document.edges.filter document.joinsCards).filterMap
        (promotionBy codePointLe document)).find? (fun promotion => decide (promotion.key = key)) =
      ((projectedEdges document).filterMap (promotionBy codePointLe document)).find?
        fun promotion => decide (promotion.key = key)

/-! ## What an edge contributes on both sides -/

variable {F : Type} {edge : Edge}

theorem joinsCards_iff {document : DocumentV1} :
    document.joinsCards edge = true ↔
      (∃ card ∈ document.cards, card.id = edge.fromId) ∧
        ∃ card ∈ document.cards, card.id = edge.toId := by
  rw [DocumentV1.joinsCards, Bool.and_eq_true, List.contains_iff_mem, List.contains_iff_mem,
    List.mem_map, List.mem_map]

theorem eq_nil_or_singleton {α : Type} {items : List α} (hfew : items.length ≤ 1) :
    items = [] ∨ ∃ item, items = [item] := by
  match items with
  | [] => exact Or.inl rfl
  | [item] => exact Or.inr ⟨item, rfl⟩
  | _ :: _ :: _ => simp at hfew

theorem resolveKnownEdgeType_of_mem {type : String} (htype : type ∈ relationTypes) :
    resolveKnownEdgeType type = type :=
  if_pos (List.contains_iff_mem.mpr htype)

section Document

variable {document : DocumentV1} (hwithin : WithinBoundary document)

include hwithin

theorem edgePromotions_eq (hedge : edge ∈ document.edges)
    (hjoins : document.joinsCards edge = true) :
    edgePromotions document edge = (promotionBy codeUnitLe document edge).toList := by
  obtain ⟨hfromKind, htoKind⟩ := hwithin.edges.kinds edge hedge
  obtain ⟨⟨fromCard, hfromCard, hfromId⟩, toCard, htoCard, htoId⟩ := joinsCards_iff.mp hjoins
  have hfromIslands := eq_nil_or_singleton (hwithin.one_island fromCard hfromCard)
  have htoIslands := eq_nil_or_singleton (hwithin.one_island toCard htoCard)
  rw [hfromId] at hfromIslands
  rw [htoId] at htoIslands
  have hfromReal : (document.cards.map Card.id).contains edge.fromId = true :=
    List.contains_iff_mem.mpr (List.mem_map.mpr ⟨fromCard, hfromCard, hfromId⟩)
  have htoReal : (document.cards.map Card.id).contains edge.toId = true :=
    List.contains_iff_mem.mpr (List.mem_map.mpr ⟨toCard, htoCard, htoId⟩)
  have htype := resolveKnownEdgeType_of_mem (hwithin.edges.types edge hedge)
  unfold edgePromotions promotionBy getIslandEndpointsForEdgeEndpoint
  rw [hfromKind, htoKind]
  dsimp only
  rcases hfromIslands with hfromIslands | ⟨fromIsland, hfromIslands⟩ <;>
    rcases htoIslands with htoIslands | ⟨toIsland, htoIslands⟩ <;>
      rw [hfromIslands, htoIslands]
  · simp
  · simp only [List.contains_iff_mem] at hfromReal
    simp [hfromReal]
  · simp only [List.contains_iff_mem] at htoReal
    simp [htoReal]
  · simp only [islandPromotions, htype, normalizeUndirectedIslands]
    by_cases heq : fromIsland = toIsland
    · simp [heq]
    · by_cases hcausal : edge.type = "causal"
      · simp [heq, hcausal]
      · by_cases hle : codeUnitLe fromIsland toIsland = true <;> simp [heq, hcausal, hle]

theorem edgePromotions_eq_nil_iff (hedge : edge ∈ document.edges) :
    edgePromotions document edge = [] ↔ NothingDerived document edge := by
  obtain ⟨hfromKind, htoKind⟩ := hwithin.edges.kinds edge hedge
  unfold edgePromotions getIslandEndpointsForEdgeEndpoint
  rw [hfromKind, htoKind]
  dsimp only
  cases hfromIslands : getIslandsForCard document edge.fromId with
  | nil =>
      cases htoIslands : getIslandsForCard document edge.toId with
      | nil =>
          refine iff_of_true rfl ⟨?_, fun _ _ => htoIslands, fun _ _ => hfromIslands⟩
          rw [hfromIslands]
          exact fun _ hmem => absurd hmem List.not_mem_nil
      | cons toIsland toIslands =>
          constructor
          · intro hnone
            refine ⟨?_, fun hreal => ?_, fun _ _ => hfromIslands⟩
            · rw [hfromIslands]
              exact fun _ hmem => absurd hmem List.not_mem_nil
            · simp [List.mem_map.mp hreal] at hnone
          · intro hnothing
            have hghost : edge.fromId ∉ document.cards.map Card.id := fun hreal => by
              have hempty := hnothing.from_alone hreal hfromIslands
              rw [htoIslands] at hempty
              cases hempty
            rw [List.mem_map] at hghost
            simp [hghost]
  | cons fromIsland fromIslands =>
      cases htoIslands : getIslandsForCard document edge.toId with
      | nil =>
          constructor
          · intro hnone
            refine ⟨?_, fun _ _ => htoIslands, fun hreal => ?_⟩
            · rw [htoIslands]
              exact fun _ _ _ hmem => absurd hmem List.not_mem_nil
            · simp [List.mem_map.mp hreal] at hnone
          · intro hnothing
            have hghost : edge.toId ∉ document.cards.map Card.id := fun hreal => by
              have hempty := hnothing.to_alone hreal htoIslands
              rw [hfromIslands] at hempty
              cases hempty
            rw [List.mem_map] at hghost
            simp [hghost]
      | cons toIsland toIslands =>
          rw [if_neg (by simp), if_neg (by simp), if_pos (by simp), islandPromotions,
            List.flatMap_eq_nil_iff]
          constructor
          · intro hnone
            refine ⟨fun left hleft right hright => ?_, fun _ h => ?_, fun _ h => ?_⟩
            · rw [hfromIslands] at hleft
              rw [htoIslands] at hright
              have hempty := hnone left hleft
              rw [List.map_eq_nil_iff, List.filter_eq_nil_iff] at hempty
              simpa using hempty right hright
            · rw [hfromIslands] at h
              cases h
            · rw [htoIslands] at h
              cases h
          · intro hnothing left hleft
            rw [List.map_eq_nil_iff, List.filter_eq_nil_iff]
            intro right hright
            simpa using hnothing.islands left (hfromIslands ▸ hleft) right (htoIslands ▸ hright)

end Document

/-! ## Rows and the contributions they count -/

def projectedContributions (document : DocumentV1) : List (Promotion × Edge) :=
  (projectedEdges document).filterMap fun edge =>
    (promotionBy codePointLe document edge).map fun promotion => (promotion, edge)

/-- What a row of either side says about the contributions it counts. -/
structure CountsContributions (items : List (Promotion × Edge)) (fromId toId : String)
    (toKind : EdgeEndpointKind) (type : String) (count : Nat) (cardIds : List String) : Prop where
  first : ∃ first, items.head? = some first ∧ fromId = first.1.fromId ∧ toId = first.1.toId ∧
    toKind = first.1.toKind ∧ type = first.2.type
  count : count = items.length
  cards : ∀ id, id ∈ cardIds ↔ ∃ item ∈ items, id = item.2.fromId ∨ id = item.2.toId

@[simp] theorem mem_addTo {ids : List String} {id other : String} :
    other ∈ addTo ids id ↔ other ∈ ids ∨ other = id := by
  rw [addTo]
  split
  next hmem =>
    rw [List.contains_iff_mem] at hmem
    constructor
    · exact Or.inl
    · rintro (hother | rfl)
      · exact hother
      · exact hmem
  next => rw [List.mem_append, List.mem_singleton]

theorem foldl_contribute (items : List (Promotion × IrRelation)) (entry : DerivedIslandRelation) :
    items.foldl contribute entry =
      { entry with
        contributingRelationIds :=
          entry.contributingRelationIds ++ items.map fun item => item.2.id
        contributingCardIds := items.foldl (fun ids item =>
          addTo (addTo ids item.2.fromId) item.2.toId) entry.contributingCardIds } := by
  induction items generalizing entry with
  | nil => simp
  | cons item items ih =>
      rw [List.foldl_cons, ih]
      simp [contribute]

theorem addCards_eq (hfrom : edge.fromKind.getD .card = .card)
    (hto : edge.toKind.getD .card = .card) (ids : List String) :
    addCards ids edge = addTo (addTo ids edge.fromId) edge.toId := by
  rw [addCards, if_pos hfrom, if_pos hto]

/-- The ends of contributions, collected one after the other. -/
theorem mem_foldl_addTo (items : List (Promotion × Edge)) (ids : List String) (id : String) :
    id ∈ items.foldl (fun ids item => addTo (addTo ids item.2.fromId) item.2.toId) ids ↔
      id ∈ ids ∨ ∃ item ∈ items, id = item.2.fromId ∨ id = item.2.toId := by
  induction items generalizing ids with
  | nil => simp
  | cons item items ih =>
      rw [List.foldl_cons, ih, mem_addTo, mem_addTo]
      simp only [List.exists_mem_cons_iff, or_assoc]

/-- A contribution, as the projection sees it. -/
def toIrContribution (contribution : Promotion × Edge) : Promotion × IrRelation :=
  (contribution.1, contribution.2.toSource.toIr)

def DerivedIslandRelation.counted (row : DerivedIslandRelation) : DerivedIslandRelation :=
  { row with aggregateCount := row.contributingRelationIds.length }

theorem joinsCards_of_mem_projectedEdges {document : DocumentV1}
    (hedge : edge ∈ projectedEdges document) :
    edge ∈ document.edges ∧ document.joinsCards edge = true := by
  rw [projectedEdges, sortOn.mem] at hedge
  exact List.mem_filter.mp hedge

section Projection

variable {number : JsNumber → F} {runtime : Ir.Runtime F} {options : Ir.Options}
  {document : DocumentV1} {ir : Ir.LlmInputIr F}
  (hbuild : Ir.buildLlmInputIr runtime options (Ir.sourceFromDocument (document.toIr number)) =
    .ok ir)
  (htruncated : ir.truncation.truncated = false)

include hbuild htruncated

theorem relationPromotion_eq (hjoins : document.joinsCards edge = true) :
    relationPromotion ir edge.toSource.toIr = promotionBy codePointLe document edge := by
  rw [DocumentV1.joinsCards, Bool.and_eq_true, List.contains_iff_mem, List.contains_iff_mem] at hjoins
  have hfrom : islandByCard ir edge.toSource.toIr.fromId =
      (getIslandsForCard document edge.fromId).head? :=
    islandByCard_of_build hbuild htruncated hjoins.1
  have hto : islandByCard ir edge.toSource.toIr.toId =
      (getIslandsForCard document edge.toId).head? :=
    islandByCard_of_build hbuild htruncated hjoins.2
  have hfromReal : edge.toSource.toIr.fromId ∈ ir.cards.map Ir.IrCard.id :=
    (mem_ids_of_build hbuild htruncated).mpr hjoins.1
  have htoReal : edge.toSource.toIr.toId ∈ ir.cards.map Ir.IrCard.id :=
    (mem_ids_of_build hbuild htruncated).mpr hjoins.2
  unfold relationPromotion promotionBy
  rw [hfrom, hto]
  dsimp only
  cases (getIslandsForCard document edge.fromId).head? with
  | none =>
      cases (getIslandsForCard document edge.toId).head? with
      | none => rfl
      | some toIsland => exact if_neg (not_not.mpr hfromReal)
  | some fromIsland =>
      cases (getIslandsForCard document edge.toId).head? with
      | none => exact if_neg (not_not.mpr htoReal)
      | some toIsland =>
          dsimp only
          by_cases heq : fromIsland = toIsland
          · rw [if_pos heq, if_pos heq]
          · rw [if_neg heq, if_neg heq]
            have htype : edge.toSource.toIr.type = edge.type := rfl
            by_cases hcausal : edge.type = "causal"
            · simp [htype, hcausal]
            · by_cases hle : codePointLe fromIsland toIsland = true <;> simp [htype, hcausal, hle]

theorem relationContributions_eq (hplain : PlainEdges document) :
    relationContributions ir = (projectedContributions document).map toIrContribution := by
  rw [relationContributions, relations_of_build hbuild htruncated hplain, List.filterMap_map,
    projectedContributions, List.map_filterMap]
  refine List.filterMap_congr fun edge hedge => ?_
  rw [Function.comp_apply, relationPromotion_eq hbuild htruncated
    (joinsCards_of_mem_projectedEdges hedge).2]
  cases promotionBy codePointLe document edge <;> rfl

theorem mem_derivedIslandRelations (hplain : PlainEdges document) {row : DerivedIslandRelation} :
    row ∈ derivedIslandRelations ir ↔ ∃ key first rest,
      contributionsTo key (projectedContributions document) = first :: rest ∧
        row = ((rest.map toIrContribution).foldl contribute
          (firstEntry (toIrContribution first))).counted := by
  have hfilter : ∀ key, (relationContributions ir).filter
      (fun contribution => decide (contribution.1.key = key)) =
        (contributionsTo key (projectedContributions document)).map toIrContribution := by
    intro key
    rw [relationContributions_eq hbuild htruncated hplain, contributionsTo, List.filter_map]
    rfl
  rw [derivedIslandRelations]
  simp only [List.mem_map, sortOn.mem, InsertionMap.mem_values, get?_collect, hfilter]
  constructor
  · rintro ⟨value, ⟨key, hgroup⟩, rfl⟩
    cases hitems : contributionsTo key (projectedContributions document) with
    | nil =>
        rw [hitems] at hgroup
        cases hgroup
    | cons first rest =>
        rw [hitems] at hgroup
        refine ⟨key, first, rest, hitems, ?_⟩
        rw [← Option.some.inj hgroup]
        rfl
  · rintro ⟨key, first, rest, hitems, rfl⟩
    refine ⟨_, ⟨key, ?_⟩, rfl⟩
    rw [hitems]
    rfl

end Projection

section Rows

variable {items : List (Promotion × Edge)} {first : Promotion × Edge}
  {rest : List (Promotion × Edge)}

theorem edgeRow_spec (hkinds : ∀ item ∈ first :: rest,
      item.2.fromKind.getD .card = .card ∧ item.2.toKind.getD .card = .card)
    {key : String} {row : DerivedIslandEdge}
    (hrow : row = (rest.foldl addContribution (firstContribution first)).toRow key) :
    row.id = key ∧ row.fromKind = .island ∧
      row.contributingEdgeIds = (first :: rest).map (fun item => item.2.id) ∧
        CountsContributions (first :: rest) row.fromId row.toId row.toKind row.type
          row.aggregateCount row.contributingCardIds := by
  rw [foldl_addContribution] at hrow
  subst hrow
  refine ⟨rfl, rfl, rfl, ⟨first, rfl, rfl, rfl, rfl, rfl⟩, ?_, fun id => ?_⟩
  · simp [IslandAggregate.toRow, firstContribution]
  · have hfirst := hkinds first List.mem_cons_self
    have hfold : rest.foldl (fun ids item => addCards ids item.2) (addCards [] first.2) =
        (first :: rest).foldl (fun ids item => addTo (addTo ids item.2.fromId) item.2.toId) [] := by
      rw [List.foldl_cons, ← addCards_eq hfirst.1 hfirst.2]
      refine List.foldl_ext _ _ _ fun ids item hitem => ?_
      have hitemKinds := hkinds item (List.mem_cons_of_mem _ hitem)
      exact addCards_eq hitemKinds.1 hitemKinds.2 ids
    have hmem := mem_foldl_addTo (first :: rest) [] id
    rw [← hfold] at hmem
    simp only [List.not_mem_nil, false_or] at hmem
    exact hmem

theorem relationRow_spec {row : DerivedIslandRelation}
    (hrow : row = ((rest.map toIrContribution).foldl contribute
      (firstEntry (toIrContribution first))).counted) :
    row.id = first.1.key ∧ row.fromKind = .island ∧
      row.contributingRelationIds = (first :: rest).map (fun item =>
        relationId item.2.type item.2.fromId item.2.toId) ∧
        CountsContributions (first :: rest) row.fromId row.toId row.toKind row.type
          row.aggregateCount row.contributingCardIds := by
  rw [foldl_contribute] at hrow
  subst hrow
  have hids : (rest.map toIrContribution).map (fun item => item.2.id) =
      rest.map fun item => relationId item.2.type item.2.fromId item.2.toId := by
    rw [List.map_map]
    rfl
  refine ⟨rfl, rfl, ?_, ⟨first, rfl, rfl, rfl, rfl, rfl⟩, ?_, fun id => ?_⟩
  · rw [List.map_cons, ← hids]
    rfl
  · simp [DerivedIslandRelation.counted, firstEntry]
  · have hmem := mem_foldl_addTo (first :: rest) [] id
    rw [List.foldl_cons] at hmem
    simp only [List.not_mem_nil, false_or] at hmem
    rw [← hmem, DerivedIslandRelation.counted]
    dsimp only
    rw [List.foldl_map]
    rfl

end Rows

/-! ## Equal rows come from equal contributions -/

theorem type_of_promotionBy {le : String → String → Bool} {document : DocumentV1}
    {promotion : Promotion} (hpromotion : promotionBy le document edge = some promotion) :
    promotion.type = edge.type := by
  unfold promotionBy at hpromotion
  split at hpromotion
  next => cases hpromotion
  next =>
    split at hpromotion
    next => cases hpromotion
    next =>
      split at hpromotion <;> cases hpromotion <;> rfl
  next => cases hpromotion; rfl
  next => cases hpromotion; rfl

variable {contribution : Promotion × Edge}

theorem mem_projectedContributions {document : DocumentV1}
    (hmem : contribution ∈ projectedContributions document) :
    contribution.2 ∈ document.edges ∧ contribution.1.type = contribution.2.type := by
  obtain ⟨edge, hedge, hmem⟩ := List.mem_filterMap.mp hmem
  obtain ⟨promotion, hpromotion, rfl⟩ := Option.map_eq_some_iff.mp hmem
  exact ⟨(joinsCards_of_mem_projectedEdges hedge).1, type_of_promotionBy hpromotion⟩

section Agreement

variable {number : JsNumber → F} {runtime : Ir.Runtime F} {options : Ir.Options}
  {document : DocumentV1} {ir : Ir.LlmInputIr F} {lc : Collation}
  (hwithin : WithinBoundary document)
  (hbuild : Ir.buildLlmInputIr runtime options (Ir.sourceFromDocument (document.toIr number)) =
    .ok ir)
  (htruncated : ir.truncation.truncated = false)

include hwithin hbuild htruncated

omit hbuild htruncated in
theorem kinds_of_contributionsTo {key : String}
    (hmem : contribution ∈ contributionsTo key (edgeContributions document)) :
    contribution.2.fromKind.getD .card = .card ∧ contribution.2.toKind.getD .card = .card :=
  hwithin.edges.kinds _ (mem_edgeContributions (mem_contributionsTo.mp hmem).1).1

omit hbuild htruncated in
/-- Two equal rows count equally many contributions and show the same ends. -/
theorem contributions_of_sameRow {key key' : String} {first first' : Promotion × Edge}
    {rest rest' : List (Promotion × Edge)}
    (hitems : contributionsTo key (edgeContributions document) = first :: rest)
    (hitems' : contributionsTo key' (projectedContributions document) = first' :: rest')
    (hsame : SameRow document ((rest.foldl addContribution (firstContribution first)).toRow key)
      ((rest'.map toIrContribution).foldl contribute
        (firstEntry (toIrContribution first'))).counted) :
    key = key' ∧ (first :: rest).length = (first' :: rest').length ∧ first.1 = first'.1 := by
  have hmem : ∀ item ∈ first :: rest, item ∈ contributionsTo key (edgeContributions document) := by
    rw [hitems]
    exact fun _ hmem => hmem
  have hfirst := hmem first List.mem_cons_self
  have hfirst' : first' ∈ contributionsTo key' (projectedContributions document) := by
    rw [hitems']
    exact List.mem_cons_self
  obtain ⟨hid, -, -, hcounts⟩ := @edgeRow_spec first rest (fun item hitem =>
    kinds_of_contributionsTo hwithin (hmem item hitem)) key _ rfl
  obtain ⟨hid', -, -, hcounts'⟩ := @relationRow_spec first' rest' _ rfl
  obtain ⟨_, heq, hfromId, htoId, htoKind, htype⟩ := hcounts.first
  cases heq
  obtain ⟨_, heq, hfromId', htoId', htoKind', htype'⟩ := hcounts'.first
  cases heq
  refine ⟨?_, ?_, ?_⟩
  · rw [← hid, hsame.id, hid', (mem_contributionsTo.mp hfirst').2]
  · rw [← hcounts.count, hsame.count, hcounts'.count]
  · have hkind := (mem_edgeContributions (mem_contributionsTo.mp hfirst).1).2
    have hkind' := (mem_projectedContributions (mem_contributionsTo.mp hfirst').1).2
    rw [← htype, hsame.type, htype', ← hkind'] at hkind
    rw [hsame.fromId, hfromId'] at hfromId
    rw [hsame.toId, htoId'] at htoId
    rw [hsame.toKind, htoKind'] at htoKind
    obtain ⟨⟨toKind, fromId, toId, type⟩, edge⟩ := first
    obtain ⟨⟨toKind', fromId', toId', type'⟩, edge'⟩ := first'
    dsimp only at hfromId htoId htoKind hkind ⊢
    rw [hfromId, htoId, htoKind, hkind]

/-- When the rows agree, each id has equally many contributions on both sides,
and the first ones show the same ends. -/
theorem contributionsTo_of_rowsAgree
    (hagree : RowsAgree document (getDerivedIslandEdges lc document) (derivedIslandRelations ir))
    (key : String) :
    (contributionsTo key (edgeContributions document)).length =
        (contributionsTo key (projectedContributions document)).length ∧
      ((contributionsTo key (edgeContributions document)).head?.map Prod.fst) =
        (contributionsTo key (projectedContributions document)).head?.map Prod.fst := by
  cases hitems : contributionsTo key (edgeContributions document) with
  | cons first rest =>
      obtain ⟨right, hright, hsame⟩ := hagree.edge _
        (mem_getDerivedIslandEdges.mpr ⟨key, first, rest, hitems, rfl⟩)
      obtain ⟨key', first', rest', hitems', rfl⟩ :=
        (mem_derivedIslandRelations hbuild htruncated hwithin.edges).mp hright
      obtain ⟨rfl, hlength, hfirst⟩ :=
        contributions_of_sameRow hwithin hitems hitems' hsame
      rw [hitems']
      exact ⟨hlength, congrArg some hfirst⟩
  | nil =>
      cases hitems' : contributionsTo key (projectedContributions document) with
      | nil => exact ⟨rfl, rfl⟩
      | cons first' rest' =>
          obtain ⟨left, hleft, hsame⟩ := hagree.relation _
            ((mem_derivedIslandRelations hbuild htruncated hwithin.edges).mpr
              ⟨key, first', rest', hitems', rfl⟩)
          obtain ⟨key', first, rest, hitems'', rfl⟩ := mem_getDerivedIslandEdges.mp hleft
          obtain ⟨rfl, -, -⟩ :=
            contributions_of_sameRow hwithin hitems'' hitems' hsame
          rw [hitems] at hitems''
          cases hitems''

omit hwithin hbuild htruncated in
theorem sameRow_of_perm (hplain : PlainEdges document) {key : String}
    {first first' : Promotion × Edge} {rest rest' : List (Promotion × Edge)}
    (hitems : contributionsTo key (edgeContributions document) = first :: rest)
    (hitems' : contributionsTo key (projectedContributions document) = first' :: rest')
    (hperm : (first :: rest).Perm (first' :: rest')) (hfirst : first.1 = first'.1)
    (hsublist : ((first :: rest).map Prod.snd).Sublist document.edges) :
    SameRow document ((rest.foldl addContribution (firstContribution first)).toRow key)
      ((rest'.map toIrContribution).foldl contribute
        (firstEntry (toIrContribution first'))).counted := by
  have hmem : ∀ item ∈ first :: rest, item ∈ contributionsTo key (edgeContributions document) := by
    rw [hitems]
    exact fun _ hmem => hmem
  have hmem' : first' ∈ contributionsTo key (projectedContributions document) := by
    rw [hitems']
    exact List.mem_cons_self
  obtain ⟨hid, hkind, hedges, hcounts⟩ := @edgeRow_spec first rest (fun item hitem =>
    hplain.kinds _ (mem_edgeContributions (mem_contributionsTo.mp (hmem item hitem)).1).1) key _ rfl
  obtain ⟨hid', hkind', hrelations, hcounts'⟩ := @relationRow_spec first' rest' _ rfl
  obtain ⟨_, heq, hfromId, htoId, htoKind, htype⟩ := hcounts.first
  cases heq
  obtain ⟨_, heq, hfromId', htoId', htoKind', htype'⟩ := hcounts'.first
  cases heq
  have hfirstType := (mem_edgeContributions
    (mem_contributionsTo.mp (hmem first List.mem_cons_self)).1).2
  have hfirstType' := (mem_projectedContributions (mem_contributionsTo.mp hmem').1).2
  refine ⟨?_, ?_, ?_, ?_, ?_, ?_, ?_, ⟨(first :: rest).map Prod.snd, hsublist, ?_, ?_⟩, fun id => ?_⟩
  · rw [hid, hid', (mem_contributionsTo.mp hmem').2]
  · rw [hfromId, hfromId', hfirst]
  · rw [htoId, htoId', hfirst]
  · rw [hkind, hkind']
  · rw [htoKind, htoKind', hfirst]
  · rw [htype, htype', ← hfirstType, ← hfirstType', hfirst]
  · rw [hcounts.count, hcounts'.count, hperm.length_eq]
  · rw [hedges, List.map_map]
    rfl
  · rw [hrelations, List.map_map]
    exact (hperm.map _).symm
  · rw [hcounts.cards, hcounts'.cards]
    simp only [hperm.mem_iff]

omit hwithin in
/-- Equal contributions make equal rows. -/
theorem rowsAgree_of_contributions (hplain : PlainEdges document)
    (hperm : ∀ key, (contributionsTo key (edgeContributions document)).Perm
      (contributionsTo key (projectedContributions document)))
    (hfirst : ∀ key, (contributionsTo key (edgeContributions document)).head?.map Prod.fst =
      (contributionsTo key (projectedContributions document)).head?.map Prod.fst)
    (hsublist : ∀ key, ((contributionsTo key (edgeContributions document)).map Prod.snd).Sublist
      document.edges) :
    RowsAgree document (getDerivedIslandEdges lc document) (derivedIslandRelations ir) := by
  have hsame : ∀ {key : String} {first first' : Promotion × Edge}
      {rest rest' : List (Promotion × Edge)},
      contributionsTo key (edgeContributions document) = first :: rest →
      contributionsTo key (projectedContributions document) = first' :: rest' →
        SameRow document ((rest.foldl addContribution (firstContribution first)).toRow key)
          ((rest'.map toIrContribution).foldl contribute
            (firstEntry (toIrContribution first'))).counted := by
    intro key first first' rest rest' hitems hitems'
    have hkeyPerm := hperm key
    have hkeyFirst := hfirst key
    have hkeySublist := hsublist key
    rw [hitems] at hkeyPerm hkeyFirst hkeySublist
    rw [hitems'] at hkeyPerm hkeyFirst
    exact sameRow_of_perm hplain hitems hitems' hkeyPerm (Option.some.inj hkeyFirst) hkeySublist
  constructor
  · intro left hleft
    obtain ⟨key, first, rest, hitems, rfl⟩ := mem_getDerivedIslandEdges.mp hleft
    cases hitems' : contributionsTo key (projectedContributions document) with
    | nil =>
        have hkeyPerm := hperm key
        rw [hitems, hitems'] at hkeyPerm
        exact absurd hkeyPerm.eq_nil (List.cons_ne_nil _ _)
    | cons first' rest' =>
        exact ⟨_, (mem_derivedIslandRelations hbuild htruncated hplain).mpr
          ⟨key, first', rest', hitems', rfl⟩, hsame hitems hitems'⟩
  · intro right hright
    obtain ⟨key, first', rest', hitems', rfl⟩ :=
      (mem_derivedIslandRelations hbuild htruncated hplain).mp hright
    cases hitems : contributionsTo key (edgeContributions document) with
    | nil =>
        have hkeyPerm := (hperm key).symm
        rw [hitems, hitems'] at hkeyPerm
        exact absurd hkeyPerm.eq_nil (List.cons_ne_nil _ _)
    | cons first rest =>
        exact ⟨_, mem_getDerivedIslandEdges.mpr ⟨key, first, rest, hitems, rfl⟩,
          hsame hitems hitems'⟩

end Agreement

end KjAtlas
