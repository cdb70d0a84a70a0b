import KjAtlas.Domain.Types
import KjAtlas.Foundation.Grouping

/-! # Relations between islands

Relations between cards are shown between the islands that list the cards, or
between an island and a card in no island. Relations of one type between the
same two are counted as one.
-/

namespace KjAtlas

open Js

/-! ## What one edge contributes -/

def knownEdgeTypes : List String := ["related", "negate", "causal", "mutual", "equivalence"]

def resolveKnownEdgeType (type : String) : String :=
  if knownEdgeTypes.contains type then type else "related"

/-- The derived relation that an edge contributes to. -/
structure Promotion where
  toKind : EdgeEndpointKind
  fromId : String
  toId : String
  type : String

/-- The id of the derived relation. -/
def Promotion.key (promotion : Promotion) : String :=
  (match promotion.toKind with
    | .island => "derived-island:"
    | .card => "derived-card:") ++ promotion.fromId ++ "|" ++ promotion.toId ++ "|" ++ promotion.type

def normalizeUndirectedIslands (a b : String) : String × String :=
  if codeUnitLe a b then (a, b) else (b, a)

def getIslandsForCard (document : DocumentV1) (cardId : String) : List String :=
  (document.islands.filter fun island => island.cardIds.contains cardId).map Island.id

def getIslandEndpointsForEdgeEndpoint (document : DocumentV1) (kind : EdgeEndpointKind)
    (endpointId : String) : List String :=
  match kind with
  | .island => [endpointId]
  | .card => getIslandsForCard document endpointId

/-- The contributions of an edge between two islands. -/
def islandPromotions (type : String) (fromIslandIds toIslandIds : List String) : List Promotion :=
  fromIslandIds.flatMap fun fromIslandId =>
    (toIslandIds.filter fun toIslandId => decide (fromIslandId ≠ toIslandId)).map fun toIslandId =>
      let (aggregateFromId, aggregateToId) :=
        if resolveKnownEdgeType type = "causal" then (fromIslandId, toIslandId)
        else normalizeUndirectedIslands fromIslandId toIslandId
      ⟨.island, aggregateFromId, aggregateToId, type⟩

def edgePromotions (document : DocumentV1) (edge : Edge) : List Promotion :=
  let fromKind := edge.fromKind.getD .card
  let toKind := edge.toKind.getD .card
  if fromKind = .island ∧ toKind = .island then []
  else
    let fromIslandIds := getIslandEndpointsForEdgeEndpoint document fromKind edge.fromId
    let toIslandIds := getIslandEndpointsForEdgeEndpoint document toKind edge.toId
    if fromIslandIds = [] ∧ toIslandIds = [] then []
    else if fromIslandIds ≠ [] ∧ toIslandIds ≠ [] then
      islandPromotions edge.type fromIslandIds toIslandIds
    else
      let islandIds := if fromIslandIds ≠ [] then fromIslandIds else toIslandIds
      let loneWolfCardId := if fromIslandIds ≠ [] then edge.toId else edge.fromId
      if !(document.cards.map Card.id).contains loneWolfCardId then []
      else islandIds.map fun islandId => ⟨.card, islandId, loneWolfCardId, edge.type⟩

/-! ## Aggregation -/

structure DerivedIslandEdge where
  id : String
  fromId : String
  toId : String
  fromKind : EdgeEndpointKind
  toKind : EdgeEndpointKind
  type : String
  isDerived : Bool
  aggregateCount : Nat
  contributingEdgeIds : List String
  contributingCardIds : List String

structure IslandAggregate where
  fromId : String
  toId : String
  toKind : EdgeEndpointKind
  type : String
  contributingEdgeIds : List String
  contributingCardIds : List String

/-- A set with another element. -/
def addTo (ids : List String) (id : String) : List String :=
  if ids.contains id then ids else ids ++ [id]

def addCards (ids : List String) (edge : Edge) : List String :=
  let ids := if edge.fromKind.getD .card = .card then addTo ids edge.fromId else ids
  if edge.toKind.getD .card = .card then addTo ids edge.toId else ids

def firstContribution (contribution : Promotion × Edge) : IslandAggregate where
  fromId := contribution.1.fromId
  toId := contribution.1.toId
  toKind := contribution.1.toKind
  type := contribution.2.type
  contributingEdgeIds := [contribution.2.id]
  contributingCardIds := addCards [] contribution.2

def addContribution (current : IslandAggregate) (contribution : Promotion × Edge) :
    IslandAggregate :=
  { current with
    contributingEdgeIds := current.contributingEdgeIds ++ [contribution.2.id]
    contributingCardIds := addCards current.contributingCardIds contribution.2 }

def edgeContributions (document : DocumentV1) : List (Promotion × Edge) :=
  document.edges.flatMap fun edge => (edgePromotions document edge).map fun promotion =>
    (promotion, edge)

def IslandAggregate.toRow (id : String) (value : IslandAggregate) : DerivedIslandEdge where
  id
  fromId := value.fromId
  toId := value.toId
  fromKind := .island
  toKind := value.toKind
  type := value.type
  isDerived := true
  aggregateCount := value.contributingEdgeIds.length
  contributingEdgeIds := value.contributingEdgeIds
  contributingCardIds := value.contributingCardIds

def getDerivedIslandEdges (lc : Collation) (document : DocumentV1) : List DerivedIslandEdge :=
  let aggregate := collect (fun contribution => contribution.1.key) firstContribution addContribution
    (edgeContributions document)
  sortOn lc.le DerivedIslandEdge.id
    (aggregate.entries.map fun entry => entry.2.toRow entry.1)

/-! ## The contributions to a row -/

/-- The contributions to the row of an id. -/
def contributionsTo (key : String) (contributions : List (Promotion × Edge)) :
    List (Promotion × Edge) :=
  contributions.filter fun contribution => decide (contribution.1.key = key)

variable {contribution : Promotion × Edge} {promotion : Promotion}

theorem mem_contributionsTo {key : String} {contributions : List (Promotion × Edge)} :
    contribution ∈ contributionsTo key contributions ↔
      contribution ∈ contributions ∧ contribution.1.key = key := by
  rw [contributionsTo, List.mem_filter, decide_eq_true_eq]

theorem type_of_mem_islandPromotions {type : String} {fromIslandIds toIslandIds : List String}
    (hmem : promotion ∈ islandPromotions type fromIslandIds toIslandIds) :
    promotion.type = type := by
  obtain ⟨fromIslandId, -, hmem⟩ := List.mem_flatMap.mp hmem
  obtain ⟨toIslandId, -, rfl⟩ := List.mem_map.mp hmem
  rfl

variable {document : DocumentV1}

theorem type_of_mem_edgePromotions {edge : Edge} (hmem : promotion ∈ edgePromotions document edge) :
    promotion.type = edge.type := by
  unfold edgePromotions at hmem
  dsimp only at hmem
  split at hmem
  next => exact absurd hmem List.not_mem_nil
  next =>
  split at hmem
  next => exact absurd hmem List.not_mem_nil
  next =>
  split at hmem
  next => exact type_of_mem_islandPromotions hmem
  next =>
    have hlone : ∀ (islandIds : List String) (loneWolfCardId : String),
        promotion ∈ (if !(document.cards.map Card.id).contains loneWolfCardId then []
          else islandIds.map fun islandId =>
            (⟨.card, islandId, loneWolfCardId, edge.type⟩ : Promotion)) →
          promotion.type = edge.type := by
      intro islandIds loneWolfCardId hmem
      split at hmem
      next => exact absurd hmem List.not_mem_nil
      next =>
        obtain ⟨islandId, -, rfl⟩ := List.mem_map.mp hmem
        rfl
    exact hlone _ _ hmem

theorem mem_edgeContributions (hmem : contribution ∈ edgeContributions document) :
    contribution.2 ∈ document.edges ∧ contribution.1.type = contribution.2.type := by
  obtain ⟨edge, hedge, hmem⟩ := List.mem_flatMap.mp hmem
  obtain ⟨promotion, hpromotion, rfl⟩ := List.mem_map.mp hmem
  exact ⟨hedge, type_of_mem_edgePromotions hpromotion⟩

theorem foldl_addContribution (items : List (Promotion × Edge)) (aggregate : IslandAggregate) :
    items.foldl addContribution aggregate =
      { aggregate with
        contributingEdgeIds := aggregate.contributingEdgeIds ++ items.map fun item => item.2.id
        contributingCardIds :=
          items.foldl (fun ids item => addCards ids item.2) aggregate.contributingCardIds } := by
  induction items generalizing aggregate with
  | nil => simp
  | cons item items ih =>
      rw [List.foldl_cons, ih]
      simp [addContribution]

theorem mem_getDerivedIslandEdges {lc : Collation} {row : DerivedIslandEdge} :
    row ∈ getDerivedIslandEdges lc document ↔ ∃ key first rest,
      contributionsTo key (edgeContributions document) = first :: rest ∧
        row = (rest.foldl addContribution (firstContribution first)).toRow key := by
  rw [getDerivedIslandEdges]
  simp only [sortOn.mem, List.mem_map]
  constructor
  · rintro ⟨⟨key, value⟩, hentry, rfl⟩
    have hgroup := InsertionMap.mem_entries.mp hentry
    rw [get?_collect] at hgroup
    cases hitems : contributionsTo key (edgeContributions document) with
    | nil =>
        rw [contributionsTo] at hitems
        rw [hitems] at hgroup
        cases hgroup
    | cons first rest =>
        refine ⟨key, first, rest, hitems, ?_⟩
        rw [contributionsTo] at hitems
        rw [hitems] at hgroup
        rw [← Option.some.inj hgroup]
  · rintro ⟨key, first, rest, hitems, rfl⟩
    refine ⟨(key, _), InsertionMap.mem_entries.mpr ?_, rfl⟩
    rw [contributionsTo] at hitems
    rw [get?_collect, hitems]
    rfl

namespace AggregationInputs

def islandOf (id : String) (cardIds : List String) : Island where
  props := [("id", some (.string id)), ("cardIds", some (textArray cardIds))]
  id
  cardIds
  id_eq := by simp [Props.string?, Props.get_cons, JsValue.string?]
  cardIds_eq := by simp [Props.strings?, Props.get_cons]

def related (fromId toId : String) : Edge := .smallest "e" fromId toId "related"

def documentOf (cardIds : List String) (islands : List Island) (edge : Edge) : DocumentV1 :=
  { DocumentV1.smallest (cardIds.map fun id => .smallest id "text") [] with
    islands
    edges := [edge] }

end AggregationInputs

end KjAtlas
