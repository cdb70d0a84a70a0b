import KjAtlas.Ir.Source

/-! # The graph of cards

The cards are joined by their relations, without direction. Their centrality
counts the shortest paths through them, and their components, contradictions and
clusters are listed.
-/

namespace KjAtlas.Ir

variable {F : Type}

def orderedPair (a b : String) : String × String := if codePointLe a b then (a, b) else (b, a)

/-- The pairs of different cards that relations join, each once. -/
def joinedPairs (relations : List IrRelation) : List (String × String) :=
  distinct ((relations.filter fun relation => relation.fromId ≠ relation.toId).map fun relation =>
    orderedPair relation.fromId relation.toId)

def neighbours (pairs : List (String × String)) (cardId : String) : List String :=
  sortOn codePointLe (fun neighbour => neighbour) (distinct (pairs.flatMap fun pair =>
    if pair.1 = cardId then [pair.2] else if pair.2 = cardId then [pair.1] else []))

def undirectedAdjacency (relations : List IrRelation) : String → List String :=
  neighbours (joinedPairs relations)

/-! ## Betweenness -/

/-- A search from one card: the cards met (the last first), and for each card those before it on
shortest paths, the number of these paths and their length. -/
structure Search (F : Type) where
  stack : List String
  predecessors : String → List String
  sigma : String → F
  distance : String → Option Nat
  queue : List String

section Betweenness

variable (runtime : Runtime F)

def Search.start (source : String) : Search F where
  stack := []
  predecessors _ := []
  sigma := Function.update (fun _ => runtime.ofNat 0) source (runtime.ofNat 1)
  distance := Function.update (fun _ => none) source (some 0)
  queue := [source]

/-- A neighbour of a card is looked at. -/
def Search.visit (v : String) (search : Search F) (w : String) : Search F :=
  let next := (search.distance v).map (· + 1)
  let search := if (search.distance w).isNone then
      { search with
        distance := Function.update search.distance w next
        queue := search.queue ++ [w] }
    else search
  if search.distance w = next then
    { search with
      sigma := Function.update search.sigma w (runtime.add (search.sigma w) (search.sigma v))
      predecessors := Function.update search.predecessors w (search.predecessors w ++ [v]) }
  else search

/-- Cards are taken from the queue until it is empty. -/
def Search.run (adjacency : String → List String) : Nat → Search F → Search F
  | 0, search => search
  | fuel + 1, search =>
      match search.queue with
      | [] => search
      | v :: queue =>
          Search.run adjacency fuel
            ((adjacency v).foldl (Search.visit runtime v)
              { search with stack := v :: search.stack, queue })

/-- The dependencies of a search are added to the scores, from the farthest card on. -/
def Search.addScores (source : String) (search : Search F) (scores : String → F) : String → F :=
  (search.stack.foldl (fun (state : (String → F) × (String → F)) w =>
    let delta := (search.predecessors w).foldl (fun delta v =>
      Function.update delta v (runtime.add (delta v) (runtime.mul
        (runtime.div (search.sigma v) (search.sigma w))
        (runtime.add (runtime.ofNat 1) (delta w))))) state.1
    (delta, if w = source then state.2
      else Function.update state.2 w (runtime.add (state.2 w) (delta w))))
    (fun _ => runtime.ofNat 0, scores)).2

/-- Every card is met at most once in a search, so that it ends. -/
def betweenness (cardIds : List String) (adjacency : String → List String) (cardId : String) : F :=
  let scores := cardIds.foldl (fun scores source =>
    (Search.run runtime adjacency cardIds.length (Search.start runtime source)).addScores runtime
      source scores) fun _ => runtime.ofNat 0
  runtime.div (scores cardId) (runtime.ofNat 2)

structure CentralityRow (F : Type) where
  cardId : String
  degree : Nat
  betweenness : F
  rank : Nat

/-- `(-betweenness, -degree, card_id)` is compared. -/
def CentralityRow.le (left right : CentralityRow F) : Bool :=
  if runtime.lt right.betweenness left.betweenness then true
  else if runtime.lt left.betweenness right.betweenness then false
  else if left.degree ≠ right.degree then decide (right.degree < left.degree)
  else codePointLe left.cardId right.cardId

def centrality (cards : List (NormalizedCard F)) (relations : List IrRelation) :
    List (CentralityRow F) :=
  let cardIds := cards.map NormalizedCard.id
  let adjacency := undirectedAdjacency relations
  let rows := cardIds.map fun cardId =>
    ⟨cardId, (adjacency cardId).length,
      runtime.round (betweenness runtime cardIds adjacency cardId) 4, 0⟩
  (sortOn (CentralityRow.le runtime) (fun row => row) rows).mapIdx fun index row =>
    { row with rank := index + 1 }

def rankByCard (cards : List (NormalizedCard F)) (relations : List IrRelation) :
    InsertionMap String Nat :=
  .ofList ((centrality runtime cards relations).map fun row => (row.cardId, row.rank))

end Betweenness

/-! ## Components -/

/-- The cards that are reached from those in the queue, and all that were visited. -/
def collectComponent (adjacency : String → List String) :
    Nat → List String → List String → List String → List String × List String
  | 0, visited, _, members => (visited, members)
  | _ + 1, visited, [], members => (visited, members)
  | fuel + 1, visited, current :: queue, members =>
      let new := (adjacency current).filter (· ∉ visited)
      collectComponent adjacency fuel (visited ++ new) (queue ++ new) (members ++ [current])

def components (cardIds : List String) (adjacency : String → List String) : List (List String) :=
  let found := (cardIds.foldl (fun (state : List String × List (List String)) cardId =>
    if cardId ∈ state.1 then state
    else
      let (visited, members) :=
        collectComponent adjacency cardIds.length (state.1 ++ [cardId]) [cardId] []
      (visited, state.2 ++ [sortOn codePointLe (fun member => member) members])) ([], [])).2
  sortOn codePointLe (fun members => members.head?.getD "") found

/-- `f"{n:0width}"`. -/
def padded (width n : Nat) : String :=
  let digits := Nat.toDigits 10 n
  .ofList (List.replicate (width - digits.length) '0' ++ digits)

structure ConnectedComponent where
  componentId : String
  cardIds : List String
  edgeCount : Nat

/-- Both ends of a relation are among cards. -/
def isInside (members : List String) (relation : IrRelation) : Bool :=
  members.contains relation.fromId && members.contains relation.toId

def connectedComponents (cards : List (NormalizedCard F)) (relations : List IrRelation) :
    List ConnectedComponent :=
  (components (cards.map NormalizedCard.id) (undirectedAdjacency relations)).mapIdx
    fun index members =>
      ⟨"cmp-" ++ padded 3 (index + 1), members, relations.countP (isInside members)⟩

/-! ## Contradictions -/

structure ContradictionSubgraph where
  subgraphId : String
  cardIds : List String
  negationEdges : List String
  summary : String

def contradictionSubgraph (index : Nat) (inner : List IrRelation) : ContradictionSubgraph :=
  let inner := sortOn relationKeyLe (fun relation => ("", relation.fromId, relation.toId)) inner
  let touched := sortOn codePointLe (fun cardId => cardId)
    (distinct (inner.map IrRelation.fromId ++ inner.map IrRelation.toId))
  { subgraphId := "neg-" ++ padded 3 (index + 1)
    cardIds := touched
    negationEdges := inner.map IrRelation.id
    summary := toString inner.length ++ " negation edges across " ++ toString touched.length ++
      " cards" }

def contradictionSubgraphs (cards : List (NormalizedCard F)) (relations : List IrRelation) :
    List ContradictionSubgraph :=
  let negations := relations.filter fun relation => relation.type = "negate"
  (((components (cards.map NormalizedCard.id) (undirectedAdjacency relations)).map fun members =>
    negations.filter (isInside members)).filter fun inner => !inner.isEmpty).mapIdx
      contradictionSubgraph

structure GraphSummary (F : Type) where
  centrality : List (CentralityRow F)
  connectedComponents : List ConnectedComponent
  contradictionSubgraphs : List ContradictionSubgraph

def graphSummary (runtime : Runtime F) (cards : List (NormalizedCard F))
    (relations : List IrRelation) : GraphSummary F where
  centrality := centrality runtime cards relations
  connectedComponents := connectedComponents cards relations
  contradictionSubgraphs := contradictionSubgraphs cards relations

/-! ## Places -/

section Places

variable (runtime : Runtime F)

/-- The place of a card, if both coordinates are finite numbers. -/
def NormalizedCard.place (card : NormalizedCard F) : Option (F × F) :=
  match card.x.filter runtime.isFinite, card.y.filter runtime.isFinite with
  | some x, some y => some (x, y)
  | _, _ => none

def placed (cards : List (NormalizedCard F)) : List (String × F × F) :=
  cards.filterMap fun card => (card.place runtime).map (card.id, ·)

structure Coordinate (F : Type) where
  cardId : String
  x : F
  y : F
  radius : F
  angleDeg : F

def mean (values : List F) : F :=
  runtime.div (values.foldl runtime.add (runtime.ofNat 0)) (runtime.ofNat values.length)

def coordinate (cx cy : F) (entry : String × F × F) : Coordinate F :=
  let x := runtime.round (runtime.sub entry.2.1 cx) 3
  let y := runtime.round (runtime.sub entry.2.2 cy) 3
  { cardId := entry.1
    x
    y
    radius := runtime.round (runtime.sqrt (runtime.add (runtime.mul x x) (runtime.mul y y))) 3
    angleDeg := runtime.round (runtime.angleDeg y x) 3 }

/-- A coordinate that is no finite number is an error, once any card has a place. -/
def normalizeCoordinates (cards : List (NormalizedCard F)) :
    Except IRGenerationError (List (Coordinate F)) :=
  let entries := placed runtime cards
  if entries.isEmpty then .ok []
  else if cards.any fun card =>
      card.x.any (fun x => !runtime.isFinite x) || card.y.any (fun y => !runtime.isFinite y) then
    .error ⟨"invalid_coordinate", "Coordinates must be finite numbers (no NaN/Inf)."⟩
  else
    let cx := mean runtime (entries.map fun entry => entry.2.1)
    let cy := mean runtime (entries.map fun entry => entry.2.2)
    .ok (sortOn codePointLe Coordinate.cardId (entries.map (coordinate runtime cx cy)))

def spatialNeighbourK : Nat := 3

/-- `(distance, card_id)` is compared. -/
def distanceLe (left right : F × String) : Bool :=
  if runtime.lt left.1 right.1 then true
  else if runtime.lt right.1 left.1 then false
  else codePointLe left.2 right.2

/-- Every card with its nearest neighbours. -/
def spatialPairs (cards : List (NormalizedCard F)) : List (String × String) :=
  let entries := placed runtime cards
  distinct (entries.flatMap fun entry =>
    let others := sortOn (distanceLe runtime)
      (fun other => (runtime.dist entry.2 other.2, other.1))
      (entries.filter fun other => other.1 ≠ entry.1)
    (others.take spatialNeighbourK).map fun other => orderedPair entry.1 other.1)

/-! ## Clusters -/

structure ClusterCandidate (F : Type) where
  clusterId : String
  cardIds : List String
  basis : String
  score : F

def idsLe : List String → List String → Bool
  | [], _ => true
  | _ :: _, [] => false
  | a :: left, b :: right => if a = b then idsLe left right else codePointLe a b

/-- `min(1.0, density + cohesion) / 2`, of the pairs inside and at the border of a component. -/
def clusterScore (pairs : List (String × String)) (members : List String) : F :=
  let internal := pairs.countP fun pair => members.contains pair.1 && members.contains pair.2
  let boundary := pairs.countP fun pair => members.contains pair.1 != members.contains pair.2
  let n := members.length
  let density := runtime.round (runtime.div (runtime.ofNat internal)
    (runtime.div (runtime.ofNat (n * (n - 1))) (runtime.ofNat 2))) 6
  let cohesion := if internal + boundary = 0 then runtime.ofNat 0
    else runtime.round (runtime.div (runtime.ofNat internal)
      (runtime.ofNat (internal + boundary))) 6
  let sum := runtime.add density cohesion
  let bounded := if runtime.lt sum (runtime.ofNat 1) then sum else runtime.ofNat 1
  runtime.round (runtime.div bounded (runtime.ofNat 2)) 4

/-- The components of pairs with at least two cards, as clusters without an id. -/
def clustersOf (cardIds : List String) (basis : String × List (String × String)) :
    List (ClusterCandidate F) :=
  ((components cardIds (neighbours basis.2)).filter fun members => 2 ≤ members.length).map
    fun members => ⟨"", members, basis.1, clusterScore runtime basis.2 members⟩

def addCluster (merged : List (ClusterCandidate F)) (cluster : ClusterCandidate F) :
    List (ClusterCandidate F) :=
  if merged.any fun other => decide (other.cardIds = cluster.cardIds) then merged
  else merged ++ [cluster]

def clusterCandidates (cards : List (NormalizedCard F)) (relations : List IrRelation)
    (spatial : Bool) : List (ClusterCandidate F) :=
  let relationPairs := joinedPairs (relations.filter fun relation =>
    ["related", "causal"].contains relation.type)
  let bases := ("relation", relationPairs) ::
    if spatial then [("spatial", spatialPairs runtime cards)] else []
  let merged := (bases.flatMap (clustersOf runtime (cards.map NormalizedCard.id))).foldl
    addCluster []
  (sortOn idsLe ClusterCandidate.cardIds merged).mapIdx fun index cluster =>
    { cluster with clusterId := "cc-" ++ padded 4 (index + 1) }

end Places

end KjAtlas.Ir
