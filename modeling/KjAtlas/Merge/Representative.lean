import KjAtlas.Merge.Canonical

/-! # Representative cards

Selected cards are merged into a representative, unless something speaks against
it: a hold state, an earlier merge, different claim types, or a relation that
opposes two of them. The representative takes over what its sources stand for.
-/

namespace KjAtlas

open Js

section Merge

variable (lc : Collation)

def sortedUniqueIds (ids : List String) : List String := sortOn lc.le id (distinct ids)

/-! ## Conflicts -/

/-- `Boolean(text)` of an optional text. -/
def truthy (text : Option String) : Bool := text.any fun text => decide (text ≠ "")

def Card.claimType (card : Card) : Option String := card.text? "claimType"

/-- The claim types that occur among cards, without repetition. -/
def definedClaimTypes (cards : List Card) : List String := distinct (cards.filterMap Card.claimType)

/-- Whether a negating edge joins two of the cards. -/
def hasNegateRelation (document : DocumentV1) (cardIds : List String) : Bool :=
  document.edges.any fun edge =>
    decide (edge.fromKind.getD .card = .card) && decide (edge.toKind.getD .card = .card) &&
      decide (edge.props.string? "type" = some "negate") && cardIds.contains edge.fromId &&
        cardIds.contains edge.toId

/-- Whether a contradicting evidence link joins two of the cards. -/
def hasContradictionEvidence (document : DocumentV1) (cardIds : List String) : Bool :=
  document.links.any fun link =>
    decide (link.props.string? "type" = some "contradicts") && cardIds.contains link.fromCardId &&
      cardIds.contains link.toCardId

def hasMergeConflict (document : DocumentV1) (selectedCards : List Card) : Bool :=
  let selectedCardIds := selectedCards.map Card.id
  (selectedCards.any fun card => (card.props.get "holdState").isSome) ||
    (selectedCards.any fun card => truthy card.mergedIntoCardId || truthy card.canonicalId) ||
      decide (1 < (definedClaimTypes selectedCards).length) ||
        hasNegateRelation document selectedCardIds ||
          hasContradictionEvidence document selectedCardIds

def collectRepresentativeSources (selectedCards : List Card) : List String :=
  sortedUniqueIds lc (selectedCards.flatMap fun card => card.id :: (card.repOf ++ card.sources))

def representativeClaimType (selectedCards : List Card) : Option String :=
  if selectedCards.any fun card => card.claimType.isNone then none
  else if (definedClaimTypes selectedCards).length = 1 then
    selectedCards.head?.bind Card.claimType
  else none

def representativeCard (representativeCardId text : String) (position : JsNumber × JsNumber)
    (claimType : Option String) (repOf sources : List String) : Card where
  props := [("id", some (.string representativeCardId)), ("text", some (.string text)),
    ("x", some (.number position.1)), ("y", some (.number position.2))] ++
    (claimType.toList.map fun claimType => ("claimType", some (.string claimType))) ++
    [("repOf", some (textArray repOf)), ("sources", some (textArray sources)),
      ("textReviewed", some (.bool false))]
  id := representativeCardId
  id_eq := by simp [Props.string?, Props.get_cons, JsValue.string?]

def Edge.redirect (edge : Edge) (id fromId toId : String) : Edge where
  props := ((edge.props.put "id" (some (.string id))).put "fromId" (some (.string fromId))).put
    "toId" (some (.string toId))
  id
  fromId
  toId
  fromKind := edge.fromKind
  toKind := edge.toKind
  id_eq := by simp [Props.string?_put, JsValue.string?]
  fromId_eq := by simp [Props.string?_put, JsValue.string?]
  toId_eq := by simp [Props.string?_put, JsValue.string?]
  fromKind_eq := by simp [Props.get_put, edge.fromKind_eq]
  toKind_eq := by simp [Props.get_put, edge.toKind_eq]

/-- What tells the projections of edges apart: the direction, the other endpoint
and the type. -/
def projectedTriple (edge : Edge) (fromSelected : Bool) : String :=
  let direction := if fromSelected then "from" else "to"
  let otherKind := ((if fromSelected then edge.toKind else edge.fromKind).getD .card).text
  let otherId := if fromSelected then edge.toId else edge.fromId
  direction ++ ":" ++ otherKind ++ ":" ++ otherId ++ ":" ++
    (edge.props.string? "type").getD "undefined"

def projectRepresentativeEdges (edges : List Edge) (selectedCardIds : List String)
    (representativeCardId : String) : List Edge :=
  let projectedByTriple : InsertionMap String Edge := edges.foldl (fun projected edge =>
    let fromSelected :=
      decide (edge.fromKind.getD .card = .card) && selectedCardIds.contains edge.fromId
    let toSelected := decide (edge.toKind.getD .card = .card) && selectedCardIds.contains edge.toId
    if fromSelected = toSelected then projected
    else
      let triple := projectedTriple edge fromSelected
      if projected.has triple then projected
      else projected.set triple (edge.redirect
        ("representative-merge:" ++ representativeCardId ++ ":" ++ triple)
        (if fromSelected then representativeCardId else edge.fromId)
        (if toSelected then representativeCardId else edge.toId))) .empty
  edges ++ projectedByTriple.values

/-! ## The merge -/

structure MergeResult where
  nextDocument : DocumentV1
  representativeCardId : String
  mergedCardCount : Nat

/-- An id that `crypto.randomUUID()` makes. -/
structure Uuid where
  text : String
  ne_empty : text ≠ ""

def mergedCards (cards : List Card) (selectedCardIds : List String)
    (representativeCardId : String) : List Card :=
  cards.map fun card =>
    if selectedCardIds.contains card.id then
      (card.put "mergedIntoCardId" (some (.string representativeCardId)) (by decide)).put
        "canonicalId" (some (.string representativeCardId)) id_ne_canonicalId
    else card

def createRepresentativeMerge (averagePosition : List Card → JsNumber × JsNumber)
    (randomUUID : Uuid) (document : DocumentV1) (selectedCardIds : List String)
    (representativeText : String) (rewireMembershipAndEdges : Bool) : Option MergeResult :=
  let uniqueSelectedCardIds := sortedUniqueIds lc selectedCardIds
  let selectedCards := document.cards.filter fun card => uniqueSelectedCardIds.contains card.id
  let normalizedRepresentativeText := trim representativeText
  let representativeCardId := randomUUID.text
  if uniqueSelectedCardIds.length < 2 then none
  else if selectedCards.length ≠ uniqueSelectedCardIds.length then none
  else if hasMergeConflict document selectedCards then none
  else if normalizedRepresentativeText = "" then none
  else if document.cards.any fun card => decide (card.id = representativeCardId) then none
  else
    let nextCards := mergedCards document.cards uniqueSelectedCardIds representativeCardId ++
      [representativeCard representativeCardId normalizedRepresentativeText
        (averagePosition selectedCards)
        ((representativeClaimType selectedCards).filter fun claimType => decide (claimType ≠ ""))
        uniqueSelectedCardIds (collectRepresentativeSources lc selectedCards)]
    some {
      nextDocument := { document with
        cards := nextCards
        islands :=
          if rewireMembershipAndEdges then
            updateIslands document.islands uniqueSelectedCardIds representativeCardId
          else document.islands
        edges :=
          if rewireMembershipAndEdges then
            projectRepresentativeEdges document.edges uniqueSelectedCardIds representativeCardId
          else document.edges }
      representativeCardId
      mergedCardCount := selectedCards.length }

variable {lc} {averagePosition : List Card → JsNumber × JsNumber} {randomUUID : Uuid}
  {document : DocumentV1} {selectedCardIds : List String} {text : String} {rewire : Bool}

/-- A merge that is made: nothing opposed it, and the id of the representative is new. -/
theorem createRepresentativeMerge_eq_some {merge : MergeResult}
    (hmerge : createRepresentativeMerge lc averagePosition randomUUID document selectedCardIds text
      rewire = some merge) :
    hasMergeConflict document (document.cards.filter fun card =>
        (sortedUniqueIds lc selectedCardIds).contains card.id) = false ∧
      (document.cards.any fun card => decide (card.id = randomUUID.text)) = false ∧
      merge.representativeCardId = randomUUID.text ∧
      ∃ position claimType, merge.nextDocument =
        { document with
          cards := mergedCards document.cards (sortedUniqueIds lc selectedCardIds) randomUUID.text ++
            [representativeCard randomUUID.text (trim text) position claimType
              (sortedUniqueIds lc selectedCardIds) (collectRepresentativeSources lc
                (document.cards.filter fun card =>
                  (sortedUniqueIds lc selectedCardIds).contains card.id))]
          islands := if rewire then
              updateIslands document.islands (sortedUniqueIds lc selectedCardIds) randomUUID.text
            else document.islands
          edges := if rewire then
              projectRepresentativeEdges document.edges (sortedUniqueIds lc selectedCardIds)
                randomUUID.text
            else document.edges } := by
  unfold createRepresentativeMerge at hmerge
  dsimp only at hmerge
  split at hmerge
  next => cases hmerge
  next =>
  split at hmerge
  next => cases hmerge
  next =>
  split at hmerge
  next => cases hmerge
  next hconflict =>
  split at hmerge
  next => cases hmerge
  next =>
  split at hmerge
  next => cases hmerge
  next hfresh =>
    obtain rfl := Option.some.inj hmerge
    exact ⟨Bool.not_eq_true _ ▸ hconflict, Bool.not_eq_true _ ▸ hfresh, rfl, _, _, rfl⟩

end Merge

end KjAtlas
