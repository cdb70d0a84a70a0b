import KjAtlas.Foundation.Transactions
import KjAtlas.Ir.Graph

/-! # The projection of a document

A document that is too large is reduced: cards that are required are kept, the
others by their centrality, as long as the budgets allow. What is required never
gives way, so that the projection fails where it does not fit.
-/

namespace KjAtlas.Ir

variable {F : Type}

/-! ## Truncation -/

/-- The reasons for which a document was reduced. -/
structure Truncation where
  truncated : Bool
  overCards : Bool
  overRelations : Bool
  overText : Bool

namespace Truncation

def none : Truncation := ⟨false, false, false, false⟩

def reasonCodes (truncation : Truncation) : List String :=
  (if truncation.overCards then ["MAX_CARDS"] else []) ++
    (if truncation.overRelations then ["MAX_RELATIONS"] else []) ++
    if truncation.overText then ["MAX_TEXT_CHARS"] else []

end Truncation

def truncatedTextChars : Nat := 240

/-- The blocks of the projection that a reduction changes. -/
structure Blocks (F : Type) where
  cards : List (NormalizedCard F)
  relations : List IrRelation
  islands : List IrIsland
  evidenceLinks : List IrEvidenceLink

def totalChars (cards : List (NormalizedCard F)) : Nat :=
  (cards.map NormalizedCard.charLen).sum

def pruneIsland (keep : List String) (island : IrIsland) : IrIsland :=
  let members := island.cardIds.filter (· ∈ keep)
  { island with
    cardIds := members
    placardCardId := island.placardCardId.filter (· ∈ members) }

def pruneReferences (keep : List String) (blocks : Blocks F) : Blocks F where
  cards := blocks.cards
  relations := blocks.relations.filter fun relation =>
    relation.fromId ∈ keep ∧ relation.toId ∈ keep
  islands := blocks.islands.map (pruneIsland keep)
  evidenceLinks := blocks.evidenceLinks.filter fun link =>
    link.fromCardId ∈ keep ∧ link.toCardId ∈ keep

/-- The ranked cards, the most central first. -/
def rankedIds (rankByCard : InsertionMap String Nat) : List String :=
  (sortOn (fun left right : Nat × String =>
      if left.1 = right.1 then codePointLe left.2 right.2 else decide (left.1 < right.1))
    (fun entry : String × Nat => (entry.2, entry.1)) rankByCard.entries).map Prod.fst

/-- The required cards, and the most central ones up to the budget. -/
def keepCards (requiredCardIds rankedIds : List String) : List String :=
  rankedIds.foldl (fun keep cardId =>
    if maxCards ≤ keep.length ∨ cardId ∈ keep then keep else keep ++ [cardId])
    (distinct requiredCardIds)

/-- Step 2: there are too many cards. -/
def limitCards (rankByCard : InsertionMap String Nat) (requiredCardIds : List String)
    (blocks : Blocks F) : Blocks F :=
  let keep := keepCards requiredCardIds (rankedIds rankByCard)
  pruneReferences keep { blocks with cards := blocks.cards.filter fun card => card.id ∈ keep }

/-- Step 3: there are too many relations. Those that are required are kept first. -/
def limitRelations (requiredRelationIds : List String) (relations : List IrRelation) :
    Except IRGenerationError (List IrRelation) :=
  let required := relations.filter fun relation => relation.id ∈ requiredRelationIds
  if required.length ≠ (distinct requiredRelationIds).length then
    .error ⟨"required_relation_missing",
      "A route-required relation was lost before relation-budget selection."⟩
  else
    let optional := relations.filter fun relation => relation.id ∉ requiredRelationIds
    .ok (sortOn relationKeyLe IrRelation.sortKey
      (required ++ optional.take (maxRelations - required.length)))

/-- Step 4: the texts are too long together, so that each is cut. -/
def shorten (card : NormalizedCard F) : NormalizedCard F :=
  let textNorm := String.ofList (card.textNorm.toList.take truncatedTextChars)
  { card with text := textNorm, textNorm, charLen := textNorm.toList.length }

/-- `max` by `(rank_by_card.get(card.id, 1), card.id)`. -/
def worstCard (rankByCard : InsertionMap String Nat) (first : NormalizedCard F)
    (rest : List (NormalizedCard F)) : NormalizedCard F :=
  let rank := fun cardId => (rankByCard.get? cardId).getD 1
  rest.foldl (fun worst card =>
    if rank worst.id < rank card.id ∨ rank worst.id = rank card.id ∧ ¬ codePointLe card.id worst.id
    then card else worst) first

/-- Step 5: cards that are not required are dropped, the least central first, until the texts fit.
Every round drops a card. -/
def dropCards (rankByCard : InsertionMap String Nat) (requiredCardIds : List String) :
    Nat → Blocks F → Except IRGenerationError (Blocks F)
  | 0, blocks => .ok blocks
  | fuel + 1, blocks =>
      if blocks.cards.length ≤ 1 ∨ totalChars blocks.cards ≤ maxTextChars then .ok blocks
      else
        match blocks.cards.filter fun card => card.id ∉ requiredCardIds with
        | [] => .error ⟨"required_card_budget_exceeded",
            "Route-required cards alone exceed the IR text budget."⟩
        | candidate :: candidates =>
            let victim := worstCard rankByCard candidate candidates
            let cards := blocks.cards.filter fun card => card.id ≠ victim.id
            dropCards rankByCard requiredCardIds fuel
              (pruneReferences (cards.map NormalizedCard.id) { blocks with cards })

/-- Steps 4 and 5. -/
def limitText (rankByCard : InsertionMap String Nat) (requiredCardIds : List String)
    (blocks : Blocks F) : Except IRGenerationError (Blocks F) := do
  let shortened := { blocks with cards := blocks.cards.map shorten }
  let blocks ← dropCards rankByCard requiredCardIds shortened.cards.length shortened
  if maxTextChars < totalChars blocks.cards then
    .error ⟨"required_card_budget_exceeded",
      "Route-required cards cannot fit within the IR text budget."⟩
  else return blocks

def applyTruncation (rankByCard : InsertionMap String Nat)
    (requiredCardIds requiredRelationIds : List String) (blocks : Blocks F) :
    Except IRGenerationError (Blocks F × Truncation) :=
  let overCards := decide (maxCards < blocks.cards.length)
  let overRelations := decide (maxRelations < blocks.relations.length)
  let overText := decide (maxTextChars < totalChars blocks.cards)
  if !(overCards || overRelations || overText) then .ok (blocks, .none)
  else do
    let blocks := if overCards then limitCards rankByCard requiredCardIds blocks else blocks
    let overRelations := decide (maxRelations < blocks.relations.length)
    let relations ← if overRelations then limitRelations requiredRelationIds blocks.relations
      else .ok blocks.relations
    let blocks := { blocks with relations }
    let overText := decide (maxTextChars < totalChars blocks.cards)
    let blocks ← if overText then limitText rankByCard requiredCardIds blocks else .ok blocks
    return (blocks, ⟨true, overCards, overRelations, overText⟩)

/-! ## The projection -/

structure IrCard where
  id : String
  text : String
  textNorm : String
  charLen : Nat
  holdState : Option String

def NormalizedCard.toIr (card : NormalizedCard F) : IrCard where
  id := card.id
  text := card.text
  textNorm := card.textNorm
  charLen := card.charLen
  holdState := card.holdState

structure Constraints where
  safeMode : Bool
  structuredTextOnly : Bool
  requiredSections : List String

/-- The projection. A block of coordinates, islands, evidence or clusters that is empty is absent
from it. -/
structure LlmInputIr (F : Type) where
  irVersion : String
  cards : List IrCard
  coordinates : List (Coordinate F)
  relations : List IrRelation
  islands : List IrIsland
  evidenceLinks : List IrEvidenceLink
  clusterCandidates : List (ClusterCandidate F)
  graphSummary : GraphSummary F
  constraints : Constraints
  info : Meta
  truncation : Truncation

def irVersion : String := "1.2"

def requiredSections : List String := ["overall", "clusters", "contradictions"]

/-- A text or a number with floating point. -/
inductive Leaf (F : Type) where
  | text (value : String)
  | float (value : F)

def textLeaves (values : List String) : List (Leaf F) := values.map .text

/-- The texts and the numbers with floating point of the projection, in their order. -/
def LlmInputIr.leaves (ir : LlmInputIr F) : List (Leaf F) :=
  textLeaves [ir.irVersion] ++
    (ir.cards.flatMap fun card =>
      textLeaves ([card.id, card.text, card.textNorm] ++ card.holdState.toList)) ++
    (ir.coordinates.flatMap fun entry =>
      [.text entry.cardId, .float entry.x, .float entry.y, .float entry.radius,
        .float entry.angleDeg]) ++
    (ir.relations.flatMap fun relation =>
      textLeaves [relation.id, relation.fromId, relation.toId, relation.type]) ++
    (ir.islands.flatMap fun island =>
      textLeaves (island.id :: island.cardIds ++ island.title.toList ++
        island.placardCardId.toList ++ island.parentIslandId.toList ++ [island.reviewState])) ++
    (ir.evidenceLinks.flatMap fun link =>
      textLeaves ([link.id, link.type, link.fromCardId, link.toCardId] ++
        link.contradictionState.toList)) ++
    (ir.clusterCandidates.flatMap fun cluster =>
      textLeaves (cluster.clusterId :: cluster.cardIds ++ [cluster.basis]) ++
        [.float cluster.score]) ++
    (ir.graphSummary.centrality.flatMap fun row => [.text row.cardId, .float row.betweenness]) ++
    (ir.graphSummary.connectedComponents.flatMap fun component =>
      textLeaves (component.componentId :: component.cardIds)) ++
    (ir.graphSummary.contradictionSubgraphs.flatMap fun subgraph =>
      textLeaves (subgraph.subgraphId :: subgraph.cardIds ++ subgraph.negationEdges ++
        [subgraph.summary])) ++
    textLeaves (ir.constraints.requiredSections ++ [ir.info.docId, ir.info.language] ++
      ir.info.createdAt.toList ++ ir.info.updatedAt.toList ++ ir.truncation.reasonCodes)

def Leaf.violation (runtime : Runtime F) : Leaf F → Option String
  | .text value =>
      if looksLikeBase64 value then
        some "A value looks like embedded base64 binary, which the IR forbids."
      else none
  | .float value =>
      if runtime.isFinite value then none else some "Numbers must be finite JSON values."

/-- The keys of the projection are fixed, and none of them is forbidden. -/
def enforceStructuredTextOnly (runtime : Runtime F) (ir : LlmInputIr F) :
    Except IRGenerationError Unit :=
  match ir.leaves.findSome? (Leaf.violation runtime) with
  | some message => .error ⟨"structured_text_only_violation", message⟩
  | none => .ok ()

/-- The arguments of the projection. -/
structure Options where
  includeCoordinates : Bool
  safeMode : Bool
  allowUnreviewedText : Bool
  requiredCardIds : List String
  requiredRelationIds : List String

def requiredEndpoints (relationById : InsertionMap String IrRelation)
    (requiredRelationIds : List String) : List String :=
  requiredRelationIds.flatMap fun id =>
    match relationById.get? id with
    | none => []
    | some relation => [relation.fromId, relation.toId]

def requiredCards (options : Options) (_ : List String) (relations : List IrRelation) :
    Except IRGenerationError (List String) :=
  let relationById := InsertionMap.ofList (relations.map fun relation => (relation.id, relation))
  let required := distinct (options.requiredCardIds ++
    requiredEndpoints relationById options.requiredRelationIds)
  if options.requiredRelationIds.any fun id => !relationById.has id then
    .error ⟨"required_relation_missing",
      "A route-required relation is not present in the normalized IR source."⟩
  else if maxRelations < (distinct options.requiredRelationIds).length then
    .error ⟨"required_relation_budget_exceeded",
      "The route-required relation set exceeds the IR relation budget."⟩
  else if maxCards < required.length then
    .error ⟨"required_card_budget_exceeded",
      "The route-required card set exceeds the IR card budget."⟩
  else .ok required

/-- What is left after the reduction, as a projection. -/
def assemble (runtime : Runtime F) (includeCoordinates : Bool) (info : Meta)
    (blocks : Blocks F) (truncation : Truncation) : Except IRGenerationError (LlmInputIr F) := do
  let coordinates ← if includeCoordinates then normalizeCoordinates runtime blocks.cards else .ok []
  let ir := {
    irVersion
    cards := blocks.cards.map NormalizedCard.toIr
    coordinates
    relations := blocks.relations
    islands := blocks.islands
    evidenceLinks := blocks.evidenceLinks
    clusterCandidates := if truncation.truncated then []
      else clusterCandidates runtime blocks.cards blocks.relations includeCoordinates
    graphSummary := graphSummary runtime blocks.cards blocks.relations
    constraints := ⟨true, true, requiredSections⟩
    info
    truncation }
  enforceStructuredTextOnly runtime ir
  return ir

def project (runtime : Runtime F) (options : Options) (source : IRSource F)
    (cards : List (NormalizedCard F)) (relations : List IrRelation) :
    Except IRGenerationError (LlmInputIr F) := do
  let cardIds := cards.map NormalizedCard.id
  let required ← requiredCards options cardIds relations
  let islands ← normalizeIslands source.islands cardIds
  let evidenceLinks := normalizeEvidenceLinks source.evidenceLinks cardIds
  let (blocks, truncation) ← applyTruncation (rankByCard runtime cards relations) required
    options.requiredRelationIds ⟨cards, relations, islands, evidenceLinks⟩
  assemble runtime options.includeCoordinates (buildMeta source cards) blocks truncation

def buildLlmInputIr (runtime : Runtime F) (options : Options) (source : IRSource F) :
    Except IRGenerationError (LlmInputIr F) :=
  if !options.safeMode then
    .error ⟨"safe_mode_required",
      "IR generation requires safe_mode=true (llm_input_ir_spec.md 7.1)."⟩
  else do
    let cards ← normalizeCards runtime.nfkc source.cards
    enforceSafeMode cards options.allowUnreviewedText
    enforcePiiMinimization cards (buildMeta source cards)
    let cardIds := cards.map NormalizedCard.id
    if options.requiredCardIds.any fun id => !cardIds.contains id then
      .error ⟨"required_card_missing",
        "A route-required card is not present in the normalized IR source."⟩
    let relations ← normalizeRelations source.relations cardIds
    project runtime options source cards relations

end KjAtlas.Ir
