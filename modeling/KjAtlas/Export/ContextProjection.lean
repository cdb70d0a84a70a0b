import Mathlib.Algebra.Group.Nat.Defs
import KjAtlas.Patch.Fingerprint

/-! # The projection of a document for external agents

An external agent reads cards, relations and counts of a document under a
constraint. Texts of cards are shown only where the card is reviewed and safe mode
is off. Links and relations count only between reviewed cards.
-/

/-! ## What safe mode shows

With safe mode on, texts that leave the program are replaced by a placeholder with
their length.
-/

namespace KjAtlas.SafeModePolicy

open Js

inductive SafeModeContext where
  | ui
  | share
  | reviewPack
  | diff
deriving DecidableEq

inductive SafeModeEntity where
  | cardText
  | islandSummary
  | relationSummary
  | traceText
  | diagnosticsDetail
  | markdownCopy
deriving DecidableEq

def canExposeText (entity : SafeModeEntity) (context : SafeModeContext) (safeMode : Bool) : Bool :=
  if !safeMode then true
  else if context = .share ∨ context = .reviewPack then false
  else if context = .diff then
    decide (entity ≠ .cardText ∧ entity ≠ .relationSummary ∧ entity ≠ .islandSummary)
  else true

/-- `text.trim().length`. -/
def trimmedLength (text : String) : Nat := (codeUnits (trim text)).length

def placeholder (length : Nat) : String :=
  "[REDACTED]" ++ if 0 < length then " (len:" ++ toString length ++ ")" else ""

def redactText (text : String) (mode : Bool) : String :=
  if !mode then text else placeholder (trimmedLength text)

end KjAtlas.SafeModePolicy

namespace KjAtlas.ContextProjection

open Js

/-! ## What is read of a document -/

structure Card where
  id : String
  claimType : Option String
  holdState : Option String
  text : String
  textReviewed : Option Bool

structure Island where
  id : String
  title : Option String

structure Edge where
  fromId : String
  toId : String
  type : String

structure EvidenceLink where
  type : String
  fromCardId : String
  toCardId : String

structure VoidEntry where
  id : String
  kind : String
  cardIds : Option (List String)
  islandIds : Option (List String)
  resolved : Option Bool

structure NarrativeCheckCounts where
  bMissingInA : JsNumber
  aMissingInB : JsNumber

structure NarrativeCheckIssue where
  direction : Option String

structure NarrativeCheck where
  id : String
  issues : Option (List NarrativeCheckIssue)
  counts : Option NarrativeCheckCounts

structure Narrative where
  checks : Option (List NarrativeCheck)

/-- The part of a document that the projection reads. -/
structure Document where
  id : String
  updatedAt : String
  cards : List Card
  islands : List Island
  edges : List Edge
  evidenceLinks : Option (List EvidenceLink)
  voids : Option (List VoidEntry)
  narratives : Option (List Narrative)

inductive Constraint where
  | reviewedOnly
  | evidence
  | contradiction
  | summary
deriving DecidableEq

def Constraint.text : Constraint → String
  | reviewedOnly => "reviewed-only"
  | evidence => "evidence"
  | contradiction => "contradiction"
  | summary => "summary"

/-! ## What is shown -/

structure ProjectedCard where
  id : String
  claimType : Option String
  holdState : Option String
  text : String
  reviewed : Bool
  redacted : Bool

structure ProjectedIsland where
  id : String
  title : String

/-- `from` and `to` in the source. -/
structure ProjectedLink where
  fromId : String
  toId : String

structure ProjectedRelation where
  fromId : String
  toId : String
  type : String

structure ProjectedVoid where
  id : String
  kind : String
  resolved : Bool
  cardIds : Option (List String)
  islandIds : Option (List String)

structure ProjectedNarrativeCheck where
  id : String
  counts : Option NarrativeCheckCounts
  issueDirections : List String

structure Counts where
  reviewed : Nat
  unreviewed : Nat
  redacted : Nat

/-- `schemaVersion` has one value. -/
structure ContextProjectionV1 where
  docId : String
  baseDocSignature : String
  constraint : Constraint
  safeMode : Bool
  cards : List ProjectedCard
  islands : List ProjectedIsland
  relations : List ProjectedRelation
  evidence : List ProjectedLink
  contradictions : List ProjectedLink
  counts : Counts
  voids : List ProjectedVoid
  narrativeChecks : List ProjectedNarrativeCheck
  bundleHash : String

/-! ## Values of the hashed payload -/

def optionalText (value : Option String) : JsValue := (value.map JsValue.string).getD .null

def optionalProp (name : String) (value : Option JsValue) : Props :=
  match value with
  | some value => [(name, some value)]
  | none => []

def ProjectedCard.toJs (card : ProjectedCard) : JsValue := .object [("id", some (.string card.id)),
  ("claimType", some (optionalText card.claimType)), ("reviewed", some (.bool card.reviewed)),
  ("redacted", some (.bool card.redacted)),
  ("text", some (if card.redacted then .null else .string card.text))]

def ProjectedIsland.toJs (island : ProjectedIsland) : JsValue :=
  .object [("id", some (.string island.id)), ("title", some (.string island.title))]

def ProjectedLink.toJs (link : ProjectedLink) : JsValue :=
  .object [("from", some (.string link.fromId)), ("to", some (.string link.toId))]

def ProjectedRelation.toJs (relation : ProjectedRelation) : JsValue :=
  .object [("from", some (.string relation.fromId)), ("to", some (.string relation.toId)),
    ("type", some (.string relation.type))]

def ProjectedVoid.toJs (entry : ProjectedVoid) : JsValue :=
  .object ([("id", some (.string entry.id)), ("kind", some (.string entry.kind)),
    ("resolved", some (.bool entry.resolved))] ++
      optionalProp "cardIds" (entry.cardIds.map textArray) ++
      optionalProp "islandIds" (entry.islandIds.map textArray))

def NarrativeCheckCounts.toJs (counts : NarrativeCheckCounts) : JsValue :=
  .object [("bMissingInA", some (.number counts.bMissingInA)),
    ("aMissingInB", some (.number counts.aMissingInB))]

def ProjectedNarrativeCheck.toJs (check : ProjectedNarrativeCheck) : JsValue :=
  .object ([("id", some (.string check.id))] ++
    optionalProp "counts" (check.counts.map NarrativeCheckCounts.toJs) ++
    [("issueDirections", some (textArray check.issueDirections))])

def Counts.toJs (counts : Counts) : JsValue :=
  .object [("reviewed", some (.number (.ofNat counts.reviewed))),
    ("unreviewed", some (.number (.ofNat counts.unreviewed))),
    ("redacted", some (.number (.ofNat counts.redacted)))]

/-- The payload that is hashed; it has no hash itself, and no hold states. -/
def ContextProjectionV1.hashPayload (projection : ContextProjectionV1) : JsValue :=
  .object [("schemaVersion", some (.string "context-projection.v1")),
    ("docId", some (.string projection.docId)),
    ("baseDocSignature", some (.string projection.baseDocSignature)),
    ("constraint", some (.string projection.constraint.text)),
    ("safeMode", some (.bool projection.safeMode)),
    ("cards", some (.array (projection.cards.map ProjectedCard.toJs))),
    ("islands", some (.array (projection.islands.map ProjectedIsland.toJs))),
    ("relations", some (.array (projection.relations.map ProjectedRelation.toJs))),
    ("evidence", some (.array (projection.evidence.map ProjectedLink.toJs))),
    ("contradictions", some (.array (projection.contradictions.map ProjectedLink.toJs))),
    ("counts", some projection.counts.toJs),
    ("voids", some (.array (projection.voids.map ProjectedVoid.toJs))),
    ("narrativeChecks", some (.array (projection.narrativeChecks.map ProjectedNarrativeCheck.toJs)))]

/-! ## Projecting -/

def isReviewed (card : Card) : Bool := decide (card.textReviewed = some true)

/-- The text that is shown, and whether it is redacted. -/
def projectCardText (card : Card) (safeMode : Bool) : String × Bool :=
  if SafeModePolicy.canExposeText .cardText .share safeMode && isReviewed card then
    (card.text, false)
  else (SafeModePolicy.redactText card.text true, true)

def projectCard (safeMode : Bool) (card : Card) : ProjectedCard where
  id := card.id
  claimType := card.claimType
  holdState := card.holdState
  text := (projectCardText card safeMode).1
  reviewed := isReviewed card
  redacted := (projectCardText card safeMode).2

def knownEdgeTypes : List String := ["related", "negate", "causal", "mutual", "equivalence"]

def resolveKnownEdgeType (type : String) : String :=
  if type ∈ knownEdgeTypes then type else "related"

namespace Document

variable (doc : Document)

def reviewedCardIds : List String := (doc.cards.filter isReviewed).map Card.id

def unreviewedCardIds : List String :=
  (doc.cards.filter fun card => !isReviewed card).map Card.id

def bothEndpointsReviewed (link : EvidenceLink) : Bool :=
  decide (link.fromCardId ∈ doc.reviewedCardIds ∧ link.toCardId ∈ doc.reviewedCardIds)

def linksOfType (type : String) : List EvidenceLink :=
  (doc.evidenceLinks.getD []).filter fun link =>
    decide (link.type = type) && doc.bothEndpointsReviewed link

end Document

section Project

variable (lc : Collation)

/-- `byFromThenTo`. -/
def byFromThenTo (a b : ProjectedLink) : Bool :=
  if a.fromId = b.fromId then lc.le a.toId b.toId else lc.le a.fromId b.fromId

def projectLinks (links : List EvidenceLink) : List ProjectedLink :=
  sortOn (byFromThenTo lc) id (links.map fun link => ⟨link.fromCardId, link.toCardId⟩)

def ends (links : List ProjectedLink) : List String :=
  links.flatMap fun link => [link.fromId, link.toId]

def supports (doc : Document) : List ProjectedLink := projectLinks lc (doc.linksOfType "supports")

def contradicts (doc : Document) : List ProjectedLink :=
  projectLinks lc (doc.linksOfType "contradicts")

def cardIdsInScope (doc : Document) : Constraint → List String
  | .summary => []
  | .reviewedOnly => doc.reviewedCardIds
  | .evidence => ends (supports lc doc)
  | .contradiction => ends (contradicts lc doc)

/-- The cards whose relations are shown. -/
def relationScope (doc : Document) (constraint : Constraint) : List String :=
  if constraint = .summary then doc.reviewedCardIds else cardIdsInScope lc doc constraint

def projectRelations (edges : List Edge) : List ProjectedRelation :=
  sortOn (byFromThenTo lc) (fun relation => ⟨relation.fromId, relation.toId⟩)
    (edges.map fun edge => ⟨edge.fromId, edge.toId, resolveKnownEdgeType edge.type⟩)

def projectVoid (entry : VoidEntry) : ProjectedVoid where
  id := entry.id
  kind := entry.kind
  resolved := decide (entry.resolved = some true)
  cardIds := entry.cardIds.filter fun ids => decide (ids ≠ [])
  islandIds := entry.islandIds.filter fun ids => decide (ids ≠ [])

def projectNarrativeCheck (check : NarrativeCheck) : ProjectedNarrativeCheck where
  id := check.id
  counts := check.counts
  issueDirections := (check.issues.getD []).filterMap fun issue =>
    issue.direction.filter fun direction => decide (direction ≠ "")

def narrativeChecks (doc : Document) : List ProjectedNarrativeCheck :=
  (doc.narratives.getD []).flatMap fun narrative =>
    (narrative.checks.getD []).map projectNarrativeCheck

def buildContextProjection (sha256 : Text → String) (doc : Document) (constraint : Constraint)
    (safeMode : Bool) : ContextProjectionV1 :=
  let allCards := sortOn lc.le Card.id doc.cards
  let reviewedCount := (allCards.filter isReviewed).length
  let scope := cardIdsInScope lc doc constraint
  let projection : ContextProjectionV1 := {
    docId := doc.id
    baseDocSignature := doc.id ++ ":" ++ doc.updatedAt
    constraint
    safeMode
    cards := (allCards.filter fun card => decide (card.id ∈ scope)).map (projectCard safeMode)
    islands := (sortOn lc.le Island.id doc.islands).map fun island =>
      ⟨island.id, island.title.getD "(無題)"⟩
    relations := projectRelations lc (doc.edges.filter fun edge =>
      decide (edge.fromId ∈ relationScope lc doc constraint ∧
        edge.toId ∈ relationScope lc doc constraint))
    evidence := if constraint = .evidence ∨ constraint = .summary then supports lc doc else []
    contradictions :=
      if constraint = .contradiction ∨ constraint = .summary then contradicts lc doc else []
    counts := {
      reviewed := reviewedCount
      unreviewed := allCards.length - reviewedCount
      redacted := (allCards.filter fun card => (projectCardText card safeMode).2).length }
    voids := (doc.voids.getD []).map projectVoid
    narrativeChecks := narrativeChecks doc
    bundleHash := "" }
  { projection with bundleHash := sha256 (canonicalizeJson projection.hashPayload) }

end Project

end KjAtlas.ContextProjection
