import Mathlib.Algebra.GroupWithZero.Nat
import Mathlib.Data.Prod.Lex
import KjAtlas.Py.Text
import KjAtlas.Domain.Types

/-! # The input of the language model

The server projects a document to the cards, relations and islands that a
language model may see. Relations between islands, of unknown types or with
unknown endpoints are left out, as are members of islands that are no cards or
already belong to another island. Texts are compared by code points.
-/

namespace KjAtlas

open Js

/-! ## Source shapes -/

structure SourceRelation where
  fromId : String
  toId : String
  type : String
  fromKind : Option EdgeEndpointKind
  toKind : Option EdgeEndpointKind

structure SourceIsland where
  id : String
  cardIds : List String
  title : Option String
  placardCardId : Option String
  parentIslandId : Option String
  titleReviewed : Option Bool

/-- A refusal. -/
structure IRGenerationError where
  code : String
  message : String
deriving DecidableEq

/-! ## Cards -/

def holdStates : List String := ["held", "pending", "shelved"]

def isControlChar (c : Char) : Bool := decide (c.toNat ≤ 0x1F) || decide (c.toNat = 0x7F)

/-- Runs of white space become one blank. -/
def collapseSpaces : Bool → List Char → List Char
  | _, [] => []
  | inRun, c :: rest =>
      if isPythonSpace c then
        if inRun then collapseSpaces true rest else ' ' :: collapseSpaces true rest
      else c :: collapseSpaces false rest

/-! ## Relations -/

def relationTypes : List String := ["related", "negate", "causal", "mutual", "equivalence"]

structure IrRelation where
  id : String
  fromId : String
  toId : String
  type : String
deriving DecidableEq

def relationId (relationType fromId toId : String) : String :=
  relationType ++ ":" ++ fromId ++ ":" ++ toId

def SourceRelation.toIr (relation : SourceRelation) : IrRelation where
  id := relationId relation.type relation.fromId relation.toId
  fromId := relation.fromId
  toId := relation.toId
  type := relation.type

def normalizeRelationsFrom (cardIds : List String) :
    List (String × String × String) → List SourceRelation →
      Except IRGenerationError (List IrRelation)
  | _, [] => .ok []
  | seen, relation :: rest =>
      let key := (relation.fromId, relation.toId, relation.type)
      if relation.fromKind = some .island ∨ relation.toKind = some .island then
        normalizeRelationsFrom cardIds seen rest
      else if relation.type ∉ relationTypes then normalizeRelationsFrom cardIds seen rest
      else if relation.fromId ∉ cardIds ∨ relation.toId ∉ cardIds then
        normalizeRelationsFrom cardIds seen rest
      else if relation.fromId = relation.toId ∧ relation.type ≠ "negate" then
        .error ⟨"invalid_self_loop", "A self-loop relation is only allowed for the negate type."⟩
      else if key ∈ seen then normalizeRelationsFrom cardIds seen rest
      else
        match normalizeRelationsFrom cardIds (key :: seen) rest with
        | .error error => .error error
        | .ok relations => .ok (relation.toIr :: relations)

/-- The comparison of `(type, from, to)`. -/
def relationKeyLe (left right : String × String × String) : Bool :=
  decide (toLex (left.1, toLex left.2) ≤ toLex (right.1, toLex right.2))

def IrRelation.sortKey (relation : IrRelation) : String × String × String :=
  (relation.type, relation.fromId, relation.toId)

def normalizeRelations (sourceRelations : List SourceRelation) (cardIds : List String) :
    Except IRGenerationError (List IrRelation) :=
  match normalizeRelationsFrom cardIds [] sourceRelations with
  | .error error => .error error
  | .ok relations => .ok (sortOn relationKeyLe IrRelation.sortKey relations)

/-! ## Islands -/

structure IrIsland where
  id : String
  cardIds : List String
  title : Option String
  placardCardId : Option String
  parentIslandId : Option String
  reviewState : String

/-- The members of an island that no earlier island has claimed, and what is
claimed afterwards. -/
def claimMembers (cardIds : List String) : List String → List String → List String × List String
  | claimed, [] => ([], claimed)
  | claimed, cardId :: rest =>
      if cardId ∉ cardIds ∨ cardId ∈ claimed then claimMembers cardIds claimed rest
      else
        let (members, claimed) := claimMembers cardIds (cardId :: claimed) rest
        (cardId :: members, claimed)

def SourceIsland.toIr (island : SourceIsland) (islandIds members : List String) : IrIsland where
  id := island.id
  cardIds := sortOn codePointLe (fun member => member) members
  title := island.title
  placardCardId := island.placardCardId.filter members.contains
  parentIslandId := island.parentIslandId.filter fun parent =>
    islandIds.contains parent && decide (parent ≠ island.id)
  reviewState := if island.titleReviewed = some true then "human_reviewed" else "unreviewed"

def normalizeIslandsFrom (islandIds cardIds : List String) :
    List String → List String → List SourceIsland → Except IRGenerationError (List IrIsland)
  | _, _, [] => .ok []
  | seenIds, claimed, island :: rest =>
      if island.id = "" then
        .error ⟨"invalid_island_id", "Island id must be a non-empty string."⟩
      else if seenIds.contains island.id then
        .error ⟨"duplicate_island_id", "The same island id appeared more than once."⟩
      else
        let (members, claimed) := claimMembers cardIds claimed island.cardIds
        match normalizeIslandsFrom islandIds cardIds (island.id :: seenIds) claimed rest with
        | .error error => .error error
        | .ok islands => .ok (island.toIr islandIds members :: islands)

def normalizeIslands (sourceIslands : List SourceIsland) (cardIds : List String) :
    Except IRGenerationError (List IrIsland) :=
  let islandIds := (sourceIslands.map SourceIsland.id).filter fun id => decide (id ≠ "")
  match normalizeIslandsFrom islandIds cardIds [] [] sourceIslands with
  | .error error => .error error
  | .ok islands => .ok (sortOn codePointLe IrIsland.id islands)

/-! ## Limits -/

def maxCards : Nat := 200

def maxRelations : Nat := 400

def maxTextChars : Nat := 12000

end KjAtlas
