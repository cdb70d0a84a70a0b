import KjAtlas.Domain.Types

/-! # Canonical cards

Several cards are consolidated into a new card. The sources stay in the document
and point to the new card, which lists them.
-/

namespace KjAtlas

open Js

/-! ## Entities with other properties -/

def Card.put (card : Card) (key : String) (value : Option JsValue) (hkey : "id" ≠ key) : Card where
  props := card.props.put key value
  id := card.id
  id_eq := by rw [Props.string?_put, if_neg hkey, card.id_eq]

theorem id_ne_canonicalId : "id" ≠ "canonicalId" := by decide

def Card.text? (card : Card) (key : String) : Option String := card.props.string? key

def Card.canonicalId (card : Card) : Option String := card.text? "canonicalId"

def Card.mergedIntoCardId (card : Card) : Option String := card.text? "mergedIntoCardId"

/-- `card.sources ?? []`. -/
def Card.sources (card : Card) : List String := (card.props.strings? "sources").getD []

/-- `card.repOf ?? []`. -/
def Card.repOf (card : Card) : List String := (card.props.strings? "repOf").getD []

def Island.withCardIds (island : Island) (cardIds : List String) : Island where
  props := island.props.put "cardIds" (some (textArray cardIds))
  id := island.id
  cardIds
  id_eq := by rw [Props.string?_put, if_neg (by decide), island.id_eq]
  cardIds_eq := by rw [Props.strings?_put, if_pos rfl, Option.bind_some, strings?_textArray]

/-! ## Canonicalization -/

/-- The arguments; of the factory, the id that it makes. -/
structure ApplyCanonicalizationInput where
  sourceCardIds : List String
  mergedText : String
  canonicalId : Option String
  canonicalIdFactory : Option String

structure ApplyCanonicalizationResult where
  document : DocumentV1
  canonicalId : String

def updateIslands (islands : List Island) (sourceCardIds : List String) (canonicalId : String) :
    List Island :=
  islands.map fun island =>
    let containsSourceCard := island.cardIds.any sourceCardIds.contains
    if !containsSourceCard || island.cardIds.contains canonicalId then island
    else island.withCardIds (island.cardIds ++ [canonicalId])

def updateReadingOrder (readingOrder : Option (List String)) (sourceCardIds : List String)
    (canonicalId : String) : Option (List String) :=
  readingOrder.map fun order =>
    match order.findIdx? sourceCardIds.contains with
    | none => order
    | some firstSourceIndex =>
        let filteredReadingOrder := order.filter fun cardId => !sourceCardIds.contains cardId
        let insertionIndex := min firstSourceIndex filteredReadingOrder.length
        filteredReadingOrder.take insertionIndex ++ [canonicalId] ++
          filteredReadingOrder.drop insertionIndex

def canonicalCard (canonicalId text : String) (position : JsNumber × JsNumber)
    (sourceCardIds : List String) : Card where
  props := [("id", some (.string canonicalId)), ("text", some (.string text)),
    ("x", some (.number position.1)), ("y", some (.number position.2)),
    ("sources", some (textArray sourceCardIds)), ("textReviewed", some (.bool false))]
  id := canonicalId
  id_eq := by simp [Props.string?, Props.get_cons, JsValue.string?]

/-- The average of the positions of cards is a sum and a quotient of rounded
numbers; what it is does not matter here. -/
def applyCanonicalization (averagePosition : List Card → JsNumber × JsNumber)
    (document : DocumentV1) (input : ApplyCanonicalizationInput) :
    Except String ApplyCanonicalizationResult :=
  let sourceCardIds := distinct input.sourceCardIds
  if sourceCardIds.length < 2 then
    .error "applyCanonicalization requires at least 2 source card ids"
  else
    let sourceCards := document.cards.filter fun card => sourceCardIds.contains card.id
    if sourceCards.length ≠ sourceCardIds.length then
      .error "applyCanonicalization source cards must exist in document"
    else
      match (input.canonicalId.or input.canonicalIdFactory).filter fun id => decide (id ≠ "") with
      | none => .error "applyCanonicalization requires canonicalId or canonicalIdFactory"
      | some canonicalId =>
          if document.cards.any fun card => decide (card.id = canonicalId) then
            .error "applyCanonicalization canonical id already exists"
          else
            let nextCards := (document.cards.map fun card =>
              if sourceCardIds.contains card.id then
                card.put "canonicalId" (some (.string canonicalId)) id_ne_canonicalId
              else card) ++
                [canonicalCard canonicalId input.mergedText (averagePosition sourceCards)
                  sourceCardIds]
            .ok {
              canonicalId
              document := { document with
                cards := nextCards
                islands := updateIslands document.islands sourceCardIds canonicalId
                readingOrder :=
                  updateReadingOrder document.readingOrder sourceCardIds canonicalId } }

end KjAtlas
