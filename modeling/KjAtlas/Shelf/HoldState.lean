import KjAtlas.Shelf.Rules

/-! # Hold states and the shelf

A card that is set aside has the hold state `shelved` and an entry on the shelf.
The update of a hold state writes both.
-/

namespace KjAtlas

open Js

/-! ## The updates -/

inductive HoldState where
  | held
  | pending
  | shelved
deriving DecidableEq

def HoldState.text : HoldState → String
  | .held => "held"
  | .pending => "pending"
  | .shelved => "shelved"

inductive HoldStateSelection where
  | hold (state : HoldState)
  | active
deriving DecidableEq

/-- `selection === "active" ? undefined : selection`, as a value. -/
def HoldStateSelection.nextHoldState : HoldStateSelection → Option JsValue
  | .hold state => some (.string state.text)
  | .active => none

def Card.withHoldState (card : Card) (nextHoldState : Option JsValue) : Card where
  props := (card.props.filter fun prop => !decide (prop.1 = "holdState")) ++
    nextHoldState.toList.map fun state => ("holdState", some state)
  id := card.id
  id_eq := by
    have hid := card.id_eq
    rw [Props.string?] at hid ⊢
    rw [Props.get_append, Props.get_filter_ne, if_neg (by decide)]
    cases hget : card.props.get "id" with
    | none => simp [hget] at hid
    | some value => rwa [hget] at hid

def Card.holdState (card : Card) : Option JsValue := card.props.get "holdState"

/-- Whether an update writes a card. -/
def Card.changesTo (card : Card) (cardId : String) (nextHoldState : Option JsValue) : Bool :=
  decide (card.id = cardId) && !decide (card.holdState = nextHoldState)

def updateCardHoldState (cards : List Card) (cardId : String) (selection : HoldStateSelection) :
    List Card :=
  cards.map fun card =>
    if card.changesTo cardId selection.nextHoldState then
      card.withHoldState selection.nextHoldState
    else card

/-- `document.shelf ?? []`. -/
def DocumentV1.shelf (doc : DocumentV1) : List JsValue :=
  match doc.rest.get "shelf" with
  | some (.array entries) => entries
  | _ => []

/-- `entry.cardId`. -/
def shelfCardId (entry : JsValue) : Option String := entry.props.string? "cardId"

def shelfEntry (cardId shelvedAt : String) : JsValue :=
  .object [("cardId", some (.string cardId)), ("shelvedAt", some (.string shelvedAt))]

def nextShelf (currentShelf : List JsValue) (cardId : String) (selection : HoldStateSelection)
    (shelvedAt : String) : List JsValue :=
  if selection = .hold .shelved then
    if currentShelf.any fun entry => decide (shelfCardId entry = some cardId) then currentShelf
    else currentShelf ++ [shelfEntry cardId shelvedAt]
  else currentShelf.filter fun entry => !decide (shelfCardId entry = some cardId)

/-- The document is returned as it is when no card is written and the shelf is
the same array: filtering makes a new one, also when it removes nothing. -/
def updateCardHoldStateAndShelf (document : DocumentV1) (cardId : String)
    (selection : HoldStateSelection) (shelvedAt : String) : DocumentV1 :=
  let cards := updateCardHoldState document.cards cardId selection
  let cardsChanged := document.cards.any fun card =>
    card.changesTo cardId selection.nextHoldState
  let sameShelf := decide (selection = .hold .shelved) &&
    document.shelf.any fun entry => decide (shelfCardId entry = some cardId)
  let shelf := nextShelf document.shelf cardId selection shelvedAt
  if !cardsChanged && sameShelf then document
  else { document with
    cards := if cardsChanged then cards else document.cards
    rest := document.rest.put "shelf" (if 0 < shelf.length then some (.array shelf) else none) }

/-- The arguments of an update. -/
structure HoldStateCall where
  cardId : String
  selection : HoldStateSelection
  shelvedAt : String

def updateAll (document : DocumentV1) (calls : List HoldStateCall) : DocumentV1 :=
  calls.foldl (fun document call =>
    updateCardHoldStateAndShelf document call.cardId call.selection call.shelvedAt) document

/-! ## Shelf and hold states in step -/

def Card.isShelved (card : Card) : Prop := card.holdState = some (.string "shelved")

def DocumentV1.hasShelfEntry (doc : DocumentV1) (cardId : String) : Prop :=
  some cardId ∈ doc.shelf.map shelfCardId

/-- Entries have distinct card ids, and the shelved cards are those with an entry. -/
structure InStep (doc : DocumentV1) : Prop where
  nodup : (doc.shelf.map shelfCardId).Nodup
  shelved_iff : ∀ card ∈ doc.cards, card.isShelved ↔ doc.hasShelfEntry card.id

@[simp] theorem shelfCardId_shelfEntry (cardId shelvedAt : String) :
    shelfCardId (shelfEntry cardId shelvedAt) = some cardId := by
  simp [shelfCardId, shelfEntry, JsValue.props, Props.string?, Props.get_cons, JsValue.string?]

@[simp] theorem Card.id_withHoldState (card : Card) (nextHoldState : Option JsValue) :
    (card.withHoldState nextHoldState).id = card.id := rfl

@[simp] theorem Card.holdState_withHoldState (card : Card) (nextHoldState : Option JsValue) :
    (card.withHoldState nextHoldState).holdState = nextHoldState := by
  rw [holdState, withHoldState, Props.get_append, Props.get_filter_ne, if_pos rfl, Option.none_or]
  cases nextHoldState with
  | none => rfl
  | some state => rw [Option.toList_some, List.map_singleton, Props.get_cons, if_pos rfl]; rfl

section Update

variable (document : DocumentV1) (cardId : String) (selection : HoldStateSelection)
  (shelvedAt : String)

theorem updateCardHoldState_eq_self {cards : List Card}
    (hsame : (cards.any fun card => card.changesTo cardId selection.nextHoldState) = false) :
    updateCardHoldState cards cardId selection = cards := by
  rw [List.any_eq_false] at hsame
  refine (List.map_congr_left fun card hcard => ?_).trans (List.map_id cards)
  rw [if_neg (hsame card hcard), id]

theorem cards_update :
    (updateCardHoldStateAndShelf document cardId selection shelvedAt).cards =
      updateCardHoldState document.cards cardId selection := by
  unfold updateCardHoldStateAndShelf
  dsimp only
  cases hchanged : document.cards.any fun card => card.changesTo cardId selection.nextHoldState with
  | true => simp
  | false =>
      rw [updateCardHoldState_eq_self cardId selection hchanged]
      split <;> rfl

theorem shelf_update :
    (updateCardHoldStateAndShelf document cardId selection shelvedAt).shelf =
      nextShelf document.shelf cardId selection shelvedAt := by
  unfold updateCardHoldStateAndShelf
  dsimp only
  split
  next hsame =>
    rw [Bool.and_eq_true, Bool.and_eq_true, decide_eq_true_eq] at hsame
    rw [nextShelf, if_pos hsame.2.1, if_pos hsame.2.2]
  next =>
    rw [DocumentV1.shelf, Props.get_put, if_pos rfl]
    cases nextShelf document.shelf cardId selection shelvedAt <;> rfl

/-- Which cards have an entry after an update. -/
theorem mem_nextShelf (shelf : List JsValue) (id : Option String) :
    id ∈ (nextShelf shelf cardId selection shelvedAt).map shelfCardId ↔
      if id = some cardId then selection = .hold .shelved else id ∈ shelf.map shelfCardId := by
  have hany : (shelf.any fun entry => decide (shelfCardId entry = some cardId)) = true ↔
      some cardId ∈ shelf.map shelfCardId := by
    simp only [List.any_eq_true, decide_eq_true_eq, List.mem_map]
  rw [nextShelf]
  by_cases hselection : selection = .hold .shelved
  · rw [if_pos hselection]
    by_cases hexisting : some cardId ∈ shelf.map shelfCardId
    · rw [if_pos (hany.mpr hexisting)]
      split
      next hid => exact iff_of_true (hid ▸ hexisting) hselection
      next => rfl
    · rw [if_neg (mt hany.mp hexisting), List.map_append, List.mem_append]
      by_cases hid : id = some cardId <;> simp [hid, hselection]
  · rw [if_neg hselection]
    split
    next hid => simp [hid, hselection]
    next hid =>
      simp only [List.mem_map, List.mem_filter, Bool.not_eq_true', decide_eq_false_iff_not]
      constructor
      · rintro ⟨entry, ⟨hentry, -⟩, rfl⟩
        exact ⟨entry, hentry, rfl⟩
      · rintro ⟨entry, hentry, rfl⟩
        exact ⟨entry, ⟨hentry, hid⟩, rfl⟩

theorem nodup_nextShelf {shelf : List JsValue} (hnodup : (shelf.map shelfCardId).Nodup) :
    ((nextShelf shelf cardId selection shelvedAt).map shelfCardId).Nodup := by
  rw [nextShelf]
  split
  · split
    next => exact hnodup
    next hnew =>
      rw [List.map_append, List.map_singleton, shelfCardId_shelfEntry]
      refine List.nodup_append.mpr ⟨hnodup, List.nodup_singleton _, ?_⟩
      rintro id hid other hother rfl
      rw [List.mem_singleton] at hother
      subst hother
      obtain ⟨entry, hentry, hid⟩ := List.mem_map.mp hid
      exact hnew (List.any_eq_true.mpr ⟨entry, hentry, decide_eq_true hid⟩)
  · exact hnodup.sublist (List.filter_sublist.map _)

variable {document}

theorem InStep.update (hstep : InStep document) :
    InStep (updateCardHoldStateAndShelf document cardId selection shelvedAt) := by
  refine ⟨?_, fun card hcard => ?_⟩
  · rw [shelf_update]
    exact nodup_nextShelf cardId selection shelvedAt hstep.nodup
  · have hnext : selection.nextHoldState = some (.string "shelved") ↔
        selection = .hold .shelved := by
      rcases selection with ⟨state⟩ | _
      · cases state <;> simp [HoldStateSelection.nextHoldState, HoldState.text]
      · simp [HoldStateSelection.nextHoldState]
    rw [cards_update] at hcard
    obtain ⟨before, hbefore, rfl⟩ := List.mem_map.mp hcard
    rw [DocumentV1.hasShelfEntry, shelf_update, mem_nextShelf]
    split
    next hchanges =>
      have hid : before.id = cardId :=
        of_decide_eq_true (Bool.and_eq_true_iff.mp hchanges).1
      rw [Card.id_withHoldState, if_pos (congrArg some hid), Card.isShelved,
        Card.holdState_withHoldState, hnext]
    next hsame =>
      by_cases hid : before.id = cardId
      · rw [if_pos (congrArg some hid), Card.isShelved, ← hnext]
        have hstate : before.holdState = selection.nextHoldState := by
          by_contra hne
          exact hsame (Bool.and_eq_true_iff.mpr ⟨decide_eq_true hid,
            by rw [decide_eq_false hne, Bool.not_false]⟩)
        rw [hstate]
      · rw [if_neg (mt Option.some.inj hid)]
        exact hstep.shelved_iff before hbefore

theorem InStep.updateAll (hstep : InStep document) (calls : List HoldStateCall) :
    InStep (updateAll document calls) := by
  induction calls generalizing document with
  | nil => exact hstep
  | cons call calls ih => exact ih (hstep.update call.cardId call.selection call.shelvedAt)

end Update

end KjAtlas
