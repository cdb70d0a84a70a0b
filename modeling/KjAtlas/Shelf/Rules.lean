import KjAtlas.Domain.Types
import KjAtlas.Js.Date

/-! # The shelf rules of the strict check

Each entry of the shelf has the shape of an entry, and names another card of the
document than the entries before it, whose hold state is `shelved`.
-/

namespace KjAtlas

open Js

/-! ## Shapes -/

/-- `Object.keys(value)`. -/
def objectKeys : JsValue → List String
  | .object props => Props.names props
  | .array items => (List.range items.length).map toString
  | _ => []

def hasOnlyKeys (value : JsValue) (allowedKeys : List String) (path : String) : List String :=
  ((objectKeys value).filter fun key => !allowedKeys.contains key).map fun key =>
    path ++ ": unknown field '" ++ key ++ "'"

/-- `typeof value === "string" && value.trim().length > 0`. -/
def isNonEmptyString (value : Option JsValue) : Bool :=
  (value.bind JsValue.string?).any fun text => decide (trim text ≠ "")

section Strict

variable (dates : DateFormat)

def isIsoTimestamp (value : Option JsValue) : Bool :=
  dates.isTimestamp (value.bind JsValue.string?)

/-- The errors of an entry, and whether it is checked any further. -/
def validateShelfEntry (item : JsValue) (index : Nat) : List String × Bool :=
  let path := "shelf[" ++ toString index ++ "]"
  if item.isRecord then
    let entry := item.props
    let fieldErrors :=
      (if isNonEmptyString (entry.get "cardId") then []
        else [path ++ ".cardId: must be a non-empty string"]) ++
      (if isIsoTimestamp dates (entry.get "shelvedAt") then []
        else [path ++ ".shelvedAt: must be an ISO timestamp"]) ++
      (if (entry.get "reason").all fun reason => reason.string?.isSome then []
        else [path ++ ".reason: must be a string when provided"])
    (hasOnlyKeys item ["cardId", "shelvedAt", "reason"] path ++ fieldErrors, fieldErrors.isEmpty)
  else ([path ++ ": must be an object"], false)

/-- `cardById`: the last card of each id. -/
def cardById (cards : List JsValue) : InsertionMap String Props :=
  .ofList (cards.filterMap fun card =>
    if card.isRecord then (card.props.string? "id").map fun id => (id, card.props) else none)

def shelfCardErrors (cards : InsertionMap String Props) (seenCardIds : List String) (index : Nat)
    (cardId : String) : List String :=
  let path := "shelf[" ++ toString index ++ "].cardId"
  (if seenCardIds.contains cardId then [path ++ ": duplicate card id '" ++ cardId ++ "'"]
    else []) ++
  match cards.get? cardId with
  | none => [path ++ ": unknown card '" ++ cardId ++ "'"]
  | some card =>
      if card.get "holdState" = some (.string "shelved") then []
      else [path ++ ": card '" ++ cardId ++ "' must have holdState 'shelved'"]

def shelfEntriesErrors (cards : InsertionMap String Props) :
    Nat → List String → List JsValue → List String
  | _, _, [] => []
  | index, seenCardIds, item :: items =>
      let (errors, valid) := validateShelfEntry dates item index
      if valid then
        let cardId := (item.props.string? "cardId").getD ""
        errors ++ shelfCardErrors cards seenCardIds index cardId ++
          shelfEntriesErrors cards (index + 1) (cardId :: seenCardIds) items
      else errors ++ shelfEntriesErrors cards (index + 1) seenCardIds items

def shelfErrors (value : Props) : List String :=
  match value.get "shelf" with
  | none => []
  | some (.array shelf) =>
      let cards := match value.get "cards" with
        | some (.array cards) => cards
        | _ => []
      shelfEntriesErrors dates (cardById cards) 0 [] shelf
  | some _ => ["document.shelf: must be an array when provided"]

/-! ## What the rules say -/

structure ShelfEntryShape (item : JsValue) (cardId : String) : Prop where
  isRecord : item.isRecord = true
  keys : ∀ key ∈ objectKeys item, key ∈ ["cardId", "shelvedAt", "reason"]
  cardId_eq : item.props.string? "cardId" = some cardId
  cardId_ne : trim cardId ≠ ""
  shelvedAt : isIsoTimestamp dates (item.props.get "shelvedAt") = true
  reason : ((item.props.get "reason").all fun reason => reason.string?.isSome) = true

theorem hasOnlyKeys_eq_nil {value : JsValue} {allowedKeys : List String} {path : String} :
    hasOnlyKeys value allowedKeys path = [] ↔ ∀ key ∈ objectKeys value, key ∈ allowedKeys := by
  rw [hasOnlyKeys, List.map_eq_nil_iff, List.filter_eq_nil_iff]
  refine forall₂_congr fun key _ => ?_
  rw [Bool.not_eq_true, Bool.not_eq_false', List.contains_iff_mem]

theorem ite_nil_eq_nil {p : Bool} {error : String} :
    (if p then [] else [error]) = [] ↔ p = true := by
  cases p <;> simp

theorem validateShelfEntry_fst_eq_nil {item : JsValue} {index : Nat} :
    (validateShelfEntry dates item index).1 = [] ↔
      ∃ cardId, ShelfEntryShape dates item cardId := by
  unfold validateShelfEntry
  dsimp only
  split
  next hrecord =>
    rw [List.append_eq_nil_iff, List.append_eq_nil_iff, List.append_eq_nil_iff,
      hasOnlyKeys_eq_nil, ite_nil_eq_nil, ite_nil_eq_nil, ite_nil_eq_nil]
    constructor
    · rintro ⟨hkeys, ⟨hcardId, hshelvedAt⟩, hreason⟩
      rw [isNonEmptyString, Option.any_eq_true] at hcardId
      obtain ⟨cardId, hcardId, hblank⟩ := hcardId
      exact ⟨cardId, hrecord, hkeys, hcardId, of_decide_eq_true hblank, hshelvedAt, hreason⟩
    · rintro ⟨cardId, hshape⟩
      refine ⟨hshape.keys, ⟨?_, hshape.shelvedAt⟩, hshape.reason⟩
      rw [isNonEmptyString, Option.any_eq_true]
      exact ⟨cardId, hshape.cardId_eq, decide_eq_true hshape.cardId_ne⟩
  next hrecord =>
    constructor
    · exact fun herror => nomatch herror
    · exact fun ⟨_, hshape⟩ => absurd hshape.isRecord hrecord

theorem validateShelfEntry_snd {item : JsValue} {index : Nat}
    (hnil : (validateShelfEntry dates item index).1 = []) :
    (validateShelfEntry dates item index).2 = true := by
  unfold validateShelfEntry at hnil ⊢
  dsimp only at hnil ⊢
  split at hnil
  next hrecord =>
    rw [List.append_eq_nil_iff] at hnil
    rw [if_pos hrecord, hnil.2]
    rfl
  next => cases hnil

variable {cards : InsertionMap String Props}

theorem shelfCardErrors_eq_nil {seenCardIds : List String} {index : Nat} {cardId : String} :
    shelfCardErrors cards seenCardIds index cardId = [] ↔
      cardId ∉ seenCardIds ∧
        ∃ card, cards.get? cardId = some card ∧
          card.get "holdState" = some (.string "shelved") := by
  unfold shelfCardErrors
  dsimp only
  rw [List.append_eq_nil_iff]
  refine and_congr ?_ ?_
  · by_cases hseen : cardId ∈ seenCardIds <;> simp [hseen]
  · cases cards.get? cardId with
    | none => simp
    | some card => by_cases hshelved : card.get "holdState" = some (.string "shelved") <;>
        simp [hshelved]

/-- The loop reports nothing when every entry has its shape and names a new,
shelved card. -/
theorem shelfEntriesErrors_eq_nil {items : List JsValue} :
    ∀ {index : Nat} {seenCardIds : List String},
      shelfEntriesErrors dates cards index seenCardIds items = [] ↔
        ∃ cardIds, List.Forall₂ (ShelfEntryShape dates) items cardIds ∧ cardIds.Nodup ∧
          (∀ cardId ∈ cardIds, cardId ∉ seenCardIds) ∧
            ∀ cardId ∈ cardIds, ∃ card, cards.get? cardId = some card ∧
              card.get "holdState" = some (.string "shelved") := by
  induction items with
  | nil =>
      intro index seenCardIds
      refine ⟨fun _ => ⟨[], .nil, List.nodup_nil, ?_, ?_⟩, fun _ => rfl⟩
      · exact fun _ hmem => absurd hmem List.not_mem_nil
      · exact fun _ hmem => absurd hmem List.not_mem_nil
  | cons item items ih =>
      intro index seenCardIds
      rw [shelfEntriesErrors]
      dsimp only
      constructor
      · intro hnil
        have herrors : (validateShelfEntry dates item index).1 = [] := by
          split at hnil
          next =>
            rw [List.append_eq_nil_iff, List.append_eq_nil_iff] at hnil
            exact hnil.1.1
          next =>
            rw [List.append_eq_nil_iff] at hnil
            exact hnil.1
        rw [validateShelfEntry_snd dates herrors, if_pos rfl, List.append_eq_nil_iff,
          List.append_eq_nil_iff] at hnil
        obtain ⟨cardId, hshape⟩ := (validateShelfEntry_fst_eq_nil dates).mp herrors
        rw [hshape.cardId_eq, Option.getD_some, shelfCardErrors_eq_nil, ih] at hnil
        obtain ⟨⟨-, hnew, hcard⟩, cardIds, hshapes, hnodup, hunseen, hcards⟩ := hnil
        refine ⟨cardId :: cardIds, .cons hshape hshapes, List.nodup_cons.mpr ⟨?_, hnodup⟩, ?_, ?_⟩
        · exact fun hmem => hunseen cardId hmem List.mem_cons_self
        · refine List.forall_mem_cons.mpr ⟨hnew, fun other hother hseen => ?_⟩
          exact hunseen other hother (List.mem_cons_of_mem _ hseen)
        · exact List.forall_mem_cons.mpr ⟨hcard, hcards⟩
      · rintro ⟨cardIds, hshapes, hnodup, hunseen, hcards⟩
        cases hshapes with
        | @cons _ cardId _ cardIds hshape hshapes =>
            rw [List.nodup_cons] at hnodup
            rw [List.forall_mem_cons] at hunseen hcards
            have herrors := (@validateShelfEntry_fst_eq_nil dates item index).mpr
              ⟨cardId, hshape⟩
            rw [validateShelfEntry_snd dates herrors, if_pos rfl, herrors, hshape.cardId_eq,
              Option.getD_some, List.nil_append, List.append_eq_nil_iff, shelfCardErrors_eq_nil, ih]
            refine ⟨⟨hunseen.1, hcards.1⟩, cardIds, hshapes, hnodup.2, ?_, hcards.2⟩
            intro other hother hseen
            rcases List.mem_cons.mp hseen with rfl | hseen
            · exact hnodup.1 hother
            · exact hunseen.2 other hother hseen

end Strict

end KjAtlas
