import KjAtlas.Import.StrictGate

/-! # Applying the operations of a reproposal

The operations of a proposal add, remove and move cards of a document, one after
the other, on a copy of the document. An operation that cannot be applied is
skipped. Arrays of cards are objects in memory: the copy has an array of its
own, and the operations write to the array that they are given.
-/

namespace KjAtlas

open Js
open Importer (cardIds)

namespace Rediff

/-! ## Operations -/

inductive HilRsDiffOpType where
  | add
  | remove
  | move
  | regroup
  | relabel
deriving DecidableEq

structure HilRsDiffOp where
  opId : String
  opType : HilRsDiffOpType
  targetRef : String
  before : JsValue
  after : JsValue

structure HilRsRediffPayload where
  diffOps : List HilRsDiffOp

def splitRef (targetRef : String) : Option (Text × Text) :=
  match targetRef.toList.dropWhile (· != ':') with
  | [] => none
  | _ :: id => some (targetRef.toList.takeWhile (· != ':'), id)

def parseTargetRef (targetRef : String) : Option (EdgeEndpointKind × String) :=
  match splitRef targetRef with
  | none => none
  | some (kind, id) =>
      if id.isEmpty || id.head? == some ':' || id.any isWhiteSpace then none
      else if kind = "card".toList then some (.card, String.ofList id)
      else if kind = "island".toList then some (.island, String.ofList id)
      else none

/-- `typeof value[key] === "number"`. -/
def number? (value : Props) (key : String) : Option JsNumber :=
  match value.get key with
  | some (.number n) => some n
  | _ => none

def buildCardFromAddPayload (targetId : String) (value : JsValue) : Option JsValue :=
  match value with
  | .object props =>
      let after : Props := props
      if after.hasOwn "id" && !decide (after.get "id" = some (.string targetId)) then none
      else
        match after.string? "text", number? after "x", number? after "y" with
        | some text, some x, some y =>
            if x.isFinite && y.isFinite then
              some (.object [("id", some (.string targetId)), ("text", some (.string text)),
                ("x", some (.number x)), ("y", some (.number y))])
            else none
        | _, _, _ => none
  | _ => none

/-- The place that a move names. -/
def movedTo (after : JsValue) : Option (JsNumber × JsNumber) :=
  match number? after.props "x", number? after.props "y" with
  | some x, some y => some (x, y)
  | _, _ => none

def moveCard (x y : JsNumber) (card : JsValue) : JsValue :=
  .object ((card.props.put "x" (some (.number x))).put "y" (some (.number y)))

def hasId (id : String) (card : JsValue) : Bool := decide (card.props.string? "id" = some id)

/-- What an operation makes of an array of cards, and whether it is applied. -/
def cardOpOnArray (cards : List JsValue) (op : HilRsDiffOp) : List JsValue × Bool :=
  match parseTargetRef op.targetRef with
  | some (.card, id) =>
      if hasReviewProtectedField op.before || hasReviewProtectedField op.after then (cards, false)
      else
        match op.opType, cards.findIdx? (hasId id) with
        | .add, none =>
            match buildCardFromAddPayload id op.after with
            | some card => (cards ++ [card], true)
            | none => (cards, false)
        | .remove, some index => (cards.eraseIdx index, true)
        | .move, some index =>
            match movedTo op.after with
            | some (x, y) => (cards.modify index (moveCard x y), true)
            | none => (cards, false)
        | _, _ => (cards, false)
  | _ => (cards, false)

/-! ## Documents in memory -/

/-- The arrays of cards, by their addresses. -/
abbrev Memory := List (List JsValue)

/-- A document with the address of its cards. -/
structure DocumentRef where
  props : Props
  cards : Nat

def Memory.read (memory : Memory) (address : Nat) : List JsValue := (memory[address]?).getD []

def DocumentRef.value (document : DocumentRef) (memory : Memory) : Props :=
  document.props.put "cards" (some (.array (memory.read document.cards)))

/-- `{ ...item }`. -/
def spread (item : JsValue) : JsValue := .object item.props

/-- The copy has new arrays of cards and edges. -/
def cloneDocument (memory : Memory) (document : DocumentRef) : Memory × DocumentRef :=
  let edges := (Strict.elements document.props "edges").map spread
  (memory ++ [(memory.read document.cards).map spread],
    ⟨document.props.put "edges" (some (.array edges)), memory.length⟩)

def applyCardOp (memory : Memory) (document : DocumentRef) (op : HilRsDiffOp) : Memory × Bool :=
  let (cards, applied) := cardOpOnArray (memory.read document.cards) op
  (memory.set document.cards cards, applied)

structure HilRsApplyResult where
  document : DocumentRef
  appliedOpIds : List String
  skippedOpIds : List String

def applyOps (document : DocumentRef) :
    List HilRsDiffOp → Memory × List String × List String → Memory × List String × List String
  | [], state => state
  | op :: ops, (memory, appliedOpIds, skippedOpIds) =>
      match applyCardOp memory document op with
      | (memory, true) => applyOps document ops (memory, appliedOpIds ++ [op.opId], skippedOpIds)
      | (memory, false) => applyOps document ops (memory, appliedOpIds, skippedOpIds ++ [op.opId])

/-- The call at a time `now`. -/
def applyHilRsRediffPayload (now : String) (memory : Memory) (document : DocumentRef)
    (payload : HilRsRediffPayload) : Memory × HilRsApplyResult :=
  let (memory, next) := cloneDocument memory document
  let (memory, appliedOpIds, skippedOpIds) := applyOps next payload.diffOps (memory, [], [])
  (memory, ⟨{ next with props := next.props.put "updatedAt" (some (.string now)) },
    appliedOpIds, skippedOpIds⟩)

/-! ## What an operation does -/

/-- An operation on a card, without protected fields. -/
def HilRsDiffOp.Names (op : HilRsDiffOp) (id : String) : Prop :=
  parseTargetRef op.targetRef = some (.card, id) ∧
    hasReviewProtectedField op.before = false ∧ hasReviewProtectedField op.after = false

/-- An operation that adds a card with a new id. -/
structure HilRsDiffOp.Adds (op : HilRsDiffOp) (cards : List JsValue) (id : String)
    (card : JsValue) : Prop where
  opType : op.opType = .add
  names : op.Names id
  absent : id ∉ cardIds cards
  built : buildCardFromAddPayload id op.after = some card

/-- An operation that removes a card that is there. -/
structure HilRsDiffOp.Removes (op : HilRsDiffOp) (cards : List JsValue) (id : String) : Prop where
  opType : op.opType = .remove
  names : op.Names id
  present : id ∈ cardIds cards

/-- An operation that moves a card that is there. -/
structure HilRsDiffOp.Moves (op : HilRsDiffOp) (cards : List JsValue) (id : String)
    (x y : JsNumber) : Prop where
  opType : op.opType = .move
  names : op.Names id
  present : id ∈ cardIds cards
  place : movedTo op.after = some (x, y)

/-- An operation that can be applied. -/
def HilRsDiffOp.Applies (op : HilRsDiffOp) (cards : List JsValue) : Prop :=
  (∃ id card, op.Adds cards id card) ∨ (∃ id, op.Removes cards id) ∨
    ∃ id x y, op.Moves cards id x y

variable {cards : List JsValue} {id : String} {op : HilRsDiffOp}

theorem mem_cardIds :
    id ∈ cardIds cards ↔ ∃ card ∈ cards, card.props.string? "id" = some id := List.mem_filterMap

theorem findIdx?_eq_none_iff_absent : cards.findIdx? (hasId id) = none ↔ id ∉ cardIds cards := by
  rw [List.findIdx?_eq_none_iff, mem_cardIds]
  constructor
  · rintro hnone ⟨card, hcard, hid⟩
    exact absurd (decide_eq_true hid) (Bool.eq_false_iff.mp (hnone card hcard))
  · intro hnone card hcard
    exact decide_eq_false fun hid => hnone ⟨card, hcard, hid⟩

theorem split_of_findIdx? {index : Nat} (hindex : cards.findIdx? (hasId id) = some index) :
    ∃ before card after, cards = before ++ card :: after ∧ before.length = index ∧
      card.props.string? "id" = some id := by
  obtain ⟨hlt, hid, -⟩ := List.findIdx?_eq_some_iff_getElem.mp hindex
  refine ⟨cards.take index, cards[index], cards.drop (index + 1), ?_, ?_, of_decide_eq_true hid⟩
  · rw [List.getElem_cons_drop, List.take_append_drop]
  · exact List.length_take_of_le (Nat.le_of_lt hlt)

theorem exists_findIdx? (hpresent : id ∈ cardIds cards) :
    ∃ index, cards.findIdx? (hasId id) = some index := by
  cases hindex : cards.findIdx? (hasId id) with
  | none => exact absurd hpresent (findIdx?_eq_none_iff_absent.mp hindex)
  | some index => exact ⟨index, rfl⟩

theorem modify_split {α : Type} (f : α → α) (before : List α) (item : α) (after : List α) :
    (before ++ item :: after).modify before.length f = before ++ f item :: after := by
  induction before with
  | nil => rfl
  | cons head before ih => rw [List.cons_append, List.length_cons, List.modify_succ_cons, ih]; rfl

/-- The effects of operations, one for each kind. -/
inductive Effect (op : HilRsDiffOp) (cards : List JsValue) : List JsValue × Bool → Prop
  | added {id : String} {card : JsValue} (hadds : op.Adds cards id card) :
      Effect op cards (cards ++ [card], true)
  | removed {id : String} {before after : List JsValue} {card : JsValue}
      (hremoves : op.Removes cards id) (hcards : cards = before ++ card :: after)
      (hid : card.props.string? "id" = some id) : Effect op cards (before ++ after, true)
  | moved {id : String} {before after : List JsValue} {card : JsValue} {x y : JsNumber}
      (hmoves : op.Moves cards id x y) (hcards : cards = before ++ card :: after)
      (hid : card.props.string? "id" = some id) :
      Effect op cards (before ++ moveCard x y card :: after, true)
  | skipped (hskipped : ¬ op.Applies cards) : Effect op cards (cards, false)

theorem HilRsDiffOp.Names.eq {other : String} (hnames : op.Names id) (hother : op.Names other) :
    id = other := by
  have heq := hnames.1.symm.trans hother.1
  simpa using heq

theorem HilRsDiffOp.Applies.exists_names (happlies : op.Applies cards) : ∃ id, op.Names id := by
  rcases happlies with ⟨id, card, hadds⟩ | ⟨id, hremoves⟩ | ⟨id, x, y, hmoves⟩
  · exact ⟨id, hadds.names⟩
  · exact ⟨id, hremoves.names⟩
  · exact ⟨id, hmoves.names⟩

theorem HilRsDiffOp.Applies.of_names (hnames : op.Names id) (happlies : op.Applies cards) :
    (op.opType = .add ∧ id ∉ cardIds cards ∧
        ∃ card, buildCardFromAddPayload id op.after = some card) ∨
      (op.opType = .remove ∧ id ∈ cardIds cards) ∨
        (op.opType = .move ∧ id ∈ cardIds cards ∧ ∃ place, movedTo op.after = some place) := by
  rcases happlies with ⟨other, card, hadds⟩ | ⟨other, hremoves⟩ | ⟨other, x, y, hmoves⟩
  · obtain rfl := hnames.eq hadds.names
    exact .inl ⟨hadds.opType, hadds.absent, card, hadds.built⟩
  · obtain rfl := hnames.eq hremoves.names
    exact .inr (.inl ⟨hremoves.opType, hremoves.present⟩)
  · obtain rfl := hnames.eq hmoves.names
    exact .inr (.inr ⟨hmoves.opType, hmoves.present, (x, y), hmoves.place⟩)

/-- What an operation does. -/
theorem effect_cardOpOnArray (op : HilRsDiffOp) (cards : List JsValue) :
    Effect op cards (cardOpOnArray cards op) := by
  unfold cardOpOnArray
  split
  next id htarget =>
    split
    next hprotected =>
      refine .skipped fun happlies => ?_
      obtain ⟨_, hnames⟩ := happlies.exists_names
      simp [hnames.2.1, hnames.2.2] at hprotected
    next hprotected =>
      rw [Bool.or_eq_true, not_or, Bool.not_eq_true, Bool.not_eq_true] at hprotected
      have hnames : op.Names id := ⟨htarget, hprotected⟩
      split
      next hadd hnone =>
        rw [findIdx?_eq_none_iff_absent] at hnone
        split
        next card hbuilt => exact .added ⟨hadd, hnames, hnone, hbuilt⟩
        next hbuilt =>
          refine .skipped fun happlies => ?_
          rcases happlies.of_names hnames with hcase | hcase | hcase <;>
            simp [hadd, hbuilt] at hcase
      next index hremove hindex =>
        obtain ⟨before, card, after, rfl, rfl, hid⟩ := split_of_findIdx? hindex
        rw [List.eraseIdx_append_of_length_le (Nat.le_refl _), Nat.sub_self,
          List.eraseIdx_cons_zero]
        exact .removed ⟨hremove, hnames, mem_cardIds.mpr ⟨card, by simp, hid⟩⟩ rfl hid
      next index hmove hindex =>
        obtain ⟨before, card, after, rfl, rfl, hid⟩ := split_of_findIdx? hindex
        split
        next x y hplace =>
          rw [modify_split]
          exact .moved ⟨hmove, hnames, mem_cardIds.mpr ⟨card, by simp, hid⟩, hplace⟩ rfl hid
        next hplace =>
          refine .skipped fun happlies => ?_
          rcases happlies.of_names hnames with hcase | hcase | hcase <;>
            simp [hmove, hplace] at hcase
      next hadd hremove hmove =>
        refine .skipped fun happlies => ?_
        rcases happlies.of_names hnames with ⟨htype, habsent, -⟩ | ⟨htype, hpresent⟩ |
          ⟨htype, hpresent, -⟩
        · exact hadd htype (findIdx?_eq_none_iff_absent.mpr habsent)
        · obtain ⟨index, hindex⟩ := exists_findIdx? hpresent
          exact hremove index htype hindex
        · obtain ⟨index, hindex⟩ := exists_findIdx? hpresent
          exact hmove index htype hindex
  next htarget =>
    refine .skipped fun happlies => ?_
    obtain ⟨id, hnames⟩ := happlies.exists_names
    exact htarget id hnames.1

/-- An operation is applied exactly when it can be. -/
theorem cardOpOnArray_snd : (cardOpOnArray cards op).2 = true ↔ op.Applies cards := by
  have heffect := effect_cardOpOnArray op cards
  generalize cardOpOnArray cards op = result at heffect
  cases heffect with
  | added hadds => exact ⟨fun _ => .inl ⟨_, _, hadds⟩, fun _ => rfl⟩
  | removed hremoves _ _ => exact ⟨fun _ => .inr (.inl ⟨_, hremoves⟩), fun _ => rfl⟩
  | moved hmoves _ _ => exact ⟨fun _ => .inr (.inr ⟨_, _, _, hmoves⟩), fun _ => rfl⟩
  | skipped hskipped => exact ⟨(nomatch ·), fun happlies => absurd happlies hskipped⟩

end Rediff

end KjAtlas
