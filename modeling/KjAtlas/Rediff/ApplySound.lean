import KjAtlas.Rediff.Apply

/-! # Which reproposals leave a sound document

A removed card stays named by islands, relations, evidence, the shelf and the
reading order, and a move takes any numbers. The results of the operations are
sound exactly as long as every removal takes away a card that nothing names,
every move leads to finite coordinates, and operations that share an id are all
applied or all skipped. What is reviewed is kept in any case.
-/

namespace KjAtlas

open Js
open Importer (cardIds)
open Strict (elements)

namespace Rediff

/-! ## Runs of operations -/

def cardsAfter (cards : List JsValue) (ops : List HilRsDiffOp) : List JsValue :=
  ops.foldl (fun cards op => (cardOpOnArray cards op).1) cards

/-- The operations, each with whether it is applied. -/
def outcomes : List JsValue → List HilRsDiffOp → List (HilRsDiffOp × Bool)
  | _, [] => []
  | cards, op :: ops =>
      (op, (cardOpOnArray cards op).2) :: outcomes (cardOpOnArray cards op).1 ops

/-- The ids of the operations that are applied, or of those that are skipped. -/
def idsOf (applied : Bool) (outcomes : List (HilRsDiffOp × Bool)) : List String :=
  (outcomes.filter fun outcome => outcome.2 == applied).map fun outcome => outcome.1.opId

variable {cards : List JsValue} {ops : List HilRsDiffOp} {op : HilRsDiffOp}

@[simp] theorem cardsAfter_nil : cardsAfter cards [] = cards := rfl

theorem cardsAfter_snoc (ops : List HilRsDiffOp) (op : HilRsDiffOp) :
    cardsAfter cards (ops ++ [op]) = (cardOpOnArray (cardsAfter cards ops) op).1 := by
  rw [cardsAfter, List.foldl_append]
  rfl

/-- What every operation keeps, the operations from some point on keep. -/
theorem cardsAfter_induction {P : List JsValue → Prop} {earlier : List HilRsDiffOp}
    (hstep : ∀ taken op rest, ops = taken ++ op :: rest → P (cardsAfter cards taken) →
      P (cardOpOnArray (cardsAfter cards taken) op).1)
    (hearly : earlier <+: ops) (hearlier : P (cardsAfter cards earlier)) :
    P (cardsAfter cards ops) := by
  obtain ⟨later, rfl⟩ := hearly
  suffices hlater : ∀ middle rest, later = middle ++ rest →
      P (cardsAfter cards (earlier ++ middle)) from hlater later [] (List.append_nil later).symm
  intro middle
  induction middle using List.reverseRecOn with
  | nil => exact fun _ _ => by rwa [List.append_nil]
  | append_singleton middle op ih =>
      intro rest hsplit
      rw [← List.append_assoc, cardsAfter_snoc]
      refine hstep (earlier ++ middle) op rest ?_ (ih (op :: rest) ?_)
      · rw [hsplit]
        simp
      · rw [hsplit]
        simp

theorem outcomes_snoc (cards : List JsValue) (ops : List HilRsDiffOp) (op : HilRsDiffOp) :
    outcomes cards (ops ++ [op]) =
      outcomes cards ops ++ [(op, (cardOpOnArray (cardsAfter cards ops) op).2)] := by
  induction ops generalizing cards with
  | nil => rfl
  | cons head ops ih => rw [List.cons_append, outcomes, ih, outcomes]; rfl

theorem mem_outcomes {applied : Bool} :
    (op, applied) ∈ outcomes cards ops ↔ ∃ taken rest, ops = taken ++ op :: rest ∧
      (cardOpOnArray (cardsAfter cards taken) op).2 = applied := by
  induction ops generalizing cards with
  | nil => simp [outcomes]
  | cons head ops ih =>
      rw [outcomes, List.mem_cons, ih, Prod.mk.injEq]
      constructor
      · rintro (⟨rfl, rfl⟩ | ⟨taken, rest, rfl, happlied⟩)
        · exact ⟨[], ops, rfl, rfl⟩
        · exact ⟨head :: taken, rest, rfl, happlied⟩
      · rintro ⟨taken, rest, hsplit, happlied⟩
        cases taken with
        | nil =>
            rw [List.nil_append, List.cons.injEq] at hsplit
            obtain ⟨rfl, rfl⟩ := hsplit
            exact .inl ⟨rfl, happlied.symm⟩
        | cons first taken =>
            rw [List.cons_append, List.cons.injEq] at hsplit
            obtain ⟨rfl, rfl⟩ := hsplit
            exact .inr ⟨taken, rest, rfl, happlied⟩

theorem mem_idsOf {applied : Bool} {opId : String} :
    opId ∈ idsOf applied (outcomes cards ops) ↔
      ∃ taken op rest, ops = taken ++ op :: rest ∧ op.opId = opId ∧
        (cardOpOnArray (cardsAfter cards taken) op).2 = applied := by
  rw [idsOf, List.mem_map]
  constructor
  · rintro ⟨⟨op, flag⟩, hfilter, hid⟩
    obtain ⟨houtcome, hflag⟩ := List.mem_filter.mp hfilter
    obtain rfl : flag = applied := eq_of_beq hflag
    obtain ⟨taken, rest, hsplit, happlied⟩ := mem_outcomes.mp houtcome
    exact ⟨taken, op, rest, hsplit, hid, happlied⟩
  · rintro ⟨taken, op, rest, hsplit, hid, happlied⟩
    refine ⟨(op, applied), List.mem_filter.mpr ⟨?_, beq_self_eq_true _⟩, hid⟩
    exact mem_outcomes.mpr ⟨taken, rest, hsplit, happlied⟩

/-! ## The call -/

theorem read_append (memory : Memory) (cards : List JsValue) :
    Memory.read (memory ++ [cards]) memory.length = cards := by
  simp [Memory.read]

theorem set_append (memory : Memory) (cards next : List JsValue) :
    (memory ++ [cards]).set memory.length next = memory ++ [next] := by
  simp

/-- The loop writes to the array of its document only. -/
theorem applyOps_eq (props : Props) (memory : Memory) (ops : List HilRsDiffOp) :
    ∀ (cards : List JsValue) (appliedOpIds skippedOpIds : List String),
      applyOps ⟨props, memory.length⟩ ops (memory ++ [cards], appliedOpIds, skippedOpIds) =
        (memory ++ [cardsAfter cards ops], appliedOpIds ++ idsOf true (outcomes cards ops),
          skippedOpIds ++ idsOf false (outcomes cards ops)) := by
  induction ops with
  | nil => simp [applyOps, outcomes, idsOf]
  | cons op ops ih =>
      intro cards appliedOpIds skippedOpIds
      unfold applyOps applyCardOp
      dsimp only
      rw [read_append, set_append]
      cases happlied : (cardOpOnArray cards op).2 with
      | true =>
          dsimp only
          rw [ih, cardsAfter, cardsAfter, List.foldl_cons, outcomes, happlied]
          simp [idsOf]
      | false =>
          dsimp only
          rw [ih, cardsAfter, cardsAfter, List.foldl_cons, outcomes, happlied]
          simp [idsOf]

section Call

variable (now : String) (memory : Memory) (document : DocumentRef)

/-- The document that is returned, as a value. -/
def rediffed (ops : List HilRsDiffOp) : Props :=
  let (memory, result) := applyHilRsRediffPayload now memory document ⟨ops⟩
  result.document.value memory

def returnedIds (applied : Bool) (ops : List HilRsDiffOp) : List String :=
  let (_, result) := applyHilRsRediffPayload now memory document ⟨ops⟩
  if applied then result.appliedOpIds else result.skippedOpIds

theorem applyHilRsRediffPayload_eq (ops : List HilRsDiffOp) :
    applyHilRsRediffPayload now memory document ⟨ops⟩ =
      let cards := (memory.read document.cards).map spread
      let edges := (elements document.props "edges").map spread
      (memory ++ [cardsAfter cards ops],
        ⟨⟨(document.props.put "edges" (some (.array edges))).put "updatedAt" (some (.string now)),
          memory.length⟩, idsOf true (outcomes cards ops), idsOf false (outcomes cards ops)⟩) := by
  rw [applyHilRsRediffPayload, cloneDocument]
  dsimp only
  rw [applyOps_eq]
  rfl

end Call

/-! ## Accepted documents -/

variable {doc : Props} {value : JsValue}

theorem checks_of_accepted {platform : Platform}
    (hstrict : Strict.validateDocumentV1Strict platform (.object doc) = []) :
    ∀ check ∈ Strict.documentChecks platform, check "document" doc = [] :=
  (Strict.validateRecord_eq_nil.mp hstrict).2.2

variable {key id : String} {card : JsValue} {result : List JsValue × Bool}
  {taken : List HilRsDiffOp}

theorem elements_checked {validate : JsValue → Nat → List String}
    (hcheck : Strict.mustBeArray key validate "document" doc = []) :
    doc.get key = some (.array (elements doc key)) ∧
      ∀ item ∈ elements doc key, ∃ index, validate item index = [] := by
  unfold Strict.mustBeArray at hcheck
  split at hcheck
  next items hget =>
    rw [Strict.elements_eq hget]
    refine ⟨hget, fun item hitem => ?_⟩
    obtain ⟨index, hindex, rfl⟩ := List.getElem_of_mem hitem
    exact ⟨index, Strict.forEach_eq_nil.mp hcheck index hindex⟩
  next => cases hcheck

theorem spread_of_string? {item : JsValue} {text : String}
    (htext : item.props.string? key = some text) : spread item = item := by
  cases item with
  | object props => rfl
  | _ => cases htext

theorem string?_of_mustBeString {path : String} {props : Props}
    (hcheck : Strict.mustBeString key path props = []) : ∃ text, props.string? key = some text := by
  rw [Strict.must_eq_nil, Option.any_eq_true] at hcheck
  obtain ⟨value, hget, hvalue⟩ := hcheck
  obtain ⟨text, rfl⟩ := Shape.eq_string hvalue
  exact ⟨text, by rw [Props.string?, hget]; rfl⟩

def coordinates : List String := ["x", "y"]

/-- Both coordinates are finite numbers. -/
def IsPlaced (card : JsValue) : Prop :=
  ∀ key ∈ coordinates, (card.props.get key).any Strict.finite = true

/-- A card that is accepted. -/
structure CheckedCard (card : JsValue) : Prop where
  id : ∃ id, card.props.string? "id" = some id
  placed : IsPlaced card

theorem checkedCard_of_validateCard {index : Nat} (hcheck : Strict.validateCard card index = []) :
    CheckedCard card := by
  obtain ⟨-, -, hchecks⟩ := Strict.validateRecord_eq_nil.mp hcheck
  have hid := hchecks (Strict.mustBeString "id") (by simp [Strict.cardChecks])
  refine ⟨string?_of_mustBeString hid, fun key hkey => ?_⟩
  have hfinite := hchecks (Strict.mustBeFinite key) (by
    simp only [coordinates, List.mem_cons, List.not_mem_nil, or_false] at hkey
    rcases hkey with rfl | rfl <;> simp [Strict.cardChecks])
  exact Strict.must_eq_nil.mp hfinite

/-! ## What one operation keeps -/

theorem cardIds_append (left right : List JsValue) :
    cardIds (left ++ right) = cardIds left ++ cardIds right := List.filterMap_append

theorem cardIds_split {before after : List JsValue} (hid : card.props.string? "id" = some id) :
    cardIds (before ++ card :: after) = cardIds before ++ id :: cardIds after := by
  rw [cardIds_append, cardIds, cardIds, cardIds, List.filterMap_cons, hid]

theorem get_moveCard (x y : JsNumber) (card : JsValue) (key : String) :
    (moveCard x y card).props.get key =
      if key = "y" then some (.number y) else if key = "x" then some (.number x)
        else card.props.get key := by
  change Props.get (Props.put _ _ _) _ = _
  rw [Props.get_put, Props.get_put]

theorem string?_moveCard (x y : JsNumber) (card : JsValue) :
    (moveCard x y card).props.string? "id" = card.props.string? "id" := by
  rw [Props.string?, get_moveCard, if_neg (by decide), if_neg (by decide)]
  rfl

/-- A card as it is built for an operation. -/
theorem buildCardFromAddPayload_eq_some (hbuilt : buildCardFromAddPayload id value = some card) :
    ∃ text x y, x.isFinite = true ∧ y.isFinite = true ∧
      card = .object [("id", some (.string id)), ("text", some (.string text)),
        ("x", some (.number x)), ("y", some (.number y))] := by
  unfold buildCardFromAddPayload at hbuilt
  split at hbuilt
  next props =>
    dsimp only at hbuilt
    split at hbuilt
    next => cases hbuilt
    next =>
      split at hbuilt
      next text x y _ _ _ =>
        split at hbuilt
        next hfinite =>
          rw [Bool.and_eq_true] at hfinite
          exact ⟨text, x, y, hfinite.1, hfinite.2, (Option.some.inj hbuilt).symm⟩
        next => cases hbuilt
      next => cases hbuilt
  next => cases hbuilt

theorem string?_of_built (hbuilt : buildCardFromAddPayload id value = some card) :
    card.props.string? "id" = some id := by
  obtain ⟨text, x, y, -, -, rfl⟩ := buildCardFromAddPayload_eq_some hbuilt
  rfl

section

variable (heffect : Effect op cards result)
include heffect

theorem cardIds_of_effect :
    (∃ id card, op.Adds cards id card ∧ cardIds result.1 = cardIds cards ++ [id]) ∨
      (∃ id before after, op.Removes cards id ∧ cardIds cards = before ++ id :: after ∧
        cardIds result.1 = before ++ after) ∨
      cardIds result.1 = cardIds cards := by
  cases heffect with
  | @added id card hadds =>
      refine .inl ⟨id, card, hadds, ?_⟩
      rw [cardIds_append, cardIds, cardIds, List.filterMap_cons, string?_of_built hadds.built]
      rfl
  | @removed id before after card hremoves hcards hid =>
      refine .inr (.inl ⟨id, cardIds before, cardIds after, hremoves, ?_, cardIds_append _ _⟩)
      rw [hcards, cardIds_split hid]
  | @moved id before after card x y hmoves hcards hid =>
      refine .inr (.inr ?_)
      rw [hcards, cardIds_split hid, cardIds_split ((string?_moveCard x y card).trans hid)]
  | skipped hskipped => exact .inr (.inr rfl)

/-- Ids stay distinct. -/
theorem nodup_of_effect (hnodup : (cardIds cards).Nodup) : (cardIds result.1).Nodup := by
  rcases cardIds_of_effect heffect with ⟨id, card, hadds, hids⟩ |
    ⟨id, before, after, -, hbefore, hids⟩ | hids
  · rw [hids, List.nodup_append]
    refine ⟨hnodup, List.nodup_singleton id, fun other hother added hadded => ?_⟩
    rintro rfl
    rw [List.mem_singleton.mp hadded] at hother
    exact hadds.absent hother
  · rw [hbefore] at hnodup
    rw [hids]
    exact hnodup.sublist (List.Sublist.append_left (List.sublist_cons_self _ _) _)
  · rwa [hids]

theorem mem_cardIds_of_effect (hid : id ∈ cardIds cards)
    (hkept : ¬ op.Removes cards id) : id ∈ cardIds result.1 := by
  rcases cardIds_of_effect heffect with ⟨other, card, -, hids⟩ |
    ⟨other, before, after, hremoves, hbefore, hids⟩ | hids
  · rw [hids]
    exact List.mem_append_left _ hid
  · have hne : id ≠ other := by
      rintro rfl
      exact hkept hremoves
    rw [hbefore, List.mem_append, List.mem_cons] at hid
    rw [hids, List.mem_append]
    tauto
  · rwa [hids]

theorem not_mem_cardIds_of_removes
    (hnodup : (cardIds cards).Nodup) (hremoves : op.Removes cards id) : id ∉ cardIds result.1 := by
  cases heffect with
  | @added other card hadds => exact absurd (hadds.opType.symm.trans hremoves.opType) (by decide)
  | @removed other before after card hother hcards hid =>
      obtain rfl := hremoves.names.eq hother.names
      rw [hcards, cardIds_split hid, List.nodup_middle, List.nodup_cons] at hnodup
      rw [cardIds_append]
      exact hnodup.1
  | @moved other before after card x y hmoves hcards hid =>
      exact absurd (hmoves.opType.symm.trans hremoves.opType) (by decide)
  | skipped hskipped => exact absurd (.inr (.inl ⟨id, hremoves⟩)) hskipped

/-- Where the cards after an operation come from. -/
theorem mem_of_effect (hcard : card ∈ result.1) :
    card ∈ cards ∨ (∃ id, op.Adds cards id card) ∨
      ∃ id x y original, op.Moves cards id x y ∧ original ∈ cards ∧
        original.props.string? "id" = some id ∧ card = moveCard x y original := by
  cases heffect with
  | @added id added hadds =>
      rcases mem_snoc.mp hcard with hcard | hcard
      · exact .inl hcard
      · rw [hcard]
        exact .inr (.inl ⟨id, hadds⟩)
  | @removed id before after removed hremoves hcards hid =>
      refine .inl ?_
      rw [hcards, List.mem_append, List.mem_cons]
      rw [List.mem_append] at hcard
      tauto
  | @moved id before after original x y hmoves hcards hid =>
      rw [List.mem_append, List.mem_cons] at hcard
      rcases hcard with hcard | rfl | hcard
      · exact .inl (by rw [hcards]; exact List.mem_append_left _ hcard)
      · exact .inr (.inr ⟨id, x, y, original, hmoves, by simp [hcards], hid, rfl⟩)
      · exact .inl (by rw [hcards]; exact List.mem_append_right _ (List.mem_cons_of_mem _ hcard))
  | skipped hskipped => exact .inl hcard

end

theorem cardOpOnArray_of_not_applies (hskipped : ¬ op.Applies cards) :
    (cardOpOnArray cards op).1 = cards := by
  have heffect := effect_cardOpOnArray op cards
  generalize cardOpOnArray cards op = result at heffect
  cases heffect with
  | @added id card hadds => exact absurd (.inl ⟨id, card, hadds⟩) hskipped
  | @removed id before after card hremoves _ _ => exact absurd (.inr (.inl ⟨id, hremoves⟩)) hskipped
  | @moved id before after card x y hmoves _ _ =>
      exact absurd (.inr (.inr ⟨id, x, y, hmoves⟩)) hskipped
  | skipped _ => rfl

theorem exists_moved (heffect : Effect op cards result) {x y : JsNumber}
    (hmoves : op.Moves cards id x y) : ∃ original, moveCard x y original ∈ result.1 := by
  cases heffect with
  | @added other card hadds => exact absurd (hadds.opType.symm.trans hmoves.opType) (by decide)
  | @removed other before after card hremoves hcards hid =>
      exact absurd (hremoves.opType.symm.trans hmoves.opType) (by decide)
  | @moved other before after card x' y' hother hcards hid =>
      have hplace := hmoves.place.symm.trans hother.place
      rw [Option.some.injEq, Prod.mk.injEq] at hplace
      obtain ⟨rfl, rfl⟩ := hplace
      exact ⟨card, by simp⟩
  | skipped hskipped => exact absurd (.inr (.inr ⟨id, x, y, hmoves⟩)) hskipped

theorem isPlaced_moveCard {x y : JsNumber} :
    IsPlaced (moveCard x y card) ↔ x.isFinite = true ∧ y.isFinite = true := by
  have hfinite : ∀ n : JsNumber, Strict.finite (.number n) = n.isFinite := by
    intro n
    rw [Strict.finite, JsValue.finite?]
    cases n.isFinite <;> rfl
  simp [IsPlaced, coordinates, get_moveCard, hfinite]

theorem isPlaced_of_built (hbuilt : buildCardFromAddPayload id value = some card) :
    IsPlaced card := by
  obtain ⟨text, x, y, hx, hy, rfl⟩ := buildCardFromAddPayload_eq_some hbuilt
  have hmoved : JsValue.object [("id", some (.string id)), ("text", some (.string text)),
      ("x", some (.number x)), ("y", some (.number y))] =
      moveCard x y (.object [("id", some (.string id)), ("text", some (.string text)),
        ("x", some (.number x)), ("y", some (.number y))]) := rfl
  rw [hmoved, isPlaced_moveCard]
  exact ⟨hx, hy⟩

/-- The fields of a card other than its coordinates. -/
def unplaced (card : JsValue) : Props :=
  card.props.filter fun field => !coordinates.contains field.1

/-- Writing a field that a filter drops does not show behind it. -/
theorem filter_put {props : Props} {value : Option JsValue} {keep : String × Option JsValue → Bool}
    (hkeep : ∀ value, keep (key, value) = false) :
    (props.put key value).filter keep = props.filter keep := by
  rw [Props.put]
  split
  next =>
    rw [List.filter_map, List.filter_congr fun field _ => ?_]
    · refine (List.map_congr_left fun field hfield => ?_).trans (List.map_id _)
      by_cases hkey : field.1 = key
      · have hdropped := (List.mem_filter.mp hfield).2
        rw [← Prod.eta field, hkey, hkeep] at hdropped
        cases hdropped
      · rw [if_neg hkey]
        rfl
    · by_cases hkey : field.1 = key
      · rw [Function.comp_apply, if_pos hkey, hkeep, ← Prod.eta field, hkey, hkeep]
      · rw [Function.comp_apply, if_neg hkey]
  next => rw [List.filter_append, List.filter_cons, hkeep]; simp

theorem unplaced_moveCard (x y : JsNumber) (card : JsValue) :
    unplaced (moveCard x y card) = unplaced card := by
  change List.filter _ (Props.put _ _ _) = _
  rw [filter_put fun _ => by simp [coordinates], filter_put fun _ => by simp [coordinates]]
  rfl

/-- A card that an operation added: it has an id, a text and coordinates. -/
def IsNew (card : JsValue) : Prop :=
  ∃ id text, unplaced card = [("id", some (.string id)), ("text", some (.string text))]

theorem isNew_of_built (hbuilt : buildCardFromAddPayload id value = some card) : IsNew card := by
  obtain ⟨text, x, y, -, -, rfl⟩ := buildCardFromAddPayload_eq_some hbuilt
  exact ⟨id, text, rfl⟩

def endpointCardIds (edge : JsValue) : List String :=
  [("fromKind", "fromId"), ("toKind", "toId")].filterMap fun field =>
    if edge.props.get field.1 = some (.string "island") then none else edge.props.string? field.2

/-- The cards that the islands, relations, evidence links, shelf and reading order name. -/
def cardReferences (doc : Props) : List String :=
  ((elements doc "islands").flatMap fun island => (island.props.strings? "cardIds").getD []) ++
  (elements doc "edges").flatMap endpointCardIds ++
  ((elements doc "evidenceLinks").flatMap fun link =>
    ["fromCardId", "toCardId"].filterMap link.props.string?) ++
  ((elements doc "shelf").filterMap fun entry => entry.props.string? "cardId") ++
  (doc.strings? "readingOrder").getD []

theorem elements_congr {other : Props} (hget : doc.get key = other.get key) :
    elements doc key = elements other key := by
  unfold elements
  rw [hget]

/-- The cards that are named are read outside the cards. -/
theorem cardReferences_congr {other : Props}
    (hget : ∀ key, key ≠ "cards" → key ≠ "updatedAt" → doc.get key = other.get key) :
    cardReferences doc = cardReferences other := by
  unfold cardReferences Props.strings?
  rw [elements_congr (hget "islands" (by decide) (by decide)),
    elements_congr (hget "edges" (by decide) (by decide)),
    elements_congr (hget "evidenceLinks" (by decide) (by decide)),
    elements_congr (hget "shelf" (by decide) (by decide)),
    hget "readingOrder" (by decide) (by decide)]

/-! ## The shelf -/

def IsShelved (cards : List JsValue) (id : String) : Prop :=
  id ∈ cardIds cards ∧ ∀ card ∈ cards, card.props.string? "id" = some id →
    card.props.get "holdState" = some (.string "shelved")

theorem exists_of_get?_cardById {card : Props} (hget : (cardById cards).get? id = some card) :
    ∃ source ∈ cards, source.props.string? "id" = some id ∧ source.props = card := by
  rw [cardById, InsertionMap.get?_ofList] at hget
  obtain ⟨⟨_, _⟩, hfind, rfl⟩ := Option.map_eq_some_iff.mp hget
  obtain ⟨hentry, rfl⟩ := findBy_eq_some Prod.fst hfind
  obtain ⟨source, hsource, hentry⟩ := List.mem_filterMap.mp (List.mem_reverse.mp hentry)
  split at hentry
  next =>
    obtain ⟨_, hid, heq⟩ := Option.map_eq_some_iff.mp hentry
    rw [Prod.mk.injEq] at heq
    obtain ⟨rfl, rfl⟩ := heq
    exact ⟨source, hsource, hid, rfl⟩
  next => cases hentry

theorem exists_get?_cardById (hid : id ∈ cardIds cards) :
    ∃ card, (cardById cards).get? id = some card := by
  obtain ⟨card, hcard, hid⟩ := mem_cardIds.mp hid
  have hrecord : card.isRecord = true := by
    cases card with
    | object props => rfl
    | _ => cases hid
  have hentry : (id, card.props) ∈ cards.filterMap fun card =>
      if card.isRecord then (card.props.string? "id").map fun id => (id, card.props) else none :=
    List.mem_filterMap.mpr ⟨card, hcard, by rw [if_pos hrecord, hid]; rfl⟩
  obtain ⟨found, hfound, -⟩ := InsertionMap.exists_get?_ofList ⟨_, hentry⟩
  exact ⟨found, hfound⟩

theorem eq_of_id (hnodup : (cardIds cards).Nodup) {other : JsValue} (hcard : card ∈ cards)
    (hother : other ∈ cards) (hid : card.props.string? "id" = some id)
    (hotherId : other.props.string? "id" = some id) : other = card := by
  obtain ⟨before, after, rfl⟩ := List.append_of_mem hcard
  rw [cardIds_split hid, List.nodup_middle, List.nodup_cons, List.mem_append] at hnodup
  rcases List.mem_append.mp hother with hbefore | hafter
  · exact absurd (.inl (mem_cardIds.mpr ⟨other, hbefore, hotherId⟩)) hnodup.1
  · rcases List.mem_cons.mp hafter with heq | hafter
    · exact heq
    · exact absurd (.inr (mem_cardIds.mpr ⟨other, hafter, hotherId⟩)) hnodup.1

/-- What the rule of the shelf asks of a card, given distinct ids. -/
theorem isShelved_iff (hnodup : (cardIds cards).Nodup) :
    IsShelved cards id ↔ ∃ card, (cardById cards).get? id = some card ∧
      card.get "holdState" = some (.string "shelved") := by
  constructor
  · rintro ⟨hid, hshelved⟩
    obtain ⟨card, hget⟩ := exists_get?_cardById hid
    obtain ⟨source, hsource, hid, rfl⟩ := exists_of_get?_cardById hget
    exact ⟨_, hget, hshelved source hsource hid⟩
  · rintro ⟨card, hget, hshelved⟩
    obtain ⟨source, hsource, hid, rfl⟩ := exists_of_get?_cardById hget
    refine ⟨mem_cardIds.mpr ⟨source, hsource, hid⟩, fun other hother hotherId => ?_⟩
    rw [eq_of_id hnodup hsource hother hid hotherId]
    exact hshelved

theorem isShelved_of_effect (heffect : Effect op cards result) (hshelved : IsShelved cards id)
    (hkept : ¬ op.Removes cards id) : IsShelved result.1 id := by
  refine ⟨mem_cardIds_of_effect heffect hshelved.1 hkept, fun card hcard hid => ?_⟩
  rcases mem_of_effect heffect hcard with hcard | ⟨other, hadds⟩ |
    ⟨other, x, y, original, hmoves, horiginal, hother, rfl⟩
  · exact hshelved.2 card hcard hid
  · rw [string?_of_built hadds.built] at hid
    obtain rfl := Option.some.inj hid
    exact absurd hshelved.1 hadds.absent
  · rw [string?_moveCard] at hid
    rw [get_moveCard, if_neg (by decide), if_neg (by decide)]
    exact hshelved.2 original horiginal hid

theorem shelfErrors_congr {dates : DateFormat} {other : Props} {before after : List JsValue}
    (hshelf : other.get "shelf" = doc.get "shelf")
    (hbefore : doc.get "cards" = some (.array before))
    (hafter : other.get "cards" = some (.array after)) (hnodupBefore : (cardIds before).Nodup)
    (hnodupAfter : (cardIds after).Nodup)
    (hkept : ∀ entry ∈ elements doc "shelf", ∀ id, entry.props.string? "cardId" = some id →
      IsShelved before id → IsShelved after id) (herrors : shelfErrors dates doc = []) :
    shelfErrors dates other = [] := by
  unfold shelfErrors at herrors ⊢
  rw [hshelf, hafter]
  rw [hbefore] at herrors
  split at herrors
  next hget => rfl
  next shelf hget =>
    rw [Strict.elements_eq hget] at hkept
    dsimp only at herrors ⊢
    obtain ⟨ids, hshapes, hnodup, hunseen, hcards⟩ := (shelfEntriesErrors_eq_nil dates).mp herrors
    refine (shelfEntriesErrors_eq_nil dates).mpr ⟨ids, hshapes, hnodup, hunseen, fun id hid => ?_⟩
    obtain ⟨entry, hentry, hshape⟩ := exists_of_forall₂_right hshapes hid
    rw [← isShelved_iff hnodupAfter]
    exact hkept entry hentry id hshape.cardId_eq ((isShelved_iff hnodupBefore).mpr (hcards id hid))
  next hother => cases herrors

section Sound

variable (platform : Platform) (now : String) (memory : Memory) (document : DocumentRef)

/-- What is asked of the result of some operations. -/
structure Sound (ops : List HilRsDiffOp) : Prop where
  /-- Card ids are distinct. -/
  unique : (cardIds (elements (rediffed now memory document ops) "cards")).Nodup
  /-- Coordinates are finite. -/
  placed : ∀ card ∈ elements (rediffed now memory document ops) "cards", IsPlaced card
  /-- A card that was there at some time and is there no more is not named. -/
  references : ∀ earlier, earlier <+: ops →
    ∀ id ∈ cardIds (elements (rediffed now memory document earlier) "cards"),
      id ∉ cardIds (elements (rediffed now memory document ops) "cards") →
        id ∉ cardReferences (rediffed now memory document ops)
  shelf : shelfErrors platform.dates (rediffed now memory document ops) = []
  /-- A card is a card of the input up to its coordinates, or was added without review fields. -/
  reviews : ∀ card ∈ elements (rediffed now memory document ops) "cards",
    (∃ original ∈ memory.read document.cards, unplaced card = unplaced original) ∨ IsNew card
  others : ∀ key, key ≠ "cards" → key ≠ "updatedAt" →
    (rediffed now memory document ops).get key = (document.value memory).get key
  /-- The id of each operation is in exactly one of the two lists. -/
  recorded : ∀ op ∈ ops, Xor (op.opId ∈ returnedIds now memory document true ops)
    (op.opId ∈ returnedIds now memory document false ops)
  /-- An operation that is skipped has no effect. -/
  skipped : ∀ taken op rest, ops = taken ++ op :: rest →
    returnedIds now memory document false (taken ++ [op]) =
      returnedIds now memory document false taken ++ [op.opId] →
    rediffed now memory document (taken ++ [op]) = rediffed now memory document taken
  input : document.value (applyHilRsRediffPayload now memory document ⟨ops⟩).1 =
    document.value memory

/-- What is asked of an operation after those before it. -/
structure StepMeets (taken : List HilRsDiffOp) (op : HilRsDiffOp) : Prop where
  /-- Nothing names the card that is removed. -/
  removes : ∀ id, op.Removes (cardsAfter (memory.read document.cards) taken) id →
    id ∉ cardReferences (document.value memory)
  /-- The card is moved to a finite place. -/
  moves : ∀ id x y, op.Moves (cardsAfter (memory.read document.cards) taken) id x y →
    x.isFinite = true ∧ y.isFinite = true
  /-- Earlier operations of the same id could be applied as this one can. -/
  recorded : ∀ before earlier rest, taken = before ++ earlier :: rest → earlier.opId = op.opId →
    (earlier.Applies (cardsAfter (memory.read document.cards) before) ↔
      op.Applies (cardsAfter (memory.read document.cards) taken))

end Sound

/-! ## Accepted input -/

section Accepted

variable {platform : Platform} {now : String} {memory : Memory} {document : DocumentRef}

theorem get_value (memory : Memory) (document : DocumentRef) (key : String) :
    (document.value memory).get key =
      if key = "cards" then some (.array (memory.read document.cards))
        else document.props.get key := Props.get_put _ _ _ _

/-- The parts of an accepted document that the operations rely on. -/
structure Accepted (platform : Platform) (memory : Memory) (document : DocumentRef) : Prop where
  cards : ∀ card ∈ memory.read document.cards, CheckedCard card
  edges : document.props.get "edges" = some (.array ((elements document.props "edges").map spread))
  shelf : shelfErrors platform.dates (document.value memory) = []

theorem accepted_of_strict
    (hstrict : Strict.validateDocumentV1Strict platform (.object (document.value memory)) = []) :
    Accepted platform memory document := by
  have hchecks := checks_of_accepted hstrict
  refine ⟨fun card hcard => ?_, ?_, ?_⟩
  · obtain ⟨-, hcards⟩ := elements_checked
      (hchecks (Strict.mustBeArray "cards" Strict.validateCard) (by simp [Strict.documentChecks]))
    have hread : elements (document.value memory) "cards" = memory.read document.cards :=
      Strict.elements_eq (get_value memory document "cards")
    rw [hread] at hcards
    obtain ⟨index, hcheck⟩ := hcards card hcard
    exact checkedCard_of_validateCard hcheck
  · obtain ⟨hget, hedges⟩ := elements_checked
      (hchecks (Strict.mustBeArray "edges" Strict.validateEdge) (by simp [Strict.documentChecks]))
    have hsame : (document.value memory).get "edges" = document.props.get "edges" :=
      get_value memory document "edges"
    rw [hsame, elements_congr hsame] at hget
    rw [elements_congr hsame] at hedges
    have hspread : (elements document.props "edges").map spread =
        elements document.props "edges" := by
      refine (List.map_congr_left fun edge hedge => ?_).trans (List.map_id _)
      obtain ⟨index, hcheck⟩ := hedges edge hedge
      obtain ⟨-, -, hfields⟩ := Strict.validateRecord_eq_nil.mp hcheck
      obtain ⟨id, hid⟩ := string?_of_mustBeString
        (hfields (Strict.mustBeString "id") (by simp [Strict.edgeChecks]))
      exact spread_of_string? hid
    rw [hspread]
    exact hget
  · exact hchecks (fun _ props => shelfErrors platform.dates props)
      (by simp [Strict.documentChecks])

theorem Accepted.spread_cards (haccepted : Accepted platform memory document) :
    (memory.read document.cards).map spread = memory.read document.cards := by
  refine (List.map_congr_left fun card hcard => ?_).trans (List.map_id _)
  obtain ⟨id, hid⟩ := (haccepted.cards card hcard).id
  exact spread_of_string? hid

theorem Accepted.get_rediffed (haccepted : Accepted platform memory document)
    (ops : List HilRsDiffOp) (key : String) :
    (rediffed now memory document ops).get key =
      if key = "cards" then some (.array (cardsAfter (memory.read document.cards) ops))
        else if key = "updatedAt" then some (.string now) else document.props.get key := by
  rw [rediffed, applyHilRsRediffPayload_eq]
  dsimp only
  rw [get_value]
  dsimp only
  rw [haccepted.spread_cards, read_append, Props.get_put, Props.get_put]
  by_cases hedges : key = "edges"
  · subst hedges
    simp [← haccepted.edges]
  · rw [if_neg hedges]

theorem Accepted.cards_rediffed (haccepted : Accepted platform memory document)
    (ops : List HilRsDiffOp) :
    elements (rediffed now memory document ops) "cards" =
      cardsAfter (memory.read document.cards) ops :=
  Strict.elements_eq (haccepted.get_rediffed ops "cards")

theorem Accepted.others_rediffed (haccepted : Accepted platform memory document)
    (ops : List HilRsDiffOp) (key : String) (hcards : key ≠ "cards")
    (hupdatedAt : key ≠ "updatedAt") :
    (rediffed now memory document ops).get key = (document.value memory).get key := by
  rw [haccepted.get_rediffed, get_value, if_neg hcards, if_neg hcards, if_neg hupdatedAt]

theorem Accepted.references_rediffed (haccepted : Accepted platform memory document)
    (ops : List HilRsDiffOp) :
    cardReferences (rediffed now memory document ops) = cardReferences (document.value memory) :=
  cardReferences_congr (haccepted.others_rediffed ops)

theorem Accepted.returnedIds_eq (haccepted : Accepted platform memory document) (applied : Bool)
    (ops : List HilRsDiffOp) :
    returnedIds now memory document applied ops =
      idsOf applied (outcomes (memory.read document.cards) ops) := by
  rw [returnedIds, applyHilRsRediffPayload_eq]
  dsimp only
  rw [haccepted.spread_cards]
  cases applied <;> rfl

theorem Accepted.mem_returnedIds (haccepted : Accepted platform memory document) {opId : String} :
    (opId ∈ returnedIds now memory document true ops ↔ ∃ taken op rest,
      ops = taken ++ op :: rest ∧ op.opId = opId ∧
        op.Applies (cardsAfter (memory.read document.cards) taken)) ∧
    (opId ∈ returnedIds now memory document false ops ↔ ∃ taken op rest,
      ops = taken ++ op :: rest ∧ op.opId = opId ∧
        ¬ op.Applies (cardsAfter (memory.read document.cards) taken)) := by
  rw [haccepted.returnedIds_eq, haccepted.returnedIds_eq, mem_idsOf, mem_idsOf]
  simp only [← Bool.not_eq_true, cardOpOnArray_snd, and_self]

end Accepted

/-- Ids stay distinct. -/
theorem nodup_cardsAfter (hnodup : (cardIds cards).Nodup) (ops : List HilRsDiffOp) :
    (cardIds (cardsAfter cards ops)).Nodup :=
  cardsAfter_induction (P := fun cards => (cardIds cards).Nodup)
    (fun _ op _ _ hcards => nodup_of_effect (effect_cardOpOnArray op _) hcards)
    List.nil_prefix hnodup

/-- A card is one of those at the start up to its coordinates, or was added. -/
theorem reviews_cardsAfter (cards : List JsValue) (ops : List HilRsDiffOp) :
    ∀ card ∈ cardsAfter cards ops,
      (∃ original ∈ cards, unplaced card = unplaced original) ∨ IsNew card := by
  refine cardsAfter_induction (P := fun reached => ∀ card ∈ reached,
    (∃ original ∈ cards, unplaced card = unplaced original) ∨ IsNew card) ?_ List.nil_prefix
    fun card hcard => .inl ⟨card, hcard, rfl⟩
  intro taken op rest _ hreached card hcard
  rcases mem_of_effect (effect_cardOpOnArray op _) hcard with hcard | ⟨id, hadds⟩ |
    ⟨id, x, y, moved, -, hmoved, -, rfl⟩
  · exact hreached card hcard
  · exact .inr (isNew_of_built hadds.built)
  · rw [IsNew, unplaced_moveCard]
    exact hreached moved hmoved

section Meet

variable {memory : Memory} {document : DocumentRef}

theorem StepMeets.placed (hmeets : StepMeets memory document taken op)
    (hplaced : ∀ card ∈ cardsAfter (memory.read document.cards) taken, IsPlaced card) :
    ∀ card ∈ (cardOpOnArray (cardsAfter (memory.read document.cards) taken) op).1,
      IsPlaced card := by
  intro card hcard
  rcases mem_of_effect (effect_cardOpOnArray op _) hcard with hcard | ⟨id, hadds⟩ |
    ⟨id, x, y, original, hmoves, -, -, rfl⟩
  · exact hplaced card hcard
  · exact isPlaced_of_built hadds.built
  · exact isPlaced_moveCard.mpr (hmeets.moves id x y hmoves)

theorem StepMeets.not_removes (hmeets : StepMeets memory document taken op)
    (hnamed : id ∈ cardReferences (document.value memory)) :
    ¬ op.Removes (cardsAfter (memory.read document.cards) taken) id :=
  fun hremoves => hmeets.removes id hremoves hnamed

end Meet

/-! ## Soundness -/

section Result

variable {platform : Platform} {now : String} {memory : Memory} {document : DocumentRef}

/-- The array of the input is another one than that of the copy. -/
theorem input_kept (hallocated : document.cards < memory.length) (ops : List HilRsDiffOp) :
    document.value (applyHilRsRediffPayload now memory document ⟨ops⟩).1 =
      document.value memory := by
  rw [applyHilRsRediffPayload_eq, DocumentRef.value, DocumentRef.value]
  dsimp only
  rw [Memory.read, Memory.read, List.getElem?_append_left hallocated]

/-- An operation whose id is appended to those of the skipped ones has no effect. -/
theorem skipped_kept (haccepted : Accepted platform memory document)
    (hskipped : returnedIds now memory document false (taken ++ [op]) =
      returnedIds now memory document false taken ++ [op.opId]) :
    rediffed now memory document (taken ++ [op]) = rediffed now memory document taken := by
  have hcards : cardsAfter (memory.read document.cards) (taken ++ [op]) =
      cardsAfter (memory.read document.cards) taken := by
    rw [haccepted.returnedIds_eq, haccepted.returnedIds_eq, outcomes_snoc] at hskipped
    rw [cardsAfter_snoc]
    refine cardOpOnArray_of_not_applies fun happlies => ?_
    rw [cardOpOnArray_snd.mpr happlies] at hskipped
    simp [idsOf] at hskipped
  rw [rediffed, rediffed, applyHilRsRediffPayload_eq, applyHilRsRediffPayload_eq]
  dsimp only
  rw [haccepted.spread_cards, hcards]

/-- Operations that share an id are all applied or all skipped. -/
theorem applies_iff_of_meets
    (hmeets : ∀ taken op rest, ops = taken ++ op :: rest → StepMeets memory document taken op)
    {before rest later : List HilRsDiffOp} {earlier : HilRsDiffOp}
    (hearlier : ops = before ++ earlier :: later) (hop : ops = taken ++ op :: rest)
    (hid : earlier.opId = op.opId) :
    earlier.Applies (cardsAfter (memory.read document.cards) before) ↔
      op.Applies (cardsAfter (memory.read document.cards) taken) := by
  rcases List.append_eq_append_iff.mp (hearlier.symm.trans hop) with
    ⟨middle, htaken, hlater⟩ | ⟨middle, hbefore, hlater⟩
  · cases middle with
    | nil =>
        rw [List.nil_append, List.cons.injEq] at hlater
        rw [htaken, List.append_nil, hlater.1]
    | cons first middle =>
        rw [List.cons_append, List.cons.injEq] at hlater
        obtain ⟨rfl, -⟩ := hlater
        exact (hmeets taken op rest hop).recorded before earlier middle htaken hid
  · cases middle with
    | nil =>
        rw [List.nil_append, List.cons.injEq] at hlater
        rw [hbefore, List.append_nil, hlater.1]
    | cons first middle =>
        rw [List.cons_append, List.cons.injEq] at hlater
        obtain ⟨rfl, -⟩ := hlater
        have hrecorded := (hmeets before earlier later hearlier).recorded
        exact (hrecorded taken op middle hbefore hid.symm).symm

theorem sound_of_meets (hallocated : document.cards < memory.length)
    (haccepted : Accepted platform memory document)
    (hunique : (cardIds (memory.read document.cards)).Nodup)
    (hmeets : ∀ taken op rest, ops = taken ++ op :: rest → StepMeets memory document taken op) :
    Sound platform now memory document ops where
  unique := by
    rw [haccepted.cards_rediffed]
    exact nodup_cardsAfter hunique ops
  placed := by
    rw [haccepted.cards_rediffed]
    exact cardsAfter_induction (P := fun cards => ∀ card ∈ cards, IsPlaced card)
      (fun taken op rest hsplit => (hmeets taken op rest hsplit).placed) List.nil_prefix
      fun card hcard => (haccepted.cards card hcard).placed
  references := by
    intro earlier hearly id hid hgone hnamed
    rw [haccepted.cards_rediffed] at hid hgone
    rw [haccepted.references_rediffed] at hnamed
    refine hgone (cardsAfter_induction (P := fun cards => id ∈ cardIds cards) ?_ hearly hid)
    intro taken op rest hsplit hreached
    exact mem_cardIds_of_effect (effect_cardOpOnArray op _) hreached
      ((hmeets taken op rest hsplit).not_removes hnamed)
  shelf := by
    refine shelfErrors_congr (haccepted.others_rediffed ops "shelf" (by decide) (by decide))
      (get_value memory document "cards") (haccepted.get_rediffed ops "cards") hunique
      (nodup_cardsAfter hunique ops) ?_ haccepted.shelf
    intro entry hentry id hid hshelved
    have hnamed : id ∈ cardReferences (document.value memory) := by
      refine List.mem_append_left _ (List.mem_append_right _ ?_)
      exact List.mem_filterMap.mpr ⟨entry, hentry, hid⟩
    refine cardsAfter_induction (P := fun cards => IsShelved cards id) ?_ List.nil_prefix hshelved
    intro taken op rest hsplit hreached
    exact isShelved_of_effect (effect_cardOpOnArray op _) hreached
      ((hmeets taken op rest hsplit).not_removes hnamed)
  reviews := by
    rw [haccepted.cards_rediffed]
    exact reviews_cardsAfter _ ops
  others := haccepted.others_rediffed ops
  recorded := by
    intro op hop
    obtain ⟨taken, rest, hsplit⟩ := List.append_of_mem hop
    obtain ⟨happlied, hskipped⟩ :=
      @Accepted.mem_returnedIds ops platform now memory document haccepted op.opId
    rw [happlied, hskipped]
    by_cases happlies : op.Applies (cardsAfter (memory.read document.cards) taken)
    · refine .inl ⟨⟨taken, op, rest, hsplit, rfl, happlies⟩, ?_⟩
      rintro ⟨before, earlier, later, hearlier, hid, hnot⟩
      exact hnot ((applies_iff_of_meets hmeets hearlier hsplit hid).mpr happlies)
    · refine .inr ⟨⟨taken, op, rest, hsplit, rfl, happlies⟩, ?_⟩
      rintro ⟨before, earlier, later, hearlier, hid, hearlierApplies⟩
      exact happlies ((applies_iff_of_meets hmeets hearlier hsplit hid).mp hearlierApplies)
  skipped := fun taken op rest _ hskipped => skipped_kept haccepted hskipped
  input := input_kept hallocated ops

theorem stepMeets_of_sound (haccepted : Accepted platform memory document)
    (hbefore : Sound platform now memory document taken)
    (hafter : Sound platform now memory document (taken ++ [op])) :
    StepMeets memory document taken op where
  removes := by
    intro id hremoves
    have hunique := hbefore.unique
    have hreferences := hafter.references taken (List.prefix_append _ _) id
    rw [haccepted.cards_rediffed] at hunique
    rw [haccepted.cards_rediffed, haccepted.cards_rediffed, haccepted.references_rediffed,
      cardsAfter_snoc] at hreferences
    exact hreferences hremoves.present
      (not_mem_cardIds_of_removes (effect_cardOpOnArray op _) hunique hremoves)
  moves := by
    intro id x y hmoves
    have hplaced := hafter.placed
    rw [haccepted.cards_rediffed, cardsAfter_snoc] at hplaced
    obtain ⟨original, hmoved⟩ := exists_moved (effect_cardOpOnArray op _) hmoves
    exact isPlaced_moveCard.mp (hplaced _ hmoved)
  recorded := by
    rintro before earlier rest rfl hid
    have hxor := hafter.recorded op (by simp)
    obtain ⟨happlied, hskipped⟩ := @Accepted.mem_returnedIds
      ((before ++ earlier :: rest) ++ [op]) platform now memory document haccepted op.opId
    rw [happlied, hskipped] at hxor
    have hnotBoth : ¬ ((∃ taken other later, (before ++ earlier :: rest) ++ [op] =
        taken ++ other :: later ∧ other.opId = op.opId ∧
          other.Applies (cardsAfter (memory.read document.cards) taken)) ∧
        ∃ taken other later, (before ++ earlier :: rest) ++ [op] =
          taken ++ other :: later ∧ other.opId = op.opId ∧
            ¬ other.Applies (cardsAfter (memory.read document.cards) taken)) := by
      rintro ⟨happlies, hnot⟩
      rcases hxor with hxor | hxor
      · exact hxor.2 hnot
      · exact hxor.2 happlies
    have hearlier : (before ++ earlier :: rest) ++ [op] = before ++ earlier :: (rest ++ [op]) := by
      simp
    constructor
    · intro happlies
      by_contra hnot
      exact hnotBoth ⟨⟨before, earlier, rest ++ [op], hearlier, hid, happlies⟩,
        _, op, [], rfl, rfl, hnot⟩
    · intro happlies
      by_contra hnot
      exact hnotBoth ⟨⟨_, op, [], rfl, rfl, happlies⟩,
        before, earlier, rest ++ [op], hearlier, hid, hnot⟩

/-- The results are sound exactly when no card id is used twice and every operation meets its
conditions. -/
theorem rediffs_sound_iff (hallocated : document.cards < memory.length)
    (hstrict : Strict.validateDocumentV1Strict platform (.object (document.value memory)) = [])
    (ops : List HilRsDiffOp) :
    (∀ taken, taken <+: ops → Sound platform now memory document taken) ↔
      (cardIds (memory.read document.cards)).Nodup ∧
        ∀ taken op rest, ops = taken ++ op :: rest → StepMeets memory document taken op := by
  have haccepted := accepted_of_strict hstrict
  constructor
  · intro hsound
    refine ⟨?_, fun taken op rest hsplit => ?_⟩
    · have hunique := (hsound [] List.nil_prefix).unique
      rwa [haccepted.cards_rediffed] at hunique
    · refine stepMeets_of_sound haccepted (hsound taken ⟨op :: rest, hsplit.symm⟩)
        (hsound (taken ++ [op]) ⟨rest, ?_⟩)
      rw [hsplit, List.append_assoc, List.singleton_append]
  · rintro ⟨hunique, hmeets⟩ taken ⟨later, rfl⟩
    refine sound_of_meets hallocated haccepted hunique fun before op rest hsplit => ?_
    refine hmeets before op (rest ++ later) ?_
    rw [hsplit, List.append_assoc, List.cons_append]

end Result

/-! ## A card in an island -/

namespace Member

open Importer.ImportInputs (platform)

/-- An island with one card. -/
def document : DocumentRef where
  props := [("version", some (.number .one)), ("id", some (.string "d1")),
    ("createdAt", some (.string "t0")), ("updatedAt", some (.string "t0")),
    ("transform", some originView),
    ("cards", some (.array [])), ("edges", some (.array [])),
    ("islands", some (.array [.object [("id", some (.string "i1")),
      ("cardIds", some (textArray ["c1"]))]]))]
  cards := 0

def memory : Memory := [[.object [("id", some (.string "c1")), ("text", some (.string "one")),
  ("x", some (.number .zero)), ("y", some (.number .zero)), ("textReviewed", some (.bool true))]]]

def place : JsValue := .object [("x", some (.number .one)), ("y", some (.number .one))]

def move : HilRsDiffOp := ⟨"op-1", .move, "card:c1", .null, place⟩

def remove : HilRsDiffOp := ⟨"op-2", .remove, "card:c1", place, .null⟩

theorem document_accepted :
    Strict.validateDocumentV1Strict platform (.object (document.value memory)) = [] := by
  decide +kernel

theorem stepMeets_move (taken : List HilRsDiffOp) (rest : List HilRsDiffOp)
    (hsplit : [move] = taken ++ op :: rest) : StepMeets memory document taken op := by
  have htaken : taken = [] := by
    cases taken with
    | nil => rfl
    | cons head taken => simp at hsplit
  subst htaken
  rw [List.nil_append, List.cons.injEq] at hsplit
  obtain ⟨rfl, -⟩ := hsplit
  refine ⟨fun id hremoves => ?_, fun id x y hmoves => ?_, fun before earlier rest hnil => ?_⟩
  · exact absurd hremoves.opType (by decide)
  · have hplace : movedTo place = some (x, y) := hmoves.place
    have heq : (JsNumber.one, JsNumber.one) = (x, y) := Option.some.inj (Eq.trans rfl hplace)
    rw [Prod.mk.injEq] at heq
    rw [← heq.1, ← heq.2]
    exact ⟨rfl, rfl⟩
  · simp at hnil

/-- Moving the card leaves a sound document. -/
theorem moved_sound : Sound platform "t1" memory document [move] :=
  (rediffs_sound_iff (by decide) document_accepted [move]).mpr
    ⟨by decide, fun taken _ rest hsplit => stepMeets_move taken rest hsplit⟩ _ List.prefix_rfl

/-- After its removal, the island still names the card. -/
theorem removed_not_sound :
    ¬ ∀ (platform : Platform) (now : String) (memory : Memory) (document : DocumentRef)
        (ops : List HilRsDiffOp), document.cards < memory.length →
      Strict.validateDocumentV1Strict platform (.object (document.value memory)) = [] →
        Sound platform now memory document ops := by
  intro hall
  have hsound := hall platform "t1" memory document [remove] (by decide) document_accepted
  exact hsound.references [] List.nil_prefix "c1" (by decide) (by decide) (by decide)

end Member

end Rediff

end KjAtlas
