import KjAtlas.Ai.HumanDecisions
import KjAtlas.Ai.Layout

/-! # What a layout changes

A layout moves the cards and sets the transform. The cards of the answer are made
anew from an id, a text and coordinates, so that a layout leaves the rest of the
cards alone only where there is no rest.
-/

namespace KjAtlas.Ai

variable {F : Type}

/-- A card with an id, a text and coordinates, and nothing else. -/
def Card.placed (card : Card F) (x y : F) : Card F where
  id := card.id
  text := card.text
  x
  y
  claimType := none
  mergedIntoCardId := none
  repOf := none
  canonicalId := none
  sources := none
  textReviewed := none
  holdState := none
  critique := none
  critiqueTags := none
  meta_ := none
  ka := none

/-- No optional field of the card is set. -/
structure Card.IsBare (card : Card F) : Prop where
  claimType : card.claimType = none
  mergedIntoCardId : card.mergedIntoCardId = none
  repOf : card.repOf = none
  canonicalId : card.canonicalId = none
  sources : card.sources = none
  textReviewed : card.textReviewed = none
  holdState : card.holdState = none
  critique : card.critique = none
  critiqueTags : card.critiqueTags = none
  meta_ : card.meta_ = none
  ka : card.ka = none

variable (server : Server F)

/-- A card has been moved to finite coordinates, and is otherwise the same. -/
def Card.IsMoved (card moved : Card F) : Prop :=
  ∃ x y, server.runtime.isFinite x = true ∧ server.runtime.isFinite y = true ∧
    moved = { card with x, y }

theorem Card.isMoved_placed_iff {card : Card F} {x y : F} (hx : server.runtime.isFinite x = true)
    (hy : server.runtime.isFinite y = true) :
    card.IsMoved server (card.placed x y) ↔ card.IsBare := by
  constructor
  · rintro ⟨_, _, -, -, heq⟩
    obtain ⟨hbase, hcritique, hcritiqueTags, hmeta, hka⟩ := Card.mk.inj heq
    obtain ⟨-, -, -, -, hclaimType, hmerged, hrepOf, hcanonical, hsources, hreviewed, hhold⟩ :=
      Ir.Card.mk.inj hbase
    exact ⟨hclaimType.symm, hmerged.symm, hrepOf.symm, hcanonical.symm, hsources.symm,
      hreviewed.symm, hhold.symm, hcritique.symm, hcritiqueTags.symm, hmeta.symm, hka.symm⟩
  · rintro ⟨hclaimType, hmerged, hrepOf, hcanonical, hsources, hreviewed, hhold, hcritique,
      hcritiqueTags, hmeta, hka⟩
    refine ⟨x, y, hx, hy, ?_⟩
    rw [placed, hclaimType, hmerged, hrepOf, hcanonical, hsources, hreviewed, hhold, hcritique,
      hcritiqueTags, hmeta, hka]

/-- The document with its cards moved and a finite transform, and otherwise the same. -/
structure MovesOnly (doc suggested : DocumentV1 F) : Prop where
  cards : List.Forall₂ (Card.IsMoved server) doc.cards suggested.cards
  transform : suggested.transform.isFinite server = true
  rest : suggested = { doc with transform := suggested.transform, cards := suggested.cards }

/-! ## The cards of an answer -/

def Suggested (doc : DocumentV1 F) (card : Card F) : Prop :=
  ∃ source ∈ doc.cards, ∃ x y, server.runtime.isFinite x = true ∧
    server.runtime.isFinite y = true ∧ card = source.placed x y

variable {server} {doc : DocumentV1 F}

theorem isFinite_of_finiteCoordinate {value : Option (Py.Value F)} {x : F}
    (hcoordinate : finiteCoordinate server value = .ok x) : server.runtime.isFinite x = true := by
  obtain ⟨_, -, hchecked⟩ := bind_eq_ok.mp hcoordinate
  obtain ⟨_, hfinite, hx⟩ := bind_eq_ok.mp hchecked
  obtain rfl := Except.ok.inj hx
  exact ensure_eq_ok.mp hfinite

theorem suggested_of_parseSuggestedCard {seen : List String} {item : Py.Value F} {card : Card F}
    (hcard : parseSuggestedCard server doc seen item = .ok card) : Suggested server doc card := by
  unfold parseSuggestedCard at hcard
  obtain ⟨members, -, hcard⟩ := bind_eq_ok.mp hcard
  split at hcard
  next =>
    obtain ⟨_, -, hcard⟩ := bind_eq_ok.mp hcard
    obtain ⟨source, hsource, hcard⟩ := bind_eq_ok.mp hcard
    obtain ⟨_, -, hcard⟩ := bind_eq_ok.mp hcard
    obtain ⟨_, -, hcard⟩ := bind_eq_ok.mp hcard
    obtain ⟨x, hx, hcard⟩ := bind_eq_ok.mp hcard
    obtain ⟨y, hy, hcard⟩ := bind_eq_ok.mp hcard
    obtain ⟨id, -, hfind⟩ := Option.bind_eq_some_iff.mp (found_eq_ok.mp hsource)
    rw [DocumentV1.card?, List.findRev?_eq_find?_reverse] at hfind
    exact ⟨source, List.mem_reverse.mp (List.mem_of_find?_eq_some hfind), x, y,
      isFinite_of_finiteCoordinate hx, isFinite_of_finiteCoordinate hy,
      (Except.ok.inj hcard).symm⟩
  next => cases hcard

variable {cards : List (Card F)} {notes : Option Py.Str} {transform : Transform F}

theorem suggested_of_parseSuggestedCards (items : List (Py.Value F)) {suggested : List (Card F)}
    (hsuggested : ∀ card ∈ suggested, Suggested server doc card)
    (hcards : parseSuggestedCards server doc suggested items = .ok cards) :
    ∀ card ∈ cards, Suggested server doc card := by
  induction items generalizing suggested with
  | nil =>
      obtain rfl := Except.ok.inj hcards
      exact hsuggested
  | cons item items ih =>
      obtain ⟨card, hcard, hrest⟩ := bind_eq_ok.mp hcards
      refine ih ?_ hrest
      intro other hother
      rcases mem_snoc.mp hother with hother | hother
      · exact hsuggested other hother
      · rw [hother]
        exact suggested_of_parseSuggestedCard hcard

theorem parseSuggestion_spec (hunique : doc.cardIds.Nodup) {rawText : Py.Str}
    (hparse : parseSuggestion server rawText doc = .ok (transform, cards, notes)) :
    transform.isFinite server = true ∧
      List.Forall₂ (fun card moved => ∃ x y, server.runtime.isFinite x = true ∧
        server.runtime.isFinite y = true ∧ card.placed x y = moved) doc.cards cards := by
  unfold parseSuggestion at hparse
  obtain ⟨members, -, hparse⟩ := bind_eq_ok.mp hparse
  obtain ⟨transformData, -, hparse⟩ := bind_eq_ok.mp hparse
  obtain ⟨cardsData, -, hparse⟩ := bind_eq_ok.mp hparse
  obtain ⟨_, -, hparse⟩ := bind_eq_ok.mp hparse
  obtain ⟨_, -, hparse⟩ := bind_eq_ok.mp hparse
  obtain ⟨_, hfinite, hparse⟩ := bind_eq_ok.mp hparse
  obtain ⟨-, -, hparse⟩ := bind_eq_ok.mp hparse
  obtain ⟨suggested, hsuggested, hparse⟩ := bind_eq_ok.mp hparse
  obtain ⟨_, hcards, hparse⟩ := bind_eq_ok.mp hparse
  cases hparse
  refine ⟨ensure_eq_ok.mp hfinite, ?_⟩
  have hall := suggested_of_parseSuggestedCards cardsData (by simp) hsuggested
  rw [mapM_eq_ok, DocumentV1.cardIds, List.forall₂_map_left_iff, List.forall₂_iff_zip] at hcards
  refine List.forall₂_iff_zip.mpr ⟨hcards.1, fun {card moved} hzip => ?_⟩
  have hfind := found_eq_ok.mp (hcards.2 hzip)
  have hid : moved.id = card.id := by simpa using List.find?_some hfind
  obtain ⟨source, hsource, x, y, hx, hy, rfl⟩ := hall moved (List.mem_of_find?_eq_some hfind)
  obtain rfl : source = card :=
    List.inj_on_of_nodup_map hunique hsource (List.of_mem_zip hzip).1 hid
  exact ⟨x, y, hx, hy, rfl⟩

theorem forall₂_isMoved_iff {placed : List (Card F)}
    (hplaced : List.Forall₂ (fun card moved => ∃ x y, server.runtime.isFinite x = true ∧
      server.runtime.isFinite y = true ∧ card.placed x y = moved) cards placed) :
    List.Forall₂ (Card.IsMoved server) cards placed ↔ ∀ card ∈ cards, card.IsBare := by
  induction hplaced with
  | nil => simp
  | cons hcard _ ih =>
      obtain ⟨x, y, hx, hy, rfl⟩ := hcard
      rw [List.forall₂_cons, List.forall_mem_cons, ih, Card.isMoved_placed_iff server hx hy]

theorem movesOnly_iff_of_parseSuggestion (hunique : doc.cardIds.Nodup) {rawText : Py.Str}
    (hparse : parseSuggestion server rawText doc = .ok (transform, cards, notes)) :
    MovesOnly server doc { doc with transform, cards } ↔ ∀ card ∈ doc.cards, card.IsBare := by
  obtain ⟨hfinite, hplaced⟩ := parseSuggestion_spec hunique hparse
  rw [← forall₂_isMoved_iff hplaced]
  exact ⟨MovesOnly.cards, fun hcards => ⟨hcards, hfinite, rfl⟩⟩

theorem suggestLayout_returns {payload : SuggestLayoutRequest F}
    {response : SuggestLayoutResponse F} (hreturns : (suggestLayout server payload).Returns response) :
    ∃ rawText transform cards notes,
      parseSuggestion server rawText payload.doc = .ok (transform, cards, notes) ∧
        response.suggestedDoc = { payload.doc with transform, cards } := by
  unfold suggestLayout at hreturns
  obtain ⟨_, -, hreturns⟩ := Asking.returns_bind.mp hreturns
  obtain ⟨answer, -, hreturns⟩ := Asking.returns_bind.mp hreturns
  obtain ⟨_, -, hreturns⟩ := Asking.returns_bind.mp hreturns
  obtain ⟨⟨transform, cards, notes⟩, hparse, hreturns⟩ := Asking.returns_bind.mp hreturns
  obtain ⟨_, -, hreturns⟩ := Asking.returns_bind.mp hreturns
  obtain rfl := Asking.returns_pure.mp hreturns
  exact ⟨answer.rawText, transform, cards, notes, Asking.returns_lift.mp hparse, rfl⟩

/-- A layout only moves cards exactly when no card has more than an id, a text and coordinates. -/
theorem suggestLayout_moves_only_iff {server : Server F} {payload : SuggestLayoutRequest F}
    (hunique : payload.doc.cardIds.Nodup) :
    (∀ rawText transform cards notes,
      parseSuggestion server rawText payload.doc = .ok (transform, cards, notes) →
        (MovesOnly server payload.doc { payload.doc with transform, cards } ↔
          ∀ card ∈ payload.doc.cards, card.IsBare)) ∧
      ∀ response, (suggestLayout server payload).Returns response →
        (MovesOnly server payload.doc response.suggestedDoc ↔
          ∀ card ∈ payload.doc.cards, card.IsBare) := by
  constructor
  · intro rawText transform cards notes hparse
    exact movesOnly_iff_of_parseSuggestion hunique hparse
  · intro response hreturns
    obtain ⟨rawText, transform, cards, notes, hparse, heq⟩ := suggestLayout_returns hreturns
    rw [heq]
    exact movesOnly_iff_of_parseSuggestion hunique hparse

/-! ## A reviewed card -/

namespace ReviewedCard

/-- A server whose texts are read as an answer that moves the card `a`. -/
def answering : Server Int where
  __ := ParallelLinks.localServer
  loads _ := .ok (.dict [
    (.ofString "transform", .dict [(.ofString "panX", .int 0), (.ofString "panY", .int 0),
      (.ofString "zoom", .int 1)]),
    (.ofString "cards", .list [.dict [(.ofString "id", .str (.ofString "a")),
      (.ofString "x", .int 5), (.ofString "y", .int 7)]])])
  floatField value := match value with
    | .int n => some n
    | _ => none

def card : Card Int := ParallelLinks.fullCard "a"

/-- The card with nothing else than a text at a place. -/
def bare : Card Int := card.placed 0 0

def document (card : Card Int) : DocumentV1 Int := ParallelLinks.ofCards [card]

def moved (card : Card Int) : DocumentV1 Int :=
  { document card with transform := ⟨0, 0, 1⟩, cards := [card.placed 5 7] }

theorem parse_answer : parseSuggestion answering (.ofString "") (document card) =
    .ok (⟨0, 0, 1⟩, [card.placed 5 7], none) := by
  rfl

theorem parse_answer_bare : parseSuggestion answering (.ofString "") (document bare) =
    .ok (⟨0, 0, 1⟩, [bare.placed 5 7], none) := by
  rfl

/-- The reviewed card is not only moved, the bare one is. -/
theorem suggestLayout_moves_only_iff_document :
    (MovesOnly answering (document card) (moved card) ↔
      ∀ placed ∈ (document card).cards, placed.IsBare) ∧
    MovesOnly answering (document bare) (moved bare) := by
  constructor
  · exact (@suggestLayout_moves_only_iff _ answering ⟨document card, none, none⟩ (by decide)).1
      _ _ _ _ parse_answer
  · refine ((@suggestLayout_moves_only_iff _ answering ⟨document bare, none, none⟩ (by decide)).1
      _ _ _ _ parse_answer_bare).mpr (List.forall_mem_singleton.mpr ?_)
    constructor <;> rfl

/-- The card is reviewed, and is suggested as one of which this is not known. -/
theorem review_is_dropped :
    ∃ cards notes, parseSuggestion answering (.ofString "") (document card) =
        .ok (⟨0, 0, 1⟩, cards, notes) ∧
      ((document card).cards.map fun card => card.textReviewed) = [some true] ∧
      (cards.map fun card => card.textReviewed) = [none] ∧
      ¬ MovesOnly answering (document card) { document card with transform := ⟨0, 0, 1⟩, cards } := by
  refine ⟨_, _, parse_answer, rfl, rfl, fun hmoves => ?_⟩
  obtain ⟨⟨_, _, -, -, heq⟩, -⟩ := List.forall₂_cons.mp hmoves.cards
  have hreviewed := congrArg (fun card => card.textReviewed) heq
  cases hreviewed

end ReviewedCard

end KjAtlas.Ai
