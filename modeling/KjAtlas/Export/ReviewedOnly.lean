import KjAtlas.Export.ContextProjection

/-! # What the projection tells about unreviewed cards

Two documents that agree on all that concerns reviewed cards have equal
projections, and no unreviewed card is named in them, as long as no void names an
unreviewed card and none shares its id with a reviewed one that is shown.
-/

namespace KjAtlas.ContextProjection

open Js

/-! ## Documents that agree -/

/-- What may be seen of a reviewed card: under safe mode the trimmed length of its text only. -/
structure ReviewedView where
  id : String
  claimType : Option String
  holdState : Option String
  text : Option String
  trimmedLength : Nat

def reviewedView (safeMode : Bool) (card : Card) : ReviewedView where
  id := card.id
  claimType := card.claimType
  holdState := card.holdState
  text := if safeMode then none else some card.text
  trimmedLength := SafeModePolicy.trimmedLength card.text

structure VoidView where
  id : String
  kind : String
  resolved : Bool
  cardIds : List String
  islandIds : List String
deriving DecidableEq

/-- A void without its references to unreviewed cards. -/
def voidView (doc : Document) (entry : VoidEntry) : VoidView where
  id := entry.id
  kind := entry.kind
  resolved := decide (entry.resolved = some true)
  cardIds := (entry.cardIds.getD []).filter fun id => decide (id ∉ doc.unreviewedCardIds)
  islandIds := entry.islandIds.getD []

def Document.reviewedLinks (doc : Document) : List EvidenceLink :=
  (doc.evidenceLinks.getD []).filter doc.bothEndpointsReviewed

def Document.reviewedEdges (doc : Document) : List Edge :=
  doc.edges.filter fun edge =>
    decide (edge.fromId ∈ doc.reviewedCardIds ∧ edge.toId ∈ doc.reviewedCardIds)

/-- Two documents agree on everything but their unreviewed cards and what refers to them. -/
structure Agree (safeMode : Bool) (left right : Document) : Prop where
  id : left.id = right.id
  updatedAt : left.updatedAt = right.updatedAt
  islands : left.islands = right.islands
  unreviewed : left.unreviewedCardIds.length = right.unreviewedCardIds.length
  reviewed : (left.cards.filter isReviewed).map (reviewedView safeMode) =
    (right.cards.filter isReviewed).map (reviewedView safeMode)
  links : left.reviewedLinks = right.reviewedLinks
  edges : left.reviewedEdges = right.reviewedEdges
  voids : (left.voids.getD []).map (voidView left) = (right.voids.getD []).map (voidView right)
  narrativeChecks : narrativeChecks left = narrativeChecks right

/-! ## What a projection names -/

def ContextProjectionV1.cardReferences (projection : ContextProjectionV1) : List String :=
  projection.cards.map ProjectedCard.id ++
    (projection.relations.flatMap fun relation => [relation.fromId, relation.toId]) ++
    ends projection.evidence ++ ends projection.contradictions ++
    projection.voids.flatMap fun entry => entry.cardIds.getD []

def linkEnds (links : List EvidenceLink) : List String :=
  links.flatMap fun link => [link.fromCardId, link.toCardId]

def shownCardIds (doc : Document) : Constraint → List String
  | .reviewedOnly => doc.reviewedCardIds
  | .evidence => linkEnds (doc.linksOfType "supports")
  | .contradiction => linkEnds (doc.linksOfType "contradicts")
  | .summary => linkEnds (doc.linksOfType "supports") ++ linkEnds (doc.linksOfType "contradicts") ++
      doc.reviewedEdges.flatMap fun edge => [edge.fromId, edge.toId]

def voidCardIds (doc : Document) : List String :=
  (doc.voids.getD []).flatMap fun entry => entry.cardIds.getD []

/-- No void names an unreviewed card, and no unreviewed card shares its id with a reviewed one that
is named under the constraint. -/
structure Clean (doc : Document) (constraint : Constraint) : Prop where
  voids : ∀ id ∈ voidCardIds doc, id ∉ doc.unreviewedCardIds
  shown : ∀ id ∈ shownCardIds doc constraint, id ∉ doc.unreviewedCardIds

section References

variable {lc : Collation} {sha256 : Text → String} {doc : Document} {constraint : Constraint}
  {safeMode : Bool} {id : String}

theorem mem_ends_projectLinks {links : List EvidenceLink} :
    id ∈ ends (projectLinks lc links) ↔ id ∈ linkEnds links := by
  unfold ends projectLinks linkEnds
  simp only [List.mem_flatMap, sortOn.mem, List.mem_map, exists_exists_and_eq_and]

theorem cardIdsInScope_subset (hscope : id ∈ cardIdsInScope lc doc constraint) :
    id ∈ shownCardIds doc constraint := by
  cases constraint with
  | summary => cases hscope
  | reviewedOnly => exact hscope
  | evidence => exact mem_ends_projectLinks.mp hscope
  | contradiction => exact mem_ends_projectLinks.mp hscope

theorem mem_projected_relations {edges : List Edge} :
    id ∈ ((projectRelations lc edges).flatMap fun relation => [relation.fromId, relation.toId]) ↔
      id ∈ edges.flatMap fun edge => [edge.fromId, edge.toId] := by
  unfold projectRelations
  simp only [List.mem_flatMap, sortOn.mem, List.mem_map, exists_exists_and_eq_and]

theorem mem_projected_voids :
    id ∈ (((doc.voids.getD []).map projectVoid).flatMap fun entry => entry.cardIds.getD []) ↔
      id ∈ voidCardIds doc := by
  have hids : ∀ entry : VoidEntry,
      (projectVoid entry).cardIds.getD [] = entry.cardIds.getD [] := by
    intro entry
    unfold projectVoid
    cases entry.cardIds with
    | none => rfl
    | some ids => cases ids <;> rfl
  unfold voidCardIds
  rw [List.flatMap_map]
  simp only [hids]

variable {scope : List String}

theorem mem_projected_cards :
    id ∈ ((((sortOn lc.le Card.id doc.cards).filter fun card => decide (card.id ∈ scope)).map
        (projectCard safeMode)).map ProjectedCard.id) ↔
      id ∈ scope ∧ ∃ card ∈ doc.cards, card.id = id := by
  have hid : ProjectedCard.id ∘ projectCard safeMode = Card.id := rfl
  rw [List.map_map, hid, List.mem_map]
  simp only [List.mem_filter, sortOn.mem, decide_eq_true_eq]
  constructor
  · rintro ⟨card, ⟨hcard, hscope⟩, rfl⟩
    exact ⟨hscope, card, hcard, rfl⟩
  · rintro ⟨hscope, card, hcard, rfl⟩
    exact ⟨card, ⟨hcard, hscope⟩, rfl⟩

theorem exists_of_reviewed (hid : id ∈ doc.reviewedCardIds) : ∃ card ∈ doc.cards, card.id = id := by
  obtain ⟨card, hcard, rfl⟩ := List.mem_map.mp hid
  exact ⟨card, List.mem_of_mem_filter hcard, rfl⟩

theorem mem_scope_of_relation
    (hid : id ∈ (doc.edges.filter fun edge => decide (edge.fromId ∈ scope ∧ edge.toId ∈ scope)).flatMap
      fun edge => [edge.fromId, edge.toId]) : id ∈ scope := by
  obtain ⟨edge, hedge, hend⟩ := List.mem_flatMap.mp hid
  obtain ⟨hfrom, hto⟩ := of_decide_eq_true (List.mem_filter.mp hedge).2
  rcases List.mem_pair.mp hend with rfl | rfl
  · exact hfrom
  · exact hto

theorem mem_cardReferences :
    id ∈ (buildContextProjection lc sha256 doc constraint safeMode).cardReferences ↔
      id ∈ shownCardIds doc constraint ∨ id ∈ voidCardIds doc := by
  unfold ContextProjectionV1.cardReferences buildContextProjection
  dsimp only
  simp only [List.mem_append, mem_projected_voids, mem_projected_relations, mem_projected_cards]
  refine or_congr_left ?_
  cases constraint with
  | summary =>
      simp only [reduceCtorEq, or_true, if_true]
      have hrelations : (doc.edges.filter fun edge =>
          decide (edge.fromId ∈ relationScope lc doc .summary ∧
            edge.toId ∈ relationScope lc doc .summary)) = doc.reviewedEdges := rfl
      rw [hrelations, supports, contradicts, mem_ends_projectLinks, mem_ends_projectLinks,
        shownCardIds, List.mem_append, List.mem_append]
      simp only [cardIdsInScope, List.not_mem_nil, false_and, false_or]
      tauto
  | reviewedOnly =>
      simp only [reduceCtorEq, or_self, if_false, ends, List.flatMap_nil, List.not_mem_nil, or_false]
      constructor
      · rintro (⟨hscope, -⟩ | hrelation)
        · exact hscope
        · exact mem_scope_of_relation hrelation
      · intro hid
        exact .inl ⟨hid, exists_of_reviewed hid⟩
  | evidence =>
      simp only [reduceCtorEq, true_or, or_self, if_true, if_false]
      constructor
      · rintro (((⟨hscope, -⟩ | hrelation) | hlink) | hnone)
        · exact cardIdsInScope_subset hscope
        · exact cardIdsInScope_subset (mem_scope_of_relation hrelation)
        · exact mem_ends_projectLinks.mp hlink
        · cases hnone
      · intro hid
        exact .inl (.inr (mem_ends_projectLinks.mpr hid))
  | contradiction =>
      simp only [reduceCtorEq, true_or, or_self, if_true, if_false]
      constructor
      · rintro (((⟨hscope, -⟩ | hrelation) | hnone) | hlink)
        · exact cardIdsInScope_subset hscope
        · exact cardIdsInScope_subset (mem_scope_of_relation hrelation)
        · cases hnone
        · exact mem_ends_projectLinks.mp hlink
      · intro hid
        exact .inr (mem_ends_projectLinks.mpr hid)

theorem clean_iff : Clean doc constraint ↔ ∀ id ∈ doc.unreviewedCardIds,
    id ∉ (buildContextProjection lc sha256 doc constraint safeMode).cardReferences := by
  simp only [mem_cardReferences, not_or]
  constructor
  · intro hclean id hid
    exact ⟨fun hshown => hclean.shown id hshown hid, fun hvoid => hclean.voids id hvoid hid⟩
  · intro hnone
    exact ⟨fun id hvoid hid => (hnone id hid).2 hvoid, fun id hshown hid => (hnone id hid).1 hshown⟩

end References

section Equal

variable {lc : Collation} {sha256 : Text → String} {left right doc : Document}
  {constraint : Constraint} {safeMode : Bool}

namespace Agree

theorem reviewedCardIds (hagree : Agree safeMode left right) :
    left.reviewedCardIds = right.reviewedCardIds := by
  have hids := congrArg (List.map ReviewedView.id) hagree.reviewed
  rw [List.map_map, List.map_map] at hids
  exact hids

theorem linksOfType (hagree : Agree safeMode left right) (type : String) :
    left.linksOfType type = right.linksOfType type := by
  have hfilter : ∀ doc : Document, doc.linksOfType type =
      doc.reviewedLinks.filter fun link => decide (link.type = type) := by
    intro doc
    unfold Document.linksOfType Document.reviewedLinks
    rw [List.filter_filter]
  rw [hfilter, hfilter, hagree.links]

theorem cardIdsInScope (hagree : Agree safeMode left right) :
    cardIdsInScope lc left constraint = cardIdsInScope lc right constraint := by
  unfold ContextProjection.cardIdsInScope supports contradicts
  rw [hagree.reviewedCardIds, hagree.linksOfType, hagree.linksOfType]

theorem length_reviewed (hagree : Agree safeMode left right) :
    (left.cards.filter isReviewed).length = (right.cards.filter isReviewed).length := by
  have hlength := congrArg List.length hagree.reviewed
  rwa [List.length_map, List.length_map] at hlength

end Agree

def ReviewedView.projected (safeMode : Bool) (view : ReviewedView) : ProjectedCard where
  id := view.id
  claimType := view.claimType
  holdState := view.holdState
  text := view.text.getD (SafeModePolicy.placeholder view.trimmedLength)
  reviewed := true
  redacted := safeMode

theorem projectCard_of_reviewed {card : Card} (hreviewed : isReviewed card = true) :
    projectCard safeMode card = (reviewedView safeMode card).projected safeMode := by
  cases safeMode with
  | true =>
      simp [projectCard, projectCardText, SafeModePolicy.canExposeText, SafeModePolicy.redactText,
        ReviewedView.projected, reviewedView, hreviewed]
  | false =>
      simp [projectCard, projectCardText, SafeModePolicy.canExposeText, ReviewedView.projected,
        reviewedView, hreviewed]

theorem redacted_iff (card : Card) :
    (projectCardText card safeMode).2 = (safeMode || !isReviewed card) := by
  cases safeMode <;> cases hreviewed : isReviewed card <;>
    simp [projectCardText, SafeModePolicy.canExposeText, hreviewed]

theorem cards_eq (hclean : Clean doc constraint) :
    (((sortOn lc.le Card.id doc.cards).filter fun card =>
        decide (card.id ∈ cardIdsInScope lc doc constraint)).map (projectCard safeMode)) =
      (((sortOn lc.le ReviewedView.id ((doc.cards.filter isReviewed).map
        (reviewedView safeMode))).filter fun view =>
          decide (view.id ∈ cardIdsInScope lc doc constraint)).map
            (ReviewedView.projected safeMode)) := by
  have hreviewed : ∀ card ∈ doc.cards, card.id ∈ cardIdsInScope lc doc constraint →
      isReviewed card = true := by
    intro card hcard hscope
    by_contra hnot
    apply hclean.shown card.id (cardIdsInScope_subset hscope)
    exact List.mem_map.mpr ⟨card, List.mem_filter.mpr ⟨hcard, by simpa using hnot⟩, rfl⟩
  have hfilter : (sortOn lc.le Card.id doc.cards).filter (fun card =>
        decide (card.id ∈ cardIdsInScope lc doc constraint)) =
      (sortOn lc.le Card.id (doc.cards.filter isReviewed)).filter fun card =>
        decide (card.id ∈ cardIdsInScope lc doc constraint) := by
    rw [← sortOn.filter lc.le Card.id lc.total lc.trans, List.filter_filter]
    apply List.filter_congr
    intro card hcard
    by_cases hscope : card.id ∈ cardIdsInScope lc doc constraint
    · simp [hscope, hreviewed card ((sortOn.mem lc.le Card.id).mp hcard) hscope]
    · simp [hscope]
  rw [hfilter, ← sortOn.map lc.le Card.id ReviewedView.id (reviewedView safeMode) fun _ => rfl,
    List.filter_map, List.map_map]
  apply List.map_congr_left
  intro card hcard
  have hmem := (sortOn.mem lc.le Card.id).mp (List.mem_of_mem_filter hcard)
  exact projectCard_of_reviewed (List.mem_filter.mp hmem).2

/-! ### Voids, relations and counts -/

/-- A void of a clean document is shown as its view. -/
def VoidView.projected (view : VoidView) : ProjectedVoid where
  id := view.id
  kind := view.kind
  resolved := view.resolved
  cardIds := (some view.cardIds).filter fun ids => decide (ids ≠ [])
  islandIds := (some view.islandIds).filter fun ids => decide (ids ≠ [])

theorem filter_getD (ids : Option (List String)) :
    (some (ids.getD [])).filter (fun ids => decide (ids ≠ [])) =
      ids.filter fun ids => decide (ids ≠ []) := by
  cases ids <;> rfl

theorem voids_eq (hclean : Clean doc constraint) :
    (doc.voids.getD []).map projectVoid =
      ((doc.voids.getD []).map (voidView doc)).map VoidView.projected := by
  rw [List.map_map]
  apply List.map_congr_left
  intro entry hentry
  have hkept : (entry.cardIds.getD []).filter (fun id => decide (id ∉ doc.unreviewedCardIds)) =
      entry.cardIds.getD [] := by
    rw [List.filter_eq_self]
    intro id hid
    exact decide_eq_true (hclean.voids id (List.mem_flatMap.mpr ⟨entry, hentry, hid⟩))
  simp only [Function.comp_apply, projectVoid, VoidView.projected, voidView, hkept, filter_getD]

theorem scope_subset {id : String} (hscope : id ∈ relationScope lc doc constraint) :
    id ∈ doc.reviewedCardIds := by
  have hends : ∀ type, id ∈ linkEnds (doc.linksOfType type) → id ∈ doc.reviewedCardIds := by
    intro type hid
    obtain ⟨link, hlink, hend⟩ := List.mem_flatMap.mp hid
    have hboth := (List.mem_filter.mp hlink).2
    rw [Bool.and_eq_true] at hboth
    obtain ⟨hfrom, hto⟩ := of_decide_eq_true hboth.2
    rcases List.mem_pair.mp hend with rfl | rfl
    · exact hfrom
    · exact hto
  cases constraint with
  | summary => exact hscope
  | reviewedOnly => exact hscope
  | evidence => exact hends _ (mem_ends_projectLinks.mp hscope)
  | contradiction => exact hends _ (mem_ends_projectLinks.mp hscope)

theorem edges_eq : (doc.edges.filter fun edge =>
      decide (edge.fromId ∈ relationScope lc doc constraint ∧
        edge.toId ∈ relationScope lc doc constraint)) =
    doc.reviewedEdges.filter fun edge =>
      decide (edge.fromId ∈ relationScope lc doc constraint ∧
        edge.toId ∈ relationScope lc doc constraint) := by
  unfold Document.reviewedEdges
  rw [List.filter_filter]
  apply List.filter_congr
  intro edge _
  by_cases hscope : edge.fromId ∈ relationScope lc doc constraint ∧
      edge.toId ∈ relationScope lc doc constraint
  · simp [hscope, scope_subset hscope.1, scope_subset hscope.2]
  · simp [hscope]

theorem length_cards (doc : Document) : doc.cards.length =
    (doc.cards.filter isReviewed).length + doc.unreviewedCardIds.length := by
  unfold Document.unreviewedCardIds
  rw [List.length_map, ← List.length_eq_length_filter_add]

theorem counts_eq (lc : Collation) (safeMode : Bool) (hagree : Agree safeMode left right) :
    (⟨((sortOn lc.le Card.id left.cards).filter isReviewed).length,
      (sortOn lc.le Card.id left.cards).length -
        ((sortOn lc.le Card.id left.cards).filter isReviewed).length,
      ((sortOn lc.le Card.id left.cards).filter fun card =>
        (projectCardText card safeMode).2).length⟩ : Counts) =
    ⟨((sortOn lc.le Card.id right.cards).filter isReviewed).length,
      (sortOn lc.le Card.id right.cards).length -
        ((sortOn lc.le Card.id right.cards).filter isReviewed).length,
      ((sortOn lc.le Card.id right.cards).filter fun card =>
        (projectCardText card safeMode).2).length⟩ := by
  have hlength : ∀ (p : Card → Bool) (cards : List Card),
      ((sortOn lc.le Card.id cards).filter p).length = (cards.filter p).length :=
    fun p cards => ((sortOn.perm lc.le Card.id cards).filter p).length_eq
  have hunreviewed : ∀ doc : Document, (doc.cards.filter fun card => !isReviewed card).length =
      doc.unreviewedCardIds.length := fun doc => (List.length_map ..).symm
  have htotal : left.cards.length = right.cards.length := by
    rw [length_cards, length_cards, hagree.length_reviewed, hagree.unreviewed]
  have hredacted : (left.cards.filter fun card => (projectCardText card safeMode).2).length =
      (right.cards.filter fun card => (projectCardText card safeMode).2).length := by
    simp only [redacted_iff]
    cases safeMode with
    | true => simpa using htotal
    | false =>
        simp only [Bool.false_or, hunreviewed]
        exact hagree.unreviewed
  simp only [hlength, sortOn.length, hagree.length_reviewed, htotal, hredacted]

theorem projection_eq (lc : Collation) (sha256 : Text → String)
    (hagree : Agree safeMode left right) (hleft : Clean left constraint)
    (hright : Clean right constraint) :
    buildContextProjection lc sha256 left constraint safeMode =
      buildContextProjection lc sha256 right constraint safeMode := by
  have hcards := @cards_eq lc left constraint safeMode hleft
  rw [hagree.reviewed, hagree.cardIdsInScope, ← cards_eq hright] at hcards
  have hvoids := voids_eq hleft
  rw [hagree.voids, ← voids_eq hright] at hvoids
  have hscope : relationScope lc left constraint = relationScope lc right constraint := by
    unfold relationScope
    rw [hagree.reviewedCardIds, hagree.cardIdsInScope]
  have hedges := @edges_eq lc left constraint
  rw [hagree.edges, hscope, ← edges_eq] at hedges
  have hsupports : supports lc left = supports lc right := by
    rw [supports, hagree.linksOfType, supports]
  have hcontradicts : contradicts lc left = contradicts lc right := by
    rw [contradicts, hagree.linksOfType, contradicts]
  have hcounts := counts_eq lc safeMode hagree
  have hscoped := @Agree.cardIdsInScope lc left right constraint safeMode hagree
  unfold buildContextProjection
  simp only [hscoped, hcards, hvoids, hscope, hedges, hsupports, hcontradicts, hcounts, hagree.id,
    hagree.updatedAt, hagree.islands, hagree.narrativeChecks]

end Equal

/-! ## Nothing is revealed -/

/-- Two documents have one projection, with one hash, and it names no unreviewed card of either. -/
def RevealsNothing (lc : Collation) (sha256 : Text → String) (left right : Document)
    (constraint : Constraint) (safeMode : Bool) : Prop :=
  buildContextProjection lc sha256 left constraint safeMode =
      buildContextProjection lc sha256 right constraint safeMode ∧
    (∀ id ∈ left.unreviewedCardIds,
      id ∉ (buildContextProjection lc sha256 left constraint safeMode).cardReferences) ∧
    ∀ id ∈ right.unreviewedCardIds,
      id ∉ (buildContextProjection lc sha256 right constraint safeMode).cardReferences

/-- The projections of documents that agree on all but their unreviewed cards reveal nothing about
these exactly if in both documents no void names an unreviewed card, and no unreviewed card shares
its id with a reviewed one that the constraint shows. -/
theorem reveals_nothing_iff (lc : Collation) (sha256 : Text → String) (left right : Document)
    (constraint : Constraint) (safeMode : Bool) (hagree : Agree safeMode left right) :
    RevealsNothing lc sha256 left right constraint safeMode ↔
      Clean left constraint ∧ Clean right constraint := by
  unfold RevealsNothing
  rw [← clean_iff, ← clean_iff]
  constructor
  · rintro ⟨-, hclean⟩
    exact hclean
  · rintro ⟨hleft, hright⟩
    exact ⟨projection_eq lc sha256 hagree hleft hright, hleft, hright⟩

namespace UnreviewedCard

def reviewed : Card := ⟨"a", none, none, "First", some true⟩

/-- A document with an unreviewed card, and a void that names cards. -/
def document (unreviewed : String) (named : List String) : Document where
  id := "doc"
  updatedAt := "2026-01-01T00:00:00.000Z"
  cards := [reviewed, ⟨unreviewed, none, none, "Draft " ++ unreviewed, none⟩]
  islands := []
  edges := []
  evidenceLinks := none
  voids := some [⟨"v", "unreviewed_content", some named, none, none⟩]
  narratives := none

def sha256 (text : Text) : String := .ofList text

/-- Voids that name the reviewed card only. -/
theorem reviewed_reveals_nothing : RevealsNothing .codeUnit sha256 (document "u" ["a"])
    (document "w" ["a"]) .summary false := by
  refine (reveals_nothing_iff .codeUnit sha256 _ _ .summary false ?_).mpr ⟨?_, ?_⟩
  · exact ⟨rfl, rfl, rfl, rfl, rfl, rfl, rfl, by decide, rfl⟩
  · exact ⟨by decide, by decide⟩
  · exact ⟨by decide, by decide⟩

/-- The voids carry the ids of the unreviewed cards. -/
theorem unreviewed_named : Agree false (document "u" ["u"]) (document "w" ["w"]) ∧
    ¬RevealsNothing .codeUnit sha256 (document "u" ["u"]) (document "w" ["w"]) .summary false := by
  constructor
  · exact ⟨rfl, rfl, rfl, rfl, rfl, rfl, rfl, by decide, rfl⟩
  · intro hnothing
    apply hnothing.2.1 "u" (by decide)
    decide +kernel

end UnreviewedCard

end KjAtlas.ContextProjection
