import KjAtlas.Foundation.Forest
import KjAtlas.Merge.Representative

/-! # The lineage of merged cards

Canonical cards and representatives are added by two operations. The pointers
from merged cards form a forest. What a card lists as its sources reaches the
card, as long as no merged card is canonicalized again.
-/

namespace KjAtlas

open Js Relation

/-! ## Runs of the two operations -/

inductive LineageOp where
  | canonicalize (input : ApplyCanonicalizationInput)
  | represent (randomUUID : Uuid) (selectedCardIds : List String) (representativeText : String)
      (rewireMembershipAndEdges : Bool)

section Runs

variable (lc : Collation) (averagePosition : List Card → JsNumber × JsNumber)

/-- The document after an operation, if it succeeds. -/
def LineageOp.run (document : DocumentV1) : LineageOp → Option DocumentV1
  | .canonicalize input =>
      match applyCanonicalization averagePosition document input with
      | .ok result => some result.document
      | .error _ => none
  | .represent randomUUID selectedCardIds text rewire =>
      (createRepresentativeMerge lc averagePosition randomUUID document selectedCardIds text
        rewire).map MergeResult.nextDocument

/-- The states of a run: an operation that fails leaves the document as it is. -/
def lineageStates (document : DocumentV1) : List LineageOp → List DocumentV1
  | [] => [document]
  | op :: ops =>
      document :: lineageStates ((op.run lc averagePosition document).getD document) ops

/-- The operations of a run, each with the state it meets. -/
def lineageSteps (document : DocumentV1) : List LineageOp → List (DocumentV1 × LineageOp)
  | [] => []
  | op :: ops =>
      (document, op) :: lineageSteps ((op.run lc averagePosition document).getD document) ops

/-- The id of the card that an operation adds. -/
def LineageOp.newId : LineageOp → String
  | .canonicalize input => (input.canonicalId.or input.canonicalIdFactory).getD ""
  | .represent randomUUID _ _ _ => randomUUID.text

/-- The cards that an operation merges. -/
def LineageOp.sourceIds : LineageOp → List String
  | .canonicalize input => distinct input.sourceCardIds
  | .represent _ selectedCardIds _ _ => sortedUniqueIds lc selectedCardIds

end Runs

/-! ## Consistent lineages -/

/-- No card carries a field of the lineage. -/
def NoLineage (document : DocumentV1) : Prop :=
  ∀ card ∈ document.cards, ∀ key ∈ ["canonicalId", "mergedIntoCardId", "repOf", "sources"],
    card.props.get key = none

def DocumentV1.cardIds (document : DocumentV1) : Set String :=
  {id | ∃ card ∈ document.cards, card.id = id}

/-- A card of the first id has the second as its `canonicalId`. -/
def PointsTo (document : DocumentV1) (id canonicalId : String) : Prop :=
  ∃ card ∈ document.cards, card.id = id ∧ card.canonicalId = some canonicalId

/-- The ids in `card.sources` and `card.repOf`. -/
def Card.lineage (card : Card) : List String := card.sources ++ card.repOf

/-- The pointers form no cycle and name existing cards, every card reaches one
card without a pointer, and what a card lists reaches the card. -/
structure LineageConsistent (document : DocumentV1) : Prop where
  acyclic : ∀ id, ¬TransGen (PointsTo document) id id
  known : ∀ card ∈ document.cards, ∀ id, card.canonicalId = some id → id ∈ document.cardIds
  root : ∀ card ∈ document.cards, ∃! root, ReflTransGen (PointsTo document) card.id root ∧
    root ∈ document.cardIds ∧
      ∀ other ∈ document.cards, other.id = root → other.canonicalId = none
  lineage : ∀ card ∈ document.cards, ∀ id ∈ card.lineage,
    id ∈ document.cardIds ∧ ReflTransGen (PointsTo document) id card.id

/-- Every source is a card of the document or the new card, and no source of a
canonicalization has a `canonicalId`. -/
structure SourcesFree (lc : Collation) (document : DocumentV1) (op : LineageOp) : Prop where
  known : ∀ id ∈ op.sourceIds lc, id ∈ document.cardIds ∨ id = op.newId
  unmerged : ∀ input, op = .canonicalize input → ∀ card ∈ document.cards,
    card.id ∈ op.sourceIds lc → card.canonicalId = none

/-! ## What one operation does -/

/-- The effect of both operations on the cards. -/
structure MergeStep (before after : DocumentV1) (sourceIds : List String) (merged : Card)
    (update : Card → Card) : Prop where
  cards : after.cards = before.cards.map update ++ [merged]
  id_update : ∀ card, (update card).id = card.id
  canonicalId_update : ∀ card, (update card).canonicalId =
    if card.id ∈ sourceIds then some merged.id else card.canonicalId
  lineage_update : ∀ card, (update card).lineage = card.lineage
  fresh : merged.id ∉ before.cardIds
  ne_empty : merged.id ≠ ""
  root : merged.canonicalId = none
  lists : ∀ id ∈ sourceIds, id ∈ merged.lineage
  listed : ∀ id ∈ merged.lineage, id ∈ sourceIds ∨
    ∃ card ∈ before.cards, card.id ∈ sourceIds ∧ id ∈ card.lineage

theorem canonicalId_put_canonicalId (card : Card) (id : String) :
    (card.put "canonicalId" (some (.string id)) (by decide)).canonicalId = some id := by
  rw [Card.canonicalId, Card.text?, Card.put, Props.string?_put, if_pos rfl]
  rfl

theorem lineage_put (card : Card) {key : String} (value : Option JsValue) (hkey : "id" ≠ key)
    (hsources : "sources" ≠ key) (hrepOf : "repOf" ≠ key) :
    (card.put key value hkey).lineage = card.lineage := by
  rw [Card.lineage, Card.sources, Card.repOf, Card.put, Props.strings?_put, if_neg hsources,
    Props.strings?_put, if_neg hrepOf]
  rfl

theorem lineage_canonicalCard (canonicalId text : String) (position : JsNumber × JsNumber)
    (sourceCardIds : List String) :
    (canonicalCard canonicalId text position sourceCardIds).lineage = sourceCardIds := by
  simp [Card.lineage, Card.sources, Card.repOf, canonicalCard, Props.strings?, Props.get_cons]

theorem canonicalId_canonicalCard (canonicalId text : String) (position : JsNumber × JsNumber)
    (sourceCardIds : List String) :
    (canonicalCard canonicalId text position sourceCardIds).canonicalId = none := by
  simp [Card.canonicalId, Card.text?, canonicalCard, Props.string?, Props.get_cons]

theorem lineage_representativeCard (id text : String) (position : JsNumber × JsNumber)
    (claimType : Option String) (repOf sources : List String) :
    (representativeCard id text position claimType repOf sources).lineage = sources ++ repOf := by
  cases claimType <;>
    simp [Card.lineage, Card.sources, Card.repOf, representativeCard, Props.strings?,
      Props.get_cons]

theorem canonicalId_representativeCard (id text : String) (position : JsNumber × JsNumber)
    (claimType : Option String) (repOf sources : List String) :
    (representativeCard id text position claimType repOf sources).canonicalId = none := by
  cases claimType <;>
    simp [Card.canonicalId, Card.text?, representativeCard, Props.string?, Props.get_cons]

variable {document : DocumentV1} {id : String}

theorem not_mem_cardIds (hnone : (document.cards.any fun card => decide (card.id = id)) = false) :
    id ∉ document.cardIds := by
  rw [List.any_eq_false] at hnone
  rintro ⟨card, hcard, hid⟩
  exact hnone card hcard (decide_eq_true hid)

theorem mergeStep_of_canonicalization {averagePosition : List Card → JsNumber × JsNumber}
    {input : ApplyCanonicalizationInput} {result : ApplyCanonicalizationResult}
    (hok : applyCanonicalization averagePosition document input = .ok result) :
    ∃ merged update,
      MergeStep document result.document (distinct input.sourceCardIds) merged update ∧
        merged.id = (input.canonicalId.or input.canonicalIdFactory).getD "" := by
  unfold applyCanonicalization at hok
  dsimp only at hok
  split at hok
  next => cases hok
  next =>
  split at hok
  next => cases hok
  next =>
  split at hok
  next => cases hok
  next canonicalId hcanonicalId =>
  split at hok
  next => cases hok
  next hfresh =>
    cases hok
    rw [Bool.not_eq_true] at hfresh
    obtain ⟨hsome, hne⟩ := Option.filter_eq_some_iff.mp hcanonicalId
    refine ⟨_, _, ⟨rfl, fun card => ?_, fun card => ?_, fun card => ?_, not_mem_cardIds hfresh,
      of_decide_eq_true hne, canonicalId_canonicalCard _ _ _ _, fun id hid => ?_,
      fun id hid => ?_⟩, by rw [hsome]; rfl⟩
    · split <;> rfl
    · by_cases hid : card.id ∈ distinct input.sourceCardIds
      · rw [if_pos (List.contains_iff_mem.mpr hid), if_pos hid]
        exact canonicalId_put_canonicalId card canonicalId
      · rw [if_neg (mt List.contains_iff_mem.mp hid), if_neg hid]
    · split
      next => exact lineage_put card _ _ (by decide) (by decide)
      next => rfl
    · rwa [lineage_canonicalCard]
    · rw [lineage_canonicalCard] at hid
      exact Or.inl hid

@[simp] theorem mem_sortedUniqueIds (lc : Collation) {ids : List String} :
    id ∈ sortedUniqueIds lc ids ↔ id ∈ ids := by
  rw [sortedUniqueIds, sortOn.mem, mem_distinct]

/-- A card without a hold, whose `mergedIntoCardId` and `canonicalId` are empty. -/
theorem not_truthy_of_no_conflict {selectedCards : List Card}
    (hconflict : hasMergeConflict document selectedCards = false) {card : Card}
    (hcard : card ∈ selectedCards) :
    truthy card.mergedIntoCardId = false ∧ truthy card.canonicalId = false := by
  unfold hasMergeConflict at hconflict
  simp only [Bool.or_eq_false_iff, List.any_eq_false] at hconflict
  have hmerged := hconflict.1.1.1.2 card hcard
  rwa [Bool.not_eq_true, Bool.or_eq_false_iff] at hmerged

theorem mergeStep_of_representative {lc : Collation}
    {averagePosition : List Card → JsNumber × JsNumber} {randomUUID : Uuid}
    {selectedCardIds : List String} {text : String} {rewire : Bool} {result : MergeResult}
    (hok : createRepresentativeMerge lc averagePosition randomUUID document selectedCardIds text
      rewire = some result) :
    (∃ merged update, MergeStep document result.nextDocument
        (sortedUniqueIds lc selectedCardIds) merged update ∧ merged.id = randomUUID.text) ∧
      ∀ card ∈ document.cards, card.id ∈ sortedUniqueIds lc selectedCardIds →
        truthy card.canonicalId = false := by
  obtain ⟨hconflict, hfresh, -, position, claimType, hnext⟩ := createRepresentativeMerge_eq_some hok
  refine ⟨⟨_, _, ⟨by rw [hnext]; rfl, fun card => ?_, fun card => ?_, fun card => ?_,
    not_mem_cardIds hfresh, randomUUID.ne_empty, canonicalId_representativeCard _ _ _ _ _ _, fun id hid => ?_,
    fun id hid => ?_⟩, rfl⟩, fun card hcard hid => ?_⟩
  · split <;> rfl
  · by_cases hid : card.id ∈ sortedUniqueIds lc selectedCardIds
    · rw [if_pos (List.contains_iff_mem.mpr hid), if_pos hid]
      exact canonicalId_put_canonicalId _ _
    · rw [if_neg (mt List.contains_iff_mem.mp hid), if_neg hid]
  · split
    next =>
      rw [lineage_put _ _ _ (by decide) (by decide), lineage_put _ _ _ (by decide) (by decide)]
    next => rfl
  · rw [lineage_representativeCard]
    exact List.mem_append_right _ hid
  · rw [lineage_representativeCard, List.mem_append] at hid
    rcases hid with hsource | hselected
    · rw [collectRepresentativeSources, mem_sortedUniqueIds, List.mem_flatMap] at hsource
      obtain ⟨card, hcard, hsource⟩ := hsource
      obtain ⟨hcard, hselected⟩ := List.mem_filter.mp hcard
      rw [List.contains_iff_mem] at hselected
      rcases List.mem_cons.mp hsource with rfl | hlisted
      · exact Or.inl hselected
      · refine Or.inr ⟨card, hcard, hselected, ?_⟩
        rwa [Card.lineage, List.mem_append, or_comm, ← List.mem_append]
    · exact Or.inl hselected
  · exact (not_truthy_of_no_conflict hconflict
      (List.mem_filter.mpr ⟨hcard, List.contains_iff_mem.mpr hid⟩)).2

/-! ## The invariant -/

/-- The pointers form a forest; what a card lists reaches the card, and a card
lists what points to it. -/
structure Tracked (document : DocumentV1) : Prop where
  forest : IsForest document.cardIds (PointsTo document)
  nonempty : ∀ card ∈ document.cards, card.canonicalId ≠ some ""
  lineage : ∀ card ∈ document.cards, ∀ id ∈ card.lineage,
    id ∈ document.cardIds ∧ ReflTransGen (PointsTo document) id card.id
  listed : ∀ {id canonicalId}, PointsTo document id canonicalId →
    ∃ card ∈ document.cards, card.id = canonicalId ∧ id ∈ card.lineage

theorem isRoot_iff :
    IsRoot (PointsTo document) id ↔
      ∀ card ∈ document.cards, card.id = id → card.canonicalId = none := by
  constructor
  · intro hroot card hcard hid
    cases hcanonicalId : card.canonicalId with
    | none => rfl
    | some canonicalId => exact absurd ⟨card, hcard, hid, hcanonicalId⟩ (hroot canonicalId)
  · rintro hnone canonicalId ⟨card, hcard, hid, hcanonicalId⟩
    rw [hnone card hcard hid] at hcanonicalId
    cases hcanonicalId

theorem Tracked.consistent (htracked : Tracked document) : LineageConsistent document where
  acyclic := htracked.forest.acyclic
  known card hcard id hid := htracked.forest.target ⟨card, hcard, rfl, hid⟩
  root card hcard := by
    obtain ⟨root, ⟨hreaches, hroot⟩, hunique⟩ := htracked.forest.existsUnique_root card.id
    refine ⟨root, ⟨hreaches, htracked.forest.mem_of_reaches ⟨card, hcard, rfl⟩ hreaches,
      isRoot_iff.mp hroot⟩, ?_⟩
    rintro other ⟨hother, -, hotherRoot⟩
    exact hunique other ⟨hother, isRoot_iff.mpr hotherRoot⟩
  lineage := htracked.lineage

theorem tracked_of_noLineage (hstart : NoLineage document) : Tracked document := by
  have hcanonicalId : ∀ card ∈ document.cards, card.canonicalId = none := by
    intro card hcard
    rw [Card.canonicalId, Card.text?, Props.string?, hstart card hcard _ (by simp)]
    rfl
  have hlineage : ∀ card ∈ document.cards, card.lineage = [] := by
    intro card hcard
    rw [Card.lineage, Card.sources, Card.repOf, Props.strings?, Props.strings?,
      hstart card hcard "sources" (by simp), hstart card hcard "repOf" (by simp)]
    rfl
  have hroots : ∀ id, IsRoot (PointsTo document) id :=
    fun id => isRoot_iff.mpr fun card hcard _ => hcanonicalId card hcard
  refine ⟨isForest_of_no_pointer hroots, fun card hcard => ?_, fun card hcard id hid => ?_,
    fun hpoints => absurd hpoints (hroots _ _)⟩
  · rw [hcanonicalId card hcard]
    rintro ⟨⟩
  · rw [hlineage card hcard] at hid
    exact absurd hid List.not_mem_nil

namespace MergeStep

variable {before after : DocumentV1} {sourceIds : List String} {merged : Card}
  {update : Card → Card} (hstep : MergeStep before after sourceIds merged update)

include hstep

theorem mem_cards {card : Card} :
    card ∈ after.cards ↔ (∃ old ∈ before.cards, update old = card) ∨ card = merged := by
  rw [hstep.cards, List.mem_append, List.mem_map, List.mem_singleton]

theorem cardIds_eq : after.cardIds = insert merged.id before.cardIds := by
  ext id
  constructor
  · rintro ⟨card, hcard, rfl⟩
    rcases hstep.mem_cards.mp hcard with ⟨old, hold, rfl⟩ | rfl
    · exact Or.inr ⟨old, hold, (hstep.id_update old).symm⟩
    · exact Or.inl rfl
  · rintro (rfl | ⟨old, hold, rfl⟩)
    · exact ⟨merged, hstep.mem_cards.mpr (Or.inr rfl), rfl⟩
    · exact ⟨update old, hstep.mem_cards.mpr (Or.inl ⟨old, hold, rfl⟩), hstep.id_update old⟩

theorem pointsTo_iff {canonicalId : String} :
    PointsTo after id canonicalId ↔
      if id ∈ sourceIds then id ∈ before.cardIds ∧ canonicalId = merged.id
      else PointsTo before id canonicalId := by
  constructor
  · rintro ⟨card, hcard, rfl, hpoints⟩
    rcases hstep.mem_cards.mp hcard with ⟨old, hold, rfl⟩ | rfl
    · rw [hstep.canonicalId_update] at hpoints
      rw [hstep.id_update]
      split at hpoints
      next hsource =>
        rw [if_pos hsource]
        exact ⟨⟨old, hold, rfl⟩, (Option.some.inj hpoints).symm⟩
      next hsource =>
        rw [if_neg hsource]
        exact ⟨old, hold, rfl, hpoints⟩
    · rw [hstep.root] at hpoints
      cases hpoints
  · intro hpoints
    split at hpoints
    next hsource =>
      obtain ⟨⟨old, hold, rfl⟩, rfl⟩ := hpoints
      refine ⟨update old, hstep.mem_cards.mpr (Or.inl ⟨old, hold, rfl⟩), hstep.id_update old, ?_⟩
      rw [hstep.canonicalId_update, if_pos hsource]
    next hsource =>
      obtain ⟨old, hold, rfl, hpoints⟩ := hpoints
      refine ⟨update old, hstep.mem_cards.mpr (Or.inl ⟨old, hold, rfl⟩), hstep.id_update old, ?_⟩
      rw [hstep.canonicalId_update, if_neg hsource, hpoints]

theorem pointsTo_eq_grown (hroots : ∀ id ∈ sourceIds, IsRoot (PointsTo before) id) :
    PointsTo after =
      Grown (PointsTo before) {id | id ∈ sourceIds ∧ id ∈ before.cardIds} merged.id := by
  ext id canonicalId
  rw [hstep.pointsTo_iff, Grown, Set.mem_ofPred_eq]
  split
  next hsource =>
    constructor
    · exact fun hpoints => Or.inr ⟨⟨hsource, hpoints.1⟩, hpoints.2⟩
    · rintro (hpoints | ⟨⟨-, hknown⟩, hnew⟩)
      · exact absurd hpoints (hroots id hsource canonicalId)
      · exact ⟨hknown, hnew⟩
  next hsource =>
    constructor
    · exact Or.inl
    · rintro (hpoints | ⟨⟨hmem, -⟩, -⟩)
      · exact hpoints
      · exact absurd hmem hsource

/-- An operation whose sources are roots keeps the invariant. -/
theorem tracked (htracked : Tracked before)
    (hknown : ∀ id ∈ sourceIds, id ∈ before.cardIds ∨ id = merged.id)
    (hroots : ∀ id ∈ sourceIds, IsRoot (PointsTo before) id) : Tracked after := by
  have hpointsTo := hstep.pointsTo_eq_grown hroots
  refine ⟨?_, fun card hcard => ?_, fun card hcard id hid => ?_, fun {id canonicalId} hpoints => ?_⟩
  · rw [hpointsTo, hstep.cardIds_eq]
    exact htracked.forest.grow hstep.fresh fun id hid => ⟨hid.2, hroots id hid.1⟩
  · rcases hstep.mem_cards.mp hcard with ⟨old, hold, rfl⟩ | rfl
    · rw [hstep.canonicalId_update]
      split
      next => exact fun heq => hstep.ne_empty (Option.some.inj heq)
      next => exact htracked.nonempty old hold
    · rw [hstep.root]
      exact nofun
  · rw [hpointsTo, hstep.cardIds_eq]
    rcases hstep.mem_cards.mp hcard with ⟨old, hold, rfl⟩ | rfl
    · rw [hstep.lineage_update] at hid
      obtain ⟨hmem, hreaches⟩ := htracked.lineage old hold id hid
      rw [hstep.id_update]
      exact ⟨Or.inr hmem, reaches_grown _ _ hreaches⟩
    · rcases hstep.listed id hid with hsource | ⟨source, hsource, hselected, hlisted⟩
      · rcases hknown id hsource with hmem | rfl
        · exact ⟨Or.inr hmem, reaches_new _ .refl ⟨hsource, hmem⟩⟩
        · exact ⟨Or.inl rfl, .refl⟩
      · obtain ⟨hmem, hreaches⟩ := htracked.lineage source hsource id hlisted
        exact ⟨Or.inr hmem, reaches_new _ hreaches ⟨hselected, source, hsource, rfl⟩⟩
  · rw [hstep.pointsTo_iff] at hpoints
    split at hpoints
    next hsource =>
      obtain ⟨-, rfl⟩ := hpoints
      exact ⟨merged, hstep.mem_cards.mpr (Or.inr rfl), rfl, hstep.lists id hsource⟩
    next =>
      obtain ⟨card, hcard, rfl, hlisted⟩ := htracked.listed hpoints
      refine ⟨update card, hstep.mem_cards.mpr (Or.inl ⟨card, hcard, rfl⟩),
        hstep.id_update card, ?_⟩
      rwa [hstep.lineage_update]

theorem free_of_consistent (htracked : Tracked before) (hconsistent : LineageConsistent after)
    (hsource : id ∈ sourceIds) :
    (id ∈ before.cardIds ∨ id = merged.id) ∧ IsRoot (PointsTo before) id := by
  have hmerged := hconsistent.lineage merged (hstep.mem_cards.mpr (Or.inr rfl)) id
    (hstep.lists id hsource)
  have hroot : IsRoot (PointsTo after) merged.id := by
    rw [isRoot_iff]
    intro card hcard hid
    rcases hstep.mem_cards.mp hcard with ⟨old, hold, rfl⟩ | rfl
    · rw [hstep.id_update] at hid
      exact absurd ⟨old, hold, hid⟩ hstep.fresh
    · exact hstep.root
  constructor
  · have hmem := hmerged.1
    rw [hstep.cardIds_eq] at hmem
    exact hmem.symm
  · intro canonicalId hpoints
    -- the card that the source pointed to lists it, but is not reached any more
    obtain ⟨card, hcard, rfl, hlisted⟩ := htracked.listed hpoints
    have hold : update card ∈ after.cards := hstep.mem_cards.mpr (Or.inl ⟨card, hcard, rfl⟩)
    have hreaches := (hconsistent.lineage (update card) hold id
      (by rwa [hstep.lineage_update])).2
    rw [hstep.id_update] at hreaches
    rcases hreaches.cases_head with rfl | ⟨next, hnext, hrest⟩
    · exact htracked.forest.acyclic _ (.single hpoints)
    · rw [hstep.pointsTo_iff, if_pos hsource] at hnext
      rw [hnext.2] at hrest
      rcases hrest.cases_head with heq | ⟨other, hother, -⟩
      · exact hstep.fresh ⟨card, hcard, heq.symm⟩
      · exact hroot other hother

end MergeStep

/-! ## Runs -/

section Runs

variable {lc : Collation} {averagePosition : List Card → JsNumber × JsNumber} {op : LineageOp}
  {result : DocumentV1}

/-- What a successful operation does to the cards. -/
theorem mergeStep_of_run (hrun : op.run lc averagePosition document = some result) :
    ∃ merged update, MergeStep document result (op.sourceIds lc) merged update ∧
      merged.id = op.newId := by
  cases op with
  | canonicalize input =>
      rw [LineageOp.run] at hrun
      split at hrun
      next result' hok =>
        cases hrun
        obtain ⟨merged, update, hstep, hid⟩ := mergeStep_of_canonicalization hok
        exact ⟨merged, update, hstep, hid⟩
      next => cases hrun
  | represent randomUUID selectedCardIds text rewire =>
      obtain ⟨result', hok, rfl⟩ := Option.map_eq_some_iff.mp hrun
      obtain ⟨⟨merged, update, hstep, hid⟩, -⟩ := mergeStep_of_representative hok
      exact ⟨merged, update, hstep, hid⟩

/-- The merge into a representative refuses merged cards. -/
theorem roots_of_free (htracked : Tracked document)
    (hrun : op.run lc averagePosition document = some result) (hfree : SourcesFree lc document op) :
    ∀ id ∈ op.sourceIds lc, IsRoot (PointsTo document) id := by
  intro id hid
  rw [isRoot_iff]
  rintro card hcard rfl
  cases op with
  | canonicalize input => exact hfree.unmerged input rfl card hcard hid
  | represent randomUUID selectedCardIds text rewire =>
      obtain ⟨result', hok, rfl⟩ := Option.map_eq_some_iff.mp hrun
      have htruthy := (mergeStep_of_representative hok).2 card hcard hid
      cases hcanonicalId : card.canonicalId with
      | none => rfl
      | some canonicalId =>
          rw [hcanonicalId, truthy, Option.any_some, decide_eq_false_iff_not, not_not] at htruthy
          rw [htruthy] at hcanonicalId
          exact absurd hcanonicalId (htracked.nonempty card hcard)

/-- A successful operation meets free sources exactly when it leaves consistent
lineages, and then it keeps the invariant. -/
theorem tracked_or_inconsistent (htracked : Tracked document)
    (hrun : op.run lc averagePosition document = some result) :
    SourcesFree lc document op ∧ Tracked result ∨
      ¬SourcesFree lc document op ∧ ¬LineageConsistent result := by
  obtain ⟨merged, update, hstep, hid⟩ := mergeStep_of_run hrun
  by_cases hfree : SourcesFree lc document op
  · refine Or.inl ⟨hfree, hstep.tracked htracked ?_ (roots_of_free htracked hrun hfree)⟩
    rw [hid]
    exact hfree.known
  · refine Or.inr ⟨hfree, fun hconsistent => hfree ⟨fun id hsource => ?_, ?_⟩⟩
    · rw [← hid]
      exact (hstep.free_of_consistent htracked hconsistent hsource).1
    · rintro input rfl card hcard hsource
      exact isRoot_iff.mp (hstep.free_of_consistent htracked hconsistent hsource).2 card hcard rfl

theorem states_consistent_iff (ops : List LineageOp) :
    ∀ {document : DocumentV1}, Tracked document →
      ((∀ state ∈ lineageStates lc averagePosition document ops, LineageConsistent state) ↔
        ∀ step ∈ lineageSteps lc averagePosition document ops,
          (step.2.run lc averagePosition step.1).isSome → SourcesFree lc step.1 step.2) := by
  induction ops with
  | nil =>
      intro document htracked
      refine iff_of_true (fun state hstate => ?_) fun _ hstep => absurd hstep List.not_mem_nil
      rw [List.mem_singleton.mp hstate]
      exact htracked.consistent
  | cons op ops ih =>
      intro document htracked
      rw [lineageStates, lineageSteps, List.forall_mem_cons, List.forall_mem_cons]
      cases hrun : op.run lc averagePosition document with
      | none =>
          rw [Option.getD_none, ih htracked]
          refine and_congr_left fun _ => iff_of_true htracked.consistent ?_
          exact fun hsome => absurd hsome Bool.false_ne_true
      | some next =>
          rw [Option.getD_some]
          rcases tracked_or_inconsistent htracked hrun with
            ⟨hfree, hnext⟩ | ⟨hfree, hinconsistent⟩
          · rw [ih hnext]
            exact and_congr_left fun _ => iff_of_true htracked.consistent fun _ => hfree
          · refine iff_of_false (fun hstates => hinconsistent (hstates.2 next ?_)) ?_
            · cases ops <;> exact List.mem_cons_self
            · exact fun hsteps => hfree (hsteps.1 rfl)

/-- Lineages are consistent in every state of a run from a document without
lineage exactly when every successful operation meets free sources. -/
theorem lineageConsistent_iff {document : DocumentV1} (hstart : NoLineage document)
    (ops : List LineageOp) :
    (∀ state ∈ lineageStates lc averagePosition document ops, LineageConsistent state) ↔
      ∀ step ∈ lineageSteps lc averagePosition document ops,
        (step.2.run lc averagePosition step.1).isSome → SourcesFree lc step.1 step.2 :=
  states_consistent_iff ops (tracked_of_noLineage hstart)

end Runs

/-! ## A source canonicalized twice -/

namespace LineageInputs

/-- Cards before any merge. -/
def start : DocumentV1 :=
  .smallest [.smallest "a" "text", .smallest "b" "text", .smallest "d" "text"] []

theorem start_noLineage : NoLineage start := by
  unfold NoLineage
  decide +kernel

def origin : List Card → JsNumber × JsNumber := fun _ => (.zero, .zero)

/-- The first canonicalization, and a second one of one of its sources. -/
def twice : List LineageOp :=
  [.canonicalize ⟨["a", "b"], "first", some "c1", none⟩,
    .canonicalize ⟨["a", "d"], "second", some "c2", none⟩]

/-- The equivalence for a representative of a canonical card. -/
theorem lineageConsistent_iff_nested :
    (∀ state ∈ lineageStates .codeUnit origin start
        [.canonicalize ⟨["a", "b"], "first", some "c1", none⟩,
          .represent ⟨"r", by decide⟩ ["c1", "d"] "both" true], LineageConsistent state) ↔
      ∀ step ∈ lineageSteps .codeUnit origin start
          [.canonicalize ⟨["a", "b"], "first", some "c1", none⟩,
            .represent ⟨"r", by decide⟩ ["c1", "d"] "both" true],
        (step.2.run .codeUnit origin step.1).isSome → SourcesFree .codeUnit step.1 step.2 :=
  lineageConsistent_iff start_noLineage _

/-- The last state of the run. -/
def afterTwice : DocumentV1 :=
  (lineageStates .codeUnit origin start twice).getLast (by simp [lineageStates, twice])

/-- The first canonical card lists a source that has gone to the second. -/
theorem source_lost :
    NoLineage start ∧ (∀ step ∈ lineageSteps .codeUnit origin start twice,
      (step.2.run .codeUnit origin step.1).isSome) ∧
        ¬∀ state ∈ lineageStates .codeUnit origin start twice, LineageConsistent state := by
  refine ⟨start_noLineage, by decide +kernel, fun hconsistent => ?_⟩
  have hlisted : ∃ card ∈ afterTwice.cards, card.id = "c1" ∧ "a" ∈ card.lineage := by
    decide +kernel
  have hfirst : ∀ card ∈ afterTwice.cards, card.id = "a" → card.canonicalId = some "c2" := by
    decide +kernel
  have hsecond : ∀ card ∈ afterTwice.cards, card.id = "c2" → card.canonicalId = none := by
    decide +kernel
  obtain ⟨first, hfirstCard, hid, hsource⟩ := hlisted
  have hreaches := ((hconsistent afterTwice (List.getLast_mem _)).lineage first hfirstCard "a"
    hsource).2
  rw [hid] at hreaches
  rcases hreaches.cases_head with heq | ⟨next, ⟨source, hcard, hsourceId, hpoints⟩, hrest⟩
  · exact absurd heq (by decide)
  · rw [hfirst source hcard hsourceId] at hpoints
    cases hpoints
    rcases hrest.cases_head with heq | ⟨other, ⟨card, hcard, hcardId, hpoints⟩, -⟩
    · exact absurd heq (by decide)
    · rw [hsecond card hcard hcardId] at hpoints
      cases hpoints

end LineageInputs

end KjAtlas
