import KjAtlas.Import.Validation
import KjAtlas.Patch.LintSound
import KjAtlas.Shelf.HoldState

/-! # The shelf under patches

An operation of a patch writes or deletes a card and leaves the shelf alone. So
shelf and hold states stay in step only when the last operation on a card agrees
with the entries that are there.
-/

namespace KjAtlas

open Js

/-! ## The cards after a run of operations -/

def DocumentV1.cardsOf (doc : DocumentV1) (id : String) : List Card :=
  doc.cards.filter fun card => decide (card.id = id)

variable {card : Card} {id : String}

theorem mem_cardsOf {doc : DocumentV1} :
    card ∈ doc.cardsOf id ↔ card ∈ doc.cards ∧ card.id = id := by
  rw [DocumentV1.cardsOf, List.mem_filter, decide_eq_true_eq]

/-- An operation on a card replaces the first card of the id, or removes all. -/
theorem cardsOf_applyPatchOp (doc : DocumentV1) (op : PatchOp) (id : String) :
    (applyPatchOp doc op).cardsOf id =
      match op.change with
      | .upsertCard card => if card.id = id then card :: (doc.cardsOf id).tail else doc.cardsOf id
      | .deleteCard cardId => if cardId = id then [] else doc.cardsOf id
      | _ => doc.cardsOf id := by
  obtain ⟨opId, change⟩ := op
  cases change with
  | upsertCard card =>
      change (upsertById Card.id doc.cards card).filter _ = _
      rw [upsertById_eq_upsertBy, filter_key_upsertBy]
      rfl
  | deleteCard cardId =>
      change (doc.cards.filter fun card => !decide (card.id = cardId)).filter _ = _
      dsimp only
      rw [List.filter_filter]
      split
      next hid =>
        rw [List.filter_eq_nil_iff]
        intro card _
        rw [hid]
        cases decide (card.id = id) <;> simp
      next hid =>
        apply List.filter_congr
        intro card _
        by_cases hcard : card.id = id
        · simp [hcard, Ne.symm hid]
        · simp [hcard]
  | _ => rfl

/-- Apart from the first card of an id, operations bring no cards. -/
theorem tail_cardsOf_applyPatchOps (ops : List PatchOp) (doc : DocumentV1) (id : String) :
    ∀ card ∈ ((applyPatchOps ops doc).cardsOf id).tail, card ∈ doc.cards := by
  induction ops using List.reverseRecOn with
  | nil => exact fun card hcard => (mem_cardsOf.mp (List.mem_of_mem_tail hcard)).1
  | append_singleton ops op ih =>
      intro card hcard
      have hstep : applyPatchOps (ops ++ [op]) doc = applyPatchOp (applyPatchOps ops doc) op :=
        List.foldl_append
      rw [hstep, cardsOf_applyPatchOp] at hcard
      split at hcard
      next written hop =>
        split at hcard
        next => exact ih card hcard
        next => exact ih card hcard
      next =>
        split at hcard
        next => cases hcard
        next => exact ih card hcard
      next => exact ih card hcard

theorem head?_cardsOf (doc : DocumentV1) (id : String) :
    (doc.cardsOf id).head? = findBy Card.id id doc.cards :=
  List.head?_filter

/-- An operation is the last on its entity. -/
def LastOn (ops : List PatchOp) (op : PatchOp) : Prop :=
  ∃ after, op :: after <:+ ops ∧ ∀ later ∈ after, later.entityKey ≠ op.entityKey

theorem lookup_of_lastOn {ops : List PatchOp} {op : PatchOp} (hlast : LastOn ops op)
    (hkey : op.entityKey = ⟨.card, id⟩) (doc : DocumentV1) :
    (applyPatchOps ops doc).lookup ⟨.card, id⟩ = op.theirValue := by
  obtain ⟨after, ⟨before, rfl⟩, hafter⟩ := hlast
  rw [hkey] at hafter
  rw [lookup_applyPatchOps_of_not_link EntityKind.noConfusion, lastValue_of_last hkey hafter]

theorem findBy_card_of_lookup {doc : DocumentV1} :
    doc.lookup ⟨.card, id⟩ = some (.card card) ↔ findBy Card.id id doc.cards = some card := by
  constructor
  · intro hlookup
    obtain ⟨found, hfound, heq⟩ := Option.map_eq_some_iff.mp hlookup
    cases heq
    exact hfound
  · exact fun hfind => Option.map_eq_some_iff.mpr ⟨card, hfind, rfl⟩

/-- Either no operation is about a card, and it is found as before, or the last
operation about it decides. -/
theorem lookup_card_cases (ops : List PatchOp) (doc : DocumentV1) (id : String) :
    (applyPatchOps ops doc).lookup ⟨.card, id⟩ = doc.lookup ⟨.card, id⟩ ∨
      ∃ op, LastOn ops op ∧ op.entityKey = ⟨.card, id⟩ ∧
        (applyPatchOps ops doc).lookup ⟨.card, id⟩ = op.theirValue := by
  rcases none_or_exists_last (fun op : PatchOp => op.entityKey = ⟨.card, id⟩) ops with
    hnone | ⟨op, after, hsuffix, hkey, hafter⟩
  · left
    rw [lookup_applyPatchOps_of_not_link EntityKind.noConfusion, lastValue_of_untouched hnone]
  · have hlast : LastOn ops op := ⟨after, hsuffix, by rwa [hkey]⟩
    exact Or.inr ⟨op, hlast, hkey, lookup_of_lastOn hlast hkey doc⟩

theorem change_of_theirValue {op : PatchOp} (hvalue : op.theirValue = some (.card card)) :
    op.change = .upsertCard card := by
  obtain ⟨opId, change⟩ := op
  cases change <;> cases hvalue
  rfl

/-- Every card after a run was there before or is written by the last operation
on it. -/
theorem mem_cards_applyPatchOps {ops : List PatchOp} {doc : DocumentV1}
    (hcard : card ∈ (applyPatchOps ops doc).cards) :
    card ∈ doc.cards ∨ ∃ op, LastOn ops op ∧ op.change = .upsertCard card := by
  have hmem := mem_cardsOf.mpr ⟨hcard, rfl⟩
  have htail := tail_cardsOf_applyPatchOps ops doc card.id
  have hhead := head?_cardsOf (applyPatchOps ops doc) card.id
  cases hcards : (applyPatchOps ops doc).cardsOf card.id with
  | nil =>
      rw [hcards] at hmem
      cases hmem
  | cons first rest =>
      rw [hcards] at hmem htail hhead
      rcases List.mem_cons.mp hmem with rfl | hrest
      · have hfound := findBy_card_of_lookup.mpr hhead.symm
        rcases lookup_card_cases ops doc card.id with hsame | ⟨op, hlast, -, hvalue⟩
        · rw [hsame] at hfound
          exact Or.inl (findBy_eq_some Card.id (findBy_card_of_lookup.mp hfound)).1
        · rw [hvalue] at hfound
          exact Or.inr ⟨op, hlast, change_of_theirValue hfound⟩
      · exact Or.inl (htail card hrest)

theorem rest_applyPatchOps (ops : List PatchOp) (doc : DocumentV1) :
    (applyPatchOps ops doc).rest = doc.rest := by
  induction ops generalizing doc with
  | nil => rfl
  | cons op ops ih =>
      rw [applyPatchOps, List.foldl_cons, ← applyPatchOps, ih]
      obtain ⟨opId, change⟩ := op
      cases change <;> rfl

theorem shelf_applyPatchOps (ops : List PatchOp) (doc : DocumentV1) :
    (applyPatchOps ops doc).shelf = doc.shelf := by
  rw [DocumentV1.shelf, DocumentV1.shelf, rest_applyPatchOps]

/-! ## The rules for documents in step -/

/-- The strict check finds no error in the shelf. -/
def PassesShelfRules (dates : DateFormat) (doc : DocumentV1) : Prop :=
  shelfErrors dates doc.toProps = []

/-- There is no shelf, or it is an array of entries. -/
def ShelfShape (dates : DateFormat) (shelf : Option JsValue) : Prop :=
  shelf = none ∨ ∃ items cardIds, shelf = some (.array items) ∧
    List.Forall₂ (ShelfEntryShape dates) items cardIds

theorem get_cards_toProps (doc : DocumentV1) :
    doc.toProps.get "cards" =
      some (.array (doc.cards.map fun card => .object card.props)) := by
  simp [DocumentV1.toProps, Props.get_cons]

theorem get_shelf_toProps (doc : DocumentV1) : doc.toProps.get "shelf" = doc.rest.get "shelf" := by
  unfold DocumentV1.toProps
  simp only [Props.get_append]
  cases doc.readingOrder <;> cases doc.relationSummaries <;> cases doc.evidenceLinks <;>
    simp [Props.get_cons]

theorem cardById_get? (cards : List Card) (id : String) :
    (cardById (cards.map fun card => .object card.props)).get? id =
      (findBy Card.id id cards.reverse).map Card.props := by
  have hentries : ((cards.map fun card => JsValue.object card.props).filterMap fun card =>
      if card.isRecord then (card.props.string? "id").map fun id => (id, card.props) else none) =
        cards.map fun card => (card.id, card.props) := by
    rw [List.filterMap_map, ← List.filterMap_eq_map]
    apply List.filterMap_congr
    intro card _
    simp [JsValue.isRecord, JsValue.props, card.id_eq]
  rw [cardById, hentries, InsertionMap.get?_ofList, ← List.map_reverse]
  simp only [findBy, List.find?_map, Option.map_map]
  rfl

theorem cardIds_of_shapes {dates : DateFormat} {items : List JsValue} {cardIds : List String}
    (hshapes : List.Forall₂ (ShelfEntryShape dates) items cardIds) :
    items.map shelfCardId = cardIds.map some := by
  induction hshapes with
  | nil => rfl
  | cons hshape _ ih => rw [List.map_cons, List.map_cons, ih, shelfCardId, hshape.cardId_eq]

theorem passesShelfRules_iff {dates : DateFormat} {doc : DocumentV1} (hstep : InStep doc) :
    PassesShelfRules dates doc ↔
      ShelfShape dates (doc.rest.get "shelf") ∧
        ∀ id, doc.hasShelfEntry id → (doc.lookup ⟨.card, id⟩).isSome := by
  have hknown : ∀ id, (doc.lookup ⟨.card, id⟩).isSome ↔ ∃ card ∈ doc.cards, card.id = id := by
    intro id
    rw [DocumentV1.lookup, Option.isSome_map, findBy_isSome]
  unfold PassesShelfRules shelfErrors
  rw [get_shelf_toProps, get_cards_toProps]
  obtain ⟨hnodup, hshelved⟩ := hstep
  unfold DocumentV1.hasShelfEntry at hshelved ⊢
  unfold DocumentV1.shelf at hnodup hshelved ⊢
  cases hshelf : doc.rest.get "shelf" with
  | none => simp [ShelfShape]
  | some value =>
      cases value with
      | array items =>
          rw [hshelf] at hnodup hshelved
          dsimp only at hnodup hshelved ⊢
          rw [shelfEntriesErrors_eq_nil]
          constructor
          · rintro ⟨cardIds, hshapes, -, -, hcards⟩
            refine ⟨Or.inr ⟨items, cardIds, rfl, hshapes⟩, fun id hentry => ?_⟩
            rw [cardIds_of_shapes hshapes] at hentry
            obtain ⟨cardId, hcardId, heq⟩ := List.mem_map.mp hentry
            cases heq
            obtain ⟨card, hcard, -⟩ := hcards id hcardId
            rw [cardById_get?, Option.map_eq_some_iff] at hcard
            obtain ⟨found, hfound, -⟩ := hcard
            obtain ⟨hmem, hid⟩ := findBy_eq_some Card.id hfound
            exact (hknown id).mpr ⟨found, List.mem_reverse.mp hmem, hid⟩
          · rintro ⟨hshape, hentries⟩
            rcases hshape with hnone | ⟨others, cardIds, heq, hshapes⟩
            · cases hnone
            · cases heq
              rw [cardIds_of_shapes hshapes] at hnodup hshelved hentries
              refine ⟨cardIds, hshapes, hnodup.of_map _, fun _ _ => List.not_mem_nil, ?_⟩
              intro id hid
              have hentry : some id ∈ cardIds.map some := List.mem_map_of_mem hid
              obtain ⟨card, hcard, hcardId⟩ := (hknown id).mp (hentries id hentry)
              have hfound : (findBy Card.id id doc.cards.reverse).isSome :=
                (findBy_isSome Card.id).mpr ⟨card, List.mem_reverse.mpr hcard, hcardId⟩
              obtain ⟨last, hlast⟩ := Option.isSome_iff_exists.mp hfound
              obtain ⟨hmem, hlastId⟩ := findBy_eq_some Card.id hlast
              refine ⟨last.props, by rw [cardById_get?, hlast]; rfl, ?_⟩
              apply (hshelved last (List.mem_reverse.mp hmem)).mpr
              rwa [hlastId]
      | _ => simp [ShelfShape]

/-! ## Runs of updates and patches -/

/-- The last operation on a card agrees with the shelf: it writes a shelved card
exactly when there is an entry, and deletes no card with an entry from a
document that passes the rules. -/
structure ShelfAgrees (dates : DateFormat) (doc : DocumentV1) (ops : List PatchOp) : Prop where
  upserted : ∀ op card, LastOn ops op → op.change = .upsertCard card →
    (card.isShelved ↔ doc.hasShelfEntry card.id)
  deleted : ∀ op cardId, LastOn ops op → op.change = .deleteCard cardId →
    PassesShelfRules dates doc → ¬doc.hasShelfEntry cardId

section Operations

variable {dates : DateFormat} {doc : DocumentV1} (hstep : InStep doc) (ops : List PatchOp)

include hstep

theorem inStep_applyPatchOps_iff :
    InStep (applyPatchOps ops doc) ↔
      ∀ op card, LastOn ops op → op.change = .upsertCard card →
        (card.isShelved ↔ doc.hasShelfEntry card.id) := by
  have hentry : ∀ id, (applyPatchOps ops doc).hasShelfEntry id ↔ doc.hasShelfEntry id := by
    intro id
    rw [DocumentV1.hasShelfEntry, shelf_applyPatchOps, DocumentV1.hasShelfEntry]
  constructor
  · intro hresult op card hlast hchange
    have hkey : op.entityKey = ⟨.card, card.id⟩ := by rw [PatchOp.entityKey, hchange]
    have hlookup := lookup_of_lastOn hlast hkey doc
    have hvalue : op.theirValue = some (.card card) := by rw [PatchOp.theirValue, hchange]
    rw [hvalue] at hlookup
    have hmem := (findBy_eq_some Card.id (findBy_card_of_lookup.mp hlookup)).1
    rw [hresult.shelved_iff card hmem, hentry]
  · intro hupserted
    refine ⟨by rw [shelf_applyPatchOps]; exact hstep.nodup, fun card hcard => ?_⟩
    rw [hentry]
    rcases mem_cards_applyPatchOps hcard with hbefore | ⟨op, hlast, hchange⟩
    · exact hstep.shelved_iff card hbefore
    · exact hupserted op card hlast hchange

/-- A run of operations keeps shelf and hold states in step, and the rules
satisfied, exactly when the last operations on the cards agree with the shelf. -/
theorem shelfAgrees_iff :
    (InStep (applyPatchOps ops doc) ∧
        (PassesShelfRules dates doc → PassesShelfRules dates (applyPatchOps ops doc))) ↔
      ShelfAgrees dates doc ops := by
  have hentry : ∀ id, (applyPatchOps ops doc).hasShelfEntry id ↔ doc.hasShelfEntry id := by
    intro id
    rw [DocumentV1.hasShelfEntry, shelf_applyPatchOps, DocumentV1.hasShelfEntry]
  constructor
  · rintro ⟨hresult, hrules⟩
    refine ⟨(inStep_applyPatchOps_iff hstep ops).mp hresult, ?_⟩
    intro op cardId hlast hchange hpasses hshelved
    have hkey : op.entityKey = ⟨.card, cardId⟩ := by rw [PatchOp.entityKey, hchange]
    have hknown := ((passesShelfRules_iff hresult).mp (hrules hpasses)).2 cardId
      ((hentry cardId).mpr hshelved)
    rw [lookup_of_lastOn hlast hkey doc, PatchOp.theirValue, hchange] at hknown
    exact absurd hknown Bool.false_ne_true
  · intro hagrees
    have hresult := (inStep_applyPatchOps_iff hstep ops).mpr hagrees.upserted
    refine ⟨hresult, fun hpasses => ?_⟩
    obtain ⟨hshape, hknown⟩ := (passesShelfRules_iff hstep).mp hpasses
    refine (passesShelfRules_iff hresult).mpr ⟨by rwa [rest_applyPatchOps], fun id hshelved => ?_⟩
    rw [hentry] at hshelved
    rcases lookup_card_cases ops doc id with hsame | ⟨op, hlast, hkey, hvalue⟩
    · rw [hsame]
      exact hknown id hshelved
    · rw [hvalue]
      obtain ⟨opId, change⟩ := op
      cases change with
      | deleteCard cardId =>
          cases hkey
          exact absurd hshelved (hagrees.deleted _ id hlast rfl hpasses)
      | upsertCard card => rfl
      | _ => cases hkey

end Operations

section Patch

variable (lc : Collation)

/-- The operations that `applyPatchWithResolutions` applies. -/
def appliedOps (currentDoc : DocumentV1) (patch : PatchV1)
    (resolutions : String → Option PatchResolution) (baselineDoc : Option DocumentV1)
    (selectedOpIds : Option (List String)) : List PatchOp :=
  let conflicts := ((baselineDoc.map fun baseline =>
    detectPatchConflicts lc baseline currentDoc patch).map ConflictReport.conflicts).getD []
  patch.ops.filter (isApplied (conflicts.map ConflictItem.opId) resolutions selectedOpIds)

theorem applyPatchWithResolutions_eq (currentDoc : DocumentV1) (patch : PatchV1)
    (resolutions : String → Option PatchResolution) (baselineDoc : Option DocumentV1)
    (selectedOpIds : Option (List String)) :
    applyPatchWithResolutions lc currentDoc patch resolutions baselineDoc selectedOpIds =
      applyPatchOps (appliedOps lc currentDoc patch resolutions baselineDoc selectedOpIds)
        currentDoc :=
  (foldl_applyStep _ resolutions selectedOpIds patch.ops _).1

/-- Updates of existing cards and a patch keep shelf and hold states in step, and
a document that passes the shelf rules still does after the patch. -/
structure StaysInStep (dates : DateFormat) (currentDoc : DocumentV1) (patch : PatchV1)
    (resolutions : String → Option PatchResolution) (baselineDoc : Option DocumentV1)
    (selectedOpIds : Option (List String)) : Prop where
  updates : ∀ calls : List HoldStateCall,
    (∀ call ∈ calls, ∃ card ∈ currentDoc.cards, card.id = call.cardId) →
      InStep (updateAll currentDoc calls)
  patched : InStep (applyPatchWithResolutions lc currentDoc patch resolutions baselineDoc
    selectedOpIds)
  rules : PassesShelfRules dates currentDoc → PassesShelfRules dates
    (applyPatchWithResolutions lc currentDoc patch resolutions baselineDoc selectedOpIds)

/-- Updates always keep shelf and hold states in step; a patch does exactly when
its last applied operations on the cards agree with the shelf. -/
theorem staysInStep_iff (dates : DateFormat) {currentDoc : DocumentV1} (hstep : InStep currentDoc)
    (patch : PatchV1) (resolutions : String → Option PatchResolution)
    (baselineDoc : Option DocumentV1) (selectedOpIds : Option (List String)) :
    StaysInStep lc dates currentDoc patch resolutions baselineDoc selectedOpIds ↔
      ShelfAgrees dates currentDoc
        (appliedOps lc currentDoc patch resolutions baselineDoc selectedOpIds) := by
  rw [← shelfAgrees_iff hstep]
  constructor
  · intro hstays
    refine ⟨?_, fun hpasses => ?_⟩
    · rw [← applyPatchWithResolutions_eq]
      exact hstays.patched
    · rw [← applyPatchWithResolutions_eq]
      exact hstays.rules hpasses
  · rintro ⟨hresult, hrules⟩
    refine ⟨fun calls _ => hstep.updateAll calls, ?_, fun hpasses => ?_⟩
    · rwa [applyPatchWithResolutions_eq]
    · rw [applyPatchWithResolutions_eq]
      exact hrules hpasses

end Patch

/-! ## A shelved card under a patch -/

namespace ShelfInputs

def timestamp : String := "2026-01-01T00:00:00.000Z"

def shelvedCard : Card := (Card.smallest "a" "text").withHoldState (some (.string "shelved"))

def shelvedDoc : DocumentV1 :=
  { DocumentV1.smallest [shelvedCard] [] with
    rest := [("shelf", some (.array [shelfEntry "a" timestamp]))] }

theorem shelvedDoc_inStep : InStep shelvedDoc := by
  refine ⟨by decide +kernel, fun card hcard => ?_⟩
  obtain rfl := List.mem_singleton.mp hcard
  exact iff_of_true (by unfold Card.isShelved; decide +kernel)
    (by unfold DocumentV1.hasShelfEntry; decide +kernel)

/-- The equivalence for a patch that writes another card. -/
theorem staysInStep_iff_new_card :
    StaysInStep .codeUnit (.instant timestamp) shelvedDoc
        (.ofOps [⟨"op", .upsertCard (.smallest "b" "text")⟩]) (fun _ => none) none none ↔
      ShelfAgrees (.instant timestamp) shelvedDoc
        (appliedOps .codeUnit shelvedDoc (.ofOps [⟨"op", .upsertCard (.smallest "b" "text")⟩])
          (fun _ => none) none none) :=
  staysInStep_iff .codeUnit _ shelvedDoc_inStep _ _ _ _

/-- Patches without lint errors that delete or replace the shelved card. -/
theorem shelf_out_of_step :
    InStep shelvedDoc ∧
      (shouldBlockPatchApplyByLint (lintPatchAgainstCurrentDoc shelvedDoc
          (.ofOps [⟨"op", .deleteCard "a"⟩])) = false ∧
        ¬StaysInStep .codeUnit (.instant timestamp) shelvedDoc
          (.ofOps [⟨"op", .deleteCard "a"⟩]) (fun _ => none) none none) ∧
      (shouldBlockPatchApplyByLint (lintPatchAgainstCurrentDoc shelvedDoc
          (.ofOps [⟨"op", .upsertCard (.smallest "a" "text")⟩])) = false ∧
        ¬StaysInStep .codeUnit (.instant timestamp) shelvedDoc
          (.ofOps [⟨"op", .upsertCard (.smallest "a" "text")⟩]) (fun _ => none) none none) := by
  refine ⟨shelvedDoc_inStep, ⟨by decide +kernel, fun hstays => ?_⟩,
    ⟨by decide +kernel, fun hstays => ?_⟩⟩
  · have hrules := hstays.rules
    unfold PassesShelfRules at hrules
    revert hrules
    decide +kernel
  · have hrules := hstays.rules
    unfold PassesShelfRules at hrules
    revert hrules
    decide +kernel

end ShelfInputs

end KjAtlas
