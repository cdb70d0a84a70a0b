import KjAtlas.Merge.Suggestion

/-! # What an applied decision records

The application of a recorded decision writes into the decision where its
representative comes from: the selected cards, and what these carry as their own
sources. What the sources carry in turn is not followed. The rest of the document
stays, and of the selected cards all but the two pointers to the representative.
-/

namespace KjAtlas

open Js

section Origins

variable (document : DocumentV1) (selectedIds : List String)

/-- The selected cards, and the cards that they carry as theirs. -/
def CarriedOrigin (id : String) : Prop :=
  id ∈ selectedIds ∨
    ∃ card ∈ document.cards, card.id ∈ selectedIds ∧ id ∈ card.repOf ++ card.sources

/-- The selected cards, and whatever such a card carries. -/
inductive Ancestor : String → Prop
  | selected {id : String} (hselected : id ∈ selectedIds) : Ancestor id
  | carried {card : Card} {id : String} (hcard : card ∈ document.cards)
      (hancestor : Ancestor card.id) (hcarried : id ∈ card.repOf ++ card.sources) : Ancestor id

variable {document selectedIds}

theorem CarriedOrigin.ancestor {id : String} (horigin : CarriedOrigin document selectedIds id) :
    Ancestor document selectedIds id := by
  rcases horigin with hselected | ⟨card, hcard, hselected, hcarried⟩
  · exact .selected hselected
  · exact .carried hcard (.selected hselected) hcarried

/-- One step gives all ancestors when what is carried carries nothing else. -/
theorem carriedOrigin_iff_ancestor :
    (∀ id, CarriedOrigin document selectedIds id ↔ Ancestor document selectedIds id) ↔
      ∀ card ∈ document.cards, CarriedOrigin document selectedIds card.id →
        ∀ id ∈ card.repOf ++ card.sources, CarriedOrigin document selectedIds id := by
  constructor
  · intro hall card hcard horigin id hcarried
    exact (hall id).mpr (.carried hcard horigin.ancestor hcarried)
  · intro hclosed id
    refine ⟨CarriedOrigin.ancestor, fun hancestor => ?_⟩
    induction hancestor with
    | selected hselected => exact Or.inl hselected
    | carried hcard _ hcarried ih => exact hclosed _ hcard ih _ hcarried

end Origins

/-- The properties that an application writes into its decision. -/
def tracedKeys : List String :=
  ["representativeCardId", "representativeResolvedBy", "sourceCardIds", "missingSourceCardIds"]

/-- An entry of an applied decision: it names the new card and the origins in order, those that
exist apart from those that are missing. -/
structure TracedEntry (lc : Collation) (origin : String → Prop)
    (result : MergeSuggestionApplyResult) (before after : MergeSuggestionDecisionEntry) : Prop where
  representative : after.props.string? "representativeCardId" = some result.representativeCardId
  origins : ∃ ids : List String, ids.Nodup ∧
    ids.Pairwise (fun left right => lc.le left right = true) ∧ (∀ id, id ∈ ids ↔ origin id) ∧
      after.props.strings? "sourceCardIds" = some
        (ids.filter fun id => decide (id ∈ result.document.cards.map Card.id)) ∧
      after.props.strings? "missingSourceCardIds" = some
        (ids.filter fun id => decide (id ∉ result.document.cards.map Card.id))
  others : ∀ key ∉ tracedKeys, after.props.get key = before.props.get key

/-- A card keeps its text, its position and its metadata; a selected card gets the pointers to the
representative. -/
structure KeptCard (selectedIds : List String) (before after : Card) : Prop where
  id : after.id = before.id
  unselected : before.id ∉ selectedIds → after = before
  selected : ∀ key ∉ ["mergedIntoCardId", "canonicalId"],
    after.props.get key = before.props.get key

/-- The decision says where the representative comes from, and the rest is as it was. -/
structure FaithfulTrace (lc : Collation) (document : DocumentV1)
    (recordedDecision : MergeSuggestionDecisionEntry) (origin : String → Prop)
    (result : MergeSuggestionApplyResult) : Prop where
  isNew : result.representativeCardId ∉ document.cards.map Card.id
  decisions : List.Forall₂ (fun before after =>
      (before.recordedId = recordedDecision.recordedId → TracedEntry lc origin result before after) ∧
        (before.recordedId ≠ recordedDecision.recordedId → after = before))
    document.mergeSuggestionDecisions result.document.mergeSuggestionDecisions
  cards : ∃ kept representative, result.document.cards = kept ++ [representative] ∧
    List.Forall₂ (KeptCard result.sourceCardIds) document.cards kept ∧
      representative.id = result.representativeCardId
  islands : result.document.islands = document.islands
  edges : result.document.edges = document.edges
  evidenceLinks : result.document.evidenceLinks = document.evidenceLinks
  others : result.document.id = document.id ∧ result.document.updatedAt = document.updatedAt ∧
    result.document.readingOrder = document.readingOrder ∧
      result.document.relationSummaries = document.relationSummaries ∧
        ∀ key, key ≠ "mergeSuggestionDecisions" →
          result.document.rest.get key = document.rest.get key

/-! ## Reading off a successful application -/

section Applications

variable {lc : Collation} {averagePosition : List Card → JsNumber × JsNumber} {randomUUID : Uuid}
  {document : DocumentV1} {decision : MergeSuggestionDecisionEntry}

theorem repOf_representativeCard (id text : String) (position : JsNumber × JsNumber)
    (claimType : Option String) (repOf sources : List String) :
    (representativeCard id text position claimType repOf sources).repOf = repOf := by
  cases claimType <;>
    simp [Card.repOf, representativeCard, Props.strings?, Props.get_cons]

theorem sources_representativeCard (id text : String) (position : JsNumber × JsNumber)
    (claimType : Option String) (repOf sources : List String) :
    (representativeCard id text position claimType repOf sources).sources = sources := by
  cases claimType <;>
    simp [Card.sources, representativeCard, Props.strings?, Props.get_cons]

theorem mergedIntoCardId_representativeCard (id text : String) (position : JsNumber × JsNumber)
    (claimType : Option String) (repOf sources : List String) :
    (representativeCard id text position claimType repOf sources).mergedIntoCardId = none := by
  cases claimType <;>
    simp [Card.mergedIntoCardId, Card.text?, representativeCard, Props.string?, Props.get_cons]

theorem trace_eq (next : DocumentV1) (representativeId : String) :
    ∃ ids : List String, ids.Nodup ∧
      ids.Pairwise (fun left right => lc.le left right = true) ∧
      (∀ source, source ∈ ids ↔
        source ∈ ((findBy Card.id representativeId next.cards).map Card.repOf).getD [] ∨
          (∃ card ∈ next.cards, card.mergedIntoCardId = some representativeId ∧ card.id = source) ∨
            source ∈ ((findBy Card.id representativeId next.cards).map Card.sources).getD []) ∧
      (resolveRepresentativeOriginTrace lc next representativeId).sourceCardIds =
        ids.filter (fun source => decide (source ∈ next.cards.map Card.id)) ∧
      (resolveRepresentativeOriginTrace lc next representativeId).missingSourceCardIds =
        ids.filter (fun source => decide (source ∉ next.cards.map Card.id)) := by
  have hhas : ∀ source : String, (InsertionMap.ofList
      (next.cards.map fun card => (card.id, card))).has source =
        decide (source ∈ next.cards.map Card.id) := by
    intro source
    rw [Bool.eq_iff_iff, decide_eq_true_eq, InsertionMap.has, InsertionMap.has_ofList_map Card.id,
      List.mem_map]
  refine ⟨sortedUniqueIds lc (((findBy Card.id representativeId next.cards).map Card.repOf).getD [] ++
    (next.cards.filter fun card => decide (card.mergedIntoCardId = some representativeId)).map Card.id ++
      ((findBy Card.id representativeId next.cards).map Card.sources).getD []), ?_, ?_, ?_, ?_, ?_⟩
  · exact nodup_normalizeIds lc _
  · exact sortOn.pairwise lc.le id lc.total lc.trans _
  · intro source
    rw [← normalizeIds, mem_normalizeIds, List.mem_append, List.mem_append, or_assoc]
    simp only [List.mem_map, List.mem_filter, decide_eq_true_eq, and_assoc]
  · unfold resolveRepresentativeOriginTrace
    dsimp only
    congr 1
    funext source
    exact hhas source
  · unfold resolveRepresentativeOriginTrace
    dsimp only
    congr 1
    funext source
    rw [hhas source, decide_not]

theorem mem_trace_iff {selectedIds : List String} {next : DocumentV1} {representative : Card}
    (hcards : next.cards = mergedCards document.cards selectedIds randomUUID.text ++
      [representative])
    (hid : representative.id = randomUUID.text) (hrepOf : representative.repOf = selectedIds)
    (hsources : representative.sources = collectRepresentativeSources lc
      (document.cards.filter fun card => selectedIds.contains card.id))
    (hmerged : representative.mergedIntoCardId = none)
    (hfresh : randomUUID.text ∉ document.cards.map Card.id)
    (hunused : ∀ card ∈ document.cards, card.mergedIntoCardId ≠ some randomUUID.text)
    (source : String) :
    (source ∈ ((findBy Card.id randomUUID.text next.cards).map Card.repOf).getD [] ∨
      (∃ card ∈ next.cards, card.mergedIntoCardId = some randomUUID.text ∧ card.id = source) ∨
        source ∈ ((findBy Card.id randomUUID.text next.cards).map Card.sources).getD []) ↔
      CarriedOrigin document selectedIds source := by
  have hfind : findBy Card.id randomUUID.text next.cards = some representative := by
    have hnone : findBy Card.id randomUUID.text
        (mergedCards document.cards selectedIds randomUUID.text) = none := by
      rw [findBy_eq_none]
      intro card hcard heq
      apply hfresh
      rw [← map_id_mergedCards document.cards selectedIds randomUUID.text]
      exact List.mem_map.mpr ⟨card, hcard, heq⟩
    rw [findBy] at hnone
    rw [hcards, findBy, List.find?_append, hnone, Option.none_or]
    simp [hid]
  rw [hfind, Option.map_some, Option.map_some, Option.getD_some, Option.getD_some, hrepOf, hsources,
    collectRepresentativeSources, ← normalizeIds, mem_normalizeIds, List.mem_flatMap]
  constructor
  · rintro (hselected | ⟨card, hcard, hinto, rfl⟩ | ⟨card, hcard, hsource⟩)
    · exact Or.inl hselected
    · -- only the selected cards point to a fresh id
      rw [hcards, List.mem_append, List.mem_singleton] at hcard
      rcases hcard with hcard | rfl
      · obtain ⟨old, hold, rfl⟩ := List.mem_map.mp hcard
        by_cases hselected : selectedIds.contains old.id = true
        · rw [if_pos hselected]
          exact Or.inl (List.contains_iff_mem.mp hselected)
        · rw [if_neg hselected] at hinto
          exact absurd hinto (hunused old hold)
      · rw [hmerged] at hinto
        cases hinto
    · obtain ⟨hcard, hselected⟩ := mem_selectedCards.mp hcard
      rcases List.mem_cons.mp hsource with rfl | hcarried
      · exact Or.inl hselected
      · exact Or.inr ⟨card, hcard, hselected, hcarried⟩
  · rintro (hselected | ⟨card, hcard, hselected, hcarried⟩)
    · exact Or.inl hselected
    · exact Or.inr (Or.inr ⟨card, mem_selectedCards.mpr ⟨hcard, hselected⟩,
        List.mem_cons_of_mem _ hcarried⟩)

/-! ## What stays -/

theorem keptCard_mergedCards (cards : List Card) (selectedIds : List String)
    (representativeCardId : String) :
    List.Forall₂ (KeptCard selectedIds) cards
      (mergedCards cards selectedIds representativeCardId) := by
  rw [mergedCards, List.forall₂_map_right_iff, List.forall₂_same]
  intro card _
  by_cases hselected : selectedIds.contains card.id = true
  · rw [if_pos hselected]
    refine ⟨rfl, fun hnot => absurd (List.contains_iff_mem.mp hselected) hnot, ?_⟩
    intro key hkey
    rw [List.mem_cons, List.mem_singleton, not_or] at hkey
    simp [Card.put, Props.get_put, hkey.1, hkey.2]
  · rw [if_neg hselected]
    exact ⟨rfl, fun _ => rfl, fun _ _ => rfl⟩

theorem applied_strings (entry : MergeSuggestionDecisionEntry) (representativeCardId : String)
    (trace : RepresentativeOriginTrace) :
    (entry.applied representativeCardId trace).props.string? "representativeCardId" =
        some representativeCardId ∧
      (entry.applied representativeCardId trace).props.strings? "sourceCardIds" =
          some trace.sourceCardIds ∧
        (entry.applied representativeCardId trace).props.strings? "missingSourceCardIds" =
          some trace.missingSourceCardIds := by
  simp [MergeSuggestionDecisionEntry.applied, Props.string?_put, Props.strings?_put,
    JsValue.string?]

theorem applied_get (entry : MergeSuggestionDecisionEntry) (representativeCardId : String)
    (trace : RepresentativeOriginTrace) {key : String} (hkey : key ∉ tracedKeys) :
    (entry.applied representativeCardId trace).props.get key = entry.props.get key := by
  simp only [tracedKeys, List.mem_cons, List.not_mem_nil, or_false, not_or] at hkey
  simp [MergeSuggestionDecisionEntry.applied, Props.get_put, hkey]

theorem sortedUniqueIds_of_selects {recordedDecision : MergeSuggestionDecisionEntry}
    {sourceIds : List String} (hselects : recordedDecision.Selects lc sourceIds) :
    sortedUniqueIds lc sourceIds = sourceIds := by
  have hsorted : ∀ ids : List String,
      sortedUniqueIds lc (normalizeIds lc ids) = normalizeIds lc ids := by
    intro ids
    rw [sortedUniqueIds, distinct_of_nodup (nodup_normalizeIds lc ids), normalizeIds,
      sortedUniqueIds]
    exact sortOn.idempotent lc.le id lc.total lc.trans _
  rcases hselects with ⟨-, rfl⟩ | ⟨-, selectedCardIds, -, rfl, -⟩
  · exact hsorted _
  · exact hsorted _

/-- A successful application records what its selected cards carry, and leaves the rest. These are
all ancestors exactly when the carried cards carry nothing else. -/
theorem origin_trace_is_faithful {result : MergeSuggestionApplyResult}
    (hok : applyRecordedMergeSuggestionDecision lc averagePosition randomUUID document decision =
      .ok result)
    (hunused : ∀ card ∈ document.cards, card.mergedIntoCardId ≠ some randomUUID.text) :
    ∃ recordedDecision, document.recordedDecision lc decision = some recordedDecision ∧
      recordedDecision.Selects lc result.sourceCardIds ∧
        FaithfulTrace lc document recordedDecision
          (CarriedOrigin document result.sourceCardIds) result ∧
          ((∀ id, CarriedOrigin document result.sourceCardIds id ↔
              Ancestor document result.sourceCardIds id) ↔
            ∀ card ∈ document.cards, CarriedOrigin document result.sourceCardIds card.id →
              ∀ id ∈ card.repOf ++ card.sources,
                CarriedOrigin document result.sourceCardIds id) := by
  obtain ⟨recordedDecision, merge, hrecorded, hselects, -, -, -, -, hmerge, hid, hdocument⟩ :=
    apply_eq_ok hok
  refine ⟨recordedDecision, hrecorded, hselects, ?_, carriedOrigin_iff_ancestor⟩
  obtain ⟨-, hnew, hrepresentative, position, claimType, hnext⟩ :=
    createRepresentativeMerge_eq_some hmerge
  have hfresh : randomUUID.text ∉ document.cards.map Card.id := by
    intro hmem
    obtain ⟨card, hcard, hsame⟩ := List.mem_map.mp hmem
    exact List.any_eq_false.mp hnew card hcard (decide_eq_true hsame)
  rw [sortedUniqueIds_of_selects hselects] at hnext
  have hcards : merge.nextDocument.cards = mergedCards document.cards result.sourceCardIds
      randomUUID.text ++ [representativeCard randomUUID.text
        (trim (trim recordedDecision.editedText)) position claimType
        result.sourceCardIds (collectRepresentativeSources lc
          (document.cards.filter fun card => result.sourceCardIds.contains card.id))] := by
    rw [hnext]
  have hdecisions : merge.nextDocument.mergeSuggestionDecisions =
      document.mergeSuggestionDecisions := by
    rw [hnext, DocumentV1.mergeSuggestionDecisions, DocumentV1.mergeSuggestionDecisions]
  have hresultCards : result.document.cards = merge.nextDocument.cards := by rw [hdocument]; rfl
  rw [hrepresentative] at hid hdocument
  refine {
    isNew := hid ▸ hfresh
    decisions := ?_
    cards := ?_
    islands := by rw [hdocument, hnext]; rfl
    edges := by rw [hdocument, hnext]; rfl
    evidenceLinks := by rw [hdocument, hnext]; rfl
    others := by
      rw [hdocument, hnext]
      refine ⟨rfl, rfl, rfl, rfl, fun key hkey => ?_⟩
      exact (Props.get_put _ _ _ _).trans (if_neg hkey) }
  · rw [hdocument, mergeSuggestionDecisions_with, hdecisions, List.forall₂_map_right_iff,
      List.forall₂_same]
    intro entry _
    constructor
    · intro hsame
      rw [if_neg (not_not.mpr hsame)]
      obtain ⟨hrep, hsource, hmissing⟩ := applied_strings entry randomUUID.text
        (resolveRepresentativeOriginTrace lc merge.nextDocument randomUUID.text)
      obtain ⟨ids, hnodup, hordered, hmem, htraceSource, htraceMissing⟩ :=
        @trace_eq lc merge.nextDocument randomUUID.text
      refine ⟨hid ▸ hrep, ⟨ids, hnodup, hordered, fun source => ?_, ?_, ?_⟩, fun key hkey => ?_⟩
      · rw [hmem source]
        exact mem_trace_iff hcards rfl (repOf_representativeCard _ _ _ _ _ _)
          (sources_representativeCard _ _ _ _ _ _)
          (mergedIntoCardId_representativeCard _ _ _ _ _ _) hfresh hunused source
      · rw [hsource, htraceSource, hresultCards]
      · rw [hmissing, htraceMissing, hresultCards]
      · exact applied_get entry _ _ hkey
    · intro hother
      rw [if_pos hother]
  · rw [hresultCards, hcards]
    exact ⟨_, _, rfl, keptCard_mergedCards _ _ _, hid.symm⟩

end Applications

namespace SuggestionInputs

def standingFor (id text : String) (repOf : List String) : Card :=
  (Card.smallest id text).put "repOf" (some (textArray repOf)) (by decide)

def acceptedUpper : MergeSuggestionDecisionEntry where
  props := [("id", some (.string "d1")), ("groupId", some (.string "g")),
    ("decision", some (.string "accept")), ("cardIds", some (textArray ["k2", "d"])),
    ("editedText", some (.string "both"))]

/-- A card of two levels of earlier merges, and a card to merge it with. -/
def twoLevels : DocumentV1 :=
  (DocumentV1.smallest [.smallest "a" "one", .smallest "b" "two", .smallest "c" "three",
    standingFor "k1" "lower" ["a", "b"], standingFor "k2" "upper" ["k1", "c"],
    .smallest "d" "four"] []).withMergeSuggestionDecisions [acceptedUpper]

/-- The trace of a merge of plain cards. -/
theorem origin_trace_is_faithful_two : ∃ result recordedDecision,
    applyRecordedMergeSuggestionDecision .codeUnit origin ⟨"r", by decide⟩ document accepted =
      .ok result ∧
    FaithfulTrace .codeUnit document recordedDecision (CarriedOrigin document result.sourceCardIds)
      result := by
  have hok : (applyRecordedMergeSuggestionDecision .codeUnit origin ⟨"r", by decide⟩ document
      accepted).isOk = true := by decide +kernel
  obtain ⟨result, hresult⟩ := exists_of_isOk hok
  obtain ⟨recordedDecision, -, -, htrace, -⟩ := origin_trace_is_faithful hresult (by decide +kernel)
  exact ⟨result, recordedDecision, hresult, htrace⟩

/-- The application succeeds, and its entry leaves out what the inner representative carries. -/
theorem inner_sources_are_left_out : ∃ result,
    applyRecordedMergeSuggestionDecision .codeUnit origin ⟨"r", by decide⟩ twoLevels
      acceptedUpper = .ok result ∧
    ¬∃ recordedDecision, twoLevels.recordedDecision .codeUnit acceptedUpper =
        some recordedDecision ∧
      FaithfulTrace .codeUnit twoLevels recordedDecision
        (Ancestor twoLevels result.sourceCardIds) result := by
  have hsources : (applyRecordedMergeSuggestionDecision .codeUnit origin ⟨"r", by decide⟩
      twoLevels acceptedUpper).toOption.map MergeSuggestionApplyResult.sourceCardIds =
        some ["d", "k2"] := by decide +kernel
  obtain ⟨result, hresult, hselected⟩ := Option.map_eq_some_iff.mp hsources
  refine ⟨result, eq_ok_of_toOption hresult, ?_⟩
  rintro ⟨recordedDecision, hrecorded, htrace⟩
  have hentries : (applyRecordedMergeSuggestionDecision .codeUnit origin ⟨"r", by decide⟩
      twoLevels acceptedUpper).toOption.map (fun result =>
        result.document.mergeSuggestionDecisions.map fun entry =>
          (entry.props.strings? "sourceCardIds", entry.props.strings? "missingSourceCardIds")) =
        some [(some ["c", "d", "k1", "k2"], some [])] := by decide +kernel
  have hentry : twoLevels.recordedDecision .codeUnit acceptedUpper = some acceptedUpper := by
    decide +kernel
  rw [hresult] at hentries
  obtain rfl := Option.some.inj (hrecorded.symm.trans hentry)
  -- the inner representative is an ancestor, and its own sources are
  have hancestor : Ancestor twoLevels result.sourceCardIds "a" := by
    have hupper : Ancestor twoLevels result.sourceCardIds "k2" := by
      apply Ancestor.selected
      rw [hselected]
      decide
    have hinner : Ancestor twoLevels result.sourceCardIds "k1" :=
      @Ancestor.carried _ _ (standingFor "k2" "upper" ["k1", "c"]) _ (by decide +kernel)
        hupper (by decide +kernel)
    exact @Ancestor.carried _ _ (standingFor "k1" "lower" ["a", "b"]) _ (by decide +kernel)
      hinner (by decide +kernel)
  obtain ⟨after, hafter, htraced⟩ : ∃ after ∈ result.document.mergeSuggestionDecisions,
      TracedEntry .codeUnit (Ancestor twoLevels result.sourceCardIds) result acceptedUpper
        after := by
    have hdecisions := htrace.decisions
    have honly : twoLevels.mergeSuggestionDecisions = [acceptedUpper] := by decide +kernel
    rw [honly, List.forall₂_cons_left_iff] at hdecisions
    obtain ⟨after, rest, ⟨htraced, -⟩, -, hafter⟩ := hdecisions
    exact ⟨after, hafter ▸ List.mem_cons_self, htraced rfl⟩
  obtain ⟨ids, -, -, hmem, hsource, hmissing⟩ := htraced.origins
  have hwritten : (after.props.strings? "sourceCardIds",
      after.props.strings? "missingSourceCardIds") = (some ["c", "d", "k1", "k2"], some []) := by
    have hmap := Option.some.inj hentries
    exact List.mem_singleton.mp (hmap ▸ List.mem_map_of_mem hafter)
  rw [hsource, hmissing, Prod.mk.injEq] at hwritten
  obtain ⟨hexisting, hmissing⟩ := hwritten
  have hid : "a" ∈ ids := (hmem "a").mpr hancestor
  by_cases hexists : "a" ∈ result.document.cards.map Card.id
  · have hlisted : "a" ∈ ["c", "d", "k1", "k2"] := by
      rw [← Option.some.inj hexisting, List.mem_filter]
      exact ⟨hid, decide_eq_true hexists⟩
    revert hlisted
    decide
  · have hlisted : "a" ∈ ([] : List String) := by
      rw [← Option.some.inj hmissing, List.mem_filter]
      exact ⟨hid, decide_eq_true hexists⟩
    cases hlisted

end SuggestionInputs

end KjAtlas
