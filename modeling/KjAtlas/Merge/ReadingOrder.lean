import KjAtlas.Merge.Canonical

/-! # The reading order

Entries are added, removed and moved next to other entries. A consolidation puts
the canonical card in the place of its first source.
-/

namespace KjAtlas

open Js

/-! ## Edits -/

inductive ReadingOrderDropPosition where
  | before
  | after
deriving DecidableEq

def appendReadingOrderEntry (readingOrder : List String) (entryId : String)
    (visibleEntryIds : List String) : List String :=
  if !visibleEntryIds.contains entryId || readingOrder.contains entryId then readingOrder
  else readingOrder ++ [entryId]

def removeReadingOrderEntry (readingOrder : List String) (entryId : String) : List String :=
  let nextOrder := readingOrder.filter fun id => decide (id ≠ entryId)
  if nextOrder.length = readingOrder.length then readingOrder else nextOrder

/-- `order.splice(index, 0, entryId)`. -/
def spliceEntry (order : List String) (index : Nat) (entryId : String) : List String :=
  order.take index ++ entryId :: order.drop index

def moveReadingOrderEntry (readingOrder : List String) (entryId targetEntryId : String)
    (position : ReadingOrderDropPosition) : List String :=
  if entryId = targetEntryId then readingOrder
  else
    match readingOrder.idxOf? entryId, readingOrder.idxOf? targetEntryId with
    | some sourceIndex, some targetIndex =>
        let nextOrder := readingOrder.eraseIdx sourceIndex
        let adjustedTargetIndex :=
          if sourceIndex < targetIndex then targetIndex - 1 else targetIndex
        let insertIndex :=
          if position = .before then adjustedTargetIndex else adjustedTargetIndex + 1
        spliceEntry nextOrder insertIndex entryId
    | _, _ => readingOrder

inductive ReadingOrderEdit where
  | append (entryId : String) (visibleEntryIds : List String)
  | remove (entryId : String)
  | move (entryId targetEntryId : String) (position : ReadingOrderDropPosition)

def ReadingOrderEdit.run (readingOrder : List String) : ReadingOrderEdit → List String
  | .append entryId visibleEntryIds => appendReadingOrderEntry readingOrder entryId visibleEntryIds
  | .remove entryId => removeReadingOrderEntry readingOrder entryId
  | .move entryId targetEntryId position =>
      moveReadingOrderEntry readingOrder entryId targetEntryId position

/-! ## Moves -/

/-- The moved entry and its target, side by side. -/
def ReadingOrderDropPosition.pair (position : ReadingOrderDropPosition)
    (entryId targetEntryId : String) : List String :=
  match position with
  | .before => [entryId, targetEntryId]
  | .after => [targetEntryId, entryId]

/-- An entry went next to another one, and nothing else moved. -/
structure MovedNextTo (readingOrder : List String) (entryId targetEntryId : String)
    (position : ReadingOrderDropPosition) (moved : List String) : Prop where
  perm : moved.Perm readingOrder
  adjacent : ∃ earlier later, moved = earlier ++ position.pair entryId targetEntryId ++ later
  others : (moved.filter fun id => decide (id ≠ entryId)) =
    readingOrder.filter fun id => decide (id ≠ entryId)

theorem spliceEntry_perm (order : List String) (index : Nat) (entryId : String) :
    (spliceEntry order index entryId).Perm (entryId :: order) := by
  have hmiddle := @List.perm_middle _ entryId (order.take index) (order.drop index)
  rwa [List.take_append_drop] at hmiddle

theorem filter_spliceEntry (order : List String) (index : Nat) (entryId : String) :
    ((spliceEntry order index entryId).filter fun id => decide (id ≠ entryId)) =
      order.filter fun id => decide (id ≠ entryId) := by
  rw [spliceEntry, List.filter_append, List.filter_cons_of_neg (by simp), ← List.filter_append,
    List.take_append_drop]

variable {order readingOrder : List String} {targetEntryId : String}

theorem spliceEntry_before {index : Nat} (htarget : order[index]? = some targetEntryId)
    (entryId : String) :
    spliceEntry order index entryId =
      order.take index ++ [entryId, targetEntryId] ++ order.drop (index + 1) := by
  obtain ⟨hindex, rfl⟩ := List.getElem?_eq_some_iff.mp htarget
  rw [spliceEntry, List.drop_eq_getElem_cons hindex, List.append_assoc]
  rfl

theorem spliceEntry_after {index : Nat} (htarget : order[index]? = some targetEntryId)
    (entryId : String) :
    spliceEntry order (index + 1) entryId =
      order.take index ++ [targetEntryId, entryId] ++ order.drop (index + 1) := by
  obtain ⟨hindex, rfl⟩ := List.getElem?_eq_some_iff.mp htarget
  rw [spliceEntry, List.take_succ_eq_append_getElem hindex, List.append_assoc, List.append_assoc]
  rfl

/-- Once an entry is taken out, another one is at the adjusted index. -/
theorem getElem?_eraseIdx_adjusted {sourceIndex targetIndex : Nat}
    (hne : sourceIndex ≠ targetIndex) :
    (order.eraseIdx sourceIndex)[if sourceIndex < targetIndex then targetIndex - 1
      else targetIndex]? = order[targetIndex]? := by
  rw [List.getElem?_eraseIdx]
  split
  next hless =>
    rw [if_neg (by omega), Nat.sub_add_cancel (by omega)]
  next hless => rw [if_pos (by omega)]

variable {entryId : String}

theorem exists_idxOf? (hentry : entryId ∈ order) :
    ∃ index, order.idxOf? entryId = some index ∧ order[index]? = some entryId := by
  obtain ⟨index, hfound⟩ := Option.isSome_iff_exists.mp (List.isSome_idxOf?.mpr hentry)
  obtain ⟨hindex, hat, -⟩ := List.idxOf?_eq_some_iff.mp hfound
  exact ⟨index, hfound, List.getElem?_eq_some_iff.mpr ⟨hindex, hat⟩⟩

theorem movedNextTo_move (hentry : entryId ∈ readingOrder) (htarget : targetEntryId ∈ readingOrder)
    (hne : entryId ≠ targetEntryId) (position : ReadingOrderDropPosition) :
    MovedNextTo readingOrder entryId targetEntryId position
      (moveReadingOrderEntry readingOrder entryId targetEntryId position) := by
  obtain ⟨sourceIndex, hsource, hentryAt⟩ := exists_idxOf? hentry
  obtain ⟨targetIndex, htargetIndex, htargetAt⟩ := exists_idxOf? htarget
  have hindex : sourceIndex ≠ targetIndex := by
    rintro rfl
    exact hne (Option.some.inj (hentryAt.symm.trans htargetAt))
  rw [← getElem?_eraseIdx_adjusted hindex] at htargetAt
  obtain ⟨hlength, hat⟩ := List.getElem?_eq_some_iff.mp hentryAt
  have hwhole : readingOrder =
      readingOrder.take sourceIndex ++ entryId :: readingOrder.drop (sourceIndex + 1) := by
    rw [← hat, ← List.drop_eq_getElem_cons hlength, List.take_append_drop]
  have hnext : readingOrder.eraseIdx sourceIndex =
      readingOrder.take sourceIndex ++ readingOrder.drop (sourceIndex + 1) :=
    List.eraseIdx_eq_take_drop_succ _ _
  rw [moveReadingOrderEntry, if_neg hne, hsource, htargetIndex]
  dsimp only
  constructor
  · apply (spliceEntry_perm _ _ _).trans
    rw [hnext]
    nth_rewrite 3 [hwhole]
    exact List.perm_middle.symm
  · cases position with
    | before => exact ⟨_, _, spliceEntry_before htargetAt entryId⟩
    | after => exact ⟨_, _, spliceEntry_after htargetAt entryId⟩
  · rw [filter_spliceEntry, hnext]
    nth_rewrite 3 [hwhole]
    rw [List.filter_append, List.filter_append, List.filter_cons_of_neg (by simp)]

/-! ## Runs of edits -/

theorem nodup_append (hnodup : readingOrder.Nodup) (entryId : String)
    (visibleEntryIds : List String) :
    (appendReadingOrderEntry readingOrder entryId visibleEntryIds).Nodup := by
  unfold appendReadingOrderEntry
  split
  next => exact hnodup
  next hnew =>
    simp only [Bool.or_eq_true, not_or, List.contains_iff_mem] at hnew
    exact hnodup.append (List.nodup_singleton entryId) (List.disjoint_singleton.mpr hnew.2)

theorem nodup_remove (hnodup : readingOrder.Nodup) (entryId : String) :
    (removeReadingOrderEntry readingOrder entryId).Nodup := by
  unfold removeReadingOrderEntry
  dsimp only
  split
  next => exact hnodup
  next => exact hnodup.filter _

/-- A move of an entry that is missing, or next to one that is, changes nothing. -/
theorem move_of_absent (habsent : ¬ (entryId ∈ readingOrder ∧ targetEntryId ∈ readingOrder))
    (position : ReadingOrderDropPosition) :
    moveReadingOrderEntry readingOrder entryId targetEntryId position = readingOrder := by
  unfold moveReadingOrderEntry
  split
  next => rfl
  next =>
    split
    next sourceIndex targetIndex hsource htarget =>
      apply absurd _ habsent
      rw [← List.isSome_idxOf?, ← List.isSome_idxOf?, hsource, htarget]
      exact ⟨rfl, rfl⟩
    next => rfl

theorem nodup_move (hnodup : readingOrder.Nodup) (entryId targetEntryId : String)
    (position : ReadingOrderDropPosition) :
    (moveReadingOrderEntry readingOrder entryId targetEntryId position).Nodup := by
  by_cases hne : entryId = targetEntryId
  · rwa [moveReadingOrderEntry, if_pos hne]
  by_cases hpresent : entryId ∈ readingOrder ∧ targetEntryId ∈ readingOrder
  · have hmoved := movedNextTo_move hpresent.1 hpresent.2 hne position
    exact hmoved.perm.nodup_iff.mpr hnodup
  · rwa [move_of_absent hpresent]

theorem nodup_run (hnodup : readingOrder.Nodup) (edit : ReadingOrderEdit) :
    (edit.run readingOrder).Nodup := by
  cases edit with
  | append entryId visibleEntryIds => exact nodup_append hnodup entryId visibleEntryIds
  | remove entryId => exact nodup_remove hnodup entryId
  | move entryId targetEntryId position => exact nodup_move hnodup entryId targetEntryId position

theorem nodup_edits (hnodup : readingOrder.Nodup) (edits : List ReadingOrderEdit) :
    (edits.foldl ReadingOrderEdit.run readingOrder).Nodup := by
  induction edits generalizing readingOrder with
  | nil => exact hnodup
  | cons edit edits ih => exact ih (nodup_run hnodup edit)

/-! ## Consolidation -/

/-- The canonical id stands where the first source stood; the other entries keep their order. -/
structure TakesPlace (readingOrder : Option (List String)) (sourceCardIds : List String)
    (canonicalId : String) (next : Option (List String)) : Prop where
  absent : readingOrder = none → next = none
  unrelated : ∀ order, readingOrder = some order → (∀ id ∈ order, id ∉ sourceCardIds) →
    next = some order
  first : ∀ earlier source later, readingOrder = some (earlier ++ source :: later) →
    (∀ id ∈ earlier, id ∉ sourceCardIds) → source ∈ sourceCardIds →
      next = some (earlier ++ canonicalId :: later.filter fun id => decide (id ∉ sourceCardIds))

theorem findIdx?_first {sourceCardIds earlier later : List String} {source : String}
    (hearlier : ∀ id ∈ earlier, id ∉ sourceCardIds) (hsource : source ∈ sourceCardIds) :
    (earlier ++ source :: later).findIdx? sourceCardIds.contains = some earlier.length := by
  have hnone : earlier.findIdx? sourceCardIds.contains = none := by
    rw [List.findIdx?_eq_none_iff]
    intro id hid
    simp [hearlier id hid]
  rw [List.findIdx?_append, hnone, List.findIdx?_cons]
  simp [hsource]

theorem takesPlace_updateReadingOrder (readingOrder : Option (List String))
    (sourceCardIds : List String) (canonicalId : String) :
    TakesPlace readingOrder sourceCardIds canonicalId
      (updateReadingOrder readingOrder sourceCardIds canonicalId) := by
  constructor
  · rintro rfl
    rfl
  · rintro order rfl hunrelated
    have hnone : order.findIdx? sourceCardIds.contains = none := by
      rw [List.findIdx?_eq_none_iff]
      intro id hid
      simp [hunrelated id hid]
    rw [updateReadingOrder, Option.map_some, hnone]
  · rintro earlier source later rfl hearlier hsource
    have hkept : (earlier ++ source :: later).filter (fun id => !sourceCardIds.contains id) =
        earlier ++ later.filter fun id => decide (id ∉ sourceCardIds) := by
      rw [List.filter_append, List.filter_cons_of_neg (by simp [hsource])]
      congr 1
      · apply List.filter_eq_self.mpr
        intro id hid
        simp [hearlier id hid]
      · apply List.filter_congr
        intro id _
        simp
    rw [updateReadingOrder, Option.map_some, findIdx?_first hearlier hsource]
    simp only [hkept]
    rw [Nat.min_eq_left (by simp), List.take_left, List.drop_left, List.append_assoc]
    rfl

theorem readingOrder_of_applyCanonicalization
    {averagePosition : List Card → JsNumber × JsNumber} {document : DocumentV1}
    {input : ApplyCanonicalizationInput} {result : ApplyCanonicalizationResult}
    (hok : applyCanonicalization averagePosition document input = .ok result) :
    result.document.readingOrder =
      updateReadingOrder document.readingOrder (distinct input.sourceCardIds)
        result.canonicalId := by
  unfold applyCanonicalization at hok
  dsimp only at hok
  split at hok
  · cases hok
  split at hok
  · cases hok
  split at hok
  · cases hok
  split at hok
  · cases hok
  · cases hok
    rfl

/-- Edits keep the order free of duplicates, a move puts the entry next to its target only, and a
consolidation puts the canonical id in the place of the first source. -/
theorem reading_order_is_kept (averagePosition : List Card → JsNumber × JsNumber) :
    (∀ (readingOrder : List String) (edits : List ReadingOrderEdit), readingOrder.Nodup →
      (edits.foldl ReadingOrderEdit.run readingOrder).Nodup) ∧
    (∀ (readingOrder : List String) (entryId targetEntryId : String)
      (position : ReadingOrderDropPosition), entryId ∈ readingOrder →
        targetEntryId ∈ readingOrder → entryId ≠ targetEntryId →
          MovedNextTo readingOrder entryId targetEntryId position
            (moveReadingOrderEntry readingOrder entryId targetEntryId position)) ∧
    ∀ (document : DocumentV1) (input : ApplyCanonicalizationInput)
      (result : ApplyCanonicalizationResult),
      applyCanonicalization averagePosition document input = .ok result →
        TakesPlace document.readingOrder input.sourceCardIds result.canonicalId
          result.document.readingOrder := by
  refine ⟨?_, ?_, ?_⟩
  · intro readingOrder edits hnodup
    exact nodup_edits hnodup edits
  · intro readingOrder entryId targetEntryId position hentry htarget hne
    exact movedNextTo_move hentry htarget hne position
  · intro document input result hok
    have htakes := takesPlace_updateReadingOrder document.readingOrder
      (distinct input.sourceCardIds) result.canonicalId
    rw [← readingOrder_of_applyCanonicalization hok] at htakes
    obtain ⟨habsent, hunrelated, hfirst⟩ := htakes
    simp only [mem_distinct] at hunrelated hfirst
    exact ⟨habsent, hunrelated, hfirst⟩

namespace ReadingOrderInputs

def document : DocumentV1 :=
  { DocumentV1.smallest [.smallest "a" "one", .smallest "b" "two", .smallest "c" "three"] [] with
    readingOrder := some ["c", "b", "a"] }

def input : ApplyCanonicalizationInput := ⟨["a", "b"], "both", some "m", none⟩

def origin : List Card → JsNumber × JsNumber := fun _ => (.zero, .zero)

/-- Three entries, one of them moved to the end, and the last two consolidated. -/
theorem reading_order_is_kept_three :
    ([ReadingOrderEdit.append "d" ["d"], .remove "d", .move "a" "c" .before].foldl
      ReadingOrderEdit.run ["a", "b", "c"]).Nodup ∧
    MovedNextTo ["a", "b", "c"] "a" "c" .after (moveReadingOrderEntry ["a", "b", "c"] "a" "c" .after) ∧
    ∃ result, applyCanonicalization origin document input = .ok result ∧
      result.document.readingOrder = some ["c", "m"] := by
  obtain ⟨hedits, hmove, hcanonical⟩ := reading_order_is_kept origin
  refine ⟨hedits _ _ (by decide), hmove _ _ _ _ (by decide) (by decide) (by decide), ?_⟩
  have hid : (applyCanonicalization origin document input).toOption.map
    ApplyCanonicalizationResult.canonicalId = some "m" := by decide +kernel
  obtain ⟨result, hresult, hid⟩ := Option.map_eq_some_iff.mp hid
  have hresult := eq_ok_of_toOption hresult
  refine ⟨result, hresult, ?_⟩
  have htakes := hcanonical document input result hresult
  rw [htakes.first ["c"] "b" ["a"] (by decide) (by decide) (by decide), hid]
  decide

end ReadingOrderInputs

end KjAtlas
