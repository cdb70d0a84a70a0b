import KjAtlas.Foundation.CommonEnds
import KjAtlas.Js.Order

/-! # Signatures of relation summaries

A summary of a derived relation is kept under a signature of the relation: its
ends, its type and the ids of the edges that it rests on, sorted, written with
bars between them and cut after 96 code units. The cut may leave half of a
surrogate pair, so a signature is a list of code units.
-/

namespace KjAtlas.RelationHistory

open Js

structure IslandRelationEdgeSelection where
  edgeId : String
  fromIslandId : String
  toIslandId : String
  type : String
  isDerived : Bool
  contributingEdgeIds : Option (List String)
  contributingCardIds : Option (List String)

namespace IslandRelationEdgeSelection

/-- `edge.contributingEdgeIds ?? []`. -/
def edgeIds (edge : IslandRelationEdgeSelection) : List String := edge.contributingEdgeIds.getD []

end IslandRelationEdgeSelection

def truncateStableHashInput (input : List Nat) : List Nat := input.take 96

/-- The ids in order, with bars between them. -/
def writtenIds (lc : Collation) (ids : List String) : List Nat :=
  codeUnits ("|".intercalate (sortOn lc.le id ids))

def buildRelationSummarySourceSignature (lc : Collation) (edge : IslandRelationEdgeSelection) :
    List Nat :=
  if !edge.isDerived then codeUnits ("edge:" ++ edge.edgeId)
  else
    codeUnits ("derived:" ++ edge.fromIslandId ++ ":" ++ edge.toIslandId ++ ":" ++ edge.type ++ ":") ++
      truncateStableHashInput (writtenIds lc edge.edgeIds)

/-! ## Ids and their pieces -/

/-- The code unit of a bar. -/
def bar : Nat := 0x7C

/-- The ids in order. No ids are written like an empty one. -/
def ordered (lc : Collation) (ids : List String) : List String :=
  if ids = [] then [""] else sortOn lc.le id ids

/-- The ids in order, parted at the bars in them. -/
def pieces (lc : Collation) (ids : List String) : List (List Nat) :=
  (ordered lc ids).flatMap fun id => (codeUnits id).splitOn bar

section Pieces

variable {lc : Collation} {ids : List String} {edgeId : String}

theorem mem_ordered : edgeId ∈ ordered lc ids ↔ edgeId ∈ ids ∨ ids = [] ∧ edgeId = "" := by
  unfold ordered
  split
  next hnone => simp [hnone]
  next hsome => simp [hsome]

theorem codeUnits_intercalate (texts : List String) :
    codeUnits ("|".intercalate texts) = [bar].intercalate (texts.map codeUnits) := by
  induction texts with
  | nil => rfl
  | cons text texts ih =>
      cases texts with
      | nil => rw [String.intercalate_singleton, List.map_singleton, List.intercalate_singleton]
      | cons next texts =>
          rw [String.intercalate_cons_cons, List.map_cons, List.map_cons,
            List.intercalate_cons_cons, ← List.map_cons, ← ih]
          simp [codeUnits, charUnits, bar]

theorem splitOn_writtenIds (lc : Collation) (ids : List String) :
    (writtenIds lc ids).splitOn bar = pieces lc ids := by
  unfold writtenIds pieces ordered
  split
  next hnone =>
    subst hnone
    rfl
  next hsome =>
    have hsorted : (sortOn lc.le id ids).map codeUnits ≠ [] := by
      rw [Ne, List.map_eq_nil_iff, ← List.length_eq_zero_iff, sortOn.length,
        List.length_eq_zero_iff]
      exact hsome
    rw [codeUnits_intercalate, splitOn_intercalate_eq_flatMap _ hsorted, List.flatMap_map]

/-- Without bars, the pieces are the ids. -/
theorem pieces_of_no_bar (hbar : ∀ edgeId ∈ ids, bar ∉ codeUnits edgeId) :
    pieces lc ids = (ordered lc ids).map codeUnits := by
  rw [pieces, ← List.flatMap_singleton' ((ordered lc ids).map codeUnits), List.flatMap_map]
  refine List.flatMap_congr fun edgeId hmem => List.splitOnP_eq_singleton fun unit hunit => ?_
  rw [beq_eq_false_iff_ne]
  rintro rfl
  rcases mem_ordered.mp hmem with hid | ⟨-, rfl⟩
  · exact hbar edgeId hid hunit
  · cases hunit

end Pieces

/-! ## Which signatures tell the edges -/

section Signatures

variable (lc : Collation) {left right : IslandRelationEdgeSelection}

def SameEdges (left right : IslandRelationEdgeSelection) : Prop :=
  ∀ edgeId, edgeId ∈ left.edgeIds ↔ edgeId ∈ right.edgeIds

theorem signature_eq_iff (hleft : left.isDerived = true) (hright : right.isDerived = true)
    (hfrom : left.fromIslandId = right.fromIslandId) (hto : left.toIslandId = right.toIslandId)
    (htype : left.type = right.type) :
    buildRelationSummarySourceSignature lc left = buildRelationSummarySourceSignature lc right ↔
      pieces lc left.edgeIds = pieces lc right.edgeIds ∨
        ShareAtLeast 96 (pieces lc left.edgeIds) (pieces lc right.edgeIds) := by
  simp only [buildRelationSummarySourceSignature, hleft, hright, hfrom, hto, htype, Bool.not_true,
    Bool.false_eq_true, if_false, List.append_cancel_left_eq, truncateStableHashInput]
  rw [take_eq_take_iff_splitOn bar, splitOn_writtenIds, splitOn_writtenIds]

/-- Some id is empty or has a bar. -/
def SomeIrregular (left right : IslandRelationEdgeSelection) : Prop :=
  ∃ edgeId, (edgeId ∈ left.edgeIds ∨ edgeId ∈ right.edgeIds) ∧
    (edgeId = "" ∨ bar ∈ codeUnits edgeId)

/-- An id is not there equally often, or two ids are not told apart by the collation. -/
def SomeDoubled (left right : IslandRelationEdgeSelection) : Prop :=
  (∃ edgeId, left.edgeIds.count edgeId ≠ right.edgeIds.count edgeId) ∨
    ∃ edgeId ∈ left.edgeIds, ∃ other ∈ left.edgeIds,
      edgeId ≠ other ∧ lc.le edgeId other = true ∧ lc.le other edgeId = true

/-- How a signature fails to tell the edges. -/
inductive Blurred (left right : IslandRelationEdgeSelection) : Prop
  /-- Different ids fall into the same pieces. -/
  | confused (hdifferent : ¬ SameEdges left right) (hirregular : SomeIrregular left right)
      (hpieces : pieces lc left.edgeIds = pieces lc right.edgeIds)
  /-- Different ids share at least 96 code units at their starts. -/
  | cut (hdifferent : ¬ SameEdges left right)
      (hshare : ShareAtLeast 96 (pieces lc left.edgeIds) (pieces lc right.edgeIds))
  /-- The same ids, one of them repeated or two in another order, part before that. -/
  | doubled (hsame : SameEdges left right) (hdoubled : SomeDoubled lc left right)
      (hpieces : pieces lc left.edgeIds ≠ pieces lc right.edgeIds)
      (hpart : ¬ ShareAtLeast 96 (pieces lc left.edgeIds) (pieces lc right.edgeIds))

theorem someIrregular_of_pieces (hdifferent : ¬ SameEdges left right)
    (hpieces : pieces lc left.edgeIds = pieces lc right.edgeIds) : SomeIrregular left right := by
  by_contra hregular
  have hplain : ∀ edgeId, edgeId ∈ left.edgeIds ∨ edgeId ∈ right.edgeIds →
      edgeId ≠ "" ∧ bar ∉ codeUnits edgeId := fun edgeId hmem =>
    not_or.mp fun hirregular => hregular ⟨edgeId, hmem, hirregular⟩
  rw [pieces_of_no_bar fun edgeId hmem => (hplain edgeId (Or.inl hmem)).2,
    pieces_of_no_bar fun edgeId hmem => (hplain edgeId (Or.inr hmem)).2] at hpieces
  have hordered := List.map_injective_iff.mpr (fun _ _ => codeUnits_injective) hpieces
  refine hdifferent fun edgeId => ⟨fun hmem => ?_, fun hmem => ?_⟩
  · have hother := mem_ordered.mp (hordered ▸ mem_ordered.mpr (Or.inl hmem))
    exact hother.resolve_right fun hempty => (hplain edgeId (Or.inl hmem)).1 hempty.2
  · have hother := mem_ordered.mp (hordered.symm ▸ mem_ordered.mpr (Or.inl hmem))
    exact hother.resolve_right fun hempty => (hplain edgeId (Or.inr hmem)).1 hempty.2

theorem someDoubled_of_pieces
    (hpieces : pieces lc left.edgeIds ≠ pieces lc right.edgeIds) : SomeDoubled lc left right := by
  by_contra hdoubled
  obtain ⟨hcount, hties⟩ := not_or.mp hdoubled
  have hperm : left.edgeIds.Perm right.edgeIds :=
    List.perm_iff_count.mpr fun edgeId => by_contra fun hne => hcount ⟨edgeId, hne⟩
  have hsorted := sortOn.pairwise lc.le id lc.total lc.trans
  have horder : sortOn lc.le id left.edgeIds = sortOn lc.le id right.edgeIds := by
    refine List.Perm.eq_of_pairwise (fun edgeId other hid hother hle hge => ?_)
      (hsorted left.edgeIds) (hsorted right.edgeIds)
      ((sortOn.perm _ _ _).trans (hperm.trans (sortOn.perm _ _ _).symm))
    rw [sortOn.mem] at hid hother
    by_contra hne
    exact hties ⟨edgeId, hid, other, hperm.mem_iff.mpr hother, hne, hle, hge⟩
  have hnone : left.edgeIds = [] ↔ right.edgeIds = [] := by
    rw [← List.length_eq_zero_iff, hperm.length_eq, List.length_eq_zero_iff]
  exact hpieces (by simp only [pieces, ordered, horder, hnone])

theorem Blurred.wrong (hblurred : Blurred lc left right) :
    ¬ (pieces lc left.edgeIds = pieces lc right.edgeIds ∨
        ShareAtLeast 96 (pieces lc left.edgeIds) (pieces lc right.edgeIds) ↔
      SameEdges left right) := by
  intro htells
  cases hblurred with
  | confused hdifferent _ hpieces => exact hdifferent (htells.mp (Or.inl hpieces))
  | cut hdifferent hshare => exact hdifferent (htells.mp (Or.inr hshare))
  | doubled hsame _ hpieces hpart => exact (htells.mpr hsame).elim hpieces hpart

/-- The signatures of two derived relations between the same islands tell the edges that these
rest on, exactly where they are not blurred. -/
theorem signature_identifies_iff (hleft : left.isDerived = true) (hright : right.isDerived = true)
    (hfrom : left.fromIslandId = right.fromIslandId) (hto : left.toIslandId = right.toIslandId)
    (htype : left.type = right.type) :
    (buildRelationSummarySourceSignature lc left = buildRelationSummarySourceSignature lc right ↔
      SameEdges left right) ↔ ¬ Blurred lc left right := by
  rw [signature_eq_iff lc hleft hright hfrom hto htype]
  constructor
  · intro htells hblurred
    exact hblurred.wrong lc htells
  · intro hclear
    constructor
    · intro hequal
      by_contra hdifferent
      rcases hequal with hpieces | hshare
      · exact hclear (.confused hdifferent (someIrregular_of_pieces lc hdifferent hpieces) hpieces)
      · exact hclear (.cut hdifferent hshare)
    · intro hsame
      by_contra hparted
      obtain ⟨hpieces, hpart⟩ := not_or.mp hparted
      exact hclear (.doubled hsame (someDoubled_of_pieces lc hpieces) hpieces hpart)

namespace ThreeEdges

def selection (contributingEdgeIds : List String) : IslandRelationEdgeSelection where
  edgeId := "derived-island:i1|i2|related"
  fromIslandId := "i1"
  toIslandId := "i2"
  type := "related"
  isDerived := true
  contributingEdgeIds := some contributingEdgeIds
  contributingCardIds := none

def first : String := "11111111-1111-4111-8111-111111111111"

def second : String := "22222222-2222-4222-8222-222222222222"

def third : String := "33333333-3333-4333-8333-333333333333"

def fourth : String := "44444444-4444-4444-8444-444444444444"

/-- Two of these edges are told from two others. -/
theorem signature_identifies_iff_two :
    (selection [first, second]).isDerived = true ∧
      ((buildRelationSummarySourceSignature .codeUnit (selection [first, second]) =
          buildRelationSummarySourceSignature .codeUnit (selection [third, fourth]) ↔
        SameEdges (selection [first, second]) (selection [third, fourth])) ↔
      ¬ Blurred .codeUnit (selection [first, second]) (selection [third, fourth])) :=
  ⟨rfl, signature_identifies_iff .codeUnit rfl rfl rfl rfl rfl⟩

/-- A fourth edge does not change the signature. -/
theorem fourth_edge_is_cut :
    ¬ (buildRelationSummarySourceSignature .codeUnit (selection [first, second, third]) =
        buildRelationSummarySourceSignature .codeUnit (selection [first, second, third, fourth]) ↔
      SameEdges (selection [first, second, third]) (selection [first, second, third, fourth])) := by
  intro htells
  have hsame := htells.mp (by decide +kernel)
  have hmem : fourth ∈ (selection [first, second, third]).edgeIds := by
    rw [hsame fourth]
    decide +kernel
  revert hmem
  decide +kernel

end ThreeEdges

end Signatures

end KjAtlas.RelationHistory
