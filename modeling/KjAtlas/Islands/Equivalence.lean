import Mathlib.Algebra.Order.BigOperators.Group.List
import KjAtlas.Islands.Agreement

/-! # When the two aggregations are equivalent

Under the boundary conditions of the comparison, the two aggregations agree
exactly when no relation has an end that only an island knows, both orders of
texts order the islands alike, and the first of the relations with one id shows
the same ends on both sides.
-/

namespace KjAtlas

open Js

/-! ## Orders of texts -/

theorem append_lt_append {α : Type} [LinearOrder α] {s t : List α} (hlt : s < t) (hstart : ¬s <+: t)
    (left right : List α) : s ++ left < t ++ right := by
  induction s generalizing t with
  | nil => exact absurd (List.nil_prefix) hstart
  | cons a s ih =>
      cases t with
      | nil => exact absurd hlt (List.not_lt_nil _)
      | cons b t =>
          rw [List.cons_append, List.cons_append, List.cons_lt_cons_iff]
          rcases List.cons_lt_cons_iff.mp hlt with hhead | ⟨rfl, htail⟩
          · exact Or.inl hhead
          · refine Or.inr ⟨rfl, ih htail fun hsub => hstart ?_⟩
            exact List.cons_prefix_cons.mpr ⟨rfl, hsub⟩

theorem codeUnitLe_append {left right : String} (hstart : left.toList <+: right.toList) :
    codeUnitLe left right = true := by
  obtain ⟨rest, hrest⟩ := hstart
  rw [codeUnitLe, decide_eq_true_eq, codeUnits, codeUnits, ← hrest, List.flatMap_append]
  exact not_lt.mp fun hlt => @List.le_append_left Nat _ _ _ _ hlt

/-- The id of a row of islands that the two orders arrange differently comes
earlier, by code points, when they stand in the order of code points. -/
theorem key_lt_key {lower upper type : String} (hlt : lower < upper)
    (hunits : codeUnitLe lower upper = false) :
    (⟨.island, lower, upper, type⟩ : Promotion).key <
      (⟨.island, upper, lower, type⟩ : Promotion).key := by
  have hstart : ¬lower.toList <+: upper.toList := fun hstart => by
    rw [codeUnitLe_append hstart] at hunits
    cases hunits
  rw [String.lt_iff_toList_lt] at hlt ⊢
  simp only [Promotion.key, String.toList_append, List.append_assoc]
  exact List.append_left_lt (append_lt_append hlt hstart _ _)

theorem codeUnitLe_self (text : String) : codeUnitLe text text = true :=
  codeUnitLe_append List.prefix_rfl

theorem codePointLe_self (text : String) : codePointLe text text = true :=
  decide_eq_true le_rfl

theorem isSome_promotionBy (le le' : String → String → Bool) (document : DocumentV1) (edge : Edge) :
    (promotionBy le document edge).isSome = (promotionBy le' document edge).isSome := by
  unfold promotionBy
  split
  next => rfl
  next fromIsland toIsland _ _ =>
    by_cases heq : fromIsland = toIsland
    · rw [if_pos heq, if_pos heq]
    · rw [if_neg heq, if_neg heq]
      split <;> split <;> rfl
  next => rfl
  next => rfl

variable {edge : Edge}

/-- Under code units an edge contributes to the same row, or to one with a later id. -/
theorem eq_or_key_lt_key {document : DocumentV1} {byPoints byUnits : Promotion}
    (hpoints : promotionBy codePointLe document edge = some byPoints)
    (hunits : promotionBy codeUnitLe document edge = some byUnits) :
    byPoints = byUnits ∨ byPoints.key < byUnits.key := by
  unfold promotionBy at hpoints hunits
  cases hfrom : (getIslandsForCard document edge.fromId).head? with
  | none =>
      rw [hfrom] at hpoints hunits
      cases hto : (getIslandsForCard document edge.toId).head? with
      | none =>
          rw [hto] at hpoints
          cases hpoints
      | some toIsland =>
          rw [hto] at hpoints hunits
          exact Or.inl (Option.some.inj (hpoints.symm.trans hunits))
  | some fromIsland =>
      cases hto : (getIslandsForCard document edge.toId).head? with
      | none =>
          rw [hfrom, hto] at hpoints hunits
          exact Or.inl (Option.some.inj (hpoints.symm.trans hunits))
      | some toIsland =>
          rw [hfrom, hto] at hpoints hunits
          dsimp only at hpoints hunits
          by_cases heq : fromIsland = toIsland
          · rw [if_pos heq] at hpoints
            cases hpoints
          rw [if_neg heq] at hpoints hunits
          by_cases hcausal : edge.type = "causal"
          · rw [if_pos (Or.inl hcausal)] at hpoints hunits
            exact Or.inl (Option.some.inj (hpoints.symm.trans hunits))
          cases hpointsLe : codePointLe fromIsland toIsland <;>
            cases hunitsLe : codeUnitLe fromIsland toIsland <;>
              simp only [hcausal, hpointsLe, hunitsLe, Bool.false_eq_true, or_self, or_true, if_true,
                if_false, Option.some.injEq] at hpoints hunits
          · exact Or.inl (hpoints.symm.trans hunits)
          · -- the code points put the second island first
            have hlt : toIsland < fromIsland := not_le.mp (of_decide_eq_false hpointsLe)
            have hreverse : codeUnitLe toIsland fromIsland = false := by
              rw [← Bool.not_eq_true]
              exact fun hle => heq (codeUnitLe_antisymm _ _ hunitsLe hle)
            rw [← hpoints, ← hunits]
            exact Or.inr (key_lt_key hlt hreverse)
          · have hlt : fromIsland < toIsland := lt_of_le_of_ne (of_decide_eq_true hpointsLe) heq
            rw [← hpoints, ← hunits]
            exact Or.inr (key_lt_key hlt hunitsLe)
          · exact Or.inl (hpoints.symm.trans hunits)

/-- An edge contributes to the same row exactly when both orders arrange its
islands alike. -/
theorem promotionBy_eq_iff {document : DocumentV1}
    (hfrom : (getIslandsForCard document edge.fromId).length ≤ 1)
    (hto : (getIslandsForCard document edge.toId).length ≤ 1) :
    promotionBy codeUnitLe document edge = promotionBy codePointLe document edge ↔
      (edge.type ≠ "causal" → ∀ fromIsland ∈ getIslandsForCard document edge.fromId,
        ∀ toIsland ∈ getIslandsForCard document edge.toId,
          codeUnitLe fromIsland toIsland = codePointLe fromIsland toIsland) := by
  unfold promotionBy
  rcases eq_nil_or_singleton hfrom with hfrom | ⟨fromIsland, hfrom⟩ <;>
    rcases eq_nil_or_singleton hto with hto | ⟨toIsland, hto⟩ <;>
      rw [hfrom, hto]
  · exact iff_of_true rfl fun _ _ hmem => absurd hmem List.not_mem_nil
  · exact iff_of_true rfl fun _ _ hmem => absurd hmem List.not_mem_nil
  · exact iff_of_true rfl fun _ _ _ _ hmem => absurd hmem List.not_mem_nil
  · simp only [List.head?_cons, List.mem_singleton, forall_eq]
    by_cases heq : fromIsland = toIsland
    · subst heq
      exact iff_of_true (by rw [if_pos rfl, if_pos rfl]) fun _ => by
        rw [codeUnitLe_self, codePointLe_self]
    · rw [if_neg heq, if_neg heq]
      by_cases hcausal : edge.type = "causal"
      · rw [if_pos (Or.inl hcausal), if_pos (Or.inl hcausal)]
        exact iff_of_true rfl fun h => absurd hcausal h
      · cases codeUnitLe fromIsland toIsland <;> cases codePointLe fromIsland toIsland <;>
          simp [hcausal, heq, Ne.symm heq]

/-! ## The contributions of a document -/

def cardContributions (le : String → String → Bool) (document : DocumentV1) :
    List (Promotion × Edge) :=
  (document.edges.filter document.joinsCards).filterMap fun edge =>
    (promotionBy le document edge).map fun promotion => (promotion, edge)

theorem filterMap_filter {α β : Type} (p : α → Bool) (f : α → Option β) (items : List α) :
    ((items.filter p).filterMap fun item => (f item).map fun value => (value, item)) =
      items.flatMap fun item =>
        if p item then (f item).toList.map fun value => (value, item) else [] := by
  induction items with
  | nil => rfl
  | cons item items ih =>
      rw [List.filter_cons, List.flatMap_cons, ← ih]
      split
      next =>
        rw [List.filterMap_cons]
        cases f item <;> rfl
      next => rfl

theorem projectedContributions_perm (document : DocumentV1) :
    (projectedContributions document).Perm (cardContributions codePointLe document) :=
  (sortOn.perm relationKeyLe _ _).filterMap _

theorem head?_contributionsTo (key : String) (contributions : List (Promotion × Edge)) :
    (contributionsTo key contributions).head?.map Prod.fst =
      (contributions.map Prod.fst).find? fun promotion => decide (promotion.key = key) := by
  rw [contributionsTo, List.head?_filter, List.find?_map]
  rfl

theorem map_fst_filterMap {α β : Type} (f : α → Option β) (items : List α) :
    (items.filterMap fun item => (f item).map fun value => (value, item)).map Prod.fst =
      items.filterMap f := by
  rw [List.map_filterMap]
  refine List.filterMap_congr fun item _ => ?_
  cases f item <;> rfl

theorem map_snd_filterMap {α β : Type} (f : α → Option β) (items : List α) :
    (items.filterMap fun item => (f item).map fun value => (value, item)).map Prod.snd =
      items.filter fun item => (f item).isSome := by
  induction items with
  | nil => rfl
  | cons item items ih =>
      rw [List.filterMap_cons, List.filter_cons]
      cases f item with
      | none => exact ih
      | some value => exact congrArg (List.cons item) ih

theorem length_contributionsTo (key : String) (contributions : List (Promotion × Edge)) :
    (contributionsTo key contributions).length =
      (contributions.map fun contribution => contribution.1.key).count key := by
  rw [contributionsTo, ← List.countP_eq_length_filter, List.count, List.countP_map]
  refine List.countP_congr fun contribution _ => ?_
  simp

section Document

variable {document : DocumentV1} (hwithin : WithinBoundary document)

include hwithin

/-- Without ends that only islands know, every contribution is that of an edge
between cards. -/
theorem edgeContributions_eq (hghost : ∀ edge ∈ document.edges, document.joinsCards edge = false →
      edgePromotions document edge = []) :
    edgeContributions document = cardContributions codeUnitLe document := by
  rw [cardContributions, filterMap_filter, edgeContributions]
  refine List.flatMap_congr fun edge hedge => ?_
  cases hjoins : document.joinsCards edge with
  | false =>
      rw [hghost edge hedge hjoins]
      rfl
  | true => rw [edgePromotions_eq hwithin hedge hjoins, if_pos rfl]

theorem few_islands (hjoins : document.joinsCards edge = true) :
    (getIslandsForCard document edge.fromId).length ≤ 1 ∧
      (getIslandsForCard document edge.toId).length ≤ 1 := by
  obtain ⟨⟨fromCard, hfromCard, hfromId⟩, toCard, htoCard, htoId⟩ := joinsCards_iff.mp hjoins
  rw [← hfromId, ← htoId]
  exact ⟨hwithin.one_island fromCard hfromCard, hwithin.one_island toCard htoCard⟩

/-- Equally many contributions leave none for the other edges. -/
theorem no_ghost_of_length (hlength : (edgeContributions document).length =
      (cardContributions codePointLe document).length) :
    ∀ edge ∈ document.edges, document.joinsCards edge = false →
      edgePromotions document edge = [] := by
  intro edge hedge hjoins
  by_contra hsome
  refine absurd hlength (Nat.ne_of_gt ?_)
  rw [cardContributions, filterMap_filter, edgeContributions, List.length_flatMap,
    List.length_flatMap]
  refine List.sum_lt_sum _ _ (fun other hother => ?_) ⟨edge, hedge, ?_⟩
  · rw [List.length_map]
    split
    next hjoined =>
      rw [edgePromotions_eq hwithin hother hjoined, List.length_map, Option.length_toList,
        Option.length_toList, isSome_promotionBy codePointLe codeUnitLe]
    next => exact Nat.zero_le _
  · rw [hjoins, if_neg Bool.false_ne_true, List.length_map, List.length_nil]
    exact List.length_pos_of_ne_nil hsome

omit hwithin in
theorem keys_cardContributions (le : String → String → Bool) :
    (cardContributions le document).map (fun contribution => contribution.1.key) =
      (((document.edges.filter document.joinsCards).filter fun edge =>
        (promotionBy codePointLe document edge).isSome).map fun edge =>
          ((promotionBy le document edge).map Promotion.key).getD "") := by
  rw [cardContributions]
  induction document.edges.filter document.joinsCards with
  | nil => rfl
  | cons edge edges ih =>
      rw [List.filterMap_cons, List.filter_cons, isSome_promotionBy codePointLe le]
      cases hpromotion : promotionBy le document edge with
      | none => exact ih
      | some promotion =>
          rw [if_pos Option.isSome_some, Option.map_some, List.map_cons, List.map_cons, ih,
            hpromotion]
          rfl

omit hwithin in
/-- Equally many contributions to each id are the same contributions. -/
theorem promotionBy_eq_of_perm
    (hperm : ((cardContributions codePointLe document).map fun contribution =>
      contribution.1.key).Perm ((cardContributions codeUnitLe document).map fun contribution =>
        contribution.1.key)) (hedge : edge ∈ document.edges)
    (hjoins : document.joinsCards edge = true) :
    promotionBy codeUnitLe document edge = promotionBy codePointLe document edge := by
  cases hpoints : promotionBy codePointLe document edge with
  | none =>
      rw [← Option.not_isSome_iff_eq_none, isSome_promotionBy codeUnitLe codePointLe, hpoints]
      exact Bool.false_ne_true
  | some byPoints =>
      have hsome : (promotionBy codeUnitLe document edge).isSome = true := by
        rw [isSome_promotionBy codeUnitLe codePointLe, hpoints]
        rfl
      obtain ⟨byUnits, hunits⟩ := Option.isSome_iff_exists.mp hsome
      rw [keys_cardContributions, keys_cardContributions] at hperm
      -- no edge contributes to an earlier id under code units, and so none to a later one
      have hequal := eq_of_map_perm_of_le (fun other _ => ?_) hperm edge
        (List.mem_filter.mpr ⟨List.mem_filter.mpr ⟨hedge, hjoins⟩, by rw [hpoints]; rfl⟩)
      · rw [hpoints, hunits, Option.map_some, Option.map_some, Option.getD_some,
          Option.getD_some] at hequal
        rcases eq_or_key_lt_key hpoints hunits with heq | hlt
        · rw [hunits, heq]
        · exact absurd hequal (ne_of_lt hlt)
      · cases hotherPoints : promotionBy codePointLe document other with
        | none => exact not_lt.mp fun hlt => List.not_lt_nil _ (String.lt_iff_toList_lt.mp hlt)
        | some otherPoints =>
            have hotherSome : (promotionBy codeUnitLe document other).isSome = true := by
              rw [isSome_promotionBy codeUnitLe codePointLe, hotherPoints]
              rfl
            obtain ⟨otherUnits, hotherUnits⟩ := Option.isSome_iff_exists.mp hotherSome
            rw [hotherUnits]
            rcases eq_or_key_lt_key hotherPoints hotherUnits with heq | hlt
            · exact le_of_eq (congrArg Promotion.key heq)
            · exact le_of_lt hlt

end Document

section Equivalence

variable {F : Type} {number : JsNumber → F} {runtime : Ir.Runtime F} {options : Ir.Options}
  {document : DocumentV1} {ir : Ir.LlmInputIr F}

/-- The two aggregations yield the same rows exactly under `SameAggregation`. -/
theorem rowsAgree_iff (lc : Collation) (hwithin : WithinBoundary document)
    (hbuild : Ir.buildLlmInputIr runtime options
      (Ir.sourceFromDocument (document.toIr number)) = .ok ir)
    (htruncated : ir.truncation.truncated = false) :
    RowsAgree document (getDerivedIslandEdges lc document) (derivedIslandRelations ir) ↔
      SameAggregation document := by
  have hfind : ∀ key, (contributionsTo key (projectedContributions document)).head?.map Prod.fst =
      ((projectedEdges document).filterMap (promotionBy codePointLe document)).find?
        fun promotion => decide (promotion.key = key) := by
    intro key
    rw [head?_contributionsTo, projectedContributions, map_fst_filterMap]
  constructor
  · intro hagree
    have hcontributions := contributionsTo_of_rowsAgree hwithin hbuild htruncated hagree
    have hkeys : ((edgeContributions document).map fun contribution => contribution.1.key).Perm
        ((cardContributions codePointLe document).map fun contribution => contribution.1.key) := by
      refine List.Perm.trans (List.perm_iff_count.mpr fun key => ?_)
        ((projectedContributions_perm document).map _)
      rw [← length_contributionsTo, ← length_contributionsTo, (hcontributions key).1]
    have hghost := no_ghost_of_length hwithin (by simpa using hkeys.length_eq)
    have hcontribution := edgeContributions_eq hwithin hghost
    have hequal : ∀ edge ∈ document.edges, document.joinsCards edge = true →
        promotionBy codeUnitLe document edge = promotionBy codePointLe document edge := by
      intro edge hedge hjoins
      rw [hcontribution] at hkeys
      exact promotionBy_eq_of_perm hkeys.symm hedge hjoins
    refine ⟨fun edge hedge hjoins => ?_, fun edge hedge hjoins => ?_, fun key => ?_⟩
    · exact (edgePromotions_eq_nil_iff hwithin hedge).mp (hghost edge hedge hjoins)
    · exact (promotionBy_eq_iff (few_islands hwithin hjoins).1 (few_islands hwithin hjoins).2).mp
        (hequal edge hedge hjoins)
    · rw [← hfind, ← (hcontributions key).2, head?_contributionsTo, hcontribution,
        cardContributions, map_fst_filterMap]
      refine congrArg _ (List.filterMap_congr fun edge hedge => ?_)
      obtain ⟨hedge, hjoins⟩ := List.mem_filter.mp hedge
      exact (hequal edge hedge hjoins).symm
  · intro hsame
    have hghost : ∀ edge ∈ document.edges, document.joinsCards edge = false →
        edgePromotions document edge = [] := fun edge hedge hjoins =>
      (edgePromotions_eq_nil_iff hwithin hedge).mpr (hsame.no_ghost edge hedge hjoins)
    have hcontribution : edgeContributions document = cardContributions codePointLe document := by
      rw [edgeContributions_eq hwithin hghost, cardContributions, cardContributions]
      refine List.filterMap_congr fun edge hedge => ?_
      obtain ⟨hedge, hjoins⟩ := List.mem_filter.mp hedge
      rw [(promotionBy_eq_iff (few_islands hwithin hjoins).1 (few_islands hwithin hjoins).2).mpr
        (hsame.same_order edge hedge hjoins)]
    refine rowsAgree_of_contributions hbuild htruncated hwithin.edges (fun key => ?_)
      (fun key => ?_) fun key => ?_
    · rw [hcontribution]
      exact ((projectedContributions_perm document).filter _).symm
    · rw [hfind, ← hsame.same_first key, head?_contributionsTo, hcontribution, cardContributions,
        map_fst_filterMap]
    · rw [hcontribution]
      refine (List.filter_sublist.map _).trans ?_
      rw [cardContributions, map_snd_filterMap]
      exact List.filter_sublist.trans List.filter_sublist

end Equivalence

/-! ## Documents with different rows -/

namespace AggregationInputs

/-- Whole numbers: all cards are at the origin. -/
def runtime : Ir.Runtime Int where
  ofNat n := n
  add := (· + ·)
  sub := (· - ·)
  mul := (· * ·)
  div := (· / ·)
  lt a b := decide (a < b)
  isFinite _ := true
  round x _ := x
  sqrt x := x
  angleDeg _ _ := 0
  dist _ _ := 0
  nfkc text := text

def options : Ir.Options := ⟨true, true, true, [], []⟩

def build (document : DocumentV1) : Except IRGenerationError (Ir.LlmInputIr Int) :=
  Ir.buildLlmInputIr runtime options (Ir.sourceFromDocument (document.toIr fun _ => 0))

/-- Two cards in two islands. -/
def plain : DocumentV1 :=
  documentOf ["a", "b"] [islandOf "A" ["a"], islandOf "B" ["b"]] (related "a" "b")

/-- An island lists an id that is no card. -/
def ghost : DocumentV1 :=
  documentOf ["a"] [islandOf "A" ["a"], islandOf "B" ["x"]] (related "a" "x")

/-- Two islands that code units and code points order differently. -/
def unordered : DocumentV1 :=
  documentOf ["a", "b"] [islandOf "\uFFF0" ["a"], islandOf "😀" ["b"]] (related "a" "b")

theorem withinBoundary_plain : WithinBoundary plain :=
  ⟨⟨by decide +kernel, by decide +kernel, by decide +kernel⟩, by decide +kernel⟩

theorem rowsAgree_iff_plain : ∃ ir,
    build plain = .ok ir ∧
      (RowsAgree plain (getDerivedIslandEdges .codeUnit plain) (derivedIslandRelations ir) ↔
        SameAggregation plain) := by
  have htruncated : (build plain).toOption.map
      (fun ir => ir.truncation.truncated) = some false := by decide +kernel
  obtain ⟨ir, hbuild, htruncated⟩ := Option.map_eq_some_iff.mp htruncated
  have hbuild := eq_ok_of_toOption hbuild
  exact ⟨ir, hbuild, rowsAgree_iff .codeUnit withinBoundary_plain hbuild htruncated⟩

/-- A document within the boundary whose two aggregations differ. -/
def Differs (document : DocumentV1) : Prop :=
  WithinBoundary document ∧ ∃ ir,
    build document = .ok ir ∧
      ir.truncation.truncated = false ∧
        ¬RowsAgree document (getDerivedIslandEdges .codeUnit document) (derivedIslandRelations ir)

theorem differs_of_ids {document : DocumentV1} (hwithin : WithinBoundary document)
    (htruncated : (build document).toOption.map
      (fun ir => ir.truncation.truncated) = some false) (hrow : getDerivedIslandEdges .codeUnit document ≠ [])
    (hids : ∀ left ∈ getDerivedIslandEdges .codeUnit document, ∀ right ∈
      (((build document).toOption.map
        derivedIslandRelations).getD []), left.id ≠ right.id) : Differs document := by
  obtain ⟨ir, hbuild, htruncated⟩ := Option.map_eq_some_iff.mp htruncated
  rw [hbuild] at hids
  refine ⟨hwithin, ir, eq_ok_of_toOption hbuild, htruncated, fun hagree => ?_⟩
  obtain ⟨left, hleft⟩ := List.exists_mem_of_ne_nil _ hrow
  obtain ⟨right, hright, hsame⟩ := hagree.edge left hleft
  exact hids left hleft right hright hsame.id

/-- A relation to a listed id that is no card has a row on one side only, and
two islands change places between the sides. -/
theorem rows_differ : Differs ghost ∧ Differs unordered :=
  ⟨differs_of_ids ⟨⟨by decide +kernel, by decide +kernel, by decide +kernel⟩, by decide +kernel⟩
      (by decide +kernel) (by decide +kernel) (by decide +kernel),
    differs_of_ids ⟨⟨by decide +kernel, by decide +kernel, by decide +kernel⟩, by decide +kernel⟩
      (by decide +kernel) (by decide +kernel) (by decide +kernel)⟩

end AggregationInputs

end KjAtlas
