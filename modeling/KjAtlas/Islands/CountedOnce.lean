import Mathlib.Data.List.Count
import Mathlib.Data.List.Duplicate
import KjAtlas.Islands.DerivedEdges

/-! # Derived relations that count each relation once

An end of an edge resolves to the islands that list its card. A derived relation
counts each edge between its ends once, in the direction of a causal edge, unless
an edge reaches it along two ways, two relations have one id, or a causal edge
runs from a card that is in no island.
-/

namespace KjAtlas

open Js

/-! ## Ends -/

/-- An end of a derived relation: an island, or a card that is in no island. -/
structure RelationEnd where
  kind : EdgeEndpointKind
  id : String

section Ends

variable (document : DocumentV1) (edge : Edge)

def ResolvesTo (kind : EdgeEndpointKind) (endpointId : String) (target : RelationEnd) : Prop :=
  match target.kind with
  | .island => target.id ∈ getIslandEndpointsForEdgeEndpoint document kind endpointId
  | .card => getIslandEndpointsForEdgeEndpoint document kind endpointId = [] ∧
      endpointId = target.id ∧ endpointId ∈ document.cards.map Card.id

def fromIslands : List String :=
  getIslandEndpointsForEdgeEndpoint document (edge.fromKind.getD .card) edge.fromId

def toIslands : List String :=
  getIslandEndpointsForEdgeEndpoint document (edge.toKind.getD .card) edge.toId

/-- An edge that runs from one end to another. An edge between two islands is shown as it is, and
derives nothing. -/
structure Runs (source target : RelationEnd) : Prop where
  derives : ¬ (edge.fromKind.getD .card = .island ∧ edge.toKind.getD .card = .island)
  source : ResolvesTo document (edge.fromKind.getD .card) edge.fromId source
  target : ResolvesTo document (edge.toKind.getD .card) edge.toId target

/-- One end of the edge resolves to each of the two. -/
def Joins (left right : RelationEnd) : Prop :=
  Runs document edge left right ∨ Runs document edge right left

end Ends

namespace DerivedIslandEdge

def source (row : DerivedIslandEdge) : RelationEnd := ⟨row.fromKind, row.fromId⟩

def target (row : DerivedIslandEdge) : RelationEnd := ⟨row.toKind, row.toId⟩

def Between (row : DerivedIslandEdge) (left right : RelationEnd) : Prop :=
  row.source = left ∧ row.target = right ∨ row.source = right ∧ row.target = left

end DerivedIslandEdge

/-- Each row counts the edges between its ends once, and in their direction. -/
structure CountsOnce (document : DocumentV1) (rows : List DerivedIslandEdge) : Prop where
  nodup : ∀ row ∈ rows, row.contributingEdgeIds.Nodup
  count : ∀ row ∈ rows, row.aggregateCount = (distinct row.contributingEdgeIds).length
  distinctRows : (rows.map fun row => (row.source, row.target, row.type)).Nodup
  causal : ∀ row ∈ rows, ∀ edge ∈ document.edges, edge.id ∈ row.contributingEdgeIds →
    edge.type = "causal" → Runs document edge row.source row.target
  joined : ∀ row ∈ rows, ∀ edge ∈ document.edges, edge.id ∈ row.contributingEdgeIds →
    edge.type = row.type ∧ Joins document edge row.source row.target
  complete : ∀ edge ∈ document.edges, ∀ islandId target, target ≠ ⟨.island, islandId⟩ →
    Joins document edge ⟨.island, islandId⟩ target →
      ∃ row ∈ rows, edge.id ∈ row.contributingEdgeIds ∧ row.type = edge.type ∧
        row.Between ⟨.island, islandId⟩ target

/-! ## What an edge is counted for -/

/-- The relation of an edge between two islands; an undirected one has its ends in order. -/
def relationBetween (type fromIslandId toIslandId : String) : Promotion :=
  if type = "causal" ∨ codeUnitLe fromIslandId toIslandId = true then
    ⟨.island, fromIslandId, toIslandId, type⟩
  else ⟨.island, toIslandId, fromIslandId, type⟩

inductive Counted (document : DocumentV1) (edge : Edge) : Promotion → Prop
  | between {fromIslandId toIslandId : String} (hne : fromIslandId ≠ toIslandId)
      (hruns : Runs document edge ⟨.island, fromIslandId⟩ ⟨.island, toIslandId⟩) :
      Counted document edge (relationBetween edge.type fromIslandId toIslandId)
  | lone {islandId cardId : String}
      (hjoins : Joins document edge ⟨.island, islandId⟩ ⟨.card, cardId⟩) :
      Counted document edge ⟨.card, islandId, cardId, edge.type⟩

variable {type : String}

theorem resolveKnownEdgeType_eq_causal :
    resolveKnownEdgeType type = "causal" ↔ type = "causal" := by
  unfold resolveKnownEdgeType
  split
  next => rfl
  next hunknown =>
    constructor
    · intro hrelated
      exact absurd hrelated (by decide)
    · intro hcausal
      exact absurd (by rw [hcausal]; decide) hunknown

theorem islandPromotions_eq (type : String) (fromIslandIds toIslandIds : List String) :
    islandPromotions type fromIslandIds toIslandIds = fromIslandIds.flatMap fun fromIslandId =>
      (toIslandIds.filter fun toIslandId => decide (fromIslandId ≠ toIslandId)).map
        (relationBetween type fromIslandId) := by
  unfold islandPromotions
  congr 1
  funext fromIslandId
  apply List.map_congr_left
  intro toIslandId _
  simp only [resolveKnownEdgeType_eq_causal, relationBetween, normalizeUndirectedIslands]
  by_cases hcausal : type = "causal"
  · simp [hcausal]
  · by_cases hle : codeUnitLe fromIslandId toIslandId = true <;> simp [hcausal, hle]

section Edge

variable {document : DocumentV1} {edge : Edge} {promotion : Promotion} {cardId : String}

theorem mem_islandPromotions {fromIslandIds toIslandIds : List String} :
    promotion ∈ islandPromotions type fromIslandIds toIslandIds ↔
      ∃ fromIslandId ∈ fromIslandIds, ∃ toIslandId ∈ toIslandIds, fromIslandId ≠ toIslandId ∧
        relationBetween type fromIslandId toIslandId = promotion := by
  simp only [islandPromotions_eq, List.mem_flatMap, List.mem_map, List.mem_filter,
    decide_eq_true_eq, and_assoc]

def lonePromotions (document : DocumentV1) (type : String) (islandIds : List String)
    (cardId : String) : List Promotion :=
  if !(document.cards.map Card.id).contains cardId then []
  else islandIds.map fun islandId => ⟨.card, islandId, cardId, type⟩

variable {islandIds : List String}

theorem mem_lonePromotions :
    promotion ∈ lonePromotions document type islandIds cardId ↔
      cardId ∈ document.cards.map Card.id ∧ ∃ islandId ∈ islandIds,
        (⟨.card, islandId, cardId, type⟩ : Promotion) = promotion := by
  unfold lonePromotions
  by_cases hcard : cardId ∈ document.cards.map Card.id
  · simp only [List.contains_iff_mem.mpr hcard, hcard, Bool.not_true, Bool.false_eq_true, if_false,
      List.mem_map, true_and]
  · simp [hcard]

section

variable (hderives : ¬ (edge.fromKind.getD .card = .island ∧ edge.toKind.getD .card = .island))
include hderives

theorem edgePromotions_eq_of_islands
    (hfrom : fromIslands document edge ≠ []) (hto : toIslands document edge ≠ []) :
    edgePromotions document edge =
      islandPromotions edge.type (fromIslands document edge) (toIslands document edge) := by
  unfold fromIslands toIslands at *
  simp only [edgePromotions, if_neg hderives, hfrom, hto, if_false, ne_eq, not_false_eq_true,
    and_self, if_true]

theorem edgePromotions_eq_of_toId
    (hfrom : fromIslands document edge ≠ []) (hto : toIslands document edge = []) :
    edgePromotions document edge =
      lonePromotions document edge.type (fromIslands document edge) edge.toId := by
  unfold fromIslands toIslands at *
  simp only [edgePromotions, lonePromotions, if_neg hderives, hfrom, hto, false_and, if_false, ne_eq,
    not_false_eq_true, not_true_eq_false, and_false, if_true]

theorem edgePromotions_eq_of_fromId
    (hfrom : fromIslands document edge = []) (hto : toIslands document edge ≠ []) :
    edgePromotions document edge =
      lonePromotions document edge.type (toIslands document edge) edge.fromId := by
  unfold fromIslands toIslands at *
  simp only [edgePromotions, lonePromotions, if_neg hderives, hfrom, hto, if_false, ne_eq,
    not_true_eq_false, and_false, false_and]

end

theorem edgePromotions_eq_nil
    (hnone : edge.fromKind.getD .card = .island ∧ edge.toKind.getD .card = .island ∨
      fromIslands document edge = [] ∧ toIslands document edge = []) :
    edgePromotions document edge = [] := by
  unfold fromIslands toIslands at hnone
  rcases hnone with hislands | hcards
  · simp only [edgePromotions, if_pos hislands]
  · simp only [edgePromotions, hcards, and_self, if_true, ite_self]

theorem counted_of_mem_edgePromotions (hmem : promotion ∈ edgePromotions document edge) :
    Counted document edge promotion := by
  by_cases hislands : edge.fromKind.getD .card = .island ∧ edge.toKind.getD .card = .island
  · rw [edgePromotions_eq_nil (Or.inl hislands)] at hmem
    cases hmem
  by_cases hfrom : fromIslands document edge = []
  · by_cases hto : toIslands document edge = []
    · rw [edgePromotions_eq_nil (Or.inr ⟨hfrom, hto⟩)] at hmem
      cases hmem
    · rw [edgePromotions_eq_of_fromId hislands hfrom hto, mem_lonePromotions] at hmem
      obtain ⟨hcard, islandId, hisland, rfl⟩ := hmem
      exact .lone (Or.inr ⟨hislands, ⟨hfrom, rfl, hcard⟩, hisland⟩)
  · by_cases hto : toIslands document edge = []
    · rw [edgePromotions_eq_of_toId hislands hfrom hto, mem_lonePromotions] at hmem
      obtain ⟨hcard, islandId, hisland, rfl⟩ := hmem
      exact .lone (Or.inl ⟨hislands, hisland, hto, rfl, hcard⟩)
    · rw [edgePromotions_eq_of_islands hislands hfrom hto, mem_islandPromotions] at hmem
      obtain ⟨fromIslandId, hfromIsland, toIslandId, htoIsland, hne, rfl⟩ := hmem
      exact .between hne ⟨hislands, hfromIsland, htoIsland⟩

theorem mem_edgePromotions_of_counted (hcounted : Counted document edge promotion) :
    promotion ∈ edgePromotions document edge := by
  cases hcounted with
  | between hne hruns =>
      obtain ⟨hderives, hfrom, hto⟩ := hruns
      rw [edgePromotions_eq_of_islands hderives (List.ne_nil_of_mem hfrom)
        (List.ne_nil_of_mem hto), mem_islandPromotions]
      exact ⟨_, hfrom, _, hto, hne, rfl⟩
  | lone hjoins =>
      rcases hjoins with hruns | hruns
      · obtain ⟨hderives, hfrom, hto, rfl, hcard⟩ := hruns
        rw [edgePromotions_eq_of_toId hderives (List.ne_nil_of_mem hfrom) hto, mem_lonePromotions]
        exact ⟨hcard, _, hfrom, rfl⟩
      · obtain ⟨hderives, ⟨hfrom, rfl, hcard⟩, hto⟩ := hruns
        rw [edgePromotions_eq_of_fromId hderives hfrom (List.ne_nil_of_mem hto), mem_lonePromotions]
        exact ⟨hcard, _, hto, rfl⟩

theorem mem_edgePromotions :
    promotion ∈ edgePromotions document edge ↔ Counted document edge promotion :=
  ⟨counted_of_mem_edgePromotions, mem_edgePromotions_of_counted⟩

/-! ## Edges that are counted twice -/

/-- An edge reaches one derived relation along two ways. -/
inductive ReachesTwice (document : DocumentV1) (edge : Edge) : Prop
  /-- The cards of both ends are in the same two islands. -/
  | crossed {left right : String} (hne : left ≠ right) (hundirected : edge.type ≠ "causal")
      (hforth : Runs document edge ⟨.island, left⟩ ⟨.island, right⟩)
      (hback : Runs document edge ⟨.island, right⟩ ⟨.island, left⟩)
  /-- Two islands of one id list the card of the first end. -/
  | repeatedSource {islandId : String} {target : RelationEnd}
      (hrepeated : List.Duplicate islandId (fromIslands document edge))
      (hne : target ≠ ⟨.island, islandId⟩)
      (hruns : Runs document edge ⟨.island, islandId⟩ target)
  /-- Two islands of one id list the card of the second end. -/
  | repeatedTarget {islandId : String} {source : RelationEnd}
      (hrepeated : List.Duplicate islandId (toIslands document edge))
      (hne : source ≠ ⟨.island, islandId⟩)
      (hruns : Runs document edge source ⟨.island, islandId⟩)

def differentPairs (left right : List String) : List (String × String) :=
  left.flatMap fun a => (right.filter fun b => decide (a ≠ b)).map fun b => (a, b)

theorem mem_differentPairs {left right : List String} {pair : String × String} :
    pair ∈ differentPairs left right ↔ pair.1 ∈ left ∧ pair.2 ∈ right ∧ pair.1 ≠ pair.2 := by
  obtain ⟨a, b⟩ := pair
  simp only [differentPairs, List.mem_flatMap, List.mem_map, List.mem_filter, decide_eq_true_eq,
    Prod.mk.injEq]
  constructor
  · rintro ⟨a, ha, b, ⟨hb, hne⟩, rfl, rfl⟩
    exact ⟨ha, hb, hne⟩
  · rintro ⟨ha, hb, hne⟩
    exact ⟨a, ha, b, ⟨hb, hne⟩, rfl, rfl⟩

/-- A pair comes as often as there are ways to choose its items. -/
theorem count_differentPairs {a b : String} (hne : a ≠ b) (left right : List String) :
    (differentPairs left right).count (a, b) = left.count a * right.count b := by
  induction left with
  | nil => simp [differentPairs]
  | cons c left ih =>
      have hcons : differentPairs (c :: left) right =
          (right.filter fun b => decide (c ≠ b)).map (fun b => (c, b)) ++ differentPairs left right :=
        List.flatMap_cons
      have hinj : Function.Injective fun b : String => (c, b) := fun b d heq => congrArg Prod.snd heq
      rw [hcons, List.count_append, ih, List.count_cons]
      by_cases hca : c = a
      · subst hca
        rw [List.count_map_of_injective _ _ hinj, List.count_filter (by simpa using hne)]
        simp only [beq_self_eq_true, if_true, Nat.add_mul, Nat.one_mul]
        exact Nat.add_comm _ _
      · have hzero : ((right.filter fun b => decide (c ≠ b)).map fun b => (c, b)).count (a, b) = 0 := by
          rw [List.count_eq_zero, List.mem_map]
          rintro ⟨d, -, heq⟩
          exact hca (congrArg Prod.fst heq)
        rw [hzero, Nat.zero_add, if_neg (by simpa using hca), Nat.add_zero]

theorem nodup_differentPairs {left right : List String} :
    (differentPairs left right).Nodup ↔ ∀ a ∈ left, ∀ b ∈ right, a ≠ b →
      ¬ List.Duplicate a left ∧ ¬ List.Duplicate b right := by
  rw [List.nodup_iff_count_le_one]
  constructor
  · intro hcount a ha b hb hne
    have hpair := hcount (a, b)
    rw [count_differentPairs hne] at hpair
    have hleft := List.count_pos_iff.mpr ha
    have hright := List.count_pos_iff.mpr hb
    rw [List.duplicate_iff_two_le_count, List.duplicate_iff_two_le_count]
    constructor
    · intro htwice
      have hmul := Nat.mul_le_mul htwice hright
      omega
    · intro htwice
      have hmul := Nat.mul_le_mul hleft htwice
      omega
  · intro honce pair
    obtain ⟨a, b⟩ := pair
    by_cases hmem : (a, b) ∈ differentPairs left right
    · obtain ⟨ha, hb, hne⟩ := mem_differentPairs.mp hmem
      obtain ⟨hleft, hright⟩ := honce a ha b hb hne
      rw [List.duplicate_iff_two_le_count] at hleft hright
      rw [count_differentPairs hne]
      exact Nat.mul_le_mul (Nat.le_of_lt_succ (not_le.mp hleft)) (Nat.le_of_lt_succ (not_le.mp hright))
    · rw [List.count_eq_zero_of_not_mem hmem]
      exact Nat.zero_le 1

theorem relationBetween_comm {a b : String} (hundirected : type ≠ "causal") :
    relationBetween type a b = relationBetween type b a := by
  unfold relationBetween
  by_cases hab : codeUnitLe a b = true
  · by_cases hba : codeUnitLe b a = true
    · rw [codeUnitLe_antisymm a b hab hba]
    · simp [hundirected, hab, hba]
  · have hba := (codeUnitLe_total a b).resolve_left hab
    simp [hundirected, hab, hba]

theorem relationBetween_cases (type a b : String) :
    relationBetween type a b = ⟨.island, a, b, type⟩ ∧
        (type = "causal" ∨ codeUnitLe a b = true) ∨
      relationBetween type a b = ⟨.island, b, a, type⟩ ∧ type ≠ "causal" ∧
        codeUnitLe b a = true := by
  unfold relationBetween
  split
  next horder => exact Or.inl ⟨rfl, horder⟩
  next horder =>
    rw [not_or] at horder
    exact Or.inr ⟨rfl, horder.1, (codeUnitLe_total a b).resolve_left horder.2⟩

theorem relationBetween_inj {a b c d : String}
    (heq : relationBetween type a b = relationBetween type c d) :
    a = c ∧ b = d ∨ type ≠ "causal" ∧ a = d ∧ b = c := by
  rcases relationBetween_cases type a b with ⟨hab, -⟩ | ⟨hab, hundirected, -⟩
  · rcases relationBetween_cases type c d with ⟨hcd, -⟩ | ⟨hcd, hundirected, -⟩
    · rw [hab, hcd, Promotion.mk.injEq] at heq
      exact Or.inl ⟨heq.2.1, heq.2.2.1⟩
    · rw [hab, hcd, Promotion.mk.injEq] at heq
      exact Or.inr ⟨hundirected, heq.2.1, heq.2.2.1⟩
  · rcases relationBetween_cases type c d with ⟨hcd, -⟩ | ⟨hcd, -, -⟩
    · rw [hab, hcd, Promotion.mk.injEq] at heq
      exact Or.inr ⟨hundirected, heq.2.2.1, heq.2.1⟩
    · rw [hab, hcd, Promotion.mk.injEq] at heq
      exact Or.inl ⟨heq.2.2.1, heq.2.1⟩

theorem islandPromotions_eq_map (type : String) (fromIslandIds toIslandIds : List String) :
    islandPromotions type fromIslandIds toIslandIds =
      (differentPairs fromIslandIds toIslandIds).map fun pair =>
        relationBetween type pair.1 pair.2 := by
  rw [islandPromotions_eq, differentPairs, List.map_flatMap]
  congr 1
  funext fromIslandId
  rw [List.map_map]
  rfl

theorem nodup_lonePromotions (hcard : cardId ∈ document.cards.map Card.id) :
    (lonePromotions document type islandIds cardId).Nodup ↔ islandIds.Nodup := by
  have hinj : Function.Injective fun islandId : String =>
      (⟨.card, islandId, cardId, type⟩ : Promotion) := fun a b heq => congrArg Promotion.fromId heq
  unfold lonePromotions
  rw [List.contains_iff_mem.mpr hcard]
  exact List.nodup_map_iff hinj

/-- An edge that reaches a relation along two ways is counted twice for it. -/
theorem not_nodup_of_reachesTwice (htwice : ReachesTwice document edge) :
    ¬ (edgePromotions document edge).Nodup := by
  intro hnodup
  cases htwice with
  | @crossed left right hne hundirected hforth hback =>
      obtain ⟨hderives, hfromLeft, htoRight⟩ := hforth
      obtain ⟨-, hfromRight, htoLeft⟩ := hback
      rw [edgePromotions_eq_of_islands hderives (List.ne_nil_of_mem hfromLeft)
        (List.ne_nil_of_mem htoLeft), islandPromotions_eq_map] at hnodup
      have hforthPair : (left, right) ∈
          differentPairs (fromIslands document edge) (toIslands document edge) :=
        mem_differentPairs.mpr ⟨hfromLeft, htoRight, hne⟩
      have hbackPair : (right, left) ∈
          differentPairs (fromIslands document edge) (toIslands document edge) :=
        mem_differentPairs.mpr ⟨hfromRight, htoLeft, hne.symm⟩
      have hpair := List.inj_on_of_nodup_map hnodup hforthPair hbackPair
        (relationBetween_comm hundirected)
      exact hne (congrArg Prod.fst hpair)
  | @repeatedSource islandId target hrepeated hne hruns =>
      obtain ⟨kind, id⟩ := target
      cases kind with
      | island =>
          obtain ⟨hderives, hfrom, hto⟩ := hruns
          rw [edgePromotions_eq_of_islands hderives (List.ne_nil_of_mem hfrom)
            (List.ne_nil_of_mem hto), islandPromotions_eq_map] at hnodup
          have hother : islandId ≠ id := by
            rintro rfl
            exact hne rfl
          exact (nodup_differentPairs.mp (hnodup.of_map _) islandId hfrom id hto hother).1 hrepeated
      | card =>
          obtain ⟨hderives, hfrom, hto, -, hcard⟩ := hruns
          rw [edgePromotions_eq_of_toId hderives (List.ne_nil_of_mem hfrom) hto,
            nodup_lonePromotions hcard] at hnodup
          exact List.nodup_iff_forall_not_duplicate.mp hnodup islandId hrepeated
  | @repeatedTarget islandId source hrepeated hne hruns =>
      obtain ⟨kind, id⟩ := source
      cases kind with
      | island =>
          obtain ⟨hderives, hfrom, hto⟩ := hruns
          rw [edgePromotions_eq_of_islands hderives (List.ne_nil_of_mem hfrom)
            (List.ne_nil_of_mem hto), islandPromotions_eq_map] at hnodup
          have hother : id ≠ islandId := by
            rintro rfl
            exact hne rfl
          exact (nodup_differentPairs.mp (hnodup.of_map _) id hfrom islandId hto hother).2 hrepeated
      | card =>
          obtain ⟨hderives, ⟨hfrom, -, hcard⟩, hto⟩ := hruns
          rw [edgePromotions_eq_of_fromId hderives hfrom (List.ne_nil_of_mem hto),
            nodup_lonePromotions hcard] at hnodup
          exact List.nodup_iff_forall_not_duplicate.mp hnodup islandId hrepeated

/-- An edge that reaches no relation along two ways is counted once for each. -/
theorem nodup_edgePromotions (honce : ¬ ReachesTwice document edge) :
    (edgePromotions document edge).Nodup := by
  by_cases hislands : edge.fromKind.getD .card = .island ∧ edge.toKind.getD .card = .island
  · rw [edgePromotions_eq_nil (Or.inl hislands)]
    exact List.nodup_nil
  by_cases hfrom : fromIslands document edge = []
  · by_cases hto : toIslands document edge = []
    · rw [edgePromotions_eq_nil (Or.inr ⟨hfrom, hto⟩)]
      exact List.nodup_nil
    · rw [edgePromotions_eq_of_fromId hislands hfrom hto]
      by_cases hcard : edge.fromId ∈ document.cards.map Card.id
      · rw [nodup_lonePromotions hcard, List.nodup_iff_forall_not_duplicate]
        intro islandId hrepeated
        exact honce (@ReachesTwice.repeatedTarget _ _ _ ⟨.card, edge.fromId⟩ hrepeated (by simp)
          ⟨hislands, ⟨hfrom, rfl, hcard⟩, hrepeated.mem⟩)
      · simp [lonePromotions, hcard]
  · by_cases hto : toIslands document edge = []
    · rw [edgePromotions_eq_of_toId hislands hfrom hto]
      by_cases hcard : edge.toId ∈ document.cards.map Card.id
      · rw [nodup_lonePromotions hcard, List.nodup_iff_forall_not_duplicate]
        intro islandId hrepeated
        exact honce (@ReachesTwice.repeatedSource _ _ _ ⟨.card, edge.toId⟩ hrepeated (by simp)
          ⟨hislands, hrepeated.mem, hto, rfl, hcard⟩)
      · simp [lonePromotions, hcard]
    · rw [edgePromotions_eq_of_islands hislands hfrom hto, islandPromotions_eq_map]
      apply List.Nodup.map_on
      · intro left hleft right hright heq
        obtain ⟨hleftFrom, hleftTo, hne⟩ := mem_differentPairs.mp hleft
        obtain ⟨hrightFrom, hrightTo, -⟩ := mem_differentPairs.mp hright
        rcases relationBetween_inj heq with ⟨hfst, hsnd⟩ | ⟨hundirected, hfst, hsnd⟩
        · exact Prod.ext hfst hsnd
        · refine absurd (ReachesTwice.crossed hne hundirected
            ⟨hislands, hleftFrom, hleftTo⟩
            ⟨hislands, ?_, ?_⟩) honce
          · rwa [hsnd]
          · rwa [hfst]
      · rw [nodup_differentPairs]
        intro a ha b hb hne
        constructor
        · intro hrepeated
          exact honce (@ReachesTwice.repeatedSource _ _ _ ⟨.island, b⟩ hrepeated
            (by simpa using hne.symm) ⟨hislands, ha, hb⟩)
        · intro hrepeated
          exact honce (@ReachesTwice.repeatedTarget _ _ _ ⟨.island, a⟩ hrepeated
            (by simpa using hne) ⟨hislands, ha, hb⟩)

end Edge

/-! ## Rows -/

/-- A row as the relation that it stands for. -/
def DerivedIslandEdge.promotion (row : DerivedIslandEdge) : Promotion :=
  ⟨row.toKind, row.fromId, row.toId, row.type⟩

/-- The ids of the edges that are counted under a row's id, in order. -/
def countedIds (document : DocumentV1) (key : String) : List String :=
  (contributionsTo key (edgeContributions document)).map fun contribution => contribution.2.id

variable {row : DerivedIslandEdge}

section Rows

variable {document : DocumentV1} {lc : Collation}

theorem mem_edgeContributions_iff {promotion : Promotion} {edge : Edge} :
    (promotion, edge) ∈ edgeContributions document ↔
      edge ∈ document.edges ∧ Counted document edge promotion := by
  simp only [edgeContributions, List.mem_flatMap, List.mem_map, Prod.mk.injEq, mem_edgePromotions]
  constructor
  · rintro ⟨edge, hedge, promotion, hcounted, rfl, rfl⟩
    exact ⟨hedge, hcounted⟩
  · rintro ⟨hedge, hcounted⟩
    exact ⟨edge, hedge, promotion, hcounted, rfl, rfl⟩

theorem exists_of_mem_rows (hrow : row ∈ getDerivedIslandEdges lc document) :
    row.fromKind = .island ∧ row.id = row.promotion.key ∧
      (∃ edge ∈ document.edges, Counted document edge row.promotion) ∧
        row.contributingEdgeIds = countedIds document row.id ∧
          row.aggregateCount = row.contributingEdgeIds.length := by
  obtain ⟨key, ⟨promotion, edge⟩, rest, hitems, rfl⟩ := mem_getDerivedIslandEdges.mp hrow
  have hfirst : (promotion, edge) ∈ contributionsTo key (edgeContributions document) := by
    rw [hitems]
    exact List.mem_cons_self
  obtain ⟨hmem, rfl⟩ := mem_contributionsTo.mp hfirst
  have htype := (mem_edgeContributions hmem).2
  have hpromotion : ((rest.foldl addContribution (firstContribution (promotion, edge))).toRow
      promotion.key).promotion = promotion := by
    rw [foldl_addContribution]
    simp only [DerivedIslandEdge.promotion, IslandAggregate.toRow, firstContribution, ← htype]
  refine ⟨rfl, ?_, ⟨edge, ?_⟩, ?_, rfl⟩
  · rw [hpromotion]
    rfl
  · rw [hpromotion]
    exact mem_edgeContributions_iff.mp hmem
  · rw [foldl_addContribution]
    dsimp only at hitems
    simp only [IslandAggregate.toRow, firstContribution, countedIds, hitems, List.map_cons,
      List.singleton_append]

theorem exists_row_of_counted {edge : Edge} {promotion : Promotion} (hedge : edge ∈ document.edges)
    (hcounted : Counted document edge promotion) :
    ∃ row ∈ getDerivedIslandEdges lc document, row.id = promotion.key := by
  have hmem : (promotion, edge) ∈ contributionsTo promotion.key (edgeContributions document) :=
    mem_contributionsTo.mpr ⟨mem_edgeContributions_iff.mpr ⟨hedge, hcounted⟩, rfl⟩
  cases hitems : contributionsTo promotion.key (edgeContributions document) with
  | nil =>
      rw [hitems] at hmem
      cases hmem
  | cons first rest =>
      exact ⟨_, mem_getDerivedIslandEdges.mpr ⟨_, first, rest, hitems, rfl⟩, rfl⟩

/-- The rows have different ids. -/
theorem nodup_ids : ((getDerivedIslandEdges lc document).map DerivedIslandEdge.id).Nodup := by
  unfold getDerivedIslandEdges
  rw [((sortOn.perm lc.le DerivedIslandEdge.id _).map _).nodup_iff, List.map_map]
  exact InsertionMap.nodup _

section UniqueIds

variable (hnodup : (document.edges.map Edge.id).Nodup)

include hnodup

theorem mem_countedIds {key : String} {edge : Edge} (hedge : edge ∈ document.edges) :
    edge.id ∈ countedIds document key ↔
      ∃ promotion, Counted document edge promotion ∧ promotion.key = key := by
  rw [countedIds, List.mem_map]
  constructor
  · rintro ⟨⟨promotion, other⟩, hcontribution, hid⟩
    obtain ⟨hmem, hkey⟩ := mem_contributionsTo.mp hcontribution
    obtain ⟨hother, hcounted⟩ := mem_edgeContributions_iff.mp hmem
    obtain rfl := List.inj_on_of_nodup_map hnodup hother hedge hid
    exact ⟨promotion, hcounted, hkey⟩
  · rintro ⟨promotion, hcounted, hkey⟩
    exact ⟨(promotion, edge), mem_contributionsTo.mpr
      ⟨mem_edgeContributions_iff.mpr ⟨hedge, hcounted⟩, hkey⟩, rfl⟩

/-- An id is listed once when each edge is counted for at most one relation of it. -/
theorem nodup_countedIds {key : String} :
    (countedIds document key).Nodup ↔ ∀ edge ∈ document.edges,
      ((edgePromotions document edge).filter fun promotion =>
        decide (promotion.key = key)).length ≤ 1 := by
  have hids : countedIds document key = document.edges.flatMap fun edge =>
      List.replicate ((edgePromotions document edge).filter fun promotion =>
        decide (promotion.key = key)).length edge.id := by
    rw [countedIds, contributionsTo, edgeContributions, List.filter_flatMap, List.map_flatMap]
    congr 1
    funext edge
    rw [List.filter_map, List.map_map, ← List.map_const']
    rfl
  rw [hids, List.nodup_flatMap]
  constructor
  · intro hlists edge hedge
    exact List.nodup_replicate.mp (hlists.1 edge hedge)
  · intro hlengths
    refine ⟨fun edge hedge => List.nodup_replicate.mpr (hlengths edge hedge), ?_⟩
    apply (List.pairwise_map.mp hnodup).imp
    intro edge other hne id hid hother
    rw [List.eq_of_mem_replicate hid] at hother
    exact hne (List.eq_of_mem_replicate hother)

end UniqueIds

end Rows

/-! ## When each relation is counted once -/

section Ends

variable {document : DocumentV1} {edge : Edge} {promotion : Promotion}

theorem Counted.joins (hcounted : Counted document edge promotion) :
    Joins document edge ⟨.island, promotion.fromId⟩ ⟨promotion.toKind, promotion.toId⟩ := by
  cases hcounted with
  | @between a b hne hruns =>
      rcases relationBetween_cases edge.type a b with ⟨heq, -⟩ | ⟨heq, -, -⟩
      · rw [heq]
        exact Or.inl hruns
      · rw [heq]
        exact Or.inr hruns
  | lone hjoins => exact hjoins

theorem Counted.type_eq (hcounted : Counted document edge promotion) : promotion.type = edge.type :=
  type_of_mem_edgePromotions (mem_edgePromotions.mpr hcounted)

/-- A causal edge from a card that is in no island is shown as if it ran to the card. -/
def RunsFromCard (document : DocumentV1) (edge : Edge) : Prop :=
  edge.type = "causal" ∧
    ∃ cardId islandId, Runs document edge ⟨.card, cardId⟩ ⟨.island, islandId⟩

theorem Counted.runs (hcounted : Counted document edge promotion) (hcausal : edge.type = "causal")
    (hdirected : ¬ RunsFromCard document edge) :
    Runs document edge ⟨.island, promotion.fromId⟩ ⟨promotion.toKind, promotion.toId⟩ := by
  cases hcounted with
  | @between a b hne hruns =>
      rcases relationBetween_cases edge.type a b with ⟨heq, -⟩ | ⟨-, hundirected, -⟩
      · rw [heq]
        exact hruns
      · exact absurd hcausal hundirected
  | lone hjoins =>
      rcases hjoins with hruns | hruns
      · exact hruns
      · exact absurd ⟨hcausal, _, _, hruns⟩ hdirected

/-- A relation between the ends of an edge that is derived from another edge of its type is derived
from the edge too. -/
theorem Counted.of_joins {other : Edge} (hother : Counted document other promotion)
    (htype : edge.type = promotion.type)
    (hjoins : Joins document edge ⟨.island, promotion.fromId⟩ ⟨promotion.toKind, promotion.toId⟩)
    (hcausal : edge.type = "causal" →
      Runs document edge ⟨.island, promotion.fromId⟩ ⟨promotion.toKind, promotion.toId⟩) :
    Counted document edge promotion := by
  have hsame := htype.trans hother.type_eq
  cases hother with
  | lone _ =>
      dsimp only at hjoins hsame ⊢
      rw [← hsame]
      exact .lone hjoins
  | @between a b hne _ =>
      rw [← hsame] at hjoins hcausal ⊢
      rcases relationBetween_cases edge.type a b with ⟨heq, horder⟩ | ⟨heq, hundirected, -⟩
      · rw [heq] at hjoins hcausal
        by_cases hdirected : edge.type = "causal"
        · exact .between hne (hcausal hdirected)
        · rcases hjoins with hruns | hruns
          · exact .between hne hruns
          · rw [relationBetween_comm hdirected]
            exact .between hne.symm hruns
      · rw [heq] at hjoins
        rcases hjoins with hruns | hruns
        · rw [relationBetween_comm hundirected]
          exact .between hne.symm hruns
        · exact .between hne hruns

end Ends

/-- Different derived relations have different ids. -/
def DistinctKeys (document : DocumentV1) : Prop :=
  ∀ edge ∈ document.edges, ∀ other ∈ document.edges, ∀ left right,
    Counted document edge left → Counted document other right → left.key = right.key → left = right

section Theorem

variable {document : DocumentV1} {lc : Collation}

/-- A list without repetitions whose items are all the same has at most one. -/
theorem length_le_one_of_nodup {α : Type} {items : List α} (hnodup : items.Nodup)
    (hsame : ∀ left ∈ items, ∀ right ∈ items, left = right) : items.length ≤ 1 := by
  cases items with
  | nil => exact Nat.zero_le 1
  | cons first rest =>
      cases rest with
      | nil => exact le_refl 1
      | cons second rest =>
          have heq := hsame first (by simp) second (by simp)
          exact absurd heq (List.ne_of_not_mem_cons (List.nodup_cons.mp hnodup).1)

theorem eq_of_length_le_one {α : Type} {items : List α} (hfew : items.length ≤ 1) {left right : α}
    (hleft : left ∈ items) (hright : right ∈ items) : left = right := by
  obtain ⟨other, hother⟩ := List.length_eq_one_iff.mp
    (Nat.le_antisymm hfew (List.length_pos_of_mem hleft))
  rw [hother, List.mem_singleton] at hleft hright
  rw [hleft, hright]

section UniqueIds

variable (hnodup : (document.edges.map Edge.id).Nodup)

include hnodup

variable {edge : Edge}

section

variable (hcounts : CountsOnce document (getDerivedIslandEdges lc document))
include hcounts

theorem CountsOnce.promotion_eq
    (hrow : row ∈ getDerivedIslandEdges lc document) (hedge : edge ∈ document.edges)
    {promotion : Promotion} (hcounted : Counted document edge promotion)
    (hkey : row.id = promotion.key) : row.promotion = promotion := by
  obtain ⟨hkind, hid, ⟨other, -, hother⟩, hids, -⟩ := exists_of_mem_rows hrow
  have hlisted : edge.id ∈ row.contributingEdgeIds := by
    rw [hids, mem_countedIds hnodup hedge]
    exact ⟨promotion, hcounted, hkey.symm⟩
  obtain ⟨htype, hjoins⟩ := hcounts.joined row hrow edge hedge hlisted
  have hcausal := hcounts.causal row hrow edge hedge hlisted
  unfold DerivedIslandEdge.source DerivedIslandEdge.target at hjoins hcausal
  rw [hkind] at hjoins hcausal
  have hown : Counted document edge row.promotion := hother.of_joins htype hjoins hcausal
  have honce := hcounts.nodup row hrow
  rw [hids, nodup_countedIds hnodup] at honce
  refine eq_of_length_le_one (honce edge hedge) ?_ ?_
  · exact List.mem_filter.mpr ⟨mem_edgePromotions.mpr hown, decide_eq_true hid.symm⟩
  · exact List.mem_filter.mpr ⟨mem_edgePromotions.mpr hcounted, decide_eq_true hkey.symm⟩

theorem CountsOnce.distinctKeys
    : DistinctKeys document := by
  intro edge hedge other hother left right hleft hright hkey
  obtain ⟨row, hrow, hid⟩ := @exists_row_of_counted document lc _ _ hedge hleft
  rw [← hcounts.promotion_eq hnodup hrow hedge hleft hid,
    ← hcounts.promotion_eq hnodup hrow hother hright (hid.trans hkey)]

theorem CountsOnce.not_reachesTwice
    (hedge : edge ∈ document.edges) : ¬ ReachesTwice document edge := by
  intro htwice
  apply not_nodup_of_reachesTwice htwice
  rw [List.nodup_iff_forall_not_duplicate]
  intro promotion hrepeated
  obtain ⟨row, hrow, hid⟩ := @exists_row_of_counted document lc _ _ hedge
    (mem_edgePromotions.mp hrepeated.mem)
  have honce := hcounts.nodup row hrow
  obtain ⟨-, -, -, hids, -⟩ := exists_of_mem_rows hrow
  rw [hids, nodup_countedIds hnodup, hid] at honce
  -- Both occurrences are counted under the id.
  have hboth := (List.duplicate_iff_sublist.mp hrepeated).filter fun other =>
    decide (other.key = promotion.key)
  have hlength := hboth.length_le.trans (honce edge hedge)
  simp at hlength

theorem CountsOnce.not_runsFromCard
    (hedge : edge ∈ document.edges) : ¬ RunsFromCard document edge := by
  rintro ⟨hcausal, cardId, islandId, hruns⟩
  have hcounted : Counted document edge ⟨.card, islandId, cardId, edge.type⟩ := .lone (Or.inr hruns)
  obtain ⟨row, hrow, hid⟩ := @exists_row_of_counted document lc _ _ hedge hcounted
  have hpromotion := hcounts.promotion_eq hnodup hrow hedge hcounted hid
  obtain ⟨hkind, -, -, hids, -⟩ := exists_of_mem_rows hrow
  have hlisted : edge.id ∈ row.contributingEdgeIds := by
    rw [hids, mem_countedIds hnodup hedge]
    exact ⟨_, hcounted, hid.symm⟩
  have hsource := (hcounts.causal row hrow edge hedge hlisted hcausal).source
  obtain ⟨-, ⟨hnone, -⟩, -⟩ := hruns
  unfold DerivedIslandEdge.source at hsource
  rw [hkind] at hsource
  exact List.ne_nil_of_mem (show row.fromId ∈ fromIslands document edge from hsource) hnone

end

/-- Each relation is counted once where ids are distinct, and each edge reaches a relation along one
way and in its direction. -/
theorem countsOnce_of_distinctKeys (hkeys : DistinctKeys document)
    (hedges : ∀ edge ∈ document.edges, ¬ ReachesTwice document edge ∧ ¬ RunsFromCard document edge) :
    CountsOnce document (getDerivedIslandEdges lc document) := by
  -- A row stands for whatever is counted under its id.
  have hpromotion : ∀ row ∈ getDerivedIslandEdges lc document, ∀ edge ∈ document.edges,
      ∀ promotion, Counted document edge promotion → promotion.key = row.id →
        promotion = row.promotion := by
    intro row hrow edge hedge promotion hcounted hkey
    obtain ⟨-, hid, ⟨other, hother, hown⟩, -, -⟩ := exists_of_mem_rows hrow
    exact hkeys edge hedge other hother promotion row.promotion hcounted hown (hkey.trans hid)
  have hlisted : ∀ row ∈ getDerivedIslandEdges lc document, ∀ edge ∈ document.edges,
      edge.id ∈ row.contributingEdgeIds → Counted document edge row.promotion := by
    intro row hrow edge hedge hmem
    obtain ⟨-, -, -, hids, -⟩ := exists_of_mem_rows hrow
    rw [hids, mem_countedIds hnodup hedge] at hmem
    obtain ⟨promotion, hcounted, hkey⟩ := hmem
    rwa [← hpromotion row hrow edge hedge promotion hcounted hkey]
  have honce : ∀ row ∈ getDerivedIslandEdges lc document, row.contributingEdgeIds.Nodup := by
    intro row hrow
    obtain ⟨-, -, -, hids, -⟩ := exists_of_mem_rows hrow
    rw [hids, nodup_countedIds hnodup]
    intro edge hedge
    apply length_le_one_of_nodup ((nodup_edgePromotions (hedges edge hedge).1).filter _)
    intro left hleft right hright
    obtain ⟨hleft, hleftKey⟩ := List.mem_filter.mp hleft
    obtain ⟨hright, hrightKey⟩ := List.mem_filter.mp hright
    exact hkeys edge hedge edge hedge left right (mem_edgePromotions.mp hleft)
      (mem_edgePromotions.mp hright)
      ((of_decide_eq_true hleftKey).trans (of_decide_eq_true hrightKey).symm)
  refine ⟨honce, ?_, ?_, ?_, ?_, ?_⟩
  · intro row hrow
    obtain ⟨-, -, -, -, hcount⟩ := exists_of_mem_rows hrow
    rw [distinct_of_nodup (honce row hrow), hcount]
  · -- The ends and the type of a row make its id.
    apply List.Nodup.of_map fun ends : RelationEnd × RelationEnd × String =>
      Promotion.key ⟨ends.2.1.kind, ends.1.id, ends.2.1.id, ends.2.2⟩
    have hids : (getDerivedIslandEdges lc document).map DerivedIslandEdge.id =
        (getDerivedIslandEdges lc document).map fun row => row.promotion.key :=
      List.map_congr_left fun row hrow => (exists_of_mem_rows hrow).2.1
    rw [List.map_map]
    have hnodupIds := @nodup_ids document lc
    rw [hids] at hnodupIds
    exact hnodupIds
  · intro row hrow edge hedge hmem hcausal
    have hruns := (hlisted row hrow edge hedge hmem).runs hcausal (hedges edge hedge).2
    unfold DerivedIslandEdge.source DerivedIslandEdge.target
    rwa [(exists_of_mem_rows hrow).1]
  · intro row hrow edge hedge hmem
    have hcounted := hlisted row hrow edge hedge hmem
    refine ⟨hcounted.type_eq.symm, ?_⟩
    unfold DerivedIslandEdge.source DerivedIslandEdge.target
    rw [(exists_of_mem_rows hrow).1]
    exact hcounted.joins
  · intro edge hedge islandId target hne hjoins
    obtain ⟨kind, id⟩ := target
    -- The row of what the edge is counted for has its ends.
    have hrow : ∀ promotion, Counted document edge promotion →
        ∃ row ∈ getDerivedIslandEdges lc document, edge.id ∈ row.contributingEdgeIds ∧
          row.type = edge.type ∧ row.source = ⟨.island, promotion.fromId⟩ ∧
            row.target = ⟨promotion.toKind, promotion.toId⟩ := by
      intro promotion hcounted
      obtain ⟨row, hrow, hid⟩ := @exists_row_of_counted document lc _ _ hedge hcounted
      obtain ⟨hkind, -, -, hids, -⟩ := exists_of_mem_rows hrow
      obtain rfl := hpromotion row hrow edge hedge promotion hcounted hid.symm
      refine ⟨row, hrow, ?_, hcounted.type_eq, ?_, rfl⟩
      · rw [hids, mem_countedIds hnodup hedge]
        exact ⟨_, hcounted, hid.symm⟩
      · unfold DerivedIslandEdge.source
        rw [hkind]
        rfl
    cases kind with
    | card =>
        obtain ⟨row, hmem, hids, htype, hsource, htarget⟩ := hrow _ (.lone hjoins)
        exact ⟨row, hmem, hids, htype, Or.inl ⟨hsource, htarget⟩⟩
    | island =>
        have hother : islandId ≠ id := by
          rintro rfl
          exact hne rfl
        have hbetween : ∀ {a b}, a ≠ b → Runs document edge ⟨.island, a⟩ ⟨.island, b⟩ →
            ∃ row ∈ getDerivedIslandEdges lc document, edge.id ∈ row.contributingEdgeIds ∧
              row.type = edge.type ∧ row.Between ⟨.island, a⟩ ⟨.island, b⟩ := by
          intro a b hne hruns
          obtain ⟨row, hmem, hids, htype, hsource, htarget⟩ := hrow _ (.between hne hruns)
          refine ⟨row, hmem, hids, htype, ?_⟩
          rcases relationBetween_cases edge.type a b with ⟨heq, -⟩ | ⟨heq, -, -⟩
          · rw [heq] at hsource htarget
            exact Or.inl ⟨hsource, htarget⟩
          · rw [heq] at hsource htarget
            exact Or.inr ⟨hsource, htarget⟩
        rcases hjoins with hruns | hruns
        · exact hbetween hother hruns
        · obtain ⟨row, hmem, hids, htype, hends⟩ := hbetween hother.symm hruns
          exact ⟨row, hmem, hids, htype, Or.symm hends⟩

/-- The derived edges count each relation once exactly where different relations have different
ids, no edge reaches a relation along two ways, and no causal edge runs from a card that is in no
island. -/
theorem derived_edges_count_once_iff :
    CountsOnce document (getDerivedIslandEdges lc document) ↔
      DistinctKeys document ∧ ∀ edge ∈ document.edges,
        ¬ ReachesTwice document edge ∧ ¬ RunsFromCard document edge := by
  constructor
  · intro hcounts
    refine ⟨hcounts.distinctKeys hnodup, fun edge hedge => ⟨?_, ?_⟩⟩
    · exact hcounts.not_reachesTwice hnodup hedge
    · exact hcounts.not_runsFromCard hnodup hedge
  · intro hconditions
    exact countsOnce_of_distinctKeys hnodup hconditions.1 hconditions.2

end UniqueIds

end Theorem

namespace AggregationInputs

/-- Two cards that are both in the same two islands. -/
def crossed : DocumentV1 :=
  documentOf ["a", "b"] [islandOf "A" ["a", "b"], islandOf "B" ["a", "b"]] (related "a" "b")

/-- Two cards, each in an island of its own. -/
def separate : DocumentV1 :=
  documentOf ["a", "b"] [islandOf "A" ["a"], islandOf "B" ["b"]] (related "a" "b")

theorem derived_edges_count_once_iff_separate :
    (separate.edges.map Edge.id).Nodup ∧
      (CountsOnce separate (getDerivedIslandEdges .codeUnit separate) ↔
        DistinctKeys separate ∧ ∀ edge ∈ separate.edges,
          ¬ ReachesTwice separate edge ∧ ¬ RunsFromCard separate edge) :=
  ⟨by decide, derived_edges_count_once_iff (by decide)⟩

/-- The one relation is counted twice. -/
theorem relation_is_counted_twice :
    ¬ CountsOnce crossed (getDerivedIslandEdges .codeUnit crossed) := by
  intro hcounts
  have hrows : (getDerivedIslandEdges .codeUnit crossed).map
      DerivedIslandEdge.contributingEdgeIds = [["e", "e"]] := by
    decide +kernel
  have hids : ∀ ids ∈ (getDerivedIslandEdges .codeUnit crossed).map
      DerivedIslandEdge.contributingEdgeIds, ids.Nodup := by
    intro ids hids
    obtain ⟨row, hrow, rfl⟩ := List.mem_map.mp hids
    exact hcounts.nodup row hrow
  rw [hrows] at hids
  exact absurd (hids ["e", "e"] List.mem_cons_self) (by decide)

end AggregationInputs

end KjAtlas
