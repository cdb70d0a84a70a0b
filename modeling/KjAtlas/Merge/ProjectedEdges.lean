import KjAtlas.Foundation.Grouping
import KjAtlas.Foundation.PrefixCode
import KjAtlas.Merge.Representative

/-! # Relations of a representative

Each relation between a source and another entity is projected to the
representative once. Projections are told apart by a text of ids and a type, which
is ambiguous where ids and types contain colons.
-/

namespace KjAtlas

open Js

/-! ## Relations that cross the selection -/

/-- A relation of a selected card to another entity, without the card. -/
structure CrossingRelation where
  fromSelected : Bool
  otherKind : EdgeEndpointKind
  otherId : String
  type : String
deriving DecidableEq

/-- The type as a template prints it. -/
def Edge.typeText (edge : Edge) : String := (edge.props.string? "type").getD "undefined"

def Edge.fromSelected (edge : Edge) (selectedCardIds : List String) : Bool :=
  decide (edge.fromKind.getD .card = .card) && selectedCardIds.contains edge.fromId

def Edge.toSelected (edge : Edge) (selectedCardIds : List String) : Bool :=
  decide (edge.toKind.getD .card = .card) && selectedCardIds.contains edge.toId

def Edge.crossing? (edge : Edge) (selectedCardIds : List String) : Option CrossingRelation :=
  match edge.fromSelected selectedCardIds, edge.toSelected selectedCardIds with
  | true, false => some ⟨true, edge.toKind.getD .card, edge.toId, edge.typeText⟩
  | false, true => some ⟨false, edge.fromKind.getD .card, edge.fromId, edge.typeText⟩
  | _, _ => none

/-- An edge joins the representative to the other entity, in the direction of the relation. -/
def Edge.Realizes (edge : Edge) (representativeCardId : String) (relation : CrossingRelation) :
    Prop :=
  edge.typeText = relation.type ∧
    if relation.fromSelected then
      edge.fromKind.getD .card = .card ∧ edge.fromId = representativeCardId ∧
        edge.toKind.getD .card = relation.otherKind ∧ edge.toId = relation.otherId
    else
      edge.toKind.getD .card = .card ∧ edge.toId = representativeCardId ∧
        edge.fromKind.getD .card = relation.otherKind ∧ edge.fromId = relation.otherId

def Edge.IsSelfLoop (edge : Edge) : Prop :=
  edge.fromKind.getD .card = edge.toKind.getD .card ∧ edge.fromId = edge.toId

def Edge.TouchesCard (edge : Edge) (cardId : String) : Prop :=
  edge.fromKind.getD .card = .card ∧ edge.fromId = cardId ∨
    edge.toKind.getD .card = .card ∧ edge.toId = cardId

/-- The edges are kept, and one edge is added for each relation that crosses the selection. -/
structure ProjectsCrossings (edges : List Edge) (selectedCardIds : List String)
    (representativeCardId : String) (added : List Edge) : Prop where
  complete : ∀ edge ∈ edges, ∀ relation, edge.crossing? selectedCardIds = some relation →
    ∃! projected, projected ∈ added ∧ projected.Realizes representativeCardId relation
  sound : ∀ projected ∈ added, ∃ edge ∈ edges, ∃ relation,
    edge.crossing? selectedCardIds = some relation ∧
      projected.Realizes representativeCardId relation
  no_loop : ∀ projected ∈ added, ¬ projected.IsSelfLoop
  no_selected : ∀ projected ∈ added, ∀ cardId ∈ selectedCardIds, ¬ projected.TouchesCard cardId
  ids : ((edges ++ added).map Edge.id).Nodup

/-! ## Texts of relations -/

def CrossingRelation.triple (relation : CrossingRelation) : String :=
  (if relation.fromSelected then "from" else "to") ++ ":" ++ relation.otherKind.text ++ ":" ++
    relation.otherId ++ ":" ++ relation.type

/-- The second relation is the first one with another colon between the id and the type. -/
def CrossingRelation.Confused (left right : CrossingRelation) : Prop :=
  left.fromSelected = right.fromSelected ∧ left.otherKind = right.otherKind ∧
    Shifted ':' (left.otherId, left.type) (right.otherId, right.type)

theorem CrossingRelation.triple_eq (relation : CrossingRelation) :
    relation.triple = (if relation.fromSelected then "from" else "to") ++ ":" ++
      (relation.otherKind.text ++ ":" ++ (relation.otherId ++ ":" ++ relation.type)) := by
  simp only [triple, String.append_assoc]

theorem colon_not_mem_direction (fromSelected : Bool) :
    ':' ∉ (if fromSelected then "from" else "to").toList := by
  cases fromSelected <;> decide

theorem EdgeEndpointKind.colon_not_mem_text (kind : EdgeEndpointKind) : ':' ∉ kind.text.toList := by
  cases kind <;> decide

theorem direction_inj {left right : Bool}
    (heq : (if left then "from" else "to") = if right then "from" else "to") : left = right := by
  cases left <;> cases right <;> simp at heq ⊢

theorem EdgeEndpointKind.text_inj {left right : EdgeEndpointKind} (heq : left.text = right.text) :
    left = right := by
  cases left <;> cases right <;> simp [text] at heq ⊢

theorem CrossingRelation.triple_eq_iff {left right : CrossingRelation} :
    left.triple = right.triple ↔
      left = right ∨ left.Confused right ∨ right.Confused left := by
  have hjoin := @join_eq_iff ':' (left.otherId, left.type) (right.otherId, right.type)
  constructor
  · intro heq
    rw [triple_eq, triple_eq] at heq
    obtain ⟨hfrom, hrest⟩ :=
      labelled_inj (colon_not_mem_direction _) (colon_not_mem_direction _) heq
    obtain ⟨hkind, hrest⟩ :=
      labelled_inj left.otherKind.colon_not_mem_text right.otherKind.colon_not_mem_text hrest
    have hfrom := direction_inj hfrom
    have hkind := EdgeEndpointKind.text_inj hkind
    rcases hjoin.mp hrest with hsame | hshifted | hshifted
    · obtain ⟨hid, htype⟩ := Prod.mk.inj hsame
      left
      cases left
      cases right
      simp_all
    · exact Or.inr (Or.inl ⟨hfrom, hkind, hshifted⟩)
    · exact Or.inr (Or.inr ⟨hfrom.symm, hkind.symm, hshifted⟩)
  · rintro (rfl | ⟨hfrom, hkind, hshifted⟩ | ⟨hfrom, hkind, hshifted⟩)
    · rfl
    · rw [triple_eq, triple_eq, hfrom, hkind]
      exact congrArg _ (congrArg _ (join_eq_of_shifted hshifted))
    · rw [triple_eq, triple_eq, ← hfrom, ← hkind]
      exact congrArg _ (congrArg _ (join_eq_of_shifted hshifted).symm)

/-! ## Projections -/

def Edge.projected (edge : Edge) (selectedCardIds : List String) (representativeCardId : String) :
    Edge :=
  edge.redirect
    ("representative-merge:" ++ representativeCardId ++ ":" ++
      projectedTriple edge (edge.fromSelected selectedCardIds))
    (if edge.fromSelected selectedCardIds then representativeCardId else edge.fromId)
    (if edge.toSelected selectedCardIds then representativeCardId else edge.toId)

section Projection

variable {edges : List Edge} {selectedCardIds : List String} {representativeCardId : String}

variable {edge : Edge} {relation : CrossingRelation}

section

variable (hcrossing : edge.crossing? selectedCardIds = some relation)
include hcrossing

theorem crossing?_eq_some :
    edge.fromSelected selectedCardIds = true ∧ edge.toSelected selectedCardIds = false ∧
        relation = ⟨true, edge.toKind.getD .card, edge.toId, edge.typeText⟩ ∨
      edge.fromSelected selectedCardIds = false ∧ edge.toSelected selectedCardIds = true ∧
        relation = ⟨false, edge.fromKind.getD .card, edge.fromId, edge.typeText⟩ := by
  unfold Edge.crossing? at hcrossing
  split at hcrossing
  next hfrom hto => exact Or.inl ⟨hfrom, hto, (Option.some.inj hcrossing).symm⟩
  next hfrom hto => exact Or.inr ⟨hfrom, hto, (Option.some.inj hcrossing).symm⟩
  next => cases hcrossing

theorem projectedTriple_eq :
    projectedTriple edge (edge.fromSelected selectedCardIds) = relation.triple := by
  rcases crossing?_eq_some hcrossing with ⟨hfrom, -, rfl⟩ | ⟨hfrom, -, rfl⟩
  · rw [hfrom]
    rfl
  · rw [hfrom]
    rfl

theorem realizes_projected :
    (edge.projected selectedCardIds representativeCardId).Realizes representativeCardId relation := by
  have htype : (edge.projected selectedCardIds representativeCardId).typeText = edge.typeText := by
    simp [Edge.projected, Edge.redirect, Edge.typeText, Props.string?_put]
  rcases crossing?_eq_some hcrossing with ⟨hfrom, hto, rfl⟩ | ⟨hfrom, hto, rfl⟩
  · have hkind : edge.fromKind.getD .card = .card :=
      of_decide_eq_true ((Bool.and_eq_true _ _).mp hfrom).1
    exact ⟨htype, hkind, if_pos hfrom, rfl, if_neg (by rw [hto]; exact Bool.noConfusion)⟩
  · have hkind : edge.toKind.getD .card = .card :=
      of_decide_eq_true ((Bool.and_eq_true _ _).mp hto).1
    exact ⟨htype, hkind, if_pos hto, rfl, if_neg (by rw [hfrom]; exact Bool.noConfusion)⟩

theorem other_ne_of_crossing (hfresh : ¬ edge.TouchesCard representativeCardId) :
    ¬ (relation.otherKind = .card ∧ relation.otherId = representativeCardId) := by
  rintro ⟨hkind, hid⟩
  rcases crossing?_eq_some hcrossing with ⟨-, -, rfl⟩ | ⟨-, -, rfl⟩
  · exact hfresh (Or.inr ⟨hkind, hid⟩)
  · exact hfresh (Or.inl ⟨hkind, hid⟩)

theorem other_not_selected :
    ¬ (relation.otherKind = .card ∧ relation.otherId ∈ selectedCardIds) := by
  rintro ⟨hkind, hid⟩
  rcases crossing?_eq_some hcrossing with ⟨-, hto, rfl⟩ | ⟨hfrom, -, rfl⟩
  · rw [Edge.toSelected, decide_eq_true hkind, List.contains_iff_mem.mpr hid] at hto
    cases hto
  · rw [Edge.fromSelected, decide_eq_true hkind, List.contains_iff_mem.mpr hid] at hfrom
    cases hfrom

end

theorem projectRepresentativeEdges_eq :
    projectRepresentativeEdges edges selectedCardIds representativeCardId =
      edges ++ (firstByKey (fun edge =>
        (edge.crossing? selectedCardIds).map CrossingRelation.triple)
        (fun edge => edge.projected selectedCardIds representativeCardId) edges).values := by
  unfold projectRepresentativeEdges firstByKey
  dsimp only
  congr 2
  apply List.foldl_ext
  intro kept edge _
  cases hcrossing : edge.crossing? selectedCardIds with
  | none =>
      have hsame : edge.fromSelected selectedCardIds = edge.toSelected selectedCardIds := by
        unfold Edge.crossing? at hcrossing
        split at hcrossing
        next => cases hcrossing
        next => cases hcrossing
        next hleft hright =>
          cases hfrom : edge.fromSelected selectedCardIds with
          | true => exact (Bool.not_eq_false _).mp (hleft hfrom) |>.symm
          | false => exact ((Bool.not_eq_true _).mp (hright hfrom)).symm
      exact if_pos hsame
  | some relation =>
      have hdifferent : edge.fromSelected selectedCardIds ≠ edge.toSelected selectedCardIds := by
        rcases crossing?_eq_some hcrossing with ⟨hfrom, hto, -⟩ | ⟨hfrom, hto, -⟩
        · rw [hfrom, hto]
          exact Bool.noConfusion
        · rw [hfrom, hto]
          exact Bool.noConfusion
      rw [Option.map_some, ← projectedTriple_eq hcrossing]
      exact if_neg hdifferent

theorem Edge.Realizes.unique {left right : CrossingRelation}
    (hleft : edge.Realizes representativeCardId left)
    (hright : edge.Realizes representativeCardId right)
    (hother : ¬ (left.otherKind = .card ∧ left.otherId = representativeCardId)) : left = right := by
  obtain ⟨leftFrom, leftKind, leftId, leftType⟩ := left
  obtain ⟨rightFrom, rightKind, rightId, rightType⟩ := right
  obtain ⟨hleftType, hleft⟩ := hleft
  obtain ⟨hrightType, hright⟩ := hright
  dsimp only at *
  subst hleftType hrightType
  cases leftFrom with
  | true =>
      obtain ⟨-, -, rfl, rfl⟩ := hleft
      cases rightFrom with
      | true =>
          obtain ⟨-, -, rfl, rfl⟩ := hright
          rfl
      | false => exact absurd ⟨hright.1, hright.2.1⟩ hother
  | false =>
      obtain ⟨-, -, rfl, rfl⟩ := hleft
      cases rightFrom with
      | true => exact absurd ⟨hright.1, hright.2.1⟩ hother
      | false =>
          obtain ⟨-, -, rfl, rfl⟩ := hright
          rfl

/-! ## The first edge of each text -/

def firstCrossing (edges : List Edge) (selectedCardIds : List String) (triple : String) :
    Option Edge :=
  edges.find? fun edge =>
    decide ((edge.crossing? selectedCardIds).map CrossingRelation.triple = some triple)

theorem of_firstCrossing {triple : String}
    (hfirst : firstCrossing edges selectedCardIds triple = some edge) :
    edge ∈ edges ∧ ∃ relation, edge.crossing? selectedCardIds = some relation ∧
      relation.triple = triple := by
  refine ⟨List.mem_of_find?_eq_some hfirst, ?_⟩
  have htriple := List.find?_some hfirst
  exact Option.map_eq_some_iff.mp (of_decide_eq_true htriple)

theorem exists_firstCrossing (hedge : edge ∈ edges)
    (hcrossing : edge.crossing? selectedCardIds = some relation) :
    ∃ first, firstCrossing edges selectedCardIds relation.triple = some first := by
  apply Option.isSome_iff_exists.mp
  rw [firstCrossing, List.find?_isSome]
  refine ⟨edge, hedge, decide_eq_true ?_⟩
  rw [hcrossing, Option.map_some]

def addedEdges (edges : List Edge) (selectedCardIds : List String)
    (representativeCardId : String) : InsertionMap String Edge :=
  firstByKey (fun edge => (edge.crossing? selectedCardIds).map CrossingRelation.triple)
    (fun edge => edge.projected selectedCardIds representativeCardId) edges

theorem get?_addedEdges (triple : String) :
    (addedEdges edges selectedCardIds representativeCardId).get? triple =
      (firstCrossing edges selectedCardIds triple).map fun edge =>
        edge.projected selectedCardIds representativeCardId :=
  get?_firstByKey _ _ _ _

theorem mem_addedEdges {projected : Edge} :
    projected ∈ (addedEdges edges selectedCardIds representativeCardId).values ↔
      ∃ edge ∈ edges, ∃ relation, edge.crossing? selectedCardIds = some relation ∧
        firstCrossing edges selectedCardIds relation.triple = some edge ∧
          projected = edge.projected selectedCardIds representativeCardId := by
  rw [InsertionMap.mem_values]
  simp only [get?_addedEdges, Option.map_eq_some_iff]
  constructor
  · rintro ⟨triple, edge, hfirst, rfl⟩
    obtain ⟨hedge, relation, hcrossing, rfl⟩ := of_firstCrossing hfirst
    exact ⟨edge, hedge, relation, hcrossing, hfirst, rfl⟩
  · rintro ⟨edge, -, relation, -, hfirst, rfl⟩
    exact ⟨relation.triple, edge, hfirst, rfl⟩

/-! ## What is added -/

theorem Edge.Realizes.touches {cardId : String}
    (hrealizes : edge.Realizes representativeCardId relation) (htouches : edge.TouchesCard cardId) :
    representativeCardId = cardId ∨ relation.otherKind = .card ∧ relation.otherId = cardId := by
  obtain ⟨-, hrealizes⟩ := hrealizes
  split at hrealizes
  next =>
    obtain ⟨-, hrepresentative, hkind, hid⟩ := hrealizes
    rw [← hrepresentative, ← hkind, ← hid]
    exact htouches.imp_left And.right
  next =>
    obtain ⟨-, hrepresentative, hkind, hid⟩ := hrealizes
    rw [← hrepresentative, ← hkind, ← hid]
    exact htouches.symm.imp_left And.right

theorem Edge.Realizes.loop (hrealizes : edge.Realizes representativeCardId relation)
    (hloop : edge.IsSelfLoop) :
    relation.otherKind = .card ∧ relation.otherId = representativeCardId := by
  obtain ⟨-, hrealizes⟩ := hrealizes
  obtain ⟨hkinds, hids⟩ := hloop
  split at hrealizes
  next =>
    obtain ⟨hcard, hrepresentative, hkind, hid⟩ := hrealizes
    exact ⟨by rw [← hkind, ← hkinds, hcard], by rw [← hid, ← hids, hrepresentative]⟩
  next =>
    obtain ⟨hcard, hrepresentative, hkind, hid⟩ := hrealizes
    exact ⟨by rw [← hkind, hkinds, hcard], by rw [← hid, hids, hrepresentative]⟩

theorem ids_addedEdges :
    (addedEdges edges selectedCardIds representativeCardId).values.map Edge.id =
      (addedEdges edges selectedCardIds representativeCardId).keys.map fun triple =>
        "representative-merge:" ++ representativeCardId ++ ":" ++ triple := by
  rw [InsertionMap.values, InsertionMap.keys, List.map_map, List.map_map]
  apply List.map_congr_left
  intro entry hentry
  have hget : (addedEdges edges selectedCardIds representativeCardId).get? entry.1 =
      some entry.2 := by
    rw [InsertionMap.get?, findBy_of_mem _ (InsertionMap.nodup _) hentry]
    rfl
  rw [get?_addedEdges] at hget
  obtain ⟨edge, hfirst, hprojected⟩ := Option.map_eq_some_iff.mp hget
  obtain ⟨-, relation, hcrossing, htriple⟩ := of_firstCrossing hfirst
  rw [Function.comp_apply, Function.comp_apply, ← hprojected, ← htriple,
    ← projectedTriple_eq hcrossing]
  rfl

theorem nodup_ids_addedEdges :
    ((addedEdges edges selectedCardIds representativeCardId).values.map Edge.id).Nodup := by
  rw [ids_addedEdges]
  apply List.Nodup.map _ (InsertionMap.nodup _)
  intro left right heq
  exact (String.append_right_inj _).mp heq

def PrefixReserved (edges : List Edge) : Prop :=
  ∀ edge ∈ edges, ∀ rest, edge.id ≠ "representative-merge:" ++ rest

theorem nodup_ids_all (hids : (edges.map Edge.id).Nodup) (hreserved : PrefixReserved edges) :
    ((edges ++ (addedEdges edges selectedCardIds representativeCardId).values).map
      Edge.id).Nodup := by
  rw [List.map_append, List.nodup_append]
  refine ⟨hids, nodup_ids_addedEdges, ?_⟩
  intro id hid other hother
  obtain ⟨edge, hedge, rfl⟩ := List.mem_map.mp hid
  rw [ids_addedEdges, List.mem_map] at hother
  obtain ⟨triple, -, rfl⟩ := hother
  rw [String.append_assoc, String.append_assoc]
  exact hreserved edge hedge _

/-! ## One edge for each relation -/

def NoneConfused (edges : List Edge) (selectedCardIds : List String) : Prop :=
  ∀ left ∈ edges, ∀ right ∈ edges, ∀ leftRelation rightRelation,
    left.crossing? selectedCardIds = some leftRelation →
      right.crossing? selectedCardIds = some rightRelation → ¬ leftRelation.Confused rightRelation

variable (hfresh : ∀ edge ∈ edges, ¬ edge.TouchesCard representativeCardId)

include hfresh

theorem first_of_realizes {projected : Edge} (hedge : edge ∈ edges)
    (hcrossing : edge.crossing? selectedCardIds = some relation)
    (hadded : projected ∈ (addedEdges edges selectedCardIds representativeCardId).values)
    (hrealizes : projected.Realizes representativeCardId relation) :
    ∃ first, firstCrossing edges selectedCardIds relation.triple = some first ∧
      first.crossing? selectedCardIds = some relation ∧
        projected = first.projected selectedCardIds representativeCardId := by
  obtain ⟨first, -, other, hother, hfirst, rfl⟩ := mem_addedEdges.mp hadded
  have hsame : relation = other := hrealizes.unique (realizes_projected hother)
    (other_ne_of_crossing hcrossing (hfresh edge hedge))
  subst hsame
  exact ⟨first, hfirst, hother, rfl⟩

theorem projectsCrossings_of_noneConfused (hids : (edges.map Edge.id).Nodup)
    (hreserved : PrefixReserved edges) (hselected : representativeCardId ∉ selectedCardIds)
    (hnone : NoneConfused edges selectedCardIds) :
    ProjectsCrossings edges selectedCardIds representativeCardId
      (addedEdges edges selectedCardIds representativeCardId).values where
  complete := by
    intro edge hedge relation hcrossing
    obtain ⟨first, hfirst⟩ := exists_firstCrossing hedge hcrossing
    obtain ⟨hfirstMem, other, hother, htriple⟩ := of_firstCrossing hfirst
    have hsame : other = relation := by
      rcases CrossingRelation.triple_eq_iff.mp htriple with hsame | hconfused | hconfused
      · exact hsame
      · exact absurd hconfused (hnone _ hfirstMem _ hedge _ _ hother hcrossing)
      · exact absurd hconfused (hnone _ hedge _ hfirstMem _ _ hcrossing hother)
    subst hsame
    refine ⟨_, ⟨mem_addedEdges.mpr ⟨first, hfirstMem, other, hother, hfirst, rfl⟩,
      realizes_projected hother⟩, ?_⟩
    rintro projected ⟨hadded, hrealizes⟩
    obtain ⟨again, hagain, -, rfl⟩ := first_of_realizes hfresh hedge hcrossing hadded hrealizes
    rw [Option.some.inj (hagain.symm.trans hfirst)]
  sound := by
    intro projected hadded
    obtain ⟨edge, hedge, relation, hcrossing, -, rfl⟩ := mem_addedEdges.mp hadded
    exact ⟨edge, hedge, relation, hcrossing, realizes_projected hcrossing⟩
  no_loop := by
    intro projected hadded hloop
    obtain ⟨edge, hedge, relation, hcrossing, -, rfl⟩ := mem_addedEdges.mp hadded
    exact other_ne_of_crossing hcrossing (hfresh edge hedge) ((realizes_projected hcrossing).loop hloop)
  no_selected := by
    intro projected hadded cardId hcard htouches
    obtain ⟨edge, hedge, relation, hcrossing, -, rfl⟩ := mem_addedEdges.mp hadded
    rcases (realizes_projected hcrossing).touches htouches with rfl | ⟨hkind, rfl⟩
    · exact hselected hcard
    · exact other_not_selected hcrossing ⟨hkind, hcard⟩
  ids := nodup_ids_all hids hreserved

theorem first_of_projectsCrossings
    (hprojects : ProjectsCrossings edges selectedCardIds representativeCardId
      (addedEdges edges selectedCardIds representativeCardId).values) (hedge : edge ∈ edges)
    (hcrossing : edge.crossing? selectedCardIds = some relation) :
    ∃ first, firstCrossing edges selectedCardIds relation.triple = some first ∧
      first.crossing? selectedCardIds = some relation := by
  obtain ⟨projected, ⟨hadded, hrealizes⟩, -⟩ := hprojects.complete edge hedge relation hcrossing
  obtain ⟨first, hfirst, hfirstCrossing, -⟩ :=
    first_of_realizes hfresh hedge hcrossing hadded hrealizes
  exact ⟨first, hfirst, hfirstCrossing⟩

theorem noneConfused_of_projectsCrossings
    (hprojects : ProjectsCrossings edges selectedCardIds representativeCardId
      (addedEdges edges selectedCardIds representativeCardId).values) :
    NoneConfused edges selectedCardIds := by
  intro left hleft right hright leftRelation rightRelation hleftCrossing hrightCrossing hconfused
  have htriple := CrossingRelation.triple_eq_iff.mpr (Or.inr (Or.inl hconfused))
  obtain ⟨first, hfirst, hfirstCrossing⟩ :=
    first_of_projectsCrossings hfresh hprojects hleft hleftCrossing
  obtain ⟨again, hagain, hagainCrossing⟩ :=
    first_of_projectsCrossings hfresh hprojects hright hrightCrossing
  rw [← htriple, hfirst] at hagain
  cases hagain
  rw [hfirstCrossing] at hagainCrossing
  cases hagainCrossing
  exact hconfused.2.2.ne rfl

/-- The projections are what they should be exactly when no relations are confused. -/
theorem projects_crossings_iff (hids : (edges.map Edge.id).Nodup)
    (hreserved : PrefixReserved edges) (hselected : representativeCardId ∉ selectedCardIds) :
    (∃ added, projectRepresentativeEdges edges selectedCardIds representativeCardId =
      edges ++ added ∧ ProjectsCrossings edges selectedCardIds representativeCardId added) ↔
        NoneConfused edges selectedCardIds := by
  constructor
  · rintro ⟨added, heq, hprojects⟩
    rw [projectRepresentativeEdges_eq, List.append_cancel_left_eq] at heq
    subst heq
    exact noneConfused_of_projectsCrossings hfresh hprojects
  · intro hnone
    exact ⟨_, projectRepresentativeEdges_eq,
      projectsCrossings_of_noneConfused hfresh hids hreserved hselected hnone⟩

end Projection

namespace ColonInputs

def edge (id toId type : String) : Edge := .smallest id "s" toId type

/-- One relation of a selected card. -/
theorem projects_crossings_iff_one : ∃ added,
    projectRepresentativeEdges [edge "e" "a" "related"] ["s"] "r" =
      [edge "e" "a" "related"] ++ added ∧
        ProjectsCrossings [edge "e" "a" "related"] ["s"] "r" added := by
  apply (projects_crossings_iff _ (by decide) _ (by decide)).mpr
  · intro left hleft right hright leftRelation rightRelation hleftCrossing hrightCrossing hconfused
    rw [List.mem_singleton.mp hleft] at hleftCrossing
    rw [List.mem_singleton.mp hright, hleftCrossing] at hrightCrossing
    cases hrightCrossing
    exact hconfused.2.2.ne rfl
  · intro other hother
    rw [List.mem_singleton.mp hother]
    simp [Edge.TouchesCard, edge, Edge.smallest]
  · intro other hother rest heq
    rw [List.mem_singleton.mp hother] at heq
    have hlength := congrArg String.length heq
    rw [String.length_append] at hlength
    have hshort : (edge "e" "a" "related").id.length = 1 := by decide
    have hlong : "representative-merge:".length = 21 := by decide
    omega

def edges : List Edge := [edge "e1" "a" "b:c", edge "e2" "a:b" "c"]

/-- A relation to `a` of type `b:c` and one to `a:b` of type `c`: one of them is not projected. -/
theorem one_relation_is_lost : ¬ ∃ added,
    projectRepresentativeEdges edges ["s"] "r" = edges ++ added ∧
      ProjectsCrossings edges ["s"] "r" added := by
  rintro ⟨added, heq, hprojects⟩
  have hfresh : ∀ edge ∈ edges, ¬ edge.TouchesCard "r" := by
    simp [edges, Edge.TouchesCard, edge, Edge.smallest]
  rw [projectRepresentativeEdges_eq, List.append_cancel_left_eq] at heq
  subst heq
  have hnone := noneConfused_of_projectsCrossings hfresh hprojects
  apply hnone (edge "e1" "a" "b:c") (by simp [edges]) (edge "e2" "a:b" "c") (by simp [edges])
    ⟨true, .card, "a", "b:c"⟩ ⟨true, .card, "a:b", "c"⟩ (by decide) (by decide)
  exact ⟨rfl, rfl, "b", by decide, by decide⟩

end ColonInputs

end KjAtlas
