import KjAtlas.Patch.Op

/-! # Conflicts between a patch and local edits

An operation conflicts when the value in the baseline, the local value and the
value of the operation are pairwise different, compared by stable
serialization.
-/

namespace KjAtlas

open Js

structure ConflictItem where
  opId : String
  kind : PatchOpKind
  entityKey : String
  baseValue : Option Entity
  yourValue : Option Entity
  theirValue : Option Entity
  reason : String

structure ConflictReport where
  conflicts : List ConflictItem
  nonConflictingOpIds : List String

def getPatchOpEntityKey (op : PatchOp) : String := op.entityKey.text

def getDocEntityByOp (doc : DocumentV1) (op : PatchOp) : Option Entity :=
  match op.change with
  | .upsertCard card => (findBy Card.id card.id doc.cards).map .card
  | .deleteCard cardId => (findBy Card.id cardId doc.cards).map .card
  | .upsertIsland island => (findBy Island.id island.id doc.islands).map .island
  | .deleteIsland islandId => (findBy Island.id islandId doc.islands).map .island
  | .upsertEdge edge => (findBy Edge.id edge.id doc.edges).map .edge
  | .deleteEdge edgeId => (findBy Edge.id edgeId doc.edges).map .edge
  | .upsertRelationSummary summary =>
      (findBy RelationSummary.sourceSignature summary.sourceSignature doc.summaries).map
        .relationSummary
  | .deleteRelationSummary sourceSignature =>
      (findBy RelationSummary.sourceSignature sourceSignature doc.summaries).map .relationSummary
  | .upsertEvidenceLink link => (findBy EvidenceLink.id link.id doc.links).map .evidenceLink
  | .deleteEvidenceLink linkId => (findBy EvidenceLink.id linkId doc.links).map .evidenceLink

def buildReason (baseChanged : Bool) (yourValue theirValue : Option Entity) : String :=
  if !baseChanged then "both modified"
  else if yourValue = none ∧ theirValue ≠ none then "delete vs update"
  else if yourValue ≠ none ∧ theirValue = none then "update vs delete"
  else "both modified"

section Detection

variable (lc : Collation)

/-- `isEqual` on entities, where an absent one is `null`. -/
def sameEntity (left right : Option Entity) : Bool := isEqual lc (entityValue left) (entityValue right)

def conflictOf (baselineDoc currentDoc : DocumentV1) (op : PatchOp) : Option ConflictItem :=
  let baseValue := getDocEntityByOp baselineDoc op
  let yourValue := getDocEntityByOp currentDoc op
  let theirValue := op.theirValue
  let baseToYourChanged := !sameEntity lc baseValue yourValue
  let baseToTheirChanged := !sameEntity lc baseValue theirValue
  let yourAndTheirUnequal := !sameEntity lc yourValue theirValue
  if baseToYourChanged && baseToTheirChanged && yourAndTheirUnequal then
    some {
      opId := op.id
      kind := op.kind
      entityKey := getPatchOpEntityKey op
      baseValue
      yourValue
      theirValue
      reason := buildReason baseToYourChanged yourValue theirValue }
  else none

def detectPatchConflicts (baselineDoc currentDoc : DocumentV1) (patch : PatchV1) :
    ConflictReport where
  conflicts := patch.ops.filterMap (conflictOf lc baselineDoc currentDoc)
  nonConflictingOpIds :=
    (patch.ops.filter fun op => (conflictOf lc baselineDoc currentDoc op).isNone).map PatchOp.id

/-- The three-way test of an operation against its entity in two documents. -/
def Conflicting (baselineDoc currentDoc : DocumentV1) (op : PatchOp) : Prop :=
  sameEntity lc (baselineDoc.lookup op.entityKey) (currentDoc.lookup op.entityKey) = false ∧
    sameEntity lc (baselineDoc.lookup op.entityKey) op.theirValue = false ∧
      sameEntity lc (currentDoc.lookup op.entityKey) op.theirValue = false

instance (baselineDoc currentDoc : DocumentV1) (op : PatchOp) :
    Decidable (Conflicting lc baselineDoc currentDoc op) :=
  inferInstanceAs (Decidable (_ ∧ _ ∧ _))

theorem sameEntity_iff {left right : Option Entity} :
    sameEntity lc left right = true ↔
      stableSerialize lc (entityValue left) = stableSerialize lc (entityValue right) :=
  isEqual_iff lc

@[simp] theorem sameEntity_refl (entity : Option Entity) : sameEntity lc entity entity = true := by
  rw [sameEntity_iff]

theorem sameEntity_comm (left right : Option Entity) :
    sameEntity lc left right = sameEntity lc right left := by
  rw [Bool.eq_iff_iff, sameEntity_iff, sameEntity_iff, eq_comm]

/-- An entity never equals an absent one. -/
theorem not_sameEntity_none (entity : Entity) : sameEntity lc (some entity) none = false := by
  rw [← Bool.not_eq_true, sameEntity_iff]
  exact stableSerialize_object_ne_null lc entity.props

end Detection

theorem getDocEntityByOp_eq_lookup (doc : DocumentV1) (op : PatchOp) :
    getDocEntityByOp doc op = doc.lookup op.entityKey := by
  obtain ⟨id, change⟩ := op
  cases change <;> rfl

section Report

variable (lc : Collation) {baselineDoc currentDoc : DocumentV1}

theorem conflictOf_isSome {op : PatchOp} :
    (conflictOf lc baselineDoc currentDoc op).isSome ↔
      Conflicting lc baselineDoc currentDoc op := by
  simp only [conflictOf, getDocEntityByOp_eq_lookup, Conflicting]
  split
  next h => simpa [and_assoc] using h
  next h => simpa [and_assoc] using h

theorem opId_of_conflictOf {op : PatchOp} {item : ConflictItem}
    (hitem : conflictOf lc baselineDoc currentDoc op = some item) : item.opId = op.id := by
  simp only [conflictOf] at hitem
  split at hitem
  · rw [← Option.some.inj hitem]
  · contradiction

/-- The reported op ids are the ids of the conflicting operations. -/
theorem mem_conflicts_opId {patch : PatchV1} {opId : String} :
    opId ∈ (detectPatchConflicts lc baselineDoc currentDoc patch).conflicts.map ConflictItem.opId ↔
      ∃ op ∈ patch.ops, op.id = opId ∧ Conflicting lc baselineDoc currentDoc op := by
  simp only [detectPatchConflicts, List.mem_map, List.mem_filterMap]
  constructor
  · rintro ⟨item, ⟨op, hop, hitem⟩, rfl⟩
    refine ⟨op, hop, (opId_of_conflictOf lc hitem).symm, ?_⟩
    rw [← conflictOf_isSome, hitem]
    rfl
  · rintro ⟨op, hop, rfl, hconflict⟩
    rw [← conflictOf_isSome, Option.isSome_iff_exists] at hconflict
    obtain ⟨item, hitem⟩ := hconflict
    exact ⟨item, ⟨op, hop, hitem⟩, opId_of_conflictOf lc hitem⟩

theorem conflicts_eq_nil {patch : PatchV1} :
    (detectPatchConflicts lc baselineDoc currentDoc patch).conflicts = [] ↔
      ∀ op ∈ patch.ops, ¬Conflicting lc baselineDoc currentDoc op := by
  simp only [detectPatchConflicts, List.filterMap_eq_nil_iff, ← conflictOf_isSome,
    Option.not_isSome_iff_eq_none]

end Report

end KjAtlas
