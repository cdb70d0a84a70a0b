import KjAtlas.Js.Undefined
import KjAtlas.Patch.Conflict

/-! # Conflict detection and JSON round trips

The test for a conflict compares three values, one from each side: the
baseline, the local document and the patch. Properties equal to `undefined` count,
and a round trip of one side removes them. This is noticed where a value has such
properties and exactly one of the other two is this value, with or without them.
-/

namespace KjAtlas

open Js

/-- What conflict detection compares. -/
structure ConflictInputs where
  baselineDoc : DocumentV1
  currentDoc : DocumentV1
  patch : PatchV1

inductive ConflictSide where
  | baseline
  | current
  | patch

namespace ConflictSide

/-- The sides in a cycle, so that the other two sides of `side` are
`side.next` and `side.next.next`. -/
def next : ConflictSide → ConflictSide
  | .baseline => .current
  | .current => .patch
  | .patch => .baseline

end ConflictSide

namespace ConflictInputs

def json (inputs : ConflictInputs) : ConflictSide → ConflictInputs
  | .baseline => { inputs with baselineDoc := inputs.baselineDoc.json }
  | .current => { inputs with currentDoc := inputs.currentDoc.json }
  | .patch => { inputs with patch := inputs.patch.json }

def value (inputs : ConflictInputs) (op : PatchOp) : ConflictSide → Option Entity
  | .baseline => inputs.baselineDoc.lookup op.entityKey
  | .current => inputs.currentDoc.lookup op.entityKey
  | .patch => op.theirValue

variable (lc : Collation)

def conflictOpIds (inputs : ConflictInputs) : List String :=
  (detectPatchConflicts lc inputs.baselineDoc inputs.currentDoc inputs.patch).conflicts.map
    ConflictItem.opId

/-- A JSON round trip of any one side leaves the reported op ids the same. -/
def JsonInvariant (inputs : ConflictInputs) : Prop :=
  ∀ side opId, opId ∈ (inputs.json side).conflictOpIds lc ↔ opId ∈ inputs.conflictOpIds lc

/-- The values of the three sides are pairwise different, where `same` compares that of one side
with the other two. -/
def Apart (same : JsValue → JsValue → Prop) (inputs : ConflictInputs) (side : ConflictSide)
    (op : PatchOp) : Prop :=
  let mine := entityValue (inputs.value op side)
  let left := entityValue (inputs.value op side.next)
  let right := entityValue (inputs.value op side.next.next)
  ¬same mine left ∧ ¬same mine right ∧ ¬SameValue lc left right

/-- The second value is the first one, with or without its properties equal to `undefined`. -/
def Near (v w : JsValue) : Prop := SameValue lc v w ∨ Stripped lc v w

/-- The value of one side has properties equal to `undefined`, and exactly one of the other two
values is that value, with or without them. -/
def Disturbed (inputs : ConflictInputs) (side : ConflictSide) (op : PatchOp) : Prop :=
  let mine := entityValue (inputs.value op side)
  definedOnly mine = false ∧ ¬(Near lc mine (entityValue (inputs.value op side.next)) ↔
    Near lc mine (entityValue (inputs.value op side.next.next)))

variable {inputs : ConflictInputs} {side : ConflictSide}

theorem sameEntity_eq_false {left right : Option Entity} :
    sameEntity lc left right = false ↔ ¬SameValue lc (entityValue left) (entityValue right) := by
  rw [← Bool.not_eq_true, sameEntity_iff, stableSerialize_eq_iff]
  rfl

theorem conflicting_iff (side : ConflictSide) (op : PatchOp) :
    Conflicting lc inputs.baselineDoc inputs.currentDoc op ↔
      inputs.Apart lc (SameValue lc) side op := by
  simp only [Conflicting, sameEntity_eq_false, Apart, SameValue]
  cases side with
  | baseline => exact Iff.rfl
  | current =>
      simp only [ConflictSide.next, value]
      rw [@eq_comm _ (stableForm lc (entityValue (inputs.currentDoc.lookup _)))
        (stableForm lc (entityValue (inputs.baselineDoc.lookup _))),
        @eq_comm _ (stableForm lc (entityValue op.theirValue))
          (stableForm lc (entityValue (inputs.baselineDoc.lookup _)))]
      tauto
  | patch =>
      simp only [ConflictSide.next, value]
      rw [@eq_comm _ (stableForm lc (entityValue op.theirValue)),
        @eq_comm _ (stableForm lc (entityValue op.theirValue))]
      tauto

/-- The operation in the inputs whose side has made a round trip. -/
def jsonOp : ConflictSide → PatchOp → PatchOp
  | .patch, op => op.json
  | _, op => op

theorem ops_json (inputs : ConflictInputs) (side : ConflictSide) :
    (inputs.json side).patch.ops = inputs.patch.ops.map (jsonOp side) := by
  cases side with
  | baseline => exact (List.map_id _).symm
  | current => exact (List.map_id _).symm
  | patch => rfl

theorem id_jsonOp (side : ConflictSide) (op : PatchOp) : (jsonOp side op).id = op.id := by
  cases side <;> rfl

theorem entityValue_json (entity : Option Entity) :
    entityValue (entity.map Entity.json) = jsonImage (entityValue entity) := by
  cases entity with
  | none => rfl
  | some entity => cases entity <;> exact (jsonImage_object _).symm

theorem conflicting_json_iff (op : PatchOp) :
    Conflicting lc (inputs.json side).baselineDoc (inputs.json side).currentDoc (jsonOp side op) ↔
      inputs.Apart lc (Stripped lc) side op := by
  rw [conflicting_iff lc side]
  simp only [Apart, ← sameValue_jsonImage_iff]
  cases side <;>
    simp [json, jsonOp, value, ConflictSide.next, DocumentV1.lookup_json, entityValue_json]

theorem mem_conflictOpIds (inputs : ConflictInputs) (side : ConflictSide) {opId : String} :
    opId ∈ inputs.conflictOpIds lc ↔
      ∃ op ∈ inputs.patch.ops, op.id = opId ∧ inputs.Apart lc (SameValue lc) side op := by
  simp only [conflictOpIds, mem_conflicts_opId, conflicting_iff lc side]

theorem mem_conflictOpIds_json {opId : String} :
    opId ∈ (inputs.json side).conflictOpIds lc ↔
      ∃ op ∈ inputs.patch.ops, op.id = opId ∧ inputs.Apart lc (Stripped lc) side op := by
  rw [conflictOpIds, mem_conflicts_opId, ops_json]
  constructor
  · rintro ⟨_, hmem, rfl, hconflict⟩
    obtain ⟨op, hop, rfl⟩ := List.mem_map.mp hmem
    exact ⟨op, hop, (id_jsonOp side op).symm, (conflicting_json_iff lc op).mp hconflict⟩
  · rintro ⟨op, hop, rfl, hconflict⟩
    exact ⟨jsonOp side op, List.mem_map_of_mem hop, id_jsonOp side op,
      (conflicting_json_iff lc op).mpr hconflict⟩

/-- The test of an operation comes out the same unless it is disturbed. -/
theorem not_disturbed_iff (op : PatchOp) :
    ¬inputs.Disturbed lc side op ↔
      (inputs.Apart lc (SameValue lc) side op ↔ inputs.Apart lc (Stripped lc) side op) := by
  simp only [Disturbed, Near, Apart, ← sameValue_jsonImage_iff, SameValue]
  generalize entityValue (inputs.value op side) = mine
  cases hdefined : definedOnly mine with
  | true => simp [show _ = _ from sameValue_jsonImage lc hdefined]
  | false =>
      have hchanged : stableForm lc (jsonImage mine) ≠ stableForm lc mine := by
        intro hsame
        rw [((sameValue_jsonImage_iff lc).mp hsame).2] at hdefined
        cases hdefined
      generalize stableForm lc mine = before at hchanged ⊢
      generalize stableForm lc (jsonImage mine) = after at hchanged ⊢
      grind

/-- No operation is disturbed unless its id is shared by an operation whose values are pairwise
different, and by one whose values are when that of the side has been stripped. -/
def RoundTripSafe (inputs : ConflictInputs) : Prop :=
  ∀ side, ∀ op ∈ inputs.patch.ops, inputs.Disturbed lc side op →
    (∃ twin ∈ inputs.patch.ops, twin.id = op.id ∧ inputs.Apart lc (SameValue lc) side twin) ∧
      ∃ twin ∈ inputs.patch.ops, twin.id = op.id ∧ inputs.Apart lc (Stripped lc) side twin

/-- When conflict detection does not notice a JSON round trip. -/
theorem jsonInvariant_iff (inputs : ConflictInputs) :
    inputs.JsonInvariant lc ↔ inputs.RoundTripSafe lc := by
  refine forall_congr' fun side => ?_
  simp only [mem_conflictOpIds_json, mem_conflictOpIds lc inputs side]
  constructor
  · intro hsame op hop hdisturbed
    have hdiffers := mt (not_disturbed_iff lc op).mpr (not_not.mpr hdisturbed)
    by_cases hbefore : inputs.Apart lc (SameValue lc) side op
    · exact ⟨⟨op, hop, rfl, hbefore⟩, (hsame op.id).mpr ⟨op, hop, rfl, hbefore⟩⟩
    · have hafter := not_not.mp fun hnot => hdiffers (iff_of_false hbefore hnot)
      exact ⟨(hsame op.id).mp ⟨op, hop, rfl, hafter⟩, ⟨op, hop, rfl, hafter⟩⟩
  · intro hsafe opId
    constructor
    · rintro ⟨op, hop, rfl, hafter⟩
      by_cases hdisturbed : inputs.Disturbed lc side op
      · exact (hsafe op hop hdisturbed).1
      · exact ⟨op, hop, rfl, ((not_disturbed_iff lc op).mp hdisturbed).mpr hafter⟩
    · rintro ⟨op, hop, rfl, hbefore⟩
      by_cases hdisturbed : inputs.Disturbed lc side op
      · exact (hsafe op hop hdisturbed).2
      · exact ⟨op, hop, rfl, ((not_disturbed_iff lc op).mp hdisturbed).mp hbefore⟩

/-- An edit made identically on both sides is reported because the local card
has a property equal to `undefined`, and is not reported after a round trip. -/
theorem identical_edit_reported :
    let edited : Card := ⟨("claimType", none) :: (Card.smallest "a" "new").props, "a", by rfl⟩
    let inputs : ConflictInputs := ⟨.smallest [.smallest "a" "base"] [], .smallest [edited] [],
      .ofOps [⟨"op", .upsertCard (.smallest "a" "new")⟩]⟩
    inputs.conflictOpIds .codeUnit = ["op"] ∧
      (inputs.json .current).conflictOpIds .codeUnit = [] ∧ ¬inputs.JsonInvariant .codeUnit := by
  intro edited inputs
  have hbefore : inputs.conflictOpIds .codeUnit = ["op"] := by decide
  have hafter : (inputs.json .current).conflictOpIds .codeUnit = [] := by decide
  refine ⟨hbefore, hafter, fun hinvariant => ?_⟩
  have hop := (hinvariant .current "op").mpr (by simp [hbefore])
  simp [hafter] at hop

end ConflictInputs

end KjAtlas
