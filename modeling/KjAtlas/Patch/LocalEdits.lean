import KjAtlas.Patch.Apply

/-! # Local edits under a patch with a baseline

An entity is protected when it was edited locally, so that it differs from the
baseline, and no operation agrees with the edit. Conflicting operations leave
protected entities alone. Two kinds of operations do not conflict and still
reach them: those that restore the value of the baseline, and deletions of
cards, which take the links of the card along.
-/

namespace KjAtlas

open Js

variable (lc : Collation)

/-- A local edit that no operation of the patch agrees with. -/
def ProtectedEdit (baselineDoc currentDoc : DocumentV1) (ops : List PatchOp)
    (key : EntityKey) : Prop :=
  sameEntity lc (baselineDoc.lookup key) (currentDoc.lookup key) = false ∧
    ∀ op ∈ ops, op.entityKey = key → sameEntity lc (currentDoc.lookup key) op.theirValue = false

/-- Applying the patch leaves every protected entity as it is. -/
def NoLostUpdate (baselineDoc currentDoc : DocumentV1) (patch : PatchV1)
    (resolutions : String → Option PatchResolution) : Prop :=
  ∀ key, ProtectedEdit lc baselineDoc currentDoc patch.ops key →
    (applyPatchWithResolutionsDetailed lc currentDoc patch resolutions (some baselineDoc)
      none).document.lookup key = currentDoc.lookup key

/-- Whether an operation gives its entity the value it has in the baseline. -/
def Restores (baselineDoc : DocumentV1) (op : PatchOp) : Prop :=
  sameEntity lc (baselineDoc.lookup op.entityKey) op.theirValue = true

/-- Whether an operation deletes a card of an evidence link without conflict. -/
def RemovesLink (baselineDoc currentDoc : DocumentV1) (op : PatchOp) (entity : Entity) : Prop :=
  op.cascades entity = true ∧ ¬Conflicting lc baselineDoc currentDoc op

/-- When the patch leaves an entity alone. No operation deletes a card of it
without conflict; and no operation restores its value in the baseline, except
for a link that was deleted locally and is removed again by a later deletion of
one of its cards. -/
structure LeftAlone (baselineDoc currentDoc : DocumentV1) (ops : List PatchOp)
    (key : EntityKey) : Prop where
  notRemoved : ∀ entity ∈ currentDoc.lookup key, ∀ op ∈ ops,
    ¬RemovesLink lc baselineDoc currentDoc op entity
  notRestored : ∀ op after, op :: after <:+ ops → op.entityKey = key →
    Restores lc baselineDoc op →
      (∃ later ∈ after, later.entityKey = key ∧ Restores lc baselineDoc later) ∨
        (currentDoc.lookup key = none ∧ ∃ entity ∈ op.theirValue,
          ∃ later ∈ after, RemovesLink lc baselineDoc currentDoc later entity)

section

variable {baselineDoc currentDoc : DocumentV1} {ops : List PatchOp} {key : EntityKey}

theorem conflicting_iff_not_restores
    (hprotected : ProtectedEdit lc baselineDoc currentDoc ops key) {op : PatchOp} (hop : op ∈ ops)
    (hkey : op.entityKey = key) :
    Conflicting lc baselineDoc currentDoc op ↔ ¬Restores lc baselineDoc op := by
  obtain ⟨hlocal, htheirs⟩ := hprotected
  have htheir := htheirs op hop hkey
  rw [← hkey] at hlocal htheir
  simp [Conflicting, Restores, hlocal, htheir]

/-- The operations of a patch that are applied when no conflict is resolved for it. -/
def unconflicted (baselineDoc currentDoc : DocumentV1) (ops : List PatchOp) : List PatchOp :=
  ops.filter fun op => !decide (Conflicting lc baselineDoc currentDoc op)

theorem any_cascades_unconflicted (entity : Entity) :
    ((unconflicted lc baselineDoc currentDoc ops).any fun op => op.cascades entity) = true ↔
      ∃ op ∈ ops, RemovesLink lc baselineDoc currentDoc op entity := by
  simp only [unconflicted, List.any_eq_true, List.mem_filter, Bool.not_eq_true',
    decide_eq_false_iff_not, RemovesLink]
  constructor
  · rintro ⟨op, ⟨hop, hconflict⟩, hcascades⟩
    exact ⟨op, hop, hcascades, hconflict⟩
  · rintro ⟨op, hop, hcascades, hconflict⟩
    exact ⟨op, ⟨hop, hconflict⟩, hcascades⟩

section

variable (hprotected : ProtectedEdit lc baselineDoc currentDoc ops key)
include hprotected

theorem restores_of_unconflicted
    {op : PatchOp} (hop : op ∈ unconflicted lc baselineDoc currentDoc ops)
    (hkey : op.entityKey = key) : Restores lc baselineDoc op := by
  obtain ⟨hmem, hconflict⟩ := List.mem_filter.mp hop
  rw [Bool.not_eq_true', decide_eq_false_iff_not,
    conflicting_iff_not_restores lc hprotected hmem hkey, not_not] at hconflict
  exact hconflict

/-- Without an operation that restores it, a protected entity only falls to a
deletion of a card. -/
theorem entityRun_eq_self_of_not_restored
    (hnone : ∀ op ∈ ops, ¬(op.entityKey = key ∧ Restores lc baselineDoc op)) :
    entityRun key (unconflicted lc baselineDoc currentDoc ops) (currentDoc.lookup key) =
        currentDoc.lookup key ↔
      ∀ entity ∈ currentDoc.lookup key, ∀ op ∈ ops,
        ¬RemovesLink lc baselineDoc currentDoc op entity := by
  have huntouched : ∀ op ∈ unconflicted lc baselineDoc currentDoc ops, op.entityKey ≠ key :=
    fun op hop hkey => hnone op (List.mem_filter.mp hop).1
      ⟨hkey, restores_of_unconflicted lc hprotected hop hkey⟩
  rw [entityRun_of_untouched huntouched, filter_eq_self_iff]
  refine forall₂_congr fun entity _ => ?_
  rw [Bool.not_eq_true', ← Bool.not_eq_true, any_cascades_unconflicted]
  simp only [not_exists, not_and]

theorem entityRun_eq_self_iff :
    entityRun key (unconflicted lc baselineDoc currentDoc ops) (currentDoc.lookup key) =
        currentDoc.lookup key ↔
      LeftAlone lc baselineDoc currentDoc ops key := by
  rcases none_or_exists_last (fun op => op.entityKey = key ∧ Restores lc baselineDoc op) ops with
    hnone | ⟨op, after, hsuffix, ⟨hkey, hrestores⟩, hlast⟩
  · rw [entityRun_eq_self_of_not_restored lc hprotected hnone]
    constructor
    · intro hnotRemoved
      refine ⟨hnotRemoved, fun op after hsuffix hkey hrestores => ?_⟩
      exact absurd ⟨hkey, hrestores⟩ (hnone op (hsuffix.mem List.mem_cons_self))
    · exact LeftAlone.notRemoved
  · have hmem : op ∈ ops := hsuffix.mem List.mem_cons_self
    have hdiffers := hprotected.2 op hmem hkey
    have happlied : (!decide (Conflicting lc baselineDoc currentDoc op)) = true := by
      simpa [conflicting_iff_not_restores lc hprotected hmem hkey] using hrestores
    have hafter : ∀ later ∈ unconflicted lc baselineDoc currentDoc after,
        later.entityKey ≠ key := by
      intro later hlater hlaterKey
      have hin := List.mem_filter.mp hlater
      have hinOps := hsuffix.mem (List.mem_cons_of_mem op hin.1)
      exact hlast later hin.1 ⟨hlaterKey, restores_of_unconflicted lc hprotected
        (List.mem_filter.mpr ⟨hinOps, hin.2⟩) hlaterKey⟩
    have hrun : entityRun key (unconflicted lc baselineDoc currentDoc ops)
        (currentDoc.lookup key) = op.theirValue.filter fun value =>
          !(unconflicted lc baselineDoc currentDoc after).any fun later =>
            later.cascades value := by
      obtain ⟨before, rfl⟩ := hsuffix
      rw [unconflicted, List.filter_append, List.filter_cons, if_pos happlied]
      exact entityRun_of_last hkey hafter _ _
    rw [hrun]
    constructor
    · intro hkept
      -- the op's value differs from the local one, so it must have been removed again
      cases htheir : op.theirValue with
      | none =>
          rw [htheir, Option.filter_none] at hkept
          simp [← hkept, htheir] at hdiffers
      | some value =>
          by_cases hremoved : ∃ later ∈ after, RemovesLink lc baselineDoc currentDoc later value
          · have hcurrent : currentDoc.lookup key = none := by
              rw [← hkept, htheir]
              simp [Option.filter_some, (any_cascades_unconflicted lc value).mpr hremoved]
            refine ⟨by simp [hcurrent], fun op' after' hsuffix' hkey' hrestores' => ?_⟩
            rcases suffix_cases hsuffix' hsuffix with heq | hbefore | hbehind
            · rw [List.cons.injEq] at heq
              rw [heq.1, heq.2]
              exact Or.inr ⟨hcurrent, value, htheir, hremoved⟩
            · exact absurd ⟨hkey', hrestores'⟩ (hlast op' hbefore)
            · exact Or.inl ⟨op, hbehind, hkey, hrestores⟩
          · rw [← any_cascades_unconflicted, Bool.not_eq_true] at hremoved
            rw [htheir, Option.filter_some, hremoved] at hkept
            simp [← hkept, htheir] at hdiffers
    · intro hleft
      rcases hleft.notRestored op after hsuffix hkey hrestores with
        ⟨later, hlater, hlaterKey, hlaterRestores⟩ | ⟨hcurrent, value, hvalue, hremoved⟩
      · exact absurd ⟨hlaterKey, hlaterRestores⟩ (hlast later hlater)
      · rw [hcurrent, Option.mem_def.mp hvalue, Option.filter_some,
          (any_cascades_unconflicted lc value).mpr hremoved]
        rfl

end

end

section Patch

variable {baselineDoc currentDoc : DocumentV1} {patch : PatchV1}
  {resolutions : String → Option PatchResolution}

/-- With distinct op ids and no conflict resolved for the patch, exactly the
operations without conflict are applied. -/
theorem document_eq_applyPatchOps_unconflicted (hids : (patch.ops.map PatchOp.id).Nodup)
    (hresolutions : ∀ opId, resolutions opId ≠ some .theirs) :
    (applyPatchWithResolutionsDetailed lc currentDoc patch resolutions (some baselineDoc)
        none).document =
      applyPatchOps (unconflicted lc baselineDoc currentDoc patch.ops) currentDoc := by
  simp only [applyPatchWithResolutionsDetailed, Option.map_some, Option.getD_some]
  rw [(foldl_applyStep _ resolutions none patch.ops _).1]
  congr 1
  apply List.filter_congr
  intro op hop
  have hmem : op.id ∈ (detectPatchConflicts lc baselineDoc currentDoc patch).conflicts.map
      ConflictItem.opId ↔ Conflicting lc baselineDoc currentDoc op := by
    rw [mem_conflicts_opId]
    constructor
    · rintro ⟨other, hother, hid, hconflict⟩
      rwa [← List.inj_on_of_nodup_map hids hother hop hid]
    · exact fun hconflict => ⟨op, hop, rfl, hconflict⟩
  simp only [isApplied, Option.any_none, Bool.not_false, Bool.true_and, hmem,
    hresolutions op.id, decide_false, Bool.or_false]

/-- No local update is lost exactly when the patch leaves every protected
entity alone. -/
theorem noLostUpdate_iff (hunique : currentDoc.UniqueIds)
    (hids : (patch.ops.map PatchOp.id).Nodup)
    (hresolutions : ∀ opId, resolutions opId ≠ some .theirs) :
    NoLostUpdate lc baselineDoc currentDoc patch resolutions ↔
      ∀ key, ProtectedEdit lc baselineDoc currentDoc patch.ops key →
        LeftAlone lc baselineDoc currentDoc patch.ops key := by
  refine forall₂_congr fun key hprotected => ?_
  rw [document_eq_applyPatchOps_unconflicted lc hids hresolutions, lookup_applyPatchOps fun _ => hunique _,
    entityRun_eq_self_iff lc hprotected]

end Patch

/-- The equivalence for a card edited on both sides. -/
theorem noLostUpdate_iff_edited :
    NoLostUpdate .codeUnit (.smallest [.smallest "a" "base"] [])
        (.smallest [.smallest "a" "mine"] [])
        (.ofOps [⟨"op", .upsertCard (.smallest "a" "theirs")⟩]) (fun _ => none) ↔
      ∀ key, ProtectedEdit .codeUnit (.smallest [.smallest "a" "base"] [])
          (.smallest [.smallest "a" "mine"] [])
          [⟨"op", .upsertCard (.smallest "a" "theirs")⟩] key →
        LeftAlone .codeUnit (.smallest [.smallest "a" "base"] [])
          (.smallest [.smallest "a" "mine"] [])
          [⟨"op", .upsertCard (.smallest "a" "theirs")⟩] key :=
  noLostUpdate_iff .codeUnit (fun kind => by cases kind <;> decide) (by decide) (by simp)

/-- An operation that restores the baseline overwrites an edited card, and a
deletion of a card drops a link that was added to it. -/
theorem lost_updates :
    ¬NoLostUpdate .codeUnit (.smallest [.smallest "a" "base"] [])
        (.smallest [.smallest "a" "mine"] [])
        (.ofOps [⟨"op", .upsertCard (.smallest "a" "base")⟩]) (fun _ => none) ∧
      ¬NoLostUpdate .codeUnit (.smallest [.smallest "a" "text", .smallest "b" "text"] [])
        (.smallest [.smallest "a" "text", .smallest "b" "text"] [.smallest "new" "a" "b"])
        (.ofOps [⟨"op", .deleteCard "a"⟩]) (fun _ => none) := by
  constructor
  · intro hkept
    have hcard := hkept ⟨.card, "a"⟩ ⟨by decide, by decide⟩
    revert hcard
    decide
  · intro hkept
    have hlink := hkept ⟨.evidenceLink, "new"⟩ ⟨by decide, by decide⟩
    revert hlink
    decide

end KjAtlas
