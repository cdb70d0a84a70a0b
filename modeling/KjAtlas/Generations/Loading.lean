import KjAtlas.Generations.Blobs

/-! # Which stored generations can be loaded

The base of a stored generation is stored too, so every digest has a chain of
differences that ends in a snapshot. A digest is loaded if its chain is not
longer than the bound. A save checks the declared depth of a difference, and that
its base can be loaded; the chain of the new row is one longer than that of its
base.
-/

namespace KjAtlas.Generation

open Py (Bytes)
open ContentBlobRow (fullJson)

variable {F R : Type} (lib : Library F R) {depth : Nat} {digest : String}

section Chains

variable (rows : List ContentBlobRow) (tenantId : String)

/-- The number of differences from a digest to the snapshot that it rests on. -/
inductive Deltas : String → Nat → Prop
  | snapshot {digest : String} {row : ContentBlobRow}
      (hrow : findBlob rows tenantId digest = some row)
      (hrepresentation : row.representation ≠ .gzipDelta) : Deltas digest 0
  | delta {digest base : String} {row : ContentBlobRow} {depth : Nat}
      (hrow : findBlob rows tenantId digest = some row)
      (hrepresentation : row.representation = .gzipDelta) (hbase : row.baseDigest = some base)
      (hdepth : Deltas base depth) : Deltas digest (depth + 1)

variable {rows tenantId}

theorem Deltas.unique {other : Nat} (hdepth : Deltas rows tenantId digest depth)
    (hother : Deltas rows tenantId digest other) : depth = other := by
  induction hdepth generalizing other with
  | snapshot hrow hrepresentation =>
      cases hother with
      | snapshot => rfl
      | delta hrow' hdelta =>
          rw [hrow, Option.some.injEq] at hrow'
          exact absurd (hrow' ▸ hdelta) hrepresentation
  | delta hrow hrepresentation hbase _ ih =>
      cases hother with
      | snapshot hrow' hsnapshot =>
          rw [hrow, Option.some.injEq] at hrow'
          exact absurd (hrow' ▸ hrepresentation) hsnapshot
      | delta hrow' _ hbase' hother =>
          rw [hrow, Option.some.injEq] at hrow'
          rw [← hrow', hbase, Option.some.injEq] at hbase'
          rw [ih (hbase' ▸ hother)]

end Chains

/-! ## What loading yields -/

section Restores

variable (rows : List ContentBlobRow) (tenantId : String) (maxDeltaDepth : Int)

/-- The bytes of a row that is no complete text, given those of its base. -/
structure RestoresRow (digest : String) (row : ContentBlobRow) (baseBytes : Option Bytes)
    (restored : Bytes) : Prop where
  storedBytes : ∃ storedBytes, materialized rows tenantId digest = some (row, storedBytes) ∧
    storedBytes.length = row.storedByteSize ∧
    restoreGeneration lib (row.encoded storedBytes) baseBytes = .ok restored
  notFull : row.representation ≠ fullJson
  depth : row.deltaDepth ≤ maxDeltaDepth

/-- The bytes of a digest, and the number of differences they are computed with. -/
inductive Restores : String → Nat → Bytes → Prop
  | full {digest : String} {row : ContentBlobRow} {storedBytes : Bytes}
      (hrow : materialized rows tenantId digest = some (row, storedBytes))
      (hstored : storedBytes.length = row.storedByteSize)
      (hrepresentation : row.representation = fullJson)
      (hlength : storedBytes.length = row.byteSize)
      (hdigest : lib.sha256 storedBytes = digest) : Restores digest 0 storedBytes
  | snapshot {digest : String} {row : ContentBlobRow} {restored : Bytes}
      (hrepresentation : row.representation ≠ .gzipDelta)
      (hrow : RestoresRow lib rows tenantId maxDeltaDepth digest row none restored) :
      Restores digest 0 restored
  | delta {digest base : String} {row : ContentBlobRow} {depth : Nat} {baseBytes restored : Bytes}
      (hrepresentation : row.representation = .gzipDelta) (hbase : row.baseDigest = some base)
      (hbytes : Restores base depth baseBytes)
      (hrow : RestoresRow lib rows tenantId maxDeltaDepth digest row (some baseBytes) restored) :
      Restores digest (depth + 1) restored

variable {lib rows tenantId maxDeltaDepth} {baseBytes : Option Bytes} {restored : Bytes}
  {row : ContentBlobRow} {ancestors : List String} {blob : EncodedGenerationBlob}
  {restore : Option (String → Except BlobRaised Bytes)} {remainingDepth : Nat}

theorem verified_eq_ok {raised : BlobRaised} :
    verified lib raised blob baseBytes = .ok restored ↔
      restoreGeneration lib blob baseBytes = .ok restored := by
  unfold verified
  split <;> simp_all

theorem materialized_eq_some {storedBytes : Bytes} :
    materialized rows tenantId digest = some (row, storedBytes) ↔
      findBlob rows tenantId digest = some row ∧ row.storageBackend = .database ∧
        row.storageState = .ready ∧ row.payloadBytes = some storedBytes := by
  simp only [materialized, Option.bind_eq_bind, Option.bind_eq_some_iff, Option.pure_def,
    Option.ite_none_right_eq_some, Option.some.injEq, Prod.mk.injEq]
  constructor
  · rintro ⟨found, hfound, ⟨hbackend, hstate⟩, bytes, hpayload, rfl, rfl⟩
    exact ⟨hfound, hbackend, hstate, hpayload⟩
  · rintro ⟨hfound, hbackend, hstate, hpayload⟩
    exact ⟨row, hfound, ⟨hbackend, hstate⟩, storedBytes, hpayload, rfl, rfl⟩

theorem restoreGeneration_eq_ok (hok : restoreGeneration lib blob baseBytes = .ok restored) :
    blob.byteSize = restored.length ∧ lib.sha256 restored = blob.contentDigest := by
  simp only [restoreGeneration, bind_eq_ok] at hok
  obtain ⟨decoded, -, hok⟩ := hok
  cases hrepresentation : blob.representation with
  | gzipJson =>
      simp only [hrepresentation, bind_eq_ok, ensure_eq_ok, pure_eq_ok] at hok
      obtain ⟨_, -, _, ⟨hlength, hdigest⟩, rfl⟩ := hok
      exact ⟨hlength.symm, hdigest⟩
  | gzipDelta =>
      simp only [hrepresentation, bind_eq_ok, ensure_eq_ok, pure_eq_ok] at hok
      obtain ⟨_, -, _, -, _, ⟨hlength, hdigest⟩, rfl⟩ := hok
      exact ⟨hlength.symm, hdigest⟩
  | other name => simp [hrepresentation, bind, Except.bind] at hok

theorem findBlob_eq_some (hrow : findBlob rows tenantId digest = some row) :
    row.tenantId = tenantId ∧ row.contentDigest = digest := by
  simpa [ContentBlobRow.key] using (findBy_eq_some _ hrow).2

/-- What one level of the recursion yields. -/
theorem restoreRow_eq_ok :
    restoreRow lib rows tenantId maxDeltaDepth restore ancestors digest = .ok restored ↔
      digest ∉ ancestors ∧ ∃ row,
        ((∃ storedBytes, materialized rows tenantId digest = some (row, storedBytes) ∧
            storedBytes.length = row.storedByteSize ∧ row.representation = fullJson ∧
            storedBytes.length = row.byteSize ∧ lib.sha256 storedBytes = digest ∧
            storedBytes = restored) ∨
          ∃ baseBytes, restoreBase restore row = .ok baseBytes ∧
            RestoresRow lib rows tenantId maxDeltaDepth digest row baseBytes restored) := by
  constructor
  · intro hok
    simp only [restoreRow, bind_eq_ok, ensure_eq_ok, found_eq_ok] at hok
    obtain ⟨_, hancestors, ⟨row, storedBytes⟩, hrow, _, hstored, hok⟩ := hok
    refine ⟨hancestors, row, ?_⟩
    split at hok
    next hfull =>
      simp only [bind_eq_ok, ensure_eq_ok, pure_eq_ok] at hok
      obtain ⟨_, ⟨hlength, hdigest⟩, hrestored⟩ := hok
      exact Or.inl ⟨storedBytes, hrow, hstored, hfull, hlength, hdigest, hrestored⟩
    next hfull =>
      simp only [bind_eq_ok, ensure_eq_ok, verified_eq_ok, not_lt] at hok
      obtain ⟨_, hdepth, baseBytes, hbase, hrestored⟩ := hok
      exact Or.inr ⟨baseBytes, hbase, ⟨storedBytes, hrow, hstored, hrestored⟩, hfull, hdepth⟩
  · rintro ⟨hancestors, row, ⟨storedBytes, hrow, hstored, hfull, hlength, hdigest, rfl⟩ |
      ⟨baseBytes, hbase, ⟨⟨storedBytes, hrow, hstored, hrestored⟩, hfull, hdepth⟩⟩⟩
    · simp only [restoreRow, bind_eq_ok, ensure_eq_ok, found_eq_ok]
      refine ⟨(), hancestors, (row, storedBytes), hrow, (), hstored, ?_⟩
      rw [if_pos hfull]
      simp [bind_eq_ok, hlength, hdigest, pure, Except.pure]
    · simp only [restoreRow, bind_eq_ok, ensure_eq_ok, found_eq_ok]
      refine ⟨(), hancestors, (row, storedBytes), hrow, (), hstored, ?_⟩
      rw [if_neg hfull]
      simp only [bind_eq_ok, ensure_eq_ok, verified_eq_ok, not_lt]
      exact ⟨(), hdepth, baseBytes, hbase, hrestored⟩

theorem restoreBase_eq_ok :
    restoreBase restore row = .ok baseBytes ↔
      row.representation ≠ .gzipDelta ∧ baseBytes = none ∨
        row.representation = .gzipDelta ∧ ∃ base restoreBytes bytes, row.baseDigest = some base ∧
          restore = some restoreBytes ∧ restoreBytes base = .ok bytes ∧ baseBytes = some bytes := by
  unfold restoreBase
  by_cases hdelta : row.representation = .gzipDelta
  · rw [if_pos hdelta]
    cases hbase : row.baseDigest with
    | none => simp [hdelta]
    | some base =>
        cases restore with
        | none => simp [hdelta]
        | some restoreBytes =>
            cases hbytes : restoreBytes base with
            | error error => simp [hdelta, hbytes, Except.map]
            | ok bytes => simp [hdelta, hbytes, Except.map, eq_comm]
  · simp [hdelta, eq_comm]

theorem Restores.deltas
    (hrestores : Restores lib rows tenantId maxDeltaDepth digest depth restored) :
    Deltas rows tenantId digest depth := by
  induction hrestores with
  | full hrow _ hrepresentation =>
      refine .snapshot (materialized_eq_some.mp hrow).1 ?_
      rw [hrepresentation]
      exact nofun
  | snapshot hrepresentation hrow =>
      obtain ⟨_, hrow, -⟩ := hrow.storedBytes
      exact .snapshot (materialized_eq_some.mp hrow).1 hrepresentation
  | delta hrepresentation hbase _ hrow ih =>
      obtain ⟨_, hrow, -⟩ := hrow.storedBytes
      exact .delta (materialized_eq_some.mp hrow).1 hrepresentation hbase ih

theorem restores_of_restoreDigest
    (hok : restoreDigest lib rows tenantId maxDeltaDepth remainingDepth ancestors digest =
      .ok restored) :
    ∃ depth ≤ remainingDepth, Restores lib rows tenantId maxDeltaDepth digest depth restored := by
  induction remainingDepth generalizing ancestors digest restored with
  | zero =>
      obtain ⟨-, row, ⟨storedBytes, hrow, hstored, hfull, hlength, hdigest, rfl⟩ |
        ⟨baseBytes, hbase, hrow⟩⟩ := restoreRow_eq_ok.mp hok
      · exact ⟨0, le_refl 0, .full hrow hstored hfull hlength hdigest⟩
      · obtain ⟨hsnapshot, rfl⟩ | ⟨-, _, _, _, -, hnone, -⟩ := restoreBase_eq_ok.mp hbase
        · exact ⟨0, le_refl 0, .snapshot hsnapshot hrow⟩
        · nomatch hnone
  | succ remainingDepth ih =>
      obtain ⟨-, row, ⟨storedBytes, hrow, hstored, hfull, hlength, hdigest, rfl⟩ |
        ⟨baseBytes, hbase, hrow⟩⟩ := restoreRow_eq_ok.mp hok
      · exact ⟨0, Nat.zero_le _, .full hrow hstored hfull hlength hdigest⟩
      · obtain ⟨hsnapshot, rfl⟩ | ⟨hdelta, base, restore, bytes, hdigest, hrestore, hbytes, rfl⟩ :=
          restoreBase_eq_ok.mp hbase
        · exact ⟨0, Nat.zero_le _, .snapshot hsnapshot hrow⟩
        · cases hrestore
          obtain ⟨depth, hdepth, hrestores⟩ := ih hbytes
          exact ⟨depth + 1, Nat.succ_le_succ hdepth, .delta hdelta hdigest hrestores hrow⟩

/-- The cycle check never hits: the chains of the digests on the way here are longer. -/
theorem Restores.restoreDigest
    (hrestores : Restores lib rows tenantId maxDeltaDepth digest depth restored)
    (hremaining : depth ≤ remainingDepth)
    (hancestors : ∀ ancestor ∈ ancestors, ∀ other, Deltas rows tenantId ancestor other →
      depth < other) :
    restoreDigest lib rows tenantId maxDeltaDepth remainingDepth ancestors digest =
      .ok restored := by
  have hdeltas := hrestores.deltas
  have hfresh : digest ∉ ancestors := fun hmem =>
    absurd (hancestors digest hmem depth hdeltas) (lt_irrefl depth)
  induction hrestores generalizing remainingDepth ancestors with
  | full hrow hstored hfull hlength hdigest =>
      cases remainingDepth <;>
        exact restoreRow_eq_ok.mpr
          ⟨hfresh, _, Or.inl ⟨_, hrow, hstored, hfull, hlength, hdigest, rfl⟩⟩
  | snapshot hrepresentation hrow =>
      have hbase : ∀ restore, restoreBase restore _ = .ok none := fun _ =>
        restoreBase_eq_ok.mpr (Or.inl ⟨hrepresentation, rfl⟩)
      cases remainingDepth <;>
        exact restoreRow_eq_ok.mpr ⟨hfresh, _, Or.inr ⟨none, hbase _, hrow⟩⟩
  | @delta digest base row depth baseBytes restored hrepresentation hbase hbytes hrow ih =>
      cases remainingDepth with
      | zero => omega
      | succ remainingDepth =>
          have hshorter : ∀ ancestor ∈ digest :: ancestors, ∀ other,
              Deltas rows tenantId ancestor other → depth < other := by
            intro ancestor hmem other hother
            rcases List.mem_cons.mp hmem with rfl | hmem
            · rw [← hdeltas.unique hother]
              exact Nat.lt_succ_self depth
            · have hlater := hancestors ancestor hmem other hother
              omega
          have hbaseFresh : base ∉ digest :: ancestors := fun hmem =>
            absurd (hshorter base hmem depth hbytes.deltas) (lt_irrefl depth)
          have hrestored := ih (Nat.le_of_succ_le_succ hremaining) hshorter hbytes.deltas hbaseFresh
          refine restoreRow_eq_ok.mpr ⟨hfresh, row, Or.inr ⟨some baseBytes, ?_, hrow⟩⟩
          exact restoreBase_eq_ok.mpr
            (Or.inr ⟨hrepresentation, base, _, baseBytes, hbase, rfl, hrestored, rfl⟩)

/-- A digest is loaded if its chain is not longer than the bound. -/
theorem load_eq_ok :
    loadDatabaseGenerationBlob lib rows tenantId maxDeltaDepth digest = .ok restored ↔
      ∃ depth : Nat, depth ≤ maxDeltaDepth ∧
        Restores lib rows tenantId maxDeltaDepth digest depth restored := by
  simp only [loadDatabaseGenerationBlob, bind_eq_ok, ensure_eq_ok]
  constructor
  · rintro ⟨_, hbound, hok⟩
    obtain ⟨depth, hdepth, hrestores⟩ := restores_of_restoreDigest hok
    exact ⟨depth, by omega, hrestores⟩
  · rintro ⟨depth, hdepth, hrestores⟩
    exact ⟨(), by omega, hrestores.restoreDigest (by omega) (by simp)⟩

/-- What is loaded has the digest that it is stored under. -/
theorem Restores.sha256
    (hrestores : Restores lib rows tenantId maxDeltaDepth digest depth restored) :
    lib.sha256 restored = digest := by
  have hrow : ∀ {row baseBytes}, RestoresRow lib rows tenantId maxDeltaDepth digest row baseBytes
      restored → lib.sha256 restored = digest := by
    intro row baseBytes hrow
    obtain ⟨storedBytes, hstored, -, hrestored⟩ := hrow.storedBytes
    have hdigest := (restoreGeneration_eq_ok hrestored).2
    rw [hdigest]
    exact (findBlob_eq_some (materialized_eq_some.mp hstored).1).2
  cases hrestores with
  | full _ _ _ _ hdigest => exact hdigest
  | snapshot _ hstored => exact hrow hstored
  | delta _ _ _ hstored => exact hrow hstored

end Restores

end KjAtlas.Generation
