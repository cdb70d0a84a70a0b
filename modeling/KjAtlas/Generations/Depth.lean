import KjAtlas.Generations.Loading

/-! # Saved generations and the depth bound

A save accepts a difference if its declared depth is within the bound and its
base can be loaded. The chain of the base may already be as long as the bound:
then the difference is saved, but it cannot be loaded. All stored generations
can be loaded exactly when no save meets such a base.
-/

namespace KjAtlas.Generation

open Py (Bytes)
open ContentBlobRow (fullJson)

variable {F R : Type} (lib : Library F R)

/-! ## What a save accepts -/

section Accepts

variable (rows : List ContentBlobRow) (maxDeltaDepth : Int)

/-- The checks of a save before it looks for an existing row. -/
structure Accepts (call : SaveBlob) : Prop where
  storedBytes : ¬ (call.blob.storedBytes.length = 0 ∨
    call.blob.storedBytes.length > 2 ^ 31 - 1)
  depth : call.blob.deltaDepth ≤ maxDeltaDepth
  restored : (call.blob.representation = .gzipJson ∧
      ∃ restored, restoreGeneration lib call.blob none = .ok restored) ∨
    call.blob.representation = .gzipDelta ∧ ∃ base baseBytes restored,
      call.blob.baseDigest = some base ∧
      loadDatabaseGenerationBlob lib rows call.tenantId maxDeltaDepth base = .ok baseBytes ∧
      restoreGeneration lib call.blob (some baseBytes) = .ok restored

def Stores (call : SaveBlob) (row : ContentBlobRow) : Prop :=
  findBlob rows call.tenantId call.blob.contentDigest = some row ∧ row.shape = call.row.shape

/-- The chain of the base of a difference is shorter than the bound. -/
def WithinDepth (call : SaveBlob) : Prop :=
  call.blob.representation = .gzipDelta → ∀ base depth, call.blob.baseDigest = some base →
    Deltas rows call.tenantId base depth → depth < maxDeltaDepth

/-- All stored digests are loaded, with bytes of the digest. -/
def Loadable : Prop :=
  ∀ row ∈ rows, ∃ restored,
    loadDatabaseGenerationBlob lib rows row.tenantId maxDeltaDepth row.contentDigest =
      .ok restored ∧ lib.sha256 restored = row.contentDigest

/-- All stored digests have a chain, however long. -/
def Rooted : Prop :=
  ∀ row ∈ rows, ∃ depth restored,
    Restores lib rows row.tenantId maxDeltaDepth row.contentDigest depth restored

end Accepts

variable {lib} {rows next : List ContentBlobRow} {maxDeltaDepth : Int}

variable {restored : Bytes} {call : SaveBlob} {row : ContentBlobRow}

theorem restoreGeneration_other {blob : EncodedGenerationBlob} {baseBytes : Option Bytes}
    {name : String} (hother : blob.representation = .other name) :
    restoreGeneration lib blob baseBytes ≠ .ok restored := by
  intro hok
  simp only [restoreGeneration, bind_eq_ok] at hok
  obtain ⟨decoded, -, hok⟩ := hok
  simp [hother, bind, Except.bind] at hok

theorem accepts_iff :
    (¬ (call.blob.storedBytes.length = 0 ∨ call.blob.storedBytes.length > 2 ^ 31 - 1) ∧
      ¬ call.blob.deltaDepth > maxDeltaDepth ∧ ∃ baseBytes,
        savedBase lib maxDeltaDepth rows call = .ok baseBytes ∧
          ∃ restored, restoreGeneration lib call.blob baseBytes = .ok restored) ↔
      Accepts lib rows maxDeltaDepth call := by
  constructor
  · rintro ⟨hstored, hdepth, baseBytes, hbase, restored, hrestored⟩
    refine ⟨hstored, not_lt.mp hdepth, ?_⟩
    unfold savedBase at hbase
    split at hbase
    next hdelta =>
      simp only [bind_eq_ok, found_eq_ok, pure_eq_ok] at hbase
      obtain ⟨base, hdigest, bytes, hload, rfl⟩ := hbase
      exact Or.inr ⟨hdelta, base, bytes, restored, hdigest, hload, hrestored⟩
    next hdelta =>
      cases hbase
      cases hrepresentation : call.blob.representation with
      | gzipJson => exact Or.inl ⟨rfl, restored, hrestored⟩
      | gzipDelta => exact absurd hrepresentation hdelta
      | other name => exact absurd hrestored (restoreGeneration_other hrepresentation)
  · rintro ⟨hstored, hdepth, ⟨hjson, restored, hrestored⟩ |
      ⟨hdelta, base, bytes, restored, hdigest, hload, hrestored⟩⟩
    · refine ⟨hstored, not_lt.mpr hdepth, none, ?_, restored, hrestored⟩
      simp [savedBase, hjson]
    · refine ⟨hstored, not_lt.mpr hdepth, some bytes, ?_, restored, hrestored⟩
      simp [savedBase, hdelta, bind_eq_ok, hdigest, hload, pure, Except.pure]

theorem save_eq_ok :
    saveDatabaseGenerationBlob lib maxDeltaDepth rows call = .ok (row, next) ↔
      Accepts lib rows maxDeltaDepth call ∧
        (Stores rows call row ∧ next = rows ∨
          findBlob rows call.tenantId call.blob.contentDigest = none ∧ call.row.Allowed ∧
            row = call.row ∧ next = rows ++ [row]) := by
  rw [← accepts_iff]
  simp only [saveDatabaseGenerationBlob, bind_eq_ok, ensure_eq_ok, verified_eq_ok]
  cases hfind : findBlob rows call.tenantId call.blob.contentDigest with
  | none =>
      simp only [addBlob, bind_eq_ok, ensure_eq_ok, pure_eq_ok,
        Prod.mk.injEq, Stores, hfind]
      constructor
      · rintro ⟨_, hstored, _, hdepth, baseBytes, hbase, restored, hrestored, _, hallowed,
          rfl, rfl⟩
        exact ⟨⟨hstored, hdepth, baseBytes, hbase, restored, hrestored⟩,
          Or.inr ⟨trivial, hallowed, rfl, rfl⟩⟩
      · rintro ⟨⟨hstored, hdepth, baseBytes, hbase, restored, hrestored⟩,
          ⟨⟨hnone, -⟩, -⟩ | ⟨-, hallowed, rfl, rfl⟩⟩
        · cases hnone
        · exact ⟨(), hstored, (), hdepth, baseBytes, hbase, restored, hrestored, (), hallowed,
            rfl, rfl⟩
  | some existing =>
      simp only [bind_eq_ok, ensure_eq_ok, pure_eq_ok, Prod.mk.injEq,
        Stores, hfind]
      constructor
      · rintro ⟨_, hstored, _, hdepth, baseBytes, hbase, restored, hrestored, _, hshape, rfl, rfl⟩
        exact ⟨⟨hstored, hdepth, baseBytes, hbase, restored, hrestored⟩,
          Or.inl ⟨⟨rfl, hshape⟩, rfl⟩⟩
      · rintro ⟨⟨hstored, hdepth, baseBytes, hbase, restored, hrestored⟩,
          ⟨⟨hrow, hshape⟩, rfl⟩ | ⟨hnone, -⟩⟩
        · cases hrow
          exact ⟨(), hstored, (), hdepth, baseBytes, hbase, restored, hrestored, (), hshape,
            rfl, rfl⟩
        · cases hnone

/-! ## A growing table -/

/-- A table in which the rows of another are still found. -/
def Grows (rows next : List ContentBlobRow) : Prop :=
  ∀ tenantId digest row, findBlob rows tenantId digest = some row →
    findBlob next tenantId digest = some row

theorem grows_append (rows more : List ContentBlobRow) : Grows rows (rows ++ more) := by
  intro tenantId digest row hrow
  unfold findBlob findBy at hrow ⊢
  rw [List.find?_append, hrow, Option.some_or]

theorem Restores.mono {tenantId digest : String} {depth : Nat}
    (hrestores : Restores lib rows tenantId maxDeltaDepth digest depth restored)
    (hgrows : Grows rows next) :
    Restores lib next tenantId maxDeltaDepth digest depth restored := by
  have hrow : ∀ {digest row storedBytes},
      materialized rows tenantId digest = some (row, storedBytes) →
        materialized next tenantId digest = some (row, storedBytes) := by
    intro digest row storedBytes hrow
    obtain ⟨hfind, hrest⟩ := materialized_eq_some.mp hrow
    exact materialized_eq_some.mpr ⟨hgrows _ _ _ hfind, hrest⟩
  induction hrestores with
  | full hfind hstored hfull hlength hdigest =>
      exact .full (hrow hfind) hstored hfull hlength hdigest
  | snapshot hrepresentation hfind =>
      obtain ⟨⟨storedBytes, hfind, hstored⟩, hfull, hdepth⟩ := hfind
      exact .snapshot hrepresentation ⟨⟨storedBytes, hrow hfind, hstored⟩, hfull, hdepth⟩
  | delta hrepresentation hbase _ hfind ih =>
      obtain ⟨⟨storedBytes, hfind, hstored⟩, hfull, hdepth⟩ := hfind
      exact .delta hrepresentation hbase ih ⟨⟨storedBytes, hrow hfind, hstored⟩, hfull, hdepth⟩

theorem load_mono {tenantId digest : String} (hgrows : Grows rows next)
    (hload : loadDatabaseGenerationBlob lib rows tenantId maxDeltaDepth digest = .ok restored) :
    loadDatabaseGenerationBlob lib next tenantId maxDeltaDepth digest = .ok restored := by
  obtain ⟨depth, hdepth, hrestores⟩ := load_eq_ok.mp hload
  exact load_eq_ok.mpr ⟨depth, hdepth, hrestores.mono hgrows⟩

theorem Accepts.mono (haccepts : Accepts lib rows maxDeltaDepth call) (hgrows : Grows rows next) :
    Accepts lib next maxDeltaDepth call := by
  refine ⟨haccepts.storedBytes, haccepts.depth, ?_⟩
  obtain hjson | ⟨hdelta, base, bytes, restored, hbase, hload, hrestored⟩ := haccepts.restored
  · exact Or.inl hjson
  · exact Or.inr ⟨hdelta, base, bytes, restored, hbase, load_mono hgrows hload, hrestored⟩

theorem Stores.mono (hstores : Stores rows call row) (hgrows : Grows rows next) :
    Stores next call row :=
  ⟨hgrows _ _ _ hstores.1, hstores.2⟩

/-! ## One save -/

theorem stores_of_save
    (hsave : saveDatabaseGenerationBlob lib maxDeltaDepth rows call = .ok (row, next)) :
    Accepts lib rows maxDeltaDepth call ∧ Grows rows next ∧ Stores next call row := by
  obtain ⟨haccepts, ⟨hstores, rfl⟩ | ⟨hnone, -, rfl, rfl⟩⟩ := save_eq_ok.mp hsave
  · exact ⟨haccepts, fun _ _ _ hrow => hrow, hstores⟩
  · refine ⟨haccepts, grows_append rows _, ?_, rfl⟩
    unfold findBlob findBy at hnone ⊢
    rw [List.find?_append, hnone]
    simp [ContentBlobRow.key, SaveBlob.row]

section

variable (hstores : Stores next call row)
include hstores

theorem Stores.materialized :
    materialized next call.tenantId call.blob.contentDigest =
        some (row, call.blob.storedBytes) ∧
      row.encoded call.blob.storedBytes = call.blob ∧
      row.storedByteSize = call.blob.storedBytes.length := by
  obtain ⟨hfind, hshape⟩ := hstores
  have hdigest := (findBlob_eq_some hfind).2
  simp only [ContentBlobRow.shape, SaveBlob.row, BlobShape.mk.injEq] at hshape
  obtain ⟨hbackend, -, hrepresentation, hbase, hdepth, hsize, hlength, hstate, -, hpayload⟩ :=
    hshape
  refine ⟨materialized_eq_some.mpr ⟨hfind, hbackend, hstate, hpayload⟩, ?_, hlength⟩
  unfold ContentBlobRow.encoded
  rw [hdigest, hsize, hrepresentation, hbase, hdepth]

/-- The chain of a stored difference is one longer than that of its base; it is within the bound
if the save is. -/
theorem Stores.restores
    (haccepts : Accepts lib rows maxDeltaDepth call) (hgrows : Grows rows next) :
    ∃ depth restored, Restores lib next call.tenantId maxDeltaDepth call.blob.contentDigest depth
        restored ∧
      (0 ≤ maxDeltaDepth → (depth ≤ maxDeltaDepth ↔ WithinDepth rows maxDeltaDepth call)) := by
  obtain ⟨hmaterialized, hencoded, hlength⟩ := hstores.materialized
  have hrepresentation : row.representation = call.blob.representation :=
    congrArg EncodedGenerationBlob.representation hencoded
  have hdigest : row.baseDigest = call.blob.baseDigest :=
    congrArg EncodedGenerationBlob.baseDigest hencoded
  have hdepth : row.deltaDepth ≤ maxDeltaDepth := by
    rw [show row.deltaDepth = call.blob.deltaDepth from
      congrArg EncodedGenerationBlob.deltaDepth hencoded]
    exact haccepts.depth
  obtain ⟨hjson, restored, hrestored⟩ |
    ⟨hdelta, base, baseBytes, restored, hbase, hload, hrestored⟩ := haccepts.restored
  · rw [hjson] at hrepresentation
    refine ⟨0, restored, .snapshot (by simp [hrepresentation])
      ⟨⟨_, hmaterialized, hlength.symm, by rw [hencoded, hrestored]⟩, ?_, hdepth⟩, ?_⟩
    · simp [hrepresentation, fullJson]
    · intro hbound
      simp [WithinDepth, hjson, hbound]
  · rw [hdelta] at hrepresentation
    obtain ⟨depth, -, hbytes⟩ := load_eq_ok.mp hload
    refine ⟨depth + 1, restored, .delta hrepresentation (hdigest.trans hbase)
      (hbytes.mono hgrows)
      ⟨⟨_, hmaterialized, hlength.symm, by rw [hencoded, hrestored]⟩, ?_, hdepth⟩, ?_⟩
    · simp [hrepresentation, fullJson]
    · intro _
      constructor
      · intro hwithin _ other otherDepth hother hdeltas
        rw [hbase, Option.some.injEq] at hother
        subst hother
        rw [hdeltas.unique hbytes.deltas]
        omega
      · intro hwithin
        have hbelow := hwithin hdelta base depth hbase hbytes.deltas
        omega

theorem Stores.load_snapshot (hjson : call.blob.representation = .gzipJson)
    (hrestored : restoreGeneration lib call.blob none = .ok restored)
    (hdepth : call.blob.deltaDepth ≤ maxDeltaDepth) (hbound : 0 ≤ maxDeltaDepth) :
    loadDatabaseGenerationBlob lib next call.tenantId maxDeltaDepth call.blob.contentDigest =
      .ok restored := by
  obtain ⟨hmaterialized, hencoded, hlength⟩ := hstores.materialized
  have hrepresentation : row.representation = .gzipJson :=
    (congrArg EncodedGenerationBlob.representation hencoded).trans hjson
  have hrowDepth : row.deltaDepth = call.blob.deltaDepth :=
    congrArg EncodedGenerationBlob.deltaDepth hencoded
  refine load_eq_ok.mpr ⟨0, hbound, .snapshot (by simp [hrepresentation])
    ⟨⟨_, hmaterialized, hlength.symm, by rw [hencoded, hrestored]⟩, ?_, ?_⟩⟩
  · simp [hrepresentation, fullJson]
  · rw [hrowDepth]
    exact hdepth

theorem Stores.load_iff (haccepts : Accepts lib rows maxDeltaDepth call) (hgrows : Grows rows next)
    (hbound : 0 ≤ maxDeltaDepth) :
    (∃ restored, loadDatabaseGenerationBlob lib next call.tenantId maxDeltaDepth
        call.blob.contentDigest = .ok restored ∧ lib.sha256 restored = call.blob.contentDigest) ↔
      WithinDepth rows maxDeltaDepth call := by
  obtain ⟨depth, restored, hrestores, hwithin⟩ := hstores.restores haccepts hgrows
  rw [← hwithin hbound]
  constructor
  · rintro ⟨other, hload, -⟩
    obtain ⟨otherDepth, hother, hloaded⟩ := load_eq_ok.mp hload
    rw [hrestores.deltas.unique hloaded.deltas]
    exact hother
  · intro hdepth
    exact ⟨restored, load_eq_ok.mpr ⟨depth, hdepth, hrestores⟩, hrestores.sha256⟩

end

theorem rooted_save (hrooted : Rooted lib rows maxDeltaDepth)
    (hsave : saveDatabaseGenerationBlob lib maxDeltaDepth rows call = .ok (row, next)) :
    Rooted lib next maxDeltaDepth := by
  obtain ⟨haccepts, hgrows, hstores⟩ := stores_of_save hsave
  obtain ⟨-, ⟨-, rfl⟩ | ⟨-, -, rfl, rfl⟩⟩ := save_eq_ok.mp hsave
  · exact hrooted
  · intro stored hstored
    rcases List.mem_append.mp hstored with hold | hnew
    · obtain ⟨depth, restored, hrestores⟩ := hrooted stored hold
      exact ⟨depth, restored, hrestores.mono hgrows⟩
    · rw [List.mem_singleton] at hnew
      subst hnew
      obtain ⟨depth, restored, hrestores, -⟩ := hstores.restores haccepts hgrows
      exact ⟨depth, restored, hrestores⟩

/-- In a larger table a stored digest is loaded if it was before. -/
theorem load_iff_of_grows {tenantId digest : String} (hgrows : Grows rows next)
    (hrooted : ∃ depth restored, Restores lib rows tenantId maxDeltaDepth digest depth restored) :
    (∃ restored, loadDatabaseGenerationBlob lib next tenantId maxDeltaDepth digest =
        .ok restored ∧ lib.sha256 restored = digest) ↔
      ∃ restored, loadDatabaseGenerationBlob lib rows tenantId maxDeltaDepth digest =
        .ok restored ∧ lib.sha256 restored = digest := by
  obtain ⟨depth, bytes, hrestores⟩ := hrooted
  constructor
  · rintro ⟨restored, hload, -⟩
    obtain ⟨other, hother, hloaded⟩ := load_eq_ok.mp hload
    rw [← (hrestores.mono hgrows).deltas.unique hloaded.deltas] at hother
    exact ⟨bytes, load_eq_ok.mpr ⟨depth, hother, hrestores⟩, hrestores.sha256⟩
  · rintro ⟨restored, hload, hsha⟩
    exact ⟨restored, load_mono hgrows hload, hsha⟩

/-- A save keeps all stored digests loadable if it is within the bound. -/
theorem loadable_save_iff (hrooted : Rooted lib rows maxDeltaDepth)
    (hsave : saveDatabaseGenerationBlob lib maxDeltaDepth rows call = .ok (row, next)) :
    Loadable lib next maxDeltaDepth ↔
      Loadable lib rows maxDeltaDepth ∧ WithinDepth rows maxDeltaDepth call := by
  obtain ⟨haccepts, hgrows, hstores⟩ := stores_of_save hsave
  obtain ⟨-, ⟨hexisting, rfl⟩ | ⟨-, hallowed, rfl, rfl⟩⟩ := save_eq_ok.mp hsave
  · refine ⟨fun hloadable => ⟨hloadable, ?_⟩, fun hboth => hboth.1⟩
    obtain ⟨htenant, hdigest⟩ := findBlob_eq_some hexisting.1
    have hload := hloadable row (findBy_eq_some _ hexisting.1).1
    rw [htenant, hdigest] at hload
    have hbound : 0 ≤ maxDeltaDepth := by
      obtain ⟨restored, hload, -⟩ := hload
      obtain ⟨depth, hdepth, -⟩ := load_eq_ok.mp hload
      omega
    exact (hstores.load_iff haccepts hgrows hbound).mp hload
  · have hbound : 0 ≤ maxDeltaDepth := by
      have hdepth : call.blob.deltaDepth ≤ maxDeltaDepth := haccepts.depth
      have hshape := hallowed.2.1
      simp only [SaveBlob.row] at hshape
      omega
    have hnew := hstores.load_iff haccepts hgrows hbound
    have hold := fun stored (hstored : stored ∈ rows) =>
      load_iff_of_grows hgrows (hrooted stored hstored)
    unfold Loadable
    simp only [List.forall_mem_append, List.forall_mem_singleton]
    exact and_congr (forall₂_congr hold) hnew

/-- A blob that was saved is saved again without a change, at whatever time. -/
def Resaved (lib : Library F R) (maxDeltaDepth : Int)
    (run : Run (List ContentBlobRow) SaveBlob ContentBlobRow) : Prop :=
  ∀ entry ∈ run.journal, ∀ createdAt,
    saveDatabaseGenerationBlob lib maxDeltaDepth run.state
      { entry.1 with createdAt := createdAt } = .ok (entry.2, run.state)

theorem runCalls_resaved (start : List ContentBlobRow) (calls : List SaveBlob) :
    Resaved lib maxDeltaDepth
      (runCalls (saveDatabaseGenerationBlob lib maxDeltaDepth) start calls) := by
  have hkept : ∀ entry ∈
      (runCalls (saveDatabaseGenerationBlob lib maxDeltaDepth) start calls).journal,
      Accepts lib (runCalls (saveDatabaseGenerationBlob lib maxDeltaDepth) start calls).state
          maxDeltaDepth entry.1 ∧
        Stores (runCalls (saveDatabaseGenerationBlob lib maxDeltaDepth) start calls).state
          entry.1 entry.2 := by
    apply runCalls_induction (P := fun run => ∀ entry ∈ run.journal,
      Accepts lib run.state maxDeltaDepth entry.1 ∧ Stores run.state entry.1 entry.2)
    · simp
    · intro run call row next hrun hsave entry hentry
      obtain ⟨haccepts, hgrows, hstores⟩ := stores_of_save hsave
      rcases List.mem_append.mp hentry with hold | hnew
      · obtain ⟨hold, hkept⟩ := hrun entry hold
        exact ⟨hold.mono hgrows, hkept.mono hgrows⟩
      · rw [List.mem_singleton] at hnew
        subst hnew
        exact ⟨haccepts.mono hgrows, hstores⟩
  intro entry hentry createdAt
  obtain ⟨⟨hstored, hdepth, hrestored⟩, hstores⟩ := hkept entry hentry
  exact save_eq_ok.mpr ⟨⟨hstored, hdepth, hrestored⟩, Or.inl ⟨hstores, rfl⟩⟩

/-- After a run of saves all stored digests are loaded, and saving a blob again changes nothing,
exactly if every save was within the bound. -/
theorem saved_blobs_load_iff (lib : Library F R) (maxDeltaDepth : Int) (calls : List SaveBlob) :
    (Loadable lib (runCalls (saveDatabaseGenerationBlob lib maxDeltaDepth) [] calls).state
        maxDeltaDepth ∧
      Resaved lib maxDeltaDepth
        (runCalls (saveDatabaseGenerationBlob lib maxDeltaDepth) [] calls)) ↔
      ∀ step ∈ Run.steps (saveDatabaseGenerationBlob lib maxDeltaDepth) ⟨[], []⟩ calls,
        WithinDepth step.1 maxDeltaDepth step.2 := by
  rw [and_iff_left (runCalls_resaved [] calls)]
  have hrooted : Rooted lib [] maxDeltaDepth := by simp [Rooted]
  have hloadable : Loadable lib [] maxDeltaDepth := by simp [Loadable]
  have hruns : Loadable lib (calls.foldl (Run.call
        (saveDatabaseGenerationBlob lib maxDeltaDepth)) ⟨[], []⟩).state maxDeltaDepth ↔
      Loadable lib [] maxDeltaDepth ∧
        ∀ step ∈ Run.steps (saveDatabaseGenerationBlob lib maxDeltaDepth) ⟨[], []⟩ calls,
          WithinDepth step.1 maxDeltaDepth step.2 :=
    foldl_call_iff (I := fun rows => Loadable lib rows maxDeltaDepth)
      (J := fun rows => Rooted lib rows maxDeltaDepth)
      (C := fun rows call => WithinDepth rows maxDeltaDepth call)
      (fun _ _ _ _ hrooted hsave => rooted_save hrooted hsave)
      (fun _ _ _ _ hrooted hsave => loadable_save_iff hrooted hsave) calls hrooted
  exact hruns.trans (and_iff_right hloadable)

/-! ## A difference at the bound -/

namespace AtTheBound

/-- The bytes of `"c"`, and the envelope of the difference from `"b"` to it. -/
def c : Bytes := [34, 99, 34]

@[inherit_doc c]
def envelope : Bytes := Py.utf8 "\x7b\"middle\":\"Yw==\",\"prefix\":1,\"suffix\":1,\"v\":1\x7d".toList

def compressedA : Bytes :=
  [31, 139, 8, 0, 0, 0, 0, 0, 0, 3, 83, 74, 84, 2, 0, 158, 80, 14, 109, 3, 0, 0, 0]

def compressedEnvelope : Bytes :=
  [31, 139, 8, 0, 0, 0, 0, 0, 0, 3, 171, 86, 202, 205, 76, 73, 201, 73, 85, 178, 82, 138, 44, 183,
    181, 85, 210, 81, 42, 40, 74, 77, 203, 172, 80, 178, 50, 212, 81, 42, 46, 77, 131, 49, 203,
    128, 100, 45, 0, 94, 66, 183, 42, 45, 0, 0, 0]

/-- A library that also knows these bytes. -/
def library : Library Unit Rat :=
  { SmallLibrary.library with
    decompress := fun bytes =>
      if bytes = compressedA then .ok SmallLibrary.a
      else if bytes = compressedEnvelope then .ok envelope
      else SmallLibrary.library.decompress bytes
    b64decode := fun text =>
      if text = "Yw==" then some [99] else SmallLibrary.library.b64decode text
    sha256 := fun bytes =>
      if bytes = c then "879923da020d1533f4d8e921ea7bac61e8ba41d3c89d17a4d14e3a89c6780d5d"
      else SmallLibrary.library.sha256 bytes }

def saveA : SaveBlob where
  tenantId := "t"
  blob := {
    contentDigest := "ac8d8342bbb2362d13f0a559a3621bb407011368895164b628a54f7fc33fc43c"
    byteSize := 3
    storedBytes := compressedA
    representation := .gzipJson
    baseDigest := none
    deltaDepth := 0 }
  schemaVersion := "document-v1"
  createdAt := "2026-01-01T00:00:00Z"

def saveDelta (contentDigest : String) (storedBytes : Bytes) (base : SaveBlob) : SaveBlob :=
  { saveA with
    blob := {
      contentDigest
      byteSize := 3
      storedBytes
      representation := .gzipDelta
      baseDigest := some base.blob.contentDigest
      deltaDepth := 1 } }

def saveB : SaveBlob :=
  saveDelta "c100f95c1913f9c72fc1f4ef0847e1e723ffe0bde0b36e5f36c13f81fe8c26ed"
    SmallLibrary.compressedEnvelope saveA

/-- Its base has depth one, and so does it. -/
def saveC : SaveBlob :=
  saveDelta "879923da020d1533f4d8e921ea7bac61e8ba41d3c89d17a4d14e3a89c6780d5d"
    compressedEnvelope saveB

/-- All three saves succeed, but `"c"` is not loaded. -/
theorem not_loadable :
    (runCalls (saveDatabaseGenerationBlob library 1) [] [saveA, saveB, saveC]).journal.map
        Prod.fst = [saveA, saveB, saveC] ∧
      ¬ Loadable library
        (runCalls (saveDatabaseGenerationBlob library 1) [] [saveA, saveB, saveC]).state 1 := by
  have hstate : (runCalls (saveDatabaseGenerationBlob library 1) []
      [saveA, saveB, saveC]).state = [saveA.row, saveB.row, saveC.row] := by decide +kernel
  refine ⟨by decide +kernel, ?_⟩
  intro hloadable
  obtain ⟨restored, hload, -⟩ := hloadable saveC.row (by rw [hstate]; simp)
  have herror : loadDatabaseGenerationBlob library [saveA.row, saveB.row, saveC.row]
      saveC.row.tenantId 1 saveC.row.contentDigest =
        .error (.generationBlobUnavailable "generation blob delta base is unavailable") := by
    decide +kernel
  rw [hstate, herror] at hload
  nomatch hload

end AtTheBound

end KjAtlas.Generation
