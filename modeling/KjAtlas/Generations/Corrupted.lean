import KjAtlas.Generations.Loading

/-! # Corrupted generations

What a stored generation restores to is verified, and what is wrong with it is
reported as an error of the codec. Compressed data that is broken behind its
header is the exception: the error of the decompression is not among those that
are caught, and it leaves the loading as it is.
-/

namespace KjAtlas.Generation

open Py (Bytes loadsBytes)
open ContentBlobRow (fullJson)

variable {F R : Type} (lib : Library F R)

/-! ## Restoring one generation -/

variable {restored : Bytes}

section Restoring

def represented (blob : EncodedGenerationBlob) (baseBytes : Option Bytes) (decoded : Bytes) :
    Option Bytes :=
  match blob.representation with
  | .gzipJson => some decoded
  | .gzipDelta => do
      let base ← baseBytes.filter fun base => blob.baseDigest = some (lib.sha256 base)
      let envelope ← loadsBytes lib.decodeWide lib.floats decoded
      applyEnvelope lib base envelope
  | .other _ => none

/-- A stored generation that is as it was saved, and its bytes. -/
structure Sound (blob : EncodedGenerationBlob) (baseBytes : Option Bytes) (restored : Bytes) :
    Prop where
  represented : ∃ decoded, lib.decompress blob.storedBytes = .ok decoded ∧
    represented lib blob baseBytes decoded = some restored
  byteSize : restored.length = blob.byteSize
  contentDigest : lib.sha256 restored = blob.contentDigest

def FailsClosed (blob : EncodedGenerationBlob) : Except Raised Bytes → Prop
  | .ok restored => lib.sha256 restored = blob.contentDigest ∧ restored.length = blob.byteSize
  | .error (.generationCodecError _) => True
  | .error _ => False

variable {lib} {blob : EncodedGenerationBlob} {baseBytes : Option Bytes}

theorem decompressed_eq_ok {decoded : Bytes} :
    decompressed lib blob = .ok decoded ↔ lib.decompress blob.storedBytes = .ok decoded := by
  unfold decompressed
  split <;> simp_all

theorem decompressed_eq_error {raised : Raised} (herror : decompressed lib blob = .error raised) :
    (∃ message, raised = .generationCodecError message) ∨
      raised = .zlibError ∧ lib.decompress blob.storedBytes = .error .zlibError := by
  unfold decompressed at herror
  split at herror
  next => cases herror
  next =>
    obtain rfl := Except.error.inj herror
    exact Or.inl ⟨_, rfl⟩
  next hdecompress =>
    obtain rfl := Except.error.inj herror
    exact Or.inr ⟨rfl, hdecompress⟩

theorem restoreGeneration_eq (lib : Library F R) (blob : EncodedGenerationBlob)
    (baseBytes : Option Bytes) :
    ∃ message : Bytes → String, restoreGeneration lib blob baseBytes = do
      let decoded ← decompressed lib blob
      let restored ← found (.generationCodecError (message decoded))
        (represented lib blob baseBytes decoded)
      ensure (restored.length = blob.byteSize ∧ lib.sha256 restored = blob.contentDigest)
        (.generationCodecError "restored generation failed integrity verification")
      return restored := by
  unfold restoreGeneration represented
  cases hrepresentation : blob.representation with
  | gzipJson => exact ⟨fun _ => "", rfl⟩
  | gzipDelta =>
      cases hbase : baseBytes.filter fun base => blob.baseDigest = some (lib.sha256 base) with
      | none => exact ⟨fun _ => "generation delta base does not match", rfl⟩
      | some base => exact ⟨fun _ => "generation delta is invalid", rfl⟩
  | other name => exact ⟨fun _ => "generation representation is unsupported", rfl⟩

theorem restoreGeneration_eq_ok_iff :
    restoreGeneration lib blob baseBytes = .ok restored ↔ Sound lib blob baseBytes restored := by
  obtain ⟨message, heq⟩ := restoreGeneration_eq lib blob baseBytes
  simp only [heq, bind_eq_ok, decompressed_eq_ok, found_eq_ok, ensure_eq_ok]
  constructor
  · intro hok
    obtain ⟨decoded, hdecoded, _, hrepresented, _, ⟨hlength, hdigest⟩, hrestored⟩ := hok
    obtain rfl := Except.ok.inj hrestored
    exact ⟨⟨decoded, hdecoded, hrepresented⟩, hlength, hdigest⟩
  · intro hsound
    obtain ⟨decoded, hdecoded, hrepresented⟩ := hsound.represented
    exact ⟨decoded, hdecoded, restored, hrepresented, (),
      ⟨hsound.byteSize, hsound.contentDigest⟩, rfl⟩

theorem restoreGeneration_eq_error {raised : Raised}
    (herror : restoreGeneration lib blob baseBytes = .error raised) :
    (∃ message, raised = .generationCodecError message) ∨
      raised = .zlibError ∧ lib.decompress blob.storedBytes = .error .zlibError := by
  obtain ⟨message, heq⟩ := restoreGeneration_eq lib blob baseBytes
  simp only [heq, bind_eq_error, found_eq_error, ensure_eq_error] at herror
  obtain herror | ⟨_, -, ⟨-, rfl⟩ | ⟨_, -, ⟨-, rfl⟩ | ⟨_, -, hpure⟩⟩⟩ := herror
  · exact decompressed_eq_error herror
  · exact Or.inl ⟨_, rfl⟩
  · exact Or.inl ⟨_, rfl⟩
  · cases hpure

theorem restoreGeneration_zlibError :
    restoreGeneration lib blob baseBytes = .error .zlibError ↔
      lib.decompress blob.storedBytes = .error .zlibError := by
  constructor
  · intro herror
    obtain ⟨_, hcodec⟩ | ⟨-, hzlib⟩ := restoreGeneration_eq_error herror
    · cases hcodec
    · exact hzlib
  · intro hzlib
    have hdecompressed : decompressed lib blob = .error .zlibError := by
      unfold decompressed
      rw [hzlib]
    obtain ⟨message, heq⟩ := restoreGeneration_eq lib blob baseBytes
    rw [heq, hdecompressed]
    rfl

theorem failsClosed_restoreGeneration :
    FailsClosed lib blob (restoreGeneration lib blob baseBytes) ↔
      lib.decompress blob.storedBytes ≠ .error .zlibError := by
  cases hresult : restoreGeneration lib blob baseBytes with
  | ok restored =>
      have hsound := restoreGeneration_eq_ok_iff.mp hresult
      obtain ⟨decoded, hdecoded, -⟩ := hsound.represented
      simp [FailsClosed, hsound.contentDigest, hsound.byteSize, hdecoded]
  | error raised =>
      obtain ⟨message, rfl⟩ | ⟨rfl, hzlib⟩ := restoreGeneration_eq_error hresult
      · have hcaught : lib.decompress blob.storedBytes ≠ .error .zlibError := by
          intro hzlib
          have herror : restoreGeneration lib blob baseBytes = .error .zlibError :=
            restoreGeneration_zlibError.mpr hzlib
          rw [hresult] at herror
          cases herror
        simp [FailsClosed, hcaught]
      · simp [FailsClosed, hzlib]

end Restoring

/-! ## Loading a chain of generations -/

section Loading

variable (rows : List ContentBlobRow) (tenantId : String) (maxDeltaDepth : Int)

/-- A row that passes the checks that are made before anything is decompressed. -/
structure Opened (digest : String) (row : ContentBlobRow) (storedBytes : Bytes) : Prop where
  materialized : materialized rows tenantId digest = some (row, storedBytes)
  storedSize : storedBytes.length = row.storedByteSize
  notFull : row.representation ≠ fullJson
  depth : row.deltaDepth ≤ maxDeltaDepth

/-- A digest whose rows are all as they were saved, with the number of differences and the bytes. -/
inductive Undamaged : String → Nat → Bytes → Prop
  | full {digest : String} {row : ContentBlobRow} {storedBytes : Bytes}
      (hrow : materialized rows tenantId digest = some (row, storedBytes))
      (hstored : storedBytes.length = row.storedByteSize)
      (hrepresentation : row.representation = fullJson)
      (hlength : storedBytes.length = row.byteSize)
      (hdigest : lib.sha256 storedBytes = digest) : Undamaged digest 0 storedBytes
  | snapshot {digest : String} {row : ContentBlobRow} {storedBytes restored : Bytes}
      (hopened : Opened rows tenantId maxDeltaDepth digest row storedBytes)
      (hrepresentation : row.representation ≠ .gzipDelta)
      (hsound : Sound lib (row.encoded storedBytes) none restored) : Undamaged digest 0 restored
  | delta {digest base : String} {row : ContentBlobRow} {storedBytes : Bytes} {depth : Nat}
      {baseBytes restored : Bytes}
      (hopened : Opened rows tenantId maxDeltaDepth digest row storedBytes)
      (hrepresentation : row.representation = .gzipDelta) (hbase : row.baseDigest = some base)
      (hbytes : Undamaged base depth baseBytes)
      (hsound : Sound lib (row.encoded storedBytes) (some baseBytes) restored) :
      Undamaged digest (depth + 1) restored

/-- The bytes that are decompressed on the way to a digest, within a number of differences: those
of a row whose base is undamaged, and those that are decompressed on the way to the base. -/
inductive Inflates : Nat → String → Bytes → Prop
  | snapshot {remaining : Nat} {digest : String} {row : ContentBlobRow} {storedBytes : Bytes}
      (hopened : Opened rows tenantId maxDeltaDepth digest row storedBytes)
      (hrepresentation : row.representation ≠ .gzipDelta) : Inflates remaining digest storedBytes
  | delta {remaining depth : Nat} {digest base : String} {row : ContentBlobRow}
      {storedBytes baseBytes : Bytes}
      (hopened : Opened rows tenantId maxDeltaDepth digest row storedBytes)
      (hrepresentation : row.representation = .gzipDelta) (hbase : row.baseDigest = some base)
      (hbytes : Undamaged lib rows tenantId maxDeltaDepth base depth baseBytes)
      (hdepth : depth ≤ remaining) : Inflates (remaining + 1) digest storedBytes
  | base {remaining : Nat} {digest base : String} {row : ContentBlobRow} {storedBytes bytes : Bytes}
      (hopened : Opened rows tenantId maxDeltaDepth digest row storedBytes)
      (hrepresentation : row.representation = .gzipDelta) (hbase : row.baseDigest = some base)
      (hinflates : Inflates remaining base bytes) : Inflates (remaining + 1) digest bytes

def Reported (digest : String) : Except BlobRaised Bytes → Prop
  | .ok restored => lib.sha256 restored = digest
  | .error (.generationBlobUnavailable _) => True
  | .error _ => False

variable {lib rows tenantId maxDeltaDepth} {baseBytes : Option Bytes} {digest : String}
  {row : ContentBlobRow} {raised : BlobRaised} {ancestors : List String}
  {restore : Option (String → Except BlobRaised Bytes)}

theorem restoresRow_iff :
    RestoresRow lib rows tenantId maxDeltaDepth digest row baseBytes restored ↔
      ∃ storedBytes, Opened rows tenantId maxDeltaDepth digest row storedBytes ∧
        Sound lib (row.encoded storedBytes) baseBytes restored := by
  constructor
  · intro hrow
    obtain ⟨storedBytes, hstored, hsize, hok⟩ := hrow.storedBytes
    exact ⟨storedBytes, ⟨hstored, hsize, hrow.notFull, hrow.depth⟩,
      restoreGeneration_eq_ok_iff.mp hok⟩
  · intro hopened
    obtain ⟨storedBytes, hopened, hsound⟩ := hopened
    exact ⟨⟨storedBytes, hopened.materialized, hopened.storedSize,
      restoreGeneration_eq_ok_iff.mpr hsound⟩, hopened.notFull, hopened.depth⟩

theorem restores_iff_undamaged {depth : Nat} :
    Restores lib rows tenantId maxDeltaDepth digest depth restored ↔
      Undamaged lib rows tenantId maxDeltaDepth digest depth restored := by
  constructor
  · intro hrestores
    induction hrestores with
    | full hrow hstored hfull hlength hdigest => exact .full hrow hstored hfull hlength hdigest
    | snapshot hrepresentation hrow =>
        obtain ⟨storedBytes, hopened, hsound⟩ := restoresRow_iff.mp hrow
        exact .snapshot hopened hrepresentation hsound
    | delta hrepresentation hbase _ hrow ih =>
        obtain ⟨storedBytes, hopened, hsound⟩ := restoresRow_iff.mp hrow
        exact .delta hopened hrepresentation hbase ih hsound
  · intro hundamaged
    induction hundamaged with
    | full hrow hstored hfull hlength hdigest => exact .full hrow hstored hfull hlength hdigest
    | snapshot hopened hrepresentation hsound =>
        exact .snapshot hrepresentation (restoresRow_iff.mpr ⟨_, hopened, hsound⟩)
    | delta hopened hrepresentation hbase _ hsound ih =>
        exact .delta hrepresentation hbase ih (restoresRow_iff.mpr ⟨_, hopened, hsound⟩)

variable {blob : EncodedGenerationBlob}

theorem verified_eq_error {message : String}
    (herror : verified lib (.generationBlobUnavailable message) blob baseBytes = .error raised) :
    raised = .generationBlobUnavailable message ∨
      raised = .zlibError ∧ lib.decompress blob.storedBytes = .error .zlibError := by
  unfold verified at herror
  cases hresult : restoreGeneration lib blob baseBytes with
  | ok restored =>
      rw [hresult] at herror
      cases herror
  | error inner =>
      rw [hresult] at herror
      obtain ⟨_, rfl⟩ | ⟨rfl, hzlib⟩ := restoreGeneration_eq_error hresult
      · exact Or.inl (Except.error.inj herror).symm
      · exact Or.inr ⟨(Except.error.inj herror).symm, hzlib⟩

theorem restoreRow_eq_error
    (herror : restoreRow lib rows tenantId maxDeltaDepth restore ancestors digest =
      .error raised) :
    (∃ message, raised = .generationBlobUnavailable message) ∨
      ∃ row storedBytes, Opened rows tenantId maxDeltaDepth digest row storedBytes ∧
        (restoreBase restore row = .error raised ∨
          ∃ baseBytes, restoreBase restore row = .ok baseBytes ∧ raised = .zlibError ∧
            lib.decompress storedBytes = .error .zlibError) := by
  simp only [restoreRow, bind_eq_error, ensure_eq_error, found_eq_error, ensure_eq_ok,
    found_eq_ok] at herror
  obtain ⟨-, rfl⟩ | ⟨_, -, ⟨-, rfl⟩ | ⟨⟨row, storedBytes⟩, hrow, ⟨-, rfl⟩ | ⟨_, hsize, herror⟩⟩⟩ :=
    herror
  · exact Or.inl ⟨_, rfl⟩
  · exact Or.inl ⟨_, rfl⟩
  · exact Or.inl ⟨_, rfl⟩
  · split at herror
    next hfull =>
      simp only [bind_eq_error, ensure_eq_error] at herror
      obtain ⟨-, rfl⟩ | ⟨_, -, hpure⟩ := herror
      · exact Or.inl ⟨_, rfl⟩
      · cases hpure
    next hfull =>
      simp only [bind_eq_error, ensure_eq_error, ensure_eq_ok, not_lt] at herror
      obtain ⟨-, rfl⟩ | ⟨_, hdepth, hbase | ⟨baseBytes, hbase, hverified⟩⟩ := herror
      · exact Or.inl ⟨_, rfl⟩
      · exact Or.inr ⟨row, storedBytes, ⟨hrow, hsize, hfull, hdepth⟩, Or.inl hbase⟩
      · obtain rfl | ⟨rfl, hzlib⟩ := verified_eq_error hverified
        · exact Or.inl ⟨_, rfl⟩
        · exact Or.inr ⟨row, storedBytes, ⟨hrow, hsize, hfull, hdepth⟩,
            Or.inr ⟨baseBytes, hbase, rfl, hzlib⟩⟩

theorem restoreBase_eq_error (herror : restoreBase restore row = .error raised) :
    row.representation = .gzipDelta ∧ ((∃ message, raised = .generationBlobUnavailable message) ∨
      ∃ base restoreBytes, row.baseDigest = some base ∧ restore = some restoreBytes ∧
        restoreBytes base = .error raised) := by
  unfold restoreBase at herror
  split at herror
  next hdelta =>
    refine ⟨hdelta, ?_⟩
    split at herror
    next base restoreBytes hbase =>
      right
      refine ⟨base, restoreBytes, hbase, rfl, ?_⟩
      cases hbytes : restoreBytes base with
      | ok bytes =>
          rw [hbytes] at herror
          cases herror
      | error other =>
          rw [hbytes] at herror
          exact congrArg _ (Except.error.inj herror)
    next => exact Or.inl ⟨_, (Except.error.inj herror).symm⟩
  next => cases herror

/-- Whatever is no report comes from bytes that are decompressed on the way. -/
theorem restoreDigest_eq_error {remainingDepth : Nat}
    (herror : restoreDigest lib rows tenantId maxDeltaDepth remainingDepth ancestors digest =
      .error raised) :
    (∃ message, raised = .generationBlobUnavailable message) ∨
      raised = .zlibError ∧ ∃ bytes,
        Inflates lib rows tenantId maxDeltaDepth remainingDepth digest bytes ∧
          lib.decompress bytes = .error .zlibError := by
  induction remainingDepth generalizing ancestors digest with
  | zero =>
      obtain hreport | ⟨row, storedBytes, hopened, hbase | ⟨baseBytes, hbase, rfl, hzlib⟩⟩ :=
        restoreRow_eq_error herror
      · exact Or.inl hreport
      · obtain ⟨-, hreport | ⟨_, _, -, hnone, -⟩⟩ := restoreBase_eq_error hbase
        · exact Or.inl hreport
        · cases hnone
      · obtain ⟨hsnapshot, -⟩ | ⟨-, _, _, _, -, hnone, -⟩ := restoreBase_eq_ok.mp hbase
        · exact Or.inr ⟨rfl, storedBytes, .snapshot hopened hsnapshot, hzlib⟩
        · cases hnone
  | succ remainingDepth ih =>
      obtain hreport | ⟨row, storedBytes, hopened, hbase | ⟨baseBytes, hbase, rfl, hzlib⟩⟩ :=
        restoreRow_eq_error herror
      · exact Or.inl hreport
      · obtain ⟨hdelta, hreport | ⟨base, restoreBytes, hdigest, hrestore, hbytes⟩⟩ :=
          restoreBase_eq_error hbase
        · exact Or.inl hreport
        · cases hrestore
          obtain hreport | ⟨rfl, bytes, hinflates, hzlib⟩ := ih hbytes
          · exact Or.inl hreport
          · exact Or.inr ⟨rfl, bytes, .base hopened hdelta hdigest hinflates, hzlib⟩
      · obtain ⟨hsnapshot, -⟩ | ⟨hdelta, base, _, bytes, hdigest, hrestore, hbytes, -⟩ :=
          restoreBase_eq_ok.mp hbase
        · exact Or.inr ⟨rfl, storedBytes, .snapshot hopened hsnapshot, hzlib⟩
        · cases hrestore
          obtain ⟨depth, hdepth, hrestores⟩ := restores_of_restoreDigest hbytes
          exact Or.inr ⟨rfl, storedBytes, .delta hopened hdelta hdigest
            (restores_iff_undamaged.mp hrestores) hdepth, hzlib⟩

theorem Opened.restoreRow_eq {storedBytes : Bytes}
    (hopened : Opened rows tenantId maxDeltaDepth digest row storedBytes)
    (hfresh : digest ∉ ancestors) :
    restoreRow lib rows tenantId maxDeltaDepth restore ancestors digest =
      restoreBase restore row >>= verified lib
        (.generationBlobUnavailable "generation blob integrity verification failed")
        (row.encoded storedBytes) := by
  have hdepth : ¬ row.deltaDepth > maxDeltaDepth := not_lt.mpr hopened.depth
  simp [restoreRow, ensure, found, hfresh, hopened.materialized, hopened.storedSize,
    hopened.notFull, hdepth, bind, Except.bind]

theorem verified_zlibError (hzlib : lib.decompress blob.storedBytes = .error .zlibError) :
    verified lib raised blob baseBytes = .error .zlibError := by
  unfold verified
  rw [restoreGeneration_zlibError.mpr hzlib]

theorem Undamaged.deltas {depth : Nat}
    (hundamaged : Undamaged lib rows tenantId maxDeltaDepth digest depth restored) :
    Deltas rows tenantId digest depth :=
  (restores_iff_undamaged.mpr hundamaged).deltas

/-- The chain of differences that is decompressed on the way to a digest is finite. -/
theorem Inflates.deltas {remaining : Nat} {bytes : Bytes}
    (hinflates : Inflates lib rows tenantId maxDeltaDepth remaining digest bytes) :
    ∃ depth, Deltas rows tenantId digest depth := by
  induction hinflates with
  | snapshot hopened hrepresentation =>
      exact ⟨0, .snapshot (materialized_eq_some.mp hopened.materialized).1 hrepresentation⟩
  | delta hopened hrepresentation hbase hbytes _ =>
      exact ⟨_, .delta (materialized_eq_some.mp hopened.materialized).1 hrepresentation hbase
        hbytes.deltas⟩
  | base hopened hrepresentation hbase _ ih =>
      obtain ⟨depth, hdepth⟩ := ih
      exact ⟨depth + 1, .delta (materialized_eq_some.mp hopened.materialized).1 hrepresentation
        hbase hdepth⟩

/-- The error of the decompression is raised: the checks on the way pass, and no digest comes
twice, as each has a longer chain than the next. -/
theorem Inflates.restoreDigest_eq {remaining : Nat} {bytes : Bytes}
    (hinflates : Inflates lib rows tenantId maxDeltaDepth remaining digest bytes)
    (hzlib : lib.decompress bytes = .error .zlibError)
    (hancestors : ∀ ancestor ∈ ancestors, ∀ other depth, Deltas rows tenantId ancestor other →
      Deltas rows tenantId digest depth → depth < other) :
    restoreDigest lib rows tenantId maxDeltaDepth remaining ancestors digest =
      .error .zlibError := by
  have hfresh : digest ∉ ancestors := by
    intro hmem
    obtain ⟨depth, hdepth⟩ := hinflates.deltas
    exact absurd (hancestors digest hmem depth depth hdepth hdepth) (lt_irrefl depth)
  induction hinflates generalizing ancestors with
  | @snapshot remaining digest row storedBytes hopened hrepresentation =>
      have hbase : ∀ restore, restoreBase restore row = .ok none := fun _ =>
        restoreBase_eq_ok.mpr (Or.inl ⟨hrepresentation, rfl⟩)
      cases remaining <;>
      · unfold restoreDigest
        rw [hopened.restoreRow_eq hfresh, hbase]
        exact verified_zlibError hzlib
  | @delta remaining depth digest base row storedBytes baseBytes hopened hrepresentation hbase
      hbytes hdepth =>
      have hrow := (materialized_eq_some.mp hopened.materialized).1
      have hdigest := hbytes.deltas.delta hrow hrepresentation hbase
      have hshorter : ∀ ancestor ∈ digest :: ancestors, ∀ other,
          Deltas rows tenantId ancestor other → depth < other := by
        intro ancestor hmem other hother
        rcases List.mem_cons.mp hmem with rfl | hmem
        · rw [← hdigest.unique hother]
          exact Nat.lt_succ_self depth
        · exact Nat.lt_of_succ_lt (hancestors ancestor hmem other _ hother hdigest)
      have hrestored := (restores_iff_undamaged.mpr hbytes).restoreDigest hdepth hshorter
      have hrestoreBase : restoreBase (some (restoreDigest lib rows tenantId maxDeltaDepth
          remaining (digest :: ancestors))) row = .ok (some baseBytes) :=
        restoreBase_eq_ok.mpr
          (Or.inr ⟨hrepresentation, base, _, baseBytes, hbase, rfl, hrestored, rfl⟩)
      unfold restoreDigest
      rw [hopened.restoreRow_eq hfresh, hrestoreBase]
      exact verified_zlibError hzlib
  | @base remaining digest base row storedBytes bytes hopened hrepresentation hbase hinflates ih =>
      have hrow := (materialized_eq_some.mp hopened.materialized).1
      have hshorter : ∀ ancestor ∈ digest :: ancestors, ∀ other depth,
          Deltas rows tenantId ancestor other → Deltas rows tenantId base depth →
            depth < other := by
        intro ancestor hmem other depth hother hdepth
        have hdigest := hdepth.delta hrow hrepresentation hbase
        rcases List.mem_cons.mp hmem with rfl | hmem
        · rw [← hdigest.unique hother]
          exact Nat.lt_succ_self depth
        · exact Nat.lt_of_succ_lt (hancestors ancestor hmem other _ hother hdigest)
      have hbaseFresh : base ∉ digest :: ancestors := by
        intro hmem
        obtain ⟨depth, hdepth⟩ := hinflates.deltas
        exact absurd (hshorter base hmem depth depth hdepth hdepth) (lt_irrefl depth)
      have hrestoreBase : restoreBase (some (restoreDigest lib rows tenantId maxDeltaDepth
          remaining (digest :: ancestors))) row = .error .zlibError := by
        unfold restoreBase
        rw [if_pos hrepresentation, hbase]
        dsimp only
        rw [ih hzlib hshorter hbaseFresh]
        rfl
      unfold restoreDigest
      rw [hopened.restoreRow_eq hfresh, hrestoreBase]
      rfl

theorem reported_load {maxDepth : Nat} :
    Reported lib digest (loadDatabaseGenerationBlob lib rows tenantId maxDepth digest) ↔
      ∀ bytes, Inflates lib rows tenantId maxDepth maxDepth digest bytes →
        lib.decompress bytes ≠ .error .zlibError := by
  have hload : loadDatabaseGenerationBlob lib rows tenantId maxDepth digest =
      restoreDigest lib rows tenantId maxDepth maxDepth [] digest := by
    have hnonneg : ¬ (maxDepth : Int) < 0 := by omega
    simp [loadDatabaseGenerationBlob, ensure, hnonneg, bind, Except.bind]
  rw [hload]
  constructor
  · intro hreported bytes hinflates hzlib
    rw [hinflates.restoreDigest_eq hzlib (by simp)] at hreported
    exact hreported
  · intro hinflates
    cases hresult : restoreDigest lib rows tenantId maxDepth maxDepth [] digest with
    | ok restored =>
        obtain ⟨_, -, hrestores⟩ := restores_of_restoreDigest hresult
        exact hrestores.sha256
    | error raised =>
        obtain ⟨message, rfl⟩ | ⟨-, bytes, hbytes, hzlib⟩ := restoreDigest_eq_error hresult
        · trivial
        · exact absurd hzlib (hinflates bytes hbytes)

end Loading

/-- Restoring fails closed, and loading reports what is corrupted, exactly where nothing that is
decompressed raises the error of the decompression. -/
theorem corrupted_is_reported_iff :
    (∀ (blob : EncodedGenerationBlob) (baseBytes : Option Bytes),
      FailsClosed lib blob (restoreGeneration lib blob baseBytes) ↔
        lib.decompress blob.storedBytes ≠ .error .zlibError) ∧
      ∀ (rows : List ContentBlobRow) (tenantId digest : String) (maxDepth : Nat),
        Reported lib digest (loadDatabaseGenerationBlob lib rows tenantId maxDepth digest) ↔
          ∀ bytes, Inflates lib rows tenantId maxDepth maxDepth digest bytes →
            lib.decompress bytes ≠ .error .zlibError :=
  ⟨fun _ _ => failsClosed_restoreGeneration, fun _ _ _ _ => reported_load⟩

namespace BrokenData

/-- A header of compressed data, and a block of no type. -/
def storedBytes : Bytes := [31, 139, 8, 0, 0, 0, 0, 0, 0, 3, 7]

/-- The small library, with the data broken behind its header. -/
def library : Library Unit Rat :=
  { SmallLibrary.library with
    decompress := fun bytes =>
      if bytes = storedBytes then .error .zlibError else SmallLibrary.library.decompress bytes }

def digest : String := String.ofList (List.replicate 64 'a')

def row : ContentBlobRow where
  tenantId := "tenant"
  contentDigest := digest
  storageBackend := .database
  locator := none
  representation := .gzipJson
  baseDigest := none
  deltaDepth := 0
  byteSize := 3
  storedByteSize := 11
  storageState := .ready
  schemaVersion := "1"
  createdAt := "2026-01-01T00:00:00Z"
  payloadBytes := some storedBytes

/-- The error of the decompression leaves both functions. -/
theorem zlib_error_escapes :
    ¬ FailsClosed library (row.encoded storedBytes)
        (restoreGeneration library (row.encoded storedBytes) none) ∧
      ¬ Reported library digest
        (loadDatabaseGenerationBlob library [row] "tenant" 32 digest) := by
  constructor
  · rw [failsClosed_restoreGeneration]
    simp [library, ContentBlobRow.encoded]
  · have hraised : loadDatabaseGenerationBlob library [row] "tenant" 32 digest =
        .error .zlibError := by
      decide +kernel
    rw [hraised]
    exact not_false

end BrokenData

end KjAtlas.Generation
