import KjAtlas.Generations.BlobGc
import KjAtlas.Generations.Depth

/-! # Collecting keeps what is referenced

The queries of the collector do not look at AI runs, and two rows can share an
object. As long as a blob that is deleted is no output of an AI run and shares
its object with nothing that is referenced, and the ids of audit events are new,
nothing referenced is lost and every attempt is recorded; and in no other runs.
-/

namespace KjAtlas.Generation.BlobGc

/-- A revision, a difference or an AI run names the digest. -/
def Storage.References (s : Storage) (tenantId digest : String) : Prop :=
  s.IsReferenced tenantId digest ∨ s.IsOutput tenantId digest

instance (s : Storage) (tenantId digest : String) : Decidable (s.References tenantId digest) := by
  unfold Storage.References
  infer_instance

/-- No row and no object that is referenced is gone; a row may change its state. -/
structure KeepsReferenced (s next : Storage) : Prop where
  rows : ∀ row ∈ s.blobs, s.References row.tenantId row.contentDigest →
    ∃ kept ∈ next.blobs, { kept with storageState := row.storageState } = row
  objects : ∀ row ∈ s.blobs, s.References row.tenantId row.contentDigest →
    ∀ object ∈ location row, object ∈ s.objects → object ∈ next.objects

def happens (row : ContentBlobRow) (deleteExternal : Option DeleteExternal) : DeletionOutcome :=
  if row.storageBackend = .database then .deleted
  else
    match deleteExternal with
    | some .deletes => .deleted
    | some .reportsNotFound => .notFound
    | some .raises => .failed
    | none => .failed

/-- One audit event tells the outcome of an attempt. After a failure the row is there and selected
again; otherwise it is gone, with its object. -/
structure Recorded (s next : Storage) (request : DeletionRequest) (row : ContentBlobRow)
    (outcome : DeletionOutcome) (answer : Answer) : Prop where
  audits : next.history.audits = s.history.audits ++ [request.audit row outcome]
  answer : answer = .returned (outcome ≠ .failed)
  failed : outcome = .failed →
    next.candidate request = some (claimed row) ∧ next.objects = s.objects
  gone : outcome ≠ .failed → ∀ other ∈ next.blobs, other.key ≠ row.key
  object : outcome = .deleted → ∀ object ∈ location row, object ∉ next.objects

/-- A call loses nothing that is referenced, and an attempt on a row that may be collected is
recorded. -/
structure Careful (s : Storage) (call : Call) (answer : Answer) (next : Storage) : Prop where
  keeps : KeepsReferenced s next
  recorded : ∀ request deleteExternal, call = .deleteBlob request deleteExternal →
    ∀ row ∈ s.candidate request,
      Recorded s next request row (happens row deleteExternal) answer

def SharesObject (s : Storage) (row : ContentBlobRow) : Prop :=
  ∃ other ∈ s.blobs, s.References other.tenantId other.contentDigest ∧
    ∃ object ∈ location row, location other = some object ∧ object ∈ s.objects

/-- An attempt on a row that may be collected has a new event id. If the deletion does not fail, no
AI run names the blob; if an object is deleted, nothing that is referenced shares it. -/
structure Harmless (s : Storage) (request : DeletionRequest)
    (deleteExternal : Option DeleteExternal) (row : ContentBlobRow) : Prop where
  fresh : ∀ event ∈ s.history.audits, event.eventId ≠ request.auditEventId
  output : happens row deleteExternal ≠ .failed → ¬ s.IsOutput request.tenantId request.target
  shared : deleteExternal = some .deletes → ¬ SharesObject s row

def Condition (s : Storage) : Call → Prop
  | .deleteBlob request deleteExternal =>
      ∀ row ∈ s.candidate request, Harmless s request deleteExternal row
  | _ => True

instance (s : Storage) (row : ContentBlobRow) : Decidable (SharesObject s row) := by
  unfold SharesObject
  infer_instance

instance (s : Storage) (request : DeletionRequest) (deleteExternal : Option DeleteExternal)
    (row : ContentBlobRow) : Decidable (Harmless s request deleteExternal row) :=
  decidable_of_iff
    ((∀ event ∈ s.history.audits, event.eventId ≠ request.auditEventId) ∧
      (happens row deleteExternal ≠ .failed → ¬ s.IsOutput request.tenantId request.target) ∧
      (deleteExternal = some .deletes → ¬ SharesObject s row))
    ⟨fun h => ⟨h.1, h.2.1, h.2.2⟩, fun h => ⟨h.fresh, h.output, h.shared⟩⟩

instance (s : Storage) : DecidablePred (Condition s)
  | .deleteBlob _ _ => inferInstanceAs (Decidable (∀ _ ∈ _, _))
  | .saveBlob _ | .registerBlob _ | .saveRevision _ | .pinRevision _ | .recordAiRun _
  | .deleteRevision _ | .listBlobs _ _ _ => inferInstanceAs (Decidable True)

/-! ## The invariant -/

/-- A row has a locator exactly if its object is outside the database. -/
def Located (row : ContentBlobRow) : Prop :=
  if row.storageBackend = .database then row.locator = none
  else ∃ locator, row.locator = some locator ∧ locator ≠ ""

/-- Rows have distinct keys and are located. -/
structure WellKept (s : Storage) : Prop where
  keys : (s.blobs.map ContentBlobRow.key).Nodup
  located : ∀ row ∈ s.blobs, Located row

theorem located_of_allowed {row : ContentBlobRow} (h : row.Allowed) : Located row := by
  obtain ⟨-, -, -, -, -, hbackend, hlocator, -⟩ := h
  rw [Located, if_pos hbackend]
  exact hlocator

theorem located_of_allowedOutside {row : ContentBlobRow} (h : AllowedOutside row) :
    Located row := by
  obtain ⟨-, -, -, -, -, hbackend, ⟨locator, hlocator, htext⟩, -⟩ := h
  rw [Located, if_neg hbackend]
  refine ⟨locator, hlocator, ?_⟩
  rintro rfl
  exact absurd htext (by decide)

theorem wellKept_empty : WellKept Storage.empty where
  keys := List.nodup_nil
  located := by simp [Storage.empty]

/-- The objects that an attempt leaves. -/
def objectsLeft (objects : List Location) (row : ContentBlobRow)
    (deleteExternal : Option DeleteExternal) : List Location :=
  if deleteExternal = some .deletes then
    objects.filter fun object => location row ≠ some object
  else objects

theorem hasLocator {locator : String} (hne : locator ≠ "") :
    (some locator).filter (fun text => decide (text ≠ "")) = some locator := by
  simp [Option.filter, hne]

theorem deletePhysically_of_failed (objects : List Location) {row : ContentBlobRow}
    {deleteExternal : Option DeleteExternal} (hlocated : Located row)
    (hfailed : happens row deleteExternal = .failed) :
    ∃ raised, deletePhysically objects row deleteExternal = .error raised := by
  unfold happens at hfailed
  unfold Located at hlocated
  unfold deletePhysically
  split at hfailed
  · cases hfailed
  next hbackend =>
    rw [if_neg hbackend] at hlocated ⊢
    obtain ⟨locator, hlocator, hne⟩ := hlocated
    rw [hlocator, hasLocator hne]
    split at hfailed
    · cases hfailed
    · cases hfailed
    · exact ⟨_, rfl⟩
    · exact ⟨_, rfl⟩

variable {objects : List Location} {event : GenerationDeletionAuditEventRow}

theorem deletePhysically_of_not_failed {row : ContentBlobRow}
    {deleteExternal : Option DeleteExternal} (hlocated : Located row)
    (hfailed : happens row deleteExternal ≠ .failed) :
    deletePhysically objects row deleteExternal =
      .ok (happens row deleteExternal, objectsLeft objects row deleteExternal) := by
  by_cases hbackend : row.storageBackend = .database
  · have hnone : location row = none := if_pos hbackend
    rw [Located, if_pos hbackend] at hlocated
    rw [deletePhysically.eq_def, if_pos hbackend, happens.eq_def, if_pos hbackend, hlocated]
    have hleft : objectsLeft objects row deleteExternal = objects := by
      unfold objectsLeft
      split
      · rw [hnone]
        exact List.filter_eq_self.mpr (by simp)
      · rfl
    rw [hleft]
    rfl
  · rw [Located, if_neg hbackend] at hlocated
    obtain ⟨locator, hlocator, hne⟩ := hlocated
    have hlocation : location row = some (row.storageBackend, locator) := by
      rw [location, if_neg hbackend, hlocator, Option.map_some]
    rw [happens.eq_def, if_neg hbackend] at hfailed ⊢
    rw [deletePhysically.eq_def, if_neg hbackend, hlocator, hasLocator hne]
    cases deleteExternal with
    | none => exact absurd rfl hfailed
    | some adapter =>
        cases adapter with
        | raises => exact absurd rfl hfailed
        | reportsNotFound => rfl
        | deletes =>
            rw [objectsLeft, if_pos rfl, hlocation]
            simp [eq_comm]

/-! ## Claiming and deleting a row -/

variable {s : Storage} {request : DeletionRequest} {row : ContentBlobRow}

theorem candidate_eq_some :
    s.candidate request = some row ↔
      findBlob s.blobs request.tenantId request.target = some row ∧
        s.IsCandidate request.tenantId request.olderThan row := by
  simp [Storage.candidate, Option.filter_eq_some_iff]

theorem candidate_spec (hcandidate : s.candidate request = some row) :
    row ∈ s.blobs ∧ row.tenantId = request.tenantId ∧ row.contentDigest = request.target := by
  obtain ⟨hmem, hkey⟩ := findBy_eq_some _ (candidate_eq_some.mp hcandidate).1
  exact ⟨hmem, (Prod.mk.inj hkey).1, (Prod.mk.inj hkey).2⟩

variable {other : ContentBlobRow} {start : Storage}

theorem WellKept.unique (hkept : WellKept s) (hrow : row ∈ s.blobs) (hother : other ∈ s.blobs)
    (hkey : other.key = row.key) : other = row := by
  have hfound := findBy_of_mem ContentBlobRow.key hkept.keys hother
  rw [hkey, findBy_of_mem ContentBlobRow.key hkept.keys hrow] at hfound
  exact (Option.some.inj hfound).symm

theorem nodup_claim (hkept : WellKept s) (row : ContentBlobRow) :
    ((s.claim row).blobs.map ContentBlobRow.key).Nodup :=
  nodup_upsertBy _ _ hkept.keys

theorem mem_claim (hkept : WellKept s) :
    other ∈ (s.claim row).blobs ↔
      other = claimed row ∨ other ∈ s.blobs ∧ other.key ≠ row.key := by
  rw [mem_iff_findBy ContentBlobRow.key (nodup_claim hkept row)]
  rw [show (s.claim row).blobs = upsertBy ContentBlobRow.key (claimed row) s.blobs from rfl,
    findBy_upsertBy]
  split
  next hkey =>
    have hsame : other.key = row.key := hkey.symm
    simp [hsame, eq_comm]
  next hkey =>
    have hne : other ≠ claimed row := fun heq => hkey (heq ▸ rfl)
    have hsame : other.key ≠ row.key := fun heq => hkey heq.symm
    rw [mem_iff_findBy ContentBlobRow.key hkept.keys]
    simp [hne, hsame]

theorem isReferenced_claim (hkept : WellKept s) (hrow : row ∈ s.blobs) (tenantId digest : String) :
    (s.claim row).IsReferenced tenantId digest ↔ s.IsReferenced tenantId digest := by
  refine or_congr Iff.rfl ?_
  constructor
  · rintro ⟨other, hother, htenant, hbase⟩
    rcases (mem_claim hkept).mp hother with rfl | ⟨hold, -⟩
    · exact ⟨row, hrow, htenant, hbase⟩
    · exact ⟨other, hold, htenant, hbase⟩
  · rintro ⟨other, hother, htenant, hbase⟩
    by_cases hkey : other.key = row.key
    · obtain rfl := hkept.unique hrow hother hkey
      exact ⟨claimed other, (mem_claim hkept).mpr (Or.inl rfl), htenant, hbase⟩
    · exact ⟨other, (mem_claim hkept).mpr (Or.inr ⟨hother, hkey⟩), htenant, hbase⟩

def withoutRow (s : Storage) (row : ContentBlobRow) (objects : List Location) : Storage :=
  { s with
    blobs := (s.claim row).blobs.filter fun other => other.key ≠ row.key
    objects := objects }

theorem mem_withoutRow (hkept : WellKept s) (objects : List Location) :
    other ∈ (withoutRow s row objects).blobs ↔ other ∈ s.blobs ∧ other.key ≠ row.key := by
  simp only [withoutRow, List.mem_filter, mem_claim hkept, decide_eq_true_eq]
  constructor
  · rintro ⟨rfl | hother, hkey⟩
    · exact absurd rfl hkey
    · exact hother
  · rintro ⟨hother, hkey⟩
    exact ⟨Or.inr ⟨hother, hkey⟩, hkey⟩

theorem deleteGuarded_claim (hkept : WellKept s) (hcandidate : s.candidate request = some row)
    (enforced : Bool) (objects : List Location) :
    Storage.deleteGuarded enforced { s.claim row with objects := objects } request =
      if enforced = true ∧ s.IsOutput request.tenantId request.target
      then .error .integrityError else .ok (1, withoutRow s row objects) := by
  obtain ⟨hrow, htenant, hdigest⟩ := candidate_spec hcandidate
  have hunreferenced : ¬ s.IsReferenced request.tenantId request.target := by
    rw [← htenant, ← hdigest]
    exact (candidate_eq_some.mp hcandidate).2.2.2.2
  have hkey : row.key = (request.tenantId, request.target) := by
    rw [ContentBlobRow.key, htenant, hdigest]
  have hdeletes : ∀ other ∈ (s.claim row).blobs,
      ({ s.claim row with objects := objects } : Storage).Deletes request other ↔
        other.key = row.key := by
    intro other hother
    rw [Storage.Deletes, hkey]
    refine ⟨And.left, fun hsame => ⟨hsame, ?_⟩⟩
    obtain rfl : other = claimed row :=
      ((mem_claim hkept).mp hother).resolve_right fun h => h.2 (hsame.trans hkey.symm)
    refine ⟨rfl, fun hreferenced => hunreferenced ?_⟩
    rw [← htenant, ← hdigest]
    exact (isReferenced_claim hkept hrow _ _).mp hreferenced
  have hhits : (s.claim row).blobs.filter
      (fun other => ({ s.claim row with objects := objects } : Storage).Deletes request other) =
        [claimed row] := by
    rw [List.filter_congr fun other hother => decide_eq_decide.mpr (hdeletes other hother)]
    exact filter_key_of_mem ContentBlobRow.key (nodup_claim hkept row)
      ((mem_claim hkept).mpr (Or.inl rfl))
  have hleft : (s.claim row).blobs.filter
      (fun other => ¬ ({ s.claim row with objects := objects } : Storage).Deletes request other) =
        (withoutRow s row objects).blobs := by
    apply List.filter_congr
    intro other hother
    rw [decide_eq_decide, hdeletes other hother]
  have hnamed : (∀ other ∈ [claimed row],
      ¬ (({ s.claim row with objects := objects } : Storage).IsReferenced
            other.tenantId other.contentDigest ∨
          ({ s.claim row with objects := objects } : Storage).IsOutput
            other.tenantId other.contentDigest)) ↔
      ¬ s.IsOutput request.tenantId request.target := by
    rw [List.forall_mem_singleton, ← htenant, ← hdigest]
    refine not_congr ⟨?_, Or.inr⟩
    rintro (hreferenced | houtput)
    · exact absurd ((isReferenced_claim hkept hrow _ _).mp hreferenced)
        (htenant ▸ hdigest ▸ hunreferenced)
    · exact houtput
  simp only [Storage.deleteGuarded, hhits, hleft, hnamed, List.length_singleton]
  by_cases hrefused : enforced = true ∧ s.IsOutput request.tenantId request.target
  · rw [if_pos hrefused, ensure, if_neg fun himp => himp hrefused.1 hrefused.2]
    rfl
  · rw [if_neg hrefused, ensure, if_pos fun hset houtput => hrefused ⟨hset, houtput⟩]
    rfl

/-- An attempt on a row that may be collected. -/
theorem deleteBlob_eq (hkept : WellKept s) (hcandidate : s.candidate request = some row)
    (enforced : Bool) (deleteExternal : Option DeleteExternal) :
    s.deleteUnreferencedBlobGcCandidate enforced request deleteExternal =
      if happens row deleteExternal = .failed then
        (s.claim row).finish s (request.audit row .failed) false
      else if enforced = true ∧ s.IsOutput request.tenantId request.target then
        (.rolledBack .integrityError,
          { s with objects := objectsLeft s.objects row deleteExternal })
      else (withoutRow s row (objectsLeft s.objects row deleteExternal)).finish s
        (request.audit row (happens row deleteExternal)) true := by
  have hlocated := hkept.located row (candidate_spec hcandidate).1
  unfold Storage.deleteUnreferencedBlobGcCandidate
  rw [hcandidate]
  by_cases hfailed : happens row deleteExternal = .failed
  · obtain ⟨raised, hraised⟩ := deletePhysically_of_failed s.objects hlocated hfailed
    simp only [hraised, if_pos hfailed]
  · simp only [deletePhysically_of_not_failed hlocated hfailed, if_neg hfailed,
      deleteGuarded_claim hkept hcandidate]
    by_cases hrefused : enforced = true ∧ s.IsOutput request.tenantId request.target
    · simp only [if_pos hrefused]
    · simp only [if_neg hrefused, if_true]

theorem finish_of_fresh (hfresh : ∀ other ∈ s.history.audits, other.eventId ≠ event.eventId)
    (deleted : Bool) :
    s.finish start event deleted = (.returned deleted,
      { s with history := { s.history with audits := s.history.audits ++ [event] } }) := by
  have hinsert : insertBy GenerationDeletionAuditEventRow.eventId event s.history.audits =
      some (s.history.audits ++ [event]) :=
    (insertBy_eq_some _).mpr ⟨(findBy_eq_none _).mpr hfresh, rfl⟩
  rw [Storage.finish, hinsert]

theorem finish_of_used (hused : ¬∀ other ∈ s.history.audits, other.eventId ≠ event.eventId)
    (deleted : Bool) :
    s.finish start event deleted =
      (.rolledBack .integrityError, { start with objects := s.objects }) := by
  have hinsert : insertBy GenerationDeletionAuditEventRow.eventId event s.history.audits =
      none := by
    rw [insertBy, if_neg]
    rw [Option.isNone_iff_eq_none, findBy_eq_none]
    exact hused
  rw [Storage.finish, hinsert]

/-! ## Calls that do not collect -/

/-- Rows and objects are added, and none is lost. -/
structure Extends (s next : Storage) : Prop where
  blobs : s.blobs ⊆ next.blobs
  objects : s.objects ⊆ next.objects
  kept : WellKept s → WellKept next

theorem Extends.keepsReferenced {next : Storage} (h : Extends s next) : KeepsReferenced s next where
  rows row hrow _ := ⟨row, h.blobs hrow, rfl⟩
  objects _ _ _ _ _ hobject := h.objects hobject

theorem extends_of_eq {next : Storage} (hblobs : next.blobs = s.blobs)
    (hobjects : next.objects = s.objects) : Extends s next where
  blobs := by rw [hblobs]; exact List.Subset.refl _
  objects := by rw [hobjects]; exact List.Subset.refl _
  kept hkept := ⟨by rw [hblobs]; exact hkept.keys, by rw [hblobs]; exact hkept.located⟩

theorem extends_append {next : Storage} (hnew : findBy ContentBlobRow.key row.key s.blobs = none)
    (hlocated : Located row) (hblobs : next.blobs = s.blobs ++ [row])
    (hobjects : s.objects ⊆ next.objects) : Extends s next where
  blobs := by rw [hblobs]; exact List.subset_append_left _ _
  objects := hobjects
  kept hkept := by
    constructor
    · have hfresh : row.key ∉ s.blobs.map ContentBlobRow.key := by
        intro hmem
        obtain ⟨other, hother, hkey⟩ := List.mem_map.mp hmem
        exact (findBy_eq_none _).mp hnew other hother hkey
      rw [hblobs, List.map_append, List.map_singleton, List.nodup_append]
      refine ⟨hkept.keys, List.nodup_singleton _, ?_⟩
      rintro key hkey _ hsame rfl
      obtain rfl := List.mem_singleton.mp hsame
      exact hfresh hkey
    · rw [hblobs, List.forall_mem_append, List.forall_mem_singleton]
      exact ⟨hkept.located, hlocated⟩

section Served

variable {enforced : Bool} {next : Storage}

theorem registerBlob_extends (hok : s.registerBlob enforced row = .ok next) : Extends s next := by
  simp only [Storage.registerBlob, bind_eq_ok, ensure_eq_ok, found_eq_ok, pure_eq_ok] at hok
  obtain ⟨⟨⟩, hallowed, ⟨⟩, -, blobs, hinsert, rfl⟩ := hok
  obtain ⟨hnew, rfl⟩ := (insertBy_eq_some _).mp hinsert
  refine extends_append hnew ?_ rfl (List.subset_append_left _ _)
  rcases hallowed with hinside | houtside
  · exact located_of_allowed hinside
  · exact located_of_allowedOutside houtside

/-- The tables of blobs and the objects are what a save of a revision leaves alone. -/
def SameBlobs (s next : Storage) : Prop := next.blobs = s.blobs ∧ next.objects = s.objects

theorem addParents_same {parents : List CanvasRevisionParentRow}
    (hok : parents.foldlM (Storage.addParent enforced) s = .ok next) : SameBlobs s next := by
  induction parents generalizing s with
  | nil =>
      obtain rfl := Except.ok.inj hok
      exact ⟨rfl, rfl⟩
  | cons edge parents ih =>
      rw [List.foldlM_cons, bind_eq_ok] at hok
      obtain ⟨middle, hedge, hrest⟩ := hok
      simp only [Storage.addParent, bind_eq_ok, pure_eq_ok] at hedge
      obtain ⟨-, -, -, -, -, -, edges, -, rfl⟩ := hedge
      have hsame := ih hrest
      exact hsame

theorem saveRevision_same {call : SaveRevision} (hok : s.saveRevision enforced call = .ok next) :
    SameBlobs s next := by
  simp only [Storage.saveRevision, bind_eq_ok] at hok
  obtain ⟨-, -, -, -, revisions, -, middle, hparents, hhead⟩ := hok
  have hsame := addParents_same hparents
  cases hcase : call.head with
  | none =>
      rw [hcase] at hhead
      obtain rfl := Except.ok.inj hhead
      exact hsame
  | some head =>
      rw [hcase] at hhead
      simp only [Storage.putHead, bind_eq_ok, pure_eq_ok] at hhead
      obtain ⟨-, -, -, -, rfl⟩ := hhead
      exact hsame

variable {F R : Type} {lib : Library F R} {maxDeltaDepth : Int} {call : Call} {answer : Answer}

theorem serve_extends (hcall : ∀ request deleteExternal, call ≠ .deleteBlob request deleteExternal)
    (hok : s.serve lib maxDeltaDepth enforced call = .ok (answer, next)) : Extends s next := by
  cases call with
  | deleteBlob request deleteExternal => exact absurd rfl (hcall request deleteExternal)
  | saveBlob call =>
      simp only [Storage.serve, bind_eq_ok, mapError_eq_ok, pure_eq_ok,
        Prod.mk.injEq] at hok
      obtain ⟨⟨row, blobs⟩, hsave, -, rfl⟩ := hok
      obtain ⟨-, ⟨-, rfl⟩ | ⟨hnew, hallowed, rfl, rfl⟩⟩ := save_eq_ok.mp hsave
      · exact extends_of_eq rfl rfl
      · have hfresh : findBy ContentBlobRow.key call.row.key s.blobs = none := hnew
        exact extends_append hfresh (located_of_allowed hallowed) rfl (List.Subset.refl _)
  | registerBlob row =>
      simp only [Storage.serve, bind_eq_ok, pure_eq_ok,
        Prod.mk.injEq] at hok
      obtain ⟨reached, hregister, -, rfl⟩ := hok
      exact registerBlob_extends hregister
  | saveRevision call =>
      simp only [Storage.serve, bind_eq_ok, pure_eq_ok,
        Prod.mk.injEq] at hok
      obtain ⟨reached, hsave, -, rfl⟩ := hok
      exact extends_of_eq (saveRevision_same hsave).1 (saveRevision_same hsave).2
  | pinRevision pin =>
      simp only [Storage.serve, Storage.pinRevision, bind_eq_ok, pure_eq_ok, Prod.mk.injEq] at hok
      obtain ⟨reached, ⟨-, -, pins, -, rfl⟩, -, rfl⟩ := hok
      exact extends_of_eq rfl rfl
  | recordAiRun row =>
      simp only [Storage.serve, Storage.recordAiRun, bind_eq_ok, pure_eq_ok, Prod.mk.injEq] at hok
      obtain ⟨reached, ⟨-, -, -, -, aiRuns, -, rfl⟩, -, rfl⟩ := hok
      exact extends_of_eq rfl rfl
  | deleteRevision request =>
      simp only [Storage.serve, Storage.deleteRevision, bind_eq_ok, pure_eq_ok, Prod.mk.injEq] at hok
      obtain ⟨⟨deleted, reached⟩, ⟨⟨_, history⟩, -, hreached⟩, -, rfl⟩ := hok
      obtain ⟨-, rfl⟩ := hreached
      exact extends_of_eq rfl rfl
  | listBlobs tenantId olderThan limit =>
      simp only [Storage.serve, bind_eq_ok, pure_eq_ok,
        Prod.mk.injEq] at hok
      obtain ⟨rows, -, -, rfl⟩ := hok
      exact extends_of_eq rfl rfl

end Served

/-! ## Attempts -/

/-- The objects of an attempt that does not fail. -/
theorem mem_objectsLeft {deleteExternal : Option DeleteExternal} {object : Location} :
    object ∈ objectsLeft objects row deleteExternal ↔
      object ∈ objects ∧ (deleteExternal = some .deletes → location row ≠ some object) := by
  unfold objectsLeft
  split
  next hdeletes => simp [hdeletes]
  next hdeletes => simp [hdeletes]

theorem happens_deletes (row : ContentBlobRow) : happens row (some .deletes) = .deleted := by
  unfold happens
  split <;> rfl

theorem eq_deletes_of_deleted {deleteExternal : Option DeleteExternal} {object : Location}
    (hdeleted : happens row deleteExternal = .deleted) (hobject : object ∈ location row) :
    deleteExternal = some .deletes := by
  have hbackend : row.storageBackend ≠ .database := by
    intro hbackend
    rw [location, if_pos hbackend] at hobject
    exact absurd hobject (by simp)
  rw [happens.eq_def, if_neg hbackend] at hdeleted
  split at hdeleted
  · rfl
  · cases hdeleted
  · cases hdeleted
  · cases hdeleted

variable {enforced : Bool} {deleteExternal : Option DeleteExternal}

section

variable {answer : Answer} {next : Storage} (hkept : WellKept s)
  (hcandidate : s.candidate request = some row)
  (hnext : s.deleteUnreferencedBlobGcCandidate enforced request deleteExternal = (answer, next))
include hkept hcandidate hnext

theorem careful_of_failed
    (hfresh : ∀ event ∈ s.history.audits, event.eventId ≠ request.auditEventId)
    (hfailed : happens row deleteExternal = .failed) :
    KeepsReferenced s next ∧ Recorded s next request row .failed answer := by
  obtain ⟨hrow, htenant, hdigest⟩ := candidate_spec hcandidate
  obtain ⟨hfind, -, hold, -, hunreferenced⟩ := candidate_eq_some.mp hcandidate
  rw [deleteBlob_eq hkept hcandidate, if_pos hfailed, finish_of_fresh hfresh] at hnext
  obtain ⟨rfl, rfl⟩ := Prod.mk.inj hnext
  refine ⟨⟨?_, fun _ _ _ _ _ hobject => hobject⟩, rfl, rfl, fun _ => ⟨?_, rfl⟩,
    fun hnot => absurd rfl hnot, nofun⟩
  · intro other hother _
    by_cases hkey : other.key = row.key
    · obtain rfl := hkept.unique hrow hother hkey
      exact ⟨claimed other, (mem_claim hkept).mpr (Or.inl rfl), rfl⟩
    · exact ⟨other, (mem_claim hkept).mpr (Or.inr ⟨hother, hkey⟩), rfl⟩
  · refine candidate_eq_some.mpr ⟨?_, htenant, hold, by simp [claimed], ?_⟩
    · have hkey : (claimed row).key = (request.tenantId, request.target) := by
        rw [← htenant, ← hdigest]
        rfl
      exact (findBy_upsertBy _ _ _ _).trans (if_pos hkey)
    · exact fun hreferenced => hunreferenced ((isReferenced_claim hkept hrow _ _).mp hreferenced)

theorem careful_of_not_failed (hharmless : Harmless s request deleteExternal row)
    (hfailed : happens row deleteExternal ≠ .failed) :
    KeepsReferenced s next ∧
      Recorded s next request row (happens row deleteExternal) answer := by
  obtain ⟨hrow, htenant, hdigest⟩ := candidate_spec hcandidate
  have hunreferenced : ¬ s.References row.tenantId row.contentDigest := by
    rintro (hreferenced | houtput)
    · exact (candidate_eq_some.mp hcandidate).2.2.2.2 hreferenced
    · rw [htenant, hdigest] at houtput
      exact hharmless.output hfailed houtput
  rw [deleteBlob_eq hkept hcandidate, if_neg hfailed,
    if_neg fun h => hharmless.output hfailed h.2, finish_of_fresh hharmless.fresh] at hnext
  obtain ⟨rfl, rfl⟩ := Prod.mk.inj hnext
  refine ⟨⟨?_, ?_⟩, rfl, by simp [hfailed], fun h => absurd h hfailed, fun _ other hother => ?_,
    fun hdeleted object hobject hleft => ?_⟩
  · intro other hother hreferences
    have hkey : other.key ≠ row.key := by
      intro hkey
      obtain rfl := hkept.unique hrow hother hkey
      exact hunreferenced hreferences
    have hstays : other ∈ (withoutRow s row (objectsLeft s.objects row deleteExternal)).blobs :=
      (mem_withoutRow hkept _).mpr ⟨hother, hkey⟩
    exact ⟨other, hstays, rfl⟩
  · intro other hother hreferences object hobject hstored
    refine mem_objectsLeft.mpr ⟨hstored, fun hdeletes hsame => ?_⟩
    exact hharmless.shared hdeletes ⟨other, hother, hreferences, object, hsame, hobject, hstored⟩
  · exact ((mem_withoutRow hkept (objectsLeft s.objects row deleteExternal)).mp hother).2
  · exact (mem_objectsLeft.mp hleft).2 (eq_deletes_of_deleted hdeleted hobject) hobject

/-- An attempt that loses nothing and is recorded was harmless. -/
theorem harmless_of_careful (hkeeps : KeepsReferenced s next)
    (hrecorded : Recorded s next request row (happens row deleteExternal) answer) :
    Harmless s request deleteExternal row := by
  obtain ⟨hrow, htenant, hdigest⟩ := candidate_spec hcandidate
  rw [deleteBlob_eq hkept hcandidate] at hnext
  have hanswer : ∀ raised, answer ≠ .rolledBack raised := by
    intro raised hrolledBack
    rw [hrecorded.answer] at hrolledBack
    cases hrolledBack
  have hfresh : ∀ event ∈ s.history.audits, event.eventId ≠ request.auditEventId := by
    by_contra hused
    split at hnext
    · rw [finish_of_used hused] at hnext
      exact hanswer _ (Prod.mk.inj hnext).1.symm
    · split at hnext
      · exact hanswer _ (Prod.mk.inj hnext).1.symm
      · rw [finish_of_used hused] at hnext
        exact hanswer _ (Prod.mk.inj hnext).1.symm
  have hdeleted : happens row deleteExternal ≠ .failed →
      next.blobs = (withoutRow s row (objectsLeft s.objects row deleteExternal)).blobs ∧
        next.objects = objectsLeft s.objects row deleteExternal := by
    intro hfailed
    rw [if_neg hfailed] at hnext
    split at hnext
    · exact absurd (Prod.mk.inj hnext).1.symm (hanswer _)
    · rw [finish_of_fresh hfresh] at hnext
      obtain ⟨-, rfl⟩ := Prod.mk.inj hnext
      exact ⟨rfl, rfl⟩
  refine ⟨hfresh, fun hfailed houtput => ?_, ?_⟩
  · obtain ⟨kept, hmem, hsame⟩ := hkeeps.rows row hrow
      (Or.inr (by rwa [htenant, hdigest]))
    rw [(hdeleted hfailed).1, mem_withoutRow hkept _] at hmem
    have hkey := congrArg ContentBlobRow.key hsame
    exact hmem.2 hkey
  · rintro rfl ⟨other, hother, hreferences, object, hobject, hsame, hstored⟩
    have hleft := hkeeps.objects other hother hreferences object hsame hstored
    rw [(hdeleted (by simp [happens_deletes])).2] at hleft
    exact (mem_objectsLeft.mp hleft).2 rfl hobject

end

/-! ## Runs -/

section Runs

variable {F R : Type} (lib : Library F R) (maxDeltaDepth : Int) (enforced : Bool)

def ServedCarefully (run : Run Storage Call Answer) (call : Call) : Prop :=
  ∀ answer next, run.state.serve lib maxDeltaDepth enforced call = .ok (answer, next) →
    Careful run.state call answer next

variable {lib maxDeltaDepth enforced}

section

variable (hkept : WellKept s)
include hkept

theorem wellKept_of_blobs {next : Storage} (hblobs : next.blobs = s.blobs) : WellKept next :=
  ⟨by rw [hblobs]; exact hkept.keys, by rw [hblobs]; exact hkept.located⟩

/-- Whether it commits or not, a transaction leaves rows that were there. -/
theorem wellKept_finish (hstart : WellKept start)
    (event : GenerationDeletionAuditEventRow) (deleted : Bool) :
    WellKept (s.finish start event deleted).2 := by
  unfold Storage.finish
  split
  · exact wellKept_of_blobs hkept rfl
  · exact wellKept_of_blobs hstart rfl

theorem wellKept_claim (hrow : row ∈ s.blobs) : WellKept (s.claim row) where
  keys := nodup_claim hkept row
  located other hother := by
    rcases (mem_claim hkept).mp hother with rfl | ⟨hold, -⟩
    · exact hkept.located row hrow
    · exact hkept.located other hold

theorem wellKept_withoutRow (objects : List Location) : WellKept (withoutRow s row objects) where
  keys := (nodup_claim hkept row).sublist (List.filter_sublist.map _)
  located other hother := hkept.located other ((mem_withoutRow hkept _).mp hother).1

theorem wellKept_deleteBlob (request : DeletionRequest) (deleteExternal : Option DeleteExternal) :
    WellKept (s.deleteUnreferencedBlobGcCandidate enforced request deleteExternal).2 := by
  cases hcandidate : s.candidate request with
  | none =>
      rw [Storage.deleteUnreferencedBlobGcCandidate, hcandidate]
      exact hkept
  | some row =>
      rw [deleteBlob_eq hkept hcandidate]
      split
      · exact wellKept_finish (wellKept_claim hkept (candidate_spec hcandidate).1) hkept _ _
      · split
        · exact wellKept_of_blobs hkept rfl
        · exact wellKept_finish (wellKept_withoutRow hkept _) hkept _ _

theorem wellKept_serve {call : Call} {answer : Answer} {next : Storage}
    (hok : s.serve lib maxDeltaDepth enforced call = .ok (answer, next)) : WellKept next := by
  by_cases hcall : ∀ request deleteExternal, call ≠ .deleteBlob request deleteExternal
  · exact (serve_extends hcall hok).kept hkept
  · push Not at hcall
    obtain ⟨request, deleteExternal, rfl⟩ := hcall
    have hkeep : WellKept
        (s.deleteUnreferencedBlobGcCandidate enforced request deleteExternal).2 :=
      wellKept_deleteBlob hkept request deleteExternal
    rw [Storage.serve, Except.ok.injEq] at hok
    rwa [hok] at hkeep

end

theorem servedCarefully_iff {run : Run Storage Call Answer} (hkept : WellKept run.state)
    (call : Call) :
    ServedCarefully lib maxDeltaDepth enforced run call ↔ Condition run.state call := by
  by_cases hcall : ∀ request deleteExternal, call ≠ .deleteBlob request deleteExternal
  · have hcondition : Condition run.state call := by
      cases call with
      | deleteBlob request deleteExternal => exact absurd rfl (hcall request deleteExternal)
      | saveBlob | registerBlob | saveRevision | pinRevision | recordAiRun | deleteRevision
      | listBlobs => trivial
    refine iff_of_true (fun answer next hok => ⟨?_, ?_⟩) hcondition
    · exact (serve_extends hcall hok).keepsReferenced
    · exact fun request deleteExternal heq => absurd heq (hcall request deleteExternal)
  · push Not at hcall
    obtain ⟨request, deleteExternal, rfl⟩ := hcall
    generalize hnext : run.state.deleteUnreferencedBlobGcCandidate enforced request
      deleteExternal = served
    obtain ⟨answer, next⟩ := served
    have hserve : run.state.serve lib maxDeltaDepth enforced
        (.deleteBlob request deleteExternal) = .ok (answer, next) := by
      rw [Storage.serve, hnext]
    constructor
    · intro hcareful row hcandidate
      obtain ⟨hkeeps, hrecorded⟩ := hcareful answer next hserve
      exact harmless_of_careful hkept hcandidate hnext hkeeps
        (hrecorded request deleteExternal rfl row hcandidate)
    · intro hcondition otherAnswer otherNext hok
      rw [hserve] at hok
      obtain ⟨rfl, rfl⟩ := Prod.mk.inj (Except.ok.inj hok)
      cases hcandidate : run.state.candidate request with
      | none =>
          rw [Storage.deleteUnreferencedBlobGcCandidate, hcandidate] at hnext
          obtain ⟨rfl, rfl⟩ := Prod.mk.inj hnext
          refine ⟨(extends_of_eq rfl rfl).keepsReferenced, ?_⟩
          rintro _ _ ⟨⟩ row hrow
          rw [hcandidate] at hrow
          cases hrow
      | some row =>
          have hharmless := hcondition row hcandidate
          have hboth : KeepsReferenced run.state next ∧
              Recorded run.state next request row (happens row deleteExternal) answer := by
            by_cases hfailed : happens row deleteExternal = .failed
            · rw [hfailed]
              exact careful_of_failed hkept hcandidate hnext hharmless.fresh hfailed
            · exact careful_of_not_failed hkept hcandidate hnext hharmless hfailed
          refine ⟨hboth.1, ?_⟩
          rintro _ _ ⟨⟩ other hother
          obtain rfl := Option.some.inj (hcandidate.symm.trans hother)
          exact hboth.2

variable (lib maxDeltaDepth enforced)

/-- A run loses nothing that is referenced and records every attempt if and only if every attempt
on a row that may be collected is harmless. -/
theorem collects_carefully_iff (calls : List Call) :
    CallsMeet (Storage.serve lib maxDeltaDepth enforced) Storage.empty
        (ServedCarefully lib maxDeltaDepth enforced) calls ↔
      CallsMeet (Storage.serve lib maxDeltaDepth enforced) Storage.empty
        (fun run call => Condition run.state call) calls := by
  have hkept : ∀ before, WellKept
      (runCalls (Storage.serve lib maxDeltaDepth enforced) Storage.empty before).state :=
    runCalls_invariant wellKept_empty fun _ _ _ _ hkept hok => wellKept_serve hkept hok
  refine forall_congr' fun before => forall_congr' fun call => forall_congr' fun after => ?_
  exact imp_congr_right fun _ => servedCarefully_iff (hkept before) call

end Runs

namespace AiOutput

/-- A blob that is stored outside the database. -/
def digest : String := "ac8d8342bbb2362d13f0a559a3621bb407011368895164b628a54f7fc33fc43c"

def blob : ContentBlobRow where
  tenantId := "tenant"
  contentDigest := digest
  storageBackend := .nas
  locator := some "content/a.json"
  representation := .gzipJson
  baseDigest := none
  deltaDepth := 0
  byteSize := 3
  storedByteSize := 3
  storageState := .ready
  schemaVersion := "document-v1"
  createdAt := "2026-07-01T00:00:00Z"
  payloadBytes := none

def aiRun : AiGenerationRunRow where
  tenantId := "tenant"
  aiRunId := "run-1"
  task := "cluster_cards"
  traceId := "trace-1"
  inputIrDigest := digest
  outputDigest := digest
  policyVersion := "ai-generation-v1"
  safeMode := true
  createdAt := "2026-07-01T00:00:00Z"
  retentionExpiresAt := none

def deletion : DeletionRequest where
  tenantId := "tenant"
  target := digest
  olderThan := "2026-08-01T00:00:00Z"
  auditEventId := "audit-1"
  executorRef := "system:gc"
  occurredAt := "2026-08-01T00:00:00Z"

def stored : List Call := [.registerBlob blob, .recordAiRun aiRun]

def reached (enforced : Bool) (calls : List Call) : Storage :=
  (runCalls (Storage.serve SmallLibrary.library 32 enforced) Storage.empty calls).state

theorem not_careful (enforced : Bool)
    (hcondition : ¬Condition (reached enforced stored) (.deleteBlob deletion (some .deletes))) :
    ¬CallsMeet (Storage.serve SmallLibrary.library 32 enforced) Storage.empty
      (ServedCarefully SmallLibrary.library 32 enforced)
      (stored ++ [.deleteBlob deletion (some .deletes)]) := by
  intro hmeet
  have hkept : WellKept (reached enforced stored) :=
    runCalls_invariant wellKept_empty (fun _ _ _ _ hkept hok => wellKept_serve hkept hok) stored
  exact hcondition ((servedCarefully_iff hkept _).mp (hmeet stored _ [] rfl))

/-- The output of an AI run loses its object, and also its row if the database does not enforce
foreign keys. If it does, the attempt is not recorded. -/
theorem output_deleted :
    (∀ enforced, ¬CallsMeet (Storage.serve SmallLibrary.library 32 enforced) Storage.empty
      (ServedCarefully SmallLibrary.library 32 enforced)
      (stored ++ [.deleteBlob deletion (some .deletes)])) ∧
    reached false (stored ++ [.deleteBlob deletion (some .deletes)]) =
      { reached false stored with
        blobs := []
        objects := []
        history := { (reached false stored).history with
          audits := [deletion.audit blob .deleted] } } ∧
    reached true (stored ++ [.deleteBlob deletion (some .deletes)]) =
      { reached true stored with objects := [] } := by
  refine ⟨fun enforced => not_careful enforced ?_, by decide +kernel, by decide +kernel⟩
  cases enforced <;> decide +kernel

end AiOutput

end KjAtlas.Generation.BlobGc
