import KjAtlas.Generations.Projection
import KjAtlas.Generations.Puts

/-! # Concurrent PUTs keep row and head together

The head guards a new revision, but a content with the digest of the head that
was read is written to the row without one, and a head that appears after the
document was loaded is taken as it is. In runs without these two cases the row
and the head of a document have the same content after every commit, and every
new content is a child of the revision that its transaction has read.
-/

namespace KjAtlas.Generation.Puts

open Py (Bytes Json)

variable {F R : Type} (lib : Library F R) (loads : String → Option (Json F))

variable {lib loads}

variable (lib) in
def HasContent (t : Revisions) (tenantId revisionId : String) (bytes : Bytes) : Prop :=
  ∃ revision, t.findRevision tenantId revisionId = some revision ∧
    loadDatabaseGenerationBlob lib t.blobs tenantId 32 revision.contentDigest = .ok bytes

variable {bytes : Bytes} {revisionId : String} {kept : Option CanvasRevisionHeadRow}
  {row : DocumentRow}

theorem HasContent.mono {t next : Revisions} (hextends : Extends t next) {tenantId : String}
    (h : HasContent lib t tenantId revisionId bytes) :
    HasContent lib next tenantId revisionId bytes := by
  obtain ⟨revision, hrevision, hload⟩ := h
  exact ⟨revision, hextends.revisions hrevision, load_mono hextends.blobs hload⟩

theorem HasContent.digest {t : Revisions} {tenantId : String}
    (h : HasContent lib t tenantId revisionId bytes) {revision : CanvasRevisionRow}
    (hrevision : t.findRevision tenantId revisionId = some revision) :
    revision.contentDigest = lib.sha256 bytes := by
  obtain ⟨other, hother, hload⟩ := h
  obtain rfl := Option.some.inj (hrevision.symm.trans hother)
  obtain ⟨_, _, hrestores⟩ := load_eq_ok.mp hload
  exact hrestores.sha256.symm

variable (lib) in
/-- What making a revision comes to: the head that is kept has the content already, the document
gets its first revision, or the new revision is put behind the head that is kept. -/
inductive Made (t next : ContentTables) (tenantId docId revisionId : String) (bytes : Bytes) :
    Option CanvasRevisionHeadRow → CanvasRevisionHeadRow → Prop
  | same {head : CanvasRevisionHeadRow} {revision : CanvasRevisionRow}
      (hrevision : t.findRevision tenantId head.revisionId = some revision)
      (hdigest : revision.contentDigest = lib.sha256 bytes) (hnext : next = t) :
      Made t next tenantId docId revisionId bytes (some head) head
  | first {head : CanvasRevisionHeadRow} (hnone : t.mainHead tenantId docId = none)
      (hhead : next.mainHead tenantId docId = some head) (hid : head.revisionId = revisionId)
      (hparents : next.parentsOf tenantId revisionId = [])
      (hcontent : HasContent lib next.toRevisions tenantId revisionId bytes) :
      Made t next tenantId docId revisionId bytes none head
  | child {head current new : CanvasRevisionHeadRow} {revision : CanvasRevisionRow}
      {edge : CanvasRevisionParentRow}
      (hrevision : t.findRevision tenantId head.revisionId = some revision)
      (hdigest : revision.contentDigest ≠ lib.sha256 bytes)
      (hcurrent : t.mainHead tenantId docId = some current)
      (hversion : current.headVersion = head.headVersion)
      (hhead : next.mainHead tenantId docId = some new)
      (hmoved : new.headVersion = head.headVersion + 1) (hid : new.revisionId = revisionId)
      (hparents : next.parentsOf tenantId revisionId = [edge])
      (hparent : edge.parentRevisionId = head.revisionId)
      (hcontent : HasContent lib next.toRevisions tenantId revisionId bytes) {kept : CanvasRevisionHeadRow}
      (hkept : current = head → kept = new) :
      Made t next tenantId docId revisionId bytes (some head) kept

variable (lib loads) in
/-- A revision is made, and nothing else is touched. -/
structure Makes (t next : ContentTables) (tenantId docId content revisionId : String)
    (kept : Option CanvasRevisionHeadRow) (head : CanvasRevisionHeadRow) (bytes : Bytes) :
    Prop where
  canonical : canonicalText lib loads content = some bytes
  documents : next.documents = t.documents
  keeps : Extends t.toRevisions next.toRevisions
  closed : Closed next.toRevisions
  others : ∀ otherTenant otherDoc, (otherTenant, otherDoc) ≠ (tenantId, docId) →
    next.mainHead otherTenant otherDoc = t.mainHead otherTenant otherDoc
  made : Made lib t next tenantId docId revisionId bytes kept head

section

variable {t next : ContentTables} {tenantId docId content : String}

theorem makes_of_ok (hlib : lib.Inverts) {createdAt : String}
    {head : CanvasRevisionHeadRow} (hclosed : Closed t.toRevisions)
    (hok : materializeWith lib loads t kept row content createdAt revisionId = .ok (next, head))
    (hkey : row.key = (tenantId, docId)) :
    ∃ bytes, Makes lib loads t next tenantId docId content revisionId kept head bytes := by
  obtain ⟨rfl, rfl⟩ := Prod.mk.inj hkey
  simp only [materializeWith, bind_eq_ok, found_eq_ok, mapError_eq_ok] at hok
  obtain ⟨value, hvalue, encoded, hencoded, hok⟩ := hok
  obtain ⟨bytes, hcanonical, hsha, hadds⟩ := addsContent_of_ok hlib hvalue hencoded
  refine ⟨bytes, ?_⟩
  cases kept with
  | none =>
      simp only [bind_eq_ok, pure_eq_ok, Prod.mk.injEq] at hok
      obtain ⟨middle, hmiddle, _, hput, rfl, rfl⟩ := hok
      have hadded := hadds hmiddle
      obtain ⟨hnone, ⟨heads, rfl⟩, hhead, hothers⟩ := putsHead_addHead rfl hput
      have hkeeps := hadded.keeps
      have hmiddle := hadded.closed hclosed
      have hparents := hadded.parentsOf hclosed
      refine ⟨hcanonical, hadded.documents, ⟨hkeeps.revisions, hkeeps.parents, hkeeps.blobs⟩,
        hmiddle, fun otherTenant otherDoc hother => ?_,
        .first ?_ hhead rfl hparents hadded.added⟩
      · exact (hothers _ _ hother).trans (mainHead_of_heads hadded.heads _ _)
      · exact (mainHead_of_heads hadded.heads _ _).symm.trans hnone
  | some kept =>
      simp only [bind_eq_ok, found_eq_ok] at hok
      obtain ⟨revision, hrevision, hok⟩ := hok
      split at hok
      next hdigest =>
        obtain ⟨rfl, rfl⟩ := Prod.mk.inj (Except.ok.inj hok)
        exact ⟨hcanonical, rfl, .refl _, hclosed, fun _ _ _ => rfl,
          .same hrevision (hdigest.trans hsha) rfl⟩
      next hdigest =>
        simp only [bind_eq_ok, pure_eq_ok, Prod.mk.injEq] at hok
        obtain ⟨middle, hmiddle, linked, hlink, _, hmove, rfl, rfl⟩ := hok
        have hlinks := links_of_ok hclosed (hadds hmiddle) rfl rfl hlink
        obtain ⟨current, hcurrent, hversion, ⟨heads, rfl⟩, hmoved, hothers⟩ :=
          putsHead_advanceRevisionHead hmove
        rw [mainHead_of_heads hlinks.heads] at hcurrent
        have hkeeps := hlinks.keeps
        refine ⟨hcanonical, hlinks.documents, ⟨hkeeps.revisions, hkeeps.parents, hkeeps.blobs⟩,
          hlinks.closed, fun otherTenant otherDoc hother => ?_,
          .child hrevision (fun heq => hdigest (heq.trans hsha.symm)) hcurrent hversion hmoved rfl
            rfl hlinks.parents rfl hlinks.added ?_⟩
        · exact (hothers _ _ hother).trans (mainHead_of_heads hlinks.heads _ _)
        · rintro rfl
          rfl

/-! ## How tables evolve -/

/-- The rows of one document change. What is stored stays, a head that changes gets a higher
version, and a document that is there stays there. -/
structure Evolves (t next : ContentTables) (tenantId docId : String) : Prop where
  keeps : Extends t.toRevisions next.toRevisions
  others : ∀ otherTenant otherDoc, (otherTenant, otherDoc) ≠ (tenantId, docId) →
    next.mainHead otherTenant otherDoc = t.mainHead otherTenant otherDoc ∧
      next.findDocument otherTenant otherDoc = t.findDocument otherTenant otherDoc
  moved : ∀ current, t.mainHead tenantId docId = some current →
    ∃ new, next.mainHead tenantId docId = some new ∧
      (current = new ∨ current.headVersion < new.headVersion)
  present : (t.findDocument tenantId docId).isSome → (next.findDocument tenantId docId).isSome

theorem Evolves.trans {later : ContentTables}
    (hfirst : Evolves t next tenantId docId) (hsecond : Evolves next later tenantId docId) :
    Evolves t later tenantId docId where
  keeps := hfirst.keeps.trans hsecond.keeps
  others otherTenant otherDoc hother := by
    obtain ⟨hhead, hdocument⟩ := hfirst.others otherTenant otherDoc hother
    obtain ⟨hlaterHead, hlaterDocument⟩ := hsecond.others otherTenant otherDoc hother
    exact ⟨hlaterHead.trans hhead, hlaterDocument.trans hdocument⟩
  moved current hcurrent := by
    obtain ⟨new, hnew, hmoved⟩ := hfirst.moved current hcurrent
    obtain ⟨last, hlast, hagain⟩ := hsecond.moved new hnew
    refine ⟨last, hlast, ?_⟩
    rcases hmoved with rfl | hless
    · exact hagain
    · rcases hagain with rfl | hmore
      · exact Or.inr hless
      · exact Or.inr (hless.trans hmore)
  present hpresent := hsecond.present (hfirst.present hpresent)

theorem Makes.findDocument {head : CanvasRevisionHeadRow}
    (h : Makes lib loads t next tenantId docId content revisionId kept head bytes)
    (anyTenant anyDoc : String) :
    next.findDocument anyTenant anyDoc = t.findDocument anyTenant anyDoc := by
  rw [ContentTables.findDocument, h.documents]
  rfl

theorem Makes.evolves {head : CanvasRevisionHeadRow}
    (h : Makes lib loads t next tenantId docId content revisionId kept head bytes) :
    Evolves t next tenantId docId where
  keeps := h.keeps
  others otherTenant otherDoc hother :=
    ⟨h.others otherTenant otherDoc hother, h.findDocument otherTenant otherDoc⟩
  moved current hcurrent := by
    cases h.made with
    | same hrevision hdigest hnext =>
        subst hnext
        exact ⟨current, hcurrent, Or.inl rfl⟩
    | first hnone =>
        rw [hnone] at hcurrent
        cases hcurrent
    | child hrevision hdigest hfound hversion hhead hmoved =>
        obtain rfl := Option.some.inj (hfound.symm.trans hcurrent)
        exact ⟨_, hhead, Or.inr (by omega)⟩
  present hpresent := by
    rw [h.findDocument]
    exact hpresent

end

theorem updateDocument_toRevisions (t : ContentTables) (kept new : DocumentRow) :
    (updateDocument t kept new).toRevisions = t.toRevisions := by
  unfold updateDocument
  split <;> rfl

theorem updateDocument_mainHead (t : ContentTables) (kept new : DocumentRow)
    (tenantId docId : String) :
    (updateDocument t kept new).mainHead tenantId docId = t.mainHead tenantId docId := by
  unfold ContentTables.mainHead
  rw [updateDocument_toRevisions]

/-- Some columns of a row that is there are written. -/
theorem updateDocument_spec {t : ContentTables} {kept current : DocumentRow} (new : DocumentRow)
    {tenantId docId : String} (hkept : kept.key = (tenantId, docId))
    (hcurrent : t.findDocument tenantId docId = some current) :
    (updateDocument t kept new).findDocument tenantId docId = some (changed kept new current) ∧
      Evolves t (updateDocument t kept new) tenantId docId := by
  obtain ⟨rfl, rfl⟩ := Prod.mk.inj hkept
  have hkey : (changed kept new current).key = (kept.tenantId, kept.id) :=
    (findBy_eq_some _ hcurrent).2
  have hupdate : updateDocument t kept new = t.setDocument (changed kept new current) := by
    simp only [updateDocument, hcurrent]
  have hputs := puts_setDocument t (changed kept new current)
  rw [← hupdate] at hputs
  have hfound : (updateDocument t kept new).findDocument kept.tenantId kept.id =
      some (changed kept new current) := by
    rw [hputs.documents, if_pos hkey]
  refine ⟨hfound, updateDocument_toRevisions t kept new ▸ .refl _, ?_, ?_, ?_⟩
  · intro otherTenant otherDoc hother
    refine ⟨hputs.mainHead _ _, ?_⟩
    rw [hputs.documents, if_neg]
    exact fun hsame => hother (hsame.symm.trans hkey)
  · intro head hhead
    exact ⟨head, (hputs.mainHead _ _).trans hhead, Or.inl rfl⟩
  · rw [hfound]
    exact fun _ => rfl

/-! ## What holds of tables and transactions -/

variable (lib loads) in
/-- Row and head of every document have the same content. -/
def Projected (t : ContentTables) : Prop :=
  ∀ tenantId docId head, t.mainHead tenantId docId = some head →
    ∃ row bytes, t.findDocument tenantId docId = some row ∧
      canonicalText lib loads row.payloadJson = some bytes ∧
      HasContent lib t.toRevisions tenantId head.revisionId bytes

section Invariant

variable (lib loads) (texts : List String)

structure TablesSound (t : ContentTables) : Prop where
  closed : Closed t.toRevisions
  texts : ∀ tenantId docId row, t.findDocument tenantId docId = some row →
    row.payloadJson ∈ texts
  projected : Projected lib loads t

/-- A row that a transaction keeps is the present one as long as there is no head. -/
structure RowKept (t : ContentTables) (call : SaveDocument) (row : DocumentRow) : Prop where
  key : row.key = (call.tenantId, call.docId)
  text : row.payloadJson ∈ texts
  current : t.mainHead call.tenantId call.docId = none →
    t.findDocument call.tenantId call.docId = some row

/-- A head that a transaction keeps is the present one or an older one. -/
structure HeadKept (t : ContentTables) (tenantId docId : String) (head : CanvasRevisionHeadRow) :
    Prop where
  current : ∃ current, t.mainHead tenantId docId = some current ∧
    (head = current ∨ head.headVersion < current.headVersion)
  content : ∃ text ∈ texts, ∃ bytes, canonicalText lib loads text = some bytes ∧
    HasContent lib t.toRevisions tenantId head.revisionId bytes

/-- What a transaction has loaded: a head has the content of the row, and without one the content
is that of the row. -/
structure Loaded (t : ContentTables) (call : SaveDocument) (stored : VersionedDocumentContent)
    (first : Option CanvasRevisionHeadRow) : Prop where
  row : RowKept texts t call stored.row
  content : first = none → stored.content = stored.row.payloadJson
  verified : ∀ head ∈ first, ∃ bytes, canonicalText lib loads stored.row.payloadJson = some bytes ∧
    HasContent lib t.toRevisions call.tenantId head.revisionId bytes

/-- A later read of the head: one that is kept stays. -/
structure ReadAgain (t : ContentTables) (call : SaveDocument)
    (earlier later : Option CanvasRevisionHeadRow) : Prop where
  same : earlier ≠ none → later = earlier
  kept : ∀ head ∈ later, HeadKept lib loads texts t call.tenantId call.docId head

def Holds (t : ContentTables) (call : SaveDocument) : Stage → Prop
  | .begun row => ∀ kept ∈ row, RowKept texts t call kept
  | .loaded row head | .reread row head =>
      (∀ kept ∈ row, RowKept texts t call kept) ∧
        ∀ kept ∈ head, HeadKept lib loads texts t call.tenantId call.docId kept
  | .verified stored first =>
      Loaded lib loads texts t call stored first ∧ ReadAgain lib loads texts t call none first
  | .compared stored first early =>
      Loaded lib loads texts t call stored first ∧ ReadAgain lib loads texts t call first early
  | .ready stored first early last =>
      Loaded lib loads texts t call stored first ∧ ReadAgain lib loads texts t call first early ∧
        ReadAgain lib loads texts t call early last
  | .creating last => last ≠ none → (t.findDocument call.tenantId call.docId).isSome

end Invariant

section Kept

variable {texts : List String} {t next : ContentTables} {call : SaveDocument}
  {tenantId docId : String}

theorem RowKept.mono (h : RowKept texts t call row) (hevolves : Evolves t next tenantId docId)
    (hheaded : next.mainHead tenantId docId ≠ none) : RowKept texts next call row where
  key := h.key
  text := h.text
  current hnone := by
    by_cases hsame : (call.tenantId, call.docId) = (tenantId, docId)
    · obtain ⟨rfl, rfl⟩ := Prod.mk.inj hsame
      exact absurd hnone hheaded
    · obtain ⟨hhead, hdocument⟩ := hevolves.others _ _ hsame
      rw [hhead] at hnone
      rw [hdocument]
      exact h.current hnone

variable {head : CanvasRevisionHeadRow}

theorem HeadKept.mono {anyTenant anyDoc : String}
    (h : HeadKept lib loads texts t anyTenant anyDoc head)
    (hevolves : Evolves t next tenantId docId) :
    HeadKept lib loads texts next anyTenant anyDoc head where
  current := by
    obtain ⟨current, hcurrent, hold⟩ := h.current
    by_cases hsame : (anyTenant, anyDoc) = (tenantId, docId)
    · obtain ⟨rfl, rfl⟩ := Prod.mk.inj hsame
      obtain ⟨new, hnew, hmoved⟩ := hevolves.moved current hcurrent
      refine ⟨new, hnew, ?_⟩
      rcases hmoved with rfl | hless
      · exact hold
      · rcases hold with rfl | hmore
        · exact Or.inr hless
        · exact Or.inr (hmore.trans hless)
    · exact ⟨current, (hevolves.others _ _ hsame).1.trans hcurrent, hold⟩
  content := by
    obtain ⟨text, htext, bytes, hbytes, hcontent⟩ := h.content
    exact ⟨text, htext, bytes, hbytes, hcontent.mono hevolves.keeps⟩

theorem HeadKept.eq_of_version {current : CanvasRevisionHeadRow}
    (h : HeadKept lib loads texts t tenantId docId head)
    (hcurrent : t.mainHead tenantId docId = some current)
    (hversion : current.headVersion = head.headVersion) : current = head := by
  obtain ⟨other, hother, rfl | hless⟩ := h.current
  · exact Option.some.inj (hcurrent.symm.trans hother)
  · obtain rfl := Option.some.inj (hcurrent.symm.trans hother)
    omega

theorem Loaded.mono {stored : VersionedDocumentContent} {first : Option CanvasRevisionHeadRow}
    (h : Loaded lib loads texts t call stored first) (hevolves : Evolves t next tenantId docId)
    (hheaded : next.mainHead tenantId docId ≠ none) :
    Loaded lib loads texts next call stored first where
  row := h.row.mono hevolves hheaded
  content := h.content
  verified head hhead := by
    obtain ⟨bytes, hbytes, hcontent⟩ := h.verified head hhead
    exact ⟨bytes, hbytes, hcontent.mono hevolves.keeps⟩

theorem ReadAgain.mono {earlier later : Option CanvasRevisionHeadRow}
    (h : ReadAgain lib loads texts t call earlier later)
    (hevolves : Evolves t next tenantId docId) :
    ReadAgain lib loads texts next call earlier later where
  same := h.same
  kept head hhead := (h.kept head hhead).mono hevolves

/-- The commit of another transaction leaves what holds of a transaction. -/
theorem Holds.mono {stage : Stage} (h : Holds lib loads texts t call stage)
    (hevolves : Evolves t next tenantId docId)
    (hheaded : next.mainHead tenantId docId ≠ none) : Holds lib loads texts next call stage := by
  cases stage with
  | begun row => exact fun kept hkept => (h kept hkept).mono hevolves hheaded
  | loaded row head | reread row head =>
      exact ⟨fun kept hkept => (h.1 kept hkept).mono hevolves hheaded,
        fun kept hkept => (h.2 kept hkept).mono hevolves⟩
  | verified stored first => exact ⟨h.1.mono hevolves hheaded, h.2.mono hevolves⟩
  | compared stored first early => exact ⟨h.1.mono hevolves hheaded, h.2.mono hevolves⟩
  | ready stored first early last =>
      exact ⟨h.1.mono hevolves hheaded, h.2.1.mono hevolves, h.2.2.mono hevolves⟩
  | creating last =>
      intro hlast
      have hpresent := h hlast
      by_cases hsame : (call.tenantId, call.docId) = (tenantId, docId)
      · obtain ⟨rfl, rfl⟩ := Prod.mk.inj hsame
        exact hevolves.present hpresent
      · rw [(hevolves.others _ _ hsame).2]
        exact hpresent

/-! ## Reads -/

/-- What a transaction reads is the present head. -/
theorem headKept_of_mainHead (hsound : TablesSound lib loads texts t)
    (hhead : t.mainHead tenantId docId = some head) :
    HeadKept lib loads texts t tenantId docId head where
  current := ⟨head, hhead, Or.inl rfl⟩
  content := by
    obtain ⟨row, bytes, hrow, hbytes, hcontent⟩ := hsound.projected _ _ _ hhead
    exact ⟨row.payloadJson, hsound.texts _ _ _ hrow, bytes, hbytes, hcontent⟩

theorem rowKept_of_findDocument (hsound : TablesSound lib loads texts t)
    (hrow : t.findDocument call.tenantId call.docId = some row) : RowKept texts t call row where
  key := (findBy_eq_some _ hrow).2
  text := hsound.texts _ _ _ hrow
  current _ := hrow

theorem readAgain_readHead (hsound : TablesSound lib loads texts t) {put : Put}
    {earlier : Option CanvasRevisionHeadRow} (hkept : ∀ head ∈ earlier,
      HeadKept lib loads texts t put.save.tenantId put.save.docId head) :
    ReadAgain lib loads texts t put.save earlier (readHead t put earlier) := by
  cases earlier with
  | none =>
      exact ⟨fun hne => absurd rfl hne, fun head hhead => headKept_of_mainHead hsound hhead⟩
  | some head => exact ⟨fun _ => rfl, hkept⟩

theorem loaded_of_loadWith {stored : VersionedDocumentContent} {head : Option CanvasRevisionHeadRow}
    (hrow : RowKept texts t call row) (hok : loadWith lib loads t row head = .ok stored) :
    Loaded lib loads texts t call stored head := by
  simp only [loadWith, bind_eq_ok, pure_eq_ok] at hok
  obtain ⟨restored, hverify, content, hcontent, rfl⟩ := hok
  refine ⟨hrow, ?_, ?_⟩
  · rintro rfl
    obtain rfl := Except.ok.inj hverify
    exact (Except.ok.inj hcontent).symm
  · rintro kept hkept
    obtain rfl := Option.mem_def.mp hkept
    simp only [verifyWith, bind_eq_ok, found_eq_ok, mapError_eq_ok, ensure_eq_ok] at hverify
    obtain ⟨revision, hrevision, bytes, hload, projected, hprojected, -, rfl, -⟩ := hverify
    rw [(Prod.mk.inj hrow.key).1] at hrevision hload
    exact ⟨bytes, hprojected, revision, hrevision, hload⟩

/-- A read keeps what holds of its transaction. -/
theorem holds_advance {computeEtag : String → String} {put : Put} {stage after : Stage}
    (hsound : TablesSound lib loads texts t) (h : Holds lib loads texts t put.save stage)
    (hok : advance lib loads computeEtag t put stage = .ok after) :
    Holds lib loads texts t put.save after := by
  have hnone : ∀ head ∈ (none : Option CanvasRevisionHeadRow),
      HeadKept lib loads texts t put.save.tenantId put.save.docId head := by simp
  cases stage with
  | begun row =>
      cases row with
      | none =>
          obtain rfl := Except.ok.inj hok
          exact ⟨by simp, by simp⟩
      | some row =>
          simp only [advance, bind_eq_ok, pure_eq_ok] at hok
          obtain ⟨-, -, rfl⟩ := hok
          exact ⟨h, (readAgain_readHead hsound hnone).kept⟩
  | loaded row head =>
      simp only [advance, bind_eq_ok, pure_eq_ok] at hok
      obtain ⟨-, -, rfl⟩ := hok
      refine ⟨fun kept hkept => ?_, h.2⟩
      cases row with
      | none => exact rowKept_of_findDocument hsound hkept
      | some row => exact h.1 kept hkept
  | reread row head =>
      cases row with
      | none =>
          obtain rfl := Except.ok.inj hok
          intro hlast
          obtain ⟨last, hhead⟩ := Option.ne_none_iff_exists'.mp hlast
          obtain ⟨current, hcurrent, -⟩ :=
            ((readAgain_readHead hsound h.2).kept last hhead).current
          obtain ⟨row, -, hrow, -⟩ := hsound.projected _ _ _ hcurrent
          rw [hrow]
          rfl
      | some row =>
          simp only [advance, bind_eq_ok, mapError_eq_ok, pure_eq_ok] at hok
          obtain ⟨stored, hstored, rfl⟩ := hok
          have hread := readAgain_readHead hsound h.2
          exact ⟨loaded_of_loadWith (h.1 row rfl) hstored, ⟨fun hne => absurd rfl hne, hread.kept⟩⟩
  | verified stored first =>
      obtain rfl := Except.ok.inj hok
      exact ⟨h.1, readAgain_readHead hsound h.2.kept⟩
  | compared stored first early =>
      obtain rfl := Except.ok.inj hok
      exact ⟨h.1, h.2, readAgain_readHead hsound h.2.kept⟩
  | ready stored first early last =>
      obtain rfl := Except.ok.inj hok
      exact h
  | creating last =>
      obtain rfl := Except.ok.inj hok
      exact h

end Kept

/-! ## Commits -/

section Conditions

variable (lib loads)

/-- The digest of a text's canonical bytes. -/
def textDigest (text : String) : Option String := (canonicalText lib loads text).map lib.sha256

def headDigest (t : ContentTables) (tenantId : String) (head : Option CanvasRevisionHeadRow) :
    Option String :=
  head.bind fun head =>
    (t.findRevision tenantId head.revisionId).map CanvasRevisionRow.contentDigest

/-- A transaction can commit. If it writes another text with the digest of the head that it has
read, the present head has this digest; and a head that was not there when the document was loaded
has the content that was loaded. -/
structure Undisturbed (t : ContentTables) (call : SaveDocument)
    (stored : VersionedDocumentContent) (first early last : Option CanvasRevisionHeadRow) :
    Prop where
  rewritten : stored.row.payloadJson ≠ call.content → last ≠ none →
    headDigest t call.tenantId last = textDigest lib loads call.content →
    headDigest t call.tenantId (t.mainHead call.tenantId call.docId) =
      textDigest lib loads call.content
  late : first = none → last ≠ none →
    (stored.row.payloadJson = call.content ∧ early = none ∨
      textDigest lib loads call.content ≠ textDigest lib loads stored.row.payloadJson) →
    headDigest t call.tenantId last = textDigest lib loads stored.row.payloadJson

/-- The revision that a transaction has read, or made of the content that it has read. -/
def readRevision (call : SaveDocument) : Option CanvasRevisionHeadRow → String
  | some head => head.revisionId
  | none => call.legacyRevisionId

/-- Another content than the one that was read becomes the child of exactly the revision that was
read, which had that content and was the head until then. -/
def Behind (t next : ContentTables) (call : SaveDocument) (stored : VersionedDocumentContent)
    (last : Option CanvasRevisionHeadRow) : Prop :=
  canonicalText lib loads call.content ≠ canonicalText lib loads stored.row.payloadJson →
    t.mainHead call.tenantId call.docId = last ∧
    ∃ head edge bytes, next.mainHead call.tenantId call.docId = some head ∧
      next.parentsOf call.tenantId head.revisionId = [edge] ∧
      edge.parentRevisionId = readRevision call last ∧
      canonicalText lib loads stored.row.payloadJson = some bytes ∧
      HasContent lib next.toRevisions call.tenantId edge.parentRevisionId bytes

instance (t : ContentTables) (call : SaveDocument) (stored : VersionedDocumentContent)
    (first early last : Option CanvasRevisionHeadRow) :
    Decidable (Undisturbed lib loads t call stored first early last) :=
  decidable_of_iff
    ((stored.row.payloadJson ≠ call.content → last ≠ none →
        headDigest t call.tenantId last = textDigest lib loads call.content →
        headDigest t call.tenantId (t.mainHead call.tenantId call.docId) =
          textDigest lib loads call.content) ∧
      (first = none → last ≠ none →
        (stored.row.payloadJson = call.content ∧ early = none ∨
          textDigest lib loads call.content ≠ textDigest lib loads stored.row.payloadJson) →
        headDigest t call.tenantId last = textDigest lib loads stored.row.payloadJson))
    ⟨fun h => ⟨h.1, h.2⟩, fun h => ⟨h.rewritten, h.late⟩⟩

end Conditions

section Commits

variable {texts : List String} {t next : ContentTables} {call : SaveDocument}

variable (lib loads texts) in
/-- What a commit keeps and achieves. -/
structure Commits (t next : ContentTables) (call : SaveDocument) : Prop where
  sound : TablesSound lib loads texts next
  evolves : Evolves t next call.tenantId call.docId
  headed : next.mainHead call.tenantId call.docId ≠ none

/-- A commit leaves a row whose content is that of its head. -/
theorem commits_of_evolves (hsound : TablesSound lib loads texts t)
    (hevolves : Evolves t next call.tenantId call.docId) (hclosed : Closed next.toRevisions)
    (hrow : next.findDocument call.tenantId call.docId = some row) (htext : row.payloadJson ∈ texts)
    (hbytes : canonicalText lib loads row.payloadJson = some bytes) {head : CanvasRevisionHeadRow}
    (hhead : next.mainHead call.tenantId call.docId = some head)
    (hcontent : HasContent lib next.toRevisions call.tenantId head.revisionId bytes) :
    Commits lib loads texts t next call := by
  refine ⟨⟨hclosed, ?_, ?_⟩, hevolves, by simp [hhead]⟩
  · intro tenantId docId other hother
    by_cases hsame : (tenantId, docId) = (call.tenantId, call.docId)
    · obtain ⟨rfl, rfl⟩ := Prod.mk.inj hsame
      obtain rfl := Option.some.inj (hrow.symm.trans hother)
      exact htext
    · rw [(hevolves.others _ _ hsame).2] at hother
      exact hsound.texts _ _ _ hother
  · intro tenantId docId other hother
    by_cases hsame : (tenantId, docId) = (call.tenantId, call.docId)
    · obtain ⟨rfl, rfl⟩ := Prod.mk.inj hsame
      obtain rfl := Option.some.inj (hhead.symm.trans hother)
      exact ⟨row, bytes, hrow, hbytes, hcontent⟩
    · obtain ⟨hsameHead, hdocument⟩ := hevolves.others _ _ hsame
      rw [hsameHead] at hother
      obtain ⟨present, others, hpresent, hothers, hkept⟩ := hsound.projected _ _ _ hother
      exact ⟨present, others, hdocument.trans hpresent, hothers, hkept.mono hevolves.keeps⟩

variable (lib loads) in
/-- What writing a new content behind a head that is kept comes to. -/
structure Finishes (t next : ContentTables) (call : SaveDocument) (kept : CanvasRevisionHeadRow)
    (bytes : Bytes) : Prop where
  canonical : canonicalText lib loads call.content = some bytes
  closed : Closed next.toRevisions
  evolves : Evolves t next call.tenantId call.docId
  row : ∃ row, next.findDocument call.tenantId call.docId = some row ∧
    row.payloadJson = call.content
  content : ∃ head, next.mainHead call.tenantId call.docId = some head ∧
    HasContent lib next.toRevisions call.tenantId head.revisionId bytes
  placed : (∃ revision, t.findRevision call.tenantId kept.revisionId = some revision ∧
      revision.contentDigest = lib.sha256 bytes) ∨
    t.mainHead call.tenantId call.docId = some kept ∧
      ∃ head edge, next.mainHead call.tenantId call.docId = some head ∧
        next.parentsOf call.tenantId head.revisionId = [edge] ∧
        edge.parentRevisionId = kept.revisionId

theorem finishes_of_ok (hlib : lib.Inverts) (hclosed : Closed t.toRevisions)
    {stored current : DocumentRow} {kept head : CanvasRevisionHeadRow}
    (hkey : stored.key = (call.tenantId, call.docId))
    (hcurrent : t.findDocument call.tenantId call.docId = some current)
    (hpayload : stored.payloadJson ≠ call.content)
    (hkept : HeadKept lib loads texts t call.tenantId call.docId kept)
    (hsame : ∀ bytes revision, canonicalText lib loads call.content = some bytes →
      t.findRevision call.tenantId kept.revisionId = some revision →
      revision.contentDigest = lib.sha256 bytes →
      ∃ head, t.mainHead call.tenantId call.docId = some head ∧
        HasContent lib t.toRevisions call.tenantId head.revisionId bytes)
    (hok : materializeWith lib loads (updateDocument t stored (savedRow call stored)) (some kept)
      (savedRow call stored) call.content call.updatedAt call.revisionId = .ok (next, head)) :
    ∃ bytes, Finishes lib loads t next call kept bytes := by
  obtain ⟨hwritten, hupdate⟩ := updateDocument_spec (savedRow call stored) hkey hcurrent
  have hrevisions := updateDocument_toRevisions t stored (savedRow call stored)
  have hmain := updateDocument_mainHead t stored (savedRow call stored)
  obtain ⟨bytes, hmakes⟩ := makes_of_ok hlib (hrevisions ▸ hclosed) hok hkey
  have hevolves := hupdate.trans hmakes.evolves
  have hrow : ∃ row, next.findDocument call.tenantId call.docId = some row ∧
      row.payloadJson = call.content := by
    refine ⟨_, (hmakes.findDocument _ _).trans hwritten, ?_⟩
    exact if_neg (Ne.symm hpayload)
  refine ⟨bytes, hmakes.canonical, hmakes.closed, hevolves, hrow, ?_, ?_⟩
  · cases hmakes.made with
    | same hrevision hdigest hnext =>
        rw [hrevisions] at hrevision
        obtain ⟨new, hnew, hcontent⟩ := hsame bytes _ hmakes.canonical hrevision hdigest
        refine ⟨new, ?_, hcontent.mono hevolves.keeps⟩
        rw [hnext, hmain]
        exact hnew
    | child hrevision hdigest hfoundHead hversion hhead hmoved hidNew hparents hparent hcontent =>
        exact ⟨_, hhead, by rw [hidNew]; exact hcontent⟩
  · cases hmakes.made with
    | same hrevision hdigest hnext =>
        rw [hrevisions] at hrevision
        exact Or.inl ⟨_, hrevision, hdigest⟩
    | child hrevision hdigest hfoundHead hversion hhead hmoved hidNew hparents hparent hcontent =>
        rw [hmain] at hfoundHead
        obtain rfl := hkept.eq_of_version hfoundHead hversion
        exact Or.inr ⟨hfoundHead, _, _, hhead, by rw [hidNew]; exact hparents, hparent⟩

theorem headDigest_of_content {tenantId : String} {head : CanvasRevisionHeadRow}
    (hcontent : HasContent lib t.toRevisions tenantId head.revisionId bytes) :
    headDigest t tenantId (some head) = some (lib.sha256 bytes) := by
  obtain ⟨revision, hrevision, hload⟩ := hcontent
  have hdigest := HasContent.digest ⟨revision, hrevision, hload⟩ hrevision
  simp only [headDigest, Option.bind_some, hrevision, Option.map_some, hdigest]

theorem HeadKept.content_of_digest (hfree : TextsCollisionFree lib loads texts)
    {tenantId docId text : String} {head : CanvasRevisionHeadRow}
    (hkept : HeadKept lib loads texts t tenantId docId head) (htext : text ∈ texts)
    (hbytes : canonicalText lib loads text = some bytes)
    (hdigest : headDigest t tenantId (some head) = some (lib.sha256 bytes)) :
    HasContent lib t.toRevisions tenantId head.revisionId bytes := by
  obtain ⟨other, hother, others, hothers, hcontent⟩ := hkept.content
  rw [headDigest_of_content hcontent, Option.some.injEq] at hdigest
  obtain rfl := hfree other hother text htext others bytes hothers hbytes hdigest
  exact hcontent

theorem canonicalText_of_textDigest (hfree : TextsCollisionFree lib loads texts)
    {left right : String} (hleft : left ∈ texts) (hright : right ∈ texts)
    (heq : textDigest lib loads left = textDigest lib loads right) :
    canonicalText lib loads left = canonicalText lib loads right := by
  unfold textDigest at heq
  cases hbytes : canonicalText lib loads left with
  | none =>
      rw [hbytes, Option.map_none] at heq
      exact (Option.map_eq_none_iff.mp heq.symm).symm
  | some bytes =>
      rw [hbytes, Option.map_some] at heq
      obtain ⟨others, hothers, hdigest⟩ := Option.map_eq_some_iff.mp heq.symm
      rw [hothers, hfree left hleft right hright bytes others hbytes hothers hdigest.symm]

/-- The row of a document that is not there is added, with its first revision. -/
theorem commits_creating (hlib : lib.Inverts) (hsound : TablesSound lib loads texts t)
    (htext : call.content ∈ texts) {last : Option CanvasRevisionHeadRow}
    (hholds : Holds lib loads texts t call (.creating last))
    (hok : write lib loads t call (.creating last) = .ok next) :
    Commits lib loads texts t next call := by
  simp only [write, bind_eq_ok, pure_eq_ok] at hok
  obtain ⟨middle, hadd, ⟨_, head⟩, hmake, rfl⟩ := hok
  have hputs := puts_addDocument hadd
  have habsent : t.findDocument call.tenantId call.docId = none := by
    simp only [ContentTables.addDocument, bind_eq_ok, found_eq_ok] at hadd
    obtain ⟨documents, hinsert, -⟩ := hadd
    exact ((insertBy_eq_some _).mp hinsert).1
  obtain rfl : last = none := by
    by_contra hlast
    have hpresent := hholds hlast
    rw [habsent] at hpresent
    cases hpresent
  obtain ⟨bytes, hmakes⟩ := makes_of_ok hlib (hputs.revisions ▸ hsound.closed) hmake rfl
  cases hmakes.made with
  | first hnone hhead hid hparents hcontent =>
      have hadded : Evolves t middle call.tenantId call.docId := by
        refine ⟨hputs.revisions ▸ .refl _, ?_, ?_, ?_⟩
        · intro otherTenant otherDoc hother
          refine ⟨hputs.mainHead _ _, ?_⟩
          rw [hputs.documents, if_neg]
          exact fun hsame => hother hsame.symm
        · intro current hcurrent
          exact ⟨current, (hputs.mainHead _ _).trans hcurrent, Or.inl rfl⟩
        · rw [habsent]
          exact fun hpresent => absurd hpresent (by simp)
      exact commits_of_evolves hsound (hadded.trans hmakes.evolves) hmakes.closed
        ((hmakes.findDocument _ _).trans ((hputs.documents _ _).trans (if_pos rfl))) htext
        hmakes.canonical hhead (hid ▸ hcontent)

/-- The text of the row is not written if it is the one that was loaded. -/
theorem changed_payload {call : SaveDocument} {stored : DocumentRow}
    (hpayload : stored.payloadJson = call.content) (current : DocumentRow) :
    (changed stored (savedRow call stored) current).payloadJson = current.payloadJson :=
  if_pos hpayload.symm

theorem commits_unchanged (hsound : TablesSound lib loads texts t) {stored : DocumentRow}
    {head : CanvasRevisionHeadRow} (hkey : stored.key = (call.tenantId, call.docId))
    (hkept : HeadKept lib loads texts t call.tenantId call.docId head)
    (hpayload : stored.payloadJson = call.content) :
    Commits lib loads texts t (updateDocument t stored (savedRow call stored)) call := by
  obtain ⟨new, hnew, -⟩ := hkept.current
  obtain ⟨row, bytes, hrow, hbytes, hcontent⟩ := hsound.projected _ _ _ hnew
  obtain ⟨hwritten, hupdate⟩ := updateDocument_spec (savedRow call stored) hkey hrow
  have hsame := changed_payload hpayload row
  exact commits_of_evolves hsound hupdate (updateDocument_toRevisions t _ _ ▸ hsound.closed) hwritten
    (hsame ▸ hsound.texts _ _ _ hrow) (hsame ▸ hbytes)
    ((updateDocument_mainHead t _ _ _ _).trans hnew) (hcontent.mono hupdate.keeps)

theorem commits_unchanged_legacy (hlib : lib.Inverts)
    (hsound : TablesSound lib loads texts t) (htext : call.content ∈ texts)
    {stored : DocumentRow} {last : Option CanvasRevisionHeadRow} {head : CanvasRevisionHeadRow}
    (hrowKept : RowKept texts t call stored) (hpayload : stored.payloadJson = call.content)
    (hkept : ∀ head ∈ last, HeadKept lib loads texts t call.tenantId call.docId head)
    (hlate : last ≠ none → headDigest t call.tenantId last = textDigest lib loads call.content)
    (hok : materializeWith lib loads (updateDocument t stored (savedRow call stored)) last
      (savedRow call stored) call.content call.updatedAt call.revisionId = .ok (next, head)) :
    Commits lib loads texts t next call := by
  have hrevisions := updateDocument_toRevisions t stored (savedRow call stored)
  obtain ⟨bytes, hmakes⟩ := makes_of_ok hlib (hrevisions ▸ hsound.closed) hok hrowKept.key
  cases hmakes.made with
  | same hrevision hdigest hnext =>
      rw [hnext]
      exact commits_unchanged hsound hrowKept.key (hkept _ rfl) hpayload
  | child hrevision hdigest hfound hversion hhead =>
      exfalso
      have hsame := hlate (Option.some_ne_none _)
      rw [hrevisions] at hrevision
      rw [headDigest, Option.bind_some, hrevision, textDigest, hmakes.canonical] at hsame
      exact hdigest (Option.some.inj hsame)
  | first hnone hhead hidNew hparents hcontent =>
      rw [updateDocument_mainHead] at hnone
      obtain ⟨hwritten, hupdate⟩ := updateDocument_spec (savedRow call stored) hrowKept.key
        (hrowKept.current hnone)
      have hwrittenPayload : (changed stored (savedRow call stored) stored).payloadJson =
          call.content := (changed_payload hpayload stored).trans hpayload
      exact commits_of_evolves hsound (hupdate.trans hmakes.evolves) hmakes.closed
        ((hmakes.findDocument _ _).trans hwritten) (by rw [hwrittenPayload]; exact htext)
        (by rw [hwrittenPayload]; exact hmakes.canonical) hhead (hidNew ▸ hcontent)

variable (lib loads texts) in
/-- The head that a new content is put behind, with the tables where it is found. -/
structure Preserved (t next : ContentTables) (call : SaveDocument)
    (stored : VersionedDocumentContent) (last : Option CanvasRevisionHeadRow)
    (head : CanvasRevisionHeadRow) : Prop where
  closed : Closed next.toRevisions
  documents : next.documents = t.documents
  evolves : Evolves t next call.tenantId call.docId
  kept : HeadKept lib loads texts next call.tenantId call.docId head
  same : ∀ bytes revision, canonicalText lib loads call.content = some bytes →
    next.findRevision call.tenantId head.revisionId = some revision →
    revision.contentDigest = lib.sha256 bytes →
    ∃ head, next.mainHead call.tenantId call.docId = some head ∧
      HasContent lib next.toRevisions call.tenantId head.revisionId bytes
  behind : canonicalText lib loads call.content ≠ canonicalText lib loads stored.row.payloadJson →
    ∃ bytes, canonicalText lib loads stored.row.payloadJson = some bytes ∧
      HasContent lib next.toRevisions call.tenantId head.revisionId bytes ∧
      head.revisionId = readRevision call last ∧
      (next.mainHead call.tenantId call.docId = some head →
        t.mainHead call.tenantId call.docId = last)

section Preserve

variable {stored : VersionedDocumentContent} {first early last : Option CanvasRevisionHeadRow}
  {head : CanvasRevisionHeadRow}

/-- A head that was read is what the new content is put behind. -/
theorem preserved_of_kept (hfree : TextsCollisionFree lib loads texts)
    (hsound : TablesSound lib loads texts t) (htext : call.content ∈ texts)
    (hpayload : stored.row.payloadJson ≠ call.content)
    (hloaded : Loaded lib loads texts t call stored first)
    (hkept : HeadKept lib loads texts t call.tenantId call.docId head)
    (hfirst : first ≠ none → some head = first)
    (hundisturbed : Undisturbed lib loads t call stored first early (some head)) :
    Preserved lib loads texts t t call stored (some head) head where
  closed := hsound.closed
  documents := rfl
  evolves := ⟨.refl _, fun _ _ _ => ⟨rfl, rfl⟩,
    fun current hcurrent => ⟨current, hcurrent, Or.inl rfl⟩, fun hpresent => hpresent⟩
  kept := hkept
  same bytes revision hbytes hrevision hdigest := by
    have hsame := hundisturbed.rewritten hpayload (Option.some_ne_none _) (by
      simp only [headDigest, textDigest, Option.bind_some, hrevision, hbytes, Option.map_some,
        hdigest])
    rw [textDigest, hbytes, Option.map_some] at hsame
    cases hmain : t.mainHead call.tenantId call.docId with
    | none =>
        rw [hmain] at hsame
        cases hsame
    | some current =>
        rw [hmain] at hsame
        exact ⟨current, rfl,
          (headKept_of_mainHead hsound hmain).content_of_digest hfree htext hbytes hsame⟩
  behind hdiffers := by
    have hread : ∃ bytes, canonicalText lib loads stored.row.payloadJson = some bytes ∧
        HasContent lib t.toRevisions call.tenantId head.revisionId bytes := by
      by_cases hnone : first = none
      · have hlate := hundisturbed.late hnone (Option.some_ne_none _) (Or.inr fun heq =>
          hdiffers (canonicalText_of_textDigest hfree htext hloaded.row.text heq))
        obtain ⟨_, -, others, -, hcontent⟩ := hkept.content
        have hdigest := hlate
        rw [headDigest_of_content hcontent] at hdigest
        obtain ⟨bytes, hbytes, -⟩ := Option.map_eq_some_iff.mp hdigest.symm
        rw [textDigest, hbytes, Option.map_some] at hlate
        exact ⟨bytes, hbytes, hkept.content_of_digest hfree hloaded.row.text hbytes hlate⟩
      · exact hloaded.verified head (hfirst hnone).symm
    obtain ⟨bytes, hbytes, hcontent⟩ := hread
    exact ⟨bytes, hbytes, hcontent, rfl, fun hmain => hmain⟩

theorem preserved_of_legacy (hlib : lib.Inverts) (hfree : TextsCollisionFree lib loads texts)
    (hsound : TablesSound lib loads texts t) (htext : call.content ∈ texts)
    (hpayload : stored.row.payloadJson ≠ call.content)
    (hloaded : Loaded lib loads texts t call stored first) (hfirst : first = none)
    (hkept : ∀ head ∈ last, HeadKept lib loads texts t call.tenantId call.docId head)
    (hundisturbed : Undisturbed lib loads t call stored first none last)
    (hok : materializeWith lib loads t last stored.row stored.content stored.row.updatedAt
      call.legacyRevisionId = .ok (next, head)) :
    Preserved lib loads texts t next call stored last head := by
  obtain ⟨bytes, hmakes⟩ := makes_of_ok hlib hsound.closed hok hloaded.row.key
  rw [hloaded.content hfirst] at hmakes
  have hstored := hloaded.row.text
  -- A revision that has been made of the stored content is the present head.
  have hnew : next.mainHead call.tenantId call.docId = some head →
      HasContent lib next.toRevisions call.tenantId head.revisionId bytes →
      (canonicalText lib loads call.content ≠
        canonicalText lib loads stored.row.payloadJson → head.revisionId = readRevision call last ∧
          t.mainHead call.tenantId call.docId = last) →
      Preserved lib loads texts t next call stored last head := by
    intro hmain hcontent hbehind
    refine ⟨hmakes.closed, hmakes.documents, hmakes.evolves,
      ⟨⟨head, hmain, Or.inl rfl⟩, _, hstored, bytes, hmakes.canonical, hcontent⟩, ?_, ?_⟩
    · intro others revision hothers hrevision hdigest
      rw [hcontent.digest hrevision] at hdigest
      obtain rfl := hfree _ hstored _ htext bytes others hmakes.canonical hothers hdigest
      exact ⟨head, hmain, hcontent⟩
    · intro hdiffers
      obtain ⟨hrevision, hlast⟩ := hbehind hdiffers
      exact ⟨bytes, hmakes.canonical, hcontent, hrevision, fun _ => hlast⟩
  cases hmakes.made with
  | same hrevision hdigest hnext =>
      subst hnext
      exact preserved_of_kept hfree hsound htext hpayload hloaded (hkept _ rfl)
        (fun hne => absurd hfirst hne) hundisturbed
  | first hnone hhead hidNew hparents hcontent =>
      refine hnew hhead (by rw [hidNew]; exact hcontent) fun _ => ⟨hidNew, hnone⟩
  | child hrevision hdigest hfound hversion hhead hmoved hidNew hparents hparent hcontent hkeptNew =>
      obtain rfl := hkeptNew ((hkept _ rfl).eq_of_version hfound hversion)
      refine hnew hhead (by rw [hidNew]; exact hcontent) fun hdiffers => ?_
      exfalso
      have hlate := hundisturbed.late hfirst (Option.some_ne_none _) (Or.inr fun heq =>
        hdiffers (canonicalText_of_textDigest hfree htext hstored heq))
      rw [headDigest, Option.bind_some, hrevision, textDigest, hmakes.canonical] at hlate
      exact hdigest (Option.some.inj hlate)

theorem commits_changed (hlib : lib.Inverts) (hfree : TextsCollisionFree lib loads texts)
    (hsound : TablesSound lib loads texts t) (htext : call.content ∈ texts)
    (hpayload : stored.row.payloadJson ≠ call.content) {middle : ContentTables}
    (hrow : RowKept texts t call stored.row)
    (hpreserved : Preserved lib loads texts t middle call stored last head)
    {made : CanvasRevisionHeadRow}
    (hok : materializeWith lib loads (updateDocument middle stored.row (savedRow call stored.row))
      (some head) (savedRow call stored.row) call.content call.updatedAt call.revisionId =
        .ok (next, made)) :
    Commits lib loads texts t next call ∧ Behind lib loads t next call stored last := by
  have hpresent : ∃ current, t.findDocument call.tenantId call.docId = some current := by
    cases hmain : t.mainHead call.tenantId call.docId with
    | none => exact ⟨_, hrow.current hmain⟩
    | some head =>
        obtain ⟨current, -, hcurrent, -⟩ := hsound.projected _ _ _ hmain
        exact ⟨current, hcurrent⟩
  obtain ⟨current, hcurrent⟩ := hpresent
  have hmiddle : middle.findDocument call.tenantId call.docId = some current := by
    rw [ContentTables.findDocument, hpreserved.documents]
    exact hcurrent
  obtain ⟨bytes, hfinishes⟩ := finishes_of_ok hlib hpreserved.closed hrow.key hmiddle hpayload
    hpreserved.kept hpreserved.same hok
  obtain ⟨row, hwritten, hcontentText⟩ := hfinishes.row
  obtain ⟨new, hnew, hcontent⟩ := hfinishes.content
  refine ⟨commits_of_evolves hsound (hpreserved.evolves.trans hfinishes.evolves) hfinishes.closed
    hwritten (hcontentText ▸ htext) (hcontentText ▸ hfinishes.canonical) hnew hcontent, ?_⟩
  intro hdiffers
  obtain ⟨read, hread, hreadContent, hrevision, hlast⟩ := hpreserved.behind hdiffers
  rcases hfinishes.placed with ⟨revision, hfound, hdigest⟩ |
    ⟨hmain, placed, edge, hplaced, hparents, hparent⟩
  · exfalso
    rw [hreadContent.digest hfound] at hdigest
    obtain rfl := hfree _ hrow.text _ htext read bytes hread hfinishes.canonical hdigest
    exact hdiffers (hfinishes.canonical.trans hread.symm)
  · refine ⟨hlast hmain, placed, edge, read, hplaced, hparents, hparent.trans hrevision, hread, ?_⟩
    rw [hparent]
    exact hreadContent.mono hfinishes.evolves.keeps

end Preserve

variable (lib loads) in
def StageUndisturbed (t : ContentTables) (call : SaveDocument) : Stage → Prop
  | .ready stored first early last => Undisturbed lib loads t call stored first early last
  | _ => True

instance (t : ContentTables) (call : SaveDocument) :
    DecidablePred (StageUndisturbed lib loads t call)
  | .ready stored first early last =>
      inferInstanceAs (Decidable (Undisturbed lib loads t call stored first early last))
  | .begun _ | .loaded _ _ | .reread _ _ | .verified _ _ | .compared _ _ _ | .creating _ =>
      inferInstanceAs (Decidable True)

variable (lib loads) in
def StageBehind (t next : ContentTables) (call : SaveDocument) : Stage → Prop
  | .ready stored _ _ last => Behind lib loads t next call stored last
  | _ => True

theorem commits_of_ok (hlib : lib.Inverts) (hfree : TextsCollisionFree lib loads texts)
    (hsound : TablesSound lib loads texts t) (htext : call.content ∈ texts) {stage : Stage}
    (hholds : Holds lib loads texts t call stage)
    (hundisturbed : StageUndisturbed lib loads t call stage)
    (hok : write lib loads t call stage = .ok next) :
    Commits lib loads texts t next call ∧ StageBehind lib loads t next call stage := by
  cases stage with
  | begun | loaded | reread | verified | compared => cases hok
  | creating last => exact ⟨commits_creating hlib hsound htext hholds hok, trivial⟩
  | ready stored first early last =>
      obtain ⟨hloaded, hearly, hlast⟩ := hholds
      have hfirst : early = none → first = none := fun hnone =>
        by_contra fun hne => hne ((hearly.same hne).symm.trans hnone)
      simp only [write] at hok
      split at hok
      next hpayload =>
        have hbehind : Behind lib loads t next call stored last := fun hdiffers =>
          absurd (congrArg (canonicalText lib loads) hpayload.symm) hdiffers
        refine ⟨?_, hbehind⟩
        cases early with
        | some head =>
            obtain rfl := Except.ok.inj hok
            exact commits_unchanged hsound hloaded.row.key (hearly.kept head rfl) hpayload
        | none =>
            simp only [bind_eq_ok, pure_eq_ok] at hok
            obtain ⟨⟨made, head⟩, hmade, rfl⟩ := hok
            refine commits_unchanged_legacy hlib hsound htext hloaded.row hpayload hlast.kept
              (fun hne => ?_) hmade
            rw [← hpayload]
            exact hundisturbed.late (hfirst rfl) hne (Or.inl ⟨hpayload, rfl⟩)
      next hpayload =>
        simp only [bind_eq_ok, pure_eq_ok] at hok
        obtain ⟨⟨middle, head⟩, hpreserve, ⟨made, final⟩, hmade, rfl⟩ := hok
        refine commits_changed hlib hfree hsound htext hpayload hloaded.row ?_ hmade
        cases early with
        | some kept =>
            obtain ⟨rfl, rfl⟩ := Prod.mk.inj (Except.ok.inj hpreserve)
            obtain rfl := hlast.same (Option.some_ne_none _)
            exact preserved_of_kept hfree hsound htext hpayload hloaded (hlast.kept _ rfl)
              hearly.same hundisturbed
        | none =>
            exact preserved_of_legacy hlib hfree hsound htext hpayload hloaded (hfirst rfl)
              hlast.kept hundisturbed hpreserve

end Commits

/-! ## Interleavings -/

section Runs

variable (lib loads) (texts : List String)

/-- The tables are sound, and so is every transaction, whose content is among the texts. -/
structure Sound (server : Server) : Prop where
  tables : TablesSound lib loads texts server.tables
  pending : ∀ pending ∈ server.pending, pending.put.save.content ∈ texts ∧
    Holds lib loads texts server.tables pending.put.save pending.stage

/-- The texts of the requests. -/
def Call.content : Call → Option String
  | .begin put => some put.save.content
  | _ => none

def Condition (server : Server) : Call → Prop
  | .commit index => ∀ pending ∈ server.pending[index]?,
      StageUndisturbed lib loads server.tables pending.put.save pending.stage
  | _ => True

instance (server : Server) : DecidablePred (Condition lib loads server)
  | .commit _ => inferInstanceAs (Decidable (∀ _ ∈ _, _))
  | .begin _ | .read _ | .rollback _ => inferInstanceAs (Decidable True)

/-- After a commit the row and the head of every document have the same content, the document has a
head, and a new content is put behind what was read. -/
structure CommitsInOrder (server next : Server) (pending : Pending) : Prop where
  projected : Projected lib loads next.tables
  headed : next.tables.mainHead pending.put.save.tenantId pending.put.save.docId ≠ none
  behind : StageBehind lib loads server.tables next.tables pending.put.save pending.stage

def ServedInOrder (computeEtag : String → String) (run : Run Server Call Answer) : Call → Prop
  | .commit index => ∀ pending ∈ run.state.pending[index]?, ∀ next,
      run.state.serve lib loads computeEtag (.commit index) = .ok (.committed, next) →
        CommitsInOrder lib loads run.state next pending
  | _ => True

variable {lib loads texts} {computeEtag : String → String}

/-- A call keeps tables and transactions sound. -/
theorem Sound.serve (hlib : lib.Inverts) (hfree : TextsCollisionFree lib loads texts)
    {server next : Server} {call : Call} {answer : Answer}
    (hsound : Sound lib loads texts server) (hcondition : Condition lib loads server call)
    (hcontent : ∀ text ∈ call.content, text ∈ texts)
    (hok : server.serve lib loads computeEtag call = .ok (answer, next)) :
    Sound lib loads texts next := by
  have hended : ∀ index, Sound lib loads texts
      { server with pending := server.pending.eraseIdx index } := fun index =>
    ⟨hsound.tables, fun pending hmem => hsound.pending pending (List.mem_of_mem_eraseIdx hmem)⟩
  cases call with
  | begin put =>
      obtain ⟨-, rfl⟩ := Prod.mk.inj (Except.ok.inj hok)
      refine ⟨hsound.tables, fun pending hpending => ?_⟩
      rcases mem_snoc.mp hpending with hold | rfl
      · exact hsound.pending pending hold
      · exact ⟨hcontent _ rfl, fun row hrow => rowKept_of_findDocument hsound.tables hrow⟩
  | read index =>
      simp only [Server.serve, bind_eq_ok, found_eq_ok] at hok
      obtain ⟨pending, hfound, hok⟩ := hok
      obtain ⟨htext, hholds⟩ := hsound.pending pending (List.mem_of_getElem? hfound)
      split at hok
      next stage hadvance =>
        obtain ⟨-, rfl⟩ := Prod.mk.inj (Except.ok.inj hok)
        refine ⟨hsound.tables, fun other hother => ?_⟩
        rcases List.mem_or_eq_of_mem_set hother with hold | rfl
        · exact hsound.pending other hold
        · exact ⟨htext, holds_advance hsound.tables hholds hadvance⟩
      next raised hadvance =>
        obtain ⟨-, rfl⟩ := Prod.mk.inj (Except.ok.inj hok)
        exact hended index
  | commit index =>
      simp only [Server.serve, bind_eq_ok, found_eq_ok] at hok
      obtain ⟨pending, hfound, hok⟩ := hok
      obtain ⟨htext, hholds⟩ := hsound.pending pending (List.mem_of_getElem? hfound)
      split at hok
      next tables hwrite =>
        obtain ⟨-, rfl⟩ := Prod.mk.inj (Except.ok.inj hok)
        have hcommits := (commits_of_ok hlib hfree hsound.tables htext hholds
          (hcondition pending hfound) hwrite).1
        refine ⟨hcommits.sound, fun other hother => ?_⟩
        obtain ⟨hotherText, hother⟩ := (hended index).pending other hother
        exact ⟨hotherText, hother.mono hcommits.evolves hcommits.headed⟩
      next raised hwrite =>
        obtain ⟨-, rfl⟩ := Prod.mk.inj (Except.ok.inj hok)
        exact hended index
  | rollback index =>
      simp only [Server.serve, bind_eq_ok, found_eq_ok, pure, Except.pure] at hok
      obtain ⟨_, -, hok⟩ := hok
      obtain ⟨-, rfl⟩ := Prod.mk.inj (Except.ok.inj hok)
      exact hended index

theorem servedInOrder_of_sound (hlib : lib.Inverts) (hfree : TextsCollisionFree lib loads texts)
    {run : Run Server Call Answer} {call : Call} (hsound : Sound lib loads texts run.state)
    (hcondition : Condition lib loads run.state call) :
    ServedInOrder lib loads computeEtag run call := by
  cases call with
  | begin | read | rollback => trivial
  | commit index =>
      intro pending hfound next hok
      rw [Option.mem_def] at hfound
      obtain ⟨htext, hholds⟩ := hsound.pending pending (List.mem_of_getElem? hfound)
      simp only [Server.serve, hfound, found, bind, Except.bind] at hok
      split at hok
      next tables hwrite =>
        obtain ⟨-, rfl⟩ := Prod.mk.inj (Except.ok.inj hok)
        obtain ⟨hcommits, hbehind⟩ := commits_of_ok hlib hfree hsound.tables htext hholds
          (hcondition pending hfound) hwrite
        exact ⟨hcommits.sound.projected, hcommits.headed, hbehind⟩
      next raised hwrite =>
        cases (Prod.mk.inj (Except.ok.inj hok)).1

theorem sound_legacy (documents : List DocumentRow) (contents : List String) :
    Sound lib loads (documents.map DocumentRow.payloadJson ++ contents)
      ⟨legacyTables documents, []⟩ where
  tables :=
    { closed := by simp [Closed, legacyTables]
      texts := by
        intro tenantId docId row hrow
        exact List.mem_append_left _ (List.mem_map_of_mem (findBy_eq_some _ hrow).1)
      projected := by
        intro tenantId docId head hhead
        cases hhead }
  pending := by simp

variable (lib loads) in
/-- In every interleaving of PUTs, whatever documents there were without revisions: if every commit
is undisturbed, the row and the head have the same content after every commit, and a content other
than the one that its transaction has read becomes a child of exactly the revision that was read. -/
theorem puts_in_order (hlib : lib.Inverts) (computeEtag : String → String)
    (documents : List DocumentRow) (calls : List Call)
    (hfree : TextsCollisionFree lib loads
      (documents.map DocumentRow.payloadJson ++ calls.filterMap Call.content))
    (hundisturbed : CallsMeet (Server.serve lib loads computeEtag) ⟨legacyTables documents, []⟩
      (fun run call => Condition lib loads run.state call) calls) :
    CallsMeet (Server.serve lib loads computeEtag) ⟨legacyTables documents, []⟩
      (ServedInOrder lib loads computeEtag) calls := by
  have hboth : CallsMeet (Server.serve lib loads computeEtag) ⟨legacyTables documents, []⟩
      (fun run call => Condition lib loads run.state call ∧ ∀ text ∈ call.content,
        text ∈ documents.map DocumentRow.payloadJson ++ calls.filterMap Call.content) calls := by
    intro before call after hsplit
    refine ⟨hundisturbed before call after hsplit, fun text htext => List.mem_append_right _ ?_⟩
    exact List.mem_filterMap.mpr ⟨call, by rw [hsplit]; simp, htext⟩
  refine hboth.of_invariant (P := fun run => Sound lib loads
    (documents.map DocumentRow.payloadJson ++ calls.filterMap Call.content) run.state)
    (sound_legacy documents _) ?_ ?_
  · intro run call answer next hsound hcall hok
    exact hsound.serve hlib hfree hcall.1 hcall.2 hok
  · intro run call hsound hcall
    exact servedInOrder_of_sound hlib hfree hsound hcall.1

end Runs

theorem Projected.digest {t : ContentTables} (h : Projected lib loads t) {tenantId docId : String}
    (hhead : t.mainHead tenantId docId ≠ none) :
    headDigest t tenantId (t.mainHead tenantId docId) =
      (t.findDocument tenantId docId).bind fun row => textDigest lib loads row.payloadJson := by
  obtain ⟨head, hhead⟩ := Option.ne_none_iff_exists'.mp hhead
  obtain ⟨row, bytes, hrow, hbytes, hcontent⟩ := h _ _ _ hhead
  rw [hhead, headDigest_of_content hcontent, hrow, Option.bind_some, textDigest, hbytes]
  rfl

variable (lib loads) in
/-- Whether a commit succeeds and leaves a document whose row and head have different digests. -/
def diverges (tenantId docId : String) : Except Unit (Answer × Server) → Bool
  | .ok (.committed, next) => next.tables.mainHead tenantId docId ≠ none ∧
      headDigest next.tables tenantId (next.tables.mainHead tenantId docId) ≠
        (next.tables.findDocument tenantId docId).bind fun row =>
          textDigest lib loads row.payloadJson
  | _ => false

theorem not_servedInOrder {computeEtag : String → String} (run : Run Server Call Answer)
    (index : Nat) (tenantId docId : String) (hdiverges : diverges lib loads tenantId docId
      (run.state.serve lib loads computeEtag (.commit index)) = true) :
    ¬ServedInOrder lib loads computeEtag run (.commit index) := by
  intro hserved
  cases hserve : run.state.serve lib loads computeEtag (.commit index) with
  | error raised =>
      rw [hserve] at hdiverges
      cases hdiverges
  | ok pair =>
      obtain ⟨answer, next⟩ := pair
      obtain ⟨pending, hpending⟩ : ∃ pending, run.state.pending[index]? = some pending := by
        simp only [Server.serve, bind_eq_ok, found_eq_ok] at hserve
        obtain ⟨pending, hpending, -⟩ := hserve
        exact ⟨pending, hpending⟩
      rw [hserve] at hdiverges
      cases answer with
      | waiting | failed => cases hdiverges
      | committed =>
          have hdifferent := of_decide_eq_true hdiverges
          exact hdifferent.2
            ((hserved pending hpending next hserve).projected.digest hdifferent.1)

namespace Reordered

/-- A content, and the same content in another order. -/
def first : String := "\x7b\"x\":1,\"y\":2\x7d"

@[inherit_doc first]
def reordered : String := "\x7b\"y\":2,\"x\":1\x7d"

def other : String := "\x7b\"x\":1,\"y\":3\x7d"

/-- A library that knows the digests of these contents. -/
def library : Library Unit Rat :=
  { SmallLibrary.library with
    sha256 := fun bytes =>
      if bytes = Py.utf8 other.toList then
        "51b018f294926b10cf44ff287a532a9b0f33aef33c080fd9b1657f0f00e44b29"
      else "689a8f1db95402580476e38c264278ce7b1e664320cfb4e9ae8d3a908cf09964" }

def readJson (text : String) : Option (Json Unit) := Py.loads library.floats text.toList

def put (content legacyRevisionId revisionId : String) : Put where
  ifMatch := none
  save := {
    tenantId := "t"
    docId := "d"
    version := 1
    updatedAt := "2026-01-01T00:00:00+00:00"
    content := content
    createdBy := none
    legacyRevisionId := legacyRevisionId
    revisionId := revisionId }

/-- A document is created. One PUT of it orders the fields in another way; while it waits for its
commit, another one changes the content and commits. -/
def calls : List Call :=
  [.begin (put first "l1" "r1"), .read 0, .read 0, .read 0, .commit 0,
    .begin (put reordered "l2" "r2"), .read 0, .read 0, .read 0, .read 0, .read 0,
    .begin (put other "l3" "r3"), .read 1, .read 1, .read 1, .read 1, .read 1, .commit 1]

abbrev reached (calls : List Call) : Run Server Call Answer :=
  runCalls (Server.serve library readJson id) ⟨legacyTables [], []⟩ calls

/-- The waiting PUT commits. The row has its text, the head is the revision of the other PUT, and
the document cannot be loaded any more. -/
theorem diverged :
    ¬CallsMeet (Server.serve library readJson id) ⟨legacyTables [], []⟩
      (ServedInOrder library readJson id) (calls ++ [.commit 0]) ∧
    load library readJson (reached (calls ++ [.commit 0])).state.tables "t" "d" =
      .error (.documentRevisionDivergence "document projection differs from revision head") := by
  refine ⟨fun hmeet => ?_, by decide +kernel⟩
  have hlast : ServedInOrder library readJson id (reached calls) (.commit 0) :=
    hmeet calls (.commit 0) [] rfl
  exact not_servedInOrder (reached calls) 0 "t" "d" (by decide +kernel) hlast

end Reordered

namespace Raced

open LegacyDocument (document library library_inverts readJson collisionFree)

def put (legacyRevisionId revisionId : String) : Put where
  ifMatch := none
  save := { LegacyDocument.saveB with
    legacyRevisionId := legacyRevisionId
    revisionId := revisionId }

/-- Two PUTs read a document without a head, and commit one after the other. -/
def calls : List Call :=
  [.begin (put "l1" "r1"), .begin (put "l2" "r2"), .read 0, .read 1, .read 0, .read 1, .read 0,
    .read 1, .read 0, .read 1, .read 0, .read 1, .commit 0, .commit 0]

/-- The first commit is in order, and the second one fails. -/
theorem raced_in_order :
    (runCalls (Server.serve library readJson id) ⟨legacyTables [document], []⟩ calls).journal.map
        Prod.snd = List.replicate 12 .waiting ++ [.committed, .failed (.content .integrityError)] ∧
      CallsMeet (Server.serve library readJson id) ⟨legacyTables [document], []⟩
        (ServedInOrder library readJson id) calls :=
  ⟨by decide +kernel, puts_in_order library readJson library_inverts id [document] calls
    (collisionFree (by decide +kernel)) (by decide +kernel)⟩

end Raced

end KjAtlas.Generation.Puts
