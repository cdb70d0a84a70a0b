import KjAtlas.Foundation.Traverse
import KjAtlas.Generations.ContentStore
import KjAtlas.Generations.Depth

/-! # The projection of a document follows its head

The row of a document holds the text that was saved last, and the main head
names the revision of that content. Behind the head stand the contents that
were saved before, each only once in a row.
-/

namespace KjAtlas.Generation

open Py (Bytes Json)

variable {F R : Type} (lib : Library F R) (loads : String → Option (Json F))

/-! ## Histories -/

/-- The contents of a revision and of its only parents, newest first. -/
inductive History (t : Revisions) (tenantId : String) : String → List Bytes → Prop
  | root {revisionId : String} {revision : CanvasRevisionRow} {bytes : Bytes}
      (hrevision : t.findRevision tenantId revisionId = some revision)
      (hparents : t.parentsOf tenantId revisionId = [])
      (hbytes : loadDatabaseGenerationBlob lib t.blobs tenantId 32 revision.contentDigest =
        .ok bytes) : History t tenantId revisionId [bytes]
  | child {revisionId : String} {revision : CanvasRevisionRow} {bytes : Bytes}
      {edge : CanvasRevisionParentRow} {older : List Bytes}
      (hrevision : t.findRevision tenantId revisionId = some revision)
      (hparents : t.parentsOf tenantId revisionId = [edge])
      (hbytes : loadDatabaseGenerationBlob lib t.blobs tenantId 32 revision.contentDigest =
        .ok bytes)
      (holder : History t tenantId edge.parentRevisionId older) :
      History t tenantId revisionId (bytes :: older)

/-- The main head of a document has a history, and its version is the length of it. -/
def Heads (t : ContentTables) (tenantId docId : String) (contents : List Bytes) : Prop :=
  ∃ head, t.mainHead tenantId docId = some head ∧
    History lib t.toRevisions tenantId head.revisionId contents ∧
    head.headVersion = contents.length

/-- Put a content before the others, unless it is the newest already. -/
def record (contents : List Bytes) (bytes : Bytes) : List Bytes :=
  if contents.head? = some bytes then contents else bytes :: contents

/-- The successive distinct contents, newest first. -/
def successive (contents : List Bytes) : List Bytes := contents.foldl record []

theorem head?_record (contents : List Bytes) (bytes : Bytes) :
    (record contents bytes).head? = some bytes := by
  unfold record
  split
  next hhead => exact hhead
  next => rfl

theorem successive_snoc (contents : List Bytes) (bytes : Bytes) :
    successive (contents ++ [bytes]) = record (successive contents) bytes := by
  simp [successive]

/-! ## Tables that keep histories -/

/-- What is stored stays as it is. -/
structure Extends (t next : Revisions) : Prop where
  revisions : ∀ {tenantId revisionId revision}, t.findRevision tenantId revisionId =
    some revision → next.findRevision tenantId revisionId = some revision
  parents : ∀ {tenantId revisionId revision}, t.findRevision tenantId revisionId =
    some revision → next.parentsOf tenantId revisionId = t.parentsOf tenantId revisionId
  blobs : Grows t.blobs next.blobs

theorem Extends.refl (t : Revisions) : Extends t t :=
  ⟨fun hrevision => hrevision, fun _ => rfl, fun _ _ _ hrow => hrow⟩

theorem Extends.trans {t next later : Revisions} (hfirst : Extends t next)
    (hsecond : Extends next later) : Extends t later where
  revisions hrevision := hsecond.revisions (hfirst.revisions hrevision)
  parents hrevision :=
    (hsecond.parents (hfirst.revisions hrevision)).trans (hfirst.parents hrevision)
  blobs _ _ _ hrow := hsecond.blobs _ _ _ (hfirst.blobs _ _ _ hrow)

/-- Every edge comes from a stored revision. -/
def Closed (t : Revisions) : Prop :=
  ∀ edge ∈ t.parents, ∃ revision, t.findRevision edge.tenantId edge.revisionId = some revision

variable {lib loads} {revisionId : String} {contents : List Bytes} {next t : ContentTables}
  {row : DocumentRow} {bytes : Bytes} {call : SaveDocument} {answer : VersionedDocumentContent}

theorem Closed.parentsOf_eq_nil {t : Revisions} (hclosed : Closed t) {tenantId : String}
    (hnone : t.findRevision tenantId revisionId = none) : t.parentsOf tenantId revisionId = [] := by
  unfold Revisions.parentsOf
  rw [List.filter_eq_nil_iff]
  intro edge hedge hhit
  obtain ⟨htenant, hrevision⟩ := of_decide_eq_true hhit
  obtain ⟨revision, hfound⟩ := hclosed edge hedge
  rw [htenant, hrevision, hnone] at hfound
  nomatch hfound

theorem History.mono {t next : Revisions} (hextends : Extends t next) {tenantId : String}
    (hhistory : History lib t tenantId revisionId contents) :
    History lib next tenantId revisionId contents := by
  induction hhistory with
  | root hrevision hparents hbytes =>
      exact .root (hextends.revisions hrevision) ((hextends.parents hrevision).trans hparents)
        (load_mono hextends.blobs hbytes)
  | child hrevision hparents hbytes _ ih =>
      exact .child (hextends.revisions hrevision) ((hextends.parents hrevision).trans hparents)
        (load_mono hextends.blobs hbytes) ih

theorem History.newest {t : Revisions} {tenantId : String}
    (hhistory : History lib t tenantId revisionId contents) :
    ∃ revision bytes older, t.findRevision tenantId revisionId = some revision ∧
      loadDatabaseGenerationBlob lib t.blobs tenantId 32 revision.contentDigest = .ok bytes ∧
      lib.sha256 bytes = revision.contentDigest ∧ contents = bytes :: older := by
  have hsha : ∀ {digest bytes}, loadDatabaseGenerationBlob lib t.blobs tenantId 32 digest =
      .ok bytes → lib.sha256 bytes = digest := by
    intro digest bytes hload
    obtain ⟨_, _, hrestores⟩ := load_eq_ok.mp hload
    exact hrestores.sha256
  cases hhistory with
  | root hrevision _ hbytes => exact ⟨_, _, [], hrevision, hbytes, hsha hbytes, rfl⟩
  | child hrevision _ hbytes _ => exact ⟨_, _, _, hrevision, hbytes, hsha hbytes, rfl⟩

/-! ## Adding a content -/

variable {encoded : EncodedGenerationBlob} {head : CanvasRevisionHeadRow} {middle : ContentTables}
  {stored : DocumentRow} {documents : List DocumentRow}
  {run : Run ContentTables SaveDocument VersionedDocumentContent}

/-- An encoding without a base is the compressed canonical text. -/
theorem encodeGeneration_snapshot {value : Json F}
    (hok : encodeGeneration lib value none none 0 none = .ok encoded) :
    ∃ bytes, canonicalJsonBytes lib value = .ok bytes ∧ encoded = {
      contentDigest := lib.sha256 bytes
      byteSize := bytes.length
      storedBytes := lib.compress bytes
      representation := .gzipJson
      baseDigest := none
      deltaDepth := 0 } := by
  simp only [encodeGeneration, bind_eq_ok, usableBase, Option.bind_eq_bind, Option.bind_none,
    pure_eq_ok] at hok
  obtain ⟨_, -, bytes, hbytes, rfl⟩ := hok
  exact ⟨bytes, hbytes, rfl⟩

variable (lib) in
/-- A new revision with a stored content, and nothing else. -/
structure AddsContent (t next : ContentTables) (tenantId revisionId : String)
    (bytes : Bytes) : Prop where
  documents : next.documents = t.documents
  heads : next.heads = t.heads
  parents : next.parents = t.parents
  keeps : Extends t.toRevisions next.toRevisions
  fresh : t.findRevision tenantId revisionId = none
  added : ∃ revision, next.findRevision tenantId revisionId = some revision ∧
    loadDatabaseGenerationBlob lib next.blobs tenantId 32 revision.contentDigest = .ok bytes

/-- A text is encoded by its canonical bytes, which a new revision then stores. -/
theorem addsContent_of_ok (hlib : lib.Inverts) {content : String} {value : Json F}
    (hvalue : loads content = some value)
    (hencoded : encodeGeneration lib value none none 0 none = .ok encoded) :
    ∃ bytes, canonicalText lib loads content = some bytes ∧
      encoded.contentDigest = lib.sha256 bytes ∧ ∀ {createdAt : String} {next : ContentTables},
        addContent lib t row encoded createdAt revisionId = .ok next →
          AddsContent lib t next row.tenantId revisionId bytes := by
  obtain ⟨bytes, hbytes, rfl⟩ := encodeGeneration_snapshot hencoded
  refine ⟨bytes, by simp [canonicalText, hvalue, hbytes, Except.toOption], rfl, fun hok => ?_⟩
  simp only [addContent, bind_eq_ok, mapError_eq_ok, ContentTables.addRevision, found_eq_ok, pure_eq_ok] at hok
  obtain ⟨⟨blobRow, blobs⟩, hsave, revisions, hinsert, rfl⟩ := hok
  obtain ⟨haccepts, hgrows, hstores⟩ := stores_of_save hsave
  have hrestored : restoreGeneration lib {
      contentDigest := lib.sha256 bytes
      byteSize := bytes.length
      storedBytes := lib.compress bytes
      representation := .gzipJson
      baseDigest := none
      deltaDepth := 0 } none = .ok bytes := by
    simp [restoreGeneration, decompressed, hlib.gzip, ensure, bind, Except.bind, pure, Except.pure]
  have hfind := findBy_insertBy CanvasRevisionRow.key hinsert
  have hfresh := ((insertBy_eq_some _).mp hinsert).1
  refine ⟨rfl, rfl, rfl, ⟨?_, fun _ => rfl, hgrows⟩, hfresh, ?_⟩
  · intro tenantId otherId revision hrevision
    refine (hfind (tenantId, otherId)).trans ?_
    rw [if_neg ?_]
    · exact hrevision
    · intro hsame
      unfold Revisions.findRevision at hrevision
      rw [← hsame, hfresh] at hrevision
      cases hrevision
  · refine ⟨_, (hfind (row.tenantId, revisionId)).trans (if_pos rfl), ?_⟩
    exact hstores.load_snapshot rfl hrestored haccepts.depth (by decide)

theorem AddsContent.closed {tenantId : String} (hclosed : Closed t.toRevisions)
    (hadds : AddsContent lib t next tenantId revisionId bytes) : Closed next.toRevisions := by
  intro edge hedge
  rw [hadds.parents] at hedge
  obtain ⟨found, hfound⟩ := hclosed edge hedge
  exact ⟨found, hadds.keeps.revisions hfound⟩

theorem AddsContent.parentsOf {tenantId : String} (hclosed : Closed t.toRevisions)
    (hadds : AddsContent lib t next tenantId revisionId bytes) :
    next.parentsOf tenantId revisionId = [] := by
  unfold Revisions.parentsOf
  rw [hadds.parents]
  exact hclosed.parentsOf_eq_nil hadds.fresh

theorem mainHead_of_heads (hheads : next.heads = t.heads) (tenantId docId : String) :
    next.mainHead tenantId docId = t.mainHead tenantId docId := by
  unfold ContentTables.mainHead Revisions.findHead
  rw [hheads]

/-! ## Writing a head -/

/-- The main head of a document is written, and nothing else. -/
structure PutsHead (t next : ContentTables) (tenantId docId : String)
    (head : CanvasRevisionHeadRow) : Prop where
  tables : ∃ heads, next = { t with heads := heads }
  head : next.mainHead tenantId docId = some head
  others : ∀ otherTenant otherDoc, (otherTenant, otherDoc) ≠ (tenantId, docId) →
    next.mainHead otherTenant otherDoc = t.mainHead otherTenant otherDoc

theorem putsHead_of_findBy {tenantId docId : String} {heads : List CanvasRevisionHeadRow}
    (hkey : head.key = (tenantId, docId, "main"))
    (hfind : ∀ key, findBy CanvasRevisionHeadRow.key key heads =
      if head.key = key then some head else findBy CanvasRevisionHeadRow.key key t.heads) :
    PutsHead t { t with heads := heads } tenantId docId head := by
  refine ⟨⟨heads, rfl⟩, (hfind _).trans (if_pos hkey), fun otherTenant otherDoc hother => ?_⟩
  refine (hfind _).trans (if_neg ?_)
  rw [hkey]
  rintro ⟨⟩
  exact hother rfl

theorem putsHead_addHead {tenantId docId : String} (hkey : head.key = (tenantId, docId, "main"))
    (hok : t.addHead head = .ok next) :
    t.mainHead tenantId docId = none ∧ PutsHead t next tenantId docId head := by
  simp only [ContentTables.addHead, bind_eq_ok, found_eq_ok, pure_eq_ok] at hok
  obtain ⟨heads, hinsert, rfl⟩ := hok
  have hnone := ((insertBy_eq_some _).mp hinsert).1
  rw [hkey] at hnone
  exact ⟨hnone, putsHead_of_findBy hkey (findBy_insertBy CanvasRevisionHeadRow.key hinsert)⟩

theorem putsHead_advanceRevisionHead {tenantId docId updatedAt : String} {version : Int}
    (hok : t.advanceRevisionHead tenantId docId "main" version revisionId updatedAt = .ok next) :
    ∃ current, t.mainHead tenantId docId = some current ∧ current.headVersion = version ∧
      PutsHead t next tenantId docId { current with
        revisionId := revisionId
        headVersion := version + 1
        updatedAt := updatedAt } := by
  simp only [ContentTables.advanceRevisionHead, bind_eq_ok, found_eq_ok, pure_eq_ok,
    Option.filter_eq_some_iff, decide_eq_true_eq] at hok
  obtain ⟨current, ⟨hcurrent, hversion⟩, rfl⟩ := hok
  have hkey : current.key = (tenantId, docId, "main") := (findBy_eq_some _ hcurrent).2
  exact ⟨current, hcurrent, hversion, putsHead_of_findBy hkey fun _ => findBy_upsertBy _ _ _ _⟩

variable (lib loads) in
/-- What making a content the newest one does. -/
structure Materializes (t next : ContentTables) (tenantId docId : String)
    (bytes : Bytes) : Prop where
  documents : next.documents = t.documents
  keeps : Extends t.toRevisions next.toRevisions
  closed : Closed next.toRevisions
  others : ∀ otherTenant otherDoc, (otherTenant, otherDoc) ≠ (tenantId, docId) →
    next.mainHead otherTenant otherDoc = t.mainHead otherTenant otherDoc
  first : t.mainHead tenantId docId = none → Heads lib next tenantId docId [bytes]
  later : ∀ contents, Heads lib t tenantId docId contents →
    (∀ newest, contents.head? = some newest → lib.sha256 newest = lib.sha256 bytes →
      newest = bytes) →
    Heads lib next tenantId docId (record contents bytes)

section

variable {tenantId docId : String}

theorem materializes_first (hclosed : Closed t.toRevisions)
    (hnone : t.mainHead tenantId docId = none)
    (hadds : AddsContent lib t middle tenantId revisionId bytes)
    (hkey : head.key = (tenantId, docId, "main")) (hrevision : head.revisionId = revisionId)
    (hversion : head.headVersion = 1) (hok : middle.addHead head = .ok next) :
    Materializes lib t next tenantId docId bytes := by
  obtain ⟨-, ⟨heads, rfl⟩, hhead, hothers⟩ := putsHead_addHead hkey hok
  have hkeeps := hadds.keeps
  have hmiddle := hadds.closed hclosed
  have hparents := hadds.parentsOf hclosed
  obtain ⟨revision, hadded, hbytes⟩ := hadds.added
  refine ⟨hadds.documents, ⟨hkeeps.revisions, hkeeps.parents, hkeeps.blobs⟩, hmiddle,
    fun otherTenant otherDoc hother => ?_, fun _ => ⟨head, hhead, ?_, by simp [hversion]⟩, ?_⟩
  · exact (hothers _ _ hother).trans (mainHead_of_heads hadds.heads _ _)
  · rw [hrevision]
    exact .root hadded hparents hbytes
  · rintro contents ⟨other, hother, -⟩
    rw [hnone] at hother
    cases hother

variable (lib) in
/-- A new revision with a stored content and one edge, and nothing else. -/
structure Links (t linked : ContentTables) (tenantId revisionId : String)
    (edge : CanvasRevisionParentRow) (bytes : Bytes) : Prop where
  documents : linked.documents = t.documents
  heads : linked.heads = t.heads
  keeps : Extends t.toRevisions linked.toRevisions
  closed : Closed linked.toRevisions
  parents : linked.parentsOf tenantId revisionId = [edge]
  added : ∃ revision, linked.findRevision tenantId revisionId = some revision ∧
    loadDatabaseGenerationBlob lib linked.blobs tenantId 32 revision.contentDigest = .ok bytes

theorem links_of_ok {linked : ContentTables} {edge : CanvasRevisionParentRow}
    (hclosed : Closed t.toRevisions) (hadds : AddsContent lib t middle tenantId revisionId bytes)
    (htenant : edge.tenantId = tenantId) (hrevision : edge.revisionId = revisionId)
    (hok : middle.addParent edge = .ok linked) :
    Links lib t linked tenantId revisionId edge bytes := by
  obtain ⟨hdocuments, hheads, hparents, hkeeps, hfresh, revision, hadded, hbytes⟩ := hadds
  simp only [ContentTables.addParent, bind_eq_ok, ensure_eq_ok, found_eq_ok, insertBy_eq_some, pure_eq_ok] at hok
  obtain ⟨_, -, _, -, parents, ⟨-, rfl⟩, rfl⟩ := hok
  have hparentsOf : ∀ anyTenant anyRevision,
      (middle.parents ++ [edge]).filter (fun row => decide (row.tenantId = anyTenant ∧
        row.revisionId = anyRevision)) =
      t.parentsOf anyTenant anyRevision ++
        if tenantId = anyTenant ∧ revisionId = anyRevision then [edge] else [] := by
    intro anyTenant anyRevision
    rw [List.filter_append, hparents, List.filter_singleton, Bool.cond_decide, htenant, hrevision]
    rfl
  have hold : ∀ {anyTenant anyRevision found},
      t.findRevision anyTenant anyRevision = some found →
        ¬ (tenantId = anyTenant ∧ revisionId = anyRevision) := by
    rintro anyTenant anyRevision found hfound ⟨rfl, rfl⟩
    rw [hfresh] at hfound
    cases hfound
  refine ⟨hdocuments, hheads, ⟨hkeeps.revisions, fun hfound => ?_, hkeeps.blobs⟩, ?_, ?_,
    revision, hadded, hbytes⟩
  · exact (hparentsOf _ _).trans (by rw [if_neg (hold hfound), List.append_nil])
  · intro row hrow
    rcases mem_snoc.mp hrow with hrow | rfl
    · rw [hparents] at hrow
      obtain ⟨found, hfound⟩ := hclosed row hrow
      exact ⟨found, hkeeps.revisions hfound⟩
    · exact ⟨revision, by rw [htenant, hrevision]; exact hadded⟩
  · refine (hparentsOf _ _).trans ?_
    rw [if_pos ⟨rfl, rfl⟩, hclosed.parentsOf_eq_nil hfresh, List.nil_append]

theorem materializes_next {linked : ContentTables} {updatedAt : String}
    (hclosed : Closed t.toRevisions) (hhead : t.mainHead tenantId docId = some head)
    (hnew : ∀ contents, Heads lib t tenantId docId contents → contents.head? ≠ some bytes)
    (hadds : AddsContent lib t middle tenantId revisionId bytes) (hlink : middle.addParent {
      tenantId := tenantId
      revisionId := revisionId
      parentRevisionId := head.revisionId
      parentOrder := 0 } = .ok linked)
    (hok : linked.advanceRevisionHead tenantId docId "main" head.headVersion revisionId
      updatedAt = .ok next) : Materializes lib t next tenantId docId bytes := by
  have hlinks := links_of_ok hclosed hadds rfl rfl hlink
  obtain ⟨other, hother, -, ⟨heads, rfl⟩, hmoved, hothers⟩ := putsHead_advanceRevisionHead hok
  obtain rfl : head = other := by
    rw [mainHead_of_heads hlinks.heads, hhead] at hother
    exact Option.some.inj hother
  have hkeeps := hlinks.keeps
  refine ⟨hlinks.documents, ⟨hkeeps.revisions, hkeeps.parents, hkeeps.blobs⟩, hlinks.closed,
    fun otherTenant otherDoc hne => ?_, ?_, ?_⟩
  · exact (hothers _ _ hne).trans (mainHead_of_heads hlinks.heads _ _)
  · intro hnone
    rw [hhead] at hnone
    cases hnone
  · intro contents hcontents _
    have hrecord : record contents bytes = bytes :: contents := if_neg (hnew contents hcontents)
    obtain ⟨found, hfound, hhistory, hversion⟩ := hcontents
    rw [hhead, Option.some.injEq] at hfound
    subst hfound
    rw [hrecord]
    obtain ⟨revision, hadded, hbytes⟩ := hlinks.added
    refine ⟨_, hmoved, ?_, ?_⟩
    · refine History.child hadded hlinks.parents hbytes (hhistory.mono ?_)
      exact ⟨hkeeps.revisions, hkeeps.parents, hkeeps.blobs⟩
    · simp [hversion]

theorem materializes_of_ok (hlib : lib.Inverts) {content createdAt : String}
    (hclosed : Closed t.toRevisions)
    (hok : materializeRevision lib loads t row content createdAt revisionId = .ok next)
    (hkey : row.key = (tenantId, docId)) :
    ∃ bytes, canonicalText lib loads content = some bytes ∧
      Materializes lib t next tenantId docId bytes := by
  obtain ⟨rfl, rfl⟩ := Prod.mk.inj hkey
  simp only [materializeRevision, bind_eq_ok, found_eq_ok, mapError_eq_ok] at hok
  obtain ⟨value, hvalue, encoded, hencoded, hok⟩ := hok
  obtain ⟨bytes, hcanonical, hsha, hadds⟩ := addsContent_of_ok hlib hvalue hencoded
  refine ⟨bytes, hcanonical, ?_⟩
  cases hhead : t.mainHead row.tenantId row.id with
  | none =>
      simp only [hhead, bind_eq_ok] at hok
      obtain ⟨middle, hmiddle, hok⟩ := hok
      exact materializes_first hclosed hhead (hadds hmiddle) rfl rfl rfl hok
  | some head =>
      simp only [hhead, bind_eq_ok, found_eq_ok] at hok
      obtain ⟨current, hcurrent, hok⟩ := hok
      have hnewest : ∀ contents, Heads lib t row.tenantId row.id contents →
          ∃ newest older, contents = newest :: older ∧
            lib.sha256 newest = current.contentDigest := by
        rintro contents ⟨other, hother, hhistory, -⟩
        rw [hhead, Option.some.injEq] at hother
        subst hother
        obtain ⟨revision, newest, older, hrevision, -, hnewest, rfl⟩ := hhistory.newest
        rw [hcurrent, Option.some.injEq] at hrevision
        subst hrevision
        exact ⟨newest, older, rfl, hnewest⟩
      split at hok
      next hdigest =>
        cases hok
        refine ⟨rfl, .refl _, hclosed, fun _ _ _ => rfl, fun hnone => ?_, ?_⟩
        · rw [hhead] at hnone
          cases hnone
        · intro contents hcontents hinjective
          obtain ⟨newest, older, rfl, hnewest⟩ := hnewest contents hcontents
          have hequal := hinjective newest rfl (by rw [hnewest, hdigest, hsha])
          rw [hequal, record, List.head?_cons, if_pos rfl, ← hequal]
          exact hcontents
      next hdigest =>
        simp only [bind_eq_ok] at hok
        obtain ⟨middle, hmiddle, linked, hlinked, hok⟩ := hok
        refine materializes_next hclosed hhead ?_ (hadds hmiddle) hlinked hok
        intro contents hcontents hequal
        obtain ⟨newest, older, rfl, hnewest⟩ := hnewest contents hcontents
        rw [List.head?_cons, Option.some.injEq] at hequal
        rw [hequal] at hnewest
        exact hdigest (hnewest.symm.trans hsha.symm)

/-! ## One save -/

theorem Heads.mono (hheads : Heads lib t tenantId docId contents)
    (hsame : next.mainHead tenantId docId = t.mainHead tenantId docId)
    (hextends : Extends t.toRevisions next.toRevisions) :
    Heads lib next tenantId docId contents := by
  obtain ⟨head, hhead, hhistory, hversion⟩ := hheads
  exact ⟨head, hsame.trans hhead, hhistory.mono hextends, hversion⟩

/-- What a load yields: the row, and its own text if there is no head. With a head, the text has
been read. -/
theorem load_eq_some {stored : VersionedDocumentContent}
    (hload : load lib loads t tenantId docId = .ok (some stored)) :
    t.findDocument tenantId docId = some stored.row ∧
      (t.mainHead stored.row.tenantId stored.row.id = none →
        stored.content = stored.row.payloadJson) ∧
      (t.mainHead stored.row.tenantId stored.row.id ≠ none →
        ∃ bytes, canonicalText lib loads stored.row.payloadJson = some bytes) := by
  unfold load at hload
  cases hrow : t.findDocument tenantId docId with
  | none =>
      rw [hrow] at hload
      nomatch hload
  | some row =>
      simp only [hrow, bind_eq_ok, pure_eq_ok, Option.some.injEq] at hload
      obtain ⟨restored, hrestored, content, hcontent, rfl⟩ := hload
      refine ⟨rfl, fun hnone => ?_, fun hsome => ?_⟩
      · rw [verifyRevisionProjection, hnone, verifyWith, Except.ok.injEq] at hrestored
        subst hrestored
        rw [contentText, Except.ok.injEq] at hcontent
        exact hcontent.symm
      · obtain ⟨head, hhead⟩ := Option.ne_none_iff_exists'.mp hsome
        simp only [verifyRevisionProjection, verifyWith, hhead, bind_eq_ok, found_eq_ok] at hrestored
        obtain ⟨_, -, _, -, bytes, hbytes, -⟩ := hrestored
        exact ⟨bytes, hbytes⟩

theorem load_eq_none (hload : load lib loads t tenantId docId = .ok none) :
    t.findDocument tenantId docId = none := by
  unfold load at hload
  cases hrow : t.findDocument tenantId docId with
  | none => rfl
  | some row =>
      simp only [hrow, bind_eq_ok, pure_eq_ok, reduceCtorEq, and_false,
        exists_const] at hload

end

variable (lib) in
def CollisionFree (contents : List Bytes) : Prop :=
  ∀ first ∈ contents, ∀ second ∈ contents, lib.sha256 first = lib.sha256 second → first = second

/-- A document is replaced or added, and the others stay. -/
structure Puts (t next : ContentTables) (row : DocumentRow) : Prop where
  revisions : next.toRevisions = t.toRevisions
  documents : ∀ tenantId docId, next.findDocument tenantId docId =
    if row.key = (tenantId, docId) then some row else t.findDocument tenantId docId

theorem puts_setDocument (t : ContentTables) (row : DocumentRow) : Puts t (t.setDocument row) row :=
  ⟨rfl, fun tenantId docId => findBy_upsertBy DocumentRow.key (tenantId, docId) row t.documents⟩

theorem Closed.setDocument (hclosed : Closed t.toRevisions) :
    Closed (t.setDocument row).toRevisions := hclosed

theorem puts_addDocument (hok : t.addDocument row = .ok next) : Puts t next row := by
  simp only [ContentTables.addDocument, bind_eq_ok, found_eq_ok, pure_eq_ok] at hok
  obtain ⟨documents, hinsert, rfl⟩ := hok
  exact ⟨rfl, fun tenantId docId => findBy_insertBy DocumentRow.key hinsert (tenantId, docId)⟩

theorem Puts.mainHead (hputs : Puts t next row) (tenantId docId : String) :
    next.mainHead tenantId docId = t.mainHead tenantId docId := by
  unfold ContentTables.mainHead
  rw [hputs.revisions]

variable (lib loads) in
/-- What a save does to its document, and that it leaves the others as they are. -/
structure Saves (t next : ContentTables) (call : SaveDocument) (bytes : Bytes) : Prop where
  keeps : Extends t.toRevisions next.toRevisions
  closed : Closed next.toRevisions
  others : ∀ tenantId docId, (tenantId, docId) ≠ (call.tenantId, call.docId) →
    next.mainHead tenantId docId = t.mainHead tenantId docId ∧
      next.findDocument tenantId docId = t.findDocument tenantId docId
  saved : ∃ row, next.findDocument call.tenantId call.docId = some row ∧
    row.payloadJson = call.content
  first : t.mainHead call.tenantId call.docId = none →
    ∃ legacy, ((t.findDocument call.tenantId call.docId).toList.map DocumentRow.payloadJson).mapM
        (canonicalText lib loads) = some legacy ∧
      (CollisionFree lib (legacy ++ [bytes]) →
        Heads lib next call.tenantId call.docId (successive (legacy ++ [bytes])))
  later : ∀ contents row, Heads lib t call.tenantId call.docId contents →
    t.findDocument call.tenantId call.docId = some row →
    canonicalText lib loads row.payloadJson = contents.head? →
    CollisionFree lib (contents ++ [bytes]) →
    Heads lib next call.tenantId call.docId (record contents bytes)

/-- The row that a save puts has its document's key and the text that was sent. -/
structure Writes (t next : ContentTables) (row : DocumentRow) (call : SaveDocument) : Prop
    extends Puts t next row where
  key : row.key = (call.tenantId, call.docId)
  payload : row.payloadJson = call.content

/-- A row is written, and its text becomes the newest content. -/
theorem Writes.materializes (hputs : Writes t middle row call)
    (hnext : Materializes lib middle next call.tenantId call.docId bytes) :
    Extends t.toRevisions next.toRevisions ∧ Closed next.toRevisions ∧
      (∀ tenantId docId, (tenantId, docId) ≠ (call.tenantId, call.docId) →
        next.mainHead tenantId docId = t.mainHead tenantId docId ∧
          next.findDocument tenantId docId = t.findDocument tenantId docId) ∧
      ∃ row, next.findDocument call.tenantId call.docId = some row ∧
        row.payloadJson = call.content := by
  have hdocuments : ∀ tenantId docId,
      next.findDocument tenantId docId = middle.findDocument tenantId docId := by
    intro tenantId docId
    unfold ContentTables.findDocument
    rw [hnext.documents]
  refine ⟨hputs.revisions ▸ hnext.keeps, hnext.closed, ?_, row, ?_, hputs.payload⟩
  · intro tenantId docId hother
    refine ⟨(hnext.others tenantId docId hother).trans (hputs.mainHead _ _), ?_⟩
    rw [hdocuments, hputs.documents, if_neg]
    exact fun hsame => hother (hsame.symm.trans hputs.key)
  · rw [hdocuments, hputs.documents, if_pos hputs.key]

theorem saves_same (hclosed : Closed t.toRevisions)
    (hhead : t.mainHead call.tenantId call.docId ≠ none)
    (hstored : t.findDocument call.tenantId call.docId = some stored) (hputs : Writes t middle row call)
    (hsame : stored.payloadJson = call.content)
    (hbytes : canonicalText lib loads call.content = some bytes) :
    Saves lib loads t middle call bytes := by
  have hkeeps : Extends t.toRevisions middle.toRevisions := by
    rw [hputs.revisions]
    exact .refl _
  refine ⟨hkeeps, hputs.revisions ▸ hclosed, ?_, ⟨row, ?_, hputs.payload⟩, ?_, ?_⟩
  · intro tenantId docId hother
    refine ⟨hputs.mainHead _ _, ?_⟩
    rw [hputs.documents, if_neg]
    exact fun hsame => hother (hsame.symm.trans hputs.key)
  · rw [hputs.documents, if_pos hputs.key]
  · exact fun hnone => absurd hnone hhead
  · intro contents found hheads hfound hnewest _
    rw [hstored, Option.some.injEq] at hfound
    subst hfound
    rw [hsame, hbytes] at hnewest
    rw [record, if_pos hnewest.symm]
    exact hheads.mono (hputs.mainHead _ _) hkeeps

theorem saves_same_legacy (hstored : t.findDocument call.tenantId call.docId = some stored)
    (hnone : t.mainHead call.tenantId call.docId = none)
    (hlegacy : canonicalText lib loads stored.payloadJson = some bytes)
    (hnext : Materializes lib middle next call.tenantId call.docId bytes)
    (hputs : Writes t middle row call) : Saves lib loads t next call bytes := by
  obtain ⟨hkeeps, hclosed, hothers, hsaved⟩ := hputs.materializes hnext
  refine ⟨hkeeps, hclosed, hothers, hsaved, fun _ => ?_, ?_⟩
  · have honce : successive ([bytes] ++ [bytes]) = [bytes] := by simp [successive, record]
    refine ⟨[bytes], by simp [hstored, hlegacy], fun _ => ?_⟩
    rw [honce]
    exact hnext.first ((hputs.mainHead _ _).trans hnone)
  · rintro contents _ ⟨head, hhead, -⟩
    rw [hnone] at hhead
    nomatch hhead

theorem saves_changed (hhead : t.mainHead call.tenantId call.docId ≠ none)
    (hnext : Materializes lib middle next call.tenantId call.docId bytes)
    (hputs : Writes t middle row call) : Saves lib loads t next call bytes := by
  obtain ⟨hkeeps, hclosed, hothers, hsaved⟩ := hputs.materializes hnext
  refine ⟨hkeeps, hclosed, hothers, hsaved, fun hnone => absurd hnone hhead, ?_⟩
  intro contents _ hheads _ _ hfree
  have hmiddle : Heads lib middle call.tenantId call.docId contents :=
    hheads.mono (hputs.mainHead _ _) (by rw [hputs.revisions]; exact .refl _)
  refine hnext.later contents hmiddle fun newest hnewest hsha => ?_
  refine hfree newest ?_ bytes (by simp) hsha
  exact List.mem_append_left _ (List.mem_of_mem_head? hnewest)

theorem saves_legacy {first : ContentTables} {legacy : Bytes}
    (hstored : t.findDocument call.tenantId call.docId = some stored)
    (hnone : t.mainHead call.tenantId call.docId = none)
    (hlegacy : canonicalText lib loads stored.payloadJson = some legacy)
    (hfirst : Materializes lib t first call.tenantId call.docId legacy)
    (hnext : Materializes lib middle next call.tenantId call.docId bytes)
    (hputs : Writes first middle row call) : Saves lib loads t next call bytes := by
  obtain ⟨hkeeps, hclosed, hothers, hsaved⟩ := hputs.materializes hnext
  refine ⟨hfirst.keeps.trans hkeeps, hclosed, ?_, hsaved, fun _ => ?_, ?_⟩
  · intro tenantId docId hother
    obtain ⟨hmain, hdocument⟩ := hothers tenantId docId hother
    refine ⟨hmain.trans (hfirst.others tenantId docId hother), hdocument.trans ?_⟩
    unfold ContentTables.findDocument
    rw [hfirst.documents]
  · refine ⟨[legacy], by simp [hstored, hlegacy], fun hfree => ?_⟩
    have hmiddle : Heads lib middle call.tenantId call.docId [legacy] :=
      (hfirst.first hnone).mono (hputs.mainHead _ _) (by rw [hputs.revisions]; exact .refl _)
    refine hnext.later [legacy] hmiddle fun newest hnewest hsha => ?_
    obtain rfl := Option.some.inj hnewest
    exact hfree legacy (by simp) bytes (by simp) hsha
  · rintro contents _ ⟨head, hhead, -⟩
    rw [hnone] at hhead
    nomatch hhead

theorem saves_of_ok (hlib : lib.Inverts) (hclosed : Closed t.toRevisions)
    (hok : save lib loads t call = .ok (answer, next)) :
    ∃ bytes, canonicalText lib loads call.content = some bytes ∧
      Saves lib loads t next call bytes := by
  simp only [save, bind_eq_ok] at hok
  obtain ⟨stored, hload, hok⟩ := hok
  cases stored with
  | none =>
      have hnone := load_eq_none hload
      simp only [bind_eq_ok, pure_eq_ok, Prod.mk.injEq] at hok
      obtain ⟨middle, hmiddle, _, hnext, -, rfl⟩ := hok
      have hputs : Writes t middle _ call := ⟨puts_addDocument hmiddle, rfl, rfl⟩
      obtain ⟨bytes, hbytes, hmaterializes⟩ :=
        materializes_of_ok hlib (hputs.revisions ▸ hclosed) hnext rfl
      obtain ⟨hkeeps, hnextClosed, hothers, hsaved⟩ := hputs.materializes hmaterializes
      refine ⟨bytes, hbytes, hkeeps, hnextClosed, hothers, hsaved, ?_, ?_⟩
      · intro hhead
        refine ⟨[], by rw [hnone]; rfl, fun _ => ?_⟩
        exact hmaterializes.first ((hputs.mainHead _ _).trans hhead)
      · intro contents row _ hrow
        rw [hnone] at hrow
        cases hrow
  | some stored =>
      obtain ⟨hrow, hcontent, hread⟩ := load_eq_some hload
      have hkey : stored.row.key = (call.tenantId, call.docId) := (findBy_eq_some _ hrow).2
      obtain ⟨htenant, hid⟩ := Prod.mk.inj hkey
      rw [htenant, hid] at hcontent hread
      simp only [pure, Except.pure] at hok
      split at hok
      next hpayload =>
        split at hok
        next hnone =>
          rw [Option.isNone_iff_eq_none] at hnone
          simp only [bind_eq_ok, Except.ok.injEq, Prod.mk.injEq] at hok
          obtain ⟨_, hnext, -, rfl⟩ := hok
          obtain ⟨bytes, hbytes, hmaterializes⟩ := materializes_of_ok hlib hclosed.setDocument hnext hkey
          exact ⟨bytes, hbytes, saves_same_legacy hrow hnone (hpayload ▸ hbytes) hmaterializes
            ⟨puts_setDocument t _, hkey, hpayload⟩⟩
        next hsome =>
          rw [Option.isNone_iff_eq_none] at hsome
          simp only [bind_eq_ok, Except.ok.injEq, Prod.mk.injEq] at hok
          obtain ⟨_, rfl, -, rfl⟩ := hok
          obtain ⟨bytes, hbytes⟩ := hread hsome
          rw [hpayload] at hbytes
          exact ⟨bytes, hbytes, saves_same hclosed hsome hrow
            ⟨puts_setDocument t _, hkey, hpayload⟩ hpayload hbytes⟩
      next hpayload =>
        split at hok
        next hnone =>
          rw [Option.isNone_iff_eq_none] at hnone
          simp only [bind_eq_ok, Except.ok.injEq, Prod.mk.injEq] at hok
          obtain ⟨first, hfirst, _, hnext, -, rfl⟩ := hok
          obtain ⟨legacy, hlegacy, hmaterializesFirst⟩ :=
            materializes_of_ok hlib hclosed hfirst hkey
          rw [hcontent hnone] at hlegacy
          obtain ⟨bytes, hbytes, hmaterializes⟩ :=
            materializes_of_ok hlib hmaterializesFirst.closed.setDocument hnext hkey
          exact ⟨bytes, hbytes, saves_legacy hrow hnone hlegacy hmaterializesFirst hmaterializes
            ⟨puts_setDocument first _, hkey, rfl⟩⟩
        next hsome =>
          rw [Option.isNone_iff_eq_none] at hsome
          simp only [bind_eq_ok, Except.ok.injEq, Prod.mk.injEq] at hok
          obtain ⟨_, rfl, _, hnext, -, rfl⟩ := hok
          obtain ⟨bytes, hbytes, hmaterializes⟩ := materializes_of_ok hlib hclosed.setDocument hnext hkey
          exact ⟨bytes, hbytes, saves_changed hsome hmaterializes ⟨puts_setDocument t _, hkey, rfl⟩⟩

theorem load_of_no_head {tenantId docId : String} (hnone : t.mainHead tenantId docId = none) :
    load lib loads t tenantId docId =
      .ok ((t.findDocument tenantId docId).map fun row => ⟨row, row.payloadJson⟩) := by
  unfold load
  cases hrow : t.findDocument tenantId docId with
  | none => rfl
  | some row =>
      obtain ⟨htenant, hid⟩ := Prod.mk.inj (findBy_eq_some _ hrow).2
      simp only [verifyRevisionProjection, verifyWith, htenant, hid, hnone]
      rfl

theorem load_of_heads {tenantId docId : String} (hheads : Heads lib t tenantId docId contents)
    (hrow : t.findDocument tenantId docId = some row)
    (hpayload : canonicalText lib loads row.payloadJson = contents.head?) :
    ∃ text, load lib loads t tenantId docId = .ok (some ⟨row, text⟩) ∧
      contents.head? = some (Py.utf8 text.toList) := by
  obtain ⟨head, hhead, hhistory, -⟩ := hheads
  obtain ⟨revision, bytes, older, hrevision, hbytes, -, rfl⟩ := hhistory.newest
  rw [List.head?_cons] at hpayload
  obtain ⟨chars, rfl⟩ : ∃ chars, bytes = Py.utf8 chars := by
    simp only [canonicalText, Option.bind_eq_bind, Option.bind_eq_some_iff] at hpayload
    obtain ⟨value, -, hvalue⟩ := hpayload
    cases hdumps : Py.dumps lib.floats value with
    | none => simp [canonicalJsonBytes, hdumps, found, Except.toOption] at hvalue
    | some chars =>
        simp only [canonicalJsonBytes, hdumps, found, Option.map_some, Except.toOption,
          Option.some.injEq] at hvalue
        exact ⟨chars, hvalue.symm⟩
  obtain ⟨htenant, hid⟩ := Prod.mk.inj (findBy_eq_some _ hrow).2
  refine ⟨.ofList chars, ?_, by rw [List.head?_cons, String.toList_ofList]⟩
  simp only [load, hrow, bind_eq_ok]
  refine ⟨some (Py.utf8 chars), ?_, .ofList chars, ?_, rfl⟩
  · rw [verifyRevisionProjection, verifyWith.eq_def, htenant, hid, hhead]
    simp [bind_eq_ok, hrevision, hbytes, hpayload, pure, Except.pure]
  · simp [contentText, Py.utf8Decode_utf8]

/-! ## Runs of saves -/

/-- Documents that were stored without revisions. -/
def legacyTables (documents : List DocumentRow) : ContentTables where
  blobs := []
  revisions := []
  parents := []
  heads := []
  documents := documents

section Texts

variable (journal : List (SaveDocument × VersionedDocumentContent)) (tenantId docId : String)

def savedTexts : List String :=
  (journal.filter fun entry => entry.1.tenantId = tenantId ∧ entry.1.docId = docId).map
    fun entry => entry.1.content

/-- The texts of a document in order, with the one that it had at the start. -/
def textsOf (documents : List DocumentRow) : List String :=
  ((legacyTables documents).findDocument tenantId docId).toList.map DocumentRow.payloadJson ++
    savedTexts journal tenantId docId

theorem savedTexts_snoc (entry : SaveDocument × VersionedDocumentContent) :
    savedTexts (journal ++ [entry]) tenantId docId =
      savedTexts journal tenantId docId ++
        if entry.1.tenantId = tenantId ∧ entry.1.docId = docId then [entry.1.content] else [] := by
  unfold savedTexts
  rw [List.filter_append, List.map_append, List.filter_singleton, Bool.cond_decide]
  split <;> rfl

end Texts

theorem head?_successive (contents : List Bytes) :
    (successive contents).head? = contents.getLast? := by
  induction contents using List.reverseRecOn with
  | nil => rfl
  | append_singleton contents bytes _ =>
      rw [successive_snoc, head?_record, List.getLast?_append, List.getLast?_singleton,
        Option.some_or]

theorem mem_of_mem_successive (hmem : bytes ∈ successive contents) : bytes ∈ contents := by
  induction contents using List.reverseRecOn with
  | nil => exact hmem
  | append_singleton contents newest ih =>
      rw [successive_snoc, record] at hmem
      split at hmem
      next => exact List.mem_append_left _ (ih hmem)
      next =>
        rcases List.mem_cons.mp hmem with rfl | hmem
        · simp
        · exact List.mem_append_left _ (ih hmem)

theorem CollisionFree.of_subset {others : List Bytes} (hfree : CollisionFree lib contents)
    (hsubset : ∀ bytes ∈ others, bytes ∈ contents) : CollisionFree lib others :=
  fun first hfirst second hsecond => hfree first (hsubset first hfirst) second
    (hsubset second hsecond)

variable (lib loads) in
def Follows (documents : List DocumentRow) (tenantId docId : String)
    (run : Run ContentTables SaveDocument VersionedDocumentContent) : Prop :=
  (savedTexts run.journal tenantId docId = [] ∧
    run.state.findDocument tenantId docId = (legacyTables documents).findDocument tenantId docId ∧
    run.state.mainHead tenantId docId = none) ∨
  savedTexts run.journal tenantId docId ≠ [] ∧
  ∃ contents row,
    (textsOf run.journal tenantId docId documents).mapM (canonicalText lib loads) = some contents ∧
    (CollisionFree lib contents → Heads lib run.state tenantId docId (successive contents)) ∧
    run.state.findDocument tenantId docId = some row ∧
    canonicalText lib loads row.payloadJson = contents.getLast?

theorem follows_saved (hfollows : Follows lib loads documents call.tenantId call.docId run)
    (hbytes : canonicalText lib loads call.content = some bytes)
    (hsaves : Saves lib loads run.state next call bytes) :
    Follows lib loads documents call.tenantId call.docId
      ⟨run.journal ++ [(call, answer)], next⟩ := by
  have hsnoc : savedTexts (run.journal ++ [(call, answer)]) call.tenantId call.docId =
      savedTexts run.journal call.tenantId call.docId ++ [call.content] := by
    rw [savedTexts_snoc, if_pos ⟨rfl, rfl⟩]
  have htexts : textsOf (run.journal ++ [(call, answer)]) call.tenantId call.docId documents =
      textsOf run.journal call.tenantId call.docId documents ++ [call.content] := by
    rw [textsOf, hsnoc, textsOf, List.append_assoc]
  obtain ⟨row, hrow, hpayload⟩ := hsaves.saved
  have hread : ∀ contents, canonicalText lib loads row.payloadJson =
      (contents ++ [bytes]).getLast? := by
    intro contents
    rw [hpayload, hbytes, List.getLast?_append, List.getLast?_singleton, Option.some_or]
  have hmapM : ∀ {contents}, (textsOf run.journal call.tenantId call.docId documents).mapM
      (canonicalText lib loads) = some contents →
      (textsOf (run.journal ++ [(call, answer)]) call.tenantId call.docId documents).mapM
        (canonicalText lib loads) = some (contents ++ [bytes]) := by
    intro contents hcontents
    rw [htexts, List.mapM_append, hcontents]
    simp [hbytes]
  refine Or.inr ⟨by rw [hsnoc]; simp, ?_⟩
  obtain ⟨hempty, hdocument, hnone⟩ | ⟨-, contents, stored, hcontents, hheads, hstored, hnewest⟩ :=
    hfollows
  · obtain ⟨legacy, hlegacy, hheads⟩ := hsaves.first hnone
    refine ⟨legacy ++ [bytes], row, hmapM ?_, hheads, hrow, hread legacy⟩
    rw [textsOf, hempty, List.append_nil, ← hdocument, hlegacy]
  · refine ⟨contents ++ [bytes], row, hmapM hcontents, fun hfree => ?_, hrow, hread contents⟩
    rw [successive_snoc]
    refine hsaves.later _ stored ?_ hstored (hnewest.trans (head?_successive contents).symm) ?_
    · exact hheads (hfree.of_subset fun _ hmem => List.mem_append_left _ hmem)
    · apply hfree.of_subset
      intro other hmem
      rcases List.mem_append.mp hmem with hmem | hmem
      · exact List.mem_append_left _ (mem_of_mem_successive hmem)
      · exact List.mem_append_right _ hmem

theorem follows_other {tenantId docId : String}
    (hother : (tenantId, docId) ≠ (call.tenantId, call.docId))
    (hfollows : Follows lib loads documents tenantId docId run)
    (hsaves : Saves lib loads run.state next call bytes) :
    Follows lib loads documents tenantId docId ⟨run.journal ++ [(call, answer)], next⟩ := by
  obtain ⟨hmain, hdocument⟩ := hsaves.others tenantId docId hother
  have hsame : savedTexts (run.journal ++ [(call, answer)]) tenantId docId =
      savedTexts run.journal tenantId docId := by
    rw [savedTexts_snoc, if_neg, List.append_nil]
    rintro ⟨rfl, rfl⟩
    exact hother rfl
  unfold Follows textsOf
  rw [hsame, hmain, hdocument]
  obtain hstart | ⟨hsaved, contents, row, hcontents, hheads, hrow⟩ := hfollows
  · exact Or.inl hstart
  · exact Or.inr ⟨hsaved, contents, row, hcontents,
      fun hfree => (hheads hfree).mono hmain hsaves.keeps, hrow⟩

theorem runCalls_follows (hlib : lib.Inverts) (documents : List DocumentRow)
    (calls : List SaveDocument) (tenantId docId : String) :
    Follows lib loads documents tenantId docId
      (runCalls (save lib loads) (legacyTables documents) calls) := by
  have hrun : Closed (runCalls (save lib loads) (legacyTables documents) calls).state.toRevisions ∧
      Follows lib loads documents tenantId docId
        (runCalls (save lib loads) (legacyTables documents) calls) := by
    apply runCalls_induction (P := fun run => Closed run.state.toRevisions ∧
      Follows lib loads documents tenantId docId run)
    · exact ⟨by simp [Closed, legacyTables], Or.inl ⟨rfl, rfl, rfl⟩⟩
    · rintro run call answer next ⟨hclosed, hfollows⟩ hserve
      obtain ⟨bytes, hbytes, hsaves⟩ := saves_of_ok hlib hclosed hserve
      refine ⟨hsaves.closed, ?_⟩
      by_cases hsame : (tenantId, docId) = (call.tenantId, call.docId)
      · cases hsame
        exact follows_saved hfollows hbytes hsaves
      · exact follows_other hsame hfollows hsaves
  exact hrun.2

variable (lib loads) in
/-- No two of the texts have different canonical bytes with one digest. -/
def TextsCollisionFree (texts : List String) : Prop :=
  ∀ first ∈ texts, ∀ second ∈ texts, ∀ bytes others,
    canonicalText lib loads first = some bytes → canonicalText lib loads second = some others →
    lib.sha256 bytes = lib.sha256 others → bytes = others

theorem textsOf_subset (documents : List DocumentRow) (calls : List SaveDocument)
    (tenantId docId : String) :
    ∀ text ∈ textsOf (runCalls (save lib loads) (legacyTables documents) calls).journal
        tenantId docId documents,
      text ∈ documents.map DocumentRow.payloadJson ++ calls.map SaveDocument.content := by
  intro text htext
  rcases List.mem_append.mp htext with hlegacy | hsaved
  · obtain ⟨row, hrow, rfl⟩ := List.mem_map.mp hlegacy
    have hmem := (findBy_eq_some _ (Option.mem_toList.mp hrow)).1
    exact List.mem_append_left _ (List.mem_map_of_mem hmem)
  · obtain ⟨entry, hentry, rfl⟩ := List.mem_map.mp hsaved
    have hcall : entry.1 ∈ calls :=
      (journal_sublist _ _).subset (List.mem_map_of_mem (List.mem_filter.mp hentry).1)
    exact List.mem_append_right _ (List.mem_map_of_mem hcall)

/-- After every run of saves, a document without a save is loaded as it was; one that was saved is
loaded as the canonical text of the last content, and its main head has as history the distinct
successive contents, behind them the one it had at the start. -/
theorem projection_follows_head (hlib : lib.Inverts) (documents : List DocumentRow)
    (calls : List SaveDocument)
    (hfree : TextsCollisionFree lib loads
      (documents.map DocumentRow.payloadJson ++ calls.map SaveDocument.content))
    (tenantId docId : String) :
    let run := runCalls (save lib loads) (legacyTables documents) calls
    (savedTexts run.journal tenantId docId = [] →
      load lib loads run.state tenantId docId =
        .ok (((legacyTables documents).findDocument tenantId docId).map
          fun row => ⟨row, row.payloadJson⟩)) ∧
    (savedTexts run.journal tenantId docId ≠ [] → ∃ contents row text head,
      (textsOf run.journal tenantId docId documents).mapM (canonicalText lib loads) =
          some contents ∧
        load lib loads run.state tenantId docId = .ok (some ⟨row, text⟩) ∧
        contents.getLast? = some (Py.utf8 text.toList) ∧
        run.state.mainHead tenantId docId = some head ∧
        History lib run.state.toRevisions tenantId head.revisionId (successive contents) ∧
        head.headVersion = (successive contents).length) := by
  intro run
  have hfollows : Follows lib loads documents tenantId docId run :=
    runCalls_follows hlib documents calls tenantId docId
  obtain ⟨hempty, hdocument, hnone⟩ | ⟨hsaved, contents, row, hcontents, hheads, hrow, hnewest⟩ :=
    hfollows
  · refine ⟨fun _ => ?_, fun hsaved => absurd hempty hsaved⟩
    rw [load_of_no_head hnone, hdocument]
  · refine ⟨fun hempty => absurd hempty hsaved, fun _ => ?_⟩
    have hsource := forall_of_mapM (P := fun bytes => ∃ text ∈
        documents.map DocumentRow.payloadJson ++ calls.map SaveDocument.content,
        canonicalText lib loads text = some bytes) hcontents
      (fun text htext bytes hbytes =>
        ⟨text, textsOf_subset documents calls tenantId docId text htext, hbytes⟩)
    have hcontentsFree : CollisionFree lib contents := by
      intro first hfirst second hsecond hsha
      obtain ⟨firstText, hfirstText, hfirst⟩ := hsource first hfirst
      obtain ⟨secondText, hsecondText, hsecond⟩ := hsource second hsecond
      exact hfree firstText hfirstText secondText hsecondText first second hfirst hsecond hsha
    have hheads := hheads hcontentsFree
    obtain ⟨text, hload, hlast⟩ :=
      load_of_heads hheads hrow (hnewest.trans (head?_successive contents).symm)
    obtain ⟨head, hhead, hhistory, hversion⟩ := hheads
    exact ⟨contents, row, text, head, hcontents, hload, (head?_successive contents).symm.trans hlast,
      hhead, hhistory, hversion⟩

/-! ## A legacy document -/

namespace LegacyDocument

/-- A library that also knows how `"a"` is compressed. -/
def library : Library Unit Rat :=
  { AtTheBound.library with
    compress := fun bytes =>
      if bytes = SmallLibrary.a then AtTheBound.compressedA
      else SmallLibrary.library.compress bytes }

theorem library_inverts : library.Inverts where
  gzip bytes := by
    by_cases ha : bytes = SmallLibrary.a
    · subst ha
      decide +kernel
    · have hcompress : library.compress bytes = SmallLibrary.library.compress bytes := if_neg ha
      have hknown : SmallLibrary.library.compress bytes ≠ AtTheBound.compressedA ∧
          SmallLibrary.library.compress bytes ≠ AtTheBound.compressedEnvelope := by
        change (if bytes = SmallLibrary.b then _ else _) ≠ _ ∧
          (if bytes = SmallLibrary.b then _ else _) ≠ _
        split
        next => decide +kernel
        next =>
          split
          next => decide +kernel
          next => exact ⟨nofun, nofun⟩
      rw [hcompress]
      refine ((if_neg hknown.1).trans (if_neg hknown.2)).trans ?_
      exact SmallLibrary.library_inverts.gzip bytes
  base64 bytes := by
    have hknown : SmallLibrary.library.b64encode bytes ≠ "Yw==" := by
      change (if bytes = [98] then _ else _) ≠ _
      split
      next => decide
      next =>
        intro heq
        have hlist := congrArg String.toList heq
        rw [String.toList_ofList] at hlist
        nomatch (List.cons.inj hlist).1
    exact (if_neg hknown).trans (SmallLibrary.library_inverts.base64 bytes)

def readJson (text : String) : Option (Json Unit) := Py.loads library.floats text.toList

def document : DocumentRow where
  tenantId := "t"
  id := "d"
  version := 1
  updatedAt := "2026-01-01T00:00:00Z"
  payloadJson := " \"a\""
  createdBy := none

def saveB : SaveDocument where
  tenantId := "t"
  docId := "d"
  version := 1
  updatedAt := "2026-01-02T00:00:00Z"
  content := "\"b\""
  createdBy := none
  legacyRevisionId := "r1"
  revisionId := "r2"

theorem canonical_a : canonicalText library readJson " \"a\"" = some SmallLibrary.a := by
  decide +kernel

theorem canonical_b : canonicalText library readJson "\"b\"" = some SmallLibrary.b := by
  decide +kernel

theorem collisionFree {texts : List String}
    (htexts : ∀ text ∈ texts, text = " \"a\"" ∨ text = "\"b\"") :
    TextsCollisionFree library readJson texts := by
  have hdistinct : library.sha256 SmallLibrary.a ≠ library.sha256 SmallLibrary.b := by
    decide +kernel
  have hcases : ∀ text ∈ texts, ∀ bytes, canonicalText library readJson text = some bytes →
      bytes = SmallLibrary.a ∨ bytes = SmallLibrary.b := by
    intro text htext bytes hbytes
    rcases htexts text htext with rfl | rfl
    · exact Or.inl (Option.some.inj (hbytes.symm.trans canonical_a))
    · exact Or.inr (Option.some.inj (hbytes.symm.trans canonical_b))
  intro first hfirst second hsecond bytes others hbytes hothers hsha
  rcases hcases first hfirst bytes hbytes with rfl | rfl
  · rcases hcases second hsecond others hothers with rfl | rfl
    · rfl
    · exact absurd hsha hdistinct
  · rcases hcases second hsecond others hothers with rfl | rfl
    · exact absurd hsha.symm hdistinct
    · rfl

/-- After one save the legacy document has two contents. -/
theorem follows_b :
    ∃ contents row text head,
      (textsOf (runCalls (save library readJson) (legacyTables [document]) [saveB]).journal
          "t" "d" [document]).mapM (canonicalText library readJson) = some contents ∧
        load library readJson
          (runCalls (save library readJson) (legacyTables [document]) [saveB]).state "t" "d" =
            .ok (some ⟨row, text⟩) ∧
        contents.getLast? = some (Py.utf8 text.toList) ∧
        (runCalls (save library readJson) (legacyTables [document]) [saveB]).state.mainHead
          "t" "d" = some head ∧
        History library
          (runCalls (save library readJson) (legacyTables [document]) [saveB]).state.toRevisions
          "t" head.revisionId (successive contents) ∧
        head.headVersion = (successive contents).length :=
  (projection_follows_head library_inverts [document] [saveB]
    (collisionFree (by simp [document, saveB])) "t" "d").2 (by decide +kernel)

end LegacyDocument

end KjAtlas.Generation
