import KjAtlas.Generations.Pruning

/-! # What pruning retains

A revision is doomed if it is ephemeral, old enough, and every path from a root
to it carries more ephemeral revisions than are kept. Pruning a history without
missing parents and without cycles deletes the doomed revisions and the edges
at them, and records each deletion.
-/

namespace KjAtlas.Generation

open HistoryTables

section Specification

variable (t : HistoryTables) (tenantId : String)

/-- A durable revision, a source, a head or a pin. -/
def IsRoot (revisionId : String) : Prop :=
  (∃ row ∈ t.revisions, row.tenantId = tenantId ∧ row.revisionId = revisionId ∧
      row.generationTier ≠ .ephemeral) ∨
    (∃ row ∈ t.revisions, row.tenantId = tenantId ∧ row.sourceRevisionId = some revisionId) ∨
    (∃ head ∈ t.heads, head.tenantId = tenantId ∧ head.revisionId = revisionId) ∨
    ∃ pin ∈ t.pins, pin.tenantId = tenantId ∧ pin.revisionId = revisionId

/-- A path from a root leads to a revision, and carries a number of ephemeral revisions, both ends
counted. -/
inductive RootPath : String → Nat → Prop
  | root {revisionId : String} (hroot : IsRoot t tenantId revisionId)
      (hknown : (t.findRevision tenantId revisionId).isSome) :
      RootPath revisionId (t.ephemeralCount tenantId revisionId)
  | parent {edge : CanvasRevisionParentRow} {count : Nat} (hedge : edge ∈ t.parents)
      (htenant : edge.tenantId = tenantId) (hpath : RootPath edge.revisionId count) :
      RootPath edge.parentRevisionId (count + t.ephemeralCount tenantId edge.parentRevisionId)

/-- A revision is deleted: no root reaches it with few enough ephemeral revisions. -/
def Doomed (olderThan : String) (keepPerRoot : Int) (revisionId : String) : Prop :=
  ∃ row ∈ t.revisions, row.tenantId = tenantId ∧ row.revisionId = revisionId ∧
    row.generationTier = .ephemeral ∧ row.createdAt < olderThan ∧
    ∀ count, RootPath t tenantId revisionId count → keepPerRoot < count

def IsParent (child parent : String) : Prop :=
  ∃ edge ∈ t.parents, edge.tenantId = tenantId ∧ edge.revisionId = child ∧
    edge.parentRevisionId = parent

/-- The history of a tenant: revisions under their keys, no missing parents, no cycles, and no
source without a name. -/
structure WellFormed : Prop where
  keys : (t.revisions.map CanvasRevisionRow.key).Nodup
  parents : ∀ edge ∈ t.parents, edge.tenantId = tenantId →
    (t.findRevision tenantId edge.parentRevisionId).isSome
  acyclic : ∀ revisionId, ¬ Relation.TransGen (IsParent t tenantId) revisionId revisionId
  sources : ∀ row ∈ t.revisions, row.tenantId = tenantId → row.sourceRevisionId ≠ some ""

end Specification

variable {t : HistoryTables} {tenantId : String}

theorem mem_tenantRevisions {row : CanvasRevisionRow} :
    row ∈ t.tenantRevisions tenantId ↔ row ∈ t.revisions ∧ row.tenantId = tenantId := by
  simp [tenantRevisions]

theorem mem_parentIds {child parent : String} :
    parent ∈ t.parentIds tenantId child ↔ IsParent t tenantId child parent := by
  simp only [parentIds, tenantParents, List.mem_map, List.mem_filter, decide_eq_true_eq, IsParent]
  constructor
  · rintro ⟨edge, ⟨⟨hedge, htenant⟩, hchild⟩, hparent⟩
    exact ⟨edge, hedge, htenant, hchild, hparent⟩
  · rintro ⟨edge, hedge, htenant, hchild, hparent⟩
    exact ⟨edge, ⟨⟨hedge, htenant⟩, hchild⟩, hparent⟩

variable {revisionId : String} {candidates : List String}

theorem findRevision_isSome :
    (t.findRevision tenantId revisionId).isSome ↔
      revisionId ∈ (t.tenantRevisions tenantId).map CanvasRevisionRow.revisionId := by
  unfold findRevision
  rw [findBy_isSome]
  simp only [List.mem_map, mem_tenantRevisions, CanvasRevisionRow.key, Prod.mk.injEq]
  constructor
  · rintro ⟨row, hrow, htenant, hrevision⟩
    exact ⟨row, ⟨hrow, htenant⟩, hrevision⟩
  · rintro ⟨row, ⟨hrow, htenant⟩, hrevision⟩
    exact ⟨row, hrow, htenant, hrevision⟩

theorem mem_knownRoots (hwf : WellFormed t tenantId) :
    revisionId ∈ t.knownRoots tenantId ↔
      IsRoot t tenantId revisionId ∧ (t.findRevision tenantId revisionId).isSome := by
  have hsources : (∃ row, (row ∈ t.revisions ∧ row.tenantId = tenantId) ∧
        row.sourceRevisionId.filter (fun source => decide (source ≠ "")) = some revisionId) ↔
      ∃ row ∈ t.revisions, row.tenantId = tenantId ∧ row.sourceRevisionId = some revisionId := by
    constructor
    · rintro ⟨row, ⟨hrow, htenant⟩, hsource⟩
      exact ⟨row, hrow, htenant, (Option.filter_eq_some_iff.mp hsource).1⟩
    · rintro ⟨row, hrow, htenant, hsource⟩
      refine ⟨row, ⟨hrow, htenant⟩, Option.filter_eq_some_iff.mpr ⟨hsource, ?_⟩⟩
      rw [decide_eq_true_eq]
      rintro rfl
      exact hwf.sources row hrow htenant hsource
  simp only [knownRoots, roots, List.mem_filter, List.mem_dedup, List.mem_append, List.mem_map,
    List.mem_filterMap, mem_tenantRevisions, decide_eq_true_eq, IsRoot, hsources]
  refine and_congr_left fun _ => ?_
  constructor
  · rintro (((⟨row, ⟨⟨hrow, htenant⟩, htier⟩, hrevision⟩ | hsource) | ⟨head, ⟨hhead, htenant⟩, hid⟩) |
      ⟨pin, ⟨hpin, htenant⟩, hid⟩)
    · exact Or.inl ⟨row, hrow, htenant, hrevision, htier⟩
    · exact Or.inr (Or.inl hsource)
    · exact Or.inr (Or.inr (Or.inl ⟨head, hhead, htenant, hid⟩))
    · exact Or.inr (Or.inr (Or.inr ⟨pin, hpin, htenant, hid⟩))
  · rintro (⟨row, hrow, htenant, hrevision, htier⟩ | hsource | ⟨head, hhead, htenant, hid⟩ |
      ⟨pin, hpin, htenant, hid⟩)
    · exact Or.inl (Or.inl (Or.inl ⟨row, ⟨⟨hrow, htenant⟩, htier⟩, hrevision⟩))
    · exact Or.inl (Or.inl (Or.inr hsource))
    · exact Or.inl (Or.inr ⟨head, ⟨hhead, htenant⟩, hid⟩)
    · exact Or.inr ⟨pin, ⟨hpin, htenant⟩, hid⟩

theorem carries_iff (hwf : WellFormed t tenantId) {count : Nat} :
    LabelSearch.Carries (t.knownRoots tenantId) (t.parentIds tenantId) (t.ephemeralCount tenantId)
        revisionId count ↔ RootPath t tenantId revisionId count := by
  constructor
  · intro hcarries
    induction hcarries with
    | root hroot =>
        obtain ⟨hroot, hknown⟩ := (mem_knownRoots hwf).mp hroot
        exact .root hroot hknown
    | edge _ hedge ih =>
        obtain ⟨edge, hmem, htenant, rfl, rfl⟩ := mem_parentIds.mp hedge
        exact .parent hmem htenant ih
  · intro hpath
    induction hpath with
    | root hroot hknown => exact .root ((mem_knownRoots hwf).mpr ⟨hroot, hknown⟩)
    | parent hedge htenant _ ih => exact ih.edge (mem_parentIds.mpr ⟨_, hedge, htenant, rfl, rfl⟩)

theorem ephemeralCount_le (revisionId : String) : t.ephemeralCount tenantId revisionId ≤ 1 := by
  unfold ephemeralCount
  split <;> omega

/-- The search ends, and retains what a root reaches with few enough ephemeral revisions. -/
theorem retainedRevisions_eq_ok (hwf : WellFormed t tenantId) (keepPerRoot : Nat) :
    ∃ retained, t.retainedRevisions tenantId keepPerRoot = .ok retained ∧ ∀ revisionId,
      revisionId ∈ retained ↔ ∃ count ≤ keepPerRoot, RootPath t tenantId revisionId count := by
  simp only [← carries_iff hwf]
  have hparents : ∀ revisionId, ∀ parentId ∈ t.parentIds tenantId revisionId,
      (t.findRevision tenantId parentId).isSome := by
    intro revisionId parentId hparent
    obtain ⟨edge, hedge, htenant, -, rfl⟩ := mem_parentIds.mp hparent
    exact hwf.parents edge hedge htenant
  apply LabelSearch.search_eq_ok ((t.tenantRevisions tenantId).map CanvasRevisionRow.revisionId)
  · intro root hroot
    exact findRevision_isSome.mp ((mem_knownRoots hwf).mp hroot).2
  · intro revisionId _
    simp only [presentParents, bind_eq_ok, ensure_eq_ok, pure, Except.pure]
    exact ⟨(), hparents revisionId, trivial⟩
  · intro revisionId _ parentId hparent
    exact findRevision_isSome.mp (hparents revisionId parentId hparent)
  · exact ephemeralCount_le
  · exact (LabelSearch.roundsLeft_start _).le

theorem mem_candidates {olderThan : String} {keepPerRoot : Int} (hkeep : 1 ≤ keepPerRoot)
    {retained : List String} (hretained : ∀ revisionId,
      revisionId ∈ retained ↔ ∃ count ≤ keepPerRoot.toNat, RootPath t tenantId revisionId count) :
    revisionId ∈ t.candidates tenantId olderThan retained ↔
      Doomed t tenantId olderThan keepPerRoot revisionId := by
  have hfew : revisionId ∉ retained ↔
      ∀ count, RootPath t tenantId revisionId count → keepPerRoot < count := by
    rw [hretained]
    simp only [not_exists, not_and]
    constructor
    · intro hnone count hpath
      by_contra hless
      exact hnone count (by omega) hpath
    · intro hall count hless hpath
      have hmore := hall count hpath
      omega
  simp only [candidates, List.mem_dedup, List.mem_map, List.mem_filter, mem_tenantRevisions,
    decide_eq_true_eq, Doomed, ← hfew]
  constructor
  · rintro ⟨row, ⟨⟨hrow, htenant⟩, htier, hold, hnot⟩, rfl⟩
    exact ⟨row, hrow, htenant, rfl, htier, hold, hnot⟩
  · rintro ⟨row, hrow, htenant, rfl, htier, hold, hnot⟩
    exact ⟨row, ⟨⟨hrow, htenant⟩, htier, hold, hnot⟩, rfl⟩

theorem IsRoot.not_doomed (hroot : IsRoot t tenantId revisionId) {olderThan : String}
    {keepPerRoot : Int} (hkeep : 1 ≤ keepPerRoot) :
    ¬ Doomed t tenantId olderThan keepPerRoot revisionId := by
  rintro ⟨row, hrow, htenant, rfl, -, -, hmore⟩
  have hknown : (t.findRevision tenantId row.revisionId).isSome :=
    findRevision_isSome.mpr (List.mem_map_of_mem (mem_tenantRevisions.mpr ⟨hrow, htenant⟩))
  have hone := hmore _ (.root hroot hknown)
  have hcount : t.ephemeralCount tenantId row.revisionId ≤ 1 := ephemeralCount_le _
  omega

theorem mem_childrenInCandidates {child parent : String} :
    child ∈ t.childrenInCandidates tenantId candidates parent ↔
      IsParent t tenantId child parent ∧ parent ∈ candidates ∧ child ∈ candidates := by
  simp only [childrenInCandidates, tenantParents, List.mem_map, List.mem_filter, decide_eq_true_eq,
    IsParent]
  constructor
  · rintro ⟨edge, ⟨⟨hedge, htenant⟩, rfl, hparent, hchild⟩, rfl⟩
    exact ⟨⟨edge, hedge, htenant, rfl, rfl⟩, hparent, hchild⟩
  · rintro ⟨⟨edge, hedge, htenant, rfl, rfl⟩, hparent, hchild⟩
    exact ⟨edge, ⟨⟨hedge, htenant⟩, rfl, hparent, hchild⟩, rfl⟩

/-- Without cycles all candidates are put in an order, children first. -/
theorem deletionOrder_eq_ok (hwf : WellFormed t tenantId) (hcandidates : candidates.Nodup) :
    ∃ order, t.deletionOrder tenantId candidates = .ok order ∧ order.Perm candidates ∧
      AfterBlockers (t.childrenInCandidates tenantId candidates) candidates order := by
  refine peel_eq_ok (fun items => sortOn.perm codePointLe id items) ?_ _ hcandidates
  intro revisionId hcycle
  apply hwf.acyclic revisionId
  rw [← Relation.transGen_swap]
  exact Relation.TransGen.mono
    (fun _ _ hchild => (mem_childrenInCandidates.mp hchild).1) _ _ hcycle

def reached (t : HistoryTables) (call : Prune) (candidates gone : List String) : HistoryTables :=
  { t with
    revisions := t.revisions.filter fun row =>
      ¬ (row.tenantId = call.tenantId ∧ row.revisionId ∈ gone)
    parents := t.parents.filter fun edge =>
      ¬ IsBoundary call.tenantId candidates edge ∧
        ¬ (edge.tenantId = call.tenantId ∧ edge.revisionId ∈ gone)
    audits := t.audits ++ gone.map call.audit }

/-- The events of a pruning have new ids, a different one for each revision. -/
structure FreshAudits (t : HistoryTables) (call : Prune) : Prop where
  injective : Function.Injective call.auditEventIdFor
  fresh : ∀ event ∈ t.audits, ∀ revisionId, event.eventId ≠ call.auditEventIdFor revisionId

section

variable {call : Prune} {before : List String} (hkeep : 1 ≤ call.keepPerRoot)
  (hcandidates : ∀ revisionId, revisionId ∈ candidates ↔
    Doomed t call.tenantId call.olderThan call.keepPerRoot revisionId)
  (hmem : revisionId ∈ candidates)
  (hchildren : ∀ child ∈ t.childrenInCandidates call.tenantId candidates revisionId,
    child ∈ candidates → child ∈ before)
include hkeep hcandidates hmem hchildren

/-- What is deleted next is unprotected: no root, and its children are gone. -/
theorem not_isProtected :
    ¬ IsProtected { reached t call candidates before with
      parents := (reached t call candidates before).parents.filter fun edge =>
        ¬ (edge.tenantId = call.tenantId ∧ edge.revisionId = revisionId) }
      call.tenantId revisionId := by
  have hunrooted : ¬ IsRoot t call.tenantId revisionId := fun hroot =>
    hroot.not_doomed hkeep ((hcandidates revisionId).mp hmem)
  rintro (⟨head, hhead, htenant, hid⟩ | ⟨edge, hedge, htenant, hparent⟩ |
    ⟨row, hrow, htenant, hsource⟩ | ⟨pin, hpin, htenant, hid⟩)
  · exact hunrooted (Or.inr (Or.inr (Or.inl ⟨head, hhead, htenant, hid⟩)))
  · have hold := (List.mem_filter.mp hedge).1
    simp only [reached, List.mem_filter, decide_eq_true_eq] at hold
    obtain ⟨hold, hboundary, hgone⟩ := hold
    by_cases hchild : edge.revisionId ∈ candidates
    · apply hgone
      refine ⟨htenant, hchildren _ (mem_childrenInCandidates.mpr ⟨?_, hmem, hchild⟩) hchild⟩
      exact ⟨edge, hold, htenant, rfl, hparent⟩
    · exact hboundary ⟨htenant, hparent ▸ hmem, hchild⟩
  · have hold := (List.mem_filter.mp hrow).1
    exact hunrooted (Or.inr (Or.inl ⟨row, hold, htenant, hsource⟩))
  · exact hunrooted (Or.inr (Or.inr (Or.inr ⟨pin, hpin, htenant, hid⟩)))

theorem deleteRevision_eq_ok (hkeys : (t.revisions.map CanvasRevisionRow.key).Nodup)
    (haudits : FreshAudits t call) (hnew : revisionId ∉ before) :
    deleteRevision call (reached t call candidates before) revisionId =
      .ok (reached t call candidates (before ++ [revisionId])) := by
  obtain ⟨doomed, hdoomed, htenant, hid, htier, hold, -⟩ := (hcandidates revisionId).mp hmem
  have hhits : ∀ row ∈ t.revisions, call.Hits revisionId row ↔
      row.tenantId = call.tenantId ∧ row.revisionId = revisionId := by
    intro row hrow
    refine ⟨fun hhit => ⟨hhit.1, hhit.2.1⟩, fun ⟨hrowTenant, hrowId⟩ => ?_⟩
    have hsame : row = doomed := by
      have hrowFound := findBy_of_mem CanvasRevisionRow.key hkeys hrow
      have hdoomedFound := findBy_of_mem CanvasRevisionRow.key hkeys hdoomed
      have hkey : row.key = doomed.key := by
        unfold CanvasRevisionRow.key
        rw [hrowTenant, hrowId, htenant, hid]
      rw [hkey, hdoomedFound, Option.some.injEq] at hrowFound
      exact hrowFound.symm
    subst hsame
    exact ⟨htenant, hid, htier, hold⟩
  have hstay : doomed ∈ (reached t call candidates before).revisions := by
    refine List.mem_filter.mpr ⟨hdoomed, decide_eq_true fun hgone => hnew ?_⟩
    rw [← hid]
    exact hgone.2
  have hone : ((reached t call candidates before).revisions.filter
      fun row => call.Hits revisionId row).length = 1 := by
    have hfilter : (reached t call candidates before).revisions.filter
          (fun row => call.Hits revisionId row) =
        (reached t call candidates before).revisions.filter
          fun row => row.key = doomed.key := by
      apply List.filter_congr
      intro row hrow
      rw [decide_eq_decide, hhits row (List.mem_filter.mp hrow).1]
      simp [CanvasRevisionRow.key, htenant, hid]
    have hnodup : ((reached t call candidates before).revisions.map CanvasRevisionRow.key).Nodup :=
      hkeys.sublist (List.filter_sublist.map _)
    rw [hfilter, filter_key_of_mem _ hnodup hstay, List.length_singleton]
  have hinsert : insertBy GenerationDeletionAuditEventRow.eventId (call.audit revisionId)
      (reached t call candidates before).audits =
        some (t.audits ++ (before ++ [revisionId]).map call.audit) := by
    refine (insertBy_eq_some _).mpr ⟨(findBy_eq_none _).mpr ?_, ?_⟩
    · intro event hevent
      rcases List.mem_append.mp hevent with hevent | hevent
      · exact haudits.fresh event hevent revisionId
      · obtain ⟨other, hother, rfl⟩ := List.mem_map.mp hevent
        intro hsame
        exact hnew (haudits.injective hsame ▸ hother)
    · rw [List.map_append, ← List.append_assoc]
      rfl
  have hdelete := deleteEphemeralGcCandidate.eq_def call
    { reached t call candidates before with
      parents := (reached t call candidates before).parents.filter fun edge =>
        ¬ (edge.tenantId = call.tenantId ∧ edge.revisionId = revisionId) } revisionId
  rw [if_pos ⟨not_isProtected hkeep hcandidates hmem hchildren, hone⟩, hinsert] at hdelete
  simp only [deleteRevision, bind_eq_ok, ensure_eq_ok, pure, Except.pure]
  refine ⟨_, hdelete, (), rfl, ?_⟩
  have hrevisions : ((reached t call candidates before).revisions.filter
      fun row => ¬ call.Hits revisionId row) =
        (reached t call candidates (before ++ [revisionId])).revisions := by
    simp only [reached, List.filter_filter]
    apply List.filter_congr
    intro row hrow
    rw [← Bool.decide_and, decide_eq_decide, hhits row hrow]
    simp only [List.mem_append, List.mem_singleton]
    tauto
  have hparents : ((reached t call candidates before).parents.filter fun edge =>
      ¬ (edge.tenantId = call.tenantId ∧ edge.revisionId = revisionId)) =
        (reached t call candidates (before ++ [revisionId])).parents := by
    simp only [reached, List.filter_filter]
    apply List.filter_congr
    intro edge _
    rw [← Bool.decide_and, decide_eq_decide]
    simp only [List.mem_append, List.mem_singleton]
    tauto
  rw [hrevisions, hparents]
  rfl

end

/-! ## Pruning -/

/-- The doomed revisions are deleted with the edges at them, each deletion is recorded, the rest is
unchanged, and nothing refers to what is deleted. -/
structure PrunesExactly (t : HistoryTables) (call : Prune) (result : EphemeralHistoryPruneResult)
    (next : HistoryTables) : Prop where
  once : result.deletedRevisionIds.Nodup
  deleted : ∀ revisionId, revisionId ∈ result.deletedRevisionIds ↔
    Doomed t call.tenantId call.olderThan call.keepPerRoot revisionId
  revisions : next.revisions = t.revisions.filter fun row =>
    ¬ (row.tenantId = call.tenantId ∧ row.revisionId ∈ result.deletedRevisionIds)
  parents : next.parents = t.parents.filter fun edge =>
    ¬ (edge.tenantId = call.tenantId ∧ (edge.revisionId ∈ result.deletedRevisionIds ∨
      edge.parentRevisionId ∈ result.deletedRevisionIds))
  heads : next.heads = t.heads
  pins : next.pins = t.pins
  audits : next.audits = t.audits ++ result.deletedRevisionIds.map call.audit
  unreferenced : ∀ revisionId ∈ result.deletedRevisionIds,
    ¬ next.IsProtected call.tenantId revisionId

theorem reached_nil (t : HistoryTables) (call : Prune) (candidates : List String) :
    reached t call candidates [] =
      { t with parents := t.parents.filter fun edge =>
          ¬ HistoryTables.IsBoundary call.tenantId candidates edge } := by
  simp [reached]

theorem reached_prunesExactly {call : Prune} (hkeep : 1 ≤ call.keepPerRoot) {order : List String}
    (hcandidates : ∀ revisionId, revisionId ∈ candidates ↔
      Doomed t call.tenantId call.olderThan call.keepPerRoot revisionId) (hnodup : candidates.Nodup)
    (hperm : order.Perm candidates) (cutParentEdges : Nat) :
    PrunesExactly t call ⟨order, cutParentEdges⟩ (reached t call candidates order) := by
  have hmem : ∀ revisionId, revisionId ∈ order ↔ revisionId ∈ candidates := fun _ => hperm.mem_iff
  have hparents : (reached t call candidates order).parents = t.parents.filter fun edge =>
      ¬ (edge.tenantId = call.tenantId ∧
        (edge.revisionId ∈ order ∨ edge.parentRevisionId ∈ order)) := by
    apply List.filter_congr
    intro edge _
    rw [decide_eq_decide, IsBoundary, hmem, hmem]
    tauto
  refine ⟨hperm.nodup_iff.mpr hnodup, fun revisionId => (hmem _).trans (hcandidates _), rfl,
    hparents, rfl, rfl, rfl, ?_⟩
  intro revisionId hdeleted
  have hdoomed := (hcandidates revisionId).mp ((hmem _).mp hdeleted)
  have hunrooted : ¬ IsRoot t call.tenantId revisionId := fun hroot =>
    hroot.not_doomed hkeep hdoomed
  rintro (⟨head, hhead, htenant, hid⟩ | ⟨edge, hedge, htenant, hparent⟩ |
    ⟨row, hrow, htenant, hsource⟩ | ⟨pin, hpin, htenant, hid⟩)
  · exact hunrooted (Or.inr (Or.inr (Or.inl ⟨head, hhead, htenant, hid⟩)))
  · rw [hparents, List.mem_filter, decide_eq_true_eq] at hedge
    exact hedge.2 ⟨htenant, Or.inr (hparent ▸ hdeleted)⟩
  · exact hunrooted (Or.inr (Or.inl ⟨row, (List.mem_filter.mp hrow).1, htenant, hsource⟩))
  · exact hunrooted (Or.inr (Or.inr (Or.inr ⟨pin, hpin, htenant, hid⟩)))

/-- Pruning a well-formed history succeeds, and is exact. -/
theorem prune_exact (t : HistoryTables) (call : Prune) (hkeep : 1 ≤ call.keepPerRoot)
    (hwf : WellFormed t call.tenantId) (haudits : FreshAudits t call) :
    ∃ result next, pruneEphemeralHistoryByReachability t call = .ok (result, next) ∧
      PrunesExactly t call result next := by
  obtain ⟨retained, hretained, hspec⟩ := retainedRevisions_eq_ok hwf call.keepPerRoot.toNat
  have hcandidates : ∀ revisionId,
      revisionId ∈ t.candidates call.tenantId call.olderThan retained ↔
        Doomed t call.tenantId call.olderThan call.keepPerRoot revisionId :=
    fun _ => mem_candidates hkeep hspec
  have hnodup : (t.candidates call.tenantId call.olderThan retained).Nodup := List.nodup_dedup _
  generalize hgeneral : t.candidates call.tenantId call.olderThan retained = candidates
    at hcandidates hnodup
  obtain ⟨order, horder, hperm, hafter⟩ := deletionOrder_eq_ok hwf hnodup
  have hdeleted : order.foldlM (deleteRevision call) (reached t call candidates []) =
      .ok (reached t call candidates order) := by
    apply foldlM_eq_ok
    intro before revisionId after hsplit
    have hmem : revisionId ∈ candidates := by
      rw [← hperm.mem_iff, hsplit]
      simp
    have hnew : revisionId ∉ before := by
      have honce := hperm.nodup_iff.mpr hnodup
      rw [hsplit, List.nodup_append] at honce
      intro hbefore
      exact honce.2.2 revisionId hbefore revisionId List.mem_cons_self rfl
    exact deleteRevision_eq_ok hkeep hcandidates hmem (hafter before revisionId after hsplit)
      hwf.keys haudits hnew
  rw [reached_nil] at hdeleted
  refine ⟨⟨order, (t.parents.filter fun edge =>
      HistoryTables.IsBoundary call.tenantId candidates edge).length⟩,
    reached t call candidates order, ?_,
    reached_prunesExactly hkeep hcandidates hnodup hperm _⟩
  simp only [pruneEphemeralHistoryByReachability, bind_eq_ok, ensure_eq_ok, pure, Except.pure]
  subst hgeneral
  exact ⟨(), not_lt.mpr hkeep, retained, hretained, order, horder, _, hdeleted, rfl⟩

namespace ShortHistory

/-- An old revision without a source. -/
def revision (revisionId : String) : CanvasRevisionRow where
  tenantId := "t"
  revisionId := revisionId
  docId := "d"
  contentDigest := "c100f95c1913f9c72fc1f4ef0847e1e723ffe0bde0b36e5f36c13f81fe8c26ed"
  generationTier := .ephemeral
  generationReason := .autosave
  generationOrigin := .system
  actorRef := none
  aiRunRef := none
  sourceRevisionId := none
  createdAt := "2026-01-01T00:00:00Z"

def call : Prune where
  tenantId := "t"
  olderThan := "2026-02-01T00:00:00Z"
  keepPerRoot := 1
  executorRef := "system:gc"
  occurredAt := "2026-02-01T00:00:00Z"
  auditEventIdFor revisionId := "audit-" ++ revisionId

/-- A head with one parent. -/
def tables : HistoryTables where
  revisions := [revision "r1", revision "r2"]
  parents := [⟨"t", "r2", "r1", 0⟩]
  heads := [⟨"t", "d", "main", "r2", 2, "2026-01-01T00:00:00Z"⟩]
  pins := []
  audits := []

theorem wellFormed : WellFormed tables call.tenantId where
  keys := by decide
  parents := by decide
  sources := by decide
  acyclic := by
    intro revisionId hcycle
    obtain ⟨parent, hfirst, -⟩ := Relation.TransGen.head'_iff.mp hcycle
    obtain ⟨child, -, hlast⟩ := Relation.TransGen.tail'_iff.mp hcycle
    simp only [IsParent, tables, List.mem_singleton] at hfirst hlast
    obtain ⟨_, rfl, -, hchild, -⟩ := hfirst
    obtain ⟨_, rfl, -, -, hparent⟩ := hlast
    rw [← hchild] at hparent
    exact absurd hparent (by decide)

theorem freshAudits : FreshAudits tables call where
  injective first second hsame := by
    have hlists := congrArg String.toList hsame
    simp only [call, String.toList_append, List.append_cancel_left_eq] at hlists
    exact String.toList_inj.mp hlists
  fresh := by simp [tables]

/-- The parent is deleted. -/
theorem prune_parent : ∃ result next,
    pruneEphemeralHistoryByReachability tables call = .ok (result, next) ∧
      PrunesExactly tables call result next :=
  prune_exact tables call (by decide) wellFormed freshAudits

example : (pruneEphemeralHistoryByReachability tables call).map (·.1) = .ok ⟨["r1"], 1⟩ := by
  decide +kernel

/-- The revision without a name is the source of a durable one. -/
def unnamed : HistoryTables where
  revisions := [revision "", { revision "a" with
    generationTier := .governed, sourceRevisionId := some "" }]
  parents := []
  heads := []
  pins := []
  audits := []

/-- A source without a name is no root, but it is protected; and nothing is kept for no root. -/
theorem prune_raises :
    pruneEphemeralHistoryByReachability unnamed call = .error (.becameProtected "") ∧
      pruneEphemeralHistoryByReachability tables { call with keepPerRoot := 0 } =
        .error (.valueError "ephemeral history retention count must be positive") := by
  decide +kernel

end ShortHistory

end KjAtlas.Generation
