import KjAtlas.Foundation.Transactions
import KjAtlas.Patch.Workspace

/-! # Decisions, rollback and log of the workspace

A run of the workspace keeps its decisions in step with its candidates as long as
no new candidate has a name that plain objects inherit, and a rollback comes under
the candidates of the commit that it takes back.
-/

namespace KjAtlas.Workspace

open Js

inductive Operation where
  | sync (candidates : List CandidateItem)
  | commit (candidateId : String) (decision : WorkspaceDecision) (now : String)
  | rollback (now : String)
  | replay (preset : QueryPresetInput) (hasCandidates : Bool)

/-- The state of the workspace, with what a run has to agree with: the ids of the current
candidates, those that were present throughout, and, for each commit that changed a decision and has
not been rolled back, the candidates and the decisions before it. -/
structure Session where
  candidates : List String
  present : List String
  commits : List (List String × Decisions)
  state : WorkspaceState

def start (candidates : List CandidateItem) : Session where
  candidates := candidates.map CandidateItem.id
  present := candidates.map CandidateItem.id
  commits := []
  state := buildInitialWorkspaceState candidates

section Runs

variable (lc : Collation) (toLowerCase : String → String)

def Session.apply (w : Session) : Operation → Session
  | .sync candidates => {
      candidates := candidates.map CandidateItem.id
      present := w.present.filter fun id => decide (id ∈ candidates.map CandidateItem.id)
      commits := w.commits
      state := syncWorkspaceCandidates w.state candidates }
  | .commit candidateId decision now => { w with
      commits :=
        if w.state.decisions.get? candidateId = some (.decision decision) then w.commits
        else w.commits ++ [(w.candidates, w.state.decisions)]
      state := commitWorkspaceDecision w.state candidateId decision now }
  | .rollback now => { w with
      commits := w.commits.dropLast
      state := rollbackWorkspaceDecision w.state now }
  | .replay preset hasCandidates => { w with
      state := replayPreset lc toLowerCase w.state preset hasCandidates }

def serve (w : Session) (operation : Operation) : Except Empty (Unit × Session) :=
  .ok ((), w.apply lc toLowerCase operation)

/-! ## Properties -/

/-- The decision of a candidate after the log, from `hold` on. -/
def replayLog (log : List WorkspaceAuditEntry) (id : String) : PropertyValue :=
  log.foldl (fun current entry => if entry.candidateId = id then entry.toDecision else current)
    (.decision .hold)

structure Decided (candidates : List String) (decisions : Decisions) : Prop where
  keys : ∀ id, (decisions.get? id).isSome ↔ id ∈ candidates
  values : ∀ id value, decisions.get? id = some value → ∃ decision, value = .decision decision

/-- The decisions are those of the current candidates, and the log leads to them. -/
structure Agrees (w : Session) : Prop where
  decided : Decided w.candidates w.state.decisions
  replays : ∀ id ∈ w.present, w.state.decisions.get? id = some (replayLog w.state.auditLog id)

/-- A rollback gives the candidates of the commit their decisions before it, and leaves the others
at their decisions. -/
def Restores (w : Session) (operation : Operation) (next : Session) : Prop :=
  match operation, w.commits.getLast? with
  | .rollback _, some (candidates, decisions) => ∀ id ∈ w.candidates,
      next.state.decisions.get? id =
        if id ∈ candidates then decisions.get? id else w.state.decisions.get? id
  | _, _ => True

def StepAgrees (run : Run Session Operation Unit) (operation : Operation) : Prop :=
  Agrees (run.state.apply lc toLowerCase operation) ∧
    Restores run.state operation (run.state.apply lc toLowerCase operation)

/-- Decisions are committed on current candidates. -/
def Allowed (run : Run Session Operation Unit) (operation : Operation) : Prop :=
  match operation with
  | .commit candidateId _ _ => candidateId ∈ run.state.candidates
  | _ => True

instance (run : Run Session Operation Unit) (operation : Operation) :
    Decidable (Allowed run operation) := by
  unfold Allowed
  split <;> infer_instance

/-- A new candidate has no name that plain objects inherit, and a rollback comes under the
candidates of the commit that it takes back. -/
def Meets (run : Run Session Operation Unit) (operation : Operation) : Prop :=
  match operation with
  | .sync candidates => ∀ candidate ∈ candidates,
      candidate.id ∈ run.state.candidates ∨ candidate.id ∉ objectPrototypeNames
  | .rollback _ => ∀ commit ∈ run.state.commits.getLast?,
      commit.1 ⊆ run.state.candidates ∧ run.state.candidates ⊆ commit.1
  | _ => True

instance (run : Run Session Operation Unit) (operation : Operation) :
    Decidable (Meets run operation) := by
  unfold Meets
  split <;> infer_instance

end Runs

/-! ## Reading and writing decisions -/

section Decisions

variable {decisions next : Decisions} {id : String}

theorem get?_buildInitialDecisions (candidates : List CandidateItem) (id : String) :
    (buildInitialDecisions candidates).get? id =
      if id ∈ candidates.map CandidateItem.id then some (.decision .hold) else none := by
  unfold buildInitialDecisions
  split
  next hmem =>
    obtain ⟨candidate, hcandidate, rfl⟩ := List.mem_map.mp hmem
    have hentry : ∃ value, (candidate.id, value) ∈
        candidates.map fun candidate => (candidate.id, PropertyValue.decision .hold) :=
      ⟨_, List.mem_map.mpr ⟨candidate, hcandidate, rfl⟩⟩
    obtain ⟨value, hvalue, hmem⟩ := InsertionMap.exists_get?_ofList hentry
    obtain ⟨other, -, hother⟩ := List.mem_map.mp hmem
    obtain rfl : PropertyValue.decision .hold = value := (Prod.ext_iff.mp hother).2
    exact hvalue
  next hnot =>
    rw [← Option.not_isSome_iff_eq_none, InsertionMap.has_ofList_map CandidateItem.id]
    intro hexists
    exact hnot (List.mem_map.mpr hexists)

theorem get?_carryOver (key : String) :
    (carryOver decisions next key).get? id =
      if id = key then (decisions.read id).or (next.get? id) else next.get? id := by
  unfold carryOver
  by_cases hid : id = key
  · subst hid
    cases hread : decisions.read id with
    | none => simp
    | some value => simp [InsertionMap.get?_set]
  · cases decisions.read key with
    | none => simp [hid]
    | some value => simp [InsertionMap.get?_set, hid, Ne.symm hid]

theorem get?_foldl_carryOver (ids : List String) (next : Decisions) :
    (ids.foldl (carryOver decisions) next).get? id =
      if id ∈ ids then (decisions.read id).or (next.get? id) else next.get? id := by
  induction ids generalizing next with
  | nil => simp
  | cons key ids ih =>
      rw [List.foldl_cons, ih, get?_carryOver]
      by_cases hkey : id = key
      · cases hread : decisions.read id <;> simp [hkey]
      · simp [hkey]

theorem get?_sync (state : WorkspaceState) (candidates : List CandidateItem) (id : String) :
    (syncWorkspaceCandidates state candidates).decisions.get? id =
      if id ∈ candidates.map CandidateItem.id then some (state.decisions.readOrHold id) else none := by
  unfold syncWorkspaceCandidates
  dsimp only
  rw [get?_foldl_carryOver, get?_buildInitialDecisions, Decisions.readOrHold]
  split
  · cases state.decisions.read id <;> rfl
  · rfl

theorem read_of_get? {value : PropertyValue} (hvalue : decisions.get? id = some value) :
    decisions.readOrHold id = value := by
  rw [Decisions.readOrHold, Decisions.read, hvalue]
  rfl

theorem readOrHold_of_none (hnone : decisions.get? id = none) :
    decisions.readOrHold id =
      if id ∈ objectPrototypeNames then .inherited id else .decision .hold := by
  rw [Decisions.readOrHold, Decisions.read, hnone]
  split <;> rfl

theorem mem_objectKeys : id ∈ decisions.objectKeys ↔ (decisions.get? id).isSome := by
  rw [← InsertionMap.mem_keys, Decisions.objectKeys, Context.enumerate, Props.sort,
    InsertionMap.keys]
  exact ((sortOn.perm Context.indexLe Prod.fst decisions.entries).map Prod.fst).mem_iff

end Decisions

/-! ## Decided candidates -/

namespace Decided

variable {candidates : List String} {decisions : Decisions} {id : String}

theorem get? (hdecided : Decided candidates decisions) (hid : id ∈ candidates) :
    ∃ decision, decisions.get? id = some (.decision decision) := by
  obtain ⟨value, hvalue⟩ := Option.isSome_iff_exists.mp ((hdecided.keys id).mpr hid)
  obtain ⟨decision, rfl⟩ := hdecided.values id value hvalue
  exact ⟨decision, hvalue⟩

theorem get?_eq_none (hdecided : Decided candidates decisions) (hid : id ∉ candidates) :
    decisions.get? id = none := by
  rw [← Option.not_isSome_iff_eq_none, hdecided.keys]
  exact hid

theorem initial (candidates : List CandidateItem) :
    Decided (candidates.map CandidateItem.id) (buildInitialDecisions candidates) where
  keys id := by
    rw [get?_buildInitialDecisions]
    split
    next hmem => simpa using hmem
    next hnot => simpa using hnot
  values id value hvalue := by
    rw [get?_buildInitialDecisions] at hvalue
    split at hvalue
    · exact ⟨.hold, (Option.some.inj hvalue).symm⟩
    · cases hvalue

theorem iff_of_decided (hdecided : Decided candidates decisions) (others : List String) :
    Decided others decisions ↔ candidates ⊆ others ∧ others ⊆ candidates := by
  constructor
  · intro hothers
    exact ⟨fun id hid => (hothers.keys id).mp ((hdecided.keys id).mpr hid),
      fun id hid => (hdecided.keys id).mp ((hothers.keys id).mpr hid)⟩
  · rintro ⟨hleft, hright⟩
    exact ⟨fun id => (hdecided.keys id).trans ⟨fun hid => hleft hid, fun hid => hright hid⟩,
      hdecided.values⟩

theorem set (hdecided : Decided candidates decisions) (hid : id ∈ candidates)
    (decision : WorkspaceDecision) : Decided candidates (decisions.set id (.decision decision)) where
  keys other := by
    rw [InsertionMap.get?_set]
    split
    next heq => simpa [heq] using hid
    next => exact hdecided.keys other
  values other value hvalue := by
    rw [InsertionMap.get?_set] at hvalue
    split at hvalue
    · exact ⟨decision, (Option.some.inj hvalue).symm⟩
    · exact hdecided.values other value hvalue

theorem readOrHold_iff (hdecided : Decided candidates decisions) :
    (∃ decision, decisions.readOrHold id = .decision decision) ↔
      id ∈ candidates ∨ id ∉ objectPrototypeNames := by
  by_cases hid : id ∈ candidates
  · obtain ⟨decision, hdecision⟩ := hdecided.get? hid
    simp [read_of_get? hdecision, hid]
  · rw [readOrHold_of_none (hdecided.get?_eq_none hid)]
    split
    next hinherited => simp [hid, hinherited]
    next hfree => simp [hfree]

theorem sync_iff {state : WorkspaceState} (hdecided : Decided candidates state.decisions)
    (next : List CandidateItem) :
    Decided (next.map CandidateItem.id) (syncWorkspaceCandidates state next).decisions ↔
      ∀ candidate ∈ next, candidate.id ∈ candidates ∨ candidate.id ∉ objectPrototypeNames := by
  constructor
  · intro hnext candidate hcandidate
    have hid : candidate.id ∈ next.map CandidateItem.id := List.mem_map_of_mem hcandidate
    obtain ⟨decision, hdecision⟩ := hnext.get? hid
    rw [get?_sync, if_pos hid] at hdecision
    exact hdecided.readOrHold_iff.mp ⟨decision, Option.some.inj hdecision⟩
  · intro hmeets
    refine ⟨fun id => ?_, fun id value hvalue => ?_⟩
    · rw [get?_sync]
      split
      next hmem => simpa using hmem
      next hnot => simpa using hnot
    · rw [get?_sync] at hvalue
      split at hvalue
      next hmem =>
        obtain ⟨candidate, hcandidate, rfl⟩ := List.mem_map.mp hmem
        obtain ⟨decision, hdecision⟩ := hdecided.readOrHold_iff.mpr (hmeets candidate hcandidate)
        exact ⟨decision, by rw [← Option.some.inj hvalue, hdecision]⟩
      next => cases hvalue

end Decided

theorem replayLog_append (log entries : List WorkspaceAuditEntry) (id : String) :
    replayLog (log ++ entries) id = entries.foldl
      (fun current entry => if entry.candidateId = id then entry.toDecision else current)
      (replayLog log id) := by
  unfold replayLog
  rw [List.foldl_append]

theorem foldl_rollbackEntryFor (now : String) (current restored : Decisions) (ids : List String)
    {id : String} (value : PropertyValue) :
    (ids.filterMap (rollbackEntryFor now current restored)).foldl
        (fun current entry => if entry.candidateId = id then entry.toDecision else current) value =
      if id ∈ ids ∧ current.readOrHold id ≠ restored.readOrHold id then restored.readOrHold id
      else value := by
  induction ids generalizing value with
  | nil => simp
  | cons key ids ih =>
      by_cases hsame : current.readOrHold key = restored.readOrHold key
      · -- no entry for this candidate
        have hnone : rollbackEntryFor now current restored key = none := by
          simp [rollbackEntryFor, hsame]
        rw [List.filterMap_cons_none hnone, ih]
        by_cases hkey : id = key
        · simp [hkey, hsame]
        · simp [hkey]
      · have hsome : rollbackEntryFor now current restored key =
            some ⟨key, current.readOrHold key, restored.readOrHold key, now, .rollback⟩ := by
          simp [rollbackEntryFor, hsame]
        rw [List.filterMap_cons_some hsome, List.foldl_cons, ih]
        by_cases hkey : id = key
        · subst hkey
          simp [hsame]
        · simp [hkey, Ne.symm hkey]

/-! ## The invariant -/

/-- A session agrees with its state, and each snapshot holds the decisions before its commit, which
are those of the candidates of that time. -/
structure Inv (w : Session) : Prop where
  agrees : Agrees w
  recorded : w.state.rollbackStack.map WorkspaceSnapshot.decisions = w.commits.map Prod.snd
  before : ∀ commit ∈ w.commits, Decided commit.1 commit.2
  present : w.present ⊆ w.candidates

theorem inv_start (candidates : List CandidateItem) : Inv (start candidates) where
  agrees := {
    decided := Decided.initial candidates
    replays := by
      intro id hid
      exact (get?_buildInitialDecisions candidates id).trans (if_pos hid) }
  recorded := rfl
  before commit hcommit := absurd hcommit List.not_mem_nil
  present := List.Subset.refl _

section Steps

variable {lc : Collation} {toLowerCase : String → String} {w : Session}

theorem agrees_sync_iff (hw : Inv w) (candidates : List CandidateItem) :
    Agrees (w.apply lc toLowerCase (.sync candidates)) ↔
      ∀ candidate ∈ candidates,
        candidate.id ∈ w.candidates ∨ candidate.id ∉ objectPrototypeNames := by
  rw [← hw.agrees.decided.sync_iff candidates]
  constructor
  · intro hagrees
    exact hagrees.decided
  · intro hdecided
    refine ⟨hdecided, fun id hid => ?_⟩
    obtain ⟨hpresent, hnext⟩ := List.mem_filter.mp hid
    exact (get?_sync w.state candidates id).trans ((if_pos (of_decide_eq_true hnext)).trans
      (congrArg some (read_of_get? (hw.agrees.replays id hpresent))))

theorem inv_sync (hw : Inv w) (candidates : List CandidateItem)
    (hagrees : Agrees (w.apply lc toLowerCase (.sync candidates))) :
    Inv (w.apply lc toLowerCase (.sync candidates)) where
  agrees := hagrees
  recorded := hw.recorded
  before := hw.before
  present _ hid := of_decide_eq_true (List.mem_filter.mp hid).2

theorem commit_cases (hw : Inv w) {id : String} (hid : id ∈ w.candidates)
    (decision : WorkspaceDecision) (now : String) :
    (w.state.decisions.get? id = some (.decision decision) ∧
      (commitWorkspaceDecision w.state id decision now).decisions = w.state.decisions ∧
      (commitWorkspaceDecision w.state id decision now).rollbackStack = w.state.rollbackStack ∧
      (commitWorkspaceDecision w.state id decision now).auditLog = w.state.auditLog) ∨
    (w.state.decisions.get? id ≠ some (.decision decision) ∧
      ∃ previous, commitWorkspaceDecision w.state id decision now =
        { w.state with
          decisions := w.state.decisions.set id (.decision decision)
          rollbackStack := w.state.rollbackStack ++ [snapshotState w.state]
          auditLog := w.state.auditLog ++
            [⟨id, .decision previous, .decision decision, now, .decision⟩]
          phase := .decisionRecorded
          failureMessage := none }) := by
  obtain ⟨previous, hprevious⟩ := hw.agrees.decided.get? hid
  have hread := read_of_get? hprevious
  by_cases hsame : previous = decision
  · left
    subst hsame
    simp [commitWorkspaceDecision, hread, hprevious]
  · right
    refine ⟨by simpa [hprevious] using hsame, previous, ?_⟩
    simp [commitWorkspaceDecision, hread, hsame]

theorem inv_commit (hw : Inv w) {id : String} (hid : id ∈ w.candidates)
    (decision : WorkspaceDecision) (now : String) :
    Inv (w.apply lc toLowerCase (.commit id decision now)) := by
  rcases commit_cases hw hid decision now with ⟨hsame, hdecisions, hstack, hlog⟩ |
    ⟨hother, previous, hstate⟩
  · have hcommits : (w.apply lc toLowerCase (.commit id decision now)).commits = w.commits :=
      if_pos hsame
    exact {
      agrees := {
        decided := by
          have hdecided := hw.agrees.decided
          rw [← hdecisions] at hdecided
          exact hdecided
        replays := by
          have hreplays := hw.agrees.replays
          rw [← hdecisions, ← hlog] at hreplays
          exact hreplays }
      recorded := by
        rw [hcommits, ← hw.recorded, ← hstack]
        rfl
      before := by
        rw [hcommits]
        exact hw.before
      present := hw.present }
  · have hcommits : (w.apply lc toLowerCase (.commit id decision now)).commits =
        w.commits ++ [(w.candidates, w.state.decisions)] := if_neg hother
    have hnext : (w.apply lc toLowerCase (.commit id decision now)).state = _ := hstate
    exact {
      agrees := {
        decided := by
          rw [hnext]
          exact hw.agrees.decided.set hid decision
        replays := by
          intro other hpresent
          rw [hnext, replayLog_append, InsertionMap.get?_set]
          have hreplays := hw.agrees.replays other hpresent
          by_cases heq : id = other
          · simp [heq]
          · simpa [heq] using hreplays }
      recorded := by
        rw [hcommits, hnext, List.map_append, List.map_append, hw.recorded]
        rfl
      before := by
        rw [hcommits]
        intro commit hcommit
        rcases mem_snoc.mp hcommit with hearlier | hnew
        · exact hw.before commit hearlier
        · rw [hnew]
          exact hw.agrees.decided
      present := hw.present }

variable {commit : List String × Decisions} {operation : Operation}
  {run : Run Session Operation Unit}

theorem rollback_of_commit (hw : Inv w) (hcommit : w.commits.getLast? = some commit)
    (now : String) :
    (rollbackWorkspaceDecision w.state now).decisions = commit.2 ∧
      (rollbackWorkspaceDecision w.state now).rollbackStack = w.state.rollbackStack.dropLast ∧
      (rollbackWorkspaceDecision w.state now).auditLog = w.state.auditLog ++
        (distinct (w.state.decisions.objectKeys ++ commit.2.objectKeys)).filterMap
          (rollbackEntryFor now w.state.decisions commit.2) := by
  have hlast : (w.state.rollbackStack.getLast?).map WorkspaceSnapshot.decisions = some commit.2 := by
    rw [← List.getLast?_map, hw.recorded, List.getLast?_map, hcommit]
    rfl
  obtain ⟨snapshot, hsnapshot, hdecisions⟩ := Option.map_eq_some_iff.mp hlast
  simp [rollbackWorkspaceDecision, hsnapshot, ← hdecisions]

theorem rollback_of_none (hw : Inv w) (hcommit : w.commits.getLast? = none) (now : String) :
    rollbackWorkspaceDecision w.state now = { w.state with
      phase := .error
      failureMessage := some "No rollback point available." } := by
  have hlast : w.state.rollbackStack.getLast? = none := by
    rw [← Option.map_eq_none_iff (f := WorkspaceSnapshot.decisions), ← List.getLast?_map,
      hw.recorded, List.getLast?_map, hcommit]
    rfl
  unfold rollbackWorkspaceDecision
  rw [hlast]

theorem agrees_rollback_iff (hw : Inv w) (hcommit : w.commits.getLast? = some commit)
    (now : String) :
    Agrees (w.apply lc toLowerCase (.rollback now)) ↔
      commit.1 ⊆ w.candidates ∧ w.candidates ⊆ commit.1 := by
  have hbefore : Decided commit.1 commit.2 :=
    hw.before commit (List.mem_of_getLast? hcommit)
  obtain ⟨hdecisions, -, hlog⟩ := rollback_of_commit hw hcommit now
  rw [← hbefore.iff_of_decided w.candidates]
  constructor
  · intro hagrees
    have hdecided : Decided w.candidates (rollbackWorkspaceDecision w.state now).decisions :=
      hagrees.decided
    rwa [hdecisions] at hdecided
  · intro hdecided
    refine ⟨?_, fun id hid => ?_⟩
    · change Decided w.candidates (rollbackWorkspaceDecision w.state now).decisions
      rwa [hdecisions]
    · change (rollbackWorkspaceDecision w.state now).decisions.get? id =
        some (replayLog (rollbackWorkspaceDecision w.state now).auditLog id)
      -- either the rollback logged the change, or the decision was the same before
      have hcurrent := hw.agrees.replays id hid
      obtain ⟨decision, hdecision⟩ := hdecided.get? (hw.present hid)
      have hkey : id ∈ distinct (w.state.decisions.objectKeys ++ commit.2.objectKeys) := by
        rw [mem_distinct, List.mem_append]
        right
        rw [mem_objectKeys, hdecision]
        rfl
      rw [hdecisions, hlog, replayLog_append, foldl_rollbackEntryFor, hdecision]
      split
      · rw [read_of_get? hdecision]
      next hnot =>
        have hsame : w.state.decisions.readOrHold id = commit.2.readOrHold id := by
          by_contra hne
          exact hnot ⟨hkey, hne⟩
        rw [read_of_get? hcurrent, read_of_get? hdecision] at hsame
        rw [hsame]

theorem inv_rollback (hw : Inv w) (now : String)
    (hagrees : Agrees (w.apply lc toLowerCase (.rollback now))) :
    Inv (w.apply lc toLowerCase (.rollback now)) where
  agrees := hagrees
  recorded := by
    have hstack : (rollbackWorkspaceDecision w.state now).rollbackStack =
        w.state.rollbackStack.dropLast := by
      cases hcommit : w.commits.getLast? with
      | some commit => exact (rollback_of_commit hw hcommit now).2.1
      | none =>
          have hnil : w.commits = [] := List.getLast?_eq_none_iff.mp hcommit
          have hempty : w.state.rollbackStack = [] := by
            rw [← List.map_eq_nil_iff (f := WorkspaceSnapshot.decisions), hw.recorded, hnil]
            rfl
          rw [rollback_of_none hw hcommit, hempty]
          rfl
    change (rollbackWorkspaceDecision w.state now).rollbackStack.map WorkspaceSnapshot.decisions =
      w.commits.dropLast.map Prod.snd
    rw [hstack, List.map_dropLast, hw.recorded, List.map_dropLast]
  before commit hcommit := hw.before commit ((List.dropLast_sublist _).subset hcommit)
  present := hw.present

theorem agrees_replay (hw : Inv w) (preset : QueryPresetInput) (hasCandidates : Bool) :
    Inv (w.apply lc toLowerCase (.replay preset hasCandidates)) := by
  cases hasCandidates with
  | false =>
      exact ⟨⟨hw.agrees.decided, hw.agrees.replays⟩, hw.recorded, hw.before, hw.present⟩
  | true =>
      exact ⟨⟨hw.agrees.decided, hw.agrees.replays⟩, hw.recorded, hw.before, hw.present⟩

/-- One operation keeps the decisions, the snapshots and the log in step exactly under the
condition. -/
theorem stepAgrees_iff (hrun : Inv run.state) (hallowed : Allowed run operation) :
    StepAgrees lc toLowerCase run operation ↔ Meets run operation := by
  cases operation with
  | sync candidates =>
      simp only [StepAgrees, Restores, and_true, Meets]
      exact agrees_sync_iff hrun candidates
  | commit candidateId decision now =>
      simp only [StepAgrees, Restores, and_true, Meets, iff_true]
      exact (inv_commit hrun hallowed decision now).agrees
  | replay preset hasCandidates =>
      simp only [StepAgrees, Restores, and_true, Meets, iff_true]
      exact (agrees_replay hrun preset hasCandidates).agrees
  | rollback now =>
      cases hcommit : run.state.commits.getLast? with
      | none =>
          simp only [StepAgrees, Restores, hcommit, and_true, Meets]
          have hagrees : Agrees (run.state.apply lc toLowerCase (.rollback now)) := by
            have hstate := rollback_of_none hrun hcommit now
            refine ⟨?_, ?_⟩
            · change Decided _ (rollbackWorkspaceDecision run.state.state now).decisions
              rw [hstate]
              exact hrun.agrees.decided
            · intro id hid
              change (rollbackWorkspaceDecision run.state.state now).decisions.get? id = some
                (replayLog (rollbackWorkspaceDecision run.state.state now).auditLog id)
              rw [hstate]
              exact hrun.agrees.replays id hid
          simpa using hagrees
      | some commit =>
          have hmeets : Meets run (.rollback now) ↔
              commit.1 ⊆ run.state.candidates ∧ run.state.candidates ⊆ commit.1 := by
            simp only [Meets, hcommit, Option.mem_some_iff, forall_eq']
          rw [hmeets, StepAgrees, agrees_rollback_iff hrun hcommit now, and_iff_left_iff_imp]
          rintro ⟨-, hsubset⟩
          simp only [Restores, hcommit]
          intro id hid
          rw [if_pos (hsubset hid)]
          exact congrArg (fun decisions => decisions.get? id)
            (rollback_of_commit hrun hcommit now).1

theorem inv_apply (hrun : Inv run.state) (hallowed : Allowed run operation)
    (hagrees : Agrees (run.state.apply lc toLowerCase operation)) :
    Inv (run.state.apply lc toLowerCase operation) := by
  cases operation with
  | sync candidates => exact inv_sync hrun candidates hagrees
  | commit candidateId decision now => exact inv_commit hrun hallowed decision now
  | rollback now => exact inv_rollback hrun now hagrees
  | replay preset hasCandidates => exact agrees_replay hrun preset hasCandidates

end Steps

/-! ## Runs -/

/-- Decisions, rollback and log agree throughout a run exactly if no new candidate has a name that
plain objects inherit, and each rollback comes under the candidates of the commit that it takes
back. -/
theorem agrees_throughout_iff (lc : Collation) (toLowerCase : String → String)
    (initial : List CandidateItem) (operations : List Operation)
    (hallowed : CallsMeet (serve lc toLowerCase) (start initial) Allowed operations) :
    (Agrees (start initial) ∧ CallsMeet (serve lc toLowerCase) (start initial)
      (StepAgrees lc toLowerCase) operations) ↔
      CallsMeet (serve lc toLowerCase) (start initial) Meets operations := by
  have hiff : CallsMeet (serve lc toLowerCase) (start initial)
      (fun run operation => Allowed run operation ∧ StepAgrees lc toLowerCase run operation)
        operations ↔
      CallsMeet (serve lc toLowerCase) (start initial)
        (fun run operation => Allowed run operation ∧ Meets run operation) operations := by
    apply callsMeet_iff_of_invariant (P := fun run => Inv run.state) (inv_start initial)
    · rintro run operation answer next hrun ⟨hallowed, hagrees, -⟩ hserve
      obtain rfl : run.state.apply lc toLowerCase operation = next :=
        (Prod.ext_iff.mp (Except.ok.inj hserve)).2
      exact inv_apply hrun hallowed hagrees
    · intro run operation hrun
      exact and_congr_right fun hallowed => stepAgrees_iff hrun hallowed
  rw [callsMeet_and, callsMeet_and, and_iff_right hallowed, and_iff_right hallowed] at hiff
  rw [← hiff]
  exact and_iff_right (inv_start initial).agrees

namespace CandidateAdded

def first : CandidateItem := ⟨"a", "First"⟩

def second : CandidateItem := ⟨"b", "Second"⟩

/-- A decision, a rollback, and a candidate that is added at last. -/
def inOrder : List Operation :=
  [.commit "a" .adopt "1", .rollback "2", .sync [first, second]]

/-- The candidate is added between the decision and the rollback. -/
def added : List Operation :=
  [.commit "a" .adopt "1", .sync [first, second], .rollback "2"]

theorem inOrder_agrees : CallsMeet (serve .codeUnit id) (start [first])
    (StepAgrees .codeUnit id) inOrder :=
  ((agrees_throughout_iff .codeUnit id [first] inOrder (by decide +kernel)).mpr
    (by decide +kernel)).2

/-- The rollback takes the candidate out of the decisions that was added since. -/
theorem added_disagrees : CallsMeet (serve .codeUnit id) (start [first]) Allowed added ∧
    ¬CallsMeet (serve .codeUnit id) (start [first]) (StepAgrees .codeUnit id) added := by
  constructor
  · decide +kernel
  · intro hagrees
    have hlast := (hagrees [.commit "a" .adopt "1", .sync [first, second]] (.rollback "2") [] rfl).1
    have hkept := (hlast.decided.keys "b").mpr (by decide +kernel)
    revert hkept
    decide +kernel

end CandidateAdded

end KjAtlas.Workspace
