import KjAtlas.Sessions.TenantSession

/-! # Both persisters keep the same versions

The sessions in memory are those of the database as long as no version is
presented for a principal without a session: the dict takes it, and the table
does not. Comparing a version with a text beyond ASCII raises in memory only. In
runs without these two, the persisters answer alike, and a version from before a
clear is of no use.
-/

namespace KjAtlas.TenantSession

/-! ## Agreement -/

def Answer.version? : Answer → Option String
  | .ok version => version
  | .error _ => none

/-- Both return the same version, and both or neither find that the session has changed. -/
def Answers.Agree (answers : Answers) : Prop :=
  answers.memory.version? = answers.database.version? ∧
    (answers.memory = .error .tenantSessionChangedError ↔
      answers.database = .error .tenantSessionChangedError)

def Agree (run : Run Persisters Call Answers) (call : Call) : Prop :=
  ∀ answers next, run.state.serve call = .ok (answers, next) → answers.Agree

def Returned (journal : List (Call × Answers)) (version : String) : Prop :=
  ∃ entry ∈ journal, entry.2.memory.version? = some version ∨
    entry.2.database.version? = some version

def Clears (p : Persisters) (principalId : String) : Call → Prop
  | .clear (some cookie) => sessionVersion p.sessions principalId = some cookie ∨
      (Database.find p.rows principalId).map SaasTenantSessionRow.sessionVersion = some cookie
  | _ => False

abbrev run (calls : List Call) : Run Persisters Call Answers :=
  runCalls Persisters.serve Persisters.empty calls

/-- No version that was returned before a clear of a principal's session is accepted afterwards. -/
def StaleRefused (calls : List Call) : Prop :=
  ∀ earlier clearing between principalId expected newVersion now later,
    calls = earlier ++ clearing :: (between ++
      .persist principalId expected newVersion now :: later) →
    Clears (run earlier).state principalId clearing → Returned (run earlier).journal expected →
    ∀ answers next, (run (earlier ++ clearing :: between)).state.serve
        (.persist principalId expected newVersion now) = .ok (answers, next) →
      answers.memory.version? = none ∧ answers.database.version? = none

def Comparable (p : Persisters) : Call → Prop
  | .currentVersion principalId cookie _ _ =>
      sessionVersion p.sessions principalId ≠ none → ∀ text ∈ presented cookie, isAscii text = true
  | .persist principalId expected _ _ => sessionVersion p.sessions principalId ≠ none ∧
      (isAscii expected = true → isCanonical expected = true)
  | .clear _ => True

instance (p : Persisters) : DecidablePred (Comparable p)
  | .currentVersion _ _ _ _ => inferInstanceAs (Decidable (_ → ∀ _ ∈ _, _))
  | .persist _ _ _ _ => inferInstanceAs (Decidable (_ ∧ (_ → _)))
  | .clear _ => inferInstanceAs (Decidable True)

/-! ## Texts -/

theorem toNat_lt_of_isAlphanum {c : Char} (hc : c.isAlphanum = true) : c.toNat < 128 := by
  delta Char.isAlphanum Char.isAlpha Char.isUpper Char.isLower Char.isDigit at hc
  simp only [Bool.or_eq_true, Bool.and_eq_true, decide_eq_true_eq, ge_iff_le, UInt32.le_iff_toNat_le] at hc
  have hupper : 'Z'.val.toNat = 90 := rfl
  have hlower : 'z'.val.toNat = 122 := rfl
  have hdigit : '9'.val.toNat = 57 := rfl
  unfold Char.toNat
  omega

theorem toNat_lt_of_isVersionChar {c : Char} (hc : isVersionChar c = true) : c.toNat < 128 := by
  simp only [isVersionChar, Bool.or_eq_true, decide_eq_true_eq] at hc
  rcases hc with (((hc | rfl) | rfl) | rfl) | rfl
  · exact toNat_lt_of_isAlphanum hc
  all_goals decide

theorem isAscii_of_isCanonical {version : String} (hversion : isCanonical version = true) :
    isAscii version = true := by
  rw [isAscii, List.all_eq_true]
  intro c hc
  rw [decide_eq_true_eq]
  unfold isCanonical at hversion
  split at hversion
  next => cases hversion
  next first rest htext =>
    rw [htext] at hc
    simp only [Bool.and_eq_true, List.all_eq_true] at hversion
    rcases List.mem_cons.mp hc with rfl | hrest
    · exact toNat_lt_of_isAlphanum hversion.1.1
    · exact toNat_lt_of_isVersionChar (hversion.2 c hrest)

theorem compareDigest_ascii {left right : String} (hleft : isAscii left = true)
    (hright : isAscii right = true) : compareDigest left right = .ok (decide (left = right)) := by
  simp [compareDigest, ensure, hleft, hright, bind, Except.bind, pure, Except.pure]

theorem compareDigest_not_ascii {left right : String}
    (hnot : ¬(isAscii left = true ∧ isAscii right = true)) :
    compareDigest left right = .error .typeError := by
  rw [compareDigest, ensure, if_neg hnot]
  rfl

/-! ## Sessions in step -/

def newVersions (calls : List Call) : List String := calls.filterMap Call.newVersion

/-- The new versions that have come with the calls of a journal. -/
def issued (journal : List (Call × Answers)) : List String := newVersions (journal.map Prod.fst)

theorem issued_snoc (journal : List (Call × Answers)) (call : Call) (answers : Answers) :
    issued (journal ++ [(call, answers)]) = issued journal ++ call.newVersion.toList := by
  rw [issued, newVersions, List.map_append, List.filterMap_append]
  cases hversion : call.newVersion <;> simp [issued, newVersions, hversion]

/-- A call comes with a new version. -/
def Fresh (run : Run Persisters Call Answers) (call : Call) : Prop :=
  ∀ version ∈ call.newVersion, isCanonical version = true ∧ version ∉ issued run.journal

/-- Both persisters have the same sessions, whose versions have been issued. -/
structure InStep (run : Run Persisters Call Answers) : Prop where
  sessions : run.state.sessions = run.state.rows.map SaasTenantSessionRow.session
  nodup : (run.state.rows.map SaasTenantSessionRow.principalId).Nodup
  issued : ∀ row ∈ run.state.rows, row.sessionVersion ∈ issued run.journal
  canonical : ∀ row ∈ run.state.rows, isCanonical row.sessionVersion = true
  returned : ∀ version, Returned run.journal version → version ∈ TenantSession.issued run.journal

theorem inStep_empty : InStep ⟨[], Persisters.empty⟩ where
  sessions := rfl
  nodup := List.nodup_nil
  issued := by simp [Persisters.empty]
  canonical := by simp [Persisters.empty]
  returned := by simp [Returned]

theorem fst_session (row : SaasTenantSessionRow) : row.session.1 = row.principalId := rfl

theorem sessionVersion_map (rows : List SaasTenantSessionRow) (principalId : String) :
    sessionVersion (rows.map SaasTenantSessionRow.session) principalId =
      (Database.find rows principalId).map SaasTenantSessionRow.sessionVersion := by
  rw [sessionVersion, findBy_map _ fst_session, Option.map_map]
  rfl

theorem setVersion_map (rows : List SaasTenantSessionRow) (principalId version now : String) :
    setVersion (rows.map SaasTenantSessionRow.session) principalId version =
      (upsertBy SaasTenantSessionRow.principalId ⟨principalId, version, now⟩ rows).map
        SaasTenantSessionRow.session :=
  (map_upsertBy SaasTenantSessionRow.principalId fst_session ⟨principalId, version, now⟩ rows).symm

/-- A version that was not issued belongs to nobody. -/
theorem put_of_fresh {rows : List SaasTenantSessionRow} {row : SaasTenantSessionRow}
    (hnew : ∀ other ∈ rows, other.sessionVersion ≠ row.sessionVersion) :
    Database.put rows row = .ok (upsertBy SaasTenantSessionRow.principalId row rows) := by
  have hfree : isTaken rows row.principalId row.sessionVersion = false := by
    rw [isTaken, List.any_eq_false]
    intro other hother
    simp [hnew other hother]
  rw [Database.put, hfree]
  rfl

/-! ## What a call does -/

section Serve

variable {rows : List SaasTenantSessionRow} {principalId newVersion now expected : String}
  {cookie : Option String} {row : SaasTenantSessionRow}

def both (rows : List SaasTenantSessionRow) : Persisters :=
  ⟨rows.map SaasTenantSessionRow.session, rows⟩

theorem serve_currentVersion (rows : List SaasTenantSessionRow) (principalId newVersion now : String)
    (cookie : Option String) :
    (both rows).serve (.currentVersion principalId cookie newVersion now) =
      .ok (⟨(InMemory.currentVersion (both rows).sessions principalId cookie newVersion).1.map some,
          (Database.currentVersion rows principalId newVersion now).1.map some⟩,
        ⟨(InMemory.currentVersion (both rows).sessions principalId cookie newVersion).2,
          (Database.currentVersion rows principalId newVersion now).2⟩) := rfl

theorem serve_persist (rows : List SaasTenantSessionRow)
    (principalId expected newVersion now : String) :
    (both rows).serve (.persist principalId expected newVersion now) =
      .ok (⟨(InMemory.persist (both rows).sessions principalId expected newVersion).1.map some,
          (Database.persist rows principalId expected newVersion now).1.map some⟩,
        ⟨(InMemory.persist (both rows).sessions principalId expected newVersion).2,
          (Database.persist rows principalId expected newVersion now).2⟩) := rfl

theorem sessionVersion_none (hrow : Database.find rows principalId = none) :
    sessionVersion (both rows).sessions principalId = none := by
  rw [both, sessionVersion_map, hrow, Option.map_none]

theorem sessionVersion_some (hrow : Database.find rows principalId = some row) :
    sessionVersion (both rows).sessions principalId = some row.sessionVersion := by
  rw [both, sessionVersion_map, hrow, Option.map_some]

theorem serve_currentVersion_new (hrow : Database.find rows principalId = none)
    (hcanonical : isCanonical newVersion = true)
    (hnew : ∀ other ∈ rows, other.sessionVersion ≠ newVersion) :
    (both rows).serve (.currentVersion principalId cookie newVersion now) =
      .ok (⟨.ok newVersion, .ok newVersion⟩,
        both (upsertBy SaasTenantSessionRow.principalId ⟨principalId, newVersion, now⟩ rows)) := by
  have hmemory : InMemory.currentVersion (both rows).sessions principalId cookie newVersion =
      (.ok newVersion, setVersion (both rows).sessions principalId newVersion) := by
    rw [InMemory.currentVersion, sessionVersion_none hrow]
  have hdatabase : Database.currentVersion rows principalId newVersion now = (.ok newVersion,
      upsertBy SaasTenantSessionRow.principalId ⟨principalId, newVersion, now⟩ rows) := by
    have hput : Database.put rows ⟨principalId, newVersion, now⟩ = _ := put_of_fresh hnew
    simp [Database.currentVersion, Database.currentOrCreateSessionVersion, hrow, hput,
      canonicalTenantSessionVersion, ensure, hcanonical, bind, Except.bind, pure, Except.pure]
  rw [serve_currentVersion, hmemory, hdatabase, both, setVersion_map rows principalId newVersion now]
  rfl

theorem serve_currentVersion_stored (hrow : Database.find rows principalId = some row)
    (hcanonical : isCanonical row.sessionVersion = true) :
    (both rows).serve (.currentVersion principalId cookie newVersion now) =
      .ok (⟨if ∀ text ∈ presented cookie, isAscii text = true then .ok row.sessionVersion
        else .error .typeError, .ok row.sessionVersion⟩, both rows) := by
  have hmemory : InMemory.currentVersion (both rows).sessions principalId cookie newVersion =
      (if ∀ text ∈ presented cookie, isAscii text = true then .ok row.sessionVersion
        else .error .typeError, (both rows).sessions) := by
    rw [InMemory.currentVersion, sessionVersion_some hrow]
    cases hcookie : presented cookie with
    | none => simp [hcanonical]
    | some text =>
        by_cases htext : isAscii text = true
        · simp [hcanonical, compareDigest_ascii htext (isAscii_of_isCanonical hcanonical), htext,
            Except.map]
        · simp [hcanonical, compareDigest_not_ascii fun hboth => htext hboth.1, htext, Except.map]
  have hdatabase : Database.currentVersion rows principalId newVersion now =
      (.ok row.sessionVersion, rows) := by
    simp [Database.currentVersion, Database.currentOrCreateSessionVersion, hrow,
      canonicalTenantSessionVersion, ensure, hcanonical, bind, Except.bind, pure, Except.pure]
  rw [serve_currentVersion, hmemory, hdatabase]
  split <;> rfl

/-- In memory a principal without a session gets the new version whatever is presented. -/
theorem serve_persist_missing (hrow : Database.find rows principalId = none)
    (hcanonical : isCanonical newVersion = true) :
    ∃ raised next, (both rows).serve (.persist principalId expected newVersion now) =
      .ok (⟨.ok newVersion, .error raised⟩, next) := by
  have hmemory : InMemory.persist (both rows).sessions principalId expected newVersion =
      (.ok newVersion, setVersion (both rows).sessions principalId newVersion) := by
    rw [InMemory.persist, sessionVersion_none hrow]
    simp [canonicalTenantSessionVersion, ensure, hcanonical, bind, Except.bind, pure, Except.pure]
  rw [serve_persist, hmemory]
  by_cases hexpected : isCanonical expected = true
  · refine ⟨.tenantSessionChangedError,
      ⟨setVersion (both rows).sessions principalId newVersion, rows⟩, ?_⟩
    simp [Database.persist, Database.rotateSessionVersion, hrow, canonicalTenantSessionVersion,
      ensure, hcanonical, hexpected, bind, Except.bind, pure, Except.pure, Except.map]
  · refine ⟨.valueError, ⟨setVersion (both rows).sessions principalId newVersion, rows⟩, ?_⟩
    simp [Database.persist, canonicalTenantSessionVersion, ensure, hexpected, bind, Except.bind,
      Except.map]

theorem serve_persist_stored (hrow : Database.find rows principalId = some row)
    (hstored : isCanonical row.sessionVersion = true) (hcanonical : isCanonical newVersion = true)
    (hnew : ∀ other ∈ rows, other.sessionVersion ≠ newVersion) :
    (both rows).serve (.persist principalId row.sessionVersion newVersion now) =
      .ok (⟨.ok newVersion, .ok newVersion⟩,
        both (upsertBy SaasTenantSessionRow.principalId ⟨principalId, newVersion, now⟩ rows)) := by
  have hascii := isAscii_of_isCanonical hstored
  have hmemory : InMemory.persist (both rows).sessions principalId row.sessionVersion newVersion =
      (.ok newVersion, setVersion (both rows).sessions principalId newVersion) := by
    rw [InMemory.persist, sessionVersion_some hrow]
    simp [compareDigest_ascii hascii hascii, canonicalTenantSessionVersion, ensure, hcanonical,
      bind, Except.bind, pure, Except.pure]
  have hdatabase : Database.persist rows principalId row.sessionVersion newVersion now =
      (.ok newVersion,
        upsertBy SaasTenantSessionRow.principalId ⟨principalId, newVersion, now⟩ rows) := by
    have hput : Database.put rows ⟨principalId, newVersion, now⟩ = _ := put_of_fresh hnew
    simp [Database.persist, Database.rotateSessionVersion, hrow, hput, ensure, hstored, hcanonical,
      canonicalTenantSessionVersion, bind, Except.bind, pure, Except.pure]
  rw [serve_persist, hmemory, hdatabase, both, setVersion_map rows principalId newVersion now]
  rfl

/-- Another version is refused, each persister for its own reason. -/
theorem serve_persist_other (hrow : Database.find rows principalId = some row)
    (hstored : isCanonical row.sessionVersion = true) (hcanonical : isCanonical newVersion = true)
    (hother : row.sessionVersion ≠ expected) :
    (both rows).serve (.persist principalId expected newVersion now) =
      .ok (⟨.error (if isAscii expected = true then .tenantSessionChangedError else .typeError),
        .error (if isCanonical expected = true then .tenantSessionChangedError else .valueError)⟩,
        both rows) := by
  have hascii := isAscii_of_isCanonical hstored
  have hmemory : InMemory.persist (both rows).sessions principalId expected newVersion =
      (.error (if isAscii expected = true then .tenantSessionChangedError else .typeError),
        (both rows).sessions) := by
    rw [InMemory.persist, sessionVersion_some hrow]
    by_cases hexpected : isAscii expected = true
    · simp [compareDigest_ascii hascii hexpected, hother, hexpected, ensure, bind, Except.bind]
    · simp [compareDigest_not_ascii fun hboth => hexpected hboth.2, hexpected, bind, Except.bind]
  have hdatabase : Database.persist rows principalId expected newVersion now =
      (.error (if isCanonical expected = true then .tenantSessionChangedError else .valueError),
        rows) := by
    by_cases hexpected : isCanonical expected = true
    · simp [Database.persist, Database.rotateSessionVersion, hrow, hother, hexpected,
        canonicalTenantSessionVersion, ensure, hcanonical, bind, Except.bind, pure, Except.pure]
    · simp [Database.persist, hexpected, canonicalTenantSessionVersion, ensure, bind, Except.bind]
  rw [serve_persist, hmemory, hdatabase]
  rfl

theorem others_ascii {text : String} (htext : isAscii text = true) {sessions : List Session}
    (hsessions : ∀ session ∈ sessions, isAscii session.2 = true) :
    InMemory.others text sessions =
      .ok (sessions.filter fun session => !decide (session.2 = text)) := by
  induction sessions with
  | nil => rfl
  | cons session sessions ih =>
      rw [List.forall_mem_cons] at hsessions
      rw [InMemory.others, compareDigest_ascii htext hsessions.1, ih hsessions.2]
      by_cases hsame : text = session.2
      · simp [hsame, bind, Except.bind, pure, Except.pure]
      · simp [hsame, Ne.symm hsame, bind, Except.bind, pure, Except.pure]

theorem filter_session (rows : List SaasTenantSessionRow) (version : String) :
    (rows.map SaasTenantSessionRow.session).filter (fun session => !decide (session.2 = version)) =
      (rows.filter fun row => !decide (row.sessionVersion = version)).map
        SaasTenantSessionRow.session := by
  rw [List.filter_map]
  rfl

theorem serve_clear_eq (rows : List SaasTenantSessionRow) (cookie : Option String) :
    (both rows).serve (.clear cookie) =
      .ok (⟨(InMemory.clear (both rows).sessions cookie).1.map fun _ => none, .ok none⟩,
        ⟨(InMemory.clear (both rows).sessions cookie).2, Database.clear rows cookie⟩) := rfl

theorem clear_not_canonical {text : String} (hcookie : presented cookie = some text)
    (hcanonical : ¬ isCanonical text = true) : Database.clear rows cookie = rows := by
  rw [Database.clear, hcookie, Option.filter_some, if_neg hcanonical]

theorem serve_clear (hrows : ∀ row ∈ rows, isCanonical row.sessionVersion = true) :
    ∃ memory, (both rows).serve (.clear cookie) =
        .ok (⟨memory, .ok none⟩, both (Database.clear rows cookie)) ∧
      memory.version? = none ∧ memory ≠ .error .tenantSessionChangedError := by
  have hsessions : ∀ session ∈ (both rows).sessions, isAscii session.2 = true := by
    intro session hsession
    obtain ⟨row, hrow, rfl⟩ := List.mem_map.mp hsession
    exact isAscii_of_isCanonical (hrows row hrow)
  rw [serve_clear_eq]
  cases hcookie : presented cookie with
  | none =>
      refine ⟨.ok none, ?_, rfl, nofun⟩
      rw [InMemory.clear, Database.clear, hcookie]
      rfl
  | some text =>
      by_cases htext : isAscii text = true
      · have hothers := others_ascii htext hsessions
        refine ⟨.ok none, ?_, rfl, nofun⟩
        rw [InMemory.clear, hcookie]
        simp only [hothers]
        by_cases hcanonical : isCanonical text = true
        · rw [Database.clear, hcookie, Option.filter_some, if_pos hcanonical, both, filter_session]
          rfl
        · -- no session has a version that is not canonical
          have hkept : (both rows).sessions.filter (fun session => !decide (session.2 = text)) =
              (both rows).sessions := by
            rw [List.filter_eq_self]
            intro session hsession
            obtain ⟨row, hrow, rfl⟩ := List.mem_map.mp hsession
            rw [Bool.not_eq_true', decide_eq_false_iff_not]
            rintro rfl
            exact hcanonical (hrows row hrow)
          rw [hkept, clear_not_canonical hcookie hcanonical]
          rfl
      · have hcanonical : ¬ isCanonical text = true := fun h => htext (isAscii_of_isCanonical h)
        rw [clear_not_canonical hcookie hcanonical, InMemory.clear, hcookie]
        cases rows with
        | nil => exact ⟨.ok none, rfl, rfl, nofun⟩
        | cons row rows =>
            refine ⟨.error .typeError, ?_, rfl, nofun⟩
            have hothers : InMemory.others text (both (row :: rows)).sessions =
                .error .typeError := by
              rw [both, List.map_cons, InMemory.others,
                compareDigest_not_ascii fun hboth => htext hboth.1]
              rfl
            simp only [hothers]
            rfl

end Serve

/-! ## A step -/

/-- What a call does that the persisters can compare: both answer alike, and keep the same sessions,
of which those that are new have the new version of the call. -/
structure Served (rows : List SaasTenantSessionRow) (call : Call) (answers : Answers)
    (next : Persisters) : Prop where
  agree : answers.Agree
  same : next.sessions = next.rows.map SaasTenantSessionRow.session
  nodup : (next.rows.map SaasTenantSessionRow.principalId).Nodup
  changed : ∀ row ∈ next.rows, row ∈ rows ∨ row.sessionVersion ∈ call.newVersion
  returned : ∀ version, answers.memory.version? = some version ∨
    answers.database.version? = some version →
      version ∈ call.newVersion ∨ ∃ row ∈ rows, row.sessionVersion = version

section Step

variable {run : Run Persisters Call Answers} {call : Call} {answers : Answers} {next : Persisters}

theorem InStep.state (hrun : InStep run) : run.state = both run.state.rows := by
  rw [both, ← hrun.sessions]

theorem InStep.new (hrun : InStep run) (hfresh : Fresh run call) {version : String}
    (hversion : version ∈ call.newVersion) :
    isCanonical version = true ∧ ∀ row ∈ run.state.rows, row.sessionVersion ≠ version := by
  obtain ⟨hcanonical, hnew⟩ := hfresh version hversion
  refine ⟨hcanonical, fun row hrow heq => hnew ?_⟩
  rw [← heq]
  exact hrun.issued row hrow

variable {rows : List SaasTenantSessionRow}

theorem served_put {principalId newVersion now : String}
    (hnodup : (rows.map SaasTenantSessionRow.principalId).Nodup)
    (hcall : call.newVersion = some newVersion) :
    Served rows call ⟨.ok newVersion, .ok newVersion⟩
      (both (upsertBy SaasTenantSessionRow.principalId ⟨principalId, newVersion, now⟩ rows)) where
  agree := ⟨rfl, by simp⟩
  same := rfl
  nodup := nodup_upsertBy _ _ hnodup
  changed := by
    intro row hrow
    rcases mem_of_mem_upsertBy _ hrow with rfl | hrow
    · exact Or.inr hcall
    · exact Or.inl hrow
  returned := by
    rintro version (hversion | hversion) <;>
    · cases hversion
      exact Or.inl hcall

theorem served_same (hnodup : (rows.map SaasTenantSessionRow.principalId).Nodup)
    (hagree : answers.Agree) (hreturned : ∀ version, answers.memory.version? = some version ∨
      answers.database.version? = some version → ∃ row ∈ rows, row.sessionVersion = version) :
    Served rows call answers (both rows) where
  agree := hagree
  same := rfl
  nodup := hnodup
  changed := fun _ hrow => Or.inl hrow
  returned := fun version hversion => Or.inr (hreturned version hversion)

theorem InStep.served (hrun : InStep run) (hfresh : Fresh run call)
    (hok : run.state.serve call = .ok (answers, next)) :
    (Comparable run.state call → Served run.state.rows call answers next) ∧
      (answers.Agree → Comparable run.state call) := by
  have hnodup := hrun.nodup
  have hcanonicals := hrun.canonical
  have hnew : ∀ version ∈ call.newVersion, isCanonical version = true ∧
      ∀ row ∈ run.state.rows, row.sessionVersion ≠ version := fun _ => hrun.new hfresh
  rw [hrun.state] at hok ⊢
  generalize run.state.rows = rows at *
  cases call with
  | currentVersion principalId cookie newVersion now =>
      obtain ⟨hcanonical, hfree⟩ := hnew newVersion rfl
      cases hrow : Database.find rows principalId with
      | none =>
          rw [serve_currentVersion_new hrow hcanonical hfree] at hok
          obtain ⟨rfl, rfl⟩ := Prod.mk.inj (Except.ok.inj hok)
          refine ⟨fun _ => served_put hnodup rfl, fun _ hsession => ?_⟩
          exact absurd (sessionVersion_none hrow) hsession
      | some row =>
          have hmem := (findBy_eq_some _ hrow).1
          rw [serve_currentVersion_stored hrow (hcanonicals row hmem)] at hok
          obtain ⟨rfl, rfl⟩ := Prod.mk.inj (Except.ok.inj hok)
          constructor
          · intro hcomparable
            have hascii : ∀ text ∈ presented cookie, isAscii text = true := by
              apply hcomparable
              rw [sessionVersion_some hrow]
              exact Option.some_ne_none _
            rw [if_pos hascii]
            refine served_same hnodup ⟨rfl, by simp⟩ ?_
            rintro version (hversion | hversion) <;>
            · cases hversion
              exact ⟨row, hmem, rfl⟩
          · rintro ⟨hsame, -⟩ -
            by_contra hascii
            rw [if_neg hascii] at hsame
            cases hsame
  | persist principalId expected newVersion now =>
      obtain ⟨hcanonical, hfree⟩ := hnew newVersion rfl
      cases hrow : Database.find rows principalId with
      | none =>
          obtain ⟨raised, reached, hserve⟩ := @serve_persist_missing rows principalId newVersion now
            expected hrow hcanonical
          rw [hserve] at hok
          obtain ⟨rfl, rfl⟩ := Prod.mk.inj (Except.ok.inj hok)
          refine ⟨fun hcomparable => absurd (sessionVersion_none hrow) hcomparable.1, ?_⟩
          rintro ⟨hsame, -⟩
          cases hsame
      | some row =>
          have hmem := (findBy_eq_some _ hrow).1
          have hstored := hcanonicals row hmem
          have hsession : sessionVersion (both rows).sessions principalId ≠ none := by
            rw [sessionVersion_some hrow]
            exact Option.some_ne_none _
          by_cases hexpected : row.sessionVersion = expected
          · subst hexpected
            rw [serve_persist_stored hrow hstored hcanonical hfree] at hok
            obtain ⟨rfl, rfl⟩ := Prod.mk.inj (Except.ok.inj hok)
            exact ⟨fun _ => served_put hnodup rfl, fun _ => ⟨hsession, fun _ => hstored⟩⟩
          · rw [serve_persist_other hrow hstored hcanonical hexpected] at hok
            obtain ⟨rfl, rfl⟩ := Prod.mk.inj (Except.ok.inj hok)
            constructor
            · rintro ⟨-, hcomparable⟩
              refine served_same hnodup ⟨rfl, ?_⟩ ?_
              · by_cases hascii : isAscii expected = true
                · simp [hascii, hcomparable hascii]
                · have hnot : ¬ isCanonical expected = true :=
                    fun h => hascii (isAscii_of_isCanonical h)
                  simp [hascii, hnot]
              · rintro version (hversion | hversion) <;> cases hversion
            · rintro ⟨-, hraised⟩
              refine ⟨hsession, fun hascii => ?_⟩
              by_contra hnot
              simp [hascii, hnot] at hraised
  | clear cookie =>
      obtain ⟨memory, hserve, hversion, hraised⟩ := @serve_clear rows cookie hcanonicals
      rw [hserve] at hok
      obtain ⟨rfl, rfl⟩ := Prod.mk.inj (Except.ok.inj hok)
      refine ⟨fun _ => ?_, fun _ => trivial⟩
      have hsublist : (Database.clear rows cookie).Sublist rows := by
        unfold Database.clear
        split
        · exact List.filter_sublist
        · exact List.Sublist.refl _
      exact {
        agree := ⟨hversion, by simp [hraised]⟩
        same := rfl
        nodup := hnodup.sublist (hsublist.map _)
        changed := fun row hrow => Or.inl (hsublist.mem hrow)
        returned := by
          rintro version (hreturned | hreturned)
          · rw [hversion] at hreturned
            cases hreturned
          · cases hreturned }

theorem InStep.step (hrun : InStep run) (hfresh : Fresh run call)
    (hcomparable : Comparable run.state call) (hok : run.state.serve call = .ok (answers, next)) :
    InStep ⟨run.journal ++ [(call, answers)], next⟩ := by
  have hserved := (hrun.served hfresh hok).1 hcomparable
  have hissued : ∀ version ∈ TenantSession.issued run.journal,
      version ∈ TenantSession.issued (run.journal ++ [(call, answers)]) := by
    intro version hversion
    rw [issued_snoc]
    exact List.mem_append_left _ hversion
  have hnew : ∀ version ∈ call.newVersion,
      version ∈ TenantSession.issued (run.journal ++ [(call, answers)]) := by
    intro version hversion
    rw [issued_snoc]
    exact List.mem_append_right _ (Option.mem_toList.mpr hversion)
  exact {
    sessions := hserved.same
    nodup := hserved.nodup
    issued := by
      intro row hrow
      rcases hserved.changed row hrow with hrow | hversion
      · exact hissued _ (hrun.issued row hrow)
      · exact hnew _ hversion
    canonical := by
      intro row hrow
      rcases hserved.changed row hrow with hrow | hversion
      · exact hrun.canonical row hrow
      · exact (hfresh _ hversion).1
    returned := by
      rintro version ⟨entry, hentry, hversion⟩
      rcases mem_snoc.mp hentry with hentry | hentry
      · exact hissued _ (hrun.returned version ⟨entry, hentry, hversion⟩)
      · rw [hentry] at hversion
        rcases hserved.returned version hversion with hversion | ⟨row, hrow, rfl⟩
        · exact hnew _ hversion
        · exact hissued _ (hrun.issued row hrow) }

theorem InStep.comparable_iff (hrun : InStep run) (hfresh : Fresh run call) :
    Comparable run.state call ↔ Agree run call := by
  constructor
  · exact fun hcomparable answers next hok => ((hrun.served hfresh hok).1 hcomparable).agree
  · intro hagree
    obtain ⟨answers, next, hok⟩ : ∃ answers next, run.state.serve call = .ok (answers, next) := by
      cases call <;> exact ⟨_, _, rfl⟩
    exact (hrun.served hfresh hok).2 (hagree answers next hok)

end Step

/-! ## Runs -/

section Runs

theorem serve_total (p : Persisters) (call : Call) :
    ∃ answers next, p.serve call = .ok (answers, next) := by
  cases call <;> exact ⟨_, _, rfl⟩

/-- Every call comes with a new version, if with any. -/
structure FreshVersions (calls : List Call) : Prop where
  canonical : ∀ version ∈ newVersions calls, isCanonical version = true
  nodup : (newVersions calls).Nodup

variable {calls : List Call}

theorem newVersions_append (left right : List Call) :
    newVersions (left ++ right) = newVersions left ++ newVersions right := List.filterMap_append

theorem newVersions_cons (call : Call) (calls : List Call) :
    newVersions (call :: calls) = call.newVersion.toList ++ newVersions calls := by
  cases hversion : call.newVersion <;> simp [newVersions, hversion]

theorem issued_run (calls : List Call) : issued (run calls).journal = newVersions calls :=
  congrArg newVersions (journal_of_total serve_total Persisters.empty calls)

/-- The calls of a run come with new versions. -/
theorem FreshVersions.meet (hfresh : FreshVersions calls) :
    CallsMeet Persisters.serve Persisters.empty Fresh calls := by
  rintro before call after rfl version hversion
  obtain ⟨hcanonical, hnodup⟩ := hfresh
  rw [newVersions_append, newVersions_cons] at hcanonical hnodup
  have hmem : version ∈ call.newVersion.toList ++ newVersions after :=
    List.mem_append_left _ (Option.mem_toList.mpr hversion)
  refine ⟨hcanonical version (List.mem_append_right _ hmem), ?_⟩
  intro hissued
  rw [← TenantSession.run, issued_run] at hissued
  exact List.disjoint_of_nodup_append hnodup hissued hmem

theorem inStep_run (hmeet : CallsMeet Persisters.serve Persisters.empty
    (fun run call => Fresh run call ∧ Comparable run.state call) calls) : InStep (run calls) :=
  runCalls_induction_of_meet inStep_empty
    (fun _ _ _ _ hrun hcall hok => hrun.step hcall.1 hcall.2 hok) hmeet

variable {principalId : String}

theorem InStep.cleared {run : Run Persisters Call Answers} (hrun : InStep run) {call : Call}
    {answers : Answers} {next : Persisters} (hclears : Clears run.state principalId call)
    (hok : run.state.serve call = .ok (answers, next)) :
    ∀ row ∈ next.rows, row.principalId ≠ principalId := by
  cases call with
  | currentVersion | persist => exact hclears.elim
  | clear cookie =>
      cases cookie with
      | none => exact hclears.elim
      | some cookie =>
          have hfind : (Database.find run.state.rows principalId).map
              SaasTenantSessionRow.sessionVersion = some cookie := by
            rcases hclears with hsession | hrow
            · rwa [hrun.sessions, sessionVersion_map] at hsession
            · exact hrow
          obtain ⟨row, hrow, rfl⟩ := Option.map_eq_some_iff.mp hfind
          have hcanonical := hrun.canonical row (findBy_eq_some _ hrow).1
          have hpresented : presented (some row.sessionVersion) = some row.sessionVersion := by
            rw [presented, Option.filter_some, if_pos]
            rw [decide_eq_true_eq]
            intro hempty
            rw [hempty] at hcanonical
            cases hcanonical
          obtain ⟨memory, hserve, -⟩ :=
            @serve_clear run.state.rows (some row.sessionVersion) hrun.canonical
          rw [hrun.state] at hok
          rw [hserve] at hok
          obtain ⟨-, rfl⟩ := Prod.mk.inj (Except.ok.inj hok)
          intro other hother hsame
          have hkept : other ∈ Database.clear run.state.rows (some row.sessionVersion) := hother
          rw [Database.clear, hpresented, Option.filter_some, if_pos hcanonical] at hkept
          obtain ⟨hmem, hversion⟩ := List.mem_filter.mp hkept
          have hfound : Database.find run.state.rows principalId = some other := by
            rw [← hsame]
            exact findBy_of_mem _ hrun.nodup hmem
          rw [hrow, Option.some.injEq] at hfound
          rw [hfound] at hversion
          simp at hversion

theorem version_after_clear {earlier between later : List Call} {clearing : Call}
    (hmeet : CallsMeet Persisters.serve Persisters.empty
      (fun run call => Fresh run call ∧ Comparable run.state call)
      (earlier ++ clearing :: (between ++ later)))
    (hclears : Clears (run earlier).state principalId clearing) :
    ∀ row ∈ (run (earlier ++ clearing :: between)).state.rows, row.principalId = principalId →
      row.sessionVersion ∈ newVersions between := by
  induction between using List.reverseRecOn generalizing later with
  | nil =>
      intro row hrow hprincipal
      obtain ⟨answers, next, hok⟩ := serve_total (run earlier).state clearing
      rw [run, runCalls_snoc, Run.call_of_ok hok] at hrow
      exact absurd hprincipal ((inStep_run hmeet.left).cleared hclears hok row hrow)
  | append_singleton between call ih =>
      intro row hrow hprincipal
      have hsplit : earlier ++ clearing :: (between ++ [call] ++ later) =
          (earlier ++ clearing :: between) ++ call :: later := by simp
      have hcall : Fresh (run (earlier ++ clearing :: between)) call ∧
          Comparable (run (earlier ++ clearing :: between)).state call := hmeet _ _ _ hsplit
      have hprefix := hsplit ▸ hmeet
      obtain ⟨answers, next, hok⟩ := serve_total (run (earlier ++ clearing :: between)).state call
      have hserved := ((inStep_run hprefix.left).served hcall.1 hok).1 hcall.2
      rw [← List.cons_append, ← List.append_assoc, run, runCalls_snoc, Run.call_of_ok hok] at hrow
      rw [newVersions_append]
      rcases hserved.changed row hrow with hrow | hversion
      · exact List.mem_append_left _ (ih (by simpa using hmeet) row hrow hprincipal)
      · apply List.mem_append_right
        rw [newVersions_cons]
        exact List.mem_append_left _ (Option.mem_toList.mpr hversion)

theorem InStep.refused {run : Run Persisters Call Answers} (hrun : InStep run)
    {expected newVersion now : String} {answers : Answers} {next : Persisters}
    (hfresh : Fresh run (.persist principalId expected newVersion now))
    (hcomparable : Comparable run.state (.persist principalId expected newVersion now))
    (hother : ∀ row ∈ run.state.rows, row.principalId = principalId →
      row.sessionVersion ≠ expected)
    (hok : run.state.serve (.persist principalId expected newVersion now) = .ok (answers, next)) :
    answers.memory.version? = none ∧ answers.database.version? = none := by
  obtain ⟨hcanonical, -⟩ := hrun.new hfresh rfl
  have hsession := hcomparable.1
  rw [hrun.sessions, sessionVersion_map, ne_eq, Option.map_eq_none_iff] at hsession
  obtain ⟨row, hrow⟩ := Option.ne_none_iff_exists'.mp hsession
  obtain ⟨hmem, hprincipal⟩ := findBy_eq_some _ hrow
  rw [hrun.state, serve_persist_other hrow (hrun.canonical row hmem) hcanonical
    (hother row hmem hprincipal)] at hok
  obtain ⟨rfl, -⟩ := Prod.mk.inj (Except.ok.inj hok)
  exact ⟨rfl, rfl⟩

/-- Two persisters that are asked the same, with new versions that are new, return the same
versions, find the same sessions changed and accept no version from before a clear, exactly when
every version is presented for a session that exists and every comparison is one of ASCII texts. -/
theorem persisters_agree_iff (calls : List Call) (hfresh : FreshVersions calls) :
    (CallsMeet Persisters.serve Persisters.empty Agree calls ∧ StaleRefused calls) ↔
      CallsMeet Persisters.serve Persisters.empty
        (fun run call => Comparable run.state call) calls := by
  have hwith : ∀ {C : Run Persisters Call Answers → Call → Prop},
      CallsMeet Persisters.serve Persisters.empty C calls ↔
        CallsMeet Persisters.serve Persisters.empty (fun run call => Fresh run call ∧ C run call)
          calls := fun {C} =>
    ⟨fun hmeet before call after hsplit =>
        ⟨hfresh.meet before call after hsplit, hmeet before call after hsplit⟩,
      fun hmeet before call after hsplit => (hmeet before call after hsplit).2⟩
  have hagree : CallsMeet Persisters.serve Persisters.empty
        (fun run call => Comparable run.state call) calls ↔
      CallsMeet Persisters.serve Persisters.empty Agree calls := by
    rw [hwith, @hwith Agree]
    refine callsMeet_iff_of_invariant inStep_empty
      (fun _ _ _ _ hrun hcall hok => hrun.step hcall.1 hcall.2 hok) ?_
    exact fun run call hrun => and_congr_right fun hfresh => hrun.comparable_iff hfresh
  constructor
  · exact fun h => hagree.mpr h.1
  · intro hcomparable
    refine ⟨hagree.mp hcomparable, ?_⟩
    rintro earlier clearing between principalId expected newVersion now later rfl hclears hreturned
      answers next hok
    have hmeet := hwith.mp hcomparable
    have hsplit : earlier ++ clearing :: (between ++
          .persist principalId expected newVersion now :: later) =
        (earlier ++ clearing :: between) ++ .persist principalId expected newVersion now :: later := by
      simp
    have hcall := hmeet _ _ _ hsplit
    refine InStep.refused (inStep_run (hsplit ▸ hmeet).left) hcall.1 hcall.2 ?_ hok
    rintro row hrow hprincipal rfl
    have hafter := version_after_clear hmeet hclears row hrow hprincipal
    have hbefore := (inStep_run hmeet.left).returned _ hreturned
    rw [issued_run] at hbefore
    have hnodup := hfresh.nodup
    rw [newVersions_append, newVersions_cons, newVersions_append] at hnodup
    exact List.disjoint_of_nodup_append hnodup hbefore
      (List.mem_append_right _ (List.mem_append_left _ hafter))

end Runs

namespace Forgotten

/-- A session is created, cleared, and its version presented again. -/
def calls : List Call :=
  [.currentVersion "u" none "v1" "", .clear (some "v1"), .persist "u" "v1" "v2" ""]

/-- In memory the version from before the clear is accepted, in the database it is not. -/
theorem stale_accepted :
    FreshVersions calls ∧ ¬CallsMeet Persisters.serve Persisters.empty Agree calls ∧
      ¬StaleRefused calls := by
  refine ⟨⟨by decide, by decide⟩, fun hagree => ?_, fun hrefused => ?_⟩
  · obtain ⟨hsame, -⟩ := hagree [.currentVersion "u" none "v1" "", .clear (some "v1")]
      (.persist "u" "v1" "v2" "") [] rfl _ _ rfl
    exact absurd hsame (by decide)
  · obtain ⟨hmemory, -⟩ := hrefused [.currentVersion "u" none "v1" ""] (.clear (some "v1")) []
      "u" "v1" "v2" "" [] rfl (Or.inl (by decide)) ⟨_, List.mem_singleton_self _, by decide⟩ _ _ rfl
    exact absurd hmemory (by decide)

end Forgotten

namespace Presented

/-- A session is created, another tenant is selected, and the first version is presented again. -/
def calls : List Call :=
  [.currentVersion "u" none "v1" "", .persist "u" "v1" "v2" "", .persist "u" "v1" "v3" "",
    .clear (some "v2")]

theorem agree_on_presented :
    CallsMeet Persisters.serve Persisters.empty Agree calls ∧ StaleRefused calls :=
  (persisters_agree_iff calls ⟨by decide, by decide⟩).mpr (by decide)

end Presented

end KjAtlas.TenantSession
