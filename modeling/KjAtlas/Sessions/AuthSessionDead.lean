import KjAtlas.Sessions.AuthSession

/-! # Sessions that are over stay over

A session that a resolve has found over is over at all later times, since only a
resolve of a session that is not over moves the time of its last use. A rotation
looks at the revocation of a session and not at the times, so it can succeed after
that. A version that a rotation has exchanged is never present again.
-/

namespace KjAtlas.AuthSession

abbrev Journal : Type := List (Call × Answer)

def run (tenants : List String) (calls : List Call) : Run Table Call Answer :=
  runCalls Table.serve ⟨tenants, []⟩ calls

/-! ## Properties -/

def Created (key : String) (entry : Call × Answer) : Prop :=
  ∃ request, entry.1.operation = .create request ∧ request.sessionKeyHash = key

/-- A resolve of the key returns `None`. -/
def ResolvedNone (key : String) (entry : Call × Answer) : Prop :=
  entry.1.operation = .resolve key ∧ entry.2 = .resolved none

/-- The session and the version that a rotation succeeds with. -/
def won (entry : Call × Answer) : Option (String × String) :=
  match entry.1.operation, entry.2 with
  | .rotate request, .rotated true => some (request.sessionKeyHash, request.expectedVersion)
  | _, _ => none

/-- A resolve of the key returns a session, or a rotation of it succeeds. -/
def Alive (key : String) (entry : Call × Answer) : Prop :=
  (entry.1.operation = .resolve key ∧ entry.2 ≠ .resolved none) ∨
    ∃ version, won entry = some (key, version)

/-- No session that exists is alive again after a resolve has returned `None` for it. -/
def StaysDead (journal : Journal) : Prop :=
  ∀ key created resolved later, [created, resolved, later].Sublist journal →
    Created key created → ResolvedNone key resolved → ¬Alive key later

/-- No two rotations of a session succeed with one version. -/
def RotatesOnce (journal : Journal) : Prop := (journal.filterMap won).Nodup

/-! ## Conditions -/

def Call.newVersion (call : Call) : Option String :=
  match call.operation with
  | .create request => some request.tenantSessionVersion
  | .rotate request => some request.newVersion
  | _ => none

/-- A rotation comes with a version that no call before it has written. -/
def FreshAfter (earlier later : Call) : Prop :=
  match later.operation with
  | .rotate request => earlier.newVersion ≠ some request.newVersion
  | _ => True

instance (earlier later : Call) : Decidable (FreshAfter earlier later) := by
  unfold FreshAfter
  split <;> infer_instance

/-- A rotation that finds its session unrevoked, with the version it presents, comes before the
session is over. -/
def RotatesInTime (t : Table) (call : Call) : Prop :=
  match call.operation with
  | .rotate request =>
      ∀ row ∈ t.find request.sessionKeyHash, request.Hits row → ¬row.IsOver call.now
  | _ => True

instance (t : Table) (call : Call) : Decidable (RotatesInTime t call) := by
  unfold RotatesInTime
  split <;> infer_instance

/-! ## One call -/

variable {version : String}

section Step

variable {t next : Table} {call : Call} {answer : Answer} {key : String}

theorem find_put (t : Table) (row : SaasAuthSessionRow) (key : String) :
    (t.put row).find key = if row.sessionKeyHash = key then some row else t.find key :=
  findBy_upsertBy _ key row t.rows

variable {row : SaasAuthSessionRow} {now : Int} {request : CreateAuthSession}

theorem key_of_find (hfind : t.find key = some row) : row.sessionKeyHash = key :=
  (findBy_eq_some _ hfind).2

variable {moved : SaasAuthSessionRow}

theorem find_put_of_find (hrow : t.find key = some row)
    (hkey : moved.sessionKeyHash = row.sessionKeyHash) : (t.put moved).find key = some moved := by
  rw [find_put, if_pos (hkey.trans (key_of_find hrow))]

/-- Writing a session leaves the others alone. -/
theorem find_put_of_ne {other : String} (hrow : t.find other = some row)
    (hkey : moved.sessionKeyHash = row.sessionKeyHash) (hne : other ≠ key) :
    (t.put moved).find key = t.find key := by
  rw [find_put, if_neg]
  rw [hkey, key_of_find hrow]
  exact hne

theorem SaasAuthSessionRow.IsOver.later {later : Int} (hover : row.IsOver now) (hle : now ≤ later) :
    row.IsOver later := by
  rcases hover with hrevoked | habsolute | hidle
  · exact Or.inl hrevoked
  · exact Or.inr (Or.inl (Int.le_trans habsolute hle))
  · exact Or.inr (Or.inr (Int.le_trans hidle hle))

def RotatesTo (call : Call) (version : String) : Prop :=
  ∃ request, call.operation = .rotate request ∧ request.newVersion = version

/-- What a call does to a session that exists. -/
structure Moves (t : Table) (call : Call) (answer : Answer) (key : String)
    (row moved : SaasAuthSessionRow) : Prop where
  isOver : row.IsOver call.now → moved.IsOver call.now
  version : moved.tenantSessionVersion = row.tenantSessionVersion ∨
    RotatesTo call moved.tenantSessionVersion
  wins : ∀ version, won (call, answer) = some (key, version) →
    version = row.tenantSessionVersion ∧ RotatesTo call moved.tenantSessionVersion
  alive : Alive key (call, answer) → RotatesInTime t call → ¬row.IsOver call.now
  none : ResolvedNone key (call, answer) → row.IsOver call.now

theorem Moves.refl (hwon : ∀ version, won (call, answer) ≠ some (key, version))
    (hresolve : call.operation ≠ .resolve key) : Moves t call answer key row row where
  isOver := id
  version := Or.inl rfl
  wins version hwins := absurd hwins (hwon version)
  alive halive := by
    rcases halive with ⟨hkey, -⟩ | ⟨version, hwins⟩
    · exact absurd hkey hresolve
    · exact absurd hwins (hwon version)
  none hnone := absurd hnone.1 hresolve

theorem createAuthSession_eq_ok :
    createAuthSession t request now = .ok next ↔
      ∃ rows, insertBy SaasAuthSessionRow.sessionKeyHash (request.row now) t.rows = some rows ∧
        (∀ tenantId ∈ request.activeTenantId, tenantId ∈ t.tenants) ∧
        next = { t with rows } := by
  unfold createAuthSession
  simp only [bind_eq_ok, ensure_eq_ok, found_eq_ok, pure_eq_ok]
  constructor
  · rintro ⟨rows, hinsert, -, htenant, rfl⟩
    exact ⟨rows, hinsert, htenant, rfl⟩
  · rintro ⟨rows, hinsert, htenant, rfl⟩
    exact ⟨rows, hinsert, (), htenant, rfl⟩

theorem find_createAuthSession (hcreate : createAuthSession t request now = .ok next)
    (key : String) :
    t.find request.sessionKeyHash = none ∧
      next.find key = if request.sessionKeyHash = key then some (request.row now)
        else t.find key := by
  obtain ⟨rows, hinsert, -, rfl⟩ := createAuthSession_eq_ok.mp hcreate
  exact ⟨((insertBy_eq_some _).mp hinsert).1, findBy_insertBy _ hinsert key⟩

theorem resolveAuthSession_cases (t : Table) (key : String) (now : Int) :
    (resolveAuthSession t key now = (none, t) ∧ ∀ row ∈ t.find key, row.IsOver now) ∨
      ∃ row, t.find key = some row ∧ ¬row.IsOver now ∧
        resolveAuthSession t key now =
          (some row.resolved, t.put { row with lastUsedAt := now }) := by
  unfold resolveAuthSession
  cases hfind : t.find key with
  | none => exact Or.inl ⟨rfl, by simp⟩
  | some row =>
      by_cases hover : row.IsOver now
      · exact Or.inl ⟨if_pos hover, by simpa using hover⟩
      · exact Or.inr ⟨row, rfl, hover, if_neg hover⟩

theorem serve_create :
    t.serve ⟨now, .create request⟩ = .ok (answer, next) ↔
      answer = .created ∧ createAuthSession t request now = .ok next := by
  show (createAuthSession t request now).map _ = _ ↔ _
  cases createAuthSession t request now with
  | error error => simp [Except.map]
  | ok other => simp [Except.map, eq_comm]

theorem serve_rotate {request : RotateActiveTenant}
    (hok : t.serve ⟨now, .rotate request⟩ = .ok (answer, next)) :
    (answer = .rotated false ∧ next = t) ∨
      ∃ row, t.find request.sessionKeyHash = some row ∧ request.Hits row ∧
        answer = .rotated true ∧ next = t.put { row with
          activeTenantId := some request.newActiveTenantId
          tenantSessionVersion := request.newVersion } := by
  change (rotateActiveTenant t request).map _ = _ at hok
  unfold rotateActiveTenant at hok
  cases hfind : (t.find request.sessionKeyHash).filter fun row => request.Hits row with
  | none =>
      rw [hfind] at hok
      obtain ⟨rfl, rfl⟩ := Prod.mk.inj (Except.ok.inj hok)
      exact Or.inl ⟨rfl, rfl⟩
  | some row =>
      rw [hfind] at hok
      obtain ⟨hrow, hhits⟩ := Option.filter_eq_some_iff.mp hfind
      by_cases htenant : request.newActiveTenantId ∈ t.tenants
      · simp only [ensure, if_pos htenant] at hok
        obtain ⟨rfl, rfl⟩ := Prod.mk.inj (Except.ok.inj hok)
        exact Or.inr ⟨row, hrow, of_decide_eq_true hhits, rfl, rfl⟩
      · simp only [ensure, if_neg htenant] at hok
        cases hok

theorem serve_resolve (hok : t.serve ⟨now, .resolve key⟩ = .ok (answer, next)) :
    (answer = .resolved none ∧ next = t ∧ ∀ row ∈ t.find key, row.IsOver now) ∨
      ∃ row, t.find key = some row ∧ ¬row.IsOver now ∧ answer = .resolved (some row.resolved) ∧
        next = t.put { row with lastUsedAt := now } := by
  change Except.ok (Answer.resolved (resolveAuthSession t key now).1,
    (resolveAuthSession t key now).2) = _ at hok
  obtain ⟨rfl, rfl⟩ := Prod.mk.inj (Except.ok.inj hok)
  rcases resolveAuthSession_cases t key now with ⟨heq, hover⟩ | ⟨row, hfind, hlive, heq⟩
  · rw [heq]
    exact Or.inl ⟨rfl, rfl, hover⟩
  · rw [heq]
    exact Or.inr ⟨row, hfind, hlive, rfl, rfl⟩

theorem revokeAuthSession_cases (t : Table) (key : String) (now : Int) :
    (t.find key = none ∧ revokeAuthSession t key now = t) ∨
      ∃ row, t.find key = some row ∧
        revokeAuthSession t key now = t.put { row with revokedAt := some now } := by
  unfold revokeAuthSession
  cases hfind : t.find key with
  | none => exact Or.inl ⟨rfl, rfl⟩
  | some row => exact Or.inr ⟨row, rfl, rfl⟩

theorem find_of_created (hok : t.serve call = .ok (answer, next))
    (hcreated : Created key (call, answer)) : ∃ row, next.find key = some row := by
  obtain ⟨now, operation⟩ := call
  obtain ⟨request, hoperation, rfl⟩ := hcreated
  change operation = _ at hoperation
  subst hoperation
  obtain ⟨-, hfind⟩ := find_createAuthSession (serve_create.mp hok).2 request.sessionKeyHash
  exact ⟨request.row now, by rw [hfind, if_pos rfl]⟩

theorem find_of_find_put {other : SaasAuthSessionRow} {at' : String} (hrow : t.find at' = some row)
    (hkey : moved.sessionKeyHash = row.sessionKeyHash)
    (hfind : (t.put moved).find key = some other) :
    (at' = key ∧ moved = other) ∨ (at' ≠ key ∧ t.find key = some other) := by
  rw [find_put, hkey, key_of_find hrow] at hfind
  split at hfind
  next heq => exact Or.inl ⟨heq, Option.some.inj hfind⟩
  next hne => exact Or.inr ⟨hne, hfind⟩

/-- The active tenant and the version that a call gives to a session. -/
def selects (entry : Call × Answer) : Option (String × Option String × String) :=
  match entry.1.operation, entry.2 with
  | .create request, _ =>
      some (request.sessionKeyHash, request.activeTenantId, request.tenantSessionVersion)
  | .rotate request, .rotated true =>
      some (request.sessionKeyHash, some request.newActiveTenantId, request.newVersion)
  | _, _ => none

/-- The session is created, or a resolve of the key returns it. -/
def Uses (key : String) (entry : Call × Answer) : Prop :=
  Created key entry ∨ (entry.1.operation = .resolve key ∧ entry.2 ≠ .resolved none)

/-- What stays of a session that exists. -/
structure Keeps (call : Call) (answer : Answer) (key : String) (row moved : SaasAuthSessionRow) :
    Prop where
  login : (moved.principalId, moved.issuer, moved.subject, moved.absoluteExpiresAt) =
    (row.principalId, row.issuer, row.subject, row.absoluteExpiresAt)
  tenant : (moved.activeTenantId, moved.tenantSessionVersion) =
      (row.activeTenantId, row.tenantSessionVersion) ∨
    selects (call, answer) = some (key, moved.activeTenantId, moved.tenantSessionVersion)
  used : moved.lastUsedAt = row.lastUsedAt ∨ Uses key (call, answer) ∧ call.now = moved.lastUsedAt
  unrevoked : moved.revokedAt = none → row.revokedAt = none ∧ call.operation ≠ .revoke key

theorem Keeps.refl (hrevoke : call.operation ≠ .revoke key) : Keeps call answer key row row :=
  ⟨rfl, Or.inl rfl, Or.inl rfl, fun hnone => ⟨hnone, hrevoke⟩⟩

/-- A session that is found after a call is created by it, or is found before it. -/
theorem find_before (hok : t.serve call = .ok (answer, next)) (hfind : next.find key = some moved) :
    (∃ request, call.operation = .create request ∧ answer = .created ∧
        request.sessionKeyHash = key ∧ request.row call.now = moved) ∨
      ∃ row, t.find key = some row ∧ Keeps call answer key row moved := by
  obtain ⟨now, operation⟩ := call
  cases operation with
  | create request =>
      obtain ⟨rfl, hcreate⟩ := serve_create.mp hok
      rw [(find_createAuthSession hcreate key).2] at hfind
      split at hfind
      next hkey => exact Or.inl ⟨request, rfl, rfl, hkey, Option.some.inj hfind⟩
      next => exact Or.inr ⟨moved, hfind, Keeps.refl (by simp)⟩
  | resolve other =>
      right
      rcases serve_resolve hok with ⟨-, rfl, -⟩ | ⟨row, hrow, -, rfl, rfl⟩
      · exact ⟨moved, hfind, Keeps.refl (by simp)⟩
      · rcases find_of_find_put hrow (by rfl) hfind with ⟨rfl, rfl⟩ | ⟨-, hfind⟩
        · exact ⟨row, hrow, rfl, Or.inl rfl, Or.inr ⟨Or.inr ⟨rfl, by simp⟩, rfl⟩,
            fun hnone => ⟨hnone, by simp⟩⟩
        · exact ⟨moved, hfind, Keeps.refl (by simp)⟩
  | rotate request =>
      right
      rcases serve_rotate hok with ⟨-, rfl⟩ | ⟨row, hrow, -, rfl, rfl⟩
      · exact ⟨moved, hfind, Keeps.refl (by simp)⟩
      · rcases find_of_find_put hrow (by rfl) hfind with ⟨rfl, rfl⟩ | ⟨-, hfind⟩
        · exact ⟨row, hrow, rfl, Or.inr rfl, Or.inl rfl, fun hnone => ⟨hnone, by simp⟩⟩
        · exact ⟨moved, hfind, Keeps.refl (by simp)⟩
  | revoke other =>
      right
      obtain ⟨-, rfl⟩ := Prod.mk.inj (Except.ok.inj hok)
      rcases revokeAuthSession_cases t other now with ⟨hnone, heq⟩ | ⟨row, hrow, heq⟩
      · rw [heq] at hfind
        refine ⟨moved, hfind, Keeps.refl ?_⟩
        rintro ⟨⟩
        rw [hnone] at hfind
        cases hfind
      · rw [heq] at hfind
        rcases find_of_find_put hrow (by rfl) hfind with ⟨rfl, rfl⟩ | ⟨hne, hfind⟩
        · exact ⟨row, hrow, rfl, Or.inl rfl, Or.inl rfl, by simp⟩
        · exact ⟨moved, hfind, Keeps.refl (by simpa using hne)⟩

/-- A rotation that succeeds finds its session. -/
theorem find_of_won (hok : t.serve call = .ok (answer, next))
    (hwins : won (call, answer) = some (key, version)) : ∃ row, t.find key = some row := by
  obtain ⟨now, operation⟩ := call
  cases operation with
  | create | resolve | revoke => cases hwins
  | rotate request =>
      rcases serve_rotate hok with ⟨rfl, -⟩ | ⟨row, hrow, -, rfl, -⟩
      · cases hwins
      · obtain ⟨rfl, -⟩ := Prod.mk.inj (Option.some.inj hwins)
        exact ⟨row, hrow⟩

theorem moves_of_serve (hok : t.serve call = .ok (answer, next)) (hfind : t.find key = some row) :
    ∃ moved, next.find key = some moved ∧ Moves t call answer key row moved := by
  obtain ⟨now, operation⟩ := call
  cases operation with
  | create request =>
      obtain ⟨hnew, hnext⟩ := find_createAuthSession (serve_create.mp hok).2 key
      have hne : request.sessionKeyHash ≠ key := by
        rintro rfl
        rw [hnew] at hfind
        cases hfind
      rw [if_neg hne] at hnext
      exact ⟨row, hnext.trans hfind, Moves.refl (by simp [won]) (by simp)⟩
  | resolve other =>
      have hwon : won (⟨now, .resolve other⟩, answer) = none := rfl
      rcases serve_resolve hok with ⟨rfl, rfl, hover⟩ | ⟨found, hfound, hlive, rfl, rfl⟩
      · refine ⟨row, hfind, id, Or.inl rfl, by simp [hwon], ?_, ?_⟩
        · rintro (⟨-, hanswer⟩ | ⟨version, hwins⟩)
          · exact absurd rfl hanswer
          · rw [hwon] at hwins
            cases hwins
        · rintro ⟨hkey, -⟩
          obtain rfl := Operation.resolve.inj hkey
          exact hover row hfind
      · by_cases hkey : other = key
        · subst hkey
          obtain rfl := Option.some.inj (hfound.symm.trans hfind)
          refine ⟨_, find_put_of_find hfound (by rfl), fun hover => absurd hover hlive, Or.inl rfl,
            by simp [hwon], fun _ _ => hlive, ?_⟩
          rintro ⟨-, hanswer⟩
          cases hanswer
        · exact ⟨row, (find_put_of_ne hfound (by rfl) hkey).trans hfind,
            Moves.refl (by simp [hwon]) (by simpa using hkey)⟩
  | rotate request =>
      rcases serve_rotate hok with ⟨rfl, rfl⟩ | ⟨found, hfound, hhits, rfl, rfl⟩
      · exact ⟨row, hfind, Moves.refl (by simp [won]) (by simp)⟩
      · by_cases hkey : request.sessionKeyHash = key
        · subst hkey
          obtain rfl := Option.some.inj (hfound.symm.trans hfind)
          refine ⟨_, find_put_of_find hfound (by rfl), id, Or.inr ⟨request, rfl, rfl⟩, ?_,
            ?_, ?_⟩
          · intro version hwins
            obtain ⟨-, rfl⟩ := Prod.mk.inj (Option.some.inj hwins)
            exact ⟨hhits.1.symm, request, rfl, rfl⟩
          · exact fun _ hintime => hintime found hfound hhits
          · rintro ⟨hoperation, -⟩
            cases hoperation
        · refine ⟨row, (find_put_of_ne hfound (by rfl) hkey).trans hfind, Moves.refl ?_ (by simp)⟩
          intro version hwins
          exact hkey (Prod.mk.inj (Option.some.inj hwins)).1
  | revoke other =>
      obtain ⟨rfl, rfl⟩ := Prod.mk.inj (Except.ok.inj hok)
      rcases revokeAuthSession_cases t other now with ⟨-, heq⟩ | ⟨found, hfound, heq⟩
      · rw [heq]
        exact ⟨row, hfind, Moves.refl (by simp [won]) (by simp)⟩
      · rw [heq]
        by_cases hkey : other = key
        · subst hkey
          obtain rfl := Option.some.inj (hfound.symm.trans hfind)
          refine ⟨_, find_put_of_find hfound (by rfl), fun _ => Or.inl (by simp),
            Or.inl rfl, by simp [won], ?_, ?_⟩
          · rintro (⟨hoperation, -⟩ | ⟨version, hwins⟩)
            · cases hoperation
            · cases hwins
          · rintro ⟨hoperation, -⟩
            cases hoperation
        · exact ⟨row, (find_put_of_ne hfound (by rfl) hkey).trans hfind,
            Moves.refl (by simp [won]) (by simp)⟩

end Step

/-! ## Runs -/

/-- The versions that the calls so far have written. -/
def written (journal : Journal) : List String := journal.filterMap fun entry => entry.1.newVersion

/-- Found sessions that are over, and versions that were exchanged, stay what they are. -/
structure Good (run : Run Table Call Answer) : Prop where
  created : ∀ entry ∈ run.journal, ∀ key, Created key entry → ∃ row, run.state.find key = some row
  dead : ∀ key created resolved, [created, resolved].Sublist run.journal →
    Created key created → ResolvedNone key resolved →
    ∃ row, run.state.find key = some row ∧ ∃ entry ∈ run.journal, row.IsOver entry.1.now
  written : ∀ key row, run.state.find key = some row →
    row.tenantSessionVersion ∈ written run.journal
  exchanged : ∀ entry ∈ run.journal, ∀ key version, won entry = some (key, version) →
    version ∈ AuthSession.written run.journal ∧
      ∃ row, run.state.find key = some row ∧ row.tenantSessionVersion ≠ version
  stays : StaysDead run.journal
  once : RotatesOnce run.journal

/-- What a call comes with after the calls so far. -/
structure Meets (run : Run Table Call Answer) (call : Call) : Prop where
  clock : ∀ entry ∈ run.journal, entry.1.now ≤ call.now
  fresh : ∀ entry ∈ run.journal, FreshAfter entry.1 call
  inTime : RotatesInTime run.state call

section Journal

variable {journal : Journal} {entry : Call × Answer}

theorem concat_sublist_concat {items : Journal} {last : Call × Answer}
    (hsublist : (items ++ [last]).Sublist (journal ++ [entry])) :
    (items ++ [last]).Sublist journal ∨ last = entry ∧ items.Sublist journal := by
  rw [← List.reverse_sublist] at hsublist
  simp only [List.reverse_append, List.reverse_cons, List.reverse_nil, List.nil_append,
    List.singleton_append] at hsublist
  rcases List.cons_sublist_cons'.mp hsublist with h | ⟨rfl, h⟩
  · left
    rw [← List.reverse_sublist]
    simpa using h
  · exact Or.inr ⟨rfl, List.reverse_sublist.mp h⟩

theorem written_concat :
    written (journal ++ [entry]) = written journal ++ entry.1.newVersion.toList := by
  unfold written
  rw [List.filterMap_append]
  cases hversion : entry.1.newVersion <;> simp [hversion]

end Journal

variable {run : Run Table Call Answer} {call : Call} {answer : Answer} {next : Table}

theorem good_empty (tenants : List String) : Good ⟨[], ⟨tenants, []⟩⟩ where
  created := by simp
  dead := by simp
  written := by simp [Table.find]
  exchanged := by simp
  stays key created resolved later hsublist := by simp at hsublist
  once := List.nodup_nil

/-- A session that was found over is still over when a call comes. -/
theorem Good.isOver (hgood : Good run) (hmeets : Meets run call) {key : String}
    {created resolved : Call × Answer} (hsublist : [created, resolved].Sublist run.journal)
    (hcreated : Created key created) (hresolved : ResolvedNone key resolved) :
    ∃ row, run.state.find key = some row ∧ row.IsOver call.now := by
  obtain ⟨row, hrow, entry, hentry, hover⟩ :=
    hgood.dead key created resolved hsublist hcreated hresolved
  exact ⟨row, hrow, hover.later (hmeets.clock entry hentry)⟩

theorem Meets.not_written (hmeets : Meets run call) (hrotates : RotatesTo call version) :
    version ∉ written run.journal := by
  obtain ⟨request, hoperation, rfl⟩ := hrotates
  intro hwritten
  obtain ⟨entry, hentry, hversion⟩ := List.mem_filterMap.mp hwritten
  have hfresh := hmeets.fresh entry hentry
  rw [FreshAfter, hoperation] at hfresh
  exact hfresh hversion

theorem newVersion_of_rotatesTo (hrotates : RotatesTo call version) :
    call.newVersion = some version := by
  obtain ⟨request, hoperation, rfl⟩ := hrotates
  rw [Call.newVersion, hoperation]

theorem Good.step (hgood : Good run) (hmeets : Meets run call)
    (hok : run.state.serve call = .ok (answer, next)) :
    Good ⟨run.journal ++ [(call, answer)], next⟩ where
  created := by
    intro entry hentry key hcreated
    rcases mem_snoc.mp hentry with hentry | rfl
    · obtain ⟨row, hrow⟩ := hgood.created entry hentry key hcreated
      obtain ⟨moved, hmoved, -⟩ := moves_of_serve hok hrow
      exact ⟨moved, hmoved⟩
    · exact find_of_created hok hcreated
  dead := by
    intro key created resolved hsublist hcreated hresolved
    have hlast : (call, answer) ∈ run.journal ++ [(call, answer)] := by simp
    rcases @concat_sublist_concat _ _ [created] _ hsublist with hbefore | ⟨rfl, hbefore⟩
    · obtain ⟨row, hrow, hover⟩ := hgood.isOver hmeets hbefore hcreated hresolved
      obtain ⟨moved, hmoved, hmoves⟩ := moves_of_serve hok hrow
      exact ⟨moved, hmoved, _, hlast, hmoves.isOver hover⟩
    · obtain ⟨row, hrow⟩ := hgood.created created (by simpa using hbefore) key hcreated
      obtain ⟨moved, hmoved, hmoves⟩ := moves_of_serve hok hrow
      exact ⟨moved, hmoved, _, hlast, hmoves.isOver (hmoves.none hresolved)⟩
  written := by
    intro key moved hmoved
    rw [written_concat, List.mem_append]
    have hnew : call.newVersion = some moved.tenantSessionVersion →
        moved.tenantSessionVersion ∈ call.newVersion.toList := by
      intro hversion
      simp [hversion]
    rcases find_before hok hmoved with ⟨request, hoperation, -, -, rfl⟩ | ⟨row, hrow, -⟩
    · exact Or.inr (hnew (by rw [Call.newVersion, hoperation]; rfl))
    · obtain ⟨other, hother, hmoves⟩ := moves_of_serve hok hrow
      obtain rfl := Option.some.inj (hother.symm.trans hmoved)
      rcases hmoves.version with hversion | hversion
      · rw [hversion]
        exact Or.inl (hgood.written key row hrow)
      · exact Or.inr (hnew (newVersion_of_rotatesTo hversion))
  exchanged := by
    intro entry hentry key version hwins
    rw [written_concat, List.mem_append]
    rcases mem_snoc.mp hentry with hentry | rfl
    · obtain ⟨hwritten, row, hrow, hne⟩ := hgood.exchanged entry hentry key version hwins
      obtain ⟨moved, hmoved, hmoves⟩ := moves_of_serve hok hrow
      refine ⟨Or.inl hwritten, moved, hmoved, ?_⟩
      rcases hmoves.version with hversion | hversion
      · exact hversion ▸ hne
      · rintro rfl
        exact hmeets.not_written hversion hwritten
    · obtain ⟨row, hrow⟩ := find_of_won hok hwins
      obtain ⟨moved, hmoved, hmoves⟩ := moves_of_serve hok hrow
      obtain ⟨rfl, hversion⟩ := hmoves.wins version hwins
      have hwritten := hgood.written key row hrow
      refine ⟨Or.inl hwritten, moved, hmoved, fun heq => ?_⟩
      exact hmeets.not_written hversion (heq ▸ hwritten)
  stays := by
    intro key created resolved later hsublist hcreated hresolved halive
    rcases @concat_sublist_concat _ _ [created, resolved] _ hsublist with
      hbefore | ⟨rfl, hbefore⟩
    · exact hgood.stays key created resolved later hbefore hcreated hresolved halive
    · obtain ⟨row, hrow, hover⟩ := hgood.isOver hmeets hbefore hcreated hresolved
      obtain ⟨moved, hmoved, hmoves⟩ := moves_of_serve hok hrow
      exact hmoves.alive halive hmeets.inTime hover
  once := by
    rw [RotatesOnce, List.filterMap_append]
    cases hwins : won (call, answer) with
    | none =>
        rw [List.filterMap_cons_none hwins, List.filterMap_nil, List.append_nil]
        exact hgood.once
    | some pair =>
        obtain ⟨key, version⟩ := pair
        rw [List.filterMap_cons_some hwins, List.filterMap_nil]
        apply List.Nodup.append hgood.once (List.nodup_singleton _)
        rw [List.disjoint_singleton]
        intro hearlier
        obtain ⟨entry, hentry, hwon⟩ := List.mem_filterMap.mp hearlier
        obtain ⟨-, row, hrow, hne⟩ := hgood.exchanged entry hentry key version hwon
        obtain ⟨moved, hmoved, hmoves⟩ := moves_of_serve hok hrow
        exact hne (hmoves.wins version hwins).1.symm

/-- Under a clock that never goes back, and with new versions at rotations, a session that was found
dead stays dead, and no version is exchanged twice, if every rotation comes before the session that
it would change is over. -/
theorem dead_stays_dead (tenants : List String) (calls : List Call)
    (hclock : calls.Pairwise fun earlier later => earlier.now ≤ later.now)
    (hfresh : calls.Pairwise FreshAfter)
    (hintime : CallsMeet Table.serve ⟨tenants, []⟩ (fun run call => RotatesInTime run.state call)
      calls) :
    StaysDead (AuthSession.run tenants calls).journal ∧
      RotatesOnce (AuthSession.run tenants calls).journal := by
  have hmeets : CallsMeet Table.serve ⟨tenants, []⟩ Meets calls := fun before call after hsplit =>
    ⟨callsMeet_of_pairwise hclock before call after hsplit,
      callsMeet_of_pairwise hfresh before call after hsplit, hintime before call after hsplit⟩
  have hgood : Good (AuthSession.run tenants calls) :=
    runCalls_induction_of_meet (good_empty tenants)
      (fun _ _ _ _ hgood hmeets hok => hgood.step hmeets hok) hmeets
  exact ⟨hgood.stays, hgood.once⟩

namespace Expired

def login : CreateAuthSession := ⟨"k", "u", "iss", "sub", none, "v1"⟩

def hour : Int := 60 * 60 * 1000000

/-- A session is found dead after thirteen hours, and its tenant is selected then. -/
def calls : List Call :=
  [⟨0, .create login⟩, ⟨13 * hour, .resolve "k"⟩, ⟨13 * hour, .rotate ⟨"k", "v1", "t", "v2"⟩⟩]

theorem rotates_dead_session :
    (calls.Pairwise fun earlier later => earlier.now ≤ later.now) ∧ calls.Pairwise FreshAfter ∧
      ¬StaysDead (AuthSession.run ["t"] calls).journal := by
  refine ⟨by decide, by decide, fun hstays => ?_⟩
  have hjournal : (AuthSession.run ["t"] calls).journal =
      [(⟨0, .create login⟩, .created), (⟨13 * hour, .resolve "k"⟩, .resolved none),
        (⟨13 * hour, .rotate ⟨"k", "v1", "t", "v2"⟩⟩, .rotated true)] := rfl
  rw [hjournal] at hstays
  exact hstays "k" _ _ _ (List.Sublist.refl _) ⟨login, rfl, rfl⟩ ⟨rfl, rfl⟩ (Or.inr ⟨"v1", rfl⟩)

end Expired

namespace Current

/-- The tenant of a session in use is selected twice with one version, then nobody uses it for
an hour. -/
def calls : List Call :=
  [⟨0, .create Expired.login⟩, ⟨1, .rotate ⟨"k", "v1", "t", "v2"⟩⟩,
    ⟨1, .rotate ⟨"k", "v1", "t", "v3"⟩⟩, ⟨Expired.hour, .resolve "k"⟩,
    ⟨2 * Expired.hour, .resolve "k"⟩]

theorem current_stays_dead :
    StaysDead (AuthSession.run ["t"] calls).journal ∧
      RotatesOnce (AuthSession.run ["t"] calls).journal :=
  dead_stays_dead ["t"] calls (by decide) (by decide) (by decide)

end Current

end KjAtlas.AuthSession
