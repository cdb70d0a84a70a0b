import KjAtlas.Guests.Redeem

/-! # Redemptions are complete or have no effect

A redemption that succeeds activates the principal, consumes the state and creates
one session, and no state is consumed twice. The repository strips the identity
that it writes, and the session store compares what it finds with the identity as
it was presented. Between the two a redemption fails with an error that is not
caught when the identity has white space at its ends.
-/

namespace KjAtlas.Guest.Redeem

variable {host : Host} {s next : Store} {request : RedeemVerifiedIdentity}

/-- One principal is activated, one state is consumed and one session is created. -/
def Completed (host : Host) (s : Store) (request : RedeemVerifiedIdentity) (next : Store) : Prop :=
  ∃ row principal activated session current,
    s.state? (stateKey host request.rawState request.hashKey) = some row ∧
    row.consumedAt = none ∧
    s.tables.HasPrincipal principal ∧ principal.key = (row.tenantId, row.guestPrincipalId) ∧
    principal.status = .pending ∧ activated.key = principal.key ∧ activated.status = .active ∧
    activated.verifiedIssuer = some request.identity.issuer ∧
    activated.verifiedSubject = some request.identity.subject ∧
    next = {
      tables := s.tables.putPrincipal activated
      states := upsertBy GuestRedeemStateRow.stateKeyHash
        { row with consumedAt := some (host.isoformat current) } s.states
      sessions := s.sessions ++ [session] }

/-- A redemption is complete, or raises a `GuestRedeemError`. -/
def AllOrNothing (host : Host) (s : Store) : Call → Prop
  | .redeemVerifiedIdentity request =>
      (∃ next, serve host s (.redeemVerifiedIdentity request) =
        .ok (.redeemed request.rawSessionId, next) ∧ Completed host s request next) ∨
      ∃ message, serve host s (.redeemVerifiedIdentity request) =
        .error (.guestRedeemError message)
  | _ => True

def consumed (host : Host) : Call × Answer → Option String
  | (.redeemVerifiedIdentity request, .redeemed _) =>
      some (stateKey host request.rawState request.hashKey)
  | _ => none

/-- No state is consumed by two redemptions. -/
def ConsumedOnce (host : Host) (journal : List (Call × Answer)) : Prop :=
  (journal.filterMap (consumed host)).Nodup

/-! ## Conditions -/

/-- The session that a redemption creates gets a new key. -/
def FreshSession (host : Host) (s : Store) : Call → Prop
  | .redeemVerifiedIdentity request =>
      s.session? (host.deriveSessionKeyHash request.rawSessionId request.sessionHashKey) = none
  | _ => True

instance (host : Host) (s : Store) (call : Call) : Decidable (FreshSession host s call) := by
  cases call <;> unfold FreshSession <;> infer_instance

/-- A redemption presents a redeem state that is valid. -/
structure Presented (host : Host) (s : Store) (request : RedeemVerifiedIdentity)
    (row : GuestRedeemStateRow) (current : Int) : Prop where
  now : request.now.utc = some current
  rawState : request.rawState ≠ "" ∧ request.rawState.length ≤ 256 ∧
    stripText request.rawState = request.rawState
  state : s.state? (stateKey host request.rawState request.hashKey) = some row
  valid : row.Valid host current

/-- The state, the invitation and the identity of a redemption pass the checks that come before
its session. -/
structure Redeems (host : Host) (s : Store) (request : RedeemVerifiedIdentity)
    (row : GuestRedeemStateRow) (principal : GuestPrincipalRow) (current : Int) : Prop
    extends Presented host s request row current where
  invited : s.tables.principal? row.tenantId row.guestPrincipalId = some principal
  pending : principal.status = .pending
  inTime : ∃ expiry ∈ parseAwareTimestamp host.toPython principal.expiresAt, current < expiry
  issuer : stripText request.identity.issuer ≠ ""
  subject : stripText request.identity.subject ≠ ""
  alone : ¬belongsToAnother s.tables row.tenantId row.guestPrincipalId
    (stripText request.identity.issuer) (stripText request.identity.subject)
  redeemedAt : stripText (host.isoformat current) ≠ ""

/-- The identity has no white space at its ends and can be stored. -/
structure VerifiedGuestIdentity.Plain (host : Host) (identity : VerifiedGuestIdentity) : Prop where
  issuer : stripText identity.issuer = identity.issuer
  subject : stripText identity.subject = identity.subject
  storable : host.storable identity.issuer = true ∧ host.storable identity.subject = true

/-- A redemption that passes the earlier checks has a plain identity. -/
def RedeemsPlain (host : Host) (s : Store) : Call → Prop
  | .redeemVerifiedIdentity request =>
      ∀ row principal current, Redeems host s request row principal current →
        request.identity.Plain host
  | _ => True

/-- A text without white space at its ends, and not empty. -/
def Trimmed (text : String) : Prop := stripText text = text ∧ text ≠ ""

/-- What the operations keep of the tables. -/
structure Consistent (s : Store) : Prop where
  keys : ∀ row, s.tables.HasPrincipal row → Trimmed row.tenantId ∧ Trimmed row.guestPrincipalId
  pending : ∀ row, s.tables.HasPrincipal row → row.status = .pending → row.revokedAt = none
  states : ∀ row ∈ s.states, Trimmed row.tenantId ∧ Trimmed row.guestPrincipalId

/-! ## One redemption -/

variable {tables : Tables}

section Steps

theorem required_of_trimmed {text field : String} (htrimmed : Trimmed text) :
    required text field = .ok text :=
  required_eq_ok.mpr htrimmed

theorem applyDatabaseTenantId_of_trimmed {tenantId : String} (htrimmed : Trimmed tenantId) :
    applyDatabaseTenantId tenantId = .ok () := by
  unfold applyDatabaseTenantId ensure
  rw [htrimmed.1, if_pos htrimmed.2]

/-- The error is one of the admission, which a redemption renames. -/
def IsAdmissionError (raised : Guest.Raised) : Prop :=
  ∃ message, raised = .guestAdmissionError message

theorem onlyRaises_required (value field : String) :
    OnlyRaises IsAdmissionError (required value field) := by
  dsimp only [required]
  split
  · rintro _ ⟨⟩
    exact ⟨_, rfl⟩
  · exact onlyRaises_ok _

theorem onlyRaises_futureTimestamp (py : Python) (value : String) (now : DateTime)
    (message : String) : OnlyRaises IsAdmissionError (futureTimestamp py value now message) := by
  unfold futureTimestamp awareUtc
  exact (onlyRaises_found ⟨_, rfl⟩).bind fun _ _ => (onlyRaises_found ⟨_, rfl⟩).bind fun _ _ =>
    onlyRaises_ensure ⟨_, rfl⟩

theorem onlyRaises_activateVerifiedGuest (py : Python) (tenantId : String) (guest : VerifiedGuest)
    (t : Tables) : OnlyRaises IsAdmissionError (activateVerifiedGuest py tenantId guest t) := by
  unfold activateVerifiedGuest
  refine (onlyRaises_required _ _).bind fun _ _ => (onlyRaises_found ⟨_, rfl⟩).bind fun _ _ =>
    (onlyRaises_futureTimestamp _ _ _ _).bind fun _ _ => (onlyRaises_required _ _).bind fun _ _ =>
    (onlyRaises_required _ _).bind fun _ _ => (onlyRaises_ensure ⟨_, rfl⟩).bind fun _ _ =>
    (onlyRaises_required _ _).bind fun _ _ => onlyRaises_ok _

/-- A principal as a redemption changes it. -/
def activatedBy (host : Host) (request : RedeemVerifiedIdentity) (current : Int)
    (principal : GuestPrincipalRow) : GuestPrincipalRow :=
  { principal with
    status := .active
    verifiedIssuer := some (stripText request.identity.issuer)
    verifiedSubject := some (stripText request.identity.subject)
    redeemedAt := some (stripText (host.isoformat current)) }

variable {row : GuestRedeemStateRow} {principal : GuestPrincipalRow} {current : Int}

/-- The guest repository activates the principals of redemptions that pass the checks. -/
theorem activateVerifiedGuest_iff {activated : GuestPrincipalRow}
    (hrow : Trimmed row.guestPrincipalId) :
    activateVerifiedGuest host.toPython row.tenantId (request.guest host row current) s.tables =
        .ok (activated, tables) ↔
      ∃ principal,
        s.tables.principal? row.tenantId row.guestPrincipalId = some principal ∧
        principal.status = .pending ∧
        (∃ expiry ∈ parseAwareTimestamp host.toPython principal.expiresAt, current < expiry) ∧
        stripText request.identity.issuer ≠ "" ∧ stripText request.identity.subject ≠ "" ∧
        ¬belongsToAnother s.tables row.tenantId row.guestPrincipalId
          (stripText request.identity.issuer) (stripText request.identity.subject) ∧
        stripText (host.isoformat current) ≠ "" ∧
        activated = activatedBy host request current principal ∧
        tables = s.tables.putPrincipal activated := by
  simp only [activateVerifiedGuest, RedeemVerifiedIdentity.guest, bind_eq_ok, required_eq_ok,
    found_eq_ok, ensure_eq_ok, futureTimestamp_eq_ok, Option.filter_eq_some_iff,
    decide_eq_true_eq, pure_eq_ok, Prod.mk.injEq, hrow.1]
  constructor
  · rintro ⟨_, ⟨rfl, -⟩, principal, ⟨hprincipal, hpending⟩, _, ⟨expiry, instant, hexpiry,
      hinstant, hlt⟩, _, ⟨rfl, hissuer⟩, _, ⟨rfl, hsubject⟩, _, hother, _, ⟨rfl, hredeemed⟩, rfl,
      rfl⟩
    obtain rfl := Option.some.inj hinstant
    exact ⟨principal, hprincipal, hpending, ⟨expiry, hexpiry, hlt⟩, hissuer, hsubject, hother,
      hredeemed, rfl, rfl⟩
  · rintro ⟨principal, hprincipal, hpending, ⟨expiry, hexpiry, hlt⟩, hissuer, hsubject, hother,
      hredeemed, rfl, rfl⟩
    exact ⟨_, ⟨rfl, hrow.2⟩, principal, ⟨hprincipal, hpending⟩, (), ⟨expiry, current, hexpiry, rfl,
      hlt⟩, _, ⟨rfl, hissuer⟩, _, ⟨rfl, hsubject⟩, (), hother, _, ⟨rfl, hredeemed⟩, rfl, rfl⟩

theorem Presented.trimmed (hpresented : Presented host s request row current)
    (hconsistent : Consistent s) : Trimmed row.tenantId ∧ Trimmed row.guestPrincipalId :=
  hconsistent.states row (findBy_eq_some _ hpresented.state).1

/-- The state that is presented is looked up and found valid. -/
theorem redeem_eq (hpresented : Presented host s request row current) (hconsistent : Consistent s) :
    redeemVerifiedIdentity host request s =
      ((redeemRow host request row row.tenantId current s).mapError Raised.redeemed).map
        fun next => (request.rawSessionId, next) := by
  have htenant := (hpresented.trimmed hconsistent).1
  have hutc : utc request.now = .ok current := by rw [utc, hpresented.now]; rfl
  have hhash : stateHash host request.rawState request.hashKey =
      .ok (stateKey host request.rawState request.hashKey) := by
    obtain ⟨hnonempty, hlength, hstrip⟩ := hpresented.rawState
    rw [stateHash, if_neg]
    simp only [not_or, not_lt, ne_eq, not_not]
    exact ⟨hnonempty, hlength, hstrip⟩
  have hstate : validState host (s.state? (stateKey host request.rawState request.hashKey))
      current = .ok row := by
    rw [validState, found_eq_ok, Option.filter_eq_some_iff]
    exact ⟨hpresented.state, decide_eq_true hpresented.valid⟩
  unfold redeemVerifiedIdentity redeemState
  rw [hutc, hhash]
  simp only [bind, Except.bind, hstate, applyDatabaseTenantId_of_trimmed htenant,
    required_of_trimmed htenant, Except.mapError]
  cases redeemRow host request row row.tenantId current s <;> rfl

/-- A redemption that does not present a valid state raises a `GuestRedeemError`. -/
theorem redeem_not_presented (hnot : ∀ row current, ¬Presented host s request row current) :
    ∃ message, redeemVerifiedIdentity host request s = .error (.guestRedeemError message) := by
  unfold redeemVerifiedIdentity
  cases hnow : request.now.utc with
  | none => exact ⟨_, by rw [utc, hnow]; rfl⟩
  | some current =>
      have hutc : utc request.now = .ok current := by rw [utc, hnow]; rfl
      rw [hutc]
      by_cases hraw : request.rawState = "" ∨ 256 < request.rawState.length ∨
          stripText request.rawState ≠ request.rawState
      · exact ⟨_, by rw [stateHash, if_pos hraw]; rfl⟩
      · have hhash : stateHash host request.rawState request.hashKey =
            .ok (stateKey host request.rawState request.hashKey) := by
          rw [stateHash, if_neg hraw]
        simp only [not_or, not_lt, ne_eq, not_not] at hraw
        rw [hhash]
        cases hfind : (s.state? (stateKey host request.rawState request.hashKey)).filter
            fun row => row.Valid host current with
        | none =>
            refine ⟨"redeem state is invalid", ?_⟩
            simp only [bind, Except.bind, redeemState, validState, hfind, found, Except.mapError]
            rfl
        | some row =>
            obtain ⟨hstate, hvalid⟩ := Option.filter_eq_some_iff.mp hfind
            exact absurd ⟨hnow, hraw, hstate, of_decide_eq_true hvalid⟩ (hnot row current)

/-- A redemption that does not pass the checks raises a `GuestRedeemError`. -/
theorem redeem_refused (hconsistent : Consistent s)
    (hnot : ∀ row principal current, ¬Redeems host s request row principal current) :
    ∃ message, redeemVerifiedIdentity host request s = .error (.guestRedeemError message) := by
  by_cases hpresented : ∃ row current, Presented host s request row current
  · obtain ⟨row, current, hpresented⟩ := hpresented
    rw [redeem_eq hpresented hconsistent, redeemRow]
    cases hactivate : activateVerifiedGuest host.toPython row.tenantId
        (request.guest host row current) s.tables with
    | error raised =>
        obtain ⟨message, rfl⟩ := onlyRaises_activateVerifiedGuest _ _ _ _ raised hactivate
        exact ⟨_, rfl⟩
    | ok pair =>
        obtain ⟨activated, tables⟩ := pair
        obtain ⟨principal, hinvited, hpending, hinTime, hissuer, hsubject, halone, hredeemedAt,
          -⟩ := (activateVerifiedGuest_iff (hpresented.trimmed hconsistent).2).mp hactivate
        exact absurd { hpresented with
          invited := hinvited
          pending := hpending
          inTime := hinTime
          issuer := hissuer
          subject := hsubject
          alone := halone
          redeemedAt := hredeemedAt } (hnot row principal current)
  · simp only [not_exists] at hpresented
    exact redeem_not_presented hpresented

section

variable (hredeems : Redeems host s request row principal current)
include hredeems

/-- The principal that a redemption activates is found under its key. -/
theorem Redeems.find_activated :
    (s.tables.putPrincipal (activatedBy host request current principal)).principal? row.tenantId
      row.guestPrincipalId = some (activatedBy host request current principal) := by
  have hkey : (activatedBy host request current principal).key =
      (row.tenantId, row.guestPrincipalId) := (findBy_eq_some _ hredeems.invited).2
  rw [principal?_putPrincipal, if_pos hkey]

theorem Redeems.hasPrincipal : s.tables.HasPrincipal principal := by
  obtain ⟨htenant, hid⟩ := key_of_principal? hredeems.invited
  rw [Tables.HasPrincipal, htenant, hid]
  exact hredeems.invited

theorem Redeems.isVerified_iff (hconsistent : Consistent s) :
    isVerified request.identity.issuer request.identity.subject
        (activatedBy host request current principal) = true ↔
      stripText request.identity.issuer = request.identity.issuer ∧
        stripText request.identity.subject = request.identity.subject := by
  have hrevoked := hconsistent.pending principal hredeems.hasPrincipal hredeems.pending
  simp [isVerified, activatedBy, hrevoked]

theorem Redeems.createGuestAuthSession (hconsistent : Consistent s) :
    createGuestAuthSession host (request.session host row) ⟨some current⟩
        (s.tables.putPrincipal (activatedBy host request current principal)) s.sessions =
      if stripText request.identity.issuer = request.identity.issuer ∧
          stripText request.identity.subject = request.identity.subject then
        found (.integrityError "guest_auth_sessions.session_key_hash")
          (insertBy GuestAuthSessionRow.sessionKeyHash
            ((request.session host row).row host current) s.sessions)
      else .error
        (.guestAuthSessionError "guest principal identity is not active and verified") := by
  have htenant := (hredeems.trimmed hconsistent).1
  have hrequire : requireVerifiedPrincipal
      (s.tables.putPrincipal (activatedBy host request current principal)) row.tenantId
      row.guestPrincipalId request.identity.issuer request.identity.subject =
      found (.guestAuthSessionError "guest principal identity is not active and verified")
        ((some (activatedBy host request current principal)).filter
          (isVerified request.identity.issuer request.identity.subject)) := by
    rw [requireVerifiedPrincipal, applyDatabaseTenantId_of_trimmed htenant,
      hredeems.find_activated]
    rfl
  simp only [Option.filter_some, hredeems.isVerified_iff hconsistent] at hrequire
  unfold Redeem.createGuestAuthSession
  by_cases hplain : stripText request.identity.issuer = request.identity.issuer ∧
      stripText request.identity.subject = request.identity.subject
  · rw [if_pos hplain] at hrequire ⊢
    simp only [RedeemVerifiedIdentity.session, bind, Except.bind, found, hrequire]
  · rw [if_neg hplain] at hrequire ⊢
    simp only [RedeemVerifiedIdentity.session, bind, Except.bind, found, hrequire]

theorem Redeems.redeemRow_eq (hconsistent : Consistent s) :
    redeemRow host request row row.tenantId current s =
      if host.stores (activatedBy host request current principal) then
        (Redeem.createGuestAuthSession host (request.session host row) ⟨some current⟩
          (s.tables.putPrincipal (activatedBy host request current principal)) s.sessions).map
        fun sessions => {
          tables := s.tables.putPrincipal (activatedBy host request current principal)
          states := upsertBy GuestRedeemStateRow.stateKeyHash
            { row with consumedAt := some (host.isoformat current) } s.states
          sessions }
      else .error .dataError := by
  have hactivate : activateVerifiedGuest host.toPython row.tenantId
      (request.guest host row current) s.tables = .ok
        (activatedBy host request current principal,
          s.tables.putPrincipal (activatedBy host request current principal)) :=
    (activateVerifiedGuest_iff (hredeems.trimmed hconsistent).2).mpr
      ⟨principal, hredeems.invited, hredeems.pending, hredeems.inTime, hredeems.issuer,
        hredeems.subject, hredeems.alone, hredeems.redeemedAt, rfl, rfl⟩
  rw [redeemRow, hactivate]
  by_cases hstores : host.stores (activatedBy host request current principal) = true
  · simp only [Except.mapError, bind, Except.bind, ensure, if_pos hstores]
    cases Redeem.createGuestAuthSession host (request.session host row) ⟨some current⟩
      (s.tables.putPrincipal (activatedBy host request current principal)) s.sessions <;> rfl
  · simp only [Except.mapError, bind, Except.bind, ensure, if_neg hstores]

theorem Redeems.completed (hconsistent : Consistent s) (hplain : request.identity.Plain host)
    (hfresh : FreshSession host s (.redeemVerifiedIdentity request)) :
    ∃ next, redeemVerifiedIdentity host request s = .ok (request.rawSessionId, next) ∧
      Completed host s request next := by
  have hstores : host.stores (activatedBy host request current principal) = true := by
    simp [Host.stores, activatedBy, hplain.issuer, hplain.subject, hplain.storable]
  have hinsert : insertBy GuestAuthSessionRow.sessionKeyHash
      ((request.session host row).row host current) s.sessions =
        some (s.sessions ++ [(request.session host row).row host current]) :=
    (insertBy_eq_some _).mpr ⟨hfresh, rfl⟩
  rw [redeem_eq hredeems.toPresented hconsistent, hredeems.redeemRow_eq hconsistent, if_pos hstores,
    hredeems.createGuestAuthSession hconsistent, if_pos ⟨hplain.issuer, hplain.subject⟩, hinsert]
  refine ⟨_, rfl, row, principal, activatedBy host request current principal,
    (request.session host row).row host current, current, hredeems.state, hredeems.valid.1,
    hredeems.hasPrincipal, (findBy_eq_some _ hredeems.invited).2, hredeems.pending, rfl, rfl, ?_,
    ?_, rfl⟩
  · rw [activatedBy, hplain.issuer]
  · rw [activatedBy, hplain.subject]

theorem Redeems.raises (hconsistent : Consistent s) (hplain : ¬request.identity.Plain host) :
    ∃ raised, redeemVerifiedIdentity host request s = .error raised ∧
      ∀ message, raised ≠ .guestRedeemError message := by
  rw [redeem_eq hredeems.toPresented hconsistent, hredeems.redeemRow_eq hconsistent]
  by_cases hstores : host.stores (activatedBy host request current principal) = true
  · rw [if_pos hstores, hredeems.createGuestAuthSession hconsistent, if_neg]
    · exact ⟨_, rfl, by simp [Raised.redeemed]⟩
    · rintro ⟨hissuer, hsubject⟩
      apply hplain
      refine ⟨hissuer, hsubject, ?_⟩
      simpa [Host.stores, activatedBy, hissuer, hsubject] using hstores
  · rw [if_neg hstores]
    exact ⟨_, rfl, by simp [Raised.redeemed]⟩

end

theorem serve_redeem {result : Except Raised (String × Store)}
    (hresult : redeemVerifiedIdentity host request s = result) :
    serve host s (.redeemVerifiedIdentity request) =
      result.map fun (rawSessionId, next) => (.redeemed rawSessionId, next) := by
  rw [serve, hresult]
  cases result <;> rfl

/-- A redemption that succeeds is complete. -/
theorem completed_of_ok {answer : Answer} (hconsistent : Consistent s)
    (hfresh : FreshSession host s (.redeemVerifiedIdentity request))
    (hok : serve host s (.redeemVerifiedIdentity request) = .ok (answer, next)) :
    answer = .redeemed request.rawSessionId ∧ Completed host s request next := by
  by_cases hredeems : ∃ row principal current, Redeems host s request row principal current
  · obtain ⟨row, principal, current, hredeems⟩ := hredeems
    by_cases hplain : request.identity.Plain host
    · obtain ⟨other, hother, hcompleted⟩ := hredeems.completed hconsistent hplain hfresh
      rw [serve_redeem hother] at hok
      obtain ⟨rfl, rfl⟩ := Prod.mk.inj (Except.ok.inj hok)
      exact ⟨rfl, hcompleted⟩
    · obtain ⟨raised, hraised, -⟩ := hredeems.raises hconsistent hplain
      rw [serve_redeem hraised] at hok
      cases hok
  · simp only [not_exists] at hredeems
    obtain ⟨message, herror⟩ := redeem_refused hconsistent hredeems
    rw [serve_redeem herror] at hok
    cases hok

/-- A redemption is complete or raises a `GuestRedeemError`, exactly when its identity is plain or
an earlier check stops it. -/
theorem allOrNothing_iff (hconsistent : Consistent s) {call : Call}
    (hfresh : FreshSession host s call) : AllOrNothing host s call ↔ RedeemsPlain host s call := by
  cases call with
  | redeemVerifiedIdentity request =>
      constructor
      · intro hall row principal current hredeems
        by_contra hplain
        obtain ⟨raised, hraised, hother⟩ := hredeems.raises hconsistent hplain
        rcases hall with ⟨next, hok, -⟩ | ⟨message, herror⟩
        · rw [serve_redeem hraised] at hok
          cases hok
        · rw [serve_redeem hraised] at herror
          exact hother message (Except.error.inj herror)
      · intro hplain
        by_cases hredeems : ∃ row principal current, Redeems host s request row principal current
        · obtain ⟨row, principal, current, hredeems⟩ := hredeems
          obtain ⟨next, hok, hcompleted⟩ := hredeems.completed hconsistent
            (hplain row principal current hredeems) hfresh
          exact Or.inl ⟨next, serve_redeem hok, hcompleted⟩
        · simp only [not_exists] at hredeems
          obtain ⟨message, herror⟩ := redeem_refused hconsistent hredeems
          exact Or.inr ⟨message, serve_redeem herror⟩
  | _ => exact Iff.rfl

end Steps

/-! ## Calls -/

/-- What a call that succeeds does to the tables. -/
inductive Effect (host : Host) (s : Store) : Call → Answer → Store → Prop where
  | admission {call : Guest.Call} {answer : Guest.Answer} {tables : Tables}
      (hok : Guest.serve host.toPython s.tables call = .ok (answer, tables)) :
      Effect host s (.admission call) (.admission answer) { s with tables }
  | issued {request : IssueRedeemState} {row : GuestRedeemStateRow} {principal : GuestPrincipalRow}
      {states : List GuestRedeemStateRow}
      (hprincipal : s.tables.principal? row.tenantId row.guestPrincipalId = some principal)
      (hinsert : insertBy GuestRedeemStateRow.stateKeyHash row s.states = some states) :
      Effect host s (.issueRedeemState request) (.issued request.rawState) { s with states }
  | redeemed {request : RedeemVerifiedIdentity} {next : Store}
      (hcompleted : Completed host s request next) :
      Effect host s (.redeemVerifiedIdentity request) (.redeemed request.rawSessionId) next
  | session {call : Call} {answer : Answer} {sessions : List GuestAuthSessionRow}
      (hother : consumed host (call, answer) = none) :
      Effect host s call answer { s with sessions }

section Calls

variable {call : Call} {answer : Answer}

theorem issueRedeemState_eq_ok {request : IssueRedeemState}
    (hok : issueRedeemState host request s = .ok next) :
    ∃ row principal states, s.tables.principal? row.tenantId row.guestPrincipalId = some principal ∧
      insertBy GuestRedeemStateRow.stateKeyHash row s.states = some states ∧
      next = { s with states } := by
  simp only [issueRedeemState, bind_eq_ok, found_eq_ok, Option.filter_eq_some_iff, pure_eq_ok] at hok
  obtain ⟨_, -, _, -, _, -, principal, ⟨hprincipal, -⟩, _, -, _, -, states, hinsert, rfl⟩ := hok
  exact ⟨_, principal, states, hprincipal, hinsert, rfl⟩

theorem resolveGuestAuthSession_eq_ok {sessionKeyHash : String} {now : Int}
    {session : Option ResolvedGuestAuthSession}
    (hok : resolveGuestAuthSession host sessionKeyHash now s = .ok (session, next)) :
    ∃ sessions, next = { s with sessions } := by
  unfold resolveGuestAuthSession at hok
  split at hok
  · obtain ⟨-, rfl⟩ := Prod.mk.inj (Except.ok.inj hok)
    exact ⟨_, rfl⟩
  · split at hok
    · obtain ⟨-, rfl⟩ := Prod.mk.inj (Except.ok.inj hok)
      exact ⟨_, rfl⟩
    · cases hok
    · obtain ⟨-, rfl⟩ := Prod.mk.inj (Except.ok.inj hok)
      exact ⟨_, rfl⟩

theorem revokeGuestAuthSession_eq (sessionKeyHash : String) (now : Int) :
    ∃ sessions, revokeGuestAuthSession host sessionKeyHash now s = { s with sessions } := by
  unfold revokeGuestAuthSession
  split
  · exact ⟨_, rfl⟩
  · exact ⟨_, rfl⟩

theorem effect_of_serve (hconsistent : Consistent s) (hfresh : FreshSession host s call)
    (hok : serve host s call = .ok (answer, next)) : Effect host s call answer next := by
  cases call with
  | admission call =>
      simp only [serve, bind_eq_ok, mapError_eq_ok, Prod.exists, pure_eq_ok, Prod.mk.injEq] at hok
      obtain ⟨_, _, hadmission, rfl, rfl⟩ := hok
      exact .admission hadmission
  | issueRedeemState request =>
      simp only [serve, bind_eq_ok, pure_eq_ok, Prod.mk.injEq] at hok
      obtain ⟨_, hissue, rfl, rfl⟩ := hok
      obtain ⟨row, principal, states, hprincipal, hinsert, rfl⟩ := issueRedeemState_eq_ok hissue
      exact .issued hprincipal hinsert
  | resolveChallenge rawState hashKey now =>
      simp only [serve, bind_eq_ok, pure_eq_ok, Prod.mk.injEq] at hok
      obtain ⟨_, -, rfl, rfl⟩ := hok
      exact .session rfl
  | redeemVerifiedIdentity request =>
      obtain ⟨rfl, hcompleted⟩ := completed_of_ok hconsistent hfresh hok
      exact .redeemed hcompleted
  | createGuestAuthSession request now =>
      simp only [serve, bind_eq_ok, pure_eq_ok, Prod.mk.injEq] at hok
      obtain ⟨_, -, rfl, rfl⟩ := hok
      exact .session rfl
  | resolveGuestAuthSession sessionKeyHash now =>
      simp only [serve, bind_eq_ok, Prod.exists, pure_eq_ok,
        Prod.mk.injEq] at hok
      obtain ⟨_, _, hresolve, rfl, rfl⟩ := hok
      obtain ⟨sessions, rfl⟩ := resolveGuestAuthSession_eq_ok hresolve
      exact .session rfl
  | revokeGuestAuthSession sessionKeyHash now =>
      obtain ⟨rfl, rfl⟩ := Prod.mk.inj (Except.ok.inj hok)
      obtain ⟨sessions, heq⟩ := @revokeGuestAuthSession_eq host s sessionKeyHash now
      rw [heq]
      exact .session rfl

theorem trimmed_stripText {text : String} (hnonempty : stripText text ≠ "") :
    Trimmed (stripText text) := ⟨stripText_stripText text, hnonempty⟩

theorem nonempty_of_invites {py : Python} {t : Tables} {tenantId : String} {guest : PendingGuest}
    {answer : Guest.Answer}
    (hok : Guest.serve py t ⟨tenantId, .createPendingGuest guest⟩ = .ok (answer, tables)) :
    stripText tenantId ≠ "" ∧ stripText guest.guestPrincipalId ≠ "" := by
  simp only [Guest.serve, Operation.serve, Guest.createPendingGuest, bind_eq_ok,
    required_eq_ok] at hok
  obtain ⟨_, ⟨rfl, htenant⟩, _, ⟨_, ⟨rfl, hid⟩, -⟩, -⟩ := hok
  exact ⟨htenant, hid⟩

theorem Consistent.putPrincipal (hconsistent : Consistent s) {new : GuestPrincipalRow}
    (hkeys : Trimmed new.tenantId ∧ Trimmed new.guestPrincipalId)
    (hpending : new.status = .pending → new.revokedAt = none) :
    Consistent { s with tables := s.tables.putPrincipal new } where
  keys row hrow := by
    rcases hasPrincipal_putPrincipal.mp hrow with rfl | ⟨hrow, -⟩
    · exact hkeys
    · exact hconsistent.keys row hrow
  pending row hrow := by
    rcases hasPrincipal_putPrincipal.mp hrow with rfl | ⟨hrow, -⟩
    · exact hpending
    · exact hconsistent.pending row hrow
  states := hconsistent.states

theorem Consistent.admission (hconsistent : Consistent s) {call : Guest.Call}
    {answer : Guest.Answer} (hok : Guest.serve host.toPython s.tables call = .ok (answer, tables)) :
    Consistent { s with tables } := by
  cases serve_change hok with
  | same => exact hconsistent
  | invited guest row hinvites hrow =>
      obtain ⟨hoperation, htenant, hid⟩ := hinvites
      obtain ⟨tenantId, operation⟩ := call
      change operation = _ at hoperation
      subst hoperation
      obtain ⟨hnonempty, hnonempty'⟩ := nonempty_of_invites hok
      refine hconsistent.putPrincipal ⟨?_, ?_⟩ fun _ => hrow.revokedAt
      · exact htenant ▸ trimmed_stripText hnonempty
      · exact hid ▸ trimmed_stripText hnonempty'
  | activated guest row expiry instant redeemedAt hactivates hrow =>
      exact hconsistent.putPrincipal (hconsistent.keys row hrow) (fun hpending => by cases hpending)
  | granted row => exact ⟨hconsistent.keys, hconsistent.pending, hconsistent.states⟩
  | revokedGrant row => exact ⟨hconsistent.keys, hconsistent.pending, hconsistent.states⟩
  | revokedPrincipal row revokedAt hrevokes hrow =>
      exact hconsistent.putPrincipal (hconsistent.keys row hrow) (fun hpending => by cases hpending)

theorem Consistent.effect (hconsistent : Consistent s) (heffect : Effect host s call answer next) :
    Consistent next := by
  cases heffect with
  | admission hok => exact hconsistent.admission hok
  | @issued request row principal states hprincipal hinsert =>
      obtain ⟨-, rfl⟩ := (insertBy_eq_some _).mp hinsert
      obtain ⟨htenant, hid⟩ := key_of_principal? hprincipal
      refine ⟨hconsistent.keys, hconsistent.pending, ?_⟩
      intro other hother
      rcases mem_snoc.mp hother with hother | rfl
      · exact hconsistent.states other hother
      · have hrow : s.tables.HasPrincipal principal := by
          rw [Tables.HasPrincipal, htenant, hid]
          exact hprincipal
        have hkeys := hconsistent.keys principal hrow
        rwa [htenant, hid] at hkeys
  | redeemed hcompleted =>
      obtain ⟨row, principal, activated, session, current, hrow, -, hprincipal, hkey, -, hactivated,
        hactive, -, -, rfl⟩ := hcompleted
      have hkeys : Trimmed activated.tenantId ∧ Trimmed activated.guestPrincipalId := by
        obtain ⟨htenant, hid⟩ := Prod.mk.inj hactivated
        rw [htenant, hid]
        exact hconsistent.keys principal hprincipal
      have hput : Consistent { s with tables := s.tables.putPrincipal activated } :=
        hconsistent.putPrincipal hkeys (by simp [hactive])
      refine ⟨hput.keys, hput.pending, ?_⟩
      intro other hother
      rcases mem_of_mem_upsertBy _ hother with rfl | hother
      · exact hconsistent.states row (findBy_eq_some _ hrow).1
      · exact hconsistent.states other hother
  | session => exact ⟨hconsistent.keys, hconsistent.pending, hconsistent.states⟩

variable {stateKeyHash : String}

theorem Effect.consumed_stays (heffect : Effect host s call answer next) {row : GuestRedeemStateRow}
    (hrow : s.state? stateKeyHash = some row) (hconsumed : row.consumedAt ≠ none) :
    ∃ row, next.state? stateKeyHash = some row ∧ row.consumedAt ≠ none := by
  cases heffect with
  | admission | session => exact ⟨row, hrow, hconsumed⟩
  | @issued request new principal states hprincipal hinsert =>
      refine ⟨row, ?_, hconsumed⟩
      have hne : new.stateKeyHash ≠ stateKeyHash := by
        rintro rfl
        obtain ⟨hnew, -⟩ := (insertBy_eq_some _).mp hinsert
        rw [Store.state?, hnew] at hrow
        cases hrow
      exact (findBy_insertBy _ hinsert stateKeyHash).trans ((if_neg hne).trans hrow)
  | redeemed hcompleted =>
      obtain ⟨other, principal, activated, session, current, hother, -, -, -, -, -, -, -, -, rfl⟩ :=
        hcompleted
      by_cases hsame : other.stateKeyHash = stateKeyHash
      · refine ⟨{ other with consumedAt := some (host.isoformat current) }, ?_, by simp⟩
        exact (findBy_upsertBy _ _ _ _).trans (if_pos hsame)
      · exact ⟨row, (findBy_upsertBy _ _ _ _).trans ((if_neg hsame).trans hrow), hconsumed⟩

theorem Effect.consumes (heffect : Effect host s call answer next)
    (hconsumes : consumed host (call, answer) = some stateKeyHash) :
    (∃ row, s.state? stateKeyHash = some row ∧ row.consumedAt = none) ∧
      ∃ row, next.state? stateKeyHash = some row ∧ row.consumedAt ≠ none := by
  cases heffect with
  | admission | issued => cases hconsumes
  | session hother =>
      rw [hother] at hconsumes
      cases hconsumes
  | redeemed hcompleted =>
      obtain rfl := Option.some.inj hconsumes
      obtain ⟨row, principal, activated, session, current, hrow, hopen, -, -, -, -, -, -, -, rfl⟩ :=
        hcompleted
      refine ⟨⟨row, hrow, hopen⟩, { row with consumedAt := some (host.isoformat current) }, ?_,
        by simp⟩
      exact (findBy_upsertBy _ _ _ _).trans (if_pos (findBy_eq_some _ hrow).2)

end Calls

/-! ## Runs -/

section Runs

/-- The tables before any guest was invited. -/
def Store.start (tenants : List String) (documents : List (String × String)) : Store :=
  ⟨.start tenants documents, [], []⟩

/-- The calls from empty guest tables. -/
def redemptions (host : Host) (tenants : List String) (documents : List (String × String))
    (calls : List Call) : Run Store Call Answer :=
  runCalls (serve host) (.start tenants documents) calls

/-- The states that redemptions have consumed are consumed, each by one. -/
structure Once (host : Host) (run : Run Store Call Answer) : Prop where
  consistent : Consistent run.state
  consumed : ∀ stateKeyHash ∈ run.journal.filterMap (consumed host),
    ∃ row, run.state.state? stateKeyHash = some row ∧ row.consumedAt ≠ none
  once : ConsumedOnce host run.journal

theorem once_start (host : Host) (tenants : List String) (documents : List (String × String)) :
    Once host ⟨[], .start tenants documents⟩ where
  consistent := by
    have hnone : ∀ row, ¬(Store.start tenants documents).tables.HasPrincipal row := by
      simp [Store.start, Tables.start, Tables.HasPrincipal, Tables.principal?]
    exact ⟨fun row hrow => absurd hrow (hnone row), fun row hrow => absurd hrow (hnone row),
      fun row hrow => absurd hrow List.not_mem_nil⟩
  consumed := by simp
  once := List.nodup_nil

theorem Once.step {run : Run Store Call Answer} {call : Call} {answer : Answer} {next : Store}
    (honce : Once host run) (hfresh : FreshSession host run.state call)
    (hok : serve host run.state call = .ok (answer, next)) :
    Once host ⟨run.journal ++ [(call, answer)], next⟩ := by
  have heffect := effect_of_serve honce.consistent hfresh hok
  have hstays : ∀ stateKeyHash ∈ run.journal.filterMap (Redeem.consumed host),
      ∃ row, next.state? stateKeyHash = some row ∧ row.consumedAt ≠ none := by
    intro stateKeyHash hmem
    obtain ⟨row, hrow, hconsumed⟩ := honce.consumed stateKeyHash hmem
    exact heffect.consumed_stays hrow hconsumed
  cases hconsumes : Redeem.consumed host (call, answer) with
  | none =>
      have hjournal : (run.journal ++ [(call, answer)]).filterMap (Redeem.consumed host) =
          run.journal.filterMap (Redeem.consumed host) := by
        rw [List.filterMap_append, List.filterMap_cons_none hconsumes, List.filterMap_nil,
          List.append_nil]
      refine ⟨honce.consistent.effect heffect, ?_, ?_⟩
      · rw [hjournal]
        exact hstays
      · rw [ConsumedOnce, hjournal]
        exact honce.once
  | some stateKeyHash =>
      have hjournal : (run.journal ++ [(call, answer)]).filterMap (Redeem.consumed host) =
          run.journal.filterMap (Redeem.consumed host) ++ [stateKeyHash] := by
        rw [List.filterMap_append, List.filterMap_cons_some hconsumes, List.filterMap_nil]
      obtain ⟨⟨row, hrow, hopen⟩, hconsumed⟩ := heffect.consumes hconsumes
      refine ⟨honce.consistent.effect heffect, ?_, ?_⟩
      · intro other hother
        rw [hjournal] at hother
        rcases mem_snoc.mp hother with hother | hother
        · exact hstays other hother
        · rw [hother]
          exact hconsumed
      · rw [ConsumedOnce, hjournal]
        apply List.Nodup.append honce.once (List.nodup_singleton _)
        rw [List.disjoint_singleton]
        intro hmem
        obtain ⟨other, hother, hnot⟩ := honce.consumed stateKeyHash hmem
        rw [hrow, Option.some.injEq] at hother
        exact hnot (hother ▸ hopen)

/-- Where sessions get new keys, every redemption is complete or raises a `GuestRedeemError`, and no
state is consumed twice, exactly when every redemption that passes the earlier checks has a plain
identity. -/
theorem redemptions_allOrNothing_iff (host : Host) (tenants : List String)
    (documents : List (String × String)) (calls : List Call)
    (hfresh : CallsMeet (serve host) (.start tenants documents)
      (fun run call => FreshSession host run.state call) calls) :
    (CallsMeet (serve host) (.start tenants documents)
        (fun run call => AllOrNothing host run.state call) calls ∧
      ConsumedOnce host (redemptions host tenants documents calls).journal) ↔
      CallsMeet (serve host) (.start tenants documents)
        (fun run call => RedeemsPlain host run.state call) calls := by
  have hrun : Once host (redemptions host tenants documents calls) :=
    runCalls_induction_of_meet (once_start host tenants documents)
      (fun _ _ _ _ honce hfresh hok => honce.step hfresh hok) hfresh
  have hiff : ∀ before call after, calls = before ++ call :: after →
      (AllOrNothing host (redemptions host tenants documents before).state call ↔
        RedeemsPlain host (redemptions host tenants documents before).state call) := by
    intro before call after hsplit
    have hbefore : Once host (redemptions host tenants documents before) :=
      runCalls_induction_of_meet (once_start host tenants documents)
        (fun _ _ _ _ honce hfresh hok => honce.step hfresh hok) (hsplit ▸ hfresh).left
    exact allOrNothing_iff hbefore.consistent (hfresh before call after hsplit)
  constructor
  · rintro ⟨hall, -⟩ before call after hsplit
    exact (hiff before call after hsplit).mp (hall before call after hsplit)
  · intro hplain
    refine ⟨fun before call after hsplit => ?_, hrun.once⟩
    exact (hiff before call after hsplit).mpr (hplain before call after hsplit)

end Runs

namespace Padded

/-- Instants of one day, and the hashes of three texts under the key `k`. -/
def day : Host where
  casefold value := .ofList (value.toList.map Char.toLower)
  fromIsoFormat value :=
    if value = "2026-09-06T12:15:00+00:00" then some ⟨some 1788696900000000⟩
    else if value = "2026-09-07T00:00:00+00:00" then some ⟨some 1788739200000000⟩
    else none
  isoformat instant :=
    if instant = 1788696000000000 then "2026-09-06T12:00:00+00:00"
    else if instant = 1788696900000000 then "2026-09-06T12:15:00+00:00"
    else "2026-09-07T00:00:00+00:00"
  deriveSessionKeyHash text _ :=
    if text = "id" then "9665816d47e39641b95f33bf1ca4f0c6926f450efe51ff175b5e1703c184cce8"
    else if text = "id2" then "982fa9ce7bbab23ed466b0173e9742d7b81796c7d3e8bedbac33ea8e6284ad87"
    else "3ab38f5e07f80d14efbdb0f432ef0952c6194d58caa9cace6906f9b6d0674ead"
  storable value := value.length ≤ 512

def now : DateTime := ⟨some 1788696000000000⟩

/-- A guest is invited and gets a redeem state. -/
def invitation : List Call :=
  [.admission ⟨"t", .createPendingGuest {
      guestPrincipalId := "g"
      invitedEmail := "g@example.test"
      verificationMethod := "personal_account"
      createdBy := "host"
      createdAt := "2026-09-06T12:00:00+00:00"
      expiresAt := "2026-09-07T00:00:00+00:00"
      now }⟩,
    .issueRedeemState ⟨"t", "g", [107], now, "s"⟩]

/-- The guest redeems the state with a verified issuer. -/
def redemption (issuer rawSessionId : String) : Call :=
  .redeemVerifiedIdentity ⟨"s", [107], [107], ⟨issuer, "sub"⟩, now, rawSessionId⟩

theorem not_allOrNothing {s : Store} {request : RedeemVerifiedIdentity}
    (hraises : (match serve day s (.redeemVerifiedIdentity request) with
      | .error (.guestAuthSessionError _) => true
      | _ => false) = true) : ¬AllOrNothing day s (.redeemVerifiedIdentity request) := by
  rintro (⟨next, hok, -⟩ | ⟨message, herror⟩)
  · rw [hok] at hraises
    cases hraises
  · rw [herror] at hraises
    cases hraises

/-- A blank after the issuer makes a redemption raise a `GuestAuthSessionError`. -/
theorem redemption_raises :
    CallsMeet (serve day) (.start ["t"] []) (fun run call => FreshSession day run.state call)
        (invitation ++ [redemption "iss " "id"]) ∧
      ¬CallsMeet (serve day) (.start ["t"] [])
        (fun run call => AllOrNothing day run.state call)
        (invitation ++ [redemption "iss " "id"]) := by
  refine ⟨by decide +kernel, fun hall => ?_⟩
  exact not_allOrNothing (by decide +kernel) (hall invitation (redemption "iss " "id") [] rfl)

end Padded

namespace Accepted

/-- The guest redeems the state, and somebody presents it again. -/
def calls : List Call :=
  Padded.invitation ++ [Padded.redemption "iss" "id", Padded.redemption "other" "id2"]

theorem redeemed_once :
    CallsMeet (serve Padded.day) (.start ["t"] [])
        (fun run call => AllOrNothing Padded.day run.state call) calls ∧
      ConsumedOnce Padded.day (redemptions Padded.day ["t"] [] calls).journal := by
  refine (redemptions_allOrNothing_iff Padded.day ["t"] [] calls (by decide +kernel)).mpr ?_
  intro before call after hsplit
  have hmem : call ∈ calls := hsplit ▸ List.mem_append_right _ List.mem_cons_self
  simp only [calls, Padded.invitation, List.cons_append, List.nil_append, List.mem_cons,
    List.not_mem_nil, or_false] at hmem
  rcases hmem with rfl | rfl | rfl | rfl
  · trivial
  · trivial
  · exact fun _ _ _ _ => ⟨by decide +kernel, by decide +kernel, by decide +kernel⟩
  · exact fun _ _ _ _ => ⟨by decide +kernel, by decide +kernel, by decide +kernel⟩

end Accepted

end KjAtlas.Guest.Redeem
