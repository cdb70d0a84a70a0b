import KjAtlas.Guests.Admission

/-! # Access of guests

What a guest can read is traced back to the calls that succeeded: an invitation,
an activation before the invitation expired, a grant, and no revocation. The
tables keep enough of this history for every later call.
-/

namespace KjAtlas.Guest

/-! ## What a journal says -/

abbrev Entry := Call × Answer

structure Invites (tenantId principalId : String) (guest : PendingGuest) (call : Call) : Prop where
  operation : call.operation = .createPendingGuest guest
  tenantId : stripText call.tenantId = tenantId
  principalId : stripText guest.guestPrincipalId = principalId

/-- The call activates a principal with a verified identity. -/
structure Activates (tenantId principalId : String) (guest : VerifiedGuest) (call : Call) :
    Prop where
  operation : call.operation = .activateVerifiedGuest guest
  tenantId : stripText call.tenantId = tenantId
  principalId : stripText guest.guestPrincipalId = principalId
  issuer : stripText guest.verifiedIssuer ≠ ""
  subject : stripText guest.verifiedSubject ≠ ""

/-- A principal was invited and then activated, before its invitation expired. -/
def ActivatedInTime (py : Python) (journal : List Entry) (tenantId principalId : String) : Prop :=
  ∃ invitation activation guest verified expiry instant,
    [invitation, activation].Sublist journal ∧
      Invites tenantId principalId guest invitation.1 ∧
      Activates tenantId principalId verified activation.1 ∧
      parseAwareTimestamp py guest.expiresAt = some expiry ∧
      verified.now.utc = some instant ∧ instant < expiry

def Granted (journal : List Entry) (tenantId principalId docId : String) : Prop :=
  ∃ entry ∈ journal, ∃ grant,
    entry.1.operation = .grantDocument grant ∧ stripText entry.1.tenantId = tenantId ∧
      stripText grant.guestPrincipalId = principalId ∧ stripText grant.docId = docId

def RevokesPrincipal (tenantId principalId : String) (entry : Entry) : Prop :=
  ∃ guestPrincipalId revokedAt,
    entry.1.operation = .revokeGuestPrincipal guestPrincipalId revokedAt ∧
      entry.2 = .bool true ∧ stripText entry.1.tenantId = tenantId ∧
      stripText guestPrincipalId = principalId

def RevokesGrant (tenantId principalId docId : String) (entry : Entry) : Prop :=
  ∃ guestPrincipalId grantedDocId revokedAt,
    entry.1.operation = .revokeDocumentGrant guestPrincipalId grantedDocId revokedAt ∧
      entry.2 = .bool true ∧ stripText entry.1.tenantId = tenantId ∧
      stripText guestPrincipalId = principalId ∧ stripText grantedDocId = docId

theorem ActivatedInTime.mono {py : Python} {journal : List Entry} {tenantId principalId : String}
    (hactivated : ActivatedInTime py journal tenantId principalId) (entries : List Entry) :
    ActivatedInTime py (journal ++ entries) tenantId principalId := by
  obtain ⟨invitation, activation, guest, verified, expiry, instant, hsublist, hrest⟩ := hactivated
  exact ⟨invitation, activation, guest, verified, expiry, instant,
    hsublist.trans (List.sublist_append_left _ _), hrest⟩

theorem Granted.mono {journal : List Entry} {tenantId principalId docId : String}
    (hgranted : Granted journal tenantId principalId docId) (entries : List Entry) :
    Granted (journal ++ entries) tenantId principalId docId := by
  obtain ⟨entry, hentry, hrest⟩ := hgranted
  exact ⟨entry, List.mem_append_left _ hentry, hrest⟩

/-! ## One step -/

section Lookups

variable (t : Tables) (tenantId principalId docId : String)

@[simp] theorem principal?_putPrincipal (row : GuestPrincipalRow) :
    (t.putPrincipal row).principal? tenantId principalId =
      if row.key = (tenantId, principalId) then some row else t.principal? tenantId principalId :=
  findBy_upsertBy _ _ _ _

@[simp] theorem grant?_putGrant (row : GuestDocumentGrantRow) :
    (t.putGrant row).grant? tenantId principalId docId =
      if row.key = (tenantId, principalId, docId) then some row
      else t.grant? tenantId principalId docId :=
  findBy_upsertBy _ _ _ _

end Lookups

/-- What a successful call does to the tables. -/
inductive Change (py : Python) (t : Tables) (entry : Entry) : Tables → Prop where
  | same (hprincipal : ∀ tenantId principalId, ¬ RevokesPrincipal tenantId principalId entry)
      (hgrant : ∀ tenantId principalId docId, ¬ RevokesGrant tenantId principalId docId entry) :
      Change py t entry t
  | invited (guest : PendingGuest) (row : GuestPrincipalRow)
      (hinvites : Invites row.tenantId row.guestPrincipalId guest entry.1)
      (hrow : row.Invited py row.tenantId guest)
      (hnew : t.principal? row.tenantId row.guestPrincipalId = none)
      (hemail : ∀ other ∈ t.principals, other.tenantId = row.tenantId →
        other.invitedEmail ≠ row.invitedEmail) :
      Change py t entry (t.putPrincipal row)
  | activated (guest : VerifiedGuest) (row : GuestPrincipalRow) (expiry instant : Int)
      (redeemedAt : String)
      (hactivates : Activates row.tenantId row.guestPrincipalId guest entry.1)
      (hrow : t.principal? row.tenantId row.guestPrincipalId = some row)
      (hpending : row.status = .pending)
      (hexpiry : parseAwareTimestamp py row.expiresAt = some expiry)
      (hinstant : guest.now.utc = some instant) (hlt : instant < expiry)
      (hother : ¬ belongsToAnother t row.tenantId row.guestPrincipalId
        (stripText guest.verifiedIssuer) (stripText guest.verifiedSubject)) :
      Change py t entry (t.putPrincipal { row with
        status := .active
        verifiedIssuer := some (stripText guest.verifiedIssuer)
        verifiedSubject := some (stripText guest.verifiedSubject)
        redeemedAt := some redeemedAt })
  | granted (row : GuestDocumentGrantRow)
      (hgranted : Granted [entry] row.tenantId row.guestPrincipalId row.docId)
      (hdoc : row.docId ≠ "")
      (hnew : t.grant? row.tenantId row.guestPrincipalId row.docId = none) :
      Change py t entry (t.putGrant row)
  | revokedGrant (row : GuestDocumentGrantRow) (revokedAt : String)
      (hrevokes : RevokesGrant row.tenantId row.guestPrincipalId row.docId entry)
      (hrow : t.grant? row.tenantId row.guestPrincipalId row.docId = some row) :
      Change py t entry (t.putGrant { row with revokedAt := some revokedAt })
  | revokedPrincipal (row : GuestPrincipalRow) (revokedAt : String)
      (hrevokes : RevokesPrincipal row.tenantId row.guestPrincipalId entry)
      (hrow : t.principal? row.tenantId row.guestPrincipalId = some row) :
      Change py t entry
        (t.putPrincipal { row with status := .revoked, revokedAt := some revokedAt })

section

variable {t : Tables} {tenantId principalId docId : String}

theorem key_of_principal? {row : GuestPrincipalRow}
    (hrow : t.principal? tenantId principalId = some row) :
    row.tenantId = tenantId ∧ row.guestPrincipalId = principalId := by
  simpa [GuestPrincipalRow.key] using (findBy_eq_some _ hrow).2

variable {row : GuestDocumentGrantRow} {entry : Entry}

theorem key_of_grant? (hrow : t.grant? tenantId principalId docId = some row) :
    row.tenantId = tenantId ∧ row.guestPrincipalId = principalId ∧ row.docId = docId := by
  simpa [GuestDocumentGrantRow.key] using (findBy_eq_some _ hrow).2

theorem serve_change {py : Python} {next : Tables} {call : Call} {answer : Answer}
    (hok : serve py t call = .ok (answer, next)) : Change py t (call, answer) next := by
  obtain ⟨tenant, operation⟩ := call
  simp only [serve, bind_eq_ok, required_eq_ok] at hok
  obtain ⟨_, ⟨rfl, -⟩, hok⟩ := hok
  cases operation with
  | createPendingGuest guest =>
      simp only [Operation.serve, bind_eq_ok, Prod.exists, pure_eq_ok,
        Prod.mk.injEq] at hok
      obtain ⟨row, _, hcreate, rfl, rfl⟩ := hok
      obtain ⟨hrow, rfl, hnew, hemail⟩ := createPendingGuest_eq_ok hcreate
      have hkey := hrow.key
      simp only [GuestPrincipalRow.key, Prod.mk.injEq] at hkey
      obtain ⟨htenant, hid⟩ := hkey
      rw [← htenant] at hrow hnew hemail
      rw [← hid] at hnew
      exact .invited guest row ⟨rfl, htenant.symm, hid.symm⟩ hrow hnew hemail
  | activateVerifiedGuest guest =>
      simp only [Operation.serve, bind_eq_ok, Prod.exists, pure_eq_ok,
        Prod.mk.injEq] at hok
      obtain ⟨_, _, hactivate, rfl, rfl⟩ := hok
      obtain ⟨row, expiry, instant, redeemedAt, hrow, hpending, hexpiry, hinstant, hlt, hissuer,
        hsubject, hother, rfl, rfl⟩ := activateVerifiedGuest_eq_ok hactivate
      obtain ⟨htenant, hid⟩ := key_of_principal? hrow
      rw [← htenant, ← hid] at hrow hother
      exact .activated guest row expiry instant redeemedAt
        ⟨rfl, htenant.symm, hid.symm, hissuer, hsubject⟩ hrow hpending hexpiry hinstant hlt hother
  | grantDocument grant =>
      simp only [Operation.serve, bind_eq_ok, Prod.exists, pure_eq_ok,
        Prod.mk.injEq] at hok
      obtain ⟨row, _, hgrant, rfl, rfl⟩ := hok
      obtain ⟨hdoc, hkey, -, hnext⟩ := grantDocument_eq_ok hgrant
      simp only [GuestDocumentGrantRow.key, Prod.mk.injEq] at hkey
      obtain ⟨htenant, hid, hdocId⟩ := hkey
      rcases hnext with rfl | ⟨rfl, hnew⟩
      · exact .same (by rintro _ _ ⟨_, _, ⟨⟩, _⟩) (by rintro _ _ _ ⟨_, _, _, ⟨⟩, _⟩)
      · rw [← htenant, ← hid, ← hdocId] at hnew
        exact .granted row
          ⟨_, List.mem_singleton_self _, grant, rfl, htenant.symm, hid.symm, hdocId.symm⟩
          (hdocId ▸ hdoc) hnew
  | canReadDocument guestPrincipalId docId =>
      simp only [Operation.serve, bind_eq_ok, pure_eq_ok,
        Prod.mk.injEq] at hok
      obtain ⟨_, -, rfl, rfl⟩ := hok
      exact .same (by rintro _ _ ⟨_, _, ⟨⟩, _⟩) (by rintro _ _ _ ⟨_, _, _, ⟨⟩, _⟩)
  | listReadableDocumentIds guestPrincipalId =>
      simp only [Operation.serve, bind_eq_ok, pure_eq_ok,
        Prod.mk.injEq] at hok
      obtain ⟨_, -, rfl, rfl⟩ := hok
      exact .same (by rintro _ _ ⟨_, _, ⟨⟩, _⟩) (by rintro _ _ _ ⟨_, _, _, ⟨⟩, _⟩)
  | revokeDocumentGrant guestPrincipalId docId revokedAt =>
      simp only [Operation.serve, bind_eq_ok, Prod.exists, pure_eq_ok,
        Prod.mk.injEq] at hok
      obtain ⟨_, _, hrevoke, rfl, rfl⟩ := hok
      rcases revokeDocumentGrant_eq_ok hrevoke with ⟨rfl, rfl⟩ | ⟨rfl, row, hrow, rfl⟩
      · exact .same (by rintro _ _ ⟨_, _, ⟨⟩, _⟩) (by rintro _ _ _ ⟨_, _, _, _, ⟨⟩, _⟩)
      · obtain ⟨htenant, hid, hdocId⟩ := key_of_grant? hrow
        rw [← htenant, ← hid, ← hdocId] at hrow
        exact .revokedGrant row _
          ⟨_, _, _, rfl, rfl, htenant.symm, hid.symm, hdocId.symm⟩ hrow
  | revokeGuestPrincipal guestPrincipalId revokedAt =>
      simp only [Operation.serve, bind_eq_ok, Prod.exists, pure_eq_ok,
        Prod.mk.injEq] at hok
      obtain ⟨_, _, hrevoke, rfl, rfl⟩ := hok
      rcases revokeGuestPrincipal_eq_ok hrevoke with ⟨rfl, rfl⟩ | ⟨rfl, row, hrow, rfl⟩
      · exact .same (by rintro _ _ ⟨_, _, _, ⟨⟩, _⟩) (by rintro _ _ _ ⟨_, _, _, ⟨⟩, _⟩)
      · obtain ⟨htenant, hid⟩ := key_of_principal? hrow
        rw [← htenant, ← hid] at hrow
        exact .revokedPrincipal row _ ⟨_, _, rfl, rfl, htenant.symm, hid.symm⟩ hrow

/-! ## Whole runs -/

def Tables.HasPrincipal (t : Tables) (row : GuestPrincipalRow) : Prop :=
  t.principal? row.tenantId row.guestPrincipalId = some row

def Tables.HasGrant (t : Tables) (row : GuestDocumentGrantRow) : Prop :=
  t.grant? row.tenantId row.guestPrincipalId row.docId = some row

theorem hasPrincipal_putPrincipal {row new : GuestPrincipalRow} :
    (t.putPrincipal new).HasPrincipal row ↔ row = new ∨ t.HasPrincipal row ∧ row.key ≠ new.key :=
  findBy_upsertBy_eq_some GuestPrincipalRow.key

theorem hasGrant_putGrant {new : GuestDocumentGrantRow} :
    (t.putGrant new).HasGrant row ↔ row = new ∨ t.HasGrant row ∧ row.key ≠ new.key :=
  findBy_upsertBy_eq_some GuestDocumentGrantRow.key

/-- The history behind the principals. -/
structure PrincipalsTraced (py : Python) (journal : List Entry) (t : Tables) : Prop where
  keys : (t.principals.map GuestPrincipalRow.key).Nodup
  invited : ∀ row, t.HasPrincipal row → ∃ entry ∈ journal, ∃ guest,
    Invites row.tenantId row.guestPrincipalId guest entry.1 ∧ guest.expiresAt = row.expiresAt
  active : ∀ row, t.HasPrincipal row → row.status = .active →
    ActivatedInTime py journal row.tenantId row.guestPrincipalId
  revoked : ∀ entry ∈ journal, ∀ tenantId principalId,
    RevokesPrincipal tenantId principalId entry →
      ∃ row, t.principal? tenantId principalId = some row ∧ row.status = .revoked
  emails : ∀ row other, t.HasPrincipal row → t.HasPrincipal other →
    row.tenantId = other.tenantId → row.invitedEmail = other.invitedEmail →
      row.guestPrincipalId = other.guestPrincipalId
  identities : ∀ row other issuer subject, t.HasPrincipal row → t.HasPrincipal other →
    row.tenantId = other.tenantId →
    row.verifiedIssuer = some issuer → other.verifiedIssuer = some issuer →
    row.verifiedSubject = some subject → other.verifiedSubject = some subject →
      row.guestPrincipalId = other.guestPrincipalId

/-- The history behind the grants. -/
structure GrantsTraced (journal : List Entry) (t : Tables) : Prop where
  keys : (t.grants.map GuestDocumentGrantRow.key).Nodup
  granted : ∀ row, t.HasGrant row →
    row.docId ≠ "" ∧ Granted journal row.tenantId row.guestPrincipalId row.docId
  revoked : ∀ entry ∈ journal, ∀ tenantId principalId docId,
    RevokesGrant tenantId principalId docId entry →
      ∃ row, t.grant? tenantId principalId docId = some row ∧ row.revokedAt ≠ none

theorem hasPrincipal_of_principal?
    {row : GuestPrincipalRow} (hrow : t.principal? tenantId principalId = some row) :
    t.HasPrincipal row := by
  obtain ⟨rfl, rfl⟩ := key_of_principal? hrow
  exact hrow

theorem hasGrant_of_grant?
    (hrow : t.grant? tenantId principalId docId = some row) : t.HasGrant row := by
  obtain ⟨rfl, rfl, rfl⟩ := key_of_grant? hrow
  exact hrow

end

namespace PrincipalsTraced

variable {py : Python} {journal : List Entry} {t : Tables} {entry : Entry}

section

variable (htraced : PrincipalsTraced py journal t)
include htraced

theorem mono (hrevoked : ∀ tenantId principalId, RevokesPrincipal tenantId principalId entry →
      ∃ row, t.principal? tenantId principalId = some row ∧ row.status = .revoked) :
    PrincipalsTraced py (journal ++ [entry]) t where
  keys := htraced.keys
  invited row hrow := by
    obtain ⟨invitation, hmem, hrest⟩ := htraced.invited row hrow
    exact ⟨invitation, List.mem_append_left _ hmem, hrest⟩
  active row hrow hactive := (htraced.active row hrow hactive).mono _
  revoked other hother tenantId principalId hrevokes := by
    rcases mem_snoc.mp hother with hold | hnew
    · exact htraced.revoked other hold tenantId principalId hrevokes
    · rw [hnew] at hrevokes
      exact hrevoked tenantId principalId hrevokes
  emails := htraced.emails
  identities := htraced.identities

theorem keep (hcall : ∀ id revokedAt, entry.1.operation ≠ .revokeGuestPrincipal id revokedAt) :
    PrincipalsTraced py (journal ++ [entry]) t := by
  apply htraced.mono
  rintro _ _ ⟨_, _, hoperation, -⟩
  exact absurd hoperation (hcall _ _)

theorem put_invited (hentry : entry ∈ journal) {guest : PendingGuest} {new : GuestPrincipalRow}
    (hinvites : Invites new.tenantId new.guestPrincipalId guest entry.1)
    (hinvited : new.Invited py new.tenantId guest)
    (hnew : t.principal? new.tenantId new.guestPrincipalId = none)
    (hemail : ∀ other ∈ t.principals, other.tenantId = new.tenantId →
      other.invitedEmail ≠ new.invitedEmail) :
    PrincipalsTraced py journal (t.putPrincipal new) where
  keys := nodup_upsertBy _ _ htraced.keys
  invited row hrow := by
    rcases hasPrincipal_putPrincipal.mp hrow with rfl | ⟨hold, -⟩
    · exact ⟨entry, hentry, guest, hinvites, hinvited.expiresAt.symm⟩
    · exact htraced.invited row hold
  active row hrow hactive := by
    rcases hasPrincipal_putPrincipal.mp hrow with rfl | ⟨hold, -⟩
    · rw [hinvited.status] at hactive
      nomatch hactive
    · exact htraced.active row hold hactive
  revoked other hother tenantId principalId hrevokes := by
    obtain ⟨row, hrow, hstatus⟩ := htraced.revoked other hother tenantId principalId hrevokes
    refine ⟨row, ?_, hstatus⟩
    rw [principal?_putPrincipal, if_neg, hrow]
    intro hkey
    rw [GuestPrincipalRow.key, Prod.mk.injEq] at hkey
    rw [hkey.1, hkey.2, hrow] at hnew
    nomatch hnew
  emails row other hrow hother htenant hsame := by
    rcases hasPrincipal_putPrincipal.mp hrow with rfl | ⟨hold, -⟩
    · rcases hasPrincipal_putPrincipal.mp hother with rfl | ⟨hold', -⟩
      · rfl
      · exact absurd hsame.symm (hemail other (findBy_eq_some _ hold').1 htenant.symm)
    · rcases hasPrincipal_putPrincipal.mp hother with rfl | ⟨hold', -⟩
      · exact absurd hsame (hemail row (findBy_eq_some _ hold).1 htenant)
      · exact htraced.emails row other hold hold' htenant hsame
  identities row other issuer subject hrow hother htenant hissuer hissuer' hsubject hsubject' := by
    rcases hasPrincipal_putPrincipal.mp hrow with rfl | ⟨hold, -⟩
    · rw [hinvited.verifiedIssuer] at hissuer
      nomatch hissuer
    · rcases hasPrincipal_putPrincipal.mp hother with rfl | ⟨hold', -⟩
      · rw [hinvited.verifiedIssuer] at hissuer'
        nomatch hissuer'
      · exact htraced.identities row other issuer subject hold hold' htenant hissuer hissuer'
          hsubject hsubject'

theorem put_changed {old : GuestPrincipalRow}
    (new : GuestPrincipalRow) (hold : t.HasPrincipal old) (htenantId : new.tenantId = old.tenantId)
    (hprincipalId : new.guestPrincipalId = old.guestPrincipalId)
    (hemail : new.invitedEmail = old.invitedEmail) (hexpires : new.expiresAt = old.expiresAt)
    (hactive : new.status = .active →
      ActivatedInTime py journal new.tenantId new.guestPrincipalId)
    (hrevoked : old.status = .revoked → new.status = .revoked)
    (hidentity : ∀ other issuer subject, t.HasPrincipal other → other.tenantId = new.tenantId →
      other.verifiedIssuer = some issuer → new.verifiedIssuer = some issuer →
      other.verifiedSubject = some subject → new.verifiedSubject = some subject →
        other.guestPrincipalId = new.guestPrincipalId) :
    PrincipalsTraced py journal (t.putPrincipal new) where
  keys := nodup_upsertBy _ _ htraced.keys
  invited row hrow := by
    rcases hasPrincipal_putPrincipal.mp hrow with rfl | ⟨hrow, -⟩
    · rw [htenantId, hprincipalId, hexpires]
      exact htraced.invited old hold
    · exact htraced.invited row hrow
  active row hrow hstatus := by
    rcases hasPrincipal_putPrincipal.mp hrow with rfl | ⟨hrow, -⟩
    · exact hactive hstatus
    · exact htraced.active row hrow hstatus
  revoked other hother tenantId principalId hrevokes := by
    obtain ⟨row, hrow, hstatus⟩ := htraced.revoked other hother tenantId principalId hrevokes
    rw [principal?_putPrincipal]
    split
    next hkey =>
      rw [GuestPrincipalRow.key, Prod.mk.injEq, htenantId, hprincipalId] at hkey
      rw [← hkey.1, ← hkey.2, hold, Option.some.injEq] at hrow
      exact ⟨new, rfl, hrevoked (hrow ▸ hstatus)⟩
    next => exact ⟨row, hrow, hstatus⟩
  emails row other hrow hother htenant hsame := by
    rcases hasPrincipal_putPrincipal.mp hrow with rfl | ⟨hfound, -⟩
    · rcases hasPrincipal_putPrincipal.mp hother with rfl | ⟨hfound', -⟩
      · rfl
      · rw [htenantId] at htenant
        rw [hemail] at hsame
        rw [hprincipalId]
        exact htraced.emails old other hold hfound' htenant hsame
    · rcases hasPrincipal_putPrincipal.mp hother with rfl | ⟨hfound', -⟩
      · rw [htenantId] at htenant
        rw [hemail] at hsame
        rw [hprincipalId]
        exact htraced.emails row old hfound hold htenant hsame
      · exact htraced.emails row other hfound hfound' htenant hsame
  identities row other issuer subject hrow hother htenant hissuer hissuer' hsubject hsubject' := by
    rcases hasPrincipal_putPrincipal.mp hrow with rfl | ⟨hfound, -⟩
    · rcases hasPrincipal_putPrincipal.mp hother with rfl | ⟨hfound', -⟩
      · rfl
      · exact (hidentity other issuer subject hfound' htenant.symm hissuer' hissuer hsubject'
          hsubject).symm
    · rcases hasPrincipal_putPrincipal.mp hother with rfl | ⟨hfound', -⟩
      · exact hidentity row issuer subject hfound htenant hissuer hissuer' hsubject hsubject'
      · exact htraced.identities row other issuer subject hfound hfound' htenant hissuer hissuer'
          hsubject hsubject'

theorem step {next : Tables}
    (hchange : Change py t entry next) : PrincipalsTraced py (journal ++ [entry]) next := by
  cases hchange with
  | same hprincipal _ => exact htraced.mono fun _ _ hrevokes => absurd hrevokes (hprincipal _ _)
  | invited guest row hinvites hrow hnew hemail =>
      exact (htraced.keep (by simp [hinvites.operation])).put_invited
        (List.mem_append_right _ (List.mem_singleton_self _)) hinvites hrow hnew hemail
  | activated guest row expiry instant redeemedAt hactivates hrow hpending hexpiry hinstant hlt
      hother =>
      have hold : t.HasPrincipal row := hrow
      refine (htraced.keep (by simp [hactivates.operation])).put_changed _ hold rfl rfl rfl rfl
        ?_ ?_ ?_
      · intro _
        obtain ⟨invitation, hmem, invited, hinvites, hexpires⟩ := htraced.invited row hrow
        refine ⟨invitation, entry, invited, guest, expiry, instant, ?_, hinvites, hactivates,
          hexpires ▸ hexpiry, hinstant, hlt⟩
        exact (List.singleton_sublist.mpr hmem).append (List.Sublist.refl [entry])
      · intro hrevoked
        rw [hpending] at hrevoked
        nomatch hrevoked
      · intro other issuer subject hfound htenant hissuer hissuer' hsubject hsubject'
        by_contra hne
        apply hother
        cases hissuer'
        cases hsubject'
        exact ⟨other, (findBy_eq_some _ hfound).1, htenant, hissuer, hsubject, hne⟩
  | granted row hgranted _ _ =>
      obtain ⟨other, hother, grant, hgrant, -⟩ := hgranted
      rw [List.mem_singleton.mp hother] at hgrant
      exact { htraced.keep (by simp [hgrant]) with }
  | revokedGrant row revokedAt hrevokes _ =>
      obtain ⟨_, _, _, hgrant, -⟩ := hrevokes
      exact { htraced.keep (by simp [hgrant]) with }
  | revokedPrincipal row revokedAt hrevokes hrow =>
      have hold : t.HasPrincipal row := hrow
      have hput := htraced.put_changed
        { row with status := .revoked, revokedAt := some revokedAt } hold rfl rfl rfl rfl
        nofun (fun _ => rfl) (fun other issuer subject hfound htenant hissuer hissuer' hsubject
          hsubject' => htraced.identities other row issuer subject hfound hrow htenant hissuer
            hissuer' hsubject hsubject')
      refine hput.mono ?_
      intro tenantId principalId hagain
      obtain ⟨_, _, hoperation, -, htenant, hid⟩ := hrevokes
      obtain ⟨_, _, hoperation', -, rfl, rfl⟩ := hagain
      rw [hoperation] at hoperation'
      cases hoperation'
      refine ⟨{ row with status := .revoked, revokedAt := some revokedAt }, ?_, rfl⟩
      rw [principal?_putPrincipal, htenant, hid]
      exact if_pos rfl

end

end PrincipalsTraced

namespace GrantsTraced

variable {journal : List Entry} {t : Tables} {entry : Entry}

theorem mono (htraced : GrantsTraced journal t)
    (hrevoked : ∀ tenantId principalId docId, RevokesGrant tenantId principalId docId entry →
      ∃ row, t.grant? tenantId principalId docId = some row ∧ row.revokedAt ≠ none) :
    GrantsTraced (journal ++ [entry]) t where
  keys := htraced.keys
  granted row hrow :=
    ⟨(htraced.granted row hrow).1, (htraced.granted row hrow).2.mono _⟩
  revoked other hother tenantId principalId docId hrevokes := by
    rcases mem_snoc.mp hother with hold | hnew
    · exact htraced.revoked other hold tenantId principalId docId hrevokes
    · rw [hnew] at hrevokes
      exact hrevoked tenantId principalId docId hrevokes

theorem keep (htraced : GrantsTraced journal t)
    (hcall : ∀ id docId revokedAt, entry.1.operation ≠ .revokeDocumentGrant id docId revokedAt) :
    GrantsTraced (journal ++ [entry]) t := by
  apply htraced.mono
  rintro _ _ _ ⟨_, _, _, hoperation, -⟩
  exact absurd hoperation (hcall _ _ _)

/-- A grant is inserted, or written back revoked. -/
theorem put (htraced : GrantsTraced journal t) (new : GuestDocumentGrantRow) (hdoc : new.docId ≠ "")
    (hgranted : Granted journal new.tenantId new.guestPrincipalId new.docId)
    (hold : t.grant? new.tenantId new.guestPrincipalId new.docId = none ∨ new.revokedAt ≠ none) :
    GrantsTraced journal (t.putGrant new) where
  keys := nodup_upsertBy _ _ htraced.keys
  granted row hrow := by
    rcases hasGrant_putGrant.mp hrow with rfl | ⟨hrow, -⟩
    · exact ⟨hdoc, hgranted⟩
    · exact htraced.granted row hrow
  revoked entry hentry tenantId principalId docId hrevokes := by
    obtain ⟨row, hrow, hrevokedAt⟩ :=
      htraced.revoked entry hentry tenantId principalId docId hrevokes
    rw [grant?_putGrant]
    split
    next hkey =>
      rcases hold with hnew | hrevoked
      · rw [GuestDocumentGrantRow.key, Prod.mk.injEq, Prod.mk.injEq] at hkey
        rw [hkey.1, hkey.2.1, hkey.2.2, hrow] at hnew
        nomatch hnew
      · exact ⟨new, rfl, hrevoked⟩
    next => exact ⟨row, hrow, hrevokedAt⟩

theorem step {py : Python} (htraced : GrantsTraced journal t) {next : Tables}
    (hchange : Change py t entry next) : GrantsTraced (journal ++ [entry]) next := by
  cases hchange with
  | same _ hgrant => exact htraced.mono fun _ _ _ hrevokes => absurd hrevokes (hgrant _ _ _)
  | invited guest row hinvites _ _ _ =>
      exact { htraced.keep (by simp [hinvites.operation]) with }
  | activated guest row _ _ _ hactivates _ _ _ _ _ _ =>
      exact { htraced.keep (by simp [hactivates.operation]) with }
  | granted row hgranted hdoc hnew =>
      obtain ⟨other, hother, grant, hgrant, hrest⟩ := hgranted
      have hcall := List.mem_singleton.mp hother ▸ hgrant
      exact (htraced.keep (by simp [hcall])).put row hdoc
        ⟨other, List.mem_append_right _ hother, grant, hgrant, hrest⟩ (.inl hnew)
  | revokedGrant row revokedAt hrevokes hrow =>
      obtain ⟨hdoc, hgranted⟩ := htraced.granted row hrow
      refine (htraced.put { row with revokedAt := some revokedAt } hdoc hgranted
        (.inr nofun)).mono ?_
      intro tenantId principalId docId hagain
      obtain ⟨_, _, _, hoperation, -, htenant, hid, hdocId⟩ := hrevokes
      obtain ⟨_, _, _, hoperation', -, rfl, rfl, rfl⟩ := hagain
      rw [hoperation] at hoperation'
      cases hoperation'
      refine ⟨{ row with revokedAt := some revokedAt }, ?_, nofun⟩
      rw [grant?_putGrant, htenant, hid, hdocId]
      exact if_pos rfl
  | revokedPrincipal row _ hrevokes _ =>
      obtain ⟨_, _, hprincipal, -⟩ := hrevokes
      exact { htraced.keep (by simp [hprincipal]) with }

end GrantsTraced

/-- The tables before any guest was invited. -/
def Tables.start (tenants : List String) (documents : List (String × String)) : Tables :=
  { tenants, documents, principals := [], grants := [] }

def admissions (py : Python) (tenants : List String) (documents : List (String × String))
    (calls : List Call) : Run Tables Call Answer :=
  runCalls (serve py) (.start tenants documents) calls

theorem traced_start (py : Python) (tenants : List String) (documents : List (String × String)) :
    PrincipalsTraced py [] (.start tenants documents) ∧
      GrantsTraced [] (.start tenants documents) := by
  have hprincipal : ∀ row, ¬ (Tables.start tenants documents).HasPrincipal row := by
    simp [Tables.HasPrincipal, Tables.principal?, Tables.start]
  have hgrant : ∀ row, ¬ (Tables.start tenants documents).HasGrant row := by
    simp [Tables.HasGrant, Tables.grant?, Tables.start]
  constructor
  · exact {
      keys := List.nodup_nil
      invited row hrow := absurd hrow (hprincipal row)
      active row hrow := absurd hrow (hprincipal row)
      revoked := by simp
      emails row _ hrow := absurd hrow (hprincipal row)
      identities row _ _ _ hrow := absurd hrow (hprincipal row) }
  · exact {
      keys := List.nodup_nil
      granted row hrow := absurd hrow (hgrant row)
      revoked := by simp }

theorem admissions_traced (py : Python) (tenants : List String)
    (documents : List (String × String)) (calls : List Call) :
    PrincipalsTraced py (admissions py tenants documents calls).journal
        (admissions py tenants documents calls).state ∧
      GrantsTraced (admissions py tenants documents calls).journal
        (admissions py tenants documents calls).state := by
  refine runCalls_induction
    (P := fun run => PrincipalsTraced py run.journal run.state ∧
      GrantsTraced run.journal run.state) (traced_start py tenants documents) ?_ calls
  intro run call answer next htraced hok
  exact ⟨htraced.1.step (serve_change hok), htraced.2.step (serve_change hok)⟩

/-! ## What a guest can read -/

structure Readable (t : Tables) (tenantId principalId docId : String) : Prop where
  principal : ∃ row, t.principal? tenantId principalId = some row ∧ row.reads = true
  grant : ∃ row, t.grant? tenantId principalId docId = some row ∧ row.revokedAt = none

section

variable {t : Tables} {tenantId guestPrincipalId docId principalId : String}

theorem canReadDocument_eq_true :
    canReadDocument tenantId guestPrincipalId docId t = .ok true ↔
      stripText guestPrincipalId ≠ "" ∧ stripText docId ≠ "" ∧
        Readable t tenantId (stripText guestPrincipalId) (stripText docId) := by
  simp only [canReadDocument, bind_eq_ok, required_eq_ok]
  constructor
  · rintro ⟨_, ⟨rfl, hid⟩, _, ⟨rfl, hdoc⟩, hok⟩
    split at hok
    next => cases hok
    next row hrow =>
      obtain ⟨hrow, hreads⟩ := Option.filter_eq_some_iff.mp hrow
      simp only [pure_eq_ok, Option.any_eq_true,
        Option.isNone_iff_eq_none] at hok
      exact ⟨hid, hdoc, ⟨row, hrow, hreads⟩, hok⟩
  · rintro ⟨hid, hdoc, ⟨row, hrow, hreads⟩, grant, hgrant, hrevokedAt⟩
    refine ⟨_, ⟨rfl, hid⟩, _, ⟨rfl, hdoc⟩, ?_⟩
    rw [hrow, Option.filter_some_pos hreads, hgrant]
    simp [hrevokedAt, pure, Except.pure]

theorem mem_listReadableDocumentIds (hkeys : (t.grants.map GuestDocumentGrantRow.key).Nodup) :
    (∃ ids, listReadableDocumentIds tenantId guestPrincipalId t = .ok ids ∧ docId ∈ ids) ↔
      stripText guestPrincipalId ≠ "" ∧
        Readable t tenantId (stripText guestPrincipalId) docId := by
  simp only [listReadableDocumentIds, bind_eq_ok, required_eq_ok]
  constructor
  · rintro ⟨ids, ⟨_, ⟨rfl, hid⟩, hok⟩, hdoc⟩
    split at hok
    next =>
      cases hok
      cases hdoc
    next row hrow =>
      obtain ⟨hrow, hreads⟩ := Option.filter_eq_some_iff.mp hrow
      cases hok
      simp only [List.mem_mergeSort, List.mem_map, List.mem_filter, Bool.and_eq_true,
        decide_eq_true_eq, Option.isNone_iff_eq_none] at hdoc
      obtain ⟨grant, ⟨hmem, ⟨rfl, hgrantId⟩, hrevokedAt⟩, rfl⟩ := hdoc
      refine ⟨hid, ⟨row, hrow, hreads⟩, grant, ?_, hrevokedAt⟩
      have hfind := findBy_of_mem GuestDocumentGrantRow.key hkeys hmem
      rw [GuestDocumentGrantRow.key, hgrantId] at hfind
      exact hfind
  · rintro ⟨hid, ⟨row, hrow, hreads⟩, grant, hgrant, hrevokedAt⟩
    refine ⟨_, ⟨_, ⟨rfl, hid⟩, by rw [hrow, Option.filter_some_pos hreads]; rfl⟩, ?_⟩
    obtain ⟨htenant, hgrantId, rfl⟩ := key_of_grant? hgrant
    simp only [List.mem_mergeSort, List.mem_map, List.mem_filter, Bool.and_eq_true,
      decide_eq_true_eq, Option.isNone_iff_eq_none]
    exact ⟨grant, ⟨(findBy_eq_some _ hgrant).1, ⟨htenant, hgrantId⟩, hrevokedAt⟩, rfl⟩

/-- What the claim of a reading guest rests on. -/
structure Entitled (py : Python) (journal : List Entry) (tenantId principalId docId : String) :
    Prop where
  activated : ActivatedInTime py journal tenantId principalId
  granted : Granted journal tenantId principalId docId
  principalNotRevoked : ∀ entry ∈ journal, ¬ RevokesPrincipal tenantId principalId entry
  grantNotRevoked : ∀ entry ∈ journal, ¬ RevokesGrant tenantId principalId docId entry

theorem Readable.entitled {py : Python} {journal : List Entry}
    (hprincipals : PrincipalsTraced py journal t)
    (hgrants : GrantsTraced journal t) (hreadable : Readable t tenantId principalId docId) :
    Entitled py journal tenantId principalId docId := by
  obtain ⟨⟨row, hrow, hreads⟩, grant, hgrant, hrevokedAt⟩ := hreadable
  have hstatus : row.status = .active := by
    simp only [GuestPrincipalRow.reads, Bool.and_eq_true, decide_eq_true_eq] at hreads
    exact hreads.1
  have hactive := hprincipals.active row (hasPrincipal_of_principal? hrow) hstatus
  have hgranted := hgrants.granted grant (hasGrant_of_grant? hgrant)
  obtain ⟨htenant, hid⟩ := key_of_principal? hrow
  obtain ⟨htenant', hid', hdoc⟩ := key_of_grant? hgrant
  rw [htenant, hid] at hactive
  rw [htenant', hid', hdoc] at hgranted
  refine ⟨hactive, hgranted.2, ?_, ?_⟩
  · intro entry hentry hrevokes
    obtain ⟨other, hother, hrevoked⟩ := hprincipals.revoked entry hentry _ _ hrevokes
    rw [hrow, Option.some.injEq] at hother
    rw [← hother, hstatus] at hrevoked
    nomatch hrevoked
  · intro entry hentry hrevokes
    obtain ⟨other, hother, hrevoked⟩ := hgrants.revoked entry hentry _ _ _ hrevokes
    rw [hgrant, Option.some.injEq] at hother
    exact hrevoked (hother ▸ hrevokedAt)

end

/-- In every run, a guest can read exactly the documents in its list; it was activated in time
and granted the document, and neither was revoked; principals of a tenant share no address and
no verified identity; what is revoked is not readable after any further calls. -/
theorem guest_access (py : Python) (tenants : List String) (documents : List (String × String))
    (calls : List Call) (tenantId : String) :
    let run := admissions py tenants documents calls
    (∀ guestPrincipalId docId,
      (canReadDocument tenantId guestPrincipalId docId run.state = .ok true ↔
        ∃ ids, listReadableDocumentIds tenantId guestPrincipalId run.state = .ok ids ∧
          stripText docId ∈ ids) ∧
      (canReadDocument tenantId guestPrincipalId docId run.state = .ok true →
        Entitled py run.journal tenantId (stripText guestPrincipalId) (stripText docId)) ∧
      ((∃ entry ∈ run.journal, RevokesPrincipal tenantId (stripText guestPrincipalId) entry ∨
          RevokesGrant tenantId (stripText guestPrincipalId) (stripText docId) entry) →
        ∀ later, canReadDocument tenantId guestPrincipalId docId
          (admissions py tenants documents (calls ++ later)).state ≠ .ok true)) ∧
    (∀ row ∈ run.state.principals, ∀ other ∈ run.state.principals,
      row.tenantId = tenantId → other.tenantId = tenantId →
        row.invitedEmail = other.invitedEmail ∨
          (∃ issuer subject, row.verifiedIssuer = some issuer ∧ row.verifiedSubject = some subject ∧
            other.verifiedIssuer = some issuer ∧ other.verifiedSubject = some subject) →
        row = other) := by
  intro run
  obtain ⟨hprincipals, hgrants⟩ := admissions_traced py tenants documents calls
  refine ⟨fun guestPrincipalId docId => ⟨?_, ?_, ?_⟩, ?_⟩
  · rw [canReadDocument_eq_true, mem_listReadableDocumentIds hgrants.keys]
    refine and_congr_right fun _ => and_iff_right_of_imp fun hreadable => ?_
    obtain ⟨grant, hgrant, -⟩ := hreadable.grant
    have hdoc := (hgrants.granted grant (hasGrant_of_grant? hgrant)).1
    rwa [(key_of_grant? hgrant).2.2] at hdoc
  · intro hread
    exact (canReadDocument_eq_true.mp hread).2.2.entitled hprincipals hgrants
  · rintro ⟨entry, hentry, hrevokes⟩ later hread
    obtain ⟨hprincipals', hgrants'⟩ := admissions_traced py tenants documents (calls ++ later)
    have hentitled := (canReadDocument_eq_true.mp hread).2.2.entitled hprincipals' hgrants'
    have hlater := (journal_isPrefix _ calls later).subset hentry
    rcases hrevokes with hrevokes | hrevokes
    · exact hentitled.principalNotRevoked entry hlater hrevokes
    · exact hentitled.grantNotRevoked entry hlater hrevokes
  · intro row hrow other hother htenant htenant' hsame
    have hfound := findBy_of_mem GuestPrincipalRow.key hprincipals.keys hrow
    have hfound' := findBy_of_mem GuestPrincipalRow.key hprincipals.keys hother
    have hsameTenant : row.tenantId = other.tenantId := htenant.trans htenant'.symm
    have hid : row.guestPrincipalId = other.guestPrincipalId := by
      rcases hsame with hemail | ⟨issuer, subject, hissuer, hsubject, hissuer', hsubject'⟩
      · exact hprincipals.emails row other hfound hfound' hsameTenant hemail
      · exact hprincipals.identities row other issuer subject hfound hfound' hsameTenant hissuer
          hissuer' hsubject hsubject'
    have hkey : row.key = other.key := by
      rw [GuestPrincipalRow.key, GuestPrincipalRow.key, hsameTenant, hid]
    rw [hkey, hfound', Option.some.injEq] at hfound
    exact hfound.symm

namespace Padded

def py : Python where
  casefold value := .ofList (value.toList.map Char.toLower)
  fromIsoFormat value :=
    if value = "2026-09-07T00:00:00+00:00" then some ⟨some 1788739200000000⟩ else none

/-- A guest is invited, activated and granted a document. -/
def calls : List Call := [
  ⟨"tenant-a", .createPendingGuest {
    guestPrincipalId := "guest-1"
    invitedEmail := "guest-1@example.test"
    verificationMethod := "personal_account"
    createdBy := "host-admin"
    createdAt := "2026-09-06T11:00:00Z"
    expiresAt := "2026-09-07T00:00:00Z"
    now := ⟨some 1788696000000000⟩ }⟩,
  ⟨"tenant-a", .activateVerifiedGuest {
    guestPrincipalId := "guest-1"
    verifiedIssuer := "https://accounts.example.test"
    verifiedSubject := "subject-1"
    redeemedAt := "2026-09-06T12:00:00Z"
    now := ⟨some 1788696000000000⟩ }⟩,
  ⟨"tenant-a", .grantDocument {
    guestPrincipalId := "guest-1"
    docId := "doc-a"
    grantedBy := "host-admin"
    grantedAt := "2026-09-06T12:00:00Z" }⟩]

def tables : Tables := (admissions py ["tenant-a"] [("tenant-a", "doc-a")] calls).state

/-- The guest can read `" doc-a "`, which is not in its list. -/
theorem not_listed : ¬ ∀ (py : Python) (tenants : List String)
    (documents : List (String × String)) (calls : List Call)
    (tenantId guestPrincipalId docId : String),
    canReadDocument tenantId guestPrincipalId docId
        (admissions py tenants documents calls).state = .ok true ↔
      ∃ ids, listReadableDocumentIds tenantId guestPrincipalId
        (admissions py tenants documents calls).state = .ok ids ∧ docId ∈ ids := by
  intro hlisted
  have hread : canReadDocument "tenant-a" "guest-1" " doc-a " tables = .ok true := by
    decide +kernel
  obtain ⟨ids, hids, hmem⟩ := (hlisted py ["tenant-a"] [("tenant-a", "doc-a")] calls
    "tenant-a" "guest-1" " doc-a ").mp hread
  have hkeys : (tables.grants.map GuestDocumentGrantRow.key).Nodup := by decide +kernel
  have hreadable := ((mem_listReadableDocumentIds hkeys).mp ⟨ids, hids, hmem⟩).2
  have hgrant : tables.grant? "tenant-a" (stripText "guest-1") " doc-a " = none := by
    decide +kernel
  obtain ⟨grant, hfound, -⟩ := hreadable.grant
  rw [hgrant] at hfound
  nomatch hfound

end Padded

/-- A call changes nothing of another tenant. -/
theorem Change.frame {py : Python} {t next : Tables} {entry : Entry} {tenantId : String}
    (hchange : Change py t entry next) (hother : stripText entry.1.tenantId ≠ tenantId) :
    (∀ id, next.principal? tenantId id = t.principal? tenantId id) ∧
      ∀ id docId, next.grant? tenantId id docId = t.grant? tenantId id docId := by
  have hput : ∀ row : GuestPrincipalRow, row.tenantId = stripText entry.1.tenantId →
      ∀ id, (t.putPrincipal row).principal? tenantId id = t.principal? tenantId id := by
    intro row hrow id
    simp [GuestPrincipalRow.key, hrow, hother]
  have hputGrant : ∀ row : GuestDocumentGrantRow, row.tenantId = stripText entry.1.tenantId →
      ∀ id docId, (t.putGrant row).grant? tenantId id docId = t.grant? tenantId id docId := by
    intro row hrow id docId
    simp [GuestDocumentGrantRow.key, hrow, hother]
  cases hchange with
  | same => exact ⟨fun _ => rfl, fun _ _ => rfl⟩
  | invited _ row hinvites => exact ⟨hput row hinvites.tenantId.symm, fun _ _ => rfl⟩
  | activated _ row _ _ _ hactivates =>
      exact ⟨hput _ hactivates.tenantId.symm, fun _ _ => rfl⟩
  | granted row hgranted =>
      obtain ⟨_, hentry, _, _, htenant, _⟩ := hgranted
      rw [List.mem_singleton.mp hentry] at htenant
      exact ⟨fun _ => rfl, hputGrant row htenant.symm⟩
  | revokedGrant row _ hrevokes =>
      obtain ⟨_, _, _, _, _, htenant, _⟩ := hrevokes
      exact ⟨fun _ => rfl, hputGrant _ htenant.symm⟩
  | revokedPrincipal row _ hrevokes =>
      obtain ⟨_, _, _, _, htenant, _⟩ := hrevokes
      exact ⟨hput _ htenant.symm, fun _ _ => rfl⟩

/-- Whatever the other tenants go on to do, a guest can read the same documents of its tenant. -/
theorem tenants_do_not_interfere (py : Python) (tenants : List String)
    (documents : List (String × String)) (calls later : List Call)
    (tenantId guestPrincipalId docId : String) :
    let others := later.filter fun call => decide (stripText call.tenantId ≠ tenantId)
    canReadDocument tenantId guestPrincipalId docId
        (admissions py tenants documents (calls ++ others)).state =
      canReadDocument tenantId guestPrincipalId docId
        (admissions py tenants documents calls).state := by
  intro others
  have hother : ∀ call ∈ others, stripText call.tenantId ≠ tenantId := by simp [others]
  clear_value others
  induction others using List.reverseRecOn with
  | nil => rw [List.append_nil]
  | append_singleton others call ih =>
      rw [← ih fun call hcall => hother call (List.mem_append_left _ hcall), ← List.append_assoc]
      unfold admissions
      rw [runCalls_snoc]
      cases hserve : serve py _ call with
      | error error => rw [Run.call_of_error hserve]
      | ok pair =>
          obtain ⟨answer, next⟩ := pair
          obtain ⟨hprincipal, hgrant⟩ := (serve_change hserve).frame (hother call (by simp))
          rw [Run.call_of_ok hserve]
          simp only [canReadDocument, hprincipal, hgrant]

end KjAtlas.Guest
