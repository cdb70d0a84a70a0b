import KjAtlas.Foundation.Transactions
import KjAtlas.Py.UrlSplit

/-! # Identities of a proxy's users

A proxy names a provider and a subject. The identity row of the pair is found by its
structured binding or, in any case of letters, by the columns that are older than the
binding. A row without a binding gets one on its first use.
-/

namespace KjAtlas.Identity

open Py (Unicode)

/-! ## Tables -/

structure UserIdentityRow where
  id : Nat
  userId : String
  provider : String
  externalUid : String
  identityProviderId : Option String
  subject : Option String
deriving DecidableEq

structure LegacyIdentityProviderBinding where
  identityProviderId : String
  issuer : String
  audience : String

/-- The tables. Rows that are only added where they are missing, and that nothing here reads,
are left out. -/
structure Database where
  identities : List UserIdentityRow
  /-- The issuer and the audience of each provider. -/
  identityProviders : InsertionMap String (String × String)
  /-- The users with a membership in the local tenant. -/
  memberships : List String

inductive Raised where
  | httpException (statusCode : Nat) (code : String)
  | identityMappingConflictError
  | valueError (message : String)
  | runtimeError (message : String)
  | integrityError
deriving DecidableEq

/-- `lower` of SQLite. -/
def sqlLower (text : String) : String := .ofList (text.toList.map Char.toLower)

/-- Both columns of a row as the unique index compares them. -/
def UserIdentityRow.folded (row : UserIdentityRow) : String × String :=
  (sqlLower row.provider, sqlLower row.externalUid)

/-- `row.identity_provider_id is None and row.subject is None`. -/
def UserIdentityRow.IsUnbound (row : UserIdentityRow) : Prop :=
  row.identityProviderId = none ∧ row.subject = none

instance (row : UserIdentityRow) : Decidable row.IsUnbound := inferInstanceAs (Decidable (_ ∧ _))

def UserIdentityRow.IsBoundTo (row : UserIdentityRow) (identityProviderId subject : String) : Prop :=
  row.identityProviderId = some identityProviderId ∧ row.subject = some subject

instance (row : UserIdentityRow) (identityProviderId subject : String) :
    Decidable (row.IsBoundTo identityProviderId subject) := inferInstanceAs (Decidable (_ ∧ _))

/-- A unique constraint of the table forbids that both rows are in it. -/
def UserIdentityRow.Clashes (row other : UserIdentityRow) : Prop :=
  (other.provider = row.provider ∧ other.externalUid = row.externalUid) ∨
    (∃ identityProviderId ∈ row.identityProviderId, ∃ subject ∈ row.subject,
      other.IsBoundTo identityProviderId subject) ∨ other.folded = row.folded

instance (row other : UserIdentityRow) : Decidable (row.Clashes other) :=
  inferInstanceAs (Decidable (_ ∨ _ ∨ _))

/-- `db.add(row)`, and the constraints that are checked with it. -/
def Database.insertIdentity (db : Database) (row : UserIdentityRow) : Except Raised Database :=
  if ∃ other ∈ db.identities, row.Clashes other then .error .integrityError
  else .ok { db with identities := db.identities ++ [row] }

def Database.addProvider (db : Database) (binding : LegacyIdentityProviderBinding) : Database :=
  { db with identityProviders :=
      db.identityProviders.set binding.identityProviderId (binding.issuer, binding.audience) }

/-- The row of an identifier is replaced. -/
def Database.updateIdentity (db : Database) (updated : UserIdentityRow) : Database :=
  { db with identities := db.identities.map fun row => if row.id = updated.id then updated else row }

/-! ## Bindings -/

section Binding

variable (u : Unicode) (digest : String → String)

def normalizeProvider (rawProvider : String) : String := u.lower (stripText rawProvider)

/-- `legacy_identity_provider_binding`; the digest is the start of the SHA-256 hash. -/
def legacyIdentityProviderBinding (provider : String) :
    Except Raised LegacyIdentityProviderBinding :=
  let normalizedProvider := normalizeProvider u provider
  if normalizedProvider = "" then .error (.valueError "provider must be non-empty")
  else .ok {
    identityProviderId := "idp-legacy-" ++ digest normalizedProvider
    issuer := "urn:sui-sensemaking:legacy-provider:" ++ digest normalizedProvider
    audience := "sui-sensemaking-single-tenant" }

def ensureLegacyIdentityProvider (db : Database) (provider : String) :
    Except Raised (LegacyIdentityProviderBinding × Database) := do
  let binding ← legacyIdentityProviderBinding u digest provider
  match db.identityProviders.get? binding.identityProviderId with
  | none => return (binding, db.addProvider binding)
  | some (issuer, audience) =>
      if issuer ≠ binding.issuer ∨ audience ≠ binding.audience then
        .error (.runtimeError "legacy identity provider identifier collision")
      else return (binding, db)

/-- The rows that a structured lookup finds; at most two are read. -/
def structuredMatches (rows : List UserIdentityRow) (identityProviderId subject : String) :
    List UserIdentityRow :=
  (rows.filter fun row => decide (row.IsBoundTo identityProviderId subject)).take 2

/-- The rows that a lookup by the older columns finds; at most two are read. -/
def legacyMatches (rows : List UserIdentityRow) (provider subject : String) :
    List UserIdentityRow :=
  (rows.filter fun row =>
    decide (row.folded = (normalizeProvider u provider, u.lower subject))).take 2

def resolveUserIdentity (rows : List UserIdentityRow) (provider subject : String) :
    Except Raised (Option UserIdentityRow) := do
  let binding ← legacyIdentityProviderBinding u digest provider
  let matchedById := InsertionMap.ofList
    ((structuredMatches rows binding.identityProviderId subject ++
      legacyMatches u rows provider subject).map fun row => (row.id, row))
  if 1 < matchedById.values.length then .error .identityMappingConflictError
  else return matchedById.values.head?

def UserIdentityRow.bound (row : UserIdentityRow) (identityProviderId subject : String) :
    UserIdentityRow :=
  { row with identityProviderId := some identityProviderId, subject := some subject }

/-- `ensure_user_identity_binding`, with the row as it is afterwards. -/
def ensureUserIdentityBinding (db : Database) (identity : UserIdentityRow)
    (provider subject : String) : Except Raised ((UserIdentityRow × Bool) × Database) := do
  let (binding, db) ← ensureLegacyIdentityProvider u digest db provider
  if identity.IsUnbound then
    let bound := identity.bound binding.identityProviderId subject
    return ((bound, true), db.updateIdentity bound)
  else if ¬identity.IsBoundTo binding.identityProviderId subject then
    .error .identityMappingConflictError
  else return ((identity, false), db)

/-! ## Requests -/

/-- What a call reads of a request, of the settings and of the clock. -/
structure Request where
  /-- What `_check_trusted_proxy` raises. -/
  untrusted : Option Raised
  providerHeader : Option String
  subjectHeader : Option String
  userHeader : Option String
  allowJitProvisioning : Bool
  /-- The identifier of a user that this call creates. -/
  newUserId : String
deriving DecidableEq

/-- `_header`. -/
def header (value : Option String) : Option String :=
  (value.map stripText).filter fun text => decide (text ≠ "")

/-- `_normalize_provider` of `auth_context.py`. -/
def Request.provider (request : Request) : String :=
  match header request.providerHeader with
  | none => "header"
  | some raw => if normalizeProvider u raw = "" then "header" else normalizeProvider u raw

def Request.externalUid (request : Request) : Option String :=
  (header request.subjectHeader).or (header request.userHeader)

/-- `ensure_local_default_membership`. -/
def ensureLocalDefaultMembership (db : Database) (userId : String) : Bool × Database :=
  if userId ∈ db.memberships then (false, db)
  else (true, { db with memberships := userId :: db.memberships })

def nextId (rows : List UserIdentityRow) : Nat := (rows.map UserIdentityRow.id).foldr max 0 + 1

/-- The row that is added for a pair. -/
def newIdentity (rows : List UserIdentityRow) (userId provider externalUid : String)
    (binding : LegacyIdentityProviderBinding) : UserIdentityRow where
  id := nextId rows
  userId := userId
  provider := provider
  externalUid := externalUid
  identityProviderId := some binding.identityProviderId
  subject := some externalUid

/-- A row for a pair that none was found for, with its user. -/
def provision (db : Database) (userId provider externalUid : String) :
    Except Raised (UserIdentityRow × Database) := do
  let (binding, db) ← ensureLegacyIdentityProvider u digest db provider
  let identity := newIdentity db.identities userId provider externalUid binding
  let db ← db.insertIdentity identity
  return (identity, (ensureLocalDefaultMembership db userId).2)

/-- `resolve_identity_context`: the identity row that was found or created, and the tables
as they are committed. -/
def resolveIdentityContext (db : Database) (request : Request) :
    Except Raised (Option UserIdentityRow) × Database :=
  match request.untrusted, request.externalUid with
  | some raised, _ => (.error raised, db)
  | none, none => (.ok none, db)
  | none, some externalUid =>
      let provider := request.provider u
      match resolveUserIdentity u digest db.identities provider externalUid with
      | .error .identityMappingConflictError =>
          (.error (.httpException 409 "identity_mapping_conflict"), db)
      | .error raised => (.error raised, db)
      | .ok none =>
          if request.allowJitProvisioning then
            match provision u digest db request.newUserId provider externalUid with
            | .error raised => (.error raised, db)
            | .ok (identity, pending) => (.ok (some identity), pending)
          else (.error (.httpException 403 "identity_not_provisioned"), db)
      | .ok (some identity) =>
          match ensureUserIdentityBinding u digest db identity provider externalUid with
          | .error .identityMappingConflictError =>
              (.error (.httpException 409 "identity_mapping_conflict"), db)
          | .error raised => (.error raised, db)
          | .ok ((identity, bindingChanged), pending) =>
              let (membershipChanged, pending) :=
                ensureLocalDefaultMembership pending identity.userId
              (.ok (some identity), if bindingChanged || membershipChanged then pending else db)

end Binding

/-- The first two items of a list without repetition are equal only if there is at most one. -/
theorem take_two_of_eq {α : Type} {items : List α} (hnodup : items.Nodup)
    (hone : ∀ a ∈ items.take 2, ∀ b ∈ items.take 2, a = b) : items.take 2 = items := by
  rcases items with _ | ⟨a, _ | ⟨b, items⟩⟩
  · rfl
  · rfl
  · have hab : a = b := hone a (by simp) b (by simp)
    rw [hab] at hnodup
    exact absurd List.mem_cons_self (List.nodup_cons.mp hnodup).1

section Lookup

variable {u : Unicode} {digest : String → String} {rows : List UserIdentityRow}
  {provider subject : String}

def Matches (u : Unicode) (identityProviderId provider subject : String) (row : UserIdentityRow) :
    Prop :=
  row.IsBoundTo identityProviderId subject ∨
    row.folded = (normalizeProvider u provider, u.lower subject)

theorem resolveUserIdentity_of_binding {binding : LegacyIdentityProviderBinding}
    (hbinding : legacyIdentityProviderBinding u digest provider = .ok binding)
    (hids : (rows.map UserIdentityRow.id).Nodup) {found : Option UserIdentityRow} :
    resolveUserIdentity u digest rows provider subject = .ok found ↔
      ∀ row, row ∈ rows ∧ Matches u binding.identityProviderId provider subject row ↔
        found = some row := by
  have hrows : rows.Nodup := hids.of_map
  let structured := rows.filter fun row =>
    decide (row.IsBoundTo binding.identityProviderId subject)
  let legacy := rows.filter fun row =>
    decide (row.folded = (normalizeProvider u provider, u.lower subject))
  let read := structured.take 2 ++ legacy.take 2
  have hread : ∀ row ∈ read, row ∈ rows := by
    intro row hrow
    rcases List.mem_append.mp hrow with hrow | hrow
    · exact List.mem_of_mem_filter (List.mem_of_mem_take hrow)
    · exact List.mem_of_mem_filter (List.mem_of_mem_take hrow)
  have hkey : ∀ a ∈ read, ∀ b ∈ read, a.id = b.id → a = b := fun a ha b hb heq =>
    List.inj_on_of_nodup_map hids (hread a ha) (hread b hb) heq
  let values := (InsertionMap.ofList (read.map fun row => (row.id, row))).values
  have hvalues : ∀ row, row ∈ values ↔ row ∈ read := fun row => InsertionMap.mem_values_byKey hkey
  have hnodup : values.Nodup := InsertionMap.nodup_values_byKey read
  have hmatches : ∀ row, row ∈ rows ∧ Matches u binding.identityProviderId provider subject row ↔
      row ∈ structured ++ legacy := by
    intro row
    simp only [structured, legacy, List.mem_append, List.mem_filter, decide_eq_true_eq, Matches]
    tauto
  have hall : (∀ a ∈ read, ∀ b ∈ read, a = b) → read = structured ++ legacy := by
    intro hone
    simp only [read]
    rw [take_two_of_eq (hrows.filter _) fun a ha b hb => hone a (List.mem_append_left _ ha) b
        (List.mem_append_left _ hb),
      take_two_of_eq (hrows.filter _) fun a ha b hb => hone a (List.mem_append_right _ ha) b
        (List.mem_append_right _ hb)]
  have hresolve : resolveUserIdentity u digest rows provider subject =
      if 1 < values.length then .error .identityMappingConflictError else .ok values.head? := by
    rw [resolveUserIdentity, hbinding]
    rfl
  rw [hresolve]
  simp only [hmatches]
  split
  next hmany =>
    refine iff_of_false (fun hok => by cases hok) fun hfound => ?_
    -- two of the values that are read would be the one row
    obtain ⟨a, b, rest, hsplit⟩ : ∃ a b rest, values = a :: b :: rest := by
      clear_value values
      rcases values with _ | ⟨a, _ | ⟨b, rest⟩⟩
      · simp at hmany
      · simp at hmany
      · exact ⟨a, b, rest, rfl⟩
    have hmem : ∀ row ∈ values, found = some row := by
      intro row hrow
      apply (hfound row).mp
      have hrow := (hvalues row).mp hrow
      rcases List.mem_append.mp hrow with hrow | hrow
      · exact List.mem_append_left _ (List.mem_of_mem_take hrow)
      · exact List.mem_append_right _ (List.mem_of_mem_take hrow)
    rw [hsplit] at hmem hnodup
    have hab := (hmem a (by simp)).symm.trans (hmem b (by simp))
    rw [Option.some.inj hab] at hnodup
    exact absurd List.mem_cons_self (List.nodup_cons.mp hnodup).1
  next hfew =>
    have hshort : values.length ≤ 1 := Nat.le_of_not_lt hfew
    have hone : ∀ a ∈ values, ∀ b ∈ values, a = b := by
      clear_value values
      rcases values with _ | ⟨value, _ | ⟨other, rest⟩⟩
      · simp
      · simp
      · simp at hshort
    have hwhole := hall fun a ha b hb => hone a ((hvalues a).mpr ha) b ((hvalues b).mpr hb)
    simp only [← hwhole, ← hvalues, Except.ok.injEq]
    clear_value values
    rcases values with _ | ⟨value, _ | ⟨other, rest⟩⟩
    · cases found <;> simp
    · cases found <;> simp [eq_comm]
    · simp at hshort

end Lookup

end KjAtlas.Identity
