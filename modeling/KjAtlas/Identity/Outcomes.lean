import KjAtlas.Identity.Binding

/-! # What a call does to the identities

A call is refused, finds the row of its pair with its binding, binds a row, or adds one.
-/

namespace KjAtlas.Identity

open Py (Unicode)

/-! ## Pairs of requests -/

/-- What is known of `str.lower`: a second use changes nothing, no white space comes to the
ends of a text, and no capital of ASCII is left. -/
structure LowersText (u : Unicode) : Prop where
  lower_lower : ∀ text, u.lower (u.lower text) = u.lower text
  strip_lower : ∀ text, stripText (u.lower (stripText text)) = u.lower (stripText text)
  sqlLower_lower : ∀ text, sqlLower (u.lower text) = u.lower text

section Pairs

variable (u : Unicode) (digest : String → String)

def Request.pair (request : Request) : String × Option String :=
  (request.provider u, request.externalUid)

def bindingId (provider : String) : String := "idp-legacy-" ++ digest provider

def bindingOf (provider : String) : LegacyIdentityProviderBinding where
  identityProviderId := bindingId digest provider
  issuer := "urn:sui-sensemaking:legacy-provider:" ++ digest provider
  audience := "sui-sensemaking-single-tenant"

end Pairs

section Requests

variable {u : Unicode} {digest : String → String} (hlower : LowersText u)

include hlower

theorem normalizeProvider_provider (request : Request) :
    normalizeProvider u (request.provider u) = request.provider u := by
  have hheader : normalizeProvider u "header" = "header" := by
    rw [normalizeProvider, show stripText "header" = "header" by decide +kernel]
    have hascii : ("header".toList.all fun c => decide (c.toNat < 128)) = true := by
      decide +kernel
    have hlower := u.lower_ascii "header" fun c hc =>
      of_decide_eq_true (List.all_eq_true.mp hascii c hc)
    exact hlower.trans (by decide +kernel)
  unfold Request.provider
  split
  · exact hheader
  next raw =>
    split
    · exact hheader
    · rw [normalizeProvider, normalizeProvider, hlower.strip_lower, hlower.lower_lower]

theorem sqlLower_provider (request : Request) :
    sqlLower (request.provider u) = request.provider u := by
  rw [← normalizeProvider_provider hlower, normalizeProvider, hlower.sqlLower_lower]

omit hlower in
theorem provider_ne_empty (request : Request) : request.provider u ≠ "" := by
  unfold Request.provider
  split
  · decide
  next raw =>
    split
    · decide
    next hne => exact hne

theorem binding_provider (request : Request) :
    legacyIdentityProviderBinding u digest (request.provider u) =
      .ok (bindingOf digest (request.provider u)) := by
  rw [legacyIdentityProviderBinding, normalizeProvider_provider hlower,
    if_neg (provider_ne_empty request)]
  rfl

end Requests

/-! ## What a call does -/

section Outcomes

variable (u : Unicode) (digest : String → String)

/-- The answer of a call, and the rows after it. -/
inductive Outcome (rows : List UserIdentityRow) (request : Request) :
    Except Raised (Option UserIdentityRow) → List UserIdentityRow → Prop where
  | refused (raised : Raised) : Outcome rows request (.error raised) rows
  | anonymous (hnone : request.externalUid = none) : Outcome rows request (.ok none) rows
  | created (subject : String) (row : UserIdentityRow) (hsubject : request.externalUid = some subject)
      (hfresh : ∀ other ∈ rows,
        ¬Matches u (bindingId digest (request.provider u)) (request.provider u) subject other)
      (hid : row.id = nextId rows)
      (hcolumns : row.folded = (sqlLower (request.provider u), sqlLower subject))
      (hbound : row.IsBoundTo (bindingId digest (request.provider u)) subject)
      (hclash : ¬∃ other ∈ rows, row.Clashes other) :
      Outcome rows request (.ok (some row)) (rows ++ [row])
  | bound (subject : String) (row : UserIdentityRow) (hsubject : request.externalUid = some subject)
      (hfound : ∀ other, other ∈ rows ∧
        Matches u (bindingId digest (request.provider u)) (request.provider u) subject other ↔
          row = other)
      (hunbound : row.IsUnbound) :
      Outcome rows request
        (.ok (some (row.bound (bindingId digest (request.provider u)) subject)))
        (rows.map fun other => if other.id = row.id then
          row.bound (bindingId digest (request.provider u)) subject else other)
  | again (subject : String) (row : UserIdentityRow) (hsubject : request.externalUid = some subject)
      (hfound : ∀ other, other ∈ rows ∧
        Matches u (bindingId digest (request.provider u)) (request.provider u) subject other ↔
          row = other)
      (hbound : row.IsBoundTo (bindingId digest (request.provider u)) subject) :
      Outcome rows request (.ok (some row)) rows

/-- The provider of a binding is in the table. -/
def HasProvider (db : Database) (provider : String) : Prop :=
  db.identityProviders.get? (bindingId digest provider) =
    some ((bindingOf digest provider).issuer, (bindingOf digest provider).audience)

variable {u : Unicode} {digest : String → String} (hlower : LowersText u) {db : Database}
  {request : Request}

include hlower

variable {next : Database} {row : UserIdentityRow} {subject : String}

theorem ensureLegacyIdentityProvider_eq_ok {binding : LegacyIdentityProviderBinding}
    (hok : ensureLegacyIdentityProvider u digest db (request.provider u) = .ok (binding, next)) :
    binding = bindingOf digest (request.provider u) ∧
      next.identities = db.identities ∧ HasProvider digest next (request.provider u) ∧
      ∀ provider, HasProvider digest db provider → HasProvider digest next provider := by
  rw [ensureLegacyIdentityProvider, binding_provider hlower] at hok
  obtain ⟨_, hbinding, hok⟩ := bind_eq_ok.mp hok
  cases hbinding
  split at hok
  next hnone =>
    cases hok
    refine ⟨rfl, rfl, ?_, fun provider hhas => ?_⟩
    · rw [HasProvider, Database.addProvider, InsertionMap.get?_set]
      exact if_pos rfl
    · rw [HasProvider, Database.addProvider, InsertionMap.get?_set, if_neg]
      · exact hhas
      · intro heq
        rw [HasProvider, ← heq, hnone] at hhas
        cases hhas
  next issuer audience hsome =>
    split at hok
    · cases hok
    next hsame =>
      cases hok
      obtain ⟨hissuer, haudience⟩ := not_or.mp hsame
      rw [not_not] at hissuer haudience
      refine ⟨rfl, rfl, ?_, fun _ hhas => hhas⟩
      rw [HasProvider, ← hissuer, ← haudience]
      exact hsome

theorem ensureLegacyIdentityProvider_of_has (hhas : HasProvider digest db (request.provider u)) :
    ensureLegacyIdentityProvider u digest db (request.provider u) =
      .ok (bindingOf digest (request.provider u), db) := by
  rw [ensureLegacyIdentityProvider, binding_provider hlower]
  refine bind_eq_ok.mpr ⟨_, rfl, ?_⟩
  have hget : db.identityProviders.get? (bindingOf digest (request.provider u)).identityProviderId =
      some ((bindingOf digest (request.provider u)).issuer,
        (bindingOf digest (request.provider u)).audience) := hhas
  rw [hget]
  exact if_neg (by simp)

theorem provision_eq_ok {userId : String}
    (hok : provision u digest db userId (request.provider u) subject = .ok (row, next)) :
    row = newIdentity db.identities userId (request.provider u) subject
        (bindingOf digest (request.provider u)) ∧
      (¬∃ other ∈ db.identities, row.Clashes other) ∧ next.identities = db.identities ++ [row] ∧
      HasProvider digest next (request.provider u) ∧
      ∀ provider, HasProvider digest db provider → HasProvider digest next provider := by
  obtain ⟨⟨binding, middle⟩, hensure, hok⟩ := bind_eq_ok.mp hok
  obtain ⟨rfl, hidentities, hhas, hkeeps⟩ := ensureLegacyIdentityProvider_eq_ok hlower hensure
  obtain ⟨inserted, hinsert, hok⟩ := bind_eq_ok.mp hok
  rw [hidentities] at hok
  rw [Database.insertIdentity, hidentities] at hinsert
  split at hinsert
  · cases hinsert
  next hclash =>
    cases hinsert
    cases hok
    unfold ensureLocalDefaultMembership
    split
    · exact ⟨rfl, hclash, rfl, hhas, hkeeps⟩
    · exact ⟨rfl, hclash, rfl, hhas, hkeeps⟩

theorem ensureUserIdentityBinding_eq_ok {identity : UserIdentityRow} {changed : Bool}
    (hok : ensureUserIdentityBinding u digest db identity (request.provider u) subject =
      .ok ((row, changed), next)) :
    HasProvider digest next (request.provider u) ∧
      (∀ provider, HasProvider digest db provider → HasProvider digest next provider) ∧
      (identity.IsUnbound ∧ row = identity.bound (bindingId digest (request.provider u)) subject ∧
          changed = true ∧
          next.identities = (db.updateIdentity row).identities ∨
        identity.IsBoundTo (bindingId digest (request.provider u)) subject ∧ row = identity ∧
          changed = false ∧ next.identities = db.identities) := by
  obtain ⟨⟨binding, middle⟩, hensure, hok⟩ := bind_eq_ok.mp hok
  obtain ⟨rfl, hidentities, hhas, hkeeps⟩ := ensureLegacyIdentityProvider_eq_ok hlower hensure
  dsimp only at hok
  split at hok
  next hunbound =>
    cases hok
    refine ⟨hhas, hkeeps, Or.inl ⟨hunbound, rfl, rfl, ?_⟩⟩
    rw [Database.updateIdentity, hidentities, Database.updateIdentity]
  next =>
    split at hok
    · cases hok
    next hbound =>
      cases hok
      exact ⟨hhas, hkeeps, Or.inr ⟨not_not.mp hbound, rfl, rfl, hidentities⟩⟩

/-- Every call has one of the outcomes. It removes no provider, and the provider of a row that
is returned for the first time is in the table. -/
theorem resolve_outcome (hids : (db.identities.map UserIdentityRow.id).Nodup)
    (hbound : ∀ row ∈ db.identities, ∀ subject,
      row.IsBoundTo (bindingId digest (request.provider u)) subject →
        HasProvider digest db (request.provider u)) :
    Outcome u digest db.identities request (resolveIdentityContext u digest db request).1
        (resolveIdentityContext u digest db request).2.identities ∧
      (∀ provider, HasProvider digest db provider →
        HasProvider digest (resolveIdentityContext u digest db request).2 provider) ∧
      ∀ row, (resolveIdentityContext u digest db request).1 = .ok (some row) →
        HasProvider digest (resolveIdentityContext u digest db request).2 (request.provider u) := by
  have hfailed : ∀ raised : Raised,
      Outcome u digest db.identities request (.error raised) db.identities ∧
        (∀ provider, HasProvider digest db provider → HasProvider digest db provider) ∧
        ∀ row : UserIdentityRow, Except.error raised = .ok (some row) →
          HasProvider digest db (request.provider u) := fun raised =>
    ⟨.refused raised, fun _ hhas => hhas, fun _ heq => by cases heq⟩
  unfold resolveIdentityContext
  split
  next => exact hfailed _
  next _ hnone => exact ⟨.anonymous hnone, fun _ hhas => hhas, fun _ heq => by cases heq⟩
  next subject _ hsubject =>
    dsimp only
    have hresolve := @resolveUserIdentity_of_binding u digest db.identities (request.provider u)
      subject _ (binding_provider hlower request) hids
    split
    · exact hfailed _
    · exact hfailed _
    next hnone =>
      have hfresh := hresolve.mp hnone
      split
      · split
        · exact hfailed _
        next row next hprovision =>
          obtain ⟨rfl, hclash, hidentities, hhas, hkeeps⟩ := provision_eq_ok hlower hprovision
          refine ⟨?_, hkeeps, fun _ _ => hhas⟩
          rw [hidentities]
          refine .created subject _ hsubject (fun other hother hmatches => ?_) rfl rfl ⟨rfl, rfl⟩
            hclash
          exact absurd ((hfresh other).mp ⟨hother, hmatches⟩) (by simp)
      · exact hfailed _
    next row hsome =>
      have hfound := hresolve.mp hsome
      simp only [Option.some.injEq] at hfound
      split
      · exact hfailed _
      · exact hfailed _
      next row' changed next hensure =>
        obtain ⟨hhas, hkeeps, hcases⟩ := ensureUserIdentityBinding_eq_ok hlower hensure
        dsimp only
        have hmember : ∀ userId, (ensureLocalDefaultMembership next userId).2.identities =
            next.identities ∧ ∀ provider, HasProvider digest next provider →
              HasProvider digest (ensureLocalDefaultMembership next userId).2 provider := by
          intro userId
          unfold ensureLocalDefaultMembership
          split
          · exact ⟨rfl, fun _ hhas => hhas⟩
          · exact ⟨rfl, fun _ hhas => hhas⟩
        obtain ⟨hsame, hmember⟩ := hmember row'.userId
        rcases hcases with ⟨hunbound, rfl, rfl, hidentities⟩ | ⟨hboundTo, rfl, rfl, hidentities⟩
        · rw [Bool.true_or, if_pos rfl, hsame, hidentities]
          exact ⟨.bound subject row hsubject hfound hunbound,
            fun provider hold => hmember provider (hkeeps provider hold),
            fun _ _ => hmember _ hhas⟩
        · have hold := hbound row' ((hfound row').mpr rfl).1 subject hboundTo
          rw [Bool.false_or]
          split
          · rw [hsame, hidentities]
            exact ⟨.again subject row' hsubject hfound hboundTo,
              fun provider hhas => hmember provider (hkeeps provider hhas),
              fun _ _ => hmember _ hhas⟩
          · exact ⟨.again subject row' hsubject hfound hboundTo, fun _ hhas => hhas,
              fun _ _ => hold⟩

/-- A pair whose row is found with its binding gets it. -/
theorem resolve_again (huntrusted : request.untrusted = none)
    (hsubject : request.externalUid = some subject)
    (hfound : resolveUserIdentity u digest db.identities (request.provider u) subject =
      .ok (some row)) (hbound : row.IsBoundTo (bindingId digest (request.provider u)) subject)
    (hhas : HasProvider digest db (request.provider u)) :
    (resolveIdentityContext u digest db request).1 = .ok (some row) := by
  have hnot : ¬row.IsUnbound := by
    intro hunbound
    rw [UserIdentityRow.IsUnbound, hbound.1] at hunbound
    exact absurd hunbound.1 (by simp)
  have hensure : ensureUserIdentityBinding u digest db row (request.provider u) subject =
      .ok ((row, false), db) := by
    refine bind_eq_ok.mpr ⟨_, ensureLegacyIdentityProvider_of_has hlower hhas, ?_⟩
    have hboundTo : row.IsBoundTo
      (bindingOf digest (request.provider u)).identityProviderId subject := hbound
    dsimp only
    rw [if_neg hnot, if_neg (not_not.mpr hboundTo)]
    rfl
  unfold resolveIdentityContext
  rw [huntrusted, hsubject]
  dsimp only
  rw [hfound]
  dsimp only
  rw [hensure]

end Outcomes

end KjAtlas.Identity
