import KjAtlas.Identity.Outcomes

/-! # One row for each pair

Where Python and SQLite lower the subjects alike, every pair of a provider and a subject
keeps the row that it got first, and no row is given to two pairs.
-/

namespace KjAtlas.Identity

open Py (Unicode)

/-! ## Runs -/

section Run

variable (u : Unicode) (digest : String → String)

/-- A call is always answered. -/
def serve (db : Database) (request : Request) :
    Except Empty (Except Raised (Option UserIdentityRow) × Database) :=
  .ok (resolveIdentityContext u digest db request)

abbrev Logins : Type := Run Database Request (Except Raised (Option UserIdentityRow))

/-- Python and SQLite lower the subject alike, or only the row of the pair itself has the
columns that either of them gives. -/
def FoldsAlike (rows : List UserIdentityRow) (provider subject : String) : Prop :=
  u.lower subject = sqlLower subject ∨
    ∀ row ∈ rows, row.IsBoundTo (bindingId digest provider) subject ∨
      (row.folded ≠ (provider, u.lower subject) ∧ row.folded ≠ (provider, sqlLower subject))

instance (rows : List UserIdentityRow) (provider subject : String) :
    Decidable (FoldsAlike u digest rows provider subject) :=
  inferInstanceAs (Decidable (_ ∨ ∀ row ∈ rows, _ ∨ (_ ∧ _)))

/-- What a call does when it takes part in a one-to-one mapping. -/
structure StepMeets (run : Logins) (request : Request) : Prop where
  /-- No row is returned for two pairs. -/
  once : ∀ entry ∈ run.journal, ∀ earlier row, entry.2 = .ok (some earlier) →
    (resolveIdentityContext u digest run.state request).1 = .ok (some row) →
      earlier.id = row.id → entry.1.pair u = request.pair u
  /-- A pair that got a row gets it again. -/
  again : ∀ entry ∈ run.journal, ∀ row, entry.2 = .ok (some row) →
    entry.1.pair u = request.pair u → request.untrusted = none →
      (resolveIdentityContext u digest run.state request).1 = .ok (some row)
  /-- A row with the columns of the pair is found, and no row is added. -/
  exact : ∀ subject ∈ request.externalUid, ∀ row ∈ run.state.identities,
    row.provider = request.provider u → row.externalUid = subject →
      resolveUserIdentity u digest run.state.identities (request.provider u) subject =
        .ok (some row) ∧
      (resolveIdentityContext u digest run.state request).2.identities.map UserIdentityRow.id =
        run.state.identities.map UserIdentityRow.id
  /-- A call that is refused changes no row. -/
  refused : ∀ statusCode code, (resolveIdentityContext u digest run.state request).1 =
      .error (.httpException statusCode code) → statusCode = 403 ∨ statusCode = 409 →
    (resolveIdentityContext u digest run.state request).2.identities = run.state.identities

end Run

/-! ## The invariant -/

section Invariant

/-- What the rows of a run satisfy, with the providers that are in the table. -/
structure Mapped (u : Unicode) (digest : String → String) (providers : List String)
    (has : String → Prop) (rows : List UserIdentityRow) : Prop where
  ids : (rows.map UserIdentityRow.id).Nodup
  folds : (rows.map UserIdentityRow.folded).Nodup
  binding : ∀ row ∈ rows, row.IsUnbound ∨ ∃ provider ∈ providers, ∃ subject,
    row.IsBoundTo (bindingId digest provider) subject ∧ has provider ∧
      (row.folded = (provider, u.lower subject) ∨ row.folded = (provider, sqlLower subject))
  unique : ∀ row ∈ rows, ∀ other ∈ rows, ∀ providerId subject,
    row.IsBoundTo providerId subject → other.IsBoundTo providerId subject → row = other

/-- The row that an entry of the journal returned is still there, bound to its pair. -/
def Answered (u : Unicode) (digest : String → String) (rows : List UserIdentityRow)
    (entry : Request × Except Raised (Option UserIdentityRow)) : Prop :=
  ∀ row, entry.2 = .ok (some row) → row ∈ rows ∧ ∃ subject,
    entry.1.externalUid = some subject ∧
      row.IsBoundTo (bindingId digest (entry.1.provider u)) subject

structure Inv (u : Unicode) (digest : String → String) (providers : List String) (run : Logins) :
    Prop where
  mapped : Mapped u digest providers (HasProvider digest run.state) run.state.identities
  asked : ∀ entry ∈ run.journal, entry.1.provider u ∈ providers
  answered : ∀ entry ∈ run.journal, Answered u digest run.state.identities entry

/-- The condition on a call: Python and SQLite fold the subject alike, as far as the rows can
tell. -/
def MeetsCondition (u : Unicode) (digest : String → String) (run : Logins) (request : Request) :
    Prop :=
  ∀ subject ∈ request.externalUid,
    FoldsAlike u digest run.state.identities (request.provider u) subject

instance (u : Unicode) (digest : String → String) (run : Logins) (request : Request) :
    Decidable (MeetsCondition u digest run request) :=
  inferInstanceAs (Decidable (∀ subject ∈ request.externalUid, _))

theorem UserIdentityRow.IsUnbound.not_isBoundTo {row : UserIdentityRow} (hunbound : row.IsUnbound)
    (providerId subject : String) : ¬row.IsBoundTo providerId subject := by
  intro hbound
  have hnone := hunbound.1
  rw [hbound.1] at hnone
  cases hnone

theorem bindingId_injective {digest : String → String} {left right : String}
    (heq : bindingId digest left = bindingId digest right) : digest left = digest right := by
  have hlist := congrArg String.toList heq
  rw [bindingId, bindingId, String.toList_append, String.toList_append] at hlist
  exact String.toList_injective (List.append_cancel_left hlist)

theorem not_mem_nextId (rows : List UserIdentityRow) :
    nextId rows ∉ rows.map UserIdentityRow.id := by
  have hle : ∀ ids : List Nat, ∀ id ∈ ids, id ≤ ids.foldr max 0 := by
    intro ids
    induction ids with
    | nil => simp
    | cons first ids ih =>
        intro id hid
        rcases List.mem_cons.mp hid with rfl | hid
        · exact le_max_left _ _
        · exact (ih id hid).trans (le_max_right _ _)
  intro hmem
  have hmax := hle _ _ hmem
  rw [nextId] at hmax
  omega

/-! ### Rows that are added or bound -/

section Rows

variable {u : Unicode} {digest : String → String} {providers : List String}
  {has has' : String → Prop} {rows : List UserIdentityRow} {row : UserIdentityRow}
  {provider subject : String}

theorem Mapped.mono (hmapped : Mapped u digest providers has rows)
    (hkeeps : ∀ provider, has provider → has' provider) : Mapped u digest providers has' rows where
  ids := hmapped.ids
  folds := hmapped.folds
  binding := by
    intro row hrow
    apply (hmapped.binding row hrow).imp_right
    rintro ⟨provider, hmem, subject, hbound, hhas, hfold⟩
    exact ⟨provider, hmem, subject, hbound, hkeeps provider hhas, hfold⟩
  unique := hmapped.unique

theorem Mapped.append (hmapped : Mapped u digest providers has rows)
    (hprovider : provider ∈ providers) (hhas : has provider) (hid : row.id = nextId rows)
    (hbound : row.IsBoundTo (bindingId digest provider) subject)
    (hfold : row.folded = (provider, sqlLower subject))
    (hfresh : ∀ other ∈ rows, ¬other.IsBoundTo (bindingId digest provider) subject ∧
      other.folded ≠ (provider, sqlLower subject)) :
    Mapped u digest providers has (rows ++ [row]) where
  ids := by
    rw [List.map_append, List.map_singleton, hid, ← List.concat_eq_append]
    exact hmapped.ids.concat (not_mem_nextId rows)
  folds := by
    rw [List.map_append, List.map_singleton, hfold, ← List.concat_eq_append]
    apply hmapped.folds.concat
    intro hmem
    obtain ⟨other, hother, heq⟩ := List.mem_map.mp hmem
    exact (hfresh other hother).2 heq
  binding := by
    intro other hother
    rcases mem_snoc.mp hother with hother | rfl
    · exact hmapped.binding other hother
    · exact Or.inr ⟨provider, hprovider, subject, hbound, hhas, Or.inr hfold⟩
  unique := by
    have hnew : ∀ other ∈ rows, ∀ providerId own,
        row.IsBoundTo providerId own → ¬other.IsBoundTo providerId own := by
      intro other hother providerId own hrow hown
      obtain rfl := Option.some.inj (hbound.1.symm.trans hrow.1)
      obtain rfl := Option.some.inj (hbound.2.symm.trans hrow.2)
      exact (hfresh other hother).1 hown
    intro first hfirst second hsecond providerId own hown hown'
    rcases List.mem_append.mp hfirst with hfirst | hfirst <;>
      rcases List.mem_append.mp hsecond with hsecond | hsecond
    · exact hmapped.unique first hfirst second hsecond providerId own hown hown'
    · rw [List.mem_singleton] at hsecond
      exact absurd hown (hnew first hfirst providerId own (hsecond ▸ hown'))
    · rw [List.mem_singleton] at hfirst
      exact absurd hown' (hnew second hsecond providerId own (hfirst ▸ hown))
    · rw [List.mem_singleton] at hfirst hsecond
      rw [hfirst, hsecond]

theorem mem_replaced (hids : (rows.map UserIdentityRow.id).Nodup) (hrow : row ∈ rows)
    {updated other : UserIdentityRow} :
    (other ∈ rows.map fun other => if other.id = row.id then updated else other) ↔
      other = updated ∨ other ∈ rows ∧ other ≠ row := by
  have hsame : ∀ other ∈ rows, other.id = row.id ↔ other = row := fun other hother =>
    ⟨fun heq => List.inj_on_of_nodup_map hids hother hrow heq, fun heq => heq ▸ rfl⟩
  rw [List.mem_map]
  constructor
  · rintro ⟨old, hold, heq⟩
    split at heq
    · exact Or.inl heq.symm
    next hne =>
      subst heq
      exact Or.inr ⟨hold, fun heq => hne ((hsame old hold).mpr heq)⟩
  · rintro (rfl | ⟨hother, hne⟩)
    · exact ⟨row, hrow, if_pos rfl⟩
    · exact ⟨other, hother, if_neg fun heq => hne ((hsame other hother).mp heq)⟩

/-- What an update leaves alone is the same for all rows afterwards. -/
theorem map_replaced {β : Type} (hids : (rows.map UserIdentityRow.id).Nodup) (hrow : row ∈ rows)
    {updated : UserIdentityRow} (f : UserIdentityRow → β) (hf : f updated = f row) :
    (rows.map fun other => if other.id = row.id then updated else other).map f = rows.map f := by
  rw [List.map_map]
  apply List.map_congr_left
  intro other hother
  rw [Function.comp_apply]
  split
  next heq => rw [hf, List.inj_on_of_nodup_map hids hother hrow heq]
  next => rfl

theorem Mapped.replace (hmapped : Mapped u digest providers has rows)
    (hprovider : provider ∈ providers) (hhas : has provider) (hrow : row ∈ rows)
    (hfold : row.folded = (provider, u.lower subject))
    (hfresh : ∀ other ∈ rows, ¬other.IsBoundTo (bindingId digest provider) subject) :
    Mapped u digest providers has (rows.map fun other =>
      if other.id = row.id then row.bound (bindingId digest provider) subject else other) where
  ids := by
    rw [map_replaced hmapped.ids hrow _ (show (row.bound _ _).id = row.id from rfl)]
    exact hmapped.ids
  folds := by
    rw [map_replaced hmapped.ids hrow _ (show (row.bound _ _).folded = row.folded from rfl)]
    exact hmapped.folds
  binding := by
    intro other hother
    rcases (mem_replaced hmapped.ids hrow).mp hother with rfl | ⟨hother, -⟩
    · exact Or.inr ⟨provider, hprovider, subject, ⟨rfl, rfl⟩, hhas, Or.inl hfold⟩
    · exact hmapped.binding other hother
  unique := by
    have hnew : ∀ other ∈ rows, ∀ providerId own,
        (row.bound (bindingId digest provider) subject).IsBoundTo providerId own →
          ¬other.IsBoundTo providerId own := by
      intro other hother providerId own hrow hown
      obtain rfl := Option.some.inj hrow.1
      obtain rfl := Option.some.inj hrow.2
      exact hfresh other hother hown
    intro first hfirst second hsecond providerId own hown hown'
    rcases (mem_replaced hmapped.ids hrow).mp hfirst with rfl | ⟨hfirst, -⟩ <;>
      rcases (mem_replaced hmapped.ids hrow).mp hsecond with rfl | ⟨hsecond, -⟩
    · rfl
    · exact absurd hown' (hnew second hsecond providerId own hown)
    · exact absurd hown (hnew first hfirst providerId own hown')
    · exact hmapped.unique first hfirst second hsecond providerId own hown hown'

/-- The row of a pair is the one that both lookups find. -/
theorem Mapped.found (hmapped : Mapped u digest providers has rows)
    (hdigest : ∀ left ∈ providers, ∀ right ∈ providers, digest left = digest right → left = right)
    (hprovider : provider ∈ providers) (hnormal : normalizeProvider u provider = provider)
    (halike : FoldsAlike u digest rows provider subject) (hrow : row ∈ rows)
    (hown : row.IsBoundTo (bindingId digest provider) subject ∨
      row.folded = (provider, sqlLower subject)) (other : UserIdentityRow) :
    other ∈ rows ∧ Matches u (bindingId digest provider) provider subject other ↔
      row = other := by
  rw [Matches, hnormal]
  rcases halike with hsame | hall
  · have hfolded : ∀ other ∈ rows, other.IsBoundTo (bindingId digest provider) subject →
        other.folded = (provider, sqlLower subject) := by
      intro other hother hbound
      rcases hmapped.binding other hother with hunbound | ⟨own, hmem, ownSubject, hown, -, hfold⟩
      · exact absurd hbound (hunbound.not_isBoundTo _ _)
      · have hid := Option.some.inj (hbound.1.symm.trans hown.1)
        obtain rfl := Option.some.inj (hbound.2.symm.trans hown.2)
        rw [hsame, or_self] at hfold
        rw [hdigest _ hprovider _ hmem (bindingId_injective hid)]
        exact hfold
    have hrowFolded := hown.elim (hfolded row hrow) id
    rw [hsame]
    constructor
    · rintro ⟨hother, hmatches⟩
      have hotherFolded := hmatches.elim (hfolded other hother) id
      exact List.inj_on_of_nodup_map hmapped.folds hrow hother
        (hrowFolded.trans hotherFolded.symm)
    · rintro rfl
      exact ⟨hrow, Or.inr hrowFolded⟩
  · have hbound : row.IsBoundTo (bindingId digest provider) subject :=
      hown.elim id fun hfold => (hall row hrow).resolve_right fun hne => hne.2 hfold
    constructor
    · rintro ⟨hother, hmatches⟩
      have hotherBound := hmatches.elim id fun hfold =>
        (hall other hother).resolve_right fun hne => hne.1 hfold
      exact hmapped.unique row hrow other hother _ _ hbound hotherBound
    · rintro rfl
      exact ⟨hrow, Or.inl hbound⟩

theorem Mapped.has_of_bound (hmapped : Mapped u digest providers has rows)
    (hdigest : ∀ left ∈ providers, ∀ right ∈ providers, digest left = digest right → left = right)
    (hprovider : provider ∈ providers) (hrow : row ∈ rows)
    (hbound : row.IsBoundTo (bindingId digest provider) subject) : has provider := by
  rcases hmapped.binding row hrow with hunbound | ⟨own, hmem, ownSubject, hown, hhas, -⟩
  · exact absurd hbound (hunbound.not_isBoundTo _ _)
  · have hid := Option.some.inj (hbound.1.symm.trans hown.1)
    rw [hdigest _ hprovider _ hmem (bindingId_injective hid)]
    exact hhas

theorem Answered.mono {entry : Request × Except Raised (Option UserIdentityRow)}
    {later : List UserIdentityRow} (hanswered : Answered u digest rows entry)
    (hkept : ∀ row ∈ rows, ¬row.IsUnbound → row ∈ later) : Answered u digest later entry := by
  intro row hanswer
  obtain ⟨hrow, subject, hsubject, hbound⟩ := hanswered row hanswer
  refine ⟨hkept row hrow fun hunbound => ?_, subject, hsubject, hbound⟩
  exact hunbound.not_isBoundTo _ _ hbound

end Rows

variable {u : Unicode} {digest : String → String} (hlower : LowersText u) {providers : List String}
  {run : Logins} {request : Request}

include hlower

theorem Inv.call (hinv : Inv u digest providers run)
    (hdigest : ∀ left ∈ providers, ∀ right ∈ providers, digest left = digest right → left = right)
    (hprovider : request.provider u ∈ providers) (hmeets : MeetsCondition u digest run request) :
    Inv u digest providers ⟨run.journal ++
        [(request, (resolveIdentityContext u digest run.state request).1)],
      (resolveIdentityContext u digest run.state request).2⟩ := by
  obtain ⟨hmapped, hasked, hanswered⟩ := hinv
  obtain ⟨houtcome, hkeeps, hnew⟩ := @resolve_outcome u digest hlower run.state request hmapped.ids
    fun row hrow subject hbound => hmapped.has_of_bound hdigest hprovider hrow hbound
  generalize resolveIdentityContext u digest run.state request = result at houtcome hkeeps hnew ⊢
  obtain ⟨answer, next⟩ := result
  obtain ⟨rows, hrows⟩ : ∃ rows, next.identities = rows := ⟨_, rfl⟩
  suffices hnext : Mapped u digest providers (HasProvider digest next) rows ∧
      (∀ row ∈ run.state.identities, ¬row.IsUnbound → row ∈ rows) ∧
      Answered u digest rows (request, answer) by
    obtain ⟨hmappedNext, hkept, hlast⟩ := hnext
    subst hrows
    refine ⟨hmappedNext, List.forall_mem_append.mpr ⟨hasked, ?_⟩,
      List.forall_mem_append.mpr ⟨fun entry hentry => ?_, ?_⟩⟩
    · exact List.forall_mem_singleton.mpr hprovider
    · exact (hanswered entry hentry).mono hkept
    · exact List.forall_mem_singleton.mpr hlast
  have hstays := hmapped.mono hkeeps
  dsimp only at houtcome hkeeps hnew
  rw [hrows] at houtcome
  cases houtcome with
  | refused raised => exact ⟨hstays, fun row hrow _ => hrow, fun row heq => by cases heq⟩
  | anonymous hnone => exact ⟨hstays, fun row hrow _ => hrow, fun row heq => by cases heq⟩
  | again subject row hsubject hfound hbound =>
      refine ⟨hstays, fun row hrow _ => hrow, fun row' heq => ?_⟩
      cases heq
      exact ⟨((hfound row).mpr rfl).1, subject, hsubject, hbound⟩
  | created subject row hsubject hfresh hid hcolumns hbound hclash =>
      rw [sqlLower_provider hlower] at hcolumns
      have hnone : ∀ other ∈ run.state.identities,
          ¬other.IsBoundTo (bindingId digest (request.provider u)) subject ∧
            other.folded ≠ (request.provider u, sqlLower subject) := by
        intro other hother
        rw [← not_or]
        intro hown
        exact hfresh other hother ((hmapped.found hdigest hprovider
          (normalizeProvider_provider hlower request) (hmeets subject hsubject) hother hown
            other).mpr rfl).2
      refine ⟨hstays.append hprovider (hnew row rfl) hid hbound hcolumns hnone,
        fun row hrow _ => List.mem_append_left _ hrow, fun row' heq => ?_⟩
      cases heq
      exact ⟨List.mem_append_right _ (List.mem_singleton_self row), subject, hsubject, hbound⟩
  | bound subject row hsubject hfound hunbound =>
      obtain ⟨hrow, hmatches⟩ := (hfound row).mpr rfl
      have hfold := hmatches.resolve_left (hunbound.not_isBoundTo _ _)
      rw [normalizeProvider_provider hlower] at hfold
      have hfresh : ∀ other ∈ run.state.identities,
          ¬other.IsBoundTo (bindingId digest (request.provider u)) subject := by
        intro other hother hbound
        obtain rfl := (hfound other).mp ⟨hother, Or.inl hbound⟩
        exact hunbound.not_isBoundTo _ _ hbound
      refine ⟨hstays.replace hprovider (hnew _ rfl) hrow hfold hfresh,
        fun other hother hbound => ?_, fun row' heq => ?_⟩
      · exact (mem_replaced hmapped.ids hrow).mpr
          (Or.inr ⟨hother, fun heq => hbound (heq ▸ hunbound)⟩)
      · cases heq
        exact ⟨(mem_replaced hmapped.ids hrow).mpr (Or.inl rfl), subject, hsubject, rfl, rfl⟩

/-- A call that meets the condition takes part in a one-to-one mapping. -/
theorem Inv.stepMeets (hinv : Inv u digest providers run)
    (hdigest : ∀ left ∈ providers, ∀ right ∈ providers, digest left = digest right → left = right)
    (hprovider : request.provider u ∈ providers) (hmeets : MeetsCondition u digest run request) :
    StepMeets u digest run request := by
  have hmapped := hinv.mapped
  have hhas : ∀ row ∈ run.state.identities, ∀ subject,
      row.IsBoundTo (bindingId digest (request.provider u)) subject →
        HasProvider digest run.state (request.provider u) :=
    fun row hrow subject hbound => hmapped.has_of_bound hdigest hprovider hrow hbound
  have houtcome := (@resolve_outcome u digest hlower run.state request hmapped.ids hhas).1
  have hresolve : ∀ subject, request.externalUid = some subject →
      ∀ row ∈ run.state.identities,
        (row.IsBoundTo (bindingId digest (request.provider u)) subject ∨
          row.folded = (request.provider u, sqlLower subject)) →
        resolveUserIdentity u digest run.state.identities (request.provider u) subject =
          .ok (some row) := by
    intro subject hsubject row hrow hown
    apply (resolveUserIdentity_of_binding (binding_provider hlower request) hmapped.ids).mpr
    intro other
    rw [Option.some.injEq]
    exact hmapped.found hdigest hprovider (normalizeProvider_provider hlower request)
      (hmeets subject hsubject) hrow hown other
  constructor
  · intro entry hentry earlier row hearlier hanswer hid
    obtain ⟨hnext, -, hanswered⟩ := hinv.call hlower hdigest hprovider hmeets
    obtain ⟨hmemEarlier, own, hown, hboundEarlier⟩ :=
      hanswered entry (List.mem_append_left _ hentry) earlier hearlier
    obtain ⟨hmem, subject, hsubject, hbound⟩ :=
      hanswered _ (List.mem_append_right _ (List.mem_singleton_self _)) row hanswer
    obtain rfl := List.inj_on_of_nodup_map hnext.ids hmemEarlier hmem hid
    have hprovider' := Option.some.inj (hboundEarlier.1.symm.trans hbound.1)
    have hsubject' := Option.some.inj (hboundEarlier.2.symm.trans hbound.2)
    rw [Request.pair, Request.pair, hown, hsubject, hsubject',
      hdigest _ (hinv.asked entry hentry) _ hprovider (bindingId_injective hprovider')]
  · intro entry hentry row hanswer hpair huntrusted
    obtain ⟨hrow, subject, hown, hbound⟩ := hinv.answered entry hentry row hanswer
    obtain ⟨hsame, hsubject⟩ := Prod.mk.inj hpair
    rw [hsame] at hbound
    rw [hown] at hsubject
    exact resolve_again hlower huntrusted hsubject.symm
      (hresolve subject hsubject.symm row hrow (Or.inl hbound)) hbound
      (hhas row hrow subject hbound)
  · intro subject hsubject row hrow hcolumn hcolumn'
    have hown : row.folded = (request.provider u, sqlLower subject) := by
      rw [UserIdentityRow.folded, hcolumn, hcolumn', sqlLower_provider hlower]
    refine ⟨hresolve subject hsubject row hrow (Or.inr hown), ?_⟩
    generalize (resolveIdentityContext u digest run.state request).1 = answer at houtcome
    generalize (resolveIdentityContext u digest run.state request).2.identities = rows at houtcome ⊢
    cases houtcome with
    | refused raised => rfl
    | anonymous hnone => rfl
    | again => rfl
    | bound subject row hsubject hfound hunbound =>
        exact map_replaced hmapped.ids ((hfound row).mpr rfl).1 UserIdentityRow.id rfl
    | created own new hown' hfresh =>
        obtain rfl := Option.some.inj (hsubject.symm.trans hown')
        exact absurd ((hmapped.found hdigest hprovider
          (normalizeProvider_provider hlower request) (hmeets _ hsubject) hrow (Or.inr hown)
            row).mpr rfl).2 (hfresh row hrow)
  · intro statusCode code herror _
    generalize (resolveIdentityContext u digest run.state request).2.identities = rows at houtcome ⊢
    rw [herror] at houtcome
    cases houtcome
    rfl

end Invariant

/-- In every run from legacy rows whose subjects fold alike, no row is returned for two pairs, a
pair that got a row gets it again, a row with the columns of a pair is found, and a call that
is refused changes no row. -/
theorem identities_one_to_one (u : Unicode) (digest : String → String) (hlower : LowersText u)
    (start : Database) (requests : List Request)
    (hids : (start.identities.map UserIdentityRow.id).Nodup)
    (hlegacy : ∀ row ∈ start.identities, row.IsUnbound)
    (hdistinct : (start.identities.map UserIdentityRow.folded).Nodup)
    (hdigest : ∀ left ∈ requests, ∀ right ∈ requests,
      digest (left.provider u) = digest (right.provider u) → left.provider u = right.provider u)
    (hmeets : CallsMeet (serve u digest) start (MeetsCondition u digest) requests) :
    CallsMeet (serve u digest) start (StepMeets u digest) requests := by
  have hproviders : ∀ left ∈ requests.map (Request.provider u),
      ∀ right ∈ requests.map (Request.provider u), digest left = digest right → left = right := by
    intro left hleft right hright heq
    obtain ⟨first, hfirst, rfl⟩ := List.mem_map.mp hleft
    obtain ⟨second, hsecond, rfl⟩ := List.mem_map.mp hright
    exact hdigest first hfirst second hsecond heq
  have hasked : CallsMeet (serve u digest) start
      (fun _ request => request.provider u ∈ requests.map (Request.provider u)) requests := by
    rintro before request after hsplit
    refine List.mem_map_of_mem ?_
    rw [hsplit]
    exact List.mem_append_right _ List.mem_cons_self
  have hboth := callsMeet_and.mpr ⟨hmeets, hasked⟩
  refine CallsMeet.of_invariant (P := Inv u digest (requests.map (Request.provider u))) ?_ ?_ ?_
    hboth
  · refine ⟨⟨hids, hdistinct, fun row hrow => Or.inl (hlegacy row hrow), ?_⟩, by simp, by simp⟩
    intro row hrow other _ providerId subject hbound
    exact absurd hbound ((hlegacy row hrow).not_isBoundTo _ _)
  · intro run request answer next hinv hcall hserve
    obtain ⟨rfl, rfl⟩ := Prod.mk.inj (Except.ok.inj hserve)
    exact hinv.call hlower hproviders hcall.2 hcall.1
  · intro run request hinv hcall
    exact hinv.stepMeets hlower hproviders hcall.2 hcall.1

/-! ## A subject with an accent -/

namespace Accent

/-- `lower` on Latin-1. -/
def lower (c : Char) : Char :=
  if 0xC0 ≤ c.toNat ∧ c.toNat ≤ 0xDE ∧ c.toNat ≠ 0xD7 then .ofNat (c.toNat + 32) else c.toLower

theorem lower_spec (c : Char) : lower (lower c) = lower c ∧ (lower c).toLower = lower c ∧
    isPythonSpace (lower c) = isPythonSpace c := by
  have hlatin : ∀ n < 256, lower (lower (.ofNat n)) = lower (.ofNat n) ∧
      (lower (.ofNat n)).toLower = lower (.ofNat n) ∧
      isPythonSpace (lower (.ofNat n)) = isPythonSpace (.ofNat n) := by decide +kernel
  by_cases hlt : c.toNat < 256
  · have hc := hlatin c.toNat hlt
    rwa [Char.ofNat_toNat] at hc
  · have hself : c.toLower = c := by
      unfold Char.toLower
      rw [dif_neg]
      intro hcapital
      have hle : c.toNat ≤ 'Z'.toNat := hcapital.2
      exact hlt (hle.trans_lt (by decide))
    have hlower : lower c = c := by
      rw [lower, if_neg (by omega), hself]
    rw [hlower, hlower]
    exact ⟨rfl, hself, rfl⟩

def unicode : Unicode where
  lower text := .ofList (text.toList.map lower)
  upper text := .ofList (text.toList.map Char.toUpper)
  isPrintable c := decide (32 ≤ c.toNat)
  lower_ascii text hascii := by
    congr 1
    apply List.map_congr_left
    intro c hc
    have hlt := hascii c hc
    rw [lower, if_neg (by omega)]
  upper_ascii := Unicode.ascii.upper_ascii
  control_not_printable c hlt := decide_eq_false (by omega)

theorem strip_map (text : List Char) : strip (text.map lower) = (strip text).map lower := by
  have hspace : isPythonSpace ∘ lower = isPythonSpace := by
    funext c
    exact (lower_spec c).2.2
  rw [strip, List.dropWhile_map, hspace, ← List.map_reverse, List.dropWhile_map, hspace,
    ← List.map_reverse]
  rfl

theorem lowersText : LowersText unicode where
  lower_lower text := by
    have htext : (unicode.lower text).toList = text.toList.map lower := String.toList_ofList
    change String.ofList ((unicode.lower text).toList.map lower) = _
    rw [htext, List.map_map]
    exact congrArg String.ofList (List.map_congr_left fun c _ => (lower_spec c).1)
  strip_lower text := by
    have htext : unicode.lower (stripText text) = .ofList ((strip text.toList).map lower) := by
      change String.ofList ((stripText text).toList.map lower) = _
      rw [stripText, String.toList_ofList]
    rw [htext, stripText, String.toList_ofList, strip_map, strip_strip]
  sqlLower_lower text := by
    have htext : (unicode.lower text).toList = text.toList.map lower := String.toList_ofList
    rw [sqlLower, htext, List.map_map]
    exact congrArg String.ofList (List.map_congr_left fun c _ => (lower_spec c).2.1)

/-- A digest that knows the provider of the requests, and all others by the digest of no text. -/
def digest (provider : String) : String :=
  if provider = "header" then "1e0584a25d9f43bf5cbd0aec" else "e3b0c44298fc1c149afbf4c8"

def start : Database := ⟨[], .empty, []⟩

def login (subject userId : String) : Request where
  untrusted := none
  providerHeader := none
  subjectHeader := some subject
  userHeader := none
  allowJitProvisioning := true
  newUserId := userId

/-- A person logs in twice. -/
theorem logged_in_again : CallsMeet (serve unicode digest) start (StepMeets unicode digest)
    [login "É" "u1", login "É" "u2"] := by
  apply identities_one_to_one unicode digest lowersText start
  · exact List.nodup_nil
  · exact fun _ hrow => absurd hrow (List.not_mem_nil)
  · exact List.nodup_nil
  · decide +kernel
  · decide +kernel

def first : UserIdentityRow :=
  ⟨1, "u1", "header", "É", some "idp-legacy-1e0584a25d9f43bf5cbd0aec", some "É"⟩

/-- After another person has logged in, the first one is refused. -/
theorem locked_out :
    ¬∀ requests : List Request, CallsMeet (serve unicode digest) start (StepMeets unicode digest) requests := by
  intro hmeets
  have hstep := hmeets [login "É" "u1", login "é" "u2", login "É" "u3"]
    [login "É" "u1", login "é" "u2"] (login "É" "u3") [] rfl
  have hjournal : (login "É" "u1", .ok (some first)) ∈ (runCalls (serve unicode digest) start
      [login "É" "u1", login "é" "u2"]).journal := by decide +kernel
  have hagain := hstep.again _ hjournal first rfl rfl rfl
  exact absurd hagain (by decide +kernel)

end Accent

end KjAtlas.Identity
