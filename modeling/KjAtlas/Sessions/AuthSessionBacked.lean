import KjAtlas.Sessions.AuthSessionDead

/-! # Sessions that are found go back to a login -/

namespace KjAtlas.AuthSession

/-- The session is what its creation, a selection and a use have left in the journal. -/
structure Backed (journal : Journal) (key : String) (row : SaasAuthSessionRow) : Prop where
  created : ∃ before now request after,
    journal = before ++ (⟨now, .create request⟩, .created) :: after ∧
      request.sessionKeyHash = key ∧
      (row.principalId, row.issuer, row.subject, row.absoluteExpiresAt) =
        (request.principalId, request.issuer, request.subject, now + absoluteSessionLifetime) ∧
      (row.revokedAt = none → ∀ entry ∈ after, entry.1.operation ≠ .revoke key)
  tenant : ∃ entry ∈ journal,
    selects entry = some (key, row.activeTenantId, row.tenantSessionVersion)
  used : ∃ entry ∈ journal, Uses key entry ∧ entry.1.now = row.lastUsedAt

variable {journal : Journal} {entry : Call × Answer} {key : String} {row moved : SaasAuthSessionRow}

theorem backed_of_create {request : CreateAuthSession} {now : Int} :
    Backed (journal ++ [(⟨now, .create request⟩, .created)]) request.sessionKeyHash
      (request.row now) where
  created := ⟨journal, now, request, [], rfl, rfl, rfl, fun _ => by simp⟩
  tenant := ⟨_, List.mem_concat_self, rfl⟩
  used := ⟨_, List.mem_concat_self, Or.inl ⟨request, rfl, rfl⟩, rfl⟩

theorem Backed.concat (hbacked : Backed journal key row)
    (hkeeps : Keeps entry.1 entry.2 key row moved) : Backed (journal ++ [entry]) key moved where
  created := by
    obtain ⟨before, now, request, after, rfl, hkey, hlogin, hafter⟩ := hbacked.created
    refine ⟨before, now, request, after ++ [entry], by simp, hkey, hkeeps.login.trans hlogin, ?_⟩
    intro hnone other hother
    obtain ⟨hrow, hrevoke⟩ := hkeeps.unrevoked hnone
    rcases mem_snoc.mp hother with hother | rfl
    · exact hafter hrow other hother
    · exact hrevoke
  tenant := by
    obtain ⟨other, hother, hselects⟩ := hbacked.tenant
    rcases hkeeps.tenant with heq | hnew
    · obtain ⟨htenant, hversion⟩ := Prod.mk.inj heq
      rw [htenant, hversion]
      exact ⟨other, List.mem_append_left _ hother, hselects⟩
    · exact ⟨entry, List.mem_concat_self, hnew⟩
  used := by
    obtain ⟨other, hother, huses⟩ := hbacked.used
    rcases hkeeps.used with heq | hnew
    · exact ⟨other, List.mem_append_left _ hother, heq ▸ huses⟩
    · exact ⟨entry, List.mem_concat_self, hnew⟩

/-- A resolve returns a session that is not over and that the journal backs. -/
def ResolvesBacked (run : Run Table Call Answer) (call : Call) : Prop :=
  ∀ key session next, call.operation = .resolve key →
    run.state.serve call = .ok (.resolved (some session), next) →
    ∃ row, session = row.resolved ∧ ¬row.IsOver call.now ∧ Backed run.journal key row

/-- Every session that a resolve returns was created less than twelve hours before, by a login of
the same subject, was used less than an hour before, and was not revoked since its creation. -/
theorem resolved_sessions_are_backed (tenants : List String) (calls : List Call) :
    CallsMeet Table.serve ⟨tenants, []⟩ ResolvesBacked calls := by
  rintro before ⟨now, operation⟩ after - key session next hoperation hok
  have hbacked : ∀ key row, (AuthSession.run tenants before).state.find key = some row →
      Backed (AuthSession.run tenants before).journal key row := by
    refine runCalls_induction (P := fun run : Run Table Call Answer =>
      ∀ key row, run.state.find key = some row → Backed run.journal key row) ?_ ?_ before
    · rintro key row ⟨⟩
    · rintro run ⟨now, operation⟩ answer next hrun hok key moved hmoved
      rcases find_before hok hmoved with ⟨request, rfl, rfl, rfl, rfl⟩ | ⟨row, hrow, hkeeps⟩
      · exact backed_of_create
      · exact (hrun key row hrow).concat hkeeps
  change operation = _ at hoperation
  subst hoperation
  rcases serve_resolve hok with ⟨hanswer, -⟩ | ⟨row, hrow, hlive, hanswer, -⟩
  · cases hanswer
  · obtain rfl := Option.some.inj (Answer.resolved.inj hanswer)
    exact ⟨row, rfl, hlive, hbacked key row hrow⟩

end KjAtlas.AuthSession
