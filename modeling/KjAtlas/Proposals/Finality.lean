import KjAtlas.Proposals.Decision

/-! # Finality of decisions

The state of a proposal moves from absent to any status, and from held to a
terminal one. Every change counts one version, a terminal decision leaves one
event, and an idempotency key stands for the arguments it was first used with.
-/

namespace KjAtlas.Proposal

def status? (key : ProposalKey) (t : Tables) : Option Status :=
  (t.state? key).map AIProposalDecisionStateRow.status

def version (key : ProposalKey) (t : Tables) : Nat :=
  ((t.state? key).map AIProposalDecisionStateRow.version).getD 0

def terminalEvents (key : ProposalKey) (t : Tables) : List AIProposalDecisionEventRow :=
  t.events.filter fun event => event.key = key && event.decision ≠ .held

/-- How the status of a proposal may move. -/
inductive Moves : Option Status → Option Status → Prop where
  | stay (status : Option Status) : Moves status status
  | first (status : Status) : Moves none (some status)
  | settle (status : Status) (hstatus : status ≠ .held) : Moves (some .held) (some status)

/-! ## One step -/

section Lookups

variable (t : Tables) (state : AIProposalDecisionStateRow) (event : AIProposalDecisionEventRow)

@[simp] theorem state?_putState (key : ProposalKey) :
    (t.putState state).state? key = if state.key = key then some state else t.state? key :=
  findBy_upsertBy _ _ _ _

@[simp] theorem state?_addEvent (key : ProposalKey) :
    (t.addEvent event).state? key = t.state? key := rfl

@[simp] theorem events_putState : (t.putState state).events = t.events := rfl

@[simp] theorem events_addEvent : (t.addEvent event).events = t.events ++ [event] := rfl

end Lookups

/-- The state row that a change writes over the row that was there. -/
inductive Advances (key : ProposalKey) :
    Option AIProposalDecisionStateRow → AIProposalDecisionStateRow → Prop where
  | first (state : AIProposalDecisionStateRow) (hkey : state.key = key)
      (hversion : state.version = 1) : Advances key none state
  | settle (old state : AIProposalDecisionStateRow) (hkey : state.key = key)
      (hversion : state.version = old.version + 1) (hheld : old.status = .held)
      (hstatus : state.status ≠ .held) : Advances key (some old) state

/-- The proposal that a decision is about is registered with its origin and source bundle. -/
def Decision.Registered (decision : Decision) (t : Tables) : Prop :=
  ∃ proposal, t.proposal? decision.key = some proposal ∧
    proposal.origin = decision.expectedOrigin ∧
    proposal.sourceBundleHash = decision.sourceBundleHash

/-- The event that a decision has left under its idempotency key. -/
def Decision.LeftEvent (sha256 : ByteArray → String) (decision : Decision) (t : Tables)
    (event : AIProposalDecisionEventRow) : Prop :=
  t.event? decision.scope = some event ∧ ∃ status,
    decisionStatus decision.decision = some status ∧ event.Records sha256 decision status

/-- What a successful call does to the tables. -/
inductive Change (sha256 : ByteArray → String) (t : Tables) : Call → Receipt → Tables → Prop where
  | replayed (decision : Decision) (now uuid : String) (event : AIProposalDecisionEventRow)
      (hregistered : decision.Registered t) (hevent : decision.LeftEvent sha256 t event) :
      Change sha256 t (.record decision now uuid) (.decision event.receipt) t
  | recorded (decision : Decision) (now uuid : String) (state : AIProposalDecisionStateRow)
      (event : AIProposalDecisionEventRow) (hregistered : decision.Registered t)
      (hstate : Advances decision.key (t.state? decision.key) state)
      (hnew : t.event? decision.scope = none) (hscope : event.scope = decision.scope)
      (hkey : event.key = decision.key) (hdecision : event.decision = state.status)
      (hstatus : decisionStatus decision.decision = some state.status)
      (hrecords : event.Records sha256 decision state.status) :
      Change sha256 t (.record decision now uuid) (.decision event.receipt)
        ((t.putState state).addEvent event)
  | stillHeld (hold : SystemHold) (now : String) (receipt : ProposalSystemHoldReceipt) :
      Change sha256 t (.systemHold hold now) (.systemHold receipt) t
  | held (hold : SystemHold) (now : String) (receipt : ProposalSystemHoldReceipt)
      (state : AIProposalDecisionStateRow)
      (hstate : Advances hold.key (t.state? hold.key) state) :
      Change sha256 t (.systemHold hold now) (.systemHold receipt) (t.putState state)

variable {decision : Decision} {status : Status} {first : ProposalDecisionReceipt}
  {old : Option AIProposalDecisionStateRow}

theorem decidedState_eq_ok {now : String} {state : AIProposalDecisionStateRow}
    (hold : ∀ row ∈ old, row.key = decision.key)
    (hok : decidedState decision status now old = .ok state) :
    Advances decision.key old state ∧ state.status = status := by
  cases old with
  | none =>
      cases hok
      exact ⟨.first _ rfl rfl, rfl⟩
  | some old =>
      simp only [decidedState, bind_eq_ok, ensure_eq_ok, pure_eq_ok] at hok
      obtain ⟨-, -, -, hheld, -, hstatus, rfl⟩ := hok
      exact ⟨.settle old _ (hold old rfl) rfl hheld hstatus, rfl⟩

theorem recordProposalDecision_eq_ok {sha256 : ByteArray → String} {now uuid : String}
    {t next : Tables} {receipt : ProposalDecisionReceipt}
    (hok : recordProposalDecision sha256 decision now uuid t = .ok (receipt, next)) :
    Change sha256 t (.record decision now uuid) (.decision receipt) next := by
  simp only [recordProposalDecision, bind_eq_ok, found_eq_ok, ensure_eq_ok] at hok
  obtain ⟨status, hstatus, proposal, hproposal, -, horigin, -, hbundle, hok⟩ := hok
  have hregistered : decision.Registered t := ⟨proposal, hproposal, horigin, hbundle⟩
  split at hok
  next existing hexisting =>
    simp only [bind_eq_ok, ensure_eq_ok, pure_eq_ok, Prod.mk.injEq] at hok
    obtain ⟨-, hrecords, rfl, rfl⟩ := hok
    exact .replayed decision now uuid existing hregistered ⟨hexisting, status, hstatus, hrecords⟩
  next hnone =>
    simp only [bind_eq_ok, ensure_eq_ok, pure_eq_ok, Prod.mk.injEq] at hok
    obtain ⟨state, hdecided, -, -, rfl, rfl⟩ := hok
    obtain ⟨hadvances, rfl⟩ := decidedState_eq_ok (fun row hrow => (findBy_eq_some _ hrow).2)
      hdecided
    exact .recorded decision now uuid state _ hregistered hadvances hnone rfl rfl rfl hstatus
      ⟨rfl, rfl, rfl, rfl, rfl, rfl⟩

theorem serve_change {sha256 : ByteArray → String} {t next : Tables} {call : Call}
    {receipt : Receipt} (hok : serve sha256 t call = .ok (receipt, next)) :
    Change sha256 t call receipt next := by
  cases call with
  | record decision now uuid =>
      simp only [serve, bind_eq_ok, Prod.exists, pure_eq_ok,
        Prod.mk.injEq] at hok
      obtain ⟨_, _, hrecord, rfl, rfl⟩ := hok
      exact recordProposalDecision_eq_ok hrecord
  | systemHold hold now =>
      simp only [serve, bind_eq_ok, Prod.exists, pure_eq_ok,
        Prod.mk.injEq] at hok
      obtain ⟨_, _, hhold, rfl, rfl⟩ := hok
      simp only [holdExternalProposalForFinalJudgementFailure, bind_eq_ok] at hhold
      obtain ⟨proposal, -, hhold⟩ := hhold
      split at hhold
      next state hstate =>
        simp only [bind_eq_ok, ensure_eq_ok, pure_eq_ok,
          Prod.mk.injEq] at hhold
        obtain ⟨-, -, rfl, rfl⟩ := hhold
        exact .stillHeld hold now _
      next hnone =>
        cases hhold
        refine .held hold now _ _ ?_
        rw [hnone]
        exact .first _ rfl rfl

/-! ## The state of a proposal -/

section Step

variable {sha256 : ByteArray → String} {t next : Tables} {call : Call} {receipt : Receipt}
  {key : ProposalKey} {state : AIProposalDecisionStateRow}

theorem moves_of_advances (hadvances : Advances key old state) :
    Moves (old.map AIProposalDecisionStateRow.status) (some state.status) ∧
      state.key = key ∧
      state.version = (old.map AIProposalDecisionStateRow.version).getD 0 + 1 ∧
      old.map AIProposalDecisionStateRow.status ≠ some state.status := by
  cases hadvances with
  | first _ hkey hversion => exact ⟨.first _, hkey, hversion, nofun⟩
  | settle old _ hkey hversion hheld hstatus =>
      refine ⟨?_, hkey, hversion, ?_⟩
      · rw [Option.map_some, hheld]
        exact .settle _ hstatus
      · rw [Option.map_some, hheld, ne_eq, Option.some.injEq]
        exact Ne.symm hstatus

theorem step_putState {other : ProposalKey} (hadvances : Advances key (t.state? key) state) :
    Moves (status? other t) (status? other (t.putState state)) ∧
      version other (t.putState state) =
        version other t +
          if status? other t = status? other (t.putState state) then 0 else 1 := by
  obtain ⟨hmoves, hkey, hversion, hne⟩ := moves_of_advances hadvances
  unfold status? version
  rw [state?_putState]
  by_cases hsame : state.key = other
  · rw [hkey] at hsame
    subst hsame
    rw [if_pos hkey, Option.map_some, Option.map_some, if_neg hne]
    exact ⟨hmoves, hversion⟩
  · rw [if_neg hsame, if_pos rfl]
    exact ⟨.stay _, rfl⟩

theorem moves_and_counts (key : ProposalKey) (hok : serve sha256 t call = .ok (receipt, next)) :
    Moves (status? key t) (status? key next) ∧
      version key next =
        version key t + if status? key t = status? key next then 0 else 1 := by
  cases serve_change hok with
  | replayed => exact ⟨.stay _, by rw [if_pos rfl, Nat.add_zero]⟩
  | recorded decision now uuid state event _ hstate => exact step_putState hstate
  | stillHeld => exact ⟨.stay _, by rw [if_pos rfl, Nat.add_zero]⟩
  | held hold now receipt state hstate => exact step_putState hstate

theorem Moves.terminal {before after : Option Status} (hmoves : Moves before after)
    (hbefore : before = some status) (hterminal : status ≠ .held) : after = some status := by
  cases hmoves with
  | stay => exact hbefore
  | first => nomatch hbefore
  | settle =>
      rw [Option.some.injEq] at hbefore
      exact absurd hbefore.symm hterminal

/-- At most one event accepts or rejects a proposal, and only when its state is terminal. -/
structure OneTerminalEvent (key : ProposalKey) (t : Tables) : Prop where
  atMostOne : (terminalEvents key t).length ≤ 1
  state : terminalEvents key t ≠ [] → ∃ status, status? key t = some status ∧ status ≠ .held

theorem OneTerminalEvent.step (hone : OneTerminalEvent key t)
    (hok : serve sha256 t call = .ok (receipt, next)) : OneTerminalEvent key next := by
  have hmoves := (moves_and_counts key hok).1
  have hkeep : ∀ {after : Tables}, Moves (status? key t) (status? key after) →
      terminalEvents key after = terminalEvents key t → OneTerminalEvent key after := by
    intro after hmoves hevents
    refine ⟨hevents ▸ hone.atMostOne, ?_⟩
    intro hne
    obtain ⟨status, hstatus, hterminal⟩ := hone.state (hevents ▸ hne)
    exact ⟨status, hmoves.terminal hstatus hterminal, hterminal⟩
  cases serve_change hok with
  | replayed => exact hone
  | stillHeld => exact hone
  | held hold now receipt state hstate => exact hkeep hmoves rfl
  | recorded decision now uuid state event _ hstate _ _ hkey hdecision _ _ =>
      have happend : terminalEvents key ((t.putState state).addEvent event) =
          terminalEvents key t ++
            if event.key = key ∧ event.decision ≠ .held then [event] else [] := by
        simp only [terminalEvents, events_addEvent, events_putState, List.filter_append]
        by_cases htest : event.key = key ∧ event.decision ≠ .held <;> simp [htest]
      by_cases htest : event.key = key ∧ event.decision ≠ .held
      · obtain ⟨rfl, hterminal⟩ := htest
        rw [hkey] at hone happend ⊢
        obtain ⟨hmoved, hstateKey, -, hchanged⟩ := moves_of_advances hstate
        -- a state that moves was not terminal, so no event was
        have hempty : terminalEvents decision.key t = [] := by
          by_contra hne
          obtain ⟨status, hstatus, hnotHeld⟩ := hone.state hne
          exact hchanged (hstatus.trans (hmoved.terminal hstatus hnotHeld).symm)
        rw [hempty, if_pos ⟨rfl, hterminal⟩, List.nil_append] at happend
        refine ⟨by rw [happend]; exact Nat.le_refl 1, fun _ => ⟨state.status, ?_, ?_⟩⟩
        · rw [status?, state?_addEvent, state?_putState, if_pos hstateKey, Option.map_some]
        · rwa [← hdecision]
      · rw [if_neg htest, List.append_nil] at happend
        exact hkeep hmoves happend

end Step

/-! ## Idempotency keys -/

theorem event?_addEvent (t : Tables) (event : AIProposalDecisionEventRow)
    (scope : String × String × String) :
    (t.addEvent event).event? scope =
      (t.event? scope).or (if event.scope = scope then some event else none) := by
  unfold Tables.event? findBy
  rw [events_addEvent, List.find?_append]
  by_cases hscope : event.scope = scope
  · simp [hscope]
  · simp [hscope]

/-- The key of a decision that was recorded stands for its arguments and its receipt. -/
def Settled (sha256 : ByteArray → String) (t : Tables) (decision : Decision)
    (receipt : ProposalDecisionReceipt) : Prop :=
  decision.Registered t ∧ ∃ event, decision.LeftEvent sha256 t event ∧ event.receipt = receipt

section Keys

variable {sha256 : ByteArray → String} {t next : Tables} {call : Call} {receipt : Receipt}

theorem Settled.step (hsettled : Settled sha256 t decision first)
    (hok : serve sha256 t call = .ok (receipt, next)) : Settled sha256 next decision first := by
  cases serve_change hok with
  | replayed => exact hsettled
  | stillHeld => exact hsettled
  | held => exact hsettled
  | recorded other now uuid state event =>
      obtain ⟨hregistered, kept, ⟨hkept, hrest⟩, hreceipt⟩ := hsettled
      refine ⟨hregistered, kept, ⟨?_, hrest⟩, hreceipt⟩
      rw [event?_addEvent]
      have hbefore : (t.putState state).event? decision.scope = some kept := hkept
      rw [hbefore, Option.some_or]

theorem settled_of_record {now uuid : String}
    (hok : serve sha256 t (.record decision now uuid) = .ok (.decision first, next)) :
    Settled sha256 next decision first := by
  cases serve_change hok with
  | replayed _ _ _ event hregistered hevent => exact ⟨hregistered, event, hevent, rfl⟩
  | recorded _ _ _ state event hregistered _ hnew hscope _ _ hstatus hrecords =>
      refine ⟨hregistered, event, ⟨?_, state.status, hstatus, hrecords⟩, rfl⟩
      rw [event?_addEvent]
      have hbefore : (t.putState state).event? decision.scope = none := hnew
      rw [hbefore, Option.none_or, if_pos hscope]

/-- The same arguments again give the first receipt and change nothing. -/
theorem Settled.replay (hsettled : Settled sha256 t decision first) (now uuid : String) :
    serve sha256 t (.record decision now uuid) = .ok (.decision first, t) := by
  obtain ⟨⟨proposal, hproposal, horigin, hbundle⟩, event, ⟨hevent, status, hstatus, hrecords⟩,
    rfl⟩ := hsettled
  simp [serve, recordProposalDecision, found, ensure, hstatus, hproposal, horigin, hbundle, hevent,
    hrecords, bind, Except.bind, pure, Except.pure]

theorem decisionStatus_inj {left right : String} (hleft : decisionStatus left = some status)
    (hright : decisionStatus right = some status) : left = right := by
  unfold decisionStatus at hleft hright
  split at hleft <;> cases hleft <;> split at hright <;> first | rfl | nomatch hright

theorem reason_eq {left right : Option String}
    (hsha : sha256 (reasonBytes left) = sha256 (reasonBytes right) →
      reasonBytes left = reasonBytes right)
    (hdigest : reasonDigest sha256 left = reasonDigest sha256 right) : left = right := by
  cases left with
  | none =>
      cases right with
      | none => rfl
      | some right => nomatch hdigest
  | some left =>
      cases right with
      | none => nomatch hdigest
      | some right =>
          simp only [reasonDigest, Option.map_some, Option.some.injEq] at hdigest
          have hbytes := hsha hdigest
          simp only [reasonBytes, Option.getD_some] at hbytes
          rw [String.toByteArray_inj.mp hbytes]

/-- Other arguments under the same key fail. -/
theorem Settled.reuse {other : Decision} (hsettled : Settled sha256 t decision first)
    (hscope : other.scope = decision.scope) (hne : other ≠ decision)
    (hsha : sha256 (reasonBytes decision.reason) = sha256 (reasonBytes other.reason) →
      reasonBytes decision.reason = reasonBytes other.reason) (now uuid : String) :
    ∃ raised, serve sha256 t (.record other now uuid) = .error raised := by
  cases hserve : serve sha256 t (.record other now uuid) with
  | error raised => exact ⟨raised, rfl⟩
  | ok pair =>
      exfalso
      obtain ⟨answer, after⟩ := pair
      obtain ⟨⟨proposal, hproposal, horigin, hbundle⟩, event, ⟨hevent, status, hstatus, hrecords⟩,
        -⟩ := hsettled
      simp only [Decision.scope, Prod.mk.injEq] at hscope
      obtain ⟨htenant, hdoc, hkey⟩ := hscope
      cases serve_change hserve with
      | recorded _ _ _ state event' _ _ hnew =>
          rw [Decision.scope, htenant, hdoc, hkey, ← Decision.scope, hevent] at hnew
          nomatch hnew
      | replayed _ _ _ event' hregistered hleft =>
          obtain ⟨proposal', hproposal', horigin', -⟩ := hregistered
          obtain ⟨hevent', status', hstatus', hrecords'⟩ := hleft
          rw [Decision.scope, htenant, hdoc, hkey, ← Decision.scope, hevent,
            Option.some.injEq] at hevent'
          subst hevent'
          obtain ⟨hid, hhash, hdecided, hreviewer, hdigest, -⟩ := hrecords
          obtain ⟨hid', hhash', hdecided', hreviewer', hdigest', -⟩ := hrecords'
          have hproposalId : other.proposalId = decision.proposalId := hid'.symm.trans hid
          have hsame : other.key = decision.key := by
            rw [Decision.key, Decision.key, htenant, hdoc, hproposalId]
          rw [hsame, hproposal, Option.some.injEq] at hproposal'
          rw [← hproposal', horigin] at horigin'
          rw [← hdecided', hdecided] at hstatus'
          have hreason := reason_eq hsha (hdigest.symm.trans hdigest')
          apply hne
          cases other
          cases decision
          simp only [Decision.mk.injEq]
          exact ⟨htenant, hdoc, hproposalId, hhash'.symm.trans hhash, hkey,
            decisionStatus_inj hstatus' hstatus, hreviewer'.symm.trans hreviewer, hreason.symm,
            horigin'.symm⟩

end Keys

/-! ## Whole runs -/

/-- The tables with the registered proposals, before any decision. -/
def Tables.start (proposals : List AIProposalRow) : Tables :=
  { proposals, states := [], events := [] }

def decide (sha256 : ByteArray → String) (proposals : List AIProposalRow) (calls : List Call) :
    Run Tables Call Receipt :=
  runCalls (serve sha256) (.start proposals) calls

def decisions (calls : List Call) : List Decision :=
  calls.filterMap fun
    | .record decision _ _ => some decision
    | .systemHold _ _ => none

/-- No two different reasons of the decisions have one digest. -/
def CollisionFree (sha256 : ByteArray → String) (decisions : List Decision) : Prop :=
  ∀ left ∈ decisions, ∀ right ∈ decisions,
    sha256 (reasonBytes left.reason) = sha256 (reasonBytes right.reason) →
      reasonBytes left.reason = reasonBytes right.reason

section Runs

variable (sha256 : ByteArray → String) (proposals : List AIProposalRow) (calls : List Call)

theorem oneTerminalEvent (key : ProposalKey) :
    OneTerminalEvent key (decide sha256 proposals calls).state := by
  have hstart : OneTerminalEvent key (.start proposals) :=
    ⟨Nat.zero_le 1, fun hne => absurd rfl hne⟩
  exact runCalls_invariant hstart (fun _ _ _ _ hone hok => hone.step hok) calls

theorem settled_of_journal {now uuid : String}
    (hentry : (.record decision now uuid, .decision first) ∈
      (decide sha256 proposals calls).journal) :
    Settled sha256 (decide sha256 proposals calls).state decision first := by
  revert hentry
  refine runCalls_induction (P := fun run =>
    (Call.record decision now uuid, Receipt.decision first) ∈ run.journal →
      Settled sha256 run.state decision first) nofun ?_ calls
  intro run call answer next hrun hok hentry
  rcases mem_snoc.mp hentry with hold | hnew
  · exact (hrun hold).step hok
  · obtain ⟨rfl, rfl⟩ := Prod.mk.inj hnew
    exact settled_of_record hok

/-- In every run, the status of a proposal only moves from absent to a status and from held to a
terminal one, and a terminal status stays; at most one event is terminal; the version counts the
changes; the same arguments under a used key give the first receipt again and other arguments
fail, both without a change; a system hold adds no event. -/
theorem decisions_final_and_once (reuse : Decision)
    (hsha : CollisionFree sha256 (reuse :: decisions calls)) :
    let run := decide sha256 proposals calls
    let visited := Run.visited (serve sha256) ⟨[], .start proposals⟩ calls
    (∀ key,
      (visited.map (status? key)).IsChain Moves ∧
      (∀ status, status? key run.state = some status → status ≠ .held → ∀ later,
        status? key (decide sha256 proposals (calls ++ later)).state = some status) ∧
      (terminalEvents key run.state).length ≤ 1 ∧
      version key run.state = countChanges (status? key) visited) ∧
    (∀ decision now uuid first,
      (.record decision now uuid, .decision first) ∈ run.journal → ∀ now' uuid',
        serve sha256 run.state (.record decision now' uuid') = .ok (.decision first, run.state) ∧
        (reuse.scope = decision.scope → reuse ≠ decision →
          (∃ raised, serve sha256 run.state (.record reuse now' uuid') = .error raised) ∧
          run.call (serve sha256) (.record reuse now' uuid') = run)) ∧
    (∀ hold now receipt next, serve sha256 run.state (.systemHold hold now) = .ok (receipt, next) →
      next.events = run.state.events) := by
  intro run visited
  refine ⟨fun key => ⟨?_, ?_, (oneTerminalEvent sha256 proposals calls key).atMostOne, ?_⟩, ?_, ?_⟩
  · rw [List.isChain_map]
    exact Run.isChain_visited (R := fun before after => Moves (status? key before)
      (status? key after)) (fun _ => .stay _) (fun _ _ _ _ hok => (moves_and_counts key hok).1) _ _
  · intro status hstatus hterminal later
    exact runCalls_later (R := fun before after => status? key before = some status →
      status? key after = some status) (fun _ => id) (fun _ _ _ hab hbc h => hbc (hab h))
      (fun _ _ _ _ hok h => (moves_and_counts key hok).1.terminal h hterminal) _ calls later hstatus
  · have hstep : ∀ t call receipt next, serve sha256 t call = .ok (receipt, next) →
        version key next =
          version key t + if status? key t = status? key next then 0 else 1 :=
      fun _ _ _ _ hok => (moves_and_counts key hok).2
    have hcounts := Run.counts_changes (status? key) (version key) hstep
      ⟨[], .start proposals⟩ calls
    exact hcounts.trans (Nat.zero_add _)
  · intro decision now uuid first hentry now' uuid'
    have hsettled := settled_of_journal sha256 proposals calls hentry
    refine ⟨hsettled.replay now' uuid', fun hscope hne => ?_⟩
    have hcall : Call.record decision now uuid ∈ calls :=
      (journal_sublist _ calls).subset (List.mem_map_of_mem hentry)
    have hdecision : decision ∈ decisions calls := List.mem_filterMap.mpr ⟨_, hcall, rfl⟩
    have hfails := hsettled.reuse hscope hne
      (hsha decision (List.mem_cons_of_mem _ hdecision) reuse List.mem_cons_self) now' uuid'
    obtain ⟨raised, hraised⟩ := hfails
    exact ⟨⟨raised, hraised⟩, Run.call_of_error hraised⟩
  · intro hold now receipt next hok
    cases serve_change hok with
    | stillHeld => rfl
    | held => rfl

end Runs

/-! ## A reused key -/

namespace Reused

/-- The digests of the two reasons below. -/
def sha256 (bytes : ByteArray) : String :=
  if bytes.isEmpty then "e3b0c44298fc1c149afbf4c8996fb92427ae41e4649b934ca495991b7852b855"
  else "38cb8dd843399c196b059ef16e8e97b4cfb5dc140832284f2bc5181f81a64107"

def proposal : AIProposalRow where
  tenantId := "tenant-a"
  docId := "doc-a"
  proposalId := "proposal-1"
  proposalKind := "cluster"
  sourceBundleHash := "38cb8dd843399c196b059ef16e8e97b4cfb5dc140832284f2bc5181f81a64107"
  origin := .internal
  provenanceLevel := none

def adopted : Decision where
  tenantId := "tenant-a"
  docId := "doc-a"
  proposalId := "proposal-1"
  sourceBundleHash := proposal.sourceBundleHash
  idempotencyKey := "key-1"
  decision := "adopt"
  reviewerRef := "reviewer-1"
  reason := none
  expectedOrigin := .internal

/-- The same key with another reason. -/
def reused : Decision := { adopted with reason := some "too late" }

def calls : List Call := [.record adopted "2026-09-06T12:00:00+00:00" "1"]

theorem reused_collisionFree : CollisionFree sha256 (reused :: decisions calls) := by
  unfold CollisionFree
  decide +kernel

/-- A used key fails with another reason. -/
theorem reused_key_fails : ∃ raised,
    serve sha256 (decide sha256 [proposal] calls).state
      (.record reused "2026-09-06T12:05:00+00:00" "2") = .error raised := by
  have hentry : (.record adopted "2026-09-06T12:00:00+00:00" "1", .decision {
      eventId := "proposal-decision-1"
      proposalId := "proposal-1"
      status := .accepted
      recordedAt := "2026-09-06T12:00:00+00:00" }) ∈ (decide sha256 [proposal] calls).journal := by
    decide +kernel
  exact (((decisions_final_and_once sha256 [proposal] calls reused reused_collisionFree).2.1 adopted
    _ _ _ hentry _ _).2 rfl (by decide +kernel)).1

end Reused

end KjAtlas.Proposal
