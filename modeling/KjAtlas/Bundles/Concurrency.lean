import KjAtlas.Bundles.Store

/-! # Concurrent writes of inquiry bundles

A revision is a counter in the row of a bundle, and a bundle that is created
again counts from one again. Exactly as long as no write presents an ETag that
was issued before the last creation and names the revision at present, a write
replaces the content that came with its ETag, and an ETag is used up by the first
write that is accepted.
-/

namespace KjAtlas.Bundles

open Js (Text)

/-! ## ETags are read back -/

variable {digits : Text} {key : JourneyKey} {row : InquiryBundleRow} {server next : Server}
  {write : CasWrite} {run : BundleRun} {call : Call}

theorem readDigits_of_digits (hdigits : ∀ c ∈ digits, c.isDigit = true) {afterDigit : Bool}
    {value : Nat} (hne : digits ≠ [] ∨ afterDigit = true) :
    readDigits afterDigit value digits = some (Nat.ofDigitChars 10 digits value) := by
  induction digits generalizing afterDigit value with
  | nil =>
      obtain rfl := hne.resolve_left (by simp)
      simp [readDigits, Nat.ofDigitChars_nil]
  | cons c digits ih =>
      rw [readDigits, if_pos (hdigits c List.mem_cons_self),
        ih (fun d hd => hdigits d (List.mem_cons_of_mem c hd)) (Or.inr rfl),
        Nat.ofDigitChars_cons]
      rfl

/-- Characters of which none is a space are left by `strip`. -/
theorem strip_of_no_space {chars : Text} (hspace : ∀ c ∈ chars, isPythonSpace c = false) :
    strip chars = chars := by
  have hdrop : ∀ chars : Text, (∀ c ∈ chars, isPythonSpace c = false) →
      chars.dropWhile isPythonSpace = chars := by
    intro chars hspace
    cases chars with
    | nil => rfl
    | cons c rest => rw [List.dropWhile_cons_of_neg (by simp [hspace c List.mem_cons_self])]
  rw [strip, hdrop _ hspace, hdrop _ (fun c hc => hspace c (List.mem_reverse.mp hc)),
    List.reverse_reverse]

theorem isDigit_spec {c : Char} (hc : c.isDigit = true) :
    isPythonSpace c = false ∧ c ≠ ',' ∧ c ≠ '-' ∧ c ≠ '+' := by
  have hrange : 48 ≤ c.toNat ∧ c.toNat ≤ 57 := by
    simp only [Char.isDigit, Bool.and_eq_true, decide_eq_true_eq, ge_iff_le,
      UInt32.le_iff_toNat_le] at hc
    exact hc
  have hspecial : ∀ n < 58, 48 ≤ n → isPythonSpace (Char.ofNat n) = false ∧ Char.ofNat n ≠ ',' ∧
      Char.ofNat n ≠ '-' ∧ Char.ofNat n ≠ '+' := by decide
  have h := hspecial c.toNat (by omega) hrange.1
  rwa [Char.ofNat_toNat] at h

theorem int?_digits (hdigits : ∀ c ∈ digits, c.isDigit = true) (hne : digits ≠ []) :
    int? digits = some (Nat.ofDigitChars 10 digits 0 : Int) := by
  have hread : readDigits false 0 digits = some (Nat.ofDigitChars 10 digits 0) :=
    readDigits_of_digits hdigits (Or.inl hne)
  rw [int?, strip_of_no_space fun c hc => (isDigit_spec (hdigits c hc)).1]
  split
  next rest => exact absurd rfl (isDigit_spec (hdigits '-' List.mem_cons_self)).2.2.1
  next rest => exact absurd rfl (isDigit_spec (hdigits '+' List.mem_cons_self)).2.2.2
  next => rw [hread]; rfl

/-- The header with an ETag has one part, the digits of its revision. -/
theorem parseIfMatch_digits (hdigits : ∀ c ∈ digits, c.isDigit = true) (hne : digits ≠ []) :
    parseIfMatch (.ofList ('"' :: (digits ++ ['"']))) = [digits] := by
  have hcomma : ∀ c ∈ '"' :: (digits ++ ['"']), (c == ',') = false := by
    intro c hc
    simp only [List.mem_cons, List.mem_append, List.not_mem_nil, or_false] at hc
    rcases hc with rfl | hc | rfl
    · rfl
    · simpa using (isDigit_spec (hdigits c hc)).2.1
    · rfl
  have hspace : ∀ c ∈ '"' :: (digits ++ ['"']), isPythonSpace c = false := by
    intro c hc
    simp only [List.mem_cons, List.mem_append, List.not_mem_nil, or_false] at hc
    rcases hc with rfl | hc | rfl
    · decide
    · exact (isDigit_spec (hdigits c hc)).1
    · decide
  have hlast : ('"' :: (digits ++ ['"'])).getLast? = some '"' := by
    rw [← List.cons_append, List.getLast?_concat]
  rw [parseIfMatch, String.toList_ofList, List.splitOn_eq_singleton_of_beq_eq_false hcomma,
    List.map_singleton, parsePart, strip_of_no_space hspace]
  simp [unquotePart, hlast, hne]

/-- The server reads an ETag that it issued as the revision that it issued it for. -/
theorem parseSingleCasRevision_formatEtag {revision : Int} (hpositive : 1 ≤ revision) :
    parseSingleCasRevision (formatEtag revision) = .ok revision := by
  obtain ⟨n, rfl⟩ := Int.eq_ofNat_of_zero_le (by omega : 0 ≤ revision)
  have hdigits : ∀ c ∈ Nat.toDigits 10 n, c.isDigit = true :=
    fun c hc => Nat.isDigit_of_mem_toDigits (by decide) (by decide) hc
  have hne : Nat.toDigits 10 n ≠ [] := Nat.toDigits_ne_nil
  have hparts : parseIfMatch (formatEtag n) = [Nat.toDigits 10 n] := parseIfMatch_digits hdigits hne
  have hvalue : int? (Nat.toDigits 10 n) = some (n : Int) := by
    rw [int?_digits hdigits hne, Nat.ofDigitChars_toDigits (by decide) (by decide)]
  rw [parseSingleCasRevision, hparts]
  simp [bind, Except.bind, found, hvalue, ensure, hpositive, pure, Except.pure]

/-! ## What a journal tells -/

def Answer.Issues (key : JourneyKey) (etag content : String) : Answer → Prop
  | .got row issued => row.key = key ∧ issued = etag ∧ row.payloadJson = content
  | .created stored issued | .updated _ _ stored issued =>
      issued = etag ∧ ∃ row ∈ stored, row.key = key ∧ row.payloadJson = content
  | _ => False

def Answer.etagFor (key : JourneyKey) : Answer → Option String
  | .got row etag => if row.key = key then some etag else none
  | .created stored etag | .updated _ _ stored etag =>
      if stored.any fun row => decide (row.key = key) then some etag else none
  | _ => none

instance (key : JourneyKey) (etag content : String) :
    ∀ answer : Answer, Decidable (answer.Issues key etag content)
  | .got _ _ => inferInstanceAs (Decidable (_ ∧ _))
  | .created _ _ | .updated _ _ _ _ => inferInstanceAs (Decidable (_ ∧ _))
  | .started | .refused _ | .integrityError | .deleted _ _ => inferInstanceAs (Decidable False)

theorem etagFor_eq_some {etag : String} {answer : Answer} :
    answer.etagFor key = some etag ↔ ∃ content, answer.Issues key etag content := by
  have hstored : ∀ (stored : Option InquiryBundleRow) (issued : String),
      (if stored.any fun row => decide (row.key = key) then some issued else none) = some etag ↔
        ∃ content, issued = etag ∧ ∃ row ∈ stored, row.key = key ∧ row.payloadJson = content := by
    intro stored issued
    cases stored <;> simp [and_comm]
  cases answer with
  | got row issued => simp [Answer.etagFor, Answer.Issues]
  | created stored issued => exact hstored stored issued
  | updated write replaced stored issued => exact hstored stored issued
  | started | refused refusal | integrityError | deleted write replaced =>
      simp [Answer.etagFor, Answer.Issues]

def Answer.creates (key : JourneyKey) : Answer → Bool
  | .created stored _ => stored.any fun row => decide (row.key = key)
  | _ => false

def Answer.accepted : Answer → Option (CasWrite × InquiryBundleRow)
  | .updated write replaced _ _ | .deleted write replaced => some (write, replaced)
  | _ => none

def Answer.wrote : Answer → Option (Option InquiryBundleRow × String)
  | .created stored etag | .updated _ _ stored etag => some (stored, etag)
  | _ => none

abbrev Entry := Call × Answer

variable {entry : Entry} {journal : List Entry}

/-- Writes overwrite nothing that their client has not seen. -/
structure NoUnseenOverwrite (journal : List Entry) : Prop where
  seen : ∀ entry ∈ journal, ∀ write replaced, entry.2.accepted = some (write, replaced) →
    replaced.payloadJson = write.seen
  etag : ∀ entry ∈ journal, ∀ stored etag, entry.2.wrote = some (stored, etag) →
    ∃ row, stored = some row ∧ etag = formatEtag row.revision
  once : (journal.filterMap fun entry =>
    entry.2.accepted.map fun accepted => (accepted.1.key, accepted.1.ifMatch)).Nodup

/-! ## Eras -/

/-- The entries before the last creation of a journey's row, and those from it on. -/
def eras (key : JourneyKey) (journal : List Entry) : List Entry × List Entry :=
  journal.foldl (fun (earlier, current) entry =>
    if entry.2.creates key then (earlier ++ current, [entry])
    else (earlier, current ++ [entry])) ([], [])

def earlier (key : JourneyKey) (journal : List Entry) : List Entry := (eras key journal).1

def current (key : JourneyKey) (journal : List Entry) : List Entry := (eras key journal).2

theorem eras_snoc (key : JourneyKey) (journal : List Entry) (entry : Entry) :
    eras key (journal ++ [entry]) =
      if entry.2.creates key then (earlier key journal ++ current key journal, [entry])
      else (earlier key journal, current key journal ++ [entry]) := by
  rw [eras, List.foldl_append]
  rfl

theorem earlier_append_current (key : JourneyKey) (journal : List Entry) :
    earlier key journal ++ current key journal = journal := by
  induction journal using List.reverseRecOn with
  | nil => rfl
  | append_singleton journal entry ih =>
      rw [earlier, current, eras_snoc]
      split
      · rw [ih]
      · rw [← List.append_assoc, ih]

theorem eras_of_creates (hcreates : entry.2.creates key = true) :
    earlier key (journal ++ [entry]) = journal ∧ current key (journal ++ [entry]) = [entry] := by
  rw [earlier, current, eras_snoc, if_pos hcreates, earlier_append_current]
  exact ⟨rfl, rfl⟩

theorem eras_of_not_creates (hcreates : entry.2.creates key = false) :
    earlier key (journal ++ [entry]) = earlier key journal ∧
      current key (journal ++ [entry]) = current key journal ++ [entry] := by
  rw [earlier, current, eras_snoc, if_neg (by simp [hcreates])]
  exact ⟨rfl, rfl⟩

theorem mem_eras : entry ∈ journal ↔ entry ∈ earlier key journal ∨ entry ∈ current key journal := by
  rw [← List.mem_append, earlier_append_current]

/-- A client sends an ETag that was issued for the journey, and knows the content that came with
it. -/
def Received (run : BundleRun) : Call → Prop
  | .post request => ∀ etag ∈ request.ifMatch,
      ∃ entry ∈ run.journal, entry.2.Issues request.key etag request.seen
  | .delete request => ∀ etag ∈ request.ifMatch,
      ∃ entry ∈ run.journal, entry.2.Issues request.key etag request.seen
  | _ => True

/-- A commit presents no ETag that was issued before the last creation of its row and names the
revision at present. -/
def NotOutdated (run : BundleRun) : Call → Prop
  | .commit index => ∀ pending ∈ run.state.pending[index]?, ∀ write ∈ pending.write?,
      ∀ row ∈ run.state.find write.key, row.revision = write.expected →
        ∀ entry ∈ earlier write.key run.journal, entry.2.etagFor write.key ≠ some write.ifMatch
  | _ => True

instance (run : BundleRun) : DecidablePred (Received run)
  | .post _ | .delete _ => inferInstanceAs (Decidable (∀ _ ∈ _, ∃ _ ∈ _, _))
  | .get _ _ | .commit _ => inferInstanceAs (Decidable True)

instance (run : BundleRun) : DecidablePred (NotOutdated run)
  | .commit _ => inferInstanceAs (Decidable (∀ _ ∈ _, ∀ _ ∈ _, ∀ _ ∈ _, _ → ∀ _ ∈ _, _))
  | .post _ | .delete _ | .get _ _ => inferInstanceAs (Decidable True)

/-! ## What a step does -/

/-- What a step does to the row of a journey: nothing, or it creates the row, or it accepts a write
that replaces or deletes it. -/
inductive Moves (server next : Server) (key : JourneyKey) (answer : Answer) : Prop where
  | kept (hfind : next.find key = server.find key) (hcreates : answer.creates key = false)
      (hothers : ∀ accepted ∈ answer.accepted, accepted.1.key ≠ key)
  | created (row : InquiryBundleRow) (hnone : server.find key = none)
      (hfind : next.find key = some row) (hrevision : row.revision = 1)
      (hcreates : answer.creates key = true) (haccepted : answer.accepted = none)
  | written (write : CasWrite) (row : InquiryBundleRow) (hfind : server.find key = some row)
      (hrevision : row.revision = write.expected) (hkey : write.key = key)
      (haccepted : answer.accepted = some (write, row)) (hcreates : answer.creates key = false)
      (hnext : ∀ new, next.find key = some new → new.revision = row.revision + 1)

/-- What a step does to the rows, and what its answer tells of them. -/
structure Steps (server : Server) (answer : Answer) (next : Server) : Prop where
  moves : ∀ key, Moves server next key answer
  issues : ∀ key etag content, answer.Issues key etag content →
    ∃ row, next.find key = some row ∧ etag = formatEtag row.revision ∧ row.payloadJson = content
  etag : ∀ stored etag, answer.wrote = some (stored, etag) →
    ∃ row, stored = some row ∧ etag = formatEtag row.revision

variable {answer : Answer} {pending : Pending}

theorem find_key (hfind : server.find key = some row) : row.key = key :=
  (findBy_eq_some _ hfind).2

theorem expectedRow_eq_some :
    server.expectedRow write = some row ↔
      server.find write.key = some row ∧ row.revision = write.expected := by
  rw [Server.expectedRow, Option.filter_eq_some_iff, decide_eq_true_eq]

theorem Steps.accepted (hsteps : Steps server answer next)
    (haccepted : answer.accepted = some (write, row)) :
    server.find write.key = some row ∧ row.revision = write.expected ∧
      ∀ new, next.find write.key = some new → new.revision = row.revision + 1 := by
  cases hsteps.moves write.key with
  | kept _ _ hothers => exact absurd rfl (hothers _ haccepted)
  | created _ _ _ _ _ hnone => cases hnone.symm.trans haccepted
  | written _ _ hfind hrevision _ hsame _ hnext =>
      obtain ⟨rfl, rfl⟩ := Prod.mk.inj (Option.some.inj (hsame.symm.trans haccepted))
      exact ⟨hfind, hrevision, hnext⟩

/-- A step that only answers, or only lets a request wait. -/
theorem steps_quiet (hbundles : next.bundles = server.bundles)
    (hcreates : ∀ key, answer.creates key = false)
    (hissues : ∀ key etag content, answer.Issues key etag content →
      ∃ row, server.find key = some row ∧ etag = formatEtag row.revision ∧
        row.payloadJson = content) (haccepted : answer.accepted = none)
    (hwrote : answer.wrote = none) : Steps server answer next := by
  have hfind : ∀ key, next.find key = server.find key := by simp [Server.find, hbundles]
  constructor
  case moves => exact fun key => .kept (hfind key) (hcreates key) (by simp [haccepted])
  case issues => simpa only [hfind] using hissues
  case etag => simp [hwrote]

theorem steps_refused (refusal : Refusal) : Steps server (.refused refusal) server :=
  steps_quiet rfl (fun _ => rfl) nofun rfl rfl

theorem steps_create (hrevision : row.revision = 1) :
    Steps server (server.commit (.create row)).1 (server.commit (.create row)).2 := by
  rw [Server.commit]
  split
  next => exact steps_quiet rfl (fun _ => rfl) nofun rfl rfl
  next bundles hinsert =>
    have hfind : ∀ key, ({ server with bundles := bundles } : Server).find key =
        if row.key = key then some row else server.find key :=
      fun key => findBy_insertBy _ hinsert key
    have hfound := (hfind row.key).trans (if_pos rfl)
    constructor
    case moves =>
      intro key
      by_cases hkey : row.key = key
      · subst hkey
        exact .created row ((insertBy_eq_some _).mp hinsert).1 hfound hrevision
          (by simp [Answer.creates, hfound]) rfl
      · exact .kept ((hfind key).trans (if_neg hkey)) (by simp [Answer.creates, hfound, hkey]) nofun
    case issues =>
      rintro key etag content ⟨rfl, other, hother, rfl, hcontent⟩
      obtain rfl := Option.some.inj (hfound.symm.trans hother)
      exact ⟨row, hfound, by rw [hrevision], hcontent⟩
    case etag =>
      intro stored etag hwrote
      obtain ⟨rfl, rfl⟩ := Prod.mk.inj (Option.some.inj hwrote)
      exact ⟨row, hfound, by rw [hrevision]⟩

theorem steps_update {updatedAt content : String} :
    Steps server (server.commit (.update write updatedAt content)).1
      (server.commit (.update write updatedAt content)).2 := by
  rw [Server.commit]
  split
  next => exact steps_refused _
  next replaced hreplaced =>
    obtain ⟨hreplaced, hrevision⟩ := expectedRow_eq_some.mp hreplaced
    generalize hstored : ({ replaced with
      payloadJson := content
      updatedAt := updatedAt
      revision := write.expected + 1 } : InquiryBundleRow) = stored
    have hkey : stored.key = write.key := by
      rw [← find_key hreplaced, ← hstored]
      rfl
    have hnew : stored.revision = write.expected + 1 := by rw [← hstored]
    have hfind : ∀ key, ({ server with
        bundles := upsertBy InquiryBundleRow.key stored server.bundles } : Server).find key =
          if stored.key = key then some stored else server.find key :=
      fun key => findBy_upsertBy _ key stored _
    have hfound := (hfind write.key).trans (if_pos hkey)
    constructor
    case moves =>
      intro key
      by_cases hsame : write.key = key
      · subst hsame
        refine .written write replaced hreplaced hrevision rfl rfl rfl fun new hnext => ?_
        obtain rfl := Option.some.inj (hfound.symm.trans hnext)
        rw [hnew, hrevision]
      · refine .kept ((hfind key).trans (if_neg (hkey ▸ hsame))) rfl ?_
        rintro accepted ⟨⟩
        exact hsame
    case issues =>
      rintro key etag issued ⟨rfl, other, hother, rfl, hissued⟩
      obtain rfl := Option.some.inj (hfound.symm.trans hother)
      exact ⟨stored, hkey ▸ hfound, by rw [hnew], hissued⟩
    case etag =>
      intro row etag hwrote
      obtain ⟨rfl, rfl⟩ := Prod.mk.inj (Option.some.inj hwrote)
      exact ⟨stored, hfound, by rw [hnew]⟩

theorem steps_delete {principalId : Option String} {occurredAt : String} :
    Steps server (server.commit (.delete write principalId occurredAt)).1
      (server.commit (.delete write principalId occurredAt)).2 := by
  rw [Server.commit]
  split
  next => exact steps_refused _
  next replaced hreplaced =>
    obtain ⟨hreplaced, hrevision⟩ := expectedRow_eq_some.mp hreplaced
    constructor
    case moves =>
      intro key
      by_cases hsame : write.key = key
      · subst hsame
        refine .written write replaced hreplaced hrevision rfl rfl rfl fun new hnext => ?_
        rw [Server.find, findBy_filter_key, if_pos rfl] at hnext
        cases hnext
      · refine .kept ?_ rfl ?_
        · rw [Server.find, findBy_filter_key, if_neg hsame]
          rfl
        · rintro accepted ⟨⟩
          exact hsame
    case issues => exact fun _ _ _ hissues => False.elim hissues
    case etag => exact nofun

theorem accepted_commit :
    (server.commit pending).1.accepted = some (write, row) ↔
      pending.write? = some write ∧ server.expectedRow write = some row := by
  cases pending with
  | create new =>
      rw [Server.commit]
      split <;> simp [Answer.accepted, Pending.write?]
  | update other updatedAt content | delete other principalId occurredAt =>
      rw [Server.commit, Pending.write?, Option.some.injEq]
      constructor
      · intro haccepted
        split at haccepted
        next => cases haccepted
        next replaced hreplaced =>
          obtain ⟨rfl, rfl⟩ := Prod.mk.inj (Option.some.inj haccepted)
          exact ⟨rfl, hreplaced⟩
      · rintro ⟨rfl, hrow⟩
        rw [hrow]
        rfl

theorem pending_commit : (server.commit pending).2.pending = server.pending := by
  cases pending with
  | create row | update write updatedAt content | delete write principalId occurredAt =>
      rw [Server.commit]
      split <;> rfl

/-! ## The invariant -/

/-- What the row of a journey has to do with the entries since it was created: it has got beyond
the revisions that were issued, or still has the content that came with the last one. -/
structure InStep (row : InquiryBundleRow) (entries : List Entry) : Prop where
  positive : 1 ≤ row.revision
  issued : ∀ entry ∈ entries, ∀ etag content, entry.2.Issues row.key etag content →
    ∃ revision, etag = formatEtag revision ∧ 1 ≤ revision ∧ revision ≤ row.revision ∧
      (revision = row.revision → row.payloadJson = content)

def Presents (journal : List Entry) (write : CasWrite) : Prop :=
  parseSingleCasRevision write.ifMatch = .ok write.expected ∧
    ∃ entry ∈ journal, entry.2.Issues write.key write.ifMatch write.seen

/-- What a request that waits was checked for. -/
def Checked (journal : List Entry) : Pending → Prop
  | .create row => row.revision = 1
  | .update write _ _ | .delete write _ _ => Presents journal write

/-- The ETags that accepted writes have used up. -/
def usedUp (journal : List Entry) : List (JourneyKey × String) :=
  journal.filterMap fun entry =>
    entry.2.accepted.map fun accepted => (accepted.1.key, accepted.1.ifMatch)

structure Sound (run : BundleRun) : Prop where
  rows : ∀ key row, run.state.find key = some row → InStep row (current key run.journal)
  waiting : ∀ pending ∈ run.state.pending, Checked run.journal pending
  issued : ∀ key etag, (key, etag) ∈ usedUp run.journal →
    ∃ entry ∈ run.journal, entry.2.etagFor key = some etag
  held : ∀ key, ∀ entry ∈ run.journal, ∀ etag, entry.2.etagFor key = some etag →
    (key, etag) ∈ usedUp run.journal ∨
      ∃ row, run.state.find key = some row ∧ etag = formatEtag row.revision
  outdated : ∀ key, ∀ entry ∈ earlier key run.journal, ∀ etag,
    entry.2.etagFor key = some etag → (key, etag) ∈ usedUp run.journal
  /-- What is used up of the revision at present, or of one to come, was issued for an earlier row. -/
  fresh : ∀ key row revision, run.state.find key = some row → row.revision ≤ revision →
    (key, formatEtag revision) ∈ usedUp run.journal →
      ∃ entry ∈ earlier key run.journal, entry.2.etagFor key = some (formatEtag revision)
  result : NoUnseenOverwrite run.journal

theorem usedUp_snoc (haccepted : entry.2.accepted = some (write, row)) :
    usedUp (journal ++ [entry]) = usedUp journal ++ [(write.key, write.ifMatch)] := by
  simp [usedUp, haccepted]

theorem mem_usedUp_snoc {etag : String} :
    (key, etag) ∈ usedUp (journal ++ [entry]) ↔ (key, etag) ∈ usedUp journal ∨
      ∃ write row, entry.2.accepted = some (write, row) ∧ write.key = key ∧ write.ifMatch = etag := by
  simp [usedUp]

theorem Checked.presents (h : Checked journal pending) (hwrite : pending.write? = some write) :
    Presents journal write := by
  cases pending with
  | create row => cases hwrite
  | update other updatedAt content | delete other principalId occurredAt =>
      cases hwrite
      exact h

theorem Checked.append (h : Checked journal pending) (entry : Entry) :
    Checked (journal ++ [entry]) pending := by
  cases pending with
  | create row => exact h
  | update write updatedAt content | delete write principalId occurredAt =>
      obtain ⟨hparse, issue, hissue, hissues⟩ := h
      exact ⟨hparse, issue, List.mem_append_left _ hissue, hissues⟩

theorem steps_commit (h : Checked journal pending) :
    Steps server (server.commit pending).1 (server.commit pending).2 := by
  cases pending with
  | create row => exact steps_create h
  | update write updatedAt content => exact steps_update
  | delete write principalId occurredAt => exact steps_delete

theorem InStep.append {entries : List Entry} (h : InStep row entries)
    (hissues : ∀ etag content, entry.2.Issues row.key etag content →
      etag = formatEtag row.revision ∧ row.payloadJson = content) :
    InStep row (entries ++ [entry]) where
  positive := h.positive
  issued := by
    intro other hother etag content hother_issues
    rcases mem_snoc.mp hother with hold | rfl
    · exact h.issued other hold etag content hother_issues
    · obtain ⟨rfl, hcontent⟩ := hissues etag content hother_issues
      exact ⟨row.revision, rfl, h.positive, le_refl _, fun _ => hcontent⟩

theorem InStep.advance {next : InquiryBundleRow} {entries : List Entry} (h : InStep row entries)
    (hkey : next.key = row.key) (hless : row.revision < next.revision) : InStep next entries where
  positive := by
    have := h.positive
    omega
  issued := by
    intro entry hentry etag content hissues
    rw [hkey] at hissues
    obtain ⟨revision, hetag, hpositive, hle, -⟩ := h.issued entry hentry etag content hissues
    exact ⟨revision, hetag, hpositive, by omega, fun heq => by omega⟩

theorem NoUnseenOverwrite.of_isPrefix {later : List Entry} (hresult : NoUnseenOverwrite later)
    (hbegins : journal <+: later) : NoUnseenOverwrite journal where
  seen entry hentry := hresult.seen entry (hbegins.subset hentry)
  etag entry hentry := hresult.etag entry (hbegins.subset hentry)
  once := hresult.once.sublist (hbegins.sublist.filterMap _)

theorem NoUnseenOverwrite.snoc (hresult : NoUnseenOverwrite journal)
    (haccepted : ∀ write replaced, entry.2.accepted = some (write, replaced) →
      replaced.payloadJson = write.seen ∧ (write.key, write.ifMatch) ∉ usedUp journal)
    (hetag : ∀ stored etag, entry.2.wrote = some (stored, etag) →
      ∃ row, stored = some row ∧ etag = formatEtag row.revision) :
    NoUnseenOverwrite (journal ++ [entry]) where
  seen := by
    intro other hother write replaced hother_accepted
    rcases mem_snoc.mp hother with hold | rfl
    · exact hresult.seen other hold write replaced hother_accepted
    · exact (haccepted write replaced hother_accepted).1
  etag := by
    intro other hother stored etag hwrote
    rcases mem_snoc.mp hother with hold | rfl
    · exact hresult.etag other hold stored etag hwrote
    · exact hetag stored etag hwrote
  once := by
    cases haccept : entry.2.accepted with
    | none => simpa [haccept] using hresult.once
    | some accepted =>
        have hnew := (haccepted accepted.1 accepted.2 haccept).2
        have honce : (usedUp journal ++ [(accepted.1.key, accepted.1.ifMatch)]).Nodup := by
          refine List.nodup_append.mpr ⟨hresult.once, List.nodup_singleton _, ?_⟩
          rintro pair hpair other hother rfl
          exact hnew (List.mem_singleton.mp hother ▸ hpair)
        rwa [← usedUp_snoc haccept] at honce

/-- An ETag that is not outdated is that of the row, came with its content and is new. -/
theorem Sound.expected (hsound : Sound run) (hpresents : Presents run.journal write)
    (hfind : run.state.find write.key = some row) (hrevision : row.revision = write.expected)
    (hnew : ∀ entry ∈ earlier write.key run.journal,
      entry.2.etagFor write.key ≠ some write.ifMatch) :
    write.ifMatch = formatEtag row.revision ∧ row.payloadJson = write.seen ∧
      (write.key, write.ifMatch) ∉ usedUp run.journal := by
  obtain ⟨hparse, issue, hissue, hissues⟩ := hpresents
  have hcurrent := (mem_eras.mp hissue).resolve_left fun hold =>
    hnew issue hold (etagFor_eq_some.mpr ⟨_, hissues⟩)
  obtain ⟨revision, hetag, hpositive, -, hcontent⟩ :=
    (hsound.rows write.key row hfind).issued issue hcurrent _ _ ((find_key hfind).symm ▸ hissues)
  rw [hetag, parseSingleCasRevision_formatEtag hpositive] at hparse
  have hequal : revision = row.revision := (Except.ok.inj hparse).trans hrevision.symm
  refine ⟨hequal ▸ hetag, hcontent hequal, fun hused => ?_⟩
  rw [hetag] at hused hnew
  obtain ⟨entry, hentry, hissued⟩ :=
    hsound.fresh write.key row revision hfind (le_of_eq hequal.symm) hused
  exact hnew entry hentry hissued

theorem Sound.rows_snoc (hsound : Sound run) (hsteps : Steps run.state answer next)
    (hfind : next.find key = some row) :
    InStep row (current key (run.journal ++ [(call, answer)])) := by
  have hkey := find_key hfind
  have hissues : ∀ etag content, answer.Issues row.key etag content →
      etag = formatEtag row.revision ∧ row.payloadJson = content := by
    intro etag content hissues
    obtain ⟨other, hother, hother_issues⟩ := hsteps.issues _ _ _ hissues
    rw [hkey, hfind] at hother
    obtain rfl := Option.some.inj hother
    exact hother_issues
  cases hsteps.moves key with
  | kept hsame hcreates =>
      rw [(eras_of_not_creates hcreates).2]
      exact (hsound.rows key row (hsame.symm.trans hfind)).append hissues
  | created new hnone hnew hrevision hcreates =>
      obtain rfl := Option.some.inj (hfind.symm.trans hnew)
      have hempty : InStep row [] := ⟨by omega, by simp⟩
      rw [(eras_of_creates hcreates).2]
      exact hempty.append hissues
  | written write replaced hbefore _ _ _ hcreates hnext =>
      have hless := hnext row hfind
      rw [(eras_of_not_creates hcreates).2]
      exact ((hsound.rows key replaced hbefore).advance (hkey.trans (find_key hbefore).symm)
        (by omega)).append hissues

theorem Sound.snoc (hsound : Sound run) (hsteps : Steps run.state answer next)
    (hpending : ∀ pending ∈ next.pending, pending ∈ run.state.pending ∨
      Checked run.journal pending)
    (haccepted : ∀ write replaced, answer.accepted = some (write, replaced) →
      Presents run.journal write ∧ ∀ entry ∈ earlier write.key run.journal,
        entry.2.etagFor write.key ≠ some write.ifMatch) :
    Sound ⟨run.journal ++ [(call, answer)], next⟩ := by
  have hexpected : ∀ write row, answer.accepted = some (write, row) →
      write.ifMatch = formatEtag row.revision ∧ row.payloadJson = write.seen ∧
        (write.key, write.ifMatch) ∉ usedUp run.journal := by
    intro write row haccept
    obtain ⟨hfind, hrevision, -⟩ := hsteps.accepted haccept
    obtain ⟨hpresents, hnew⟩ := haccepted write row haccept
    exact hsound.expected hpresents hfind hrevision hnew
  constructor
  case rows => exact fun key row hfind => hsound.rows_snoc hsteps hfind
  case waiting =>
    intro pending hmem
    rcases hpending pending hmem with hold | hnew
    · exact (hsound.waiting pending hold).append _
    · exact hnew.append _
  case issued =>
    intro key etag hused
    rcases mem_usedUp_snoc.mp hused with hold | ⟨write, row, haccept, rfl, rfl⟩
    · obtain ⟨entry, hentry, hetag⟩ := hsound.issued key etag hold
      exact ⟨entry, List.mem_append_left _ hentry, hetag⟩
    · obtain ⟨-, entry, hentry, hissues⟩ := (haccepted write row haccept).1
      exact ⟨entry, List.mem_append_left _ hentry, etagFor_eq_some.mpr ⟨_, hissues⟩⟩
  case held =>
    intro key other hother etag hetag
    rcases mem_snoc.mp hother with hold | rfl
    · rcases hsound.held key other hold etag hetag with hused | ⟨row, hrow, rfl⟩
      · exact Or.inl (mem_usedUp_snoc.mpr (Or.inl hused))
      cases hsteps.moves key with
      | kept hsame => exact Or.inr ⟨row, hsame.trans hrow, rfl⟩
      | created _ hnone => cases hnone.symm.trans hrow
      | written write replaced hbefore _ hkey haccept =>
          obtain rfl := Option.some.inj (hbefore.symm.trans hrow)
          exact Or.inl (mem_usedUp_snoc.mpr (Or.inr
            ⟨write, _, haccept, hkey, (hexpected write _ haccept).1⟩))
    · obtain ⟨content, hissues⟩ := etagFor_eq_some.mp hetag
      obtain ⟨row, hrow, hrevision, -⟩ := hsteps.issues _ _ _ hissues
      exact Or.inr ⟨row, hrow, hrevision⟩
  case outdated =>
    intro key other hother etag hetag
    refine mem_usedUp_snoc.mpr (Or.inl ?_)
    cases hcreates : answer.creates key with
    | false =>
        rw [(eras_of_not_creates hcreates).1] at hother
        exact hsound.outdated key other hother etag hetag
    | true =>
        -- before a row is created there is none, and its ETags are used up
        rw [(eras_of_creates hcreates).1] at hother
        refine (hsound.held key other hother etag hetag).resolve_right ?_
        rintro ⟨row, hrow, -⟩
        cases hsteps.moves key with
        | created _ hnone => cases hnone.symm.trans hrow
        | kept _ hkept => cases hkept.symm.trans hcreates
        | written _ _ _ _ _ _ hwritten => cases hwritten.symm.trans hcreates
  case fresh =>
    intro key row revision hfind hle hused
    rcases mem_usedUp_snoc.mp hused with hold | ⟨write, replaced, haccept, rfl, hmatch⟩
    · cases hsteps.moves key with
      | kept hsame hcreates =>
          rw [(eras_of_not_creates hcreates).1]
          exact hsound.fresh key row revision (hsame.symm.trans hfind) hle hold
      | created _ _ _ _ hcreates =>
          rw [(eras_of_creates hcreates).1]
          exact hsound.issued key _ hold
      | written _ before hbefore _ _ _ hcreates hnext =>
          have hless := hnext row hfind
          rw [(eras_of_not_creates hcreates).1]
          exact hsound.fresh key before revision hbefore (by omega) hold
    · -- the row has got beyond the revision that is used up
      obtain ⟨hbefore, -, hnext⟩ := hsteps.accepted haccept
      have hless := hnext row hfind
      have hpositive := (hsound.rows _ _ hbefore).positive
      have hparse := parseSingleCasRevision_formatEtag (by omega : 1 ≤ revision)
      rw [← hmatch, (hexpected write replaced haccept).1,
        parseSingleCasRevision_formatEtag hpositive] at hparse
      have hequal := Except.ok.inj hparse
      omega
  case result =>
    exact hsound.result.snoc (fun write replaced haccept => (hexpected write replaced haccept).2)
      hsteps.etag

/-- The invariant does not depend on requests that do not wait any more. -/
theorem Sound.drop (hsound : Sound run) (index : Nat) :
    Sound ⟨run.journal, { run.state with pending := run.state.pending.eraseIdx index }⟩ :=
  { hsound with
    waiting := fun pending hpending => hsound.waiting pending (List.mem_of_mem_eraseIdx hpending) }

/-! ## Requests that begin -/

section Begin

variable {isPrintable : Char → Bool}

theorem checked_beginPost {request : PostRequest}
    (hreceived : ∀ etag ∈ request.ifMatch,
      ∃ entry ∈ journal, entry.2.Issues request.key etag request.seen)
    (hok : server.beginPost isPrintable request = .ok pending) : Checked journal pending := by
  simp only [Server.beginPost, bind_eq_ok] at hok
  obtain ⟨⟨⟩, -, content, -, hok⟩ := hok
  split at hok
  next => cases hok
  next ifNoneMatch hifMatch hifNoneMatch =>
    simp only [bind_eq_ok, ensure_eq_ok, pure_eq_ok] at hok
    obtain ⟨⟨⟩, -, ⟨⟩, -, rfl⟩ := hok
    rfl
  next ifMatch hifMatch hifNoneMatch =>
    simp only [bind_eq_ok, pure_eq_ok] at hok
    obtain ⟨expected, hparse, ⟨⟩, -, rfl⟩ := hok
    exact ⟨hparse, hreceived ifMatch hifMatch⟩
  next => cases hok

theorem checked_beginDelete {request : DeleteRequest}
    (hreceived : ∀ etag ∈ request.ifMatch,
      ∃ entry ∈ journal, entry.2.Issues request.key etag request.seen)
    (hok : server.beginDelete isPrintable request = .ok pending) : Checked journal pending := by
  simp only [Server.beginDelete, bind_eq_ok, found_eq_ok, pure_eq_ok] at hok
  obtain ⟨⟨⟩, -, ifMatch, hifMatch, expected, hparse, ⟨⟩, -, rfl⟩ := hok
  exact ⟨hparse, hreceived ifMatch hifMatch⟩

theorem Sound.refused (hsound : Sound run) (refusal : Refusal) :
    Sound ⟨run.journal ++ [(call, .refused refusal)], run.state⟩ :=
  hsound.snoc (steps_refused refusal) (fun _ => Or.inl) fun _ _ haccepted =>
    absurd haccepted.symm (Option.some_ne_none _)

/-- A request that begins waits with what it was checked for, or is refused. -/
theorem Sound.start {begun : Except Refusal Pending} (hsound : Sound run)
    (hok : ∀ pending, begun = .ok pending → Checked run.journal pending) :
    Sound ⟨run.journal ++ [(call, (run.state.start begun).1)], (run.state.start begun).2⟩ := by
  cases begun with
  | error refusal => exact hsound.refused refusal
  | ok pending =>
      refine hsound.snoc (steps_quiet rfl (fun _ => rfl) nofun rfl rfl) (fun other hother => ?_)
        nofun
      rcases mem_snoc.mp hother with hold | rfl
      · exact Or.inl hold
      · exact Or.inr (hok other rfl)

theorem Sound.serve (hsound : Sound run) (hreceived : Received run call)
    (hnew : NotOutdated run call) (hok : run.state.serve isPrintable call = .ok (answer, next)) :
    Sound ⟨run.journal ++ [(call, answer)], next⟩ := by
  cases call with
  | post request =>
      obtain ⟨rfl, rfl⟩ := Prod.mk.inj (Except.ok.inj hok)
      exact hsound.start fun pending => checked_beginPost hreceived
  | delete request =>
      obtain ⟨rfl, rfl⟩ := Prod.mk.inj (Except.ok.inj hok)
      exact hsound.start fun pending => checked_beginDelete hreceived
  | get session journeyId =>
      rw [Server.serve] at hok
      cases hget : run.state.get isPrintable session journeyId with
      | error refusal =>
          rw [hget] at hok
          obtain ⟨rfl, rfl⟩ := Prod.mk.inj (Except.ok.inj hok)
          exact hsound.refused refusal
      | ok row =>
          rw [hget] at hok
          obtain ⟨rfl, rfl⟩ := Prod.mk.inj (Except.ok.inj hok)
          simp only [Server.get, bind_eq_ok, found_eq_ok, pure_eq_ok] at hget
          obtain ⟨⟨⟩, -, row, hfind, ⟨⟩, -, rfl⟩ := hget
          refine hsound.snoc (steps_quiet rfl (fun _ => rfl) ?_ rfl rfl) (fun _ => Or.inl)
            fun _ _ haccepted => absurd haccepted.symm (Option.some_ne_none _)
          rintro key etag content ⟨rfl, rfl, hcontent⟩
          exact ⟨row, by rwa [find_key hfind], rfl, hcontent⟩
  | commit index =>
      simp only [Server.serve, bind_eq_ok, found_eq_ok, Except.ok.injEq, Prod.ext_iff] at hok
      obtain ⟨pending, hpending, rfl, rfl⟩ := hok
      have hchecked := hsound.waiting pending (List.mem_of_getElem? hpending)
      refine (hsound.drop index).snoc (steps_commit hchecked) (fun other hother => ?_) ?_
      · rw [pending_commit] at hother
        exact Or.inl hother
      · intro write row haccepted
        obtain ⟨hwrite, hrow⟩ := accepted_commit.mp haccepted
        obtain ⟨hfind, hrevision⟩ := expectedRow_eq_some.mp hrow
        exact ⟨hchecked.presents hwrite, hnew pending hpending write hwrite row hfind hrevision⟩

/-- An outdated ETag that is accepted has been used up before. -/
theorem Sound.notOutdated (hsound : Sound run)
    (hresult : NoUnseenOverwrite (run.call (Server.serve isPrintable) call).journal) :
    NotOutdated run call := by
  cases call with
  | post request | delete request | get session journeyId => trivial
  | commit index =>
      intro pending hpending write hwrite row hrow hrevision entry hentry hetag
      have hserve : run.state.serve isPrintable (.commit index) =
          .ok ({ run.state with
            pending := run.state.pending.eraseIdx index }.commit pending) :=
        bind_eq_ok.mpr ⟨pending, found_eq_ok.mpr hpending, rfl⟩
      have haccepted : ({ run.state with
          pending := run.state.pending.eraseIdx index }.commit pending).1.accepted =
            some (write, row) :=
        accepted_commit.mpr ⟨hwrite, expectedRow_eq_some.mpr ⟨hrow, hrevision⟩⟩
      rw [Run.call_of_ok hserve] at hresult
      have honce := hresult.once
      change (usedUp _).Nodup at honce
      rw [usedUp_snoc haccepted] at honce
      exact (List.nodup_append.mp honce).2.2 _ (hsound.outdated write.key entry hentry _ hetag) _
        (List.mem_singleton_self _) rfl

theorem sound_empty : Sound ⟨[], Server.empty⟩ where
  rows := by simp [Server.find, Server.empty]
  waiting := by simp [Server.empty]
  issued := by simp [usedUp]
  held := by simp
  outdated := by simp [earlier, eras]
  fresh := by simp [usedUp]
  result := ⟨by simp, by simp, List.nodup_nil⟩

/-- In every interleaving of requests whose clients send ETags they received, writes replace what
their clients have seen, return the revision that is stored, and use up their ETags, exactly if no
commit presents an ETag that was issued before the last creation of its row and names its revision
at present. -/
theorem no_unseen_overwrite_iff (isPrintable : Char → Bool) (calls : List Call)
    (hreceived : CallsMeet (Server.serve isPrintable) Server.empty Received calls) :
    NoUnseenOverwrite (runServer isPrintable calls).journal ↔
      CallsMeet (Server.serve isPrintable) Server.empty NotOutdated calls := by
  have hsound : ∀ calls, CallsMeet (Server.serve isPrintable) Server.empty
      (fun run call => Received run call ∧ NotOutdated run call) calls →
        Sound (runServer isPrintable calls) := fun calls =>
    runCalls_induction_of_meet sound_empty
      fun run call answer next hrun hmeet hok => hrun.serve hmeet.1 hmeet.2 hok
  constructor
  · intro hresult
    induction calls using List.reverseRecOn with
    | nil => simp [CallsMeet]
    | append_singleton calls call ih =>
        have hmeet := ih hreceived.left (hresult.of_isPrefix (journal_isPrefix _ calls [call]))
        have hrun := hsound calls (callsMeet_and.mpr ⟨hreceived.left, hmeet⟩)
        rw [runServer, runCalls_snoc] at hresult
        exact callsMeet_snoc.mpr ⟨hmeet, hrun.notOutdated hresult⟩
  · exact fun hnew => (hsound calls (callsMeet_and.mpr ⟨hreceived, hnew⟩)).result

end Begin

namespace Recreated

def session : InquirySession := ⟨"tenant", some "user"⟩

def create (content : String) : Call :=
  .post ⟨session, "journey", some content, none, some "*", "now", ""⟩

def update (ifMatch seen content : String) : Call :=
  .post ⟨session, "journey", some content, some ifMatch, none, "now", seen⟩

def delete (ifMatch seen : String) : Call :=
  .delete ⟨session, "journey", some ifMatch, "now", seen⟩

/-- One client creates and keeps the ETag. Another deletes the bundle and creates it again. -/
def recreated : List Call :=
  [create "first", .commit 0, .get session "journey", delete "\"1\"" "first", .commit 0,
    create "second", .commit 0, update "\"1\"" "first" "third", .commit 0]

/-- The kept ETag is accepted for a content that its client has never seen. -/
theorem unseen_overwritten :
    CallsMeet (Server.serve fun _ => true) Server.empty Received recreated ∧
      ¬NoUnseenOverwrite (runServer (fun _ => true) recreated).journal := by
  refine ⟨by decide +kernel, fun h => ?_⟩
  have hseen : ¬∀ entry ∈ (runServer (fun _ => true) recreated).journal,
      ∀ accepted ∈ entry.2.accepted, accepted.2.payloadJson = accepted.1.seen := by
    decide +kernel
  exact hseen fun entry hentry accepted haccepted =>
    h.seen entry hentry accepted.1 accepted.2 haccepted

/-- Two clients update from the same ETag, and the second is refused. -/
def raced : List Call :=
  [create "first", .commit 0, update "\"1\"" "first" "second", update "\"1\"" "first" "third",
    .commit 0, .commit 0, delete "\"2\"" "second", .commit 0]

theorem nothing_unseen_overwritten :
    ((runServer (fun _ => true) raced).journal.map fun entry => entry.2.accepted.isSome) =
      [false, false, false, false, true, false, false, true] ∧
    NoUnseenOverwrite (runServer (fun _ => true) raced).journal :=
  ⟨by decide +kernel,
    (no_unseen_overwrite_iff (fun _ => true) raced (by decide +kernel)).mpr (by decide +kernel)⟩

end Recreated

end KjAtlas.Bundles
