import KjAtlas.Foundation.Paging
import KjAtlas.Foundation.Transactions
import KjAtlas.Py.Url

/-! # The list of documents

A tenant's documents are listed newest first, page by page. The cursor after a
page names the time and the id of its last document, with the time escaped and
a colon between the two.
-/

namespace KjAtlas.Documents

open Py (Json)

/-! ## Tables -/

inductive LifecycleState where
  | active
  | archived
deriving DecidableEq

inductive Visibility where
  | «public»
  | unlisted
  | org
  | restricted
deriving DecidableEq

variable {F : Type}

/-- A document. Its payload is kept as the members of the JSON object that the column holds. -/
structure DocumentRow (F : Type) where
  tenantId : String
  id : String
  updatedAt : String
  payload : List (String × Json F)
  createdBy : Option String
  lifecycleState : LifecycleState

def DocumentRow.key (row : DocumentRow F) : String × String := (row.tenantId, row.id)

structure DocumentAccessMetadataRow where
  tenantId : String
  docId : String
  visibility : Visibility

def DocumentAccessMetadataRow.key (row : DocumentAccessMetadataRow) : String × String :=
  (row.tenantId, row.docId)

structure Tables (F : Type) where
  documents : List (DocumentRow F)
  accessMetadata : List DocumentAccessMetadataRow
  nodup_documents : (documents.map DocumentRow.key).Nodup
  nodup_accessMetadata : (accessMetadata.map DocumentAccessMetadataRow.key).Nodup

structure DocumentListItem where
  id : String
  title : Option String
  createdBy : Option String
  lifecycleState : LifecycleState
  updatedAt : String
deriving DecidableEq

/-- `json.loads(row.payload_json).get("title")`, if it is a string. -/
def DocumentRow.title (row : DocumentRow F) : Option String :=
  match row.payload.lookup "title" with
  | some (.str title) => some title
  | _ => none

def DocumentRow.listItem (row : DocumentRow F) : DocumentListItem where
  id := row.id
  title := row.title
  createdBy := row.createdBy
  lifecycleState := row.lifecycleState
  updatedAt := row.updatedAt

/-! ## The query -/

/-- Who asks, and whether an access control adapter other than `noop` is configured. -/
structure Caller where
  tenantId : String
  userId : Option String
  adapterIsReal : Bool

/-- The parameters of a request that pass their checks. -/
structure ListQuery where
  createdBy : Option String
  limit : Nat
  createdBy_le : ∀ user ∈ createdBy, user.length ≤ 512
  limit_pos : 1 ≤ limit
  limit_le : limit ≤ 500

/-- A document that is visible to everyone, or to the whole tenant. Without access metadata it is
restricted. -/
def Tables.visibleWithoutOwnership (t : Tables F) (row : DocumentRow F) : Bool :=
  (findBy DocumentAccessMetadataRow.key row.key t.accessMetadata).any fun metadata =>
    [Visibility.public, .unlisted, .org].contains metadata.visibility

/-- The `where` clauses but for the cursor. -/
def Tables.matches (t : Tables F) (tenantId : String) (createdBy requestingUserId : Option String)
    (applyVisibilityFilter : Bool) (row : DocumentRow F) : Bool :=
  decide (row.tenantId = tenantId) &&
    (!applyVisibilityFilter || t.visibleWithoutOwnership row ||
      requestingUserId.any fun user => decide (row.createdBy = some user)) &&
    createdBy.all fun user => decide (row.createdBy = some user)

/-- The order of the list: by time, the newest first, and then by id. -/
def newestFirst (left right : String × String) : Bool :=
  decide (right.1 < left.1 ∨ left.1 = right.1 ∧ left.2 ≤ right.2)

def DocumentRow.place (row : DocumentRow F) : String × String := (row.updatedAt, row.id)

/-- What comes after a place in the list. -/
def IsAfter (place other : String × String) : Prop :=
  other.1 < place.1 ∨ other.1 = place.1 ∧ place.2 < other.2

instance : DecidableRel IsAfter := fun _ _ => inferInstanceAs (Decidable (_ ∨ _))

/-- `cursor.rpartition(":")`, with the first part unquoted. -/
def readCursor (cursor : String) : String × String :=
  let (updated, id) := Py.rpartition ':' cursor.toList
  (.ofList (Py.Url.unquote updated), .ofList id)

/-- The rows of `list_documents`, and whether there are more. -/
def Tables.listDocuments (t : Tables F) (tenantId : String)
    (createdBy cursor requestingUserId : Option String) (applyVisibilityFilter : Bool)
    (limit : Nat) : List (DocumentRow F) × Bool :=
  let found := t.documents.filter fun row =>
    t.matches tenantId createdBy requestingUserId applyVisibilityFilter row &&
      cursor.all fun cursor => decide (IsAfter (readCursor cursor) row.place)
  let rows := (sortOn newestFirst DocumentRow.place found).take (limit + 1)
  (rows.take limit, decide (limit < rows.length))

/-! ## The route -/

inductive RouteError where
  | unprocessableCursor

/-- The value of `X-Next-Cursor` after a row. -/
def nextCursor (row : DocumentRow F) : String :=
  .ofList (Py.Url.quote row.updatedAt.toList ++ ':' :: row.id.toList)

/-- `list_documents` of the route. -/
def Tables.listRoute (t : Tables F) (caller : Caller) (query : ListQuery) (cursor : Option String) :
    Except RouteError (List DocumentListItem × Option String) := do
  ensure (∀ value ∈ cursor, value.length ≤ 1024) .unprocessableCursor
  let (rows, hasMore) := t.listDocuments caller.tenantId query.createdBy cursor
    (if caller.adapterIsReal then caller.userId else none) caller.adapterIsReal query.limit
  return (rows.map DocumentRow.listItem,
    (rows.getLast?.filter fun _ => hasMore).map nextCursor)

/-- A page as it reaches the client, where `receive` is what reaches it of the value of a header,
or nothing where the response fails. -/
def Tables.fetchPage (receive : String → Option String) (t : Tables F) (caller : Caller)
    (query : ListQuery) (cursor : Option String) :
    Option (List DocumentListItem × Option String) :=
  match t.listRoute caller query cursor with
  | .error _ => none
  | .ok (items, none) => some (items, none)
  | .ok (items, some next) => (receive next).map fun received => (items, some received)

/-- All pages, from the first on. -/
def Tables.listAll (receive : String → Option String) (t : Tables F) (caller : Caller)
    (query : ListQuery) (fuel : Nat) : Option (List DocumentListItem) :=
  followPages (t.fetchPage receive caller query) fuel none

def Tables.matching (t : Tables F) (caller : Caller) (query : ListQuery) : List (DocumentRow F) :=
  sortOn newestFirst DocumentRow.place <| t.documents.filter <|
    t.matches caller.tenantId query.createdBy (if caller.adapterIsReal then caller.userId else none)
      caller.adapterIsReal

end KjAtlas.Documents

/-! ## The pages of the document list

Each page holds the documents after the one that its cursor names. The pages
make up the list exactly if no page but the last ends with a document whose id
has a colon, or whose cursor does not arrive as it is or is too long.
-/

namespace KjAtlas.Documents

variable {F : Type} {receive : String → Option String} {t : Tables F} {caller : Caller}
  {query : ListQuery}

/-! ## The order -/

theorem newestFirst_total (a b : String × String) :
    newestFirst a b = true ∨ newestFirst b a = true := by
  simp only [newestFirst, decide_eq_true_eq]
  rcases lt_trichotomy a.1 b.1 with hlt | heq | hgt
  · exact Or.inr (Or.inl hlt)
  · rcases le_total a.2 b.2 with hle | hle
    · exact Or.inl (Or.inr ⟨heq, hle⟩)
    · exact Or.inr (Or.inr ⟨heq.symm, hle⟩)
  · exact Or.inl (Or.inl hgt)

theorem newestFirst_trans (a b c : String × String) (hab : newestFirst a b = true)
    (hbc : newestFirst b c = true) : newestFirst a c = true := by
  simp only [newestFirst, decide_eq_true_eq] at *
  rcases hab with hab | ⟨heq, hab⟩
  · rcases hbc with hbc | ⟨heq, hbc⟩
    · exact Or.inl (hbc.trans hab)
    · exact Or.inl (heq ▸ hab)
  · rcases hbc with hbc | ⟨heq', hbc⟩
    · exact Or.inl (heq ▸ hbc)
    · exact Or.inr ⟨heq.trans heq', hab.trans hbc⟩

theorem newestFirst_antisymm (a b : String × String) (hab : newestFirst a b = true)
    (hba : newestFirst b a = true) : a = b := by
  simp only [newestFirst, decide_eq_true_eq] at *
  rcases hab with hab | ⟨heq, hab⟩
  · rcases hba with hba | ⟨heq, -⟩
    · exact absurd hab hba.not_gt
    · exact absurd hab heq.symm.not_gt
  · rcases hba with hba | ⟨-, hba⟩
    · exact absurd hba heq.symm.not_gt
    · exact Prod.ext heq (le_antisymm hab hba)

theorem isAfter_iff {place other : String × String} :
    IsAfter place other ↔ newestFirst place other = true ∧ place ≠ other := by
  simp only [IsAfter, newestFirst, decide_eq_true_eq]
  constructor
  · rintro (hlt | ⟨heq, hlt⟩)
    · exact ⟨Or.inl hlt, fun h => absurd (h ▸ hlt) (lt_irrefl _)⟩
    · exact ⟨Or.inr ⟨heq.symm, hlt.le⟩, fun h => absurd (h ▸ hlt) (lt_irrefl _)⟩
  · rintro ⟨hlt | ⟨heq, hle⟩, hne⟩
    · exact Or.inl hlt
    · exact Or.inr ⟨heq.symm, lt_of_le_of_ne hle fun h => hne (Prod.ext heq h)⟩

theorem IsAfter.asymm {place other : String × String} (h : IsAfter place other) :
    ¬IsAfter other place := by
  intro hback
  rw [isAfter_iff] at h hback
  exact h.2 (newestFirst_antisymm _ _ h.1 hback.1)

/-! ## The documents that match -/

variable {row : DocumentRow F}

theorem mem_matching :
    row ∈ t.matching caller query ↔ row ∈ t.documents ∧
      t.matches caller.tenantId query.createdBy
        (if caller.adapterIsReal then caller.userId else none) caller.adapterIsReal row = true := by
  rw [Tables.matching, sortOn.mem, List.mem_filter]

theorem tenantId_of_mem_matching (hrow : row ∈ t.matching caller query) :
    row.tenantId = caller.tenantId := by
  have hmatches := (mem_matching.mp hrow).2
  simp only [Tables.matches, Bool.and_eq_true, decide_eq_true_eq] at hmatches
  exact hmatches.1.1

theorem nodup_ids_matching (t : Tables F) (caller : Caller) (query : ListQuery) :
    ((t.matching caller query).map DocumentRow.id).Nodup := by
  have hnodup : (t.matching caller query).Nodup :=
    (sortOn.perm _ _ _).nodup_iff.mpr (t.nodup_documents.of_map.filter _)
  apply List.Nodup.map_on ?_ hnodup
  intro row hrow other hother hid
  apply List.inj_on_of_nodup_map t.nodup_documents (mem_matching.mp hrow).1
    (mem_matching.mp hother).1
  rw [DocumentRow.key, DocumentRow.key, hid, tenantId_of_mem_matching hrow,
    tenantId_of_mem_matching hother]

theorem nodup_places_matching (t : Tables F) (caller : Caller) (query : ListQuery) :
    ((t.matching caller query).map DocumentRow.place).Nodup := by
  have hids := nodup_ids_matching t caller query
  rw [show DocumentRow.id (F := F) = Prod.snd ∘ DocumentRow.place from rfl, ← List.map_map] at hids
  exact hids.of_map

/-- Each matching document comes after those before it. -/
theorem pairwise_matching :
    (t.matching caller query).Pairwise fun row other => IsAfter row.place other.place := by
  have hsorted := sortOn.pairwise newestFirst DocumentRow.place newestFirst_total newestFirst_trans
    (t.documents.filter <| t.matches caller.tenantId query.createdBy
      (if caller.adapterIsReal then caller.userId else none) caller.adapterIsReal)
  have hdistinct := List.pairwise_map.mp (nodup_places_matching t caller query)
  refine (hsorted.and hdistinct).imp ?_
  rintro row other ⟨hle, hne⟩
  exact isAfter_iff.mpr ⟨hle, hne⟩

/-! ## Cursors -/

/-- A blank or a control character: a header cannot carry it, or not at the end of its value. -/
def isBreak (c : Char) : Bool := decide (c.toNat ≤ 0x20) || decide (c.toNat = 0x7F)

/-- Where a value that begins with another character does not arrive as it is, it is cut off
before a blank or a control character. -/
def CutsAtBreaks (receive : String → Option String) : Prop :=
  ∀ value received, (∀ c ∈ value.toList.head?, isBreak c = false) →
    receive value = some received → received = value ∨
      ∃ c rest, isBreak c = true ∧ value.toList = received.toList ++ c :: rest

/-- A document at which a page can end: its id has no colon, its cursor arrives as it is, and the
cursor is short enough. -/
structure DocumentRow.Pageable (receive : String → Option String) (row : DocumentRow F) :
    Prop where
  noColon : ':' ∉ row.id.toList
  arrives : receive (nextCursor row) = some (nextCursor row)
  short : (Py.Url.quote row.updatedAt.toList).length + row.id.length < 1024

theorem length_nextCursor (row : DocumentRow F) : (nextCursor row).length =
    (Py.Url.quote row.updatedAt.toList).length + row.id.length + 1 := by
  rw [nextCursor, String.length_ofList, List.length_append, List.length_cons, String.length_toList,
    Nat.add_assoc]

theorem toList_nextCursor (row : DocumentRow F) : (nextCursor row).toList =
    Py.Url.quote row.updatedAt.toList ++ ':' :: row.id.toList :=
  String.toList_ofList

theorem readCursor_eq {cursor : String} {id : List Char} (hcolon : ':' ∉ id)
    (hcursor : cursor.toList = Py.Url.quote row.updatedAt.toList ++ ':' :: id) :
    readCursor cursor = (row.updatedAt, .ofList id) := by
  rw [readCursor, hcursor, Py.rpartition_append _ hcolon]
  dsimp only
  rw [Py.Url.unquote_quote, String.ofList_toList]

/-- A text comes before any longer text that starts with it. -/
theorem lt_append_cons (text : List Char) (c : Char) (rest : List Char) :
    text < text ++ c :: rest := by
  induction text with
  | nil => exact List.nil_lt_cons c rest
  | cons head text ih => exact List.cons_lt_cons_self.mpr ih

/-- With a colon in the id, the cursor names a later time, and with a part of the id only, it names
an earlier id. In both cases the document comes after it. -/
theorem isAfter_readCursor {cursor : String} {id : List Char}
    (hcursor : cursor.toList = Py.Url.quote row.updatedAt.toList ++ ':' :: id)
    (hid : ':' ∈ id ∨ ∃ c rest, row.id.toList = id ++ c :: rest) :
    IsAfter (readCursor cursor) row.place := by
  by_cases hcolon : ':' ∈ id
  · obtain ⟨head, tail, rfl, htail⟩ := Py.exists_last_separator hcolon
    rw [← List.cons_append, ← List.append_assoc] at hcursor
    apply Or.inl
    rw [readCursor, hcursor, Py.rpartition_append _ htail]
    dsimp only
    rw [Py.Url.unquote_quote_colon, String.lt_iff_toList_lt, String.toList_ofList]
    exact lt_append_cons _ _ _
  · obtain ⟨c, rest, hrest⟩ := hid.resolve_left hcolon
    rw [readCursor_eq hcolon hcursor]
    refine Or.inr ⟨rfl, ?_⟩
    rw [String.lt_iff_toList_lt, String.toList_ofList, DocumentRow.place, hrest]
    exact lt_append_cons _ _ _

/-- A cursor that arrives is too long or leads back, unless the document can end a page. -/
theorem isAfter_received (hcuts : CutsAtBreaks receive) {received : String}
    (hreceive : receive (nextCursor row) = some received) (hnot : ¬row.Pageable receive)
    (hshort : received.length ≤ 1024) : IsAfter (readCursor received) row.place := by
  have hbreak : ∀ c ∈ Py.Url.quote row.updatedAt.toList ++ [':'], isBreak c = false := by
    intro c hc
    rcases List.mem_append.mp hc with hquote | hcolon
    · have hrange := Py.Url.mem_quote hquote
      simp only [isBreak, Bool.or_eq_false_iff, decide_eq_false_iff_not]
      omega
    · rw [List.mem_singleton.mp hcolon]
      rfl
  have htext : (nextCursor row).toList =
      (Py.Url.quote row.updatedAt.toList ++ [':']) ++ row.id.toList := by
    rw [toList_nextCursor, List.append_assoc]
    rfl
  have hhead : ∀ c ∈ (nextCursor row).toList.head?, isBreak c = false := by
    intro c hc
    rw [htext, List.head?_append_of_ne_nil _ (by simp)] at hc
    exact hbreak c (List.mem_of_mem_head? hc)
  rcases hcuts _ received hhead hreceive with rfl | ⟨c, rest, hc, hcut⟩
  · refine isAfter_readCursor (toList_nextCursor row) (Or.inl ?_)
    by_contra hcolon
    refine hnot ⟨hcolon, hreceive, ?_⟩
    rw [length_nextCursor] at hshort
    omega
  · rw [htext] at hcut
    -- the cut is not in the time, which has no such characters
    rcases List.append_eq_append_iff.mp hcut with ⟨id, hreceived, hid⟩ | ⟨cut, htime, hid⟩
    · exact isAfter_readCursor (by rw [hreceived, List.append_assoc]; rfl) (Or.inr ⟨c, rest, hid⟩)
    · cases cut with
      | nil =>
          rw [List.append_nil] at htime
          exact @isAfter_readCursor F row received [] htime.symm (Or.inr ⟨c, rest, hid.symm⟩)
      | cons head cut =>
          obtain ⟨rfl, -⟩ := List.cons.inj hid
          rw [hbreak c (htime ▸ by simp)] at hc
          cases hc

/-! ## One page -/

def afterCursor (t : Tables F) (caller : Caller) (query : ListQuery) (cursor : Option String) :
    List (DocumentRow F) :=
  (t.matching caller query).filter fun row =>
    cursor.all fun cursor => decide (IsAfter (readCursor cursor) row.place)

theorem listDocuments_eq (cursor : Option String) :
    t.listDocuments caller.tenantId query.createdBy cursor
        (if caller.adapterIsReal then caller.userId else none) caller.adapterIsReal query.limit =
      ((afterCursor t caller query cursor).take query.limit,
        decide (query.limit < (afterCursor t caller query cursor).length)) := by
  have hsort := sortOn.filter newestFirst DocumentRow.place newestFirst_total newestFirst_trans
    (fun row : DocumentRow F =>
      cursor.all fun cursor => decide (IsAfter (readCursor cursor) row.place))
    (t.documents.filter <| t.matches caller.tenantId query.createdBy
      (if caller.adapterIsReal then caller.userId else none) caller.adapterIsReal)
  rw [List.filter_filter] at hsort
  simp only [Tables.listDocuments, afterCursor, Tables.matching, hsort, Bool.and_comm]
  rw [List.take_take, Nat.min_eq_left (Nat.le_succ _), List.length_take]
  congr 1
  exact decide_eq_decide.mpr (by omega)

variable {cursor : Option String} {start : Nat}

/-- The page after a cursor that is short enough. -/
theorem listRoute_eq (hshort : ∀ value ∈ cursor, value.length ≤ 1024) :
    t.listRoute caller query cursor =
      .ok (((afterCursor t caller query cursor).take query.limit).map DocumentRow.listItem,
        (((afterCursor t caller query cursor).take query.limit).getLast?.filter fun _ =>
          decide (query.limit < (afterCursor t caller query cursor).length)).map nextCursor) := by
  rw [Tables.listRoute, listDocuments_eq, ensure, if_pos hshort]
  rfl

theorem fetchPage_last (hshort : ∀ value ∈ cursor, value.length ≤ 1024)
    (hlast : (afterCursor t caller query cursor).length ≤ query.limit) :
    t.fetchPage receive caller query cursor =
      some ((afterCursor t caller query cursor).map DocumentRow.listItem, none) := by
  have hnone : ∀ row : Option (DocumentRow F), row.filter (fun _ => false) = none := by
    intro row
    cases row <;> rfl
  rw [Tables.fetchPage, listRoute_eq hshort, decide_eq_false (by omega), hnone,
    List.take_of_length_le hlast]
  rfl

theorem fetchPage_more (hshort : ∀ value ∈ cursor, value.length ≤ 1024)
    (hmore : query.limit < (afterCursor t caller query cursor).length)
    (hrow : (afterCursor t caller query cursor)[query.limit - 1]? = some row) :
    t.fetchPage receive caller query cursor = (receive (nextCursor row)).map fun received =>
      (((afterCursor t caller query cursor).take query.limit).map DocumentRow.listItem,
        some received) := by
  have hlimit := query.limit_pos
  have hlast : ((afterCursor t caller query cursor).take query.limit).getLast? = some row := by
    rw [List.getLast?_eq_getElem?, List.length_take, Nat.min_eq_left (by omega),
      List.getElem?_take, if_pos (by omega), hrow]
  rw [Tables.fetchPage, listRoute_eq hshort, decide_eq_true hmore, hlast]
  rfl

/-! ## All pages -/

/-- The cursor that arrives with the page before a position. -/
def cursorOf (receive : String → Option String) (t : Tables F) (caller : Caller)
    (query : ListQuery) (start : Nat) : String :=
  (((t.matching caller query)[start - 1]?).bind fun row => receive (nextCursor row)).getD ""

/-- The document before a position can end a page. -/
def PageableBefore (receive : String → Option String) (t : Tables F) (caller : Caller)
    (query : ListQuery) (start : Nat) : Prop :=
  ∀ row, (t.matching caller query)[start - 1]? = some row → row.Pageable receive

theorem cursorOf_of_pageable (hrow : (t.matching caller query)[start - 1]? = some row)
    (hpageable : row.Pageable receive) : cursorOf receive t caller query start = nextCursor row := by
  rw [cursorOf, hrow, Option.bind_some, hpageable.arrives, Option.getD_some]

/-- A cursor from a pageable document leads to the documents after it. -/
theorem afterCursor_cursorAt (hhere : start = 0 ∨ PageableBefore receive t caller query start)
    (hbound : start ≤ (t.matching caller query).length) :
    afterCursor t caller query (cursorAt (cursorOf receive t caller query) start) =
        (t.matching caller query).drop start ∧
      ∀ value ∈ cursorAt (cursorOf receive t caller query) start, value.length ≤ 1024 := by
  by_cases hzero : start = 0
  · subst hzero
    simp [afterCursor, cursorAt]
  · obtain ⟨row, hrow⟩ : ∃ row, (t.matching caller query)[start - 1]? = some row :=
      ⟨_, List.getElem?_eq_getElem (by omega)⟩
    have hpageable := (hhere.resolve_left hzero) row hrow
    have hplace : readCursor (nextCursor row) = row.place := by
      rw [readCursor_eq hpageable.noColon (toList_nextCursor row), String.ofList_toList]
      rfl
    rw [cursorAt, if_neg hzero, cursorOf_of_pageable hrow hpageable, afterCursor]
    simp only [Option.all_some, hplace, Option.mem_some_iff, forall_eq']
    rw [filter_after_eq_drop (r := fun row other : DocumentRow F => IsAfter row.place other.place)
      (fun _ _ h => h.asymm) pairwise_matching hrow, Nat.sub_add_cancel (by omega),
      length_nextCursor]
    exact ⟨rfl, hpageable.short⟩

/-- A cursor that leads back from a document yields documents that were fetched before, if any. -/
theorem fetchPage_back {received : String} (hstart : 0 < start)
    (hrow : (t.matching caller query)[start - 1]? = some row)
    (hback : received.length ≤ 1024 → IsAfter (readCursor received) row.place) :
    t.fetchPage receive caller query (some received) = none ∨
      ∃ other items next,
        t.fetchPage receive caller query (some received) = some (other :: items, next) ∧
          other ∈ ((t.matching caller query).map DocumentRow.listItem).take start := by
  by_cases hshort : ∀ value ∈ some received, value.length ≤ 1024
  · have hmem : row ∈ (t.matching caller query).take start := by
      apply List.mem_of_getElem? (i := start - 1)
      rw [List.getElem?_take, if_pos (by omega : start - 1 < start), hrow]
    obtain ⟨other, rest, hrows, hother⟩ := exists_filter_eq_cons
      (p := fun row => decide (IsAfter (readCursor received) row.place)) hmem
      (decide_eq_true (hback (hshort received rfl)))
    change afterCursor t caller query (some received) = other :: rest at hrows
    have hfetched := List.mem_map_of_mem (f := DocumentRow.listItem) hother
    rw [List.map_take] at hfetched
    by_cases hlast : (afterCursor t caller query (some received)).length ≤ query.limit
    · refine Or.inr ⟨_, rest.map DocumentRow.listItem, none, ?_, hfetched⟩
      rw [fetchPage_last hshort hlast, hrows]
      rfl
    · have hlimit := query.limit_pos
      obtain ⟨ending, hending⟩ : ∃ ending,
          (afterCursor t caller query (some received))[query.limit - 1]? = some ending :=
        ⟨_, List.getElem?_eq_getElem (by omega)⟩
      rw [fetchPage_more hshort (by omega) hending]
      cases receive (nextCursor ending) with
      | none => exact Or.inl rfl
      | some next =>
          refine Or.inr ⟨_, (rest.take (query.limit - 1)).map DocumentRow.listItem, some next, ?_,
            hfetched⟩
          obtain ⟨before, hbefore⟩ := Nat.exists_eq_succ_of_ne_zero (by omega : query.limit ≠ 0)
          rw [hrows, hbefore]
          rfl
  · rw [Tables.fetchPage, Tables.listRoute, ensure, if_neg hshort]
    exact Or.inl rfl

theorem servesPages (hcuts : CutsAtBreaks receive) (t : Tables F) (caller : Caller)
    (query : ListQuery) :
    ServesPages (t.fetchPage receive caller query)
      ((t.matching caller query).map DocumentRow.listItem) query.limit
      (cursorOf receive t caller query) (PageableBefore receive t caller query) := by
  have hmore : ∀ start, start = 0 ∨ PageableBefore receive t caller query start →
      start + query.limit < (t.matching caller query).length →
      ∃ row, (t.matching caller query)[start + query.limit - 1]? = some row ∧
        t.fetchPage receive caller query (cursorAt (cursorOf receive t caller query) start) =
          (receive (nextCursor row)).map fun received =>
            ((((t.matching caller query).map DocumentRow.listItem).drop start).take query.limit,
              some received) := by
    intro start hhere hlength
    have hlimit := query.limit_pos
    obtain ⟨hafter, hshort⟩ := afterCursor_cursorAt hhere (by omega)
    obtain ⟨row, hrow⟩ : ∃ row, (t.matching caller query)[start + query.limit - 1]? = some row :=
      ⟨_, List.getElem?_eq_getElem (by omega)⟩
    refine ⟨row, hrow, ?_⟩
    rw [← List.map_drop, ← List.map_take, ← hafter]
    apply fetchPage_more hshort
    · rw [hafter, List.length_drop]
      omega
    · rw [hafter, List.getElem?_drop, ← Nat.add_sub_assoc hlimit, hrow]
  constructor
  case last =>
    intro start hhere hbound hlength
    rw [List.length_map] at hbound hlength
    obtain ⟨hafter, hshort⟩ := afterCursor_cursorAt hhere hbound
    rw [fetchPage_last hshort, hafter, List.map_drop]
    rw [hafter, List.length_drop]
    omega
  case more =>
    intro start hhere hlength
    rw [List.length_map] at hlength
    obtain ⟨row, hrow, hfetch⟩ := hmore start hhere hlength
    rw [hfetch, cursorOf, hrow, Option.bind_some]
    cases hreceive : receive (nextCursor row) with
    | none =>
        refine Or.inr ⟨rfl, fun hpageable => ?_⟩
        rw [(hpageable row hrow).arrives] at hreceive
        cases hreceive
    | some received => exact Or.inl rfl
  case back =>
    intro start hhere hlength hsent hnot
    rw [List.length_map] at hlength
    obtain ⟨row, hrow, hfetch⟩ := hmore start hhere hlength
    have hlimit := query.limit_pos
    rw [hfetch] at hsent
    obtain ⟨received, hreceive, -⟩ := Option.map_eq_some_iff.mp hsent
    have hcursor : cursorOf receive t caller query (start + query.limit) = received := by
      rw [cursorOf, hrow, Option.bind_some, hreceive, Option.getD_some]
    rw [hcursor]
    refine fetchPage_back (by omega) hrow (isAfter_received hcuts hreceive fun hpageable => hnot ?_)
    intro other hother
    rwa [← Option.some.inj (hrow.symm.trans hother)]

/-! ## The list -/

/-- Following the cursors yields the documents that match, each once and in order, exactly if every
document that ends a page before the last one can. -/
theorem listAll_iff (hcuts : CutsAtBreaks receive) (t : Tables F) (caller : Caller)
    (query : ListQuery) :
    (∃ fuel, t.listAll receive caller query fuel =
        some ((t.matching caller query).map DocumentRow.listItem)) ↔
      ∀ page row, 0 < page → page * query.limit < (t.matching caller query).length →
        (t.matching caller query)[page * query.limit - 1]? = some row → row.Pageable receive := by
  have hnodup : ((t.matching caller query).map DocumentRow.listItem).Nodup := by
    have hids := nodup_ids_matching t caller query
    rw [show DocumentRow.id (F := F) = DocumentListItem.id ∘ DocumentRow.listItem from rfl,
      ← List.map_map] at hids
    exact hids.of_map
  have hiff := (servesPages hcuts t caller query).follows_iff query.limit_pos hnodup
  rw [List.length_map] at hiff
  refine Iff.trans hiff ?_
  constructor
  · exact fun hall page row hpage hlength hrow => hall page hpage hlength row hrow
  · exact fun hall page hpage hlength row hrow => hall page row hpage hlength hrow

namespace ColonInId

/-- The server refuses control characters and what is not Latin-1, and the client strips blanks. -/
def header (value : String) : Option String :=
  if value.toList.all fun c => decide (0x20 ≤ c.toNat ∧ c.toNat ≠ 0x7F ∧ c.toNat < 0x100) then
    some (.ofList (value.toList.rdropWhile (· = ' ')))
  else none

theorem cutsAtBreaks_header : CutsAtBreaks header := by
  intro value received _ hreceive
  unfold header at hreceive
  split at hreceive
  next =>
    have hsplit := List.rdropWhile_append_rtakeWhile (p := (· = ' ')) (l := value.toList)
    rw [← Option.some.inj hreceive, String.toList_ofList]
    cases hblanks : value.toList.rtakeWhile (· = ' ') with
    | nil =>
        rw [hblanks, List.append_nil] at hsplit
        exact Or.inl (by rw [hsplit, String.ofList_toList])
    | cons c rest =>
        rw [hblanks] at hsplit
        have hc : c ∈ value.toList.rtakeWhile (· = ' ') := hblanks ▸ List.mem_cons_self
        have hblank : c = ' ' := by simpa using List.mem_rtakeWhile_imp hc
        exact Or.inr ⟨c, rest, by rw [hblank]; rfl, hsplit.symm⟩
  next => cases hreceive

def document (id : String) : DocumentRow Empty where
  tenantId := "tenant"
  id := id
  updatedAt := "2026-08-15T00:00:00Z"
  payload := [("title", .str id)]
  createdBy := none
  lifecycleState := .active

/-- Two documents of the same time. -/
def tables (first second : String) (hdistinct : first ≠ second) : Tables Empty where
  documents := [document first, document second]
  accessMetadata := []
  nodup_documents := by simp [document, DocumentRow.key, hdistinct]
  nodup_accessMetadata := List.nodup_nil

/-- No page follows the document whose id ends with a blank. -/
def plainTables : Tables Empty := tables "a" "c " (by decide)

def colonTables : Tables Empty := tables "a:b" "c" (by decide)

def someone : Caller := ⟨"tenant", none, false⟩

def onePerPage : ListQuery := ⟨none, 1, by simp, by decide, by decide⟩

theorem listAll_iff_two :
    ∃ fuel, plainTables.listAll header someone onePerPage fuel =
      some ((plainTables.matching someone onePerPage).map DocumentRow.listItem) := by
  refine (listAll_iff cutsAtBreaks_header _ someone onePerPage).mpr ?_
  intro page row hpage hlength hrow
  have hlast : page * 1 < 2 := hlength
  obtain rfl : page = 1 := by omega
  have hid : row = document "a" := by
    have hfirst : (plainTables.matching someone onePerPage)[0]? = some (document "a") := by rfl
    exact Option.some.inj (hrow.symm.trans hfirst)
  subst hid
  exact ⟨by decide, by decide +kernel, by decide +kernel⟩

/-- With a colon in the first id, the second page is the first one again, so the list is never
completed. -/
theorem not_listAll :
    (colonTables.fetchPage header someone onePerPage none).map
        (fun page => (page.1.map (·.id), page.2)) =
      some (["a:b"], some "2026-08-15T00%3A00%3A00Z:a:b") ∧
    (colonTables.fetchPage header someone onePerPage
        (some "2026-08-15T00%3A00%3A00Z:a:b")).map (fun page => (page.1.map (·.id), page.2)) =
      some (["a:b"], some "2026-08-15T00%3A00%3A00Z:a:b") ∧
    ¬∃ fuel, colonTables.listAll header someone onePerPage fuel =
      some ((colonTables.matching someone onePerPage).map DocumentRow.listItem) := by
  refine ⟨by decide +kernel, by decide +kernel, ?_⟩
  rintro ⟨fuel, hfuel⟩
  have hserves := servesPages cutsAtBreaks_header colonTables someone onePerPage
  have husable := hserves.usable_of_follows onePerPage.limit_pos (by decide +kernel) (Or.inl rfl)
    hfuel 1 (by decide) (by decide +kernel)
  have hrow : (colonTables.matching someone onePerPage)[0]?.map DocumentRow.id = some "a:b" := by
    decide +kernel
  obtain ⟨row, hfirst, hid⟩ := Option.map_eq_some_iff.mp hrow
  exact (husable row hfirst).noColon (by rw [hid]; decide)

end ColonInId

end KjAtlas.Documents
