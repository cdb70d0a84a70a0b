import KjAtlas.Ir.Build

/-! # What a reduction keeps

However much a document is reduced, the cards of the projection are cards of the
document, with their states, and the cards that are required are among them. An
evidence link between cards that are required stays.
-/

namespace KjAtlas.Ir

variable {F : Type}

/-! ## Cards -/

/-- A card as it is projected: as it is, or shortened. -/
def NormalizedCard.Shows (card source : NormalizedCard F) : Prop :=
  card = source ∨ card = shorten source

theorem shorten_shorten (card : NormalizedCard F) : shorten (shorten card) = shorten card := by
  unfold shorten
  simp only [String.toList_ofList, List.take_take, Nat.min_self]

theorem NormalizedCard.Shows.trans {first second third : NormalizedCard F}
    (hfirst : second.Shows first) (hsecond : third.Shows second) : third.Shows first := by
  rcases hfirst with rfl | rfl
  · exact hsecond
  · rcases hsecond with rfl | rfl
    · exact Or.inr rfl
    · exact Or.inr (shorten_shorten first)

theorem NormalizedCard.Shows.id_eq {card source : NormalizedCard F} (hshows : card.Shows source) :
    card.id = source.id := by
  rcases hshows with rfl | rfl <;> rfl

theorem NormalizedCard.Shows.holdState_eq {card source : NormalizedCard F}
    (hshows : card.Shows source) : card.holdState = source.holdState := by
  rcases hshows with rfl | rfl <;> rfl

/-! ## Reductions -/

/-- What one step of a reduction keeps, for the ids of the required cards. -/
structure Reduces (required : List String) (before after : Blocks F) : Prop where
  cards : ∀ card ∈ after.cards, ∃ source ∈ before.cards, card.Shows source
  requiredCards : ∀ source ∈ before.cards, source.id ∈ required →
    ∃ card ∈ after.cards, card.Shows source
  relations : ∀ relation ∈ after.relations, relation ∈ before.relations
  links : ∀ link ∈ after.evidenceLinks, link ∈ before.evidenceLinks
  requiredLinks : ∀ link ∈ before.evidenceLinks,
    (∀ id ∈ [link.fromCardId, link.toCardId],
      id ∈ required ∧ id ∈ before.cards.map NormalizedCard.id) → link ∈ after.evidenceLinks

namespace Reduces

variable {required : List String} {first second third : Blocks F}

/-- A step that changes neither cards nor evidence. -/
theorem of_eq (hcards : second.cards = first.cards)
    (hlinks : second.evidenceLinks = first.evidenceLinks)
    (hrelations : ∀ relation ∈ second.relations, relation ∈ first.relations) :
    Reduces required first second where
  cards card hcard := ⟨card, hcards ▸ hcard, Or.inl rfl⟩
  requiredCards source hsource _ := ⟨source, hcards ▸ hsource, Or.inl rfl⟩
  relations := hrelations
  links _ hlink := hlinks ▸ hlink
  requiredLinks _ hlink _ := hlinks ▸ hlink

theorem ids (hreduces : Reduces required first second) {id : String} (hid : id ∈ required)
    (hmem : id ∈ first.cards.map NormalizedCard.id) : id ∈ second.cards.map NormalizedCard.id := by
  obtain ⟨source, hsource, rfl⟩ := List.mem_map.mp hmem
  obtain ⟨card, hcard, hshows⟩ := hreduces.requiredCards source hsource hid
  exact List.mem_map.mpr ⟨card, hcard, hshows.id_eq⟩

theorem trans (hfirst : Reduces required first second) (hsecond : Reduces required second third) :
    Reduces required first third where
  cards card hcard := by
    obtain ⟨middle, hmiddle, hshows⟩ := hsecond.cards card hcard
    obtain ⟨source, hsource, hshown⟩ := hfirst.cards middle hmiddle
    exact ⟨source, hsource, hshown.trans hshows⟩
  requiredCards source hsource hid := by
    obtain ⟨middle, hmiddle, hshown⟩ := hfirst.requiredCards source hsource hid
    obtain ⟨card, hcard, hshows⟩ := hsecond.requiredCards middle hmiddle (hshown.id_eq ▸ hid)
    exact ⟨card, hcard, hshown.trans hshows⟩
  relations relation hrelation := hfirst.relations relation (hsecond.relations relation hrelation)
  links link hlink := hfirst.links link (hsecond.links link hlink)
  requiredLinks link hlink hends := by
    apply hsecond.requiredLinks link (hfirst.requiredLinks link hlink hends)
    intro id hid
    exact ⟨(hends id hid).1, hfirst.ids (hends id hid).1 (hends id hid).2⟩

theorem of_prune {before : Blocks F} {keep : List String} {cards : List (NormalizedCard F)}
    (hsub : ∀ card ∈ cards, card ∈ before.cards)
    (hcards : ∀ card ∈ before.cards, card.id ∈ required → card ∈ cards)
    (hkeep : ∀ id ∈ required, id ∈ before.cards.map NormalizedCard.id → id ∈ keep) :
    Reduces required before (pruneReferences keep { before with cards }) where
  cards card hcard := ⟨card, hsub card hcard, Or.inl rfl⟩
  requiredCards source hsource hid := ⟨source, hcards source hsource hid, Or.inl rfl⟩
  relations _ hrelation := List.mem_of_mem_filter hrelation
  links _ hlink := List.mem_of_mem_filter hlink
  requiredLinks link hlink hends := by
    have hfrom := hends link.fromCardId (by simp)
    have hto := hends link.toCardId (by simp)
    rw [pruneReferences, List.mem_filter, decide_eq_true_eq]
    exact ⟨hlink, hkeep _ hfrom.1 hfrom.2, hkeep _ hto.1 hto.2⟩

end Reduces

/-! ## The steps -/

theorem mem_keepCards {requiredCardIds rankedIds : List String} {id : String}
    (hid : id ∈ requiredCardIds) : id ∈ keepCards requiredCardIds rankedIds := by
  unfold keepCards
  have hstart : id ∈ distinct requiredCardIds := mem_distinct.mpr hid
  generalize distinct requiredCardIds = keep at hstart
  induction rankedIds generalizing keep with
  | nil => exact hstart
  | cons cardId rest ih =>
      rw [List.foldl_cons]
      apply ih
      split
      · exact hstart
      · exact List.mem_append_left _ hstart

theorem reduces_limitCards (rankByCard : InsertionMap String Nat) (required : List String)
    (blocks : Blocks F) : Reduces required blocks (limitCards rankByCard required blocks) := by
  apply Reduces.of_prune
  · intro card hcard
    exact List.mem_of_mem_filter hcard
  · intro card hcard hid
    exact List.mem_filter.mpr ⟨hcard, decide_eq_true (mem_keepCards hid)⟩
  · intro id hid _
    exact mem_keepCards hid

theorem reduces_shorten (required : List String) (blocks : Blocks F) :
    Reduces required blocks { blocks with cards := blocks.cards.map shorten } where
  cards card hcard := by
    obtain ⟨source, hsource, rfl⟩ := List.mem_map.mp hcard
    exact ⟨source, hsource, Or.inr rfl⟩
  requiredCards source hsource _ := ⟨shorten source, List.mem_map_of_mem hsource, Or.inr rfl⟩
  relations _ hrelation := hrelation
  links _ hlink := hlink
  requiredLinks _ hlink _ := hlink

theorem worstCard_mem (rankByCard : InsertionMap String Nat) (first : NormalizedCard F)
    (rest : List (NormalizedCard F)) : worstCard rankByCard first rest ∈ first :: rest := by
  unfold worstCard
  induction rest generalizing first with
  | nil => exact List.mem_cons_self
  | cons card rest ih =>
      rw [List.foldl_cons]
      rcases List.mem_cons.mp (ih _) with hworst | hrest
      · rw [hworst]
        split <;> simp
      · exact List.mem_cons_of_mem _ (List.mem_cons_of_mem _ hrest)

variable {rankByCard : InsertionMap String Nat}

theorem reduces_dropCards {required : List String} :
    ∀ {fuel : Nat} {blocks result : Blocks F},
      dropCards rankByCard required fuel blocks = .ok result → Reduces required blocks result := by
  intro fuel
  induction fuel with
  | zero =>
      intro blocks result hdrop
      cases hdrop
      exact Reduces.of_eq rfl rfl fun _ hrelation => hrelation
  | succ fuel ih =>
      intro blocks result hdrop
      rw [dropCards] at hdrop
      split at hdrop
      next =>
        cases hdrop
        exact Reduces.of_eq rfl rfl fun _ hrelation => hrelation
      next =>
        split at hdrop
        next => cases hdrop
        next candidate candidates hcandidates =>
          have hvictim := worstCard_mem rankByCard candidate candidates
          generalize worstCard rankByCard candidate candidates = victim at hdrop hvictim
          rw [← hcandidates, List.mem_filter, decide_eq_true_eq] at hvictim
          refine Reduces.trans (Reduces.of_prune ?_ ?_ ?_) (ih hdrop)
          · intro card hcard
            exact List.mem_of_mem_filter hcard
          · intro card hcard hid
            refine List.mem_filter.mpr ⟨hcard, decide_eq_true ?_⟩
            exact fun heq => hvictim.2 (heq ▸ hid)
          · intro id hid hmem
            obtain ⟨card, hcard, rfl⟩ := List.mem_map.mp hmem
            refine List.mem_map_of_mem (List.mem_filter.mpr ⟨hcard, decide_eq_true ?_⟩)
            exact fun heq => hvictim.2 (heq ▸ hid)

variable {blocks : Blocks F} {runtime : Runtime F}

theorem reduces_limitText {required : List String} {result : Blocks F}
    (hlimit : limitText rankByCard required blocks = .ok result) :
    Reduces required blocks result := by
  unfold limitText at hlimit
  obtain ⟨dropped, hdrop, hfit⟩ := bind_eq_ok.mp hlimit
  split at hfit
  next => cases hfit
  next =>
    cases hfit
    exact (reduces_shorten required blocks).trans (reduces_dropCards hdrop)

theorem mem_of_limitRelations {requiredRelationIds : List String} {relations kept : List IrRelation}
    (hlimit : limitRelations requiredRelationIds relations = .ok kept) {relation : IrRelation}
    (hrelation : relation ∈ kept) : relation ∈ relations := by
  unfold limitRelations at hlimit
  dsimp only at hlimit
  split at hlimit
  next => cases hlimit
  next =>
    cases hlimit
    rw [sortOn.mem, List.mem_append] at hrelation
    rcases hrelation with hrequired | hoptional
    · exact List.mem_of_mem_filter hrequired
    · exact List.mem_of_mem_filter (List.mem_of_mem_take hoptional)

/-- A reduction, which leaves the texts as they are unless they are too long together, and
everything unless something is too large. -/
theorem reduces_applyTruncation {required requiredRelationIds : List String}
    {result : Blocks F × Truncation}
    (happly : applyTruncation rankByCard required requiredRelationIds blocks = .ok result) :
    Reduces required blocks result.1 ∧
      (result.2.overText = false → ∀ card ∈ result.1.cards, card ∈ blocks.cards) ∧
        (result.2.truncated = false → result.1 = blocks) := by
  unfold applyTruncation at happly
  dsimp only at happly
  split at happly
  next =>
    cases happly
    exact ⟨Reduces.of_eq rfl rfl fun _ hrelation => hrelation, fun _ _ hcard => hcard,
      fun _ => rfl⟩
  next =>
    have hcards : Reduces required blocks
        (if decide (maxCards < blocks.cards.length) = true then
          limitCards rankByCard required blocks else blocks) ∧
        ∀ card ∈ (if decide (maxCards < blocks.cards.length) = true then
          limitCards rankByCard required blocks else blocks).cards, card ∈ blocks.cards := by
      split
      · exact ⟨reduces_limitCards rankByCard required blocks,
          fun _ hcard => List.mem_of_mem_filter hcard⟩
      · exact ⟨Reduces.of_eq rfl rfl fun _ hrelation => hrelation, fun _ hcard => hcard⟩
    generalize (if decide (maxCards < blocks.cards.length) = true then
      limitCards rankByCard required blocks else blocks) = limited at happly hcards
    obtain ⟨hreduces, hwithin⟩ := hcards
    -- whether relations are dropped or not, cards and evidence stay
    split at happly
    all_goals
      obtain ⟨relations, hkept, happly⟩ := bind_eq_ok.mp happly
      have hrelations : Reduces required blocks { limited with relations } := by
        refine hreduces.trans (Reduces.of_eq rfl rfl fun relation hrelation => ?_)
        first
          | exact mem_of_limitRelations hkept hrelation
          | exact Except.ok.inj hkept ▸ hrelation
      split at happly
      · obtain ⟨reduced, htext, happly⟩ := bind_eq_ok.mp happly
        cases happly
        refine ⟨hrelations.trans (reduces_limitText htext), fun hover => ?_, nofun⟩
        simp_all
      · obtain ⟨reduced, htext, happly⟩ := bind_eq_ok.mp happly
        cases happly
        cases htext
        exact ⟨hrelations, fun _ => hwithin, nofun⟩

/-! ## The projection -/

theorem normalizeCardsFrom_eq {nfkc : String → String} {sourceCards : List (SourceCard F)} :
    ∀ {seen : List String} {cards : List (NormalizedCard F)},
      normalizeCardsFrom nfkc seen sourceCards = .ok cards →
        cards = sourceCards.map (normalizeCard nfkc) := by
  induction sourceCards with
  | nil =>
      intro seen cards hcards
      cases hcards
      rfl
  | cons card rest ih =>
      intro seen cards hcards
      rw [normalizeCardsFrom] at hcards
      split at hcards
      next => cases hcards
      next =>
      split at hcards
      next => cases hcards
      next =>
      split at hcards
      next => cases hcards
      next =>
        obtain ⟨others, hothers, hcards⟩ := bind_eq_ok.mp hcards
        cases hcards
        rw [List.map_cons, ih hothers]

theorem mem_normalizeCards {nfkc : String → String} {sourceCards : List (SourceCard F)}
    {cards : List (NormalizedCard F)} (hcards : normalizeCards nfkc sourceCards = .ok cards)
    {card : NormalizedCard F} :
    card ∈ cards ↔ ∃ source ∈ sourceCards, normalizeCard nfkc source = card := by
  unfold normalizeCards at hcards
  split at hcards
  next => cases hcards
  next =>
    obtain ⟨unsorted, hunsorted, hcards⟩ := bind_eq_ok.mp hcards
    cases hcards
    rw [sortOn.mem, normalizeCardsFrom_eq hunsorted, List.mem_map]

theorem nodup_normalizeCardsFrom {nfkc : String → String} {sourceCards : List (SourceCard F)} :
    ∀ {seen : List String} {cards : List (NormalizedCard F)},
      normalizeCardsFrom nfkc seen sourceCards = .ok cards →
        (cards.map NormalizedCard.id).Nodup ∧ ∀ id ∈ cards.map NormalizedCard.id, id ∉ seen := by
  induction sourceCards with
  | nil =>
      intro seen cards hcards
      cases hcards
      simp
  | cons card rest ih =>
      intro seen cards hcards
      rw [normalizeCardsFrom] at hcards
      split at hcards
      next => cases hcards
      next =>
      split at hcards
      next => cases hcards
      next hnew =>
      split at hcards
      next => cases hcards
      next =>
        obtain ⟨others, hothers, hcards⟩ := bind_eq_ok.mp hcards
        cases hcards
        obtain ⟨hnodup, hfresh⟩ := ih hothers
        rw [List.contains_iff_mem] at hnew
        refine ⟨List.nodup_cons.mpr ⟨fun hagain => hfresh _ hagain List.mem_cons_self, hnodup⟩, ?_⟩
        intro id hid
        rcases List.mem_cons.mp hid with rfl | hid
        · exact hnew
        · exact fun hseen => hfresh id hid (List.mem_cons_of_mem _ hseen)

theorem nodup_normalizeCards {nfkc : String → String} {sourceCards : List (SourceCard F)}
    {cards : List (NormalizedCard F)} (hcards : normalizeCards nfkc sourceCards = .ok cards) :
    (cards.map NormalizedCard.id).Nodup := by
  unfold normalizeCards at hcards
  split at hcards
  next => cases hcards
  next =>
    obtain ⟨unsorted, hunsorted, hcards⟩ := bind_eq_ok.mp hcards
    cases hcards
    exact ((sortOn.perm _ _ unsorted).map _).nodup_iff.mpr (nodup_normalizeCardsFrom hunsorted).1

/-- How a projection came about: what was normalized, and what is left of it. -/
structure Stages (runtime : Runtime F) (options : Options) (source : IRSource F) (ir : LlmInputIr F)
    (required : List String) (before after : Blocks F) : Prop where
  cards : normalizeCards runtime.nfkc source.cards = .ok before.cards
  safeMode : enforceSafeMode before.cards options.allowUnreviewedText = .ok ()
  evidence : before.evidenceLinks =
    normalizeEvidenceLinks source.evidenceLinks (before.cards.map NormalizedCard.id)
  requiredIds : ∀ id ∈ options.requiredCardIds,
    id ∈ required ∧ id ∈ before.cards.map NormalizedCard.id
  relations : normalizeRelations source.relations (before.cards.map NormalizedCard.id) =
    .ok before.relations
  islands : normalizeIslands source.islands (before.cards.map NormalizedCard.id) =
    .ok before.islands
  reduces : Reduces required before after
  unshortened : ir.truncation.overText = false → ∀ card ∈ after.cards, card ∈ before.cards
  unreduced : ir.truncation.truncated = false → after = before
  shownIslands : ir.islands = after.islands
  shownRelations : ir.relations = after.relations
  shown : ir.cards = after.cards.map NormalizedCard.toIr
  shownEvidence : ir.evidenceLinks = after.evidenceLinks

theorem mem_requiredCards {options : Options} {cardIds : List String}
    {relations : List IrRelation} {required : List String}
    (hrequired : requiredCards options cardIds relations = .ok required) {id : String}
    (hid : id ∈ options.requiredCardIds) : id ∈ required := by
  unfold requiredCards at hrequired
  dsimp only at hrequired
  split at hrequired
  next => cases hrequired
  next =>
  split at hrequired
  next => cases hrequired
  next =>
  split at hrequired
  next => cases hrequired
  next =>
    cases hrequired
    exact mem_distinct.mpr (List.mem_append_left _ hid)

theorem assemble_shows {includeCoordinates : Bool} {info : Meta} {truncation : Truncation}
    {ir : LlmInputIr F}
    (hassemble : assemble runtime includeCoordinates info blocks truncation = .ok ir) :
    ir.cards = blocks.cards.map NormalizedCard.toIr ∧ ir.evidenceLinks = blocks.evidenceLinks ∧
      ir.relations = blocks.relations ∧ ir.islands = blocks.islands ∧
        ir.truncation = truncation := by
  unfold assemble at hassemble
  dsimp only at hassemble
  split at hassemble
  all_goals
    obtain ⟨coordinates, -, hassemble⟩ := bind_eq_ok.mp hassemble
    obtain ⟨-, -, hassemble⟩ := bind_eq_ok.mp hassemble
    cases hassemble
    exact ⟨rfl, rfl, rfl, rfl, rfl⟩

theorem exists_stages {options : Options} {source : IRSource F} {ir : LlmInputIr F}
    (hbuild : buildLlmInputIr runtime options source = .ok ir) :
    ∃ required before after, Stages runtime options source ir required before after := by
  unfold buildLlmInputIr at hbuild
  split at hbuild
  next => cases hbuild
  next =>
  obtain ⟨cards, hcards, hbuild⟩ := bind_eq_ok.mp hbuild
  obtain ⟨⟨⟩, hsafe, hbuild⟩ := bind_eq_ok.mp hbuild
  obtain ⟨-, -, hbuild⟩ := bind_eq_ok.mp hbuild
  dsimp only at hbuild
  split at hbuild
  next => cases hbuild
  next hpresent =>
  obtain ⟨relations, hrelations, hbuild⟩ := bind_eq_ok.mp hbuild
  unfold project at hbuild
  obtain ⟨required, hrequired, hbuild⟩ := bind_eq_ok.mp hbuild
  obtain ⟨islands, hislands, hbuild⟩ := bind_eq_ok.mp hbuild
  obtain ⟨⟨blocks, truncation⟩, hblocks, hbuild⟩ := bind_eq_ok.mp hbuild
  obtain ⟨hshown, hevidence, hshownRelations, hshownIslands, rfl⟩ := assemble_shows hbuild
  obtain ⟨hreduces, hunshortened, hunreduced⟩ := reduces_applyTruncation hblocks
  refine ⟨required, _, blocks, hcards, hsafe, rfl, ?_, hrelations, hislands, hreduces,
    hunshortened, hunreduced, hshownIslands, hshownRelations, hshown, hevidence⟩
  intro id hid
  refine ⟨mem_requiredCards hrequired hid, ?_⟩
  by_contra hmissing
  apply hpresent
  simp only [List.any_eq_true, Bool.not_eq_true', List.contains_eq_mem, decide_eq_false_iff_not]
  exact ⟨id, hid, hmissing⟩

/-- Without a reduction, all that was normalized is shown. -/
theorem exists_of_build_ok {options : Options} {source : IRSource F} {ir : LlmInputIr F}
    (hbuild : buildLlmInputIr runtime options source = .ok ir)
    (htruncated : ir.truncation.truncated = false) :
    (∀ id, id ∈ ir.cards.map IrCard.id ↔ id ∈ source.cards.map SourceCard.id) ∧
      normalizeRelations source.relations (ir.cards.map IrCard.id) = .ok ir.relations ∧
        normalizeIslands source.islands (ir.cards.map IrCard.id) = .ok ir.islands := by
  obtain ⟨required, before, after, hstages⟩ := exists_stages hbuild
  obtain rfl := hstages.unreduced htruncated
  have hids : ir.cards.map IrCard.id = after.cards.map NormalizedCard.id := by
    rw [hstages.shown, List.map_map]
    rfl
  rw [hids, hstages.shownRelations, hstages.shownIslands]
  refine ⟨fun id => ?_, hstages.relations, hstages.islands⟩
  simp only [List.mem_map, mem_normalizeCards hstages.cards]
  constructor
  · rintro ⟨_, ⟨card, hcard, rfl⟩, rfl⟩
    exact ⟨card, hcard, rfl⟩
  · rintro ⟨card, hcard, rfl⟩
    exact ⟨_, ⟨card, hcard, rfl⟩, rfl⟩

theorem normalizeEvidenceLinksFrom_cons (cardIds : List String)
    (seen : List (String × String × String)) (link : SourceEvidenceLink)
    (rest : List SourceEvidenceLink) :
    normalizeEvidenceLinksFrom cardIds seen (link :: rest) =
      if link.type ∉ evidenceTypes then normalizeEvidenceLinksFrom cardIds seen rest
      else if link.fromCardId ∉ cardIds ∨ link.toCardId ∉ cardIds then
        normalizeEvidenceLinksFrom cardIds seen rest
      else if link.key ∈ seen then normalizeEvidenceLinksFrom cardIds seen rest
      else link.toIr :: normalizeEvidenceLinksFrom cardIds (link.key :: seen) rest := rfl

theorem mem_normalizeEvidenceLinksFrom {cardIds : List String} {link : IrEvidenceLink}
    {sourceLinks : List SourceEvidenceLink} :
    ∀ {seen : List (String × String × String)},
      link ∈ normalizeEvidenceLinksFrom cardIds seen sourceLinks ↔
        ∃ source ∈ sourceLinks.find? fun other => decide (other.key = link.key),
          link.key ∉ seen ∧ link.type ∈ evidenceTypes ∧ link.fromCardId ∈ cardIds ∧
            link.toCardId ∈ cardIds ∧ source.toIr = link := by
  induction sourceLinks with
  | nil =>
      intro seen
      simp only [List.find?_nil, Option.mem_def, reduceCtorEq, false_and, exists_false, iff_false]
      exact List.not_mem_nil
  | cons source rest ih =>
      intro seen
      have hkey : ∀ {other : IrEvidenceLink}, source.key = other.key ↔
          source.type = other.type ∧ source.fromCardId = other.fromCardId ∧
            source.toCardId = other.toCardId := by
        intro other
        simp [SourceEvidenceLink.key, IrEvidenceLink.key]
      rw [normalizeEvidenceLinksFrom_cons, List.find?_cons]
      by_cases hsame : source.key = link.key
      · obtain ⟨htype, hfrom, hto⟩ := hkey.mp hsame
        simp only [hsame, decide_true, Option.mem_def, Option.some.injEq, exists_eq_left']
        rw [htype, hfrom, hto]
        split
        next hunknown => simp [ih, hunknown]
        next =>
        split
        next hdangling =>
          rw [ih]
          constructor
          · rintro ⟨_, _, _, _, hfrom, hto, _⟩
            exact absurd hdangling (not_or.mpr ⟨not_not.mpr hfrom, not_not.mpr hto⟩)
          · rintro ⟨_, _, hfrom, hto, _⟩
            exact absurd hdangling (not_or.mpr ⟨not_not.mpr hfrom, not_not.mpr hto⟩)
        next hinside =>
        split
        next hseen => simp [ih, hseen]
        next hnew =>
          rw [not_or, not_not, not_not] at hinside
          rw [List.mem_cons, ih]
          grind
      · simp only [hsame, decide_false]
        split
        · exact ih
        split
        · exact ih
        split
        · exact ih
        · rw [List.mem_cons, ih, List.mem_cons]
          constructor
          · rintro (rfl | ⟨other, hother, hnew, hrest⟩)
            · exact absurd rfl hsame
            · exact ⟨other, hother, fun hmem => hnew (Or.inr hmem), hrest⟩
          · rintro ⟨other, hother, hnew, hrest⟩
            exact Or.inr ⟨other, hother, not_or.mpr ⟨fun heq => hsame heq.symm, hnew⟩, hrest⟩

theorem mem_normalizeEvidenceLinks {cardIds : List String} {link : IrEvidenceLink}
    {sourceLinks : List SourceEvidenceLink} :
    link ∈ normalizeEvidenceLinks sourceLinks cardIds ↔
      ∃ source ∈ sourceLinks.find? fun other => decide (other.key = link.key),
        link.type ∈ evidenceTypes ∧ link.fromCardId ∈ cardIds ∧ link.toCardId ∈ cardIds ∧
          source.toIr = link := by
  rw [normalizeEvidenceLinks, sortOn.mem, mem_normalizeEvidenceLinksFrom]
  simp

end KjAtlas.Ir
