import TopicLinks.Catalog
import TopicLinks.Proofs.Batch.Interference

/-!
# What is offered as a download

Offering an archive reads an asset, marks it, and writes it back, while other walks may do the
same. Marking twice is marking once, and nothing else is written, so no mark is lost and no other
asset is touched: in the end exactly the archives of the tutorials are downloads, in whichever
order and however interleaved the pages were resolved.
-/

namespace TopicLinks

variable {σ α : Type}

/-- An asset that is offered as a download. -/
def Asset.offered (asset : Asset) : Asset := { asset with use := .download }

@[simp] theorem Asset.offered_offered (asset : Asset) : asset.offered.offered = asset.offered := rfl

/-- A query that reads or writes an asset. -/
def Query.isAboutAsset : Query → Bool
  | .findAsset _ _ => true
  | .updateAsset _ _ _ => true
  | _ => false

/-- The knowledge base keeps its assets in a store with one entry for each name, whatever the root
is. A name is looked up in the store, an entry that exists is overwritten by an update of its name,
and nothing else changes the store. -/
structure KnowledgeBase.StoresAssets (kb : KnowledgeBase σ) (store : σ → String → Option Asset) :
    Prop where
  /-- An asset is found in the store. -/
  found : ∀ name root state, (kb.answer (.findAsset name root) state).1 = store state name
  /-- An update of an entry that exists overwrites this entry and no other one. -/
  updated : ∀ name asset root state, (store state name).isSome → ∀ other,
    store (kb.answer (.updateAsset name asset root) state).2 other =
      if other = name then some asset else store state other
  /-- Nothing but an update changes the store. -/
  kept : ∀ q state, (∀ name asset root, q ≠ .updateAsset name asset root) →
    store (kb.answer q state).2 = store state

theorem Catalog.storesAssets :
    knowledge.StoresAssets fun catalog name => Assoc.get? catalog.assets name where
  found name root catalog := rfl
  updated name asset root catalog _ other := Assoc.get?_set catalog.assets name other asset
  kept q catalog h := by
    cases q with
    | updateAsset name asset root => exact absurd rfl (h name asset root)
    | _ => rfl

/-- The changes of a store that offer some archives: an asset stays as it is, or it is offered and
has one of the names. -/
def Rely.offering (store : σ → String → Option Asset) (names : List String) : Rely σ where
  Allows s t := ∀ name, store t name = store s name ∨
    name ∈ names ∧ store t name = (store s name).map Asset.offered
  refl s name := Or.inl rfl
  trans {s t u} hst htu name := by
    rcases htu name with hlast | ⟨hname, hlast⟩
    · rw [hlast]
      exact hst name
    · refine Or.inr ⟨hname, ?_⟩
      rcases hst name with hfirst | ⟨-, hfirst⟩
      · rw [hlast, hfirst]
      · rw [hlast, hfirst, Option.map_map]
        rfl

/-- Once it is offered, an asset is the same before and after such changes. -/
theorem Rely.map_offered_of_allows {store : σ → String → Option Asset} {names : List String}
    {s t : σ} (h : (Rely.offering store names).Allows s t) (name : String) :
    (store t name).map Asset.offered = (store s name).map Asset.offered := by
  rcases h name with hsame | ⟨-, hoffered⟩
  · rw [hsame]
  · rw [hoffered, Option.map_map]
    rfl

/-- The archive that a page offers. Only a tutorial has one, whether or not the file exists or is
on the web. -/
def PageContent.archive? : PageContent → Option String
  | .tutorial t => t.projectFiles.map (·.resource.path)
  | _ => none

/-- No asset is read or written when an occurrence is settled. -/
theorem Viewpoint.asks_settle_isAboutAsset (v : Viewpoint) (occurrence : Occurrence) :
    (v.settle occurrence).Asks (·.isAboutAsset = false) := by
  refine (v.asks_settle occurrence).mono fun q hq => ?_
  rcases hq with rfl | hlookup
  · rfl
  · cases q with
    | findAsset name root => exact absurd hlookup id
    | updateAsset name asset root => exact absurd hlookup id
    | _ => rfl

namespace KnowledgeBase.StoresAssets

variable {kb : KnowledgeBase σ} {store : σ → String → Option Asset} {names : List String}
  {begun s : σ} {name : String}

/-- A query that is not about assets leaves the store as it is. -/
theorem allows_of_not_isAboutAsset (hkb : kb.StoresAssets store) {q : Query}
    (hq : q.isAboutAsset = false) (t : σ) :
    (Rely.offering store names).Allows t (kb.answer q t).2 := by
  have hkept := hkb.kept q t fun name asset root heq => by
    rw [heq] at hq
    cases hq
  exact fun name => Or.inl (congrFun hkept name)

/-- After an update that offers an asset, the asset is offered for good. -/
theorem guarantees_update (hkb : kb.StoresAssets store) (hname : name ∈ names) {asset : Asset}
    (root : Identity) (hasset : (store s name).map Asset.offered = some asset.offered) :
    (Dialogue.query (.updateAsset name asset.offered root)).Guarantees kb
      (Rely.offering store names) (fun t => store t name = some asset.offered) s := by
  intro t ht
  have hfound : (store t name).map Asset.offered = some asset.offered :=
    (Rely.map_offered_of_allows ht name).trans hasset
  have hsome : (store t name).isSome := by
    rw [← Option.isSome_map, hfound]
    rfl
  have hupdated := hkb.updated name asset.offered root t hsome
  refine ⟨fun other => ?_, fun u hu => ?_⟩
  · by_cases hother : other = name
    · rw [hupdated, if_pos hother, hother, hfound]
      exact Or.inr ⟨hname, rfl⟩
    · rw [hupdated, if_neg hother]
      exact Or.inl rfl
  · have hwritten := hupdated name
    rw [if_pos rfl] at hwritten
    rcases hu name with hsame | ⟨-, hagain⟩
    · exact hsame.trans hwritten
    · exact hagain.trans (congrArg (Option.map Asset.offered) hwritten)

/-- The offer of an archive guarantees that its asset is a download from then on, if there is such
an asset. What was found may be offered by others before it is written back. -/
theorem guarantees_offerDownload (hkb : kb.StoresAssets store) (hname : name ∈ names) :
    (Viewpoint.offerDownload name).Guarantees kb (Rely.offering store names)
      (fun t => store t name = (store s name).map Asset.offered) s := by
  have hroot : (Dialogue.query (.root .bundle)).Asks (·.isAboutAsset = false) :=
    ⟨rfl, fun _ => trivial⟩
  refine Dialogue.guarantees_bind hroot (fun q hq t => hkb.allows_of_not_isAboutAsset hq t)
    fun root t ht => ?_
  intro u hu
  have hkept : store (kb.answer (.findAsset name root) u).2 = store u :=
    hkb.kept _ u fun _ _ _ => Query.noConfusion
  have hoffered : (store u name).map Asset.offered = (store s name).map Asset.offered :=
    Rely.map_offered_of_allows ((Rely.offering store names).trans ht hu) name
  refine ⟨fun other => Or.inl (congrFun hkept other), ?_⟩
  rw [hkb.found, ← hoffered]
  cases hasset : store u name with
  | none =>
    intro w hw
    have hnone := Rely.map_offered_of_allows hw name
    rw [hkept, hasset, Option.map_none, Option.map_eq_none_iff] at hnone
    exact hnone
  | some asset =>
    refine hkb.guarantees_update hname root ?_
    rw [hkept, hasset, Option.map_some]

/-- What a page offers, if anything, is offered from then on. -/
theorem guarantees_offer (hkb : kb.StoresAssets store) {content : PageContent}
    (hnames : ∀ name, content.archive? = some name → name ∈ names) :
    content.offer.Guarantees kb (Rely.offering store names)
      (fun t => ∀ name, content.archive? = some name →
        store t name = (store s name).map Asset.offered) s := by
  cases content with
  | tutorial t =>
    cases hfiles : t.projectFiles with
    | none =>
      simp only [PageContent.offer, PageContent.archive?, hfiles]
      exact fun t _ name hname => absurd hname (Option.some_ne_none name).symm
    | some archive =>
      simp only [PageContent.offer, PageContent.archive?, hfiles, Option.map_some] at hnames ⊢
      refine (hkb.guarantees_offerDownload (hnames _ rfl)).mono fun t ht name hname => ?_
      exact Option.some.inj hname ▸ ht
  | _ => exact fun t _ name hname => absurd hname (Option.some_ne_none name).symm

/-- A page in declared languages makes no other change than the offer of its archive, and
guarantees that its archive is offered. -/
theorem guarantees_resolvePage (hkb : kb.StoresAssets store) (settings : Settings) {page : Page}
    (hdeclared : page.content.IsDeclared)
    (hnames : ∀ name, page.content.archive? = some name → name ∈ names)
    (hbegun : (Rely.offering store names).Allows begun s) :
    (Walker.resolvePage settings page).Guarantees kb (Rely.offering store names)
      (fun t => ∀ name, page.content.archive? = some name →
        store t name = (store begun name).map Asset.offered) s := by
  obtain ⟨rebuild, hrebuild⟩ := page.exists_rebuild hdeclared
  intro t ht
  have hroot : (Rely.offering store names).Allows t (kb.answer (.root .documentation) t).2 :=
    hkb.allows_of_not_isAboutAsset rfl t
  refine ⟨hroot, ?_⟩
  change (page.resolve settings).Guarantees kb _ _ _
  rw [hrebuild settings]
  refine Dialogue.guarantees_bind
    (Dialogue.asks_each fun occurrence _ => Viewpoint.asks_settle_isAboutAsset _ occurrence)
    (fun q hq u => hkb.allows_of_not_isAboutAsset hq u) fun settled u hu => ?_
  have hallows := (Rely.offering store names).trans hbegun ((Rely.offering store names).trans ht
    ((Rely.offering store names).trans hroot hu))
  refine (hkb.guarantees_offer hnames).mono (fun w hw name hname => ?_) |>.map _
  exact (hw name hname).trans (Rely.map_offered_of_allows hallows name)

/-- If all archives are offered in the end, then exactly they are, and the store is the same
besides. -/
theorem eq_map_of_allows {t : σ} (hallows : (Rely.offering store names).Allows s t)
    (hall : ∀ name ∈ names, store t name = (store s name).map Asset.offered) (name : String) :
    store t name = (store s name).map fun asset =>
      if name ∈ names then asset.offered else asset := by
  by_cases hname : name ∈ names
  · simp only [if_pos hname]
    exact hall name hname
  · simp only [if_neg hname, Option.map_id']
    rcases hallows name with hsame | ⟨hmem, -⟩
    · exact hsame
    · exact absurd hmem hname

end KnowledgeBase.StoresAssets

/-- One way to resolve pages: a page by itself, or a batch by some workers. -/
inductive Work where
  /-- A page is resolved by itself. -/
  | single (settings : Settings) (page : Page)
  /-- A batch is resolved by at least one worker, under some schedule. -/
  | batch (settings : Settings) (pages : List Page) (workers : Nat) (hworkers : 0 < workers)
    (schedule : List Nat)

namespace Work

/-- The pages that are resolved. -/
def pages : Work → List Page
  | .single _ page => [page]
  | .batch _ pages _ _ _ => pages

/-- The state of the knowledge base afterwards. -/
def after (kb : KnowledgeBase σ) (state : σ) : Work → σ
  | .single settings page => ((Walker.resolvePage settings page).run kb state).state
  | .batch settings pages workers _ schedule =>
    (Batch.resolve settings kb pages workers schedule state).knowledge

/-- Nothing breaks down. -/
def Completes (kb : KnowledgeBase σ) (state : σ) : Work → Prop
  | .single settings page =>
    ((Walker.resolvePage settings page).run kb state).result.stopped = none
  | .batch settings pages workers _ schedule =>
    ∃ results, (Batch.resolve settings kb pages workers schedule state).outcome = .resolved results

/-- The state of the knowledge base after some works, one after the other. -/
def afterAll (kb : KnowledgeBase σ) (state : σ) (works : List Work) : σ :=
  works.foldl (after kb) state

/-- Nothing breaks down in some works, one after the other. -/
def AllComplete (kb : KnowledgeBase σ) : σ → List Work → Prop
  | _, [] => True
  | state, work :: rest => work.Completes kb state ∧ AllComplete kb (work.after kb state) rest

/-- The archives of all pages that are resolved. -/
def archives (works : List Work) : List String :=
  (works.flatMap pages).filterMap (·.content.archive?)

variable {kb : KnowledgeBase σ} {store : σ → String → Option Asset} {state : σ}

theorem mem_archives {work : Work} {page : Page} (hpage : page ∈ work.pages) {name : String}
    (hname : page.content.archive? = some name) : name ∈ archives [work] := by
  rw [archives, List.flatMap_singleton]
  exact List.mem_filterMap.mpr ⟨page, hpage, hname⟩

/-- A page that is resolved without breaking down is in declared languages. -/
theorem Completes.isDeclared {work : Work} (h : work.Completes kb state) :
    ∀ page ∈ work.pages, page.content.IsDeclared := by
  have hdeclared : ∀ settings page,
      ((Walker.resolvePage settings page).run kb state).result.stopped = none →
        page.content.IsDeclared :=
    fun settings page => ((Walker.returns_resolvePage settings page).run kb state).mp
  cases work with
  | single settings page => exact List.forall_mem_singleton.mpr (hdeclared settings page h)
  | batch settings pages workers hworkers schedule =>
    intro page hpage
    have hnone := List.countP_eq_zero.mp ((Batch.exists_resolved_iff hworkers schedule state).mp h)
    refine hdeclared settings page ?_
    rw [← Option.not_isSome_iff_eq_none]
    exact hnone page hpage

/-- A work offers the archives of its pages and changes nothing else: a batch does what a page by
itself does, for its pages rely on nothing that they do not keep. -/
theorem store_after (hkb : kb.StoresAssets store) {work : Work} (h : work.Completes kb state)
    (name : String) :
    store (work.after kb state) name = (store state name).map fun asset =>
      if name ∈ archives [work] then asset.offered else asset := by
  have hwalk : ∀ settings, ∀ page ∈ work.pages, ∀ t,
      (Rely.offering store (archives [work])).Allows state t →
        (Walker.resolvePage settings page).Guarantees kb (Rely.offering store (archives [work]))
          (fun t => ∀ name, page.content.archive? = some name →
            store t name = (store state name).map Asset.offered) t :=
    fun settings page hpage t ht => hkb.guarantees_resolvePage settings (h.isDeclared page hpage)
      (fun name hname => mem_archives hpage hname) ht
  have hafter : (Rely.offering store (archives [work])).Allows state (work.after kb state) ∧
      ∀ page ∈ work.pages, ∀ name, page.content.archive? = some name →
        store (work.after kb state) name = (store state name).map Asset.offered := by
    cases work with
    | single settings page =>
      have hpage := hwalk settings page List.mem_cons_self state (Rely.refl _ state)
      exact hpage.run.imp_right List.forall_mem_singleton.mpr
    | batch settings pages workers hworkers schedule =>
      exact Batch.guarantees_resolve hworkers (hwalk settings) h
  refine KnowledgeBase.StoresAssets.eq_map_of_allows hafter.1 (fun name hname => ?_) name
  rw [archives, List.flatMap_singleton] at hname
  obtain ⟨page, hpage, harchive⟩ := List.mem_filterMap.mp hname
  exact hafter.2 page hpage name harchive

/-- Several works offer the archives of all their pages. The induction is on the works; what one
of them leaves behind is where the next one begins. -/
theorem store_afterAll (hkb : kb.StoresAssets store) {works : List Work}
    (h : AllComplete kb state works) (name : String) :
    store (afterAll kb state works) name = (store state name).map fun asset =>
      if name ∈ archives works then asset.offered else asset := by
  induction works generalizing state with
  | nil => simp [afterAll, archives]
  | cons work rest ih =>
    obtain ⟨hfirst, hrest⟩ := h
    have harchives : archives (work :: rest) = archives [work] ++ archives rest := by
      simp only [archives, List.flatMap_cons, List.flatMap_nil, List.append_nil,
        List.filterMap_append]
    change store (afterAll kb (work.after kb state) rest) name = _
    rw [ih hrest, store_after hkb hfirst, Option.map_map, harchives]
    congr 1
    funext asset
    by_cases hnow : name ∈ archives [work]
    · by_cases hlater : name ∈ archives rest
      · simp [hnow, hlater]
      · simp [hnow, hlater]
    · simp [hnow]

/-- If assets are kept in a store by their names, then resolving pages offers exactly the archives
of the tutorials among them. Pages are resolved by themselves or in batches, any number of times,
in any order and however interleaved; nothing has to be known of the other answers. The final store
has the names, the files and the entries of the initial one. An asset whose name is the archive of
a page is a download, whether or not the archive exists as a resource or is on the web, and every
other asset is used as before. Works with the same archives leave the same store behind. -/
theorem offers_exactly (hkb : kb.StoresAssets store) {works : List Work}
    (h : AllComplete kb state works) :
    (∀ name, store (afterAll kb state works) name = (store state name).map fun asset =>
      if name ∈ archives works then { asset with use := .download } else asset) ∧
    ∀ works', AllComplete kb state works' →
      (∀ name, name ∈ archives works' ↔ name ∈ archives works) →
        store (afterAll kb state works') = store (afterAll kb state works) := by
  refine ⟨store_afterAll hkb h, fun works' h' hsame => funext fun name => ?_⟩
  rw [store_afterAll hkb h', store_afterAll hkb h]
  simp only [hsame name]

/-- Two workers resolve two tutorials that offer one archive, and read its asset both before either
writes it back; later one of the tutorials is resolved again. The archive does not exist as a
resource, but its asset is a download in the end, and another asset is not. -/
theorem offers_exactly_interleaved :
    let archive : Asset := ⟨"Kit.zip", .display, ["Kit.zip", "Kit~dark.zip"]⟩
    let picture : Asset := ⟨"logo.png", .display, ["logo.png"]⟩
    let catalog : Catalog := { assets := [("Kit.zip", archive), ("logo.png", picture)] }
    let works : List Work := [
      .batch {} [Batch.offeringPage, Batch.offeringPage] 2 (by decide)
        ((List.range 30).map (· % 2)),
      .single {} Batch.offeringPage]
    let final := afterAll Catalog.knowledge catalog works
    AllComplete Catalog.knowledge catalog works ∧
      Assoc.get? final.assets "Kit.zip" = some { archive with use := .download } ∧
      Assoc.get? final.assets "logo.png" = some picture := by
  intro archive picture catalog works final
  have hcomplete : AllComplete Catalog.knowledge catalog works := by
    refine ⟨(Batch.exists_resolved_iff (by decide) _ _).mpr ?_, ?_, trivial⟩
    · decide +kernel
    · exact ((Walker.returns_resolvePage {} Batch.offeringPage).run Catalog.knowledge _).mpr trivial
  have hstore := (offers_exactly Catalog.storesAssets hcomplete).1
  exact ⟨hcomplete, (hstore "Kit.zip").trans (by decide +kernel),
    (hstore "logo.png").trans (by decide +kernel)⟩

end Work

end TopicLinks
