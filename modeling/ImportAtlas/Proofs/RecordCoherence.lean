import ImportAtlas.Proofs.ForwardedItems
import ImportAtlas.Proofs.TreePlaces

/-!
# Coherence of records

Imports and exports are read off syntax trees in several places, each with its
own way to find the names and to choose the kind.  The records of all of them
fit together: the kind of an import is that of its bindings, and an export that
names its module stands beside an import of what it passes on.  Imports as well
as exports stand in the order of the items that they are made from.
-/

namespace ImportAtlas

open Grammar (SourceTree)

/-! ## Kinds of bindings -/

theorem ImportKind.ofBindings_eq_whole {bindings : List Binding} :
    ofBindings bindings = .whole ↔
      ∃ binding ∈ bindings, binding.imported = wholeName := by
  unfold ofBindings
  split
  · rename_i hwhole
    simpa [Binding.isWhole] using hwhole
  · rename_i hother
    have hnone : ¬∃ binding ∈ bindings, binding.imported = wholeName := by
      simpa [Binding.isWhole] using hother
    split <;> simp [hnone]

private theorem ImportKind.ofBindings_defaultAs (localName : Option String) :
    ofBindings (localName.map Binding.defaultAs).toList = .standard := by
  cases localName <;> rfl

/-! ## Items of syntax trees -/

namespace ModuleItem

/-- What an item of a syntax tree guarantees to the records that are made from
it. -/
structure Coherent (item : ModuleItem) : Prop where
  kind : ∀ site ∈ item.site?, site.kind = .ofBindings site.bindings
  lazily : ∀ site, item = .lazyImport site → site.kind = .standard
  passed : ∀ made ∈ item.exports, ∀ source, made.source = some source →
    ∃ site ∈ item.passingSite?, site.specifier = source ∧
      made.localName ∈ site.bindings.map Binding.imported

theorem coherent_of_not_passing {item : ModuleItem}
    (hpassing : item.passingSite? = none)
    (hkind : ∀ site ∈ item.bindingSite?, site.kind = .ofBindings site.bindings)
    (hlazy : ∀ site, item = .lazyImport site → site.kind = .standard) :
    item.Coherent where
  kind site hsite := by
    rcases mem_site?.1 hsite with hsite | hsite
    · exact hkind site hsite
    · rw [hpassing] at hsite
      cases hsite
  lazily := hlazy
  passed made hmade source hsource := by
    obtain ⟨site, hsite, -⟩ :=
      exists_passing_export_iff.1 ⟨made, hmade, hsource, rfl⟩
    rw [hpassing] at hsite
    cases hsite

private theorem coherent_of_no_site {item : ModuleItem}
    (hpassing : item.passingSite? = none)
    (hbinding : item.bindingSite? = none) : item.Coherent := by
  refine coherent_of_not_passing hpassing (by simp [hbinding]) ?_
  rintro site rfl
  cases hbinding

theorem no_site_of_import?_eq_none {item : ModuleItem}
    (h : item.import? = none) :
    item.passingSite? = none ∧ item.bindingSite? = none := by
  cases item <;> cases h <;> exact ⟨rfl, rfl⟩

private theorem coherent_staticImport? {lineOffset : Nat} {tree : SourceTree}
    {item : ModuleItem} (h : staticImport? lineOffset tree = some item) :
    item.Coherent := by
  obtain ⟨specifier, -, rfl⟩ := Option.map_eq_some_iff.1 h
  exact coherent_of_not_passing rfl (by simp [bindingSite?, siteAt]) (by simp)

private theorem coherent_passedOn (lineOffset : Nat) (tree : SourceTree)
    (specifier : String) :
    (passedOn lineOffset tree specifier).Coherent := by
  unfold passedOn
  cases tree.childOfKind? .exportClause with
  | some clause =>
      constructor
      case kind =>
        rintro site ⟨⟩
        rfl
      case lazily => simp
      case passed =>
        intro made hmade source hsource
        obtain ⟨⟨name, exported⟩, hname, rfl⟩ := List.mem_map.1 hmade
        refine ⟨_, rfl, Option.some.inj hsource, ?_⟩
        simp only [siteAt, List.map_map, List.mem_map]
        exact ⟨(name, exported), hname, rfl⟩
  | none =>
      constructor
      case kind =>
        rintro site ⟨⟩
        exact (ImportKind.ofBindings_eq_whole.2 ⟨_, List.mem_singleton_self _,
          rfl⟩).symm
      case lazily => simp
      case passed =>
        intro made hmade source hsource
        obtain rfl := List.mem_singleton.1 hmade
        exact ⟨_, rfl, Option.some.inj hsource, List.mem_singleton_self _⟩

private theorem coherent_export? {lineOffset : Nat} {tree : SourceTree}
    {item : ModuleItem} (h : export? lineOffset tree = some item) :
    item.Coherent := by
  rcases passedOn_or_import?_eq_none h with ⟨specifier, -, rfl⟩ | hnone
  · exact coherent_passedOn lineOffset tree specifier
  · obtain ⟨hpassing, hbinding⟩ := no_site_of_import?_eq_none hnone
    exact coherent_of_no_site hpassing hbinding

private theorem coherent_call? {lineOffset : Nat} {call : SourceTree}
    {above : List SourceTree} {item : ModuleItem}
    (h : call? lineOffset call above = some item) : item.Coherent := by
  obtain ⟨specifier, -, hreading⟩ := callReading_of_call? h
  cases hreading with
  | lazily =>
      refine coherent_of_not_passing rfl
        (by simp [bindingSite?, siteAt, ImportKind.ofBindings_defaultAs]) ?_
      rintro site ⟨⟩
      rfl
  | dynamically =>
    exact coherent_of_not_passing rfl (by simp [bindingSite?, siteAt]) (by simp)
  | required =>
    exact coherent_of_not_passing rfl (by simp [bindingSite?, siteAt]) (by simp)

private theorem coherent_own? {lineOffset : Nat} {tree : SourceTree}
    {above : List SourceTree} {item : ModuleItem}
    (h : own? lineOffset tree above = some item) : item.Coherent := by
  unfold own? at h
  split at h
  · exact coherent_staticImport? h
  · exact coherent_export? h
  · exact coherent_call? h
  · cases h

theorem mem_site?_of_import? {item : ModuleItem} {made : ImportRecord}
    (h : item.import? = some made) :
    ∃ site ∈ item.site?, made = record made.style site ∧
      (made.style = .lazy → item = .lazyImport site) := by
  cases item <;> cases h <;> exact ⟨_, rfl, rfl, by simp [record]⟩

private theorem import?_of_mem_passingSite? {item : ModuleItem}
    {site : ImportSite} (h : site ∈ item.passingSite?) :
    item.import? = some (record .static site) := by
  cases item <;> cases h <;> rfl

end ModuleItem

def scriptsItems (scripts : List (Nat × List SourceTree)) : List ModuleItem :=
  scripts.flatMap fun script => ModuleItem.ofTrees script.1 [] script.2

theorem mem_scriptsItems_iff {scripts : List (Nat × List SourceTree)}
    {item : ModuleItem} :
    item ∈ scriptsItems scripts ↔
      ∃ script ∈ scripts, ∃ tree above, SourceTree.Under script.2 tree above ∧
        ModuleItem.own? script.1 tree above = some item := by
  simp only [scriptsItems, List.mem_flatMap, ModuleItem.mem_ofTrees_iff,
    List.append_nil]

theorem coherent_of_mem_scriptsItems {scripts : List (Nat × List SourceTree)}
    {item : ModuleItem} (h : item ∈ scriptsItems scripts) : item.Coherent := by
  obtain ⟨script, -, tree, above, -, hown⟩ := mem_scriptsItems_iff.1 h
  exact ModuleItem.coherent_own? hown

/-! ## Records in the order of items -/

section Order

variable {α β : Type}

/--
The records are those that the items make, in the order of the items: each has
the number of its item, the numbers never go down, and those with the number of
an item are all that it makes.
-/
def MadeInOrder (make : α → List β) (items : List α) (records : List β) :
    Prop :=
  ∃ origins : List (Nat × β), origins.map Prod.snd = records ∧
    (origins.map Prod.fst).Pairwise (· ≤ ·) ∧
    ∀ number, (origins.filter fun origin => origin.1 = number).map Prod.snd =
      (items[number]?.map make).getD []

def numbered (make : α → List β) : Nat → List α → List (Nat × β)
  | _, [] => []
  | number, item :: items =>
    (make item).map (Prod.mk number) ++ numbered make (number + 1) items

private theorem map_snd_numbered (make : α → List β) (number : Nat)
    (items : List α) :
    (numbered make number items).map Prod.snd = items.flatMap make := by
  induction items generalizing number with
  | nil => rfl
  | cons item items ih => simp [numbered, ih, Function.comp_def]

theorem le_of_mem_numbered {make : α → List β} {number : Nat} {items : List α}
    {origin : Nat × β} (h : origin ∈ numbered make number items) :
    number ≤ origin.1 := by
  induction items generalizing number with
  | nil => cases h
  | cons item items ih =>
      rcases List.mem_append.1 h with h | h
      · obtain ⟨_, -, rfl⟩ := List.mem_map.1 h
        exact Nat.le_refl _
      · exact Nat.le_of_succ_le (ih h)

private theorem pairwise_numbered (make : α → List β) (number : Nat)
    (items : List α) :
    ((numbered make number items).map Prod.fst).Pairwise (· ≤ ·) := by
  rw [List.pairwise_map]
  induction items generalizing number with
  | nil => exact .nil
  | cons item items ih =>
      refine List.pairwise_append.2 ⟨?_, ih (number + 1), ?_⟩
      · simp [List.pairwise_map, List.pairwise_of_forall]
      · intro first hfirst second hsecond
        obtain ⟨_, -, rfl⟩ := List.mem_map.1 hfirst
        exact Nat.le_of_succ_le (le_of_mem_numbered hsecond)

private theorem filter_numbered (make : α → List β) (start number : Nat)
    (items : List α) :
    ((numbered make start items).filter fun origin =>
      origin.1 = start + number).map Prod.snd =
      (items[number]?.map make).getD [] := by
  induction items generalizing start number with
  | nil => rfl
  | cons item items ih =>
      rw [numbered, List.filter_append, List.map_append, List.filter_map,
        List.map_map]
      cases number with
      | zero =>
          -- All that comes later has a higher number.
          have hlater : (numbered make (start + 1) items).filter
              (fun origin => origin.1 = start + 0) = [] := by
            refine List.filter_eq_nil_iff.2 fun origin horigin => ?_
            have := le_of_mem_numbered horigin
            simp only [decide_eq_true_eq]
            omega
          rw [hlater]
          simp [Function.comp_def]
      | succ number =>
          have hnumber : start + (number + 1) = start + 1 + number := by omega
          rw [hnumber, ih]
          simp [Function.comp_def, Nat.add_assoc]

theorem madeInOrder_flatMap (make : α → List β) (items : List α) :
    MadeInOrder make items (items.flatMap make) := by
  refine ⟨numbered make 0 items, map_snd_numbered make 0 items,
    pairwise_numbered make 0 items, fun number => ?_⟩
  simpa using filter_numbered make 0 number items

end Order

/-! ## Records of a file -/

structure FileModule.Coherent (module : FileModule) : Prop where
  whole : ∀ record ∈ module.imports,
    (record.kind = .whole ↔
      ∃ binding ∈ record.bindings, binding.imported = wholeName)
  bindsWhole : ∀ record ∈ module.imports, (record.bindsWhole = true ↔
    record.kind = .whole)
  bare : ∀ record ∈ module.imports, record.bindings = [] →
    record.kind = .standard
  lazily : ∀ record ∈ module.imports, record.style = .lazy →
    record.kind = .standard
  /-- What an export takes from a module that it names, a static import takes
  from there too. -/
  passed : ∀ made ∈ module.exports, ∀ source, made.source = some source →
    ∃ record ∈ module.imports, record.style = .static ∧
      record.specifier = source ∧
      made.localName ∈ record.importedNames

private theorem FileModule.coherent_ofItems {items : List ModuleItem}
    (hitems : ∀ item ∈ items, item.Coherent) (path : Path) :
    (FileModule.ofItems path items).Coherent := by
  have hkind : ∀ record ∈ (FileModule.ofItems path items).imports,
      record.kind = .ofBindings record.bindings ∧
      (record.style = .lazy → record.kind = .standard) := by
    intro made hmade
    obtain ⟨item, hitem, himport⟩ := List.mem_filterMap.1 hmade
    obtain ⟨site, hsite, hrecord, hlazy⟩ :=
      ModuleItem.mem_site?_of_import? himport
    have hcoherent := hitems item hitem
    rw [hrecord]
    exact ⟨hcoherent.kind site hsite, fun hstyle =>
      hcoherent.lazily site (hlazy hstyle)⟩
  have hwhole : ∀ record ∈ (FileModule.ofItems path items).imports,
      (record.kind = .whole ↔
        ∃ binding ∈ record.bindings, binding.imported = wholeName) := by
    intro record hrecord
    rw [(hkind record hrecord).1, ImportKind.ofBindings_eq_whole]
  constructor
  case whole => exact hwhole
  case bindsWhole =>
    intro record hrecord
    have hany : record.bindings.any Binding.isWhole = true ↔
        record.kind = .whole := by
      rw [hwhole record hrecord]
      simp [Binding.isWhole]
    rw [ImportRecord.bindsWhole, Bool.or_eq_true, hany, beq_iff_eq, or_self]
  case bare =>
    intro record hrecord hbare
    rw [(hkind record hrecord).1, hbare]
    rfl
  case lazily => exact fun record hrecord => (hkind record hrecord).2
  case passed =>
    intro made hmade source hsource
    obtain ⟨item, hitem, hexport⟩ := List.mem_flatMap.1 hmade
    obtain ⟨site, hsite, hspecifier, hname⟩ :=
      (hitems item hitem).passed made hexport source hsource
    exact ⟨_, List.mem_filterMap.2 ⟨item, hitem,
      ModuleItem.import?_of_mem_passingSite? hsite⟩, rfl, hspecifier, hname⟩

/--
Whatever the syntax trees of a file are, its records fit together, and its
imports and its exports stand in the order of the items that make them.
-/
theorem records_of_scripts_fit_together (scripts : List (Nat × List SourceTree))
    (path : Path) :
    (FileModule.ofItems path (scriptsItems scripts)).Coherent ∧
      MadeInOrder (fun item => item.import?.toList) (scriptsItems scripts)
        (FileModule.ofItems path (scriptsItems scripts)).imports ∧
      MadeInOrder ModuleItem.exports (scriptsItems scripts)
        (FileModule.ofItems path (scriptsItems scripts)).exports := by
  refine ⟨FileModule.coherent_ofItems (fun _ => coherent_of_mem_scriptsItems)
    path, ?_, madeInOrder_flatMap _ _⟩
  rw [FileModule.ofItems, List.filterMap_eq_flatMap_toList]
  exact madeInOrder_flatMap _ _

end ImportAtlas
