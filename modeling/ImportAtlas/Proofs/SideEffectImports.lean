import ImportAtlas.Proofs.RecordCoherence

/-!
# Imports for their side effects

An import that binds nothing brings nothing that could be passed on.  That this
holds of every file, and not only of files without exports of other modules,
rests on how items are read off a syntax tree: an item that passes on something
of another module has bindings too.
-/

namespace ImportAtlas

open Grammar (SourceTree)

namespace ModuleItem

/-! ## Items of syntax trees -/

def BindsPassedNames (item : ModuleItem) : Prop :=
  ∀ site ∈ item.passingSite?, item.passedNames ≠ [] → site.bindings ≠ []

private theorem Coherent.bindsPassedNames {item : ModuleItem}
    (h : item.Coherent) : item.BindsPassedNames := by
  intro site hsite hnames hbindings
  obtain ⟨name, hname⟩ := List.exists_mem_of_ne_nil _ hnames
  obtain ⟨made, hmade, hsource, -⟩ :=
    exists_passing_export_iff.2 ⟨site, hsite, rfl, hname⟩
  obtain ⟨other, hother, -, htaken⟩ := h.passed made hmade _ hsource
  obtain rfl := Option.mem_unique hsite hother
  simp [hbindings] at htaken

end ModuleItem

/-! ## Files that import a target for its side effects -/

private theorem bindsPassedNames_of_mem_scriptsItems
    {scripts : List (Nat × List SourceTree)} {item : ModuleItem}
    (h : item ∈ scriptsItems scripts) : item.BindsPassedNames :=
  (coherent_of_mem_scriptsItems h).bindsPassedNames

/--
A file is no barrel for a target that it imports for its side effects only,
whatever its scripts import, export and pass on of other modules, and whatever
names the target carries.
-/
theorem side_effect_imports_make_no_barrel {tree : FileTree}
    {resolver : Resolver} {scripts : List (Nat × List SourceTree)}
    {module : FileModule} {target : Path}
    (hmodule : module.Extracted tree resolver (scriptsItems scripts))
    (hbare : ∀ record ∈ module.imports,
      resolver.leadsTo tree module.path record target = true →
      record.isSideEffectOnly = true)
    (carried : Carried) :
    isBarrel tree resolver module target carried = false ∧
      (forwardedNames tree resolver module target carried).names = [] := by
  have hnone :
      (forwardedNames tree resolver module target carried).names = [] := by
    rw [List.eq_nil_iff_forall_not_mem]
    intro name hname
    obtain ⟨-, hexport⟩ := mem_forwardedNames.1 hname
    obtain ⟨item, hitem, made, hmade, hforwards⟩ :=
      hmodule.exists_export_iff.1 hexport
    cases hsource : made.source with
    | some source =>
        have hreaches :
            resolver.reaches tree module.path target source = true := by
          by_contra hfalse
          simp [exportForwards_of_source hsource, hfalse] at hforwards
        obtain ⟨site, hsite, rfl, hpassed⟩ :=
          ModuleItem.exists_passing_export_iff.1 ⟨made, hmade, hsource, rfl⟩
        -- The item that names the target has left an import record, and it has
        -- bindings.
        have hbindings :=
          bindsPassedNames_of_mem_scriptsItems hitem site hsite
            (List.ne_nil_of_mem hpassed)
        obtain ⟨record, hrecord, hleads,
          hsome⟩ := (hmodule.exists_import_iff (p := (· ≠ []))).2
          ⟨site, List.mem_filterMap.2 ⟨item, hitem,
            ModuleItem.mem_site?.2 (.inr hsite)⟩, hreaches, hbindings⟩
        exact hsome (List.isEmpty_iff.1 (hbare record hrecord hleads))
    | none =>
        obtain ⟨-, taken, htaken, binding, hbinding, -⟩ :=
          (mem_exportForwards_of_local hsource).1 hforwards
        obtain ⟨himport, hleads⟩ := List.mem_filter.1 htaken
        have hempty := hbare taken himport hleads
        rw [List.isEmpty_iff.1 hempty] at hbinding
        cases hbinding
  exact ⟨by simp [isBarrel, NameSet.isEmpty, hnone], hnone⟩

def bareText : String :=
  "import './t';\nimport \x7b O \x7d from './o';\nexport \x7b O as P \x7d;\nexport * from './o';"

def bareTree : FileTree :=
  ⟨[("b.ts", .file (some bareText)), ("o.ts", .file (some "")),
    ("t.ts", .file (some ""))]⟩

def bareScripts : List (Nat × List SourceTree) :=
  [(0, (Grammar.readPreamble (Source.Cursor.start bareText.toList)).1)]

def bareModule : FileModule :=
  Corpus.resolveImports bareTree (Resolver.new none)
    (.ofItems ⟨"/b.ts"⟩ (scriptsItems bareScripts))

theorem barrel_of_other_module_only :
    (∃ record ∈ bareModule.imports,
        (Resolver.new none).leadsTo bareTree bareModule.path record
          ⟨"/t.ts"⟩ = true) ∧
      isBarrel bareTree (Resolver.new none) bareModule ⟨"/o.ts"⟩ none = true ∧
      ∀ carried, isBarrel bareTree (Resolver.new none) bareModule ⟨"/t.ts"⟩
        carried = false ∧
        (forwardedNames bareTree (Resolver.new none) bareModule ⟨"/t.ts"⟩
          carried).names = [] := by
  obtain ⟨himport, hother, hbare⟩ :
      (∃ record ∈ bareModule.imports,
          (Resolver.new none).leadsTo bareTree bareModule.path record
            ⟨"/t.ts"⟩ = true) ∧
        isBarrel bareTree (Resolver.new none) bareModule ⟨"/o.ts"⟩ none = true ∧
        ∀ record ∈ bareModule.imports,
          (Resolver.new none).leadsTo bareTree bareModule.path record
            ⟨"/t.ts"⟩ = true →
            record.isSideEffectOnly = true := by
    decide +kernel
  have hmodule :=
    FileModule.extracted_resolveImports bareTree (Resolver.new none) ⟨"/b.ts"⟩
      (scriptsItems bareScripts)
  exact ⟨himport, hother, side_effect_imports_make_no_barrel hmodule hbare⟩

end ImportAtlas
