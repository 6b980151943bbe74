import ImportAtlas.Proofs.MarkupColumns
import ImportAtlas.Proofs.RecordCoherence

/-!
# Kinds of exports

An export is written in one of five forms.  The default export has a kind of
its own, and a list of names gives each name the kind that belongs to it.
Declarations and exports of a whole module are called named whatever the name
is.  Kinds and names therefore agree in a file exactly if neither of these two
forms exports the name of the default value.
-/

namespace ImportAtlas

open Grammar (SourceTree)
open ModuleItem (clauseNames declaredNames defaultLocalName? export? own?
  stringValue? wholeNewName?)

inductive ExportForm where
  | declaration
  | clause
  | standard
  | passedNames
  /-- Another module as a whole, under a new name or not. -/
  | passedWhole
  deriving DecidableEq, Repr

def ExportForm.tellsDefault : ExportForm → Bool
  | .clause | .standard | .passedNames => true
  | .declaration | .passedWhole => false

private theorem ExportKind.ofName_eq_standard {exported : String} :
    ofName exported = .standard ↔ exported = defaultName := by
  simp [ofName]

/-! ## Single statements -/

def passedSpecifier? (statement : SourceTree) : Option String :=
  (statement.child? .source).bind stringValue?

def hasDefaultWord (statement : SourceTree) : Bool :=
  statement.children.any fun child => child.kind = .defaultWord

/-- What a statement exports, and in which form. -/
inductive Exports (statement : SourceTree) : ExportForm → ExportRecord → Prop
  | passedNames {specifier name exported : String} {clause : SourceTree}
      (hsource : passedSpecifier? statement = some specifier)
      (hclause : statement.childOfKind? .exportClause = some clause)
      (hname : (name, exported) ∈ clauseNames clause) :
      Exports statement .passedNames ⟨exported, name, .ofName exported,
        some specifier⟩
  | passedWhole {specifier : String}
      (hsource : passedSpecifier? statement = some specifier)
      (hclause : statement.childOfKind? .exportClause = none) :
      Exports statement .passedWhole
        ⟨(wholeNewName? statement).getD wholeName, wholeName, .named,
          some specifier⟩
  | standard (hsource : passedSpecifier? statement = none)
      (hword : hasDefaultWord statement = true) :
      Exports statement .standard ⟨defaultName,
        (defaultLocalName? statement).getD defaultName, .standard, none⟩
  | clause {name exported : String} {clause : SourceTree}
      (hsource : passedSpecifier? statement = none)
      (hword : hasDefaultWord statement = false)
      (hclause : statement.childOfKind? .exportClause = some clause)
      (hname : (name, exported) ∈ clauseNames clause) :
      Exports statement .clause ⟨exported, name, .ofName exported, none⟩
  | declaration {name : String} {declaration : SourceTree}
      (hsource : passedSpecifier? statement = none)
      (hword : hasDefaultWord statement = false)
      (hclause : statement.childOfKind? .exportClause = none)
      (hdeclaration : statement.child? .declaration = some declaration)
      (hname : name ∈ declaredNames declaration) :
      Exports statement .declaration ⟨name, name, .named, none⟩

theorem Exports.standard_iff {statement : SourceTree} {form : ExportForm}
    {made : ExportRecord} (h : Exports statement form made) :
    made.kind = .standard ↔
      made.exportedName = defaultName ∧ form.tellsDefault = true := by
  cases h <;> simp [ExportForm.tellsDefault, ExportKind.ofName_eq_standard]

private theorem exists_exports_of_export? {lineOffset : Nat}
    {statement : SourceTree} {item : ModuleItem} {made : ExportRecord}
    (h : export? lineOffset statement = some item)
    (hmade : made ∈ item.exports) :
    ∃ form, Exports statement form made := by
  unfold export? at h
  split at h
  · next specifier hsource =>
    cases h
    unfold ModuleItem.passedOn at hmade
    split at hmade
    · next clause hclause =>
      obtain ⟨⟨name, exported⟩, hname, rfl⟩ := List.mem_map.1 hmade
      exact ⟨_, .passedNames hsource hclause hname⟩
    · next hclause =>
      obtain rfl := List.mem_singleton.1 hmade
      exact ⟨_, .passedWhole hsource hclause⟩
  · next hsource =>
    split at h
    · next hword =>
      cases h
      obtain rfl := List.mem_singleton.1 hmade
      exact ⟨_, .standard hsource hword⟩
    · next hword =>
      have hword : hasDefaultWord statement = false := Bool.eq_false_iff.2 hword
      split at h
      · next clause hclause =>
        cases h
        obtain ⟨⟨name, exported⟩, hname, rfl⟩ := List.mem_map.1 hmade
        exact ⟨_, .clause hsource hword hclause hname⟩
      · next hclause =>
        split at h
        · cases h
        · next names _ _ =>
          cases h
          obtain ⟨name, hname, rfl⟩ := List.mem_map.1 hmade
          cases hdeclaration : statement.child? .declaration with
          | none => simp [hdeclaration] at hname
          | some declaration =>
              refine ⟨_, .declaration hsource hword hclause hdeclaration ?_⟩
              simpa [hdeclaration] using hname

private theorem exists_export?_of_exports {statement : SourceTree}
    {form : ExportForm} {made : ExportRecord} (h : Exports statement form made)
    (lineOffset : Nat) :
    ∃ item, export? lineOffset statement = some item ∧ made ∈ item.exports := by
  unfold export?
  rw [← passedSpecifier?, ← hasDefaultWord]
  cases h with
  | passedNames hsource hclause hname =>
      rw [hsource]
      refine ⟨_, rfl, ?_⟩
      rw [ModuleItem.passedOn, hclause]
      exact List.mem_map.2 ⟨_, hname, rfl⟩
  | passedWhole hsource hclause =>
      rw [hsource]
      refine ⟨_, rfl, ?_⟩
      rw [ModuleItem.passedOn, hclause]
      exact List.mem_singleton_self _
  | standard hsource hword =>
      rw [hsource, hword]
      exact ⟨_, rfl, List.mem_singleton_self _⟩
  | clause hsource hword hclause hname =>
      rw [hsource, hword, hclause]
      exact ⟨_, rfl, List.mem_map.2 ⟨_, hname, rfl⟩⟩
  | @declaration name declaration hsource hword hclause hdeclaration hname =>
      rw [hsource, hword, hclause, hdeclaration]
      dsimp only [Option.map_some, Option.getD_some]
      cases hnames : declaredNames declaration with
      | nil =>
          rw [hnames] at hname
          cases hname
      | cons first names =>
          refine ⟨_, rfl, ?_⟩
          rw [ModuleItem.exports, ← hnames]
          exact List.mem_map.2 ⟨name, hname, rfl⟩

/-! ## Whole files -/

def InScripts (scripts : List (Nat × List SourceTree)) (tree : SourceTree) :
    Prop :=
  ∃ script ∈ scripts, SourceTree.Within script.2 tree

private theorem export?_of_own? {lineOffset : Nat} {tree : SourceTree}
    {above : List SourceTree} {item : ModuleItem}
    (h : own? lineOffset tree above = some item) {made : ExportRecord}
    (hmade : made ∈ item.exports) :
    tree.kind = .exportStatement ∧ export? lineOffset tree = some item := by
  unfold own? at h
  split at h
  · obtain ⟨specifier, -, rfl⟩ := Option.map_eq_some_iff.1 h
    cases hmade
  · next hkind => exact ⟨hkind, h⟩
  · obtain ⟨specifier, -, hreading⟩ := ModuleItem.callReading_of_call? h
    cases hreading <;> cases hmade
  · cases h

theorem mem_exports_iff {scripts : List (Nat × List SourceTree)} {path : Path}
    {made : ExportRecord} :
    made ∈ (FileModule.ofItems path (scriptsItems scripts)).exports ↔
      ∃ statement form, InScripts scripts statement ∧
        statement.kind = .exportStatement ∧
        Exports statement form made := by
  rw [FileModule.ofItems, List.mem_flatMap]
  constructor
  · rintro ⟨item, hitem, hmade⟩
    obtain ⟨script, hscript, statement, above, hunder, hown⟩ :=
      mem_scriptsItems_iff.1 hitem
    obtain ⟨hkind, hexport⟩ := export?_of_own? hown hmade
    obtain ⟨form, hexports⟩ := exists_exports_of_export? hexport hmade
    exact ⟨statement, form, ⟨script, hscript, hunder.within⟩, hkind, hexports⟩
  · rintro ⟨statement, form, ⟨script, hscript, hwithin⟩, hkind, hexports⟩
    obtain ⟨above, hunder⟩ := hwithin.exists_under
    obtain ⟨item, hexport, hmade⟩ := exists_export?_of_exports hexports script.1
    have hown : own? script.1 statement above = some item := by
      rw [own?, hkind, hexport]
    exact ⟨item, mem_scriptsItems_iff.2 ⟨script, hscript, statement, above,
      hunder, hown⟩, hmade⟩

/--
Every export of a file is made by an export statement in one of the five forms,
and it is of the default kind exactly if it has the name of the default value
and its form tells default exports from others.  Kinds and names agree
throughout a file exactly if no declaration and no export of a whole module has
that name.
-/
theorem export_kinds_follow_names_where_told
    (scripts : List (Nat × List SourceTree)) (path : Path) :
    (∀ made ∈ (FileModule.ofItems path (scriptsItems scripts)).exports,
      ∃ statement form, InScripts scripts statement ∧
        statement.kind = .exportStatement ∧
        Exports statement form made ∧
        (made.kind = .standard ↔
          made.exportedName = defaultName ∧ form.tellsDefault = true)) ∧
      ((∀ made ∈ (FileModule.ofItems path (scriptsItems scripts)).exports,
          (made.kind = .standard ↔ made.exportedName = defaultName)) ↔
        ∀ statement form made, InScripts scripts statement →
          statement.kind = .exportStatement →
          Exports statement form made → made.exportedName = defaultName →
          form.tellsDefault = true) := by
  constructor
  · intro made hmade
    obtain ⟨statement, form, hstatement, hkind, hexports⟩ :=
      mem_exports_iff.1 hmade
    exact ⟨statement, form, hstatement, hkind, hexports, hexports.standard_iff⟩
  constructor
  · intro hagree statement form made hstatement hkind hexports hname
    have hmade :=
      hagree made (mem_exports_iff.2 ⟨statement, form, hstatement,
        hkind, hexports⟩)
    exact (hexports.standard_iff.1 (hmade.2 hname)).2
  · intro htold made hmade
    obtain ⟨statement, form, hstatement, hkind, hexports⟩ :=
      mem_exports_iff.1 hmade
    rw [hexports.standard_iff]
    exact ⟨And.left, fun hname =>
      ⟨hname, htold statement form made hstatement hkind hexports hname⟩⟩

def facadeScripts : List (Nat × List SourceTree) :=
  [(0, (Grammar.readPreamble (Source.Cursor.start
    "export \x7b a as default, b \x7d from './x';\nexport * as c from './y';".toList)).1)]

theorem facade_kinds_follow_names :
    (FileModule.ofItems ⟨"/index.js"⟩ (scriptsItems facadeScripts)).exports.map
        ExportRecord.exportedName = ["default", "b", "c"] ∧
      (∀ made ∈
        (FileModule.ofItems ⟨"/index.js"⟩ (scriptsItems facadeScripts)).exports,
        (made.kind = .standard ↔ made.exportedName = defaultName)) ∧
      ∀ statement form made, InScripts facadeScripts statement →
        statement.kind = .exportStatement →
        Exports statement form made → made.exportedName = defaultName →
        form.tellsDefault = true := by
  have hagree : ∀ made ∈
      (FileModule.ofItems ⟨"/index.js"⟩ (scriptsItems facadeScripts)).exports,
      (made.kind = .standard ↔ made.exportedName = defaultName) := by
    decide +kernel
  exact ⟨by decide +kernel, hagree,
    (export_kinds_follow_names_where_told facadeScripts ⟨"/index.js"⟩).2.1
      hagree⟩

theorem whole_module_as_default_is_named :
    ∃ module,
      analyzeSource .javaScript ⟨"/index.js"⟩
        "export * as default from './x';" = .ok module ∧
      module.exports = [⟨"default", "*", .named, some "./x"⟩] ∧
      ¬∀ made ∈ module.exports,
        (made.kind = .standard ↔ made.exportedName = defaultName) := by
  have hmodule : analyzeSource .javaScript ⟨"/index.js"⟩
      "export * as default from './x';" =
      .ok (.ofItems ⟨"/index.js"⟩ [.reExportAll
        ⟨"./x", [.wholeAs "default"], .whole, 1, 1,
          "export * as default from './x';"⟩ (some "default")]) :=
    analyzeSource_of_toOption (by decide +kernel)
  refine ⟨_, hmodule, rfl, fun hagree => ?_⟩
  have hstandard := (hagree _ (List.mem_singleton_self _)).2 rfl
  cases hstandard

end ImportAtlas
