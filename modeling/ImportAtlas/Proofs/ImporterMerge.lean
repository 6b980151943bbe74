import ImportAtlas.Inquiry.Search

/-!
# Merging importers

Importers are kept one per file identity.  Adding importers neither loses nor
invents an identity, an entry keeps the spelling under which it came first, and
its imports all come from entries with its identity.
-/

namespace ImportAtlas

def importerKeys (importers : List Importer) : List String :=
  importers.map fun importer => importer.file.key

def importerOf? (file : Path) (imports : List ImportRecord) : Option Importer :=
  if imports.isEmpty then none else some ⟨file, imports⟩

theorem importerOf?_eq_some {file : Path} {imports : List ImportRecord}
    {importer : Importer} :
    importerOf? file imports = some importer ↔
      imports ≠ [] ∧ importer = ⟨file, imports⟩ := by
  rw [importerOf?, Option.ite_none_left_eq_some, Option.some.injEq,
    List.isEmpty_iff, @eq_comm Importer]

theorem match_eq_importerOf? (file : Path) (imports : List ImportRecord) :
    (match imports with
      | [] => none
      | found => some (Importer.mk file found)) = importerOf? file imports := by
  cases imports with
  | nil => rfl
  | cons record records => rfl

theorem directImporters_eq (corpus : Corpus) (styles : StyleFilter)
    (query : Query) :
    directImporters corpus styles query =
      corpus.modules.filterMap fun module =>
        importerOf? module.path (matchingImports styles query module) :=
  congrArg (corpus.modules.filterMap ·)
    (funext fun module => match_eq_importerOf? module.path _)

theorem mem_directImporters {corpus : Corpus} {styles : StyleFilter}
    {query : Query} {importer : Importer} :
    importer ∈ directImporters corpus styles query ↔
      ∃ module ∈ corpus.modules, matchingImports styles query module ≠ [] ∧
        importer = ⟨module.path, matchingImports styles query module⟩ := by
  simp only [directImporters_eq, List.mem_filterMap, importerOf?_eq_some]

theorem mem_addImports {known added : List ImportRecord} {record : ImportRecord}
    (h : record ∈ addImports known added) :
    record ∈ known ∨ record ∈ added := by
  induction added generalizing known with
  | nil => exact .inl h
  | cons first added ih =>
      simp only [addImports, List.foldl_cons] at h
      split at h
      · exact (ih h).imp id (List.mem_cons_of_mem first)
      · rcases ih h with hknown | hadded
        · rcases List.mem_append.1 hknown with hknown | hfirst
          · exact .inl hknown
          · exact .inr (List.mem_singleton.1 hfirst ▸ List.mem_cons_self)
        · exact .inr (List.mem_cons_of_mem first hadded)

/-! ## One importer -/

theorem mem_importerKeys_addImporter {added : Importer}
    {importers : List Importer} {key : String} :
    key ∈ importerKeys (addImporter added importers) ↔
      key ∈ importerKeys importers ∨ key = added.file.key := by
  induction importers with
  | nil => simp [addImporter, importerKeys]
  | cons importer importers ih =>
      simp only [addImporter]
      split
      · rename_i hsame
        simp only [importerKeys, List.map_cons, List.mem_cons,
          Importer.merge, hsame]
        constructor
        · exact .inl
        · rintro (h | h)
          · exact h
          · exact .inl h
      · simp only [importerKeys, List.map_cons, List.mem_cons] at ih ⊢
        rw [ih, or_assoc]

theorem addImporter_of_absent {added : Importer} {importers : List Importer}
    (h : added.file.key ∉ importerKeys importers) :
    addImporter added importers = importers ++ [added] := by
  induction importers with
  | nil => rfl
  | cons importer importers ih =>
      simp only [importerKeys, List.map_cons, List.mem_cons, not_or] at h
      rw [addImporter, if_neg (Ne.symm h.1), ih h.2]
      rfl

theorem mem_addImporter {added importer : Importer} {importers : List Importer}
    (h : importer ∈ addImporter added importers) :
    importer = added ∨
      ∃ old ∈ importers, importer.file = old.file ∧
        ∀ record ∈ importer.imports,
          record ∈ old.imports ∨ old.file.key = added.file.key ∧
          record ∈ added.imports := by
  induction importers with
  | nil => exact .inl (List.mem_singleton.1 h)
  | cons first importers ih =>
      simp only [addImporter] at h
      split at h
      · rename_i hsame
        rcases List.mem_cons.1 h with rfl | h
        · exact .inr ⟨first, List.mem_cons_self, rfl, fun record hrecord =>
            (mem_addImports hrecord).imp id fun hadded => ⟨hsame, hadded⟩⟩
        · exact .inr ⟨importer, List.mem_cons_of_mem first h, rfl,
            fun record hrecord => .inl hrecord⟩
      · rcases List.mem_cons.1 h with rfl | h
        · exact .inr ⟨importer, List.mem_cons_self, rfl, fun record hrecord =>
            .inl hrecord⟩
        · rcases ih h with heq | ⟨old, hold, hfile, himports⟩
          · exact .inl heq
          · exact .inr ⟨old, List.mem_cons_of_mem first hold, hfile, himports⟩

/-! ## Many importers -/

theorem addImporters_cons (importers : List Importer) (first : Importer)
    (added : List Importer) :
    addImporters importers (first :: added) =
      addImporters (addImporter first importers) added := rfl

theorem addImporters_append (importers first second : List Importer) :
    addImporters importers (first ++ second) =
      addImporters (addImporters importers first) second :=
  List.foldl_append

theorem mem_importerKeys_addImporters {importers added : List Importer}
    {key : String} :
    key ∈ importerKeys (addImporters importers added) ↔
      key ∈ importerKeys importers ∨ key ∈ importerKeys added := by
  induction added generalizing importers with
  | nil => simp [addImporters, importerKeys]
  | cons first added ih =>
      rw [addImporters_cons, ih, mem_importerKeys_addImporter, or_assoc]
      simp [importerKeys]

theorem addImporters_of_nodup {importers added : List Importer}
    (h : (importerKeys (importers ++ added)).Nodup) :
    addImporters importers added = importers ++ added := by
  induction added generalizing importers with
  | nil => simp [addImporters]
  | cons first added ih =>
      have habsent : first.file.key ∉ importerKeys importers := by
        intro hmem
        rw [importerKeys, List.map_append, List.map_cons,
          List.nodup_append] at h
        exact h.2.2 _ hmem _ List.mem_cons_self rfl
      rw [List.append_cons] at h
      rw [addImporters_cons, addImporter_of_absent habsent, ih h,
        ← List.append_cons]

theorem forall_file_addImporters {p : Path → Prop}
    {importers added : List Importer}
    (h : ∀ importer ∈ importers, p importer.file)
    (hadded : ∀ importer ∈ added, p importer.file) :
    ∀ importer ∈ addImporters importers added, p importer.file := by
  induction added generalizing importers with
  | nil => exact h
  | cons first added ih =>
      refine ih ?_ fun importer himporter =>
        hadded importer (List.mem_cons_of_mem first himporter)
      intro importer himporter
      rcases mem_addImporter himporter with rfl | ⟨old, hold, hfile, -⟩
      · exact hadded importer List.mem_cons_self
      · rw [hfile]
        exact h old hold

theorem forall_import_addImporters {p : String → ImportRecord → Prop}
    {importers added : List Importer}
    (h : ∀ importer ∈ importers, ∀ record ∈ importer.imports,
      p importer.file.key record)
    (hadded : ∀ importer ∈ added, ∀ record ∈ importer.imports,
      p importer.file.key record) :
    ∀ importer ∈ addImporters importers added, ∀ record ∈ importer.imports,
      p importer.file.key record := by
  induction added generalizing importers with
  | nil => exact h
  | cons first added ih =>
      refine ih ?_ fun importer himporter =>
        hadded importer (List.mem_cons_of_mem first himporter)
      intro importer himporter record hrecord
      rcases mem_addImporter himporter with rfl | ⟨old, hold, hfile, himports⟩
      · exact hadded importer List.mem_cons_self record hrecord
      · rw [hfile]
        rcases himports record hrecord with hrecord | ⟨hkey, hrecord⟩
        · exact h old hold record hrecord
        · rw [hkey]
          exact hadded first List.mem_cons_self record hrecord

end ImportAtlas
