import ImportAtlas.Output.Write
import ImportAtlas.Proofs.JsonGrammar

/-!
# What JSON tells of an answer

An answer can be read off its JSON text, but for one thing: a resolved module
is shown by its text, so a file and a package of the same text look alike.
-/

namespace ImportAtlas

/-! ## What is shown -/

/-- An import as it is shown: a resolved module counts by its text only. -/
def ImportRecord.shown (record : ImportRecord) : ImportRecord :=
  { record with
    resolved := record.resolved.map fun target => .package target.text }

def Importer.shown (importer : Importer) : Importer :=
  { importer with imports := importer.imports.map ImportRecord.shown }

def SearchReport.shown (report : SearchReport) : SearchReport :=
  { report with results := report.results.map Importer.shown }

def ImportMap.shown (map : ImportMap) : ImportMap :=
  { map with imports := map.imports.map fun (file,
    records) => (file, records.map ImportRecord.shown) }

def ProjectReport.shown (report : ProjectReport) : ProjectReport :=
  { report with search := report.search.shown }

namespace Document

/-! ## Fields -/

section Fields

variable {α β γ : Type}

theorem map_eq_map_iff {write : α → γ} {shown : α → β}
    (h : ∀ first second, write first = write second ↔
      shown first = shown second) (first second : List α) :
    first.map write = second.map write ↔
      first.map shown = second.map shown := by
  induction first generalizing second with
  | nil => simp [eq_comm]
  | cons thing things ih =>
      cases second with
      | nil => simp
      | cons other others => simp [h, ih]

private theorem field?_inj {name : String} {write : α → Document}
    {first second : Option α} :
    field? name write first = field? name write second ↔
      first.map write = second.map write := by
  cases first <;> cases second <;> simp [field?]

theorem listField?_inj {name : String} {write : α → Document}
    {first second : List α} :
    listField? name write first = listField? name write second ↔
      first.map write = second.map write := by
  cases first <;> cases second <;> simp [listField?]

theorem field?_append_inj {name : String} {write : α → Document}
    {first second : Option α} {rest rest' : List (String × Document)}
    (hrest : ∀ field ∈ rest.head?, field.1 ≠ name)
    (hrest' : ∀ field ∈ rest'.head?, field.1 ≠ name) :
    field? name write first ++ rest = field? name write second ++ rest' ↔
      first.map write = second.map write ∧ rest = rest' := by
  cases first with
  | none =>
      cases second with
      | none => simp [field?]
      | some value =>
          simp only [field?, List.nil_append, List.singleton_append,
            Option.map_none, Option.map_some, reduceCtorEq,
            false_and, iff_false]
          rintro rfl
          exact hrest _ rfl rfl
  | some value =>
      cases second with
      | none =>
          simp only [field?, List.nil_append, List.singleton_append,
            Option.map_none, Option.map_some, reduceCtorEq,
            false_and, iff_false]
          rintro rfl
          exact hrest' _ rfl rfl
      | some value' => simp [field?]

end Fields

/-! ## Records -/

theorem pathText_inj {first second : Path} :
    first.text = second.text ↔ first = second := by
  cases first
  cases second
  simp

@[simp]
theorem ofPath_inj {first second : Path} :
    ofPath first = ofPath second ↔ first = second := by
  simp [ofPath, pathText_inj]

@[simp]
theorem ofPaths_inj {first second : List Path} :
    ofPaths first = ofPaths second ↔ first = second := by
  simp [ofPaths, List.map_inj_right fun _ _ => ofPath_inj.mp]

private theorem ofBinding_inj {first second : Binding} :
    ofBinding first = ofBinding second ↔ first = second := by
  cases first
  cases second
  simp [ofBinding]

theorem ofFailed_inj {first second : FailedFile} :
    ofFailed first = ofFailed second ↔ first = second := by
  cases first
  cases second
  simp [ofFailed]

private theorem ofFileCount_inj {first second : FileCount} :
    ofFileCount first = ofFileCount second ↔ first = second := by
  cases first
  cases second
  simp [ofFileCount]

private theorem ofReason_inj {first second : UnusedReason} :
    ofReason first = ofReason second ↔ first = second := by
  cases first <;> cases second <;> simp [ofReason]

theorem ofUnusedFile_inj {first second : UnusedFile} :
    ofUnusedFile first = ofUnusedFile second ↔ first = second := by
  cases first
  cases second
  simp [ofUnusedFile, ofReason_inj]

private theorem styleText_inj {first second : ImportStyle} :
    first.text = second.text ↔ first = second := by
  cases first <;> cases second <;> simp [ImportStyle.text]

private theorem kindText_inj {first second : ImportKind} :
    first.text = second.text ↔ first = second := by
  cases first <;> cases second <;> simp [ImportKind.text]

private theorem targetText_eq_iff {first second : Option Target} :
    (first.map fun target => Document.text target.text) =
      (second.map fun target => Document.text target.text) ↔
      (first.map fun target => Target.package target.text) =
        second.map fun target => Target.package target.text := by
  cases first <;> cases second <;> simp

private theorem ofImport_eq_iff {first second : ImportRecord} :
    ofImport first = ofImport second ↔ first.shown = second.shown := by
  cases first
  cases second
  simp [ofImport, ImportRecord.shown, field?_inj, targetText_eq_iff,
    styleText_inj, kindText_inj,
    List.map_inj_right fun _ _ => ofBinding_inj.mp]

theorem ofImports_eq_iff {first second : List ImportRecord} :
    ofImports first = ofImports second ↔
      first.map ImportRecord.shown = second.map ImportRecord.shown := by
  simp [ofImports, map_eq_map_iff fun _ _ => ofImport_eq_iff]

private theorem ofImporter_eq_iff {first second : Importer} :
    ofImporter first = ofImporter second ↔ first.shown = second.shown := by
  cases first
  cases second
  simp [ofImporter, Importer.shown, ofImports_eq_iff]

/-! ## Reports -/

theorem ofSearch_eq_iff {first second : SearchReport} :
    ofSearch first = ofSearch second ↔ first.shown = second.shown := by
  obtain ⟨roots, module, target, results, filesScanned, failed⟩ := first
  obtain ⟨roots', module', target', results', filesScanned', failed'⟩ := second
  simp only [ofSearch, SearchReport.shown, Document.object.injEq,
    SearchReport.mk.injEq, List.append_assoc, List.cons_append, List.nil_append,
    List.cons.injEq, Prod.mk.injEq, true_and, ofPaths_inj]
  rw [field?_append_inj (by cases target <;> simp [field?])
    (by cases target' <;> simp [field?]),
    field?_append_inj (by simp) (by simp)]
  simp [listField?_inj, map_eq_map_iff fun _ _ => ofImporter_eq_iff,
    List.map_inj_right fun _ _ => ofFailed_inj.mp,
    Option.map_inj_right fun _ _ =>
      ofPath_inj.mp, Option.map_inj_right fun _ _ => Document.text.inj]

private theorem ofUnused_inj {first second : UnusedReport} :
    ofUnused first = ofUnused second ↔ first = second := by
  cases first
  cases second
  simp [ofUnused, listField?_inj, List.map_inj_right fun _ _ =>
    ofUnusedFile_inj.mp,
    List.map_inj_right fun _ _ => ofFailed_inj.mp]

theorem ofStats_inj {first second : MapStats} :
    ofStats first = ofStats second ↔ first = second := by
  cases first
  cases second
  simp [ofStats, listField?_inj, List.map_inj_right fun _ _ =>
    ofFileCount_inj.mp,
    List.map_inj_right fun _ _ => ofPaths_inj.mp]

private theorem importsOfFile_eq_iff {first second : Path × List ImportRecord} :
    (first.1.text, ofImports first.2) = (second.1.text, ofImports second.2) ↔
      (first.1, first.2.map ImportRecord.shown) =
        (second.1, second.2.map ImportRecord.shown) := by
  simp [pathText_inj, ofImports_eq_iff]

private theorem importersOfFile_inj {first second : Path × List Path} :
    (first.1.text, ofPaths first.2) = (second.1.text, ofPaths second.2) ↔
      first = second := by
  simp [pathText_inj, Prod.ext_iff]

private theorem ofMap_eq_iff {first second : ImportMap} :
    ofMap first = ofMap second ↔ first.shown = second.shown := by
  cases first
  cases second
  simp [ofMap, ImportMap.shown, ofStats_inj, listField?_inj,
    map_eq_map_iff fun _ _ => importsOfFile_eq_iff,
    List.map_inj_right fun _ _ =>
      importersOfFile_inj.mp, List.map_inj_right fun _ _ => ofFailed_inj.mp]

private theorem ofReport_eq_iff {first second : ProjectReport} :
    ofReport first = ofReport second ↔ first.shown = second.shown := by
  cases first
  cases second
  simp [ofReport, ProjectReport.shown, ofSearch_eq_iff, ofStats_inj,
    listField?_inj,
    List.map_inj_right fun _ _ =>
      ofUnusedFile_inj.mp, List.map_inj_right fun _ _ => ofFailed_inj.mp]

theorem oneOrMany_of_length_ne {documents : List Document}
    (h : documents.length ≠ 1) :
    oneOrMany documents = .list documents := by
  match documents with
  | [] => rfl
  | [_] => simp at h
  | _ :: _ :: _ => rfl

theorem oneOrMany_inj {first second : List Document}
    (hfirst : ∀ document ∈ first, ∃ fields, document = .object fields)
    (hsecond : ∀ document ∈ second, ∃ fields, document = .object fields) :
    oneOrMany first = oneOrMany second ↔ first = second := by
  by_cases hone : first.length = 1
  · obtain ⟨document, rfl⟩ := List.length_eq_one_iff.mp hone
    obtain ⟨fields, rfl⟩ := hfirst document (by simp)
    by_cases hone' : second.length = 1
    · obtain ⟨document', rfl⟩ := List.length_eq_one_iff.mp hone'
      simp [oneOrMany]
    · have hne : [Document.object fields] ≠ second := fun h => hone' (h ▸ hone)
      rw [oneOrMany_of_length_ne hone']
      simp [oneOrMany, hne]
  · rw [oneOrMany_of_length_ne hone]
    by_cases hone' : second.length = 1
    · obtain ⟨document', rfl⟩ := List.length_eq_one_iff.mp hone'
      obtain ⟨fields', rfl⟩ := hsecond document' (by simp)
      have hne : first ≠ [Document.object fields'] := fun h => hone (h ▸ hone')
      simp [oneOrMany, hne]
    · rw [oneOrMany_of_length_ne hone', Document.list.injEq]

private theorem oneOrMany_maps_eq_iff {first second : List ImportMap} :
    oneOrMany (first.map ofMap) = oneOrMany (second.map ofMap) ↔
      first.map ImportMap.shown = second.map ImportMap.shown := by
  rw [oneOrMany_inj (by simp [ofMap]) (by simp [ofMap]),
    map_eq_map_iff fun _ _ => ofMap_eq_iff]

private theorem oneOrMany_reports_eq_iff {first second : List ProjectReport} :
    oneOrMany (first.map ofReport) = oneOrMany (second.map ofReport) ↔
      first.map ProjectReport.shown = second.map ProjectReport.shown := by
  rw [oneOrMany_inj (by simp [ofReport]) (by simp [ofReport]),
    map_eq_map_iff fun _ _ => ofReport_eq_iff]

private theorem oneOrMany_maps_eq_reports_iff {maps : List ImportMap}
    {reports : List ProjectReport} :
    oneOrMany (maps.map ofMap) = oneOrMany (reports.map ofReport) ↔
      maps = [] ∧ reports = [] := by
  rw [oneOrMany_inj (by simp [ofMap]) (by simp [ofReport])]
  cases maps with
  | nil => simp [eq_comm]
  | cons map maps =>
      cases reports with
      | nil => simp
      | cons report reports => simp [ofMap, ofReport]

end Document

/-! ## Answers -/

theorem Answer.write_json_inj {first second : Answer} :
    first.write .json = second.write .json ↔
      Document.ofAnswer first = Document.ofAnswer second := by
  simp only [Answer.write, String.append_left_inj]
  exact Document.print_injective.eq_iff

/-- An answer in JSON is one value and a line break, and answers of a kind are
written alike only if they are alike but for modules of the same text.  How
many maps or reports there are can be told too, though a single one stands by
itself; no maps and no reports are the only answers of these two kinds that are
written alike. -/
theorem json_tells_answers_apart :
    (∀ answer : Answer, ∃ text, (answer.write .json).toList = text ++ ['\n'] ∧
      Json.Value text) ∧
      (∀ first second : SearchReport,
        (Answer.search first).write .json = (Answer.search second).write .json ↔
        first.shown = second.shown) ∧
      (∀ first second : UnusedReport,
        (Answer.unused first).write .json = (Answer.unused second).write .json ↔
        first = second) ∧
      (∀ first second : List ImportMap,
        ((Answer.maps first).write .json = (Answer.maps second).write .json ↔
          first.map ImportMap.shown = second.map ImportMap.shown) ∧
        (first.length ≠ second.length →
          (Answer.maps first).write .json ≠ (Answer.maps second).write .json)) ∧
      (∀ first second : List ProjectReport,
        ((Answer.reports first).write .json =
          (Answer.reports second).write .json ↔
          first.map ProjectReport.shown = second.map ProjectReport.shown) ∧
        (first.length ≠ second.length →
          (Answer.reports first).write .json ≠
            (Answer.reports second).write .json)) ∧
      ∀ maps reports,
        (Answer.maps maps).write .json = (Answer.reports reports).write .json ↔
        maps = [] ∧ reports = [] := by
  have hmaps : ∀ first second : List ImportMap,
      (Answer.maps first).write .json = (Answer.maps second).write .json ↔
      first.map ImportMap.shown = second.map ImportMap.shown :=
        fun first second =>
    Answer.write_json_inj.trans Document.oneOrMany_maps_eq_iff
  have hreports : ∀ first second : List ProjectReport,
      (Answer.reports first).write .json = (Answer.reports second).write .json ↔
        first.map ProjectReport.shown = second.map ProjectReport.shown :=
          fun first second =>
    Answer.write_json_inj.trans Document.oneOrMany_reports_eq_iff
  refine ⟨fun answer => ?_, fun first second => ?_, fun first second => ?_,
    fun first second => ⟨hmaps first second, ?_⟩, fun first second =>
      ⟨hreports first second, ?_⟩, fun maps reports => ?_⟩
  · exact ⟨_, by simp [Answer.write, Document.print],
      Document.value_render 0 (Document.ofAnswer answer)⟩
  · exact Answer.write_json_inj.trans Document.ofSearch_eq_iff
  · exact Answer.write_json_inj.trans Document.ofUnused_inj
  · intro hlength htext
    exact hlength
      (by simpa using congrArg List.length ((hmaps first second).mp htext))
  · intro hlength htext
    exact hlength
      (by simpa using congrArg List.length ((hreports first second).mp htext))
  · exact Answer.write_json_inj.trans Document.oneOrMany_maps_eq_reports_iff

theorem json_tells_none_one_and_two_maps :
    (Answer.maps []).write .json ≠ (Answer.maps [{}]).write .json ∧
      (Answer.maps [{}]).write .json ≠ (Answer.maps [{}, {}]).write .json ∧
      (Answer.maps []).write .json ≠ (Answer.maps [{}, {}]).write .json := by
  obtain ⟨-, -, -, hmaps, -⟩ := json_tells_answers_apart
  exact ⟨(hmaps [] [{}]).2 (by decide), (hmaps [{}] [{}, {}]).2 (by decide),
    (hmaps [] [{}, {}]).2 (by decide)⟩

end ImportAtlas
