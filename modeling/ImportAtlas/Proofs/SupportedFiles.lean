import ImportAtlas.Proofs.BatchedLoading
import ImportAtlas.Proofs.DefaultSelection

/-!
# Files that are scanned and files that can be read

By default a scan goes by the last letters of a name, and the analysis by the
extension of the name.  The two differ in two ways.  An extension may be
written with capital letters, which the analysis reads and the scan passes
over.  A name may be nothing but a dot and an extension, which makes it a
hidden name without an extension: the scan takes it, and the analysis does not
know its language.
-/

namespace ImportAtlas

def TakenByDefault (names : List String) : Prop :=
  ∃ globs, Glob.readAll defaultInclude = .ok globs ∧
    Glob.acceptsAny globs (relativeText names) = true

namespace Path

def HasLowExtension (path : Path) : Prop :=
  ∀ extension, path.extension? = some extension →
    ∀ c ∈ extension.toList, c.isUpper = false

/-- Whether the last name is a dot and the extension of a script, and nothing
else. -/
def IsBareExtension (path : Path) : Prop :=
  ∃ extension ∈ scriptExtensions, path.fileName? = some ("." ++ extension)

/-! ## Ends of relative texts -/

private theorem unifyChar_eq_iff {c d : Char} (hd : d ≠ '/') :
    unifyChar c = d ↔ c = d ∧ c ≠ '\\' := by
  unfold unifyChar
  split
  · rename_i hc
    simp [hc, Ne.symm hd]
  · rename_i hc
    simp [hc]

theorem map_unifyChar_eq_iff {letters ending : List Char}
    (hslash : '/' ∉ ending) (hbackslash : '\\' ∉ ending) :
    letters.map unifyChar = ending ↔ letters = ending := by
  induction ending generalizing letters with
  | nil => simp
  | cons d ending ih =>
      rw [List.mem_cons, not_or] at hslash hbackslash
      cases letters with
      | nil => simp
      | cons c letters =>
          rw [List.map_cons, List.cons.injEq, List.cons.injEq,
            ih hslash.2 hbackslash.2, unifyChar_eq_iff (Ne.symm hslash.1)]
          constructor
          · rintro ⟨⟨rfl, -⟩, rfl⟩
            exact ⟨rfl, rfl⟩
          · rintro ⟨rfl, rfl⟩
            exact ⟨⟨rfl, Ne.symm hbackslash.1⟩, rfl⟩

private theorem suffix_map_unifyChar {letters ending : List Char}
    (hslash : '/' ∉ ending) (hbackslash : '\\' ∉ ending) :
    ending <:+ letters.map unifyChar ↔ ending <:+ letters := by
  constructor
  · rintro ⟨before, hbefore⟩
    obtain ⟨first, last, rfl, -, hlast⟩ := List.map_eq_append_iff.1 hbefore.symm
    rw [map_unifyChar_eq_iff hslash hbackslash] at hlast
    exact ⟨first, by rw [hlast]⟩
  · rintro ⟨before, rfl⟩
    rw [List.map_append, (map_unifyChar_eq_iff hslash hbackslash).2 rfl]
    exact List.suffix_append _ _

private theorem suffix_after_slash {ending first second : List Char}
    (hslash : '/' ∉ ending) :
    ending <:+ first ++ '/' :: second ↔ ending <:+ second := by
  constructor
  · intro h
    rcases List.suffix_or_suffix_of_suffix h
      (List.suffix_append first ('/' :: second)) with hwithin | hbeyond
    · rw [List.suffix_cons_iff] at hwithin
      rcases hwithin with rfl | hwithin
      · exact absurd List.mem_cons_self hslash
      · exact hwithin
    · exact absurd (hbeyond.subset List.mem_cons_self) hslash
  · exact fun h =>
      h.trans ((List.suffix_cons '/' second).trans (List.suffix_append first _))

private theorem suffix_intercalate_concat {ending last : List Char}
    (hslash : '/' ∉ ending) (above : List (List Char)) :
    ending <:+ ['/'].intercalate (above ++ [last]) ↔ ending <:+ last := by
  induction above with
  | nil => simp
  | cons piece above ih =>
      rw [List.cons_append, List.intercalate_cons_of_ne_nil (by simp),
        List.append_assoc, List.singleton_append, suffix_after_slash hslash, ih]

private theorem fileName?_ofSegments {above : List String} {name : String}
    (h : AreNames (above ++ [name])) :
    (ofSegments false (above ++ [name])).fileName? = some name := by
  have hinner : ∀ component ∈ (above ++ [name]).map Component.normal,
      component.Inner := by
    intro component hcomponent
    obtain ⟨other, hother, rfl⟩ := List.mem_map.1 hcomponent
    exact h other hother
  have hcomponents := components_ofComponents_relative hinner
  rw [ofComponents_relative hinner, List.map_map] at hcomponents
  have hsegments : (above ++ [name]).map
      (Component.segment ∘ Component.normal) = above ++ [name] :=
    List.map_id' _
  rw [hsegments] at hcomponents
  simp [fileName?, hcomponents]

private theorem fileName?_foldl_joinName {root : Path}
    (hroot : root.isAbsolute = true) {above : List String} {name : String}
    (h : AreNames (above ++ [name])) :
    ((above ++ [name]).foldl joinName root).fileName? = some name := by
  rw [fileName?, (components_foldl_joinName hroot h).2]
  simp

end Path

/-! ## Taken names -/

theorem takenByDefault_iff {names : List String} :
    TakenByDefault names ↔
      ∃ extension ∈ scriptExtensions, ∃ stem, relativeText names = stem ++
        "." ++ extension := by
  rw [← acceptsAny_scriptInclusions, TakenByDefault, readAll_defaultInclude]
  simp

theorem takenByDefault_concat {above : List String} {name : String} :
    TakenByDefault (above ++ [name]) ↔
      ∃ extension ∈ scriptExtensions,
        ∃ stem, name = stem ++ "." ++ extension := by
  rw [takenByDefault_iff]
  refine exists_congr fun extension => and_congr_right fun hextension => ?_
  have hplain : '/' ∉ '.' :: extension.toList ∧
      '\\' ∉ '.' :: extension.toList := by
    have hall : ∀ extension ∈ scriptExtensions, '/' ∉ '.' :: extension.toList ∧
        '\\' ∉ '.' :: extension.toList := by
      decide
    exact hall extension hextension
  have hends (text : String) : (∃ stem, text = stem ++ "." ++ extension) ↔
      '.' :: extension.toList <:+ text.toList := by
    constructor
    · rintro ⟨stem, rfl⟩
      exact ⟨stem.toList, by simp⟩
    · rintro ⟨stem, hstem⟩
      exact ⟨String.ofList stem, by rw [← String.toList_inj, ← hstem]; simp⟩
  have hletters : (relativeText (above ++ [name])).toList =
      (['/'].intercalate (above.map String.toList ++ [name.toList])).map
        Path.unifyChar := by
    simp [relativeText, Path.unifySeparators_eq]
  rw [hends, hends, hletters, Path.suffix_map_unifyChar hplain.1 hplain.2,
    Path.suffix_intercalate_concat hplain.1]

namespace SourceLanguage

private theorem ofLowerExtension?_isSome {extension : String} :
    (ofLowerExtension? extension).isSome = true ↔
      extension ∈ scriptExtensions := by
  unfold ofLowerExtension? scriptExtensions
  split <;> simp_all

theorem ofExtension?_isSome_low {extension : String} :
    extension ∈ scriptExtensions ↔
      (ofExtension? extension).isSome = true ∧
      ∀ c ∈ extension.toList, c.isUpper = false := by
  have hlow : (∀ c ∈ extension.toList, c.isUpper = false) →
      String.ofList (extension.toList.map Char.toLower) = extension := by
    intro h
    have hkeep : extension.toList.map Char.toLower = extension.toList.map id :=
      List.map_congr_left fun c hc => dif_neg (of_decide_eq_false (h c hc))
    rw [hkeep, List.map_id, String.ofList_toList]
  rw [ofExtension?, ofLowerExtension?_isSome]
  constructor
  · intro h
    have hall : ∀ extension ∈ scriptExtensions,
      extension.toList.all (!·.isUpper) = true := by decide
    have hsmall : ∀ c ∈ extension.toList, c.isUpper = false := by
      simpa using hall extension h
    exact ⟨by rwa [hlow hsmall], hsmall⟩
  · rintro ⟨hknown, hsmall⟩
    rwa [hlow hsmall] at hknown

end SourceLanguage

theorem taken_name_iff {path : Path} {name : String}
    (hname : path.fileName? = some name) :
    (∃ extension ∈ scriptExtensions, ∃ stem, name = stem ++ "." ++ extension) ↔
      ((SourceLanguage.ofPath? path).isSome = true ∧ path.HasLowExtension) ∨
      path.IsBareExtension := by
  have hextension : path.extension? = (Path.splitName name).2 := by
    rw [Path.extension?, hname, Option.bind_some]
  constructor
  · rintro ⟨extension, hknown, stem, rfl⟩
    have hplain := scriptExtensions_plain hknown
    -- without a stem the name is hidden, and has no extension
    by_cases hstem : stem = ""
    · refine .inr ⟨extension, hknown, ?_⟩
      rw [hname, hstem, String.empty_append]
    · rw [Path.splitName_append hstem hplain.noDot] at hextension
      obtain ⟨hlanguage, hlow⟩ :=
        SourceLanguage.ofExtension?_isSome_low.1 hknown
      refine .inl
        ⟨by rwa [SourceLanguage.ofPath?, hextension, Option.bind_some], ?_⟩
      intro other hother
      rw [hextension, Option.some.injEq] at hother
      exact hother ▸ hlow
  · rintro (⟨hlanguage, hlow⟩ | ⟨extension, hknown, hbare⟩)
    · cases hsplit : Path.splitName name with
      | mk stem extension? =>
          rw [hsplit] at hextension
          cases extension? with
          | none => simp [SourceLanguage.ofPath?, hextension] at hlanguage
          | some extension =>
              rw [SourceLanguage.ofPath?, hextension, Option.bind_some]
                at hlanguage
              have hknown :=
                SourceLanguage.ofExtension?_isSome_low.2 ⟨hlanguage,
                  hlow extension hextension⟩
              exact ⟨extension, hknown, stem,
                (Path.eq_append_of_splitName hsplit).1⟩
    · rw [hname, Option.some.injEq] at hbare
      exact ⟨extension, hknown, "", by rw [hbare, String.empty_append]⟩

/-! ## Failures of a scan -/

theorem scriptItems_error {dialect : Grammar.Dialect} {lineOffset : Nat}
    {path : Path} {text : List Char} {error : AnalysisError}
    (h : scriptItems dialect lineOffset path text = .error error) :
    ∃ line column, error = .malformed path line column := by
  unfold scriptItems at h
  generalize Grammar.readScript dialect text = read at h
  cases read with
  | ok trees => contradiction
  | error place => exact ⟨_, _, (Except.error.inj h).symm⟩

private theorem mapM_error {α β ε : Type} {f : α → Except ε β} {items : List α}
    {error : ε} (h : items.mapM f = .error error) :
    ∃ item ∈ items, f item = .error error := by
  induction items with
  | nil => contradiction
  | cons item items ih =>
      rw [List.mapM_cons] at h
      cases hitem : f item with
      | error other =>
          rw [hitem] at h
          obtain rfl := Except.error.inj h
          exact ⟨item, List.mem_cons_self, hitem⟩
      | ok value =>
          cases hitems : items.mapM f with
          | error other =>
              rw [hitem, hitems] at h
              obtain rfl := Except.error.inj h
              obtain ⟨later, hlater, herror⟩ := ih hitems
              exact ⟨later, List.mem_cons_of_mem item hlater, herror⟩
          | ok values =>
              rw [hitem, hitems] at h
              contradiction

private theorem sourceItems_error {language : SourceLanguage} {path : Path}
    {text : List Char} {error : AnalysisError}
    (h : sourceItems language path text = .error error) :
    ∃ line column, error = .malformed path line column := by
  unfold sourceItems at h
  split at h
  · generalize hread : ((ScriptBlock.all text).mapM fun block =>
      scriptItems block.dialect block.lineOffset path block.body) = read at h
    cases read with
    | ok blocks => nomatch h
    | error other =>
        obtain rfl := Except.error.inj h
        obtain ⟨block, -, herror⟩ := mapM_error hread
        exact scriptItems_error herror
  · exact scriptItems_error h

private theorem analyzeSource_error {language : SourceLanguage} {path : Path}
    {text : String} {error : AnalysisError}
    (h : analyzeSource language path text = .error error) :
    ∃ line column, error = .malformed path line column := by
  unfold analyzeSource at h
  generalize hitems : sourceItems language path text.toList = items at h
  cases items with
  | ok items => nomatch h
  | error other =>
      obtain rfl := Except.error.inj h
      exact sourceItems_error hitems

theorem head?_toList_append {first : String} {c : Char}
    (h : first.toList.head? = some c) (second : String) :
    (first ++ second).toList.head? = some c := by
  rw [String.toList_append, List.head?_append, h, Option.some_or]

private theorem message_unsupported_iff {error : AnalysisError} :
    (∃ extension,
      error.message = (AnalysisError.unsupported extension).message) ↔
      ∃ extension, error = .unsupported extension := by
  constructor
  · rintro ⟨extension, hmessage⟩
    -- the first letter is enough
    have hhead := congrArg (fun message => message.toList.head?) hmessage
    have hunsupported :
        (AnalysisError.unsupported extension).message.toList.head? = some 'U' :=
      head?_toList_append (by decide) _
    simp only [hunsupported] at hhead
    cases error with
    | unsupported other => exact ⟨other, rfl⟩
    | unreadable cause =>
        have hfailed : (AnalysisError.unreadable cause).message.toList.head? =
            some 'F' :=
          head?_toList_append (by decide) _
        exact absurd (hfailed.symm.trans hhead) (by decide)
    | malformed path line column =>
        have hfailed :
            (AnalysisError.malformed path line column).message.toList.head? =
              some 'F' :=
          head?_toList_append
            (head?_toList_append (head?_toList_append (head?_toList_append
            (head?_toList_append (by decide) _) _) _) _) _
        exact absurd (hfailed.symm.trans hhead) (by decide)
  · rintro ⟨extension, rfl⟩
    exact ⟨extension, rfl⟩

theorem analyzeFile_unsupported_iff {tree : FileTree} {path : Path} :
    (∃ extension, analyzeFile tree path = .error (.unsupported extension)) ↔
      SourceLanguage.ofPath? path = none := by
  unfold analyzeFile
  cases SourceLanguage.ofPath? path with
  | none => exact ⟨fun _ => rfl, fun _ => ⟨_, rfl⟩⟩
  | some language =>
      refine ⟨?_, nofun⟩
      rintro ⟨extension, herror⟩
      cases hread : tree.readText path with
      | error cause =>
          rw [hread] at herror
          nomatch herror
      | ok text =>
          rw [hread] at herror
          obtain ⟨line, column, hmalformed⟩ := analyzeSource_error herror
          nomatch hmalformed

private theorem Scan.exists_run_holds {tree : FileTree} {root : Path}
    {options : ScanOptions} {files : List Path}
    (h : findFiles tree (options.absolute root) options.includes
      options.excludes = .ok files) :
    ∃ scan, Scan.run tree root options = .ok scan ∧
      ∃ resolver, scan.corpus.HoldsFirstAnswers resolver
        (files.map (LoadCall.mk tree)) := by
  let corpus := Corpus.forRoot tree (options.absolute root) options
  let loaded := corpus.loadAll tree files options.batchSize
  have hrun : Scan.run tree root options =
      .ok ⟨loaded.1, files.length, loaded.2⟩ := by
    unfold Scan.run
    extract_lets absolute
    rw [h]
  refine ⟨_, hrun, corpus.resolver, ?_⟩
  have hloaded : loaded.1 =
      corpus.loadCalls (files.map (LoadCall.mk tree)) := by
    rw [Corpus.loadCalls, List.foldl_map]
    change (corpus.loadAll tree files options.batchSize).1 = _
    rw [Corpus.loadAll, Corpus.loadBatches_eq, Corpus.flatten_batches,
      Corpus.loadBatch]
  rw [hloaded]
  exact Corpus.loadCalls_holdsFirstAnswers (options.absolute root)
    corpus.resolver (files.map (LoadCall.mk tree))

section Failures

variable {tree : FileTree} {corpus : Corpus} {resolver : Resolver}
    {files : List Path}

private theorem LoadCall.answer_eq_error_iff {call : LoadCall}
    {failure : FailedFile} :
    call.answer resolver = .error failure ↔
      ∃ error, analyzeFile call.tree call.path = .error error ∧
        failure = ⟨call.path, error.message⟩ := by
  unfold LoadCall.answer
  generalize analyzeFile call.tree call.path = result
  cases result with
  | ok module => exact ⟨nofun, nofun⟩
  | error error =>
      constructor
      · exact fun hfailure => ⟨error, rfl, (Except.error.inj hfailure).symm⟩
      · rintro ⟨other, hother, rfl⟩
        rw [Except.error.inj hother]

theorem Corpus.HoldsFirstAnswers.mem_failed_files
    (h : corpus.HoldsFirstAnswers resolver (files.map (LoadCall.mk tree)))
    (hdistinct : (files.map Path.components).Nodup) {failure : FailedFile} :
    failure ∈ corpus.failed ↔
      ∃ path ∈ files, ∃ error, analyzeFile tree path = .error error ∧
        failure = ⟨path, error.message⟩ := by
  have hfirst : firstLoads (files.map (LoadCall.mk tree)) =
      files.map (LoadCall.mk tree) := by
    rw [Corpus.firstLoads_map, firstBy_eq_self hdistinct]
  rw [h.mem_failed, hfirst]
  simp only [List.mem_map, exists_exists_and_eq_and,
    LoadCall.answer_eq_error_iff]

private theorem Corpus.HoldsFirstAnswers.asked_iff
    (h : corpus.HoldsFirstAnswers resolver (files.map (LoadCall.mk tree)))
    {path : Path} :
    ((corpus.module? path).isSome = true ∨ corpus.hasFailed path = true) ↔
      ∃ other ∈ files, other.same path = true := by
  have hknows : corpus.knows path = true ↔
      ∃ call ∈ files.map (LoadCall.mk tree), call.path.same path = true :=
    h.knows_iff
  rw [Corpus.knows, Bool.or_eq_true, or_comm] at hknows
  simpa using hknows

end Failures

/-! ## The default scan -/

/-- Whether names lead to a file of the project: none of them is, or has as a
part, that of a foreign directory. -/
structure IsOwnFile (entries : List (String × Entry)) (names : List String) :
    Prop where
  file : (Entry.directory entries).HasFile names
  own : ∀ name ∈ names, ∀ part ∈ partsOfName name, part ∉ foreignDirectories

private theorem mem_defaultFiles_iff_own {root : Path}
    {entries : List (String × Entry)} (hroot : root.isAbsolute = true)
    (hproper : (Entry.directory entries).Proper) (path : Path) :
    path ∈ filesBelow (Glob.acceptsAny scriptInclusions)
      (Glob.acceptsAny (exclusionsOf foreignDirectories)) root
        entries ↔
      (((SourceLanguage.ofPath? path).isSome = true ∧ path.HasLowExtension) ∨
        path.IsBareExtension) ∧
        ∃ names, path = names.foldl Path.joinName root ∧
          IsOwnFile entries names := by
  have hname {names : List String}
      (hfile : (Entry.directory entries).HasFile names) (hpath : path =
        names.foldl Path.joinName root) :
      (∃ extension ∈ scriptExtensions, ∃ stem, relativeText names = stem ++
        "." ++ extension) ↔
        ((SourceLanguage.ofPath? path).isSome = true ∧ path.HasLowExtension) ∨
        path.IsBareExtension := by
    rcases List.eq_nil_or_concat' names with rfl | ⟨above, name, rfl⟩
    · obtain ⟨text, htext⟩ := (Entry.hasFile_nil _).1 hfile
      contradiction
    · have hlast := Path.fileName?_foldl_joinName hroot (hproper.areNames hfile)
      rw [← hpath] at hlast
      rw [← takenByDefault_iff, takenByDefault_concat, taken_name_iff hlast]
  rw [mem_defaultFiles hproper]
  constructor
  · rintro ⟨names, hpath, hfile, htaken, hown⟩
    exact ⟨(hname hfile hpath).1 htaken, names, hpath, hfile, hown⟩
  · rintro ⟨htaken, names, hpath, hfile, hown⟩
    exact ⟨names, hpath, hfile, (hname hfile hpath).2 htaken, hown⟩

theorem Path.IsBareExtension.ofPath?_eq_none {path : Path}
    (h : path.IsBareExtension) :
    SourceLanguage.ofPath? path = none := by
  obtain ⟨extension, hknown, hname⟩ := h
  rw [SourceLanguage.ofPath?, Path.extension?, hname, Option.bind_some,
    Path.splitName_hidden (scriptExtensions_plain hknown).noDot,
    Option.bind_none]

private theorem Scan.exists_default_run {tree : FileTree} {root : Path}
    {options : ScanOptions} {entries : List (String × Entry)}
    (hincludes : options.includes = defaultInclude)
    (hexcludes : options.excludes = defaultExclude)
    (hroot : tree.find (options.absolute root) = .ok (.directory entries))
    (hproper : (Entry.directory entries).Proper) :
    ∃ scan, ∃ files : List Path, ∃ resolver,
      Scan.run tree root options = .ok scan ∧
      scan.corpus.HoldsFirstAnswers resolver (files.map (LoadCall.mk tree)) ∧
      (files.map Path.components).Nodup ∧
      ∀ path, path ∈ files ↔
        (((SourceLanguage.ofPath? path).isSome = true ∧ path.HasLowExtension) ∨
          path.IsBareExtension) ∧
          ∃ names, path = names.foldl Path.joinName (options.absolute root) ∧
            IsOwnFile entries names := by
  have habsolute := FileTree.isAbsolute_of_find hroot
  have hfiles :=
    findFiles_directory hroot readAll_defaultInclude readAll_defaultExclude
  rw [← hincludes, ← hexcludes] at hfiles
  have hsorted := filesBelow_before (Glob.acceptsAny scriptInclusions)
    (Glob.acceptsAny (exclusionsOf foreignDirectories)) habsolute hproper
  obtain ⟨scan, hrun, resolver, hholds⟩ := Scan.exists_run_holds hfiles
  refine ⟨scan, _, resolver, hrun, hholds, ?_,
    mem_defaultFiles_iff_own habsolute hproper⟩
  exact List.pairwise_map.2 (hsorted.imp fun hbefore hsame =>
    hbefore.not_same (Path.same_iff.2 hsame))

/--
The default globs take the files whose language is known by an extension in
small letters, and those whose name is only an extension.  So a default scan of
a directory passes over a file that can be analyzed exactly if its extension
has capital letters, and records a file as unsupported exactly if its name is
only an extension.
-/
theorem default_scan_takes_low_and_bare_extensions {tree : FileTree}
    {root : Path} {options : ScanOptions} {entries : List (String × Entry)}
    (hincludes : options.includes = defaultInclude)
    (hexcludes : options.excludes = defaultExclude)
    (hroot : tree.find (options.absolute root) = .ok (.directory entries))
    (hproper : (Entry.directory entries).Proper) :
    (∀ above name, Path.AreNames (above ++ [name]) →
      (TakenByDefault (above ++ [name]) ↔
        ((SourceLanguage.ofPath?
              (.ofSegments false (above ++ [name]))).isSome = true ∧
            (Path.ofSegments false (above ++ [name])).HasLowExtension) ∨
          (Path.ofSegments false (above ++ [name])).IsBareExtension)) ∧
      ∃ scan, Scan.run tree root options = .ok scan ∧
        (∀ names path, IsOwnFile entries names →
          path = names.foldl Path.joinName (options.absolute root) →
          (SourceLanguage.ofPath? path).isSome = true →
            (((scan.corpus.module? path).isSome = true ∨
              scan.corpus.hasFailed path = true) ↔ path.HasLowExtension)) ∧
        ∀ path,
          (∃ extension, ⟨path, (AnalysisError.unsupported extension).message⟩ ∈
            scan.corpus.failed) ↔
          path.IsBareExtension ∧
            ∃ names, path = names.foldl Path.joinName (options.absolute root) ∧
              IsOwnFile entries names := by
  refine ⟨fun above name hnames =>
    takenByDefault_concat.trans
      (taken_name_iff (Path.fileName?_ofSegments hnames)), ?_⟩
  have habsolute := FileTree.isAbsolute_of_find hroot
  obtain ⟨scan, files, resolver, hrun, hholds, hdistinct, hmember⟩ :=
    Scan.exists_default_run hincludes hexcludes hroot hproper
  refine ⟨scan, hrun, ?_, ?_⟩
  · rintro names path hown hpath hlanguage
    have hasked : path ∈ files ↔ path.HasLowExtension := by
      rw [hmember, and_iff_left ⟨names, hpath, hown⟩]
      constructor
      · rintro (⟨-, hlow⟩ | hbare)
        · exact hlow
        · rw [hbare.ofPath?_eq_none] at hlanguage
          exact absurd hlanguage Bool.false_ne_true
      · exact fun hlow => .inl ⟨hlanguage, hlow⟩
    rw [hholds.asked_iff, ← hasked]
    constructor
    · rintro ⟨other, hother, hsame⟩
      obtain ⟨-, others, rfl, hown'⟩ := (hmember other).1 hother
      rw [hpath] at hsame
      -- proper names below one root are known by the place they lead to
      have hnames :=
        Path.foldl_joinName_inj habsolute (hproper.areNames hown'.file)
          (hproper.areNames hown.file) hsame
      rwa [hpath, ← hnames]
    · exact fun hmem => ⟨path, hmem, Path.same_refl path⟩
  · intro path
    constructor
    · rintro ⟨extension, hfailed⟩
      obtain ⟨other, hother, error, herror, hfailure⟩ :=
        (hholds.mem_failed_files hdistinct).1 hfailed
      obtain ⟨rfl, hmessage⟩ := FailedFile.mk.inj hfailure
      obtain ⟨extension, rfl⟩ :=
        message_unsupported_iff.1 ⟨extension, hmessage.symm⟩
      have hunknown := analyzeFile_unsupported_iff.1 ⟨extension, herror⟩
      obtain ⟨⟨hlanguage, -⟩ | hbare, hown⟩ := (hmember path).1 hother
      · rw [hunknown] at hlanguage
        exact absurd hlanguage Bool.false_ne_true
      · exact ⟨hbare, hown⟩
    · rintro ⟨hbare, hown⟩
      obtain ⟨extension, herror⟩ :=
        analyzeFile_unsupported_iff.2 hbare.ofPath?_eq_none
      have hfailed := (hmember path).2 ⟨.inr hbare, hown⟩
      exact ⟨extension, (hholds.mem_failed_files hdistinct).2 ⟨path, hfailed,
        _, herror, rfl⟩⟩

def cellarEntries : List (String × Entry) :=
  [("App.TSX", .file none), (".ts", .file none),
    ("lib", .directory [("b\\.vue", .file none)])]

theorem cellarEntries_proper : (Entry.directory cellarEntries).Proper := by
  have hlib : (Entry.directory [("b\\.vue", .file none)]).Proper :=
    .directory (by decide) (by decide) (by simp [Entry.Proper.file])
  exact .directory (by decide) (by decide)
    (by simp [cellarEntries, Entry.Proper.file, hlib])

theorem cellar_scan_takes_two_of_three :
    FileTree.find ⟨cellarEntries⟩
      (ScanOptions.absolute { workingDirectory := ⟨"/"⟩ } ⟨"/"⟩) =
        .ok (.directory cellarEntries) ∧
      (Entry.directory cellarEntries).Proper ∧
      ∃ scan, Scan.run ⟨cellarEntries⟩ ⟨"/"⟩
        { workingDirectory := ⟨"/"⟩ } = .ok scan ∧
        ¬((scan.corpus.module? ⟨"/App.TSX"⟩).isSome = true ∨
          scan.corpus.hasFailed ⟨"/App.TSX"⟩ = true) ∧
        ((scan.corpus.module? ⟨"/lib/b\\.vue"⟩).isSome = true ∨
          scan.corpus.hasFailed ⟨"/lib/b\\.vue"⟩ = true) ∧
        ∃ extension, ⟨⟨"/.ts"⟩, (AnalysisError.unsupported extension).message⟩ ∈
          scan.corpus.failed := by
  have habsolute : ScanOptions.absolute { workingDirectory := ⟨"/"⟩ } ⟨"/"⟩ =
    ⟨"/"⟩ := by decide +kernel
  have hroot : FileTree.find ⟨cellarEntries⟩
      (ScanOptions.absolute { workingDirectory := ⟨"/"⟩ } ⟨"/"⟩) =
      .ok (.directory cellarEntries) := by
    rw [habsolute]
    rfl
  obtain ⟨-, scan, hrun, hasked, hunsupported⟩ :=
    default_scan_takes_low_and_bare_extensions rfl rfl hroot
      cellarEntries_proper
  rw [habsolute] at hasked hunsupported
  refine ⟨hroot, cellarEntries_proper, scan, hrun, ?_, ?_, ?_⟩
  · rw [hasked ["App.TSX"] _ ⟨⟨none, rfl⟩, by decide +kernel⟩
      (by decide +kernel) (by decide +kernel)]
    intro hlow
    exact absurd (hlow "TSX" (by decide +kernel) 'T' (by decide)) (by decide)
  · rw [hasked ["lib", "b\\.vue"] _ ⟨⟨none, rfl⟩, by decide +kernel⟩
      (by decide +kernel) (by decide +kernel)]
    intro extension hextension
    have hvue : Path.extension? ⟨"/lib/b\\.vue"⟩ = some "vue" := by
      decide +kernel
    obtain rfl := Option.some.inj (hvue.symm.trans hextension)
    have hsmall : "vue".toList.all (!·.isUpper) = true := by decide
    simpa only [List.all_eq_true, Bool.not_eq_true'] using hsmall
  · rw [hunsupported]
    exact ⟨⟨"ts", by decide, by decide +kernel⟩, [".ts"], by decide +kernel,
      ⟨none, rfl⟩, by decide +kernel⟩

theorem scan_and_analysis_disagree :
    ¬TakenByDefault ["App.TSX"] ∧
      SourceLanguage.ofPath? ⟨"App.TSX"⟩ = some .tsx ∧
      TakenByDefault [".ts"] ∧ SourceLanguage.ofPath? ⟨".ts"⟩ = none ∧
      (Scan.run ⟨[("App.TSX", .file none), (".ts", .file none)]⟩ ⟨"/"⟩
        { workingDirectory := ⟨"/"⟩ }).map
          (fun scan => (scan.fileCount, scan.corpus.failed)) =
          .ok (1, [⟨⟨"/.ts"⟩, "Unsupported file type: "⟩]) := by
  refine ⟨?_, by decide +kernel, ?_, by decide +kernel, by decide +kernel⟩
  · rintro ⟨globs, hread, htaken⟩
    rw [readAll_defaultInclude] at hread
    obtain rfl := Except.ok.inj hread
    exact absurd htaken (by decide +kernel)
  · exact ⟨scriptInclusions, readAll_defaultInclude, by decide +kernel⟩

end ImportAtlas
