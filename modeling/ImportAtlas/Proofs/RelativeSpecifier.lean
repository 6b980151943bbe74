import ImportAtlas.Proofs.ResolvedIdentity
import ImportAtlas.Proofs.ScriptKey
import Mathlib.Data.List.Induction

/-!
# Relative specifiers

From the directory of one file a specifier climbs to the last directory that
both files share and goes down to the other file.  Followed from the first file
it leads to the second; without the extension it leads to the file of the same
stem whose extension is tried first.
-/

namespace ImportAtlas

namespace Path

/-! ## Paths by their names -/

def nameStack (names : List String) : List Component :=
  (names.map Component.normal).reverse ++ [.root]

def ofNames (names : List String) : Path :=
  ofComponents (nameStack names).reverse

def AreNames (names : List String) : Prop :=
  ∀ name ∈ names, (Component.normal name).Inner

theorem nameStack_concat (names : List String) (name : String) :
    nameStack (names ++ [name]) = .normal name :: nameStack names := by
  simp [nameStack]

private theorem root_mem_nameStack (names : List String) :
    .root ∈ nameStack names := by
  simp [nameStack]

theorem folded_nameStack {names : List String} (h : AreNames names) :
    Folded (nameStack names) := by
  induction names using List.reverseRecOn with
  | nil => exact .root
  | append_singleton names name ih =>
      rw [nameStack_concat]
      refine .name (h name (by simp)) (ih fun other hother =>
        h other (List.mem_append_left _ hother))

section OfNames

variable {names : List String} {name : String}

theorem components_ofNames (h : AreNames names) :
    (ofNames names).components = .root :: names.map .normal := by
  rw [ofNames, (folded_nameStack h).components_eq]
  simp [nameStack]

theorem isAbsolute_ofNames (h : AreNames names) :
    (ofNames names).isAbsolute = true := by
  rw [isAbsolute_iff_head, components_ofNames h, List.head?_cons]

theorem parent?_ofNames (h : AreNames names)
    (hname : (Component.normal name).Inner) :
    (ofNames (names ++ [name])).parent? = some (ofNames names) := by
  rw [ofNames, nameStack_concat,
    (folded_nameStack h).parent?_eq (root_mem_nameStack names) hname, ofNames]

theorem fileName?_ofNames (h : AreNames names)
    (hname : (Component.normal name).Inner) :
    (ofNames (names ++ [name])).fileName? = some name := by
  rw [ofNames, nameStack_concat]
  exact fileName?_concat (.name hname (folded_nameStack h))

theorem text_ofNames (names : List String) (name : String) :
    (ofNames (names ++ [name])).text =
      leadingText (nameStack names).reverse ++ name := by
  rw [ofNames, nameStack_concat, List.reverse_cons,
    text_ofComponents_concat _ (by simp), Component.segment]

end OfNames

structure Rooted (path : Path) : Prop where
  absolute : path.isAbsolute = true
  normal : path.normalize = path
  noParent : .parent ∉ path.components

def names (path : Path) : List String :=
  path.components.filterMap Component.name?

theorem names_ofNames {names : List String} (h : AreNames names) :
    (ofNames names).names = names := by
  have hname : Component.name? ∘ Component.normal = some := rfl
  rw [Path.names, components_ofNames h, List.filterMap_cons_none rfl,
    List.filterMap_map, hname, List.filterMap_some]

theorem Component.Inner.eq_normal {component : Component} (h : component.Inner)
    (hparent : component ≠ .parent) :
    ∃ name, component = .normal name := by
  cases component with
  | root => exact absurd rfl h.ne_root
  | current => exact absurd rfl h.ne_current
  | parent => contradiction
  | normal name => exact ⟨name, rfl⟩

theorem map_normal_names {components : List Component}
    (h : ∀ component ∈ components, ∃ name, component = .normal name) :
    (components.filterMap Component.name?).map Component.normal = components :=
  calc
    (components.filterMap Component.name?).map Component.normal
      = components.filterMap fun component =>
      component.name?.map Component.normal := List.map_filterMap
    _ = components.filterMap some := by
        refine List.filterMap_congr fun component hcomponent => ?_
        obtain ⟨name, rfl⟩ := h component hcomponent
        rfl
    _ = components := List.filterMap_some

private theorem Rooted.exists_names {path : Path} (h : path.Rooted) :
    ∃ names, AreNames names ∧ path = ofNames names := by
  have hcomponents := components_normalize path
  rw [h.normal] at hcomponents
  obtain ⟨components, hinner, hstack⟩ :=
    (folded_stack path).exists_inner_of_root (root_mem_stack h.absolute)
  have hnormal : ∀ component ∈ components,
      ∃ name, component = .normal name := by
    intro component hcomponent
    refine (hinner component hcomponent).eq_normal ?_
    rintro rfl
    exact h.noParent
      (by rw [hcomponents, hstack]; exact List.mem_cons_of_mem _ hcomponent)
  obtain ⟨names, rfl⟩ : ∃ names : List String, names.map Component.normal =
      components :=
    ⟨components.filterMap Component.name?, map_normal_names hnormal⟩
  refine ⟨names, fun name hname => hinner _ (List.mem_map_of_mem hname), ?_⟩
  calc
    path = ofComponents path.stack.reverse := h.normal.symm
    _ = ofNames names := by rw [hstack, ofNames]; simp [nameStack]

theorem AreNames.concat {names : List String} {name : String}
    (h : AreNames names) (hname : (Component.normal name).Inner) :
    AreNames (names ++ [name]) := by
  intro other hother
  rcases List.mem_append.1 hother with hother | hother
  · exact h other hother
  · obtain rfl := List.mem_singleton.1 hother
    exact hname

theorem Rooted.exists_fileName {path : Path} (h : path.Rooted)
    (hinside : path ≠ ⟨"/"⟩) :
    ∃ names name, AreNames names ∧
      (Component.normal name).Inner ∧ path = ofNames (names ++ [name]) := by
  obtain ⟨names, hnames, rfl⟩ := h.exists_names
  rcases List.eq_nil_or_concat' names with rfl | ⟨above, name, rfl⟩
  · exact absurd rfl hinside
  · exact ⟨above, name, fun other hother =>
      hnames other (List.mem_append_left _ hother), hnames name (by simp), rfl⟩

/-! ## Following a relative path -/

private theorem foldl_up (common climbed : List String) :
    (List.replicate climbed.length Component.parent).foldl foldComponent
      (nameStack (common ++ climbed)) =
      nameStack common := by
  induction climbed using List.reverseRecOn with
  | nil => simp
  | append_singleton climbed name ih =>
      rw [List.length_append, List.length_singleton, List.replicate_succ,
        List.foldl_cons, ← List.append_assoc, nameStack_concat]
      exact ih

private theorem foldl_down (start names : List String) :
    (names.map Component.normal).foldl foldComponent (nameStack start) =
      nameStack (start ++ names) := by
  induction names generalizing start with
  | nil => simp
  | cons name names ih =>
      rw [List.map_cons, List.foldl_cons, foldComponent, ← nameStack_concat, ih]
      simp

/-! ## The specifier of a file -/

/-- Two lists without their common beginning. -/
def apart : List String → List String → List String × List String
  | first :: firsts, second :: seconds =>
    if first = second then apart firsts seconds
    else (first :: firsts, second :: seconds)
  | firsts, seconds => (firsts, seconds)

theorem exists_common (here there : List String) :
    ∃ common, here = common ++ (apart here there).1 ∧ there = common ++
      (apart here there).2 := by
  fun_induction apart here there with
  | case1 firsts second seconds ih =>
      obtain ⟨common, hhere, hthere⟩ := ih
      exact ⟨second :: common, by rw [List.cons_append, ← hhere],
        by rw [List.cons_append, ← hthere]⟩
  | case2 => exact ⟨[], rfl, rfl⟩
  | case3 => exact ⟨[], rfl, rfl⟩

def stepsBetween (here there : List String) : List String :=
  (if (apart here there).1 = [] then ["."]
    else List.replicate (apart here there).1.length "..") ++
    (apart here there).2

section Steps

variable {here there : List String} {name : String}

theorem AreNames.apart (h : AreNames there) :
    AreNames (Path.apart here there).2 := by
  obtain ⟨common, -, hthere⟩ := exists_common here there
  intro name hname
  exact h name (by rw [hthere]; exact List.mem_append_right common hname)

private theorem AreNames.filterMap_ofSegment? {names : List String}
    (h : AreNames names) :
    names.filterMap Component.ofSegment? = names.map .normal := by
  rw [← List.filterMap_eq_map]
  exact List.filterMap_congr fun name hname => (h name hname).read

private theorem filterMap_stepsBetween (hthere : AreNames there) :
    (stepsBetween here there).filterMap Component.ofSegment? =
      List.replicate (Path.apart here there).1.length .parent ++
        (Path.apart here there).2.map .normal := by
  have hclimb (count : Nat) :
      (List.replicate count "..").filterMap Component.ofSegment? =
      List.replicate count .parent := by
    rw [List.filterMap_replicate_of_some]
    rfl
  have henter : AreNames (Path.apart here there).2 := hthere.apart
  rw [stepsBetween, List.filterMap_append, henter.filterMap_ofSegment?]
  split
  · rename_i hnone
    rw [hnone]
    rfl
  · rw [hclimb]

private theorem noSlash_stepsBetween (hthere : AreNames there) :
    ∀ step ∈ stepsBetween here there, '/' ∉ step.toList := by
  intro step hstep
  rw [stepsBetween] at hstep
  rcases List.mem_append.1 hstep with hstep | hstep
  · split at hstep
    · obtain rfl := List.mem_singleton.1 hstep
      decide
    · obtain rfl := (List.mem_replicate.1 hstep).2
      decide
  · exact (hthere.apart step hstep).noSlash_name

theorem pieceComponents_intercalate {steps : List String}
    (h : ∀ step ∈ steps, '/' ∉ step.toList) (hne : steps ≠ []) :
    pieceComponents (splitAtSlash ("/".intercalate steps).toList) =
      steps.filterMap Component.ofSegment? := by
  have htext : ("/".intercalate steps).toList =
    ['/'].intercalate (steps.map String.toList) := by simp
  rw [htext, splitAtSlash_intercalate (by simpa using h) (by simpa using hne),
    pieceComponents, List.filterMap_map]
  simp

/-- The specifier of a name in one directory, seen from another. -/
def stepsTo (here there : List String) (name : String) : String :=
  "/".intercalate (stepsBetween here there ++ [name])

private theorem stepsTo_eq (here there : List String) (name : String) :
    ∃ first rest, stepsTo here there name = first ++ "/" ++ rest ∧
      (first = "." ∨ first = "..") := by
  obtain ⟨first, steps, hsteps, hfirst⟩ : ∃ first steps,
      stepsBetween here there = first :: steps ∧
      (first = "." ∨ first = "..") := by
    unfold stepsBetween
    cases (Path.apart here there).1 with
    | nil => exact ⟨".", _, rfl, .inl rfl⟩
    | cons name climbed => exact ⟨"..", _, rfl, .inr rfl⟩
  refine ⟨first, "/".intercalate (steps ++ [name]), ?_, hfirst⟩
  rw [stepsTo, hsteps, List.cons_append, ← List.singleton_append,
    String.intercalate_append_of_ne_nil (by simp) (by simp),
    String.intercalate_singleton]

theorem isRelative_stepsTo (here there : List String) (name : String) :
    isRelativeSpecifier (stepsTo here there name) = true ∧
      isAbsolute ⟨stepsTo here there name⟩ = false := by
  obtain ⟨first, rest, hsteps, hfirst⟩ := stepsTo_eq here there name
  rw [hsteps, isRelativeSpecifier, isAbsolute]
  simp only [Bool.or_eq_true, String.startsWith_string_iff,
    String.toList_append]
  rcases hfirst with rfl | rfl
  · exact ⟨.inl (.inl (.inl (List.prefix_append _ _))), rfl⟩
  · exact ⟨.inl (.inl (.inr (List.prefix_append _ _))), rfl⟩

private theorem pieceComponents_stepsTo (hthere : AreNames there)
    (hname : (Component.normal name).Inner) :
    pieceComponents (splitAtSlash (stepsTo here there name).toList) =
      List.replicate (Path.apart here there).1.length .parent ++
        ((Path.apart here there).2 ++ [name]).map .normal := by
  have hnoSlash : ∀ step ∈ stepsBetween here there ++ [name],
      '/' ∉ step.toList := by
    intro step hstep
    rcases List.mem_append.1 hstep with hstep | hstep
    · exact noSlash_stepsBetween hthere step hstep
    · obtain rfl := List.mem_singleton.1 hstep
      exact hname.noSlash_name
  have hread : Component.ofSegment? name = some (.normal name) := hname.read
  rw [stepsTo, pieceComponents_intercalate hnoSlash (by simp),
    List.filterMap_append, filterMap_stepsBetween hthere, List.map_append,
    List.append_assoc]
  simp [hread]

private theorem normalize_join_stepsTo (hhere : AreNames here)
    (hthere : AreNames there) (hname : (Component.normal name).Inner) :
    ((ofNames here).join ⟨stepsTo here there name⟩).normalize =
      ofNames (there ++ [name]) := by
  have hstart : (ofNames here).components.foldl foldComponent [] =
    nameStack here := (folded_nameStack hhere).stack_eq
  have hstack : ((ofNames here).join ⟨stepsTo here there name⟩).stack =
      nameStack (there ++ [name]) := by
    rw [stack, components_join (isAbsolute_ofNames hhere)
      (isRelative_stepsTo here there name).2, List.foldl_append,
      pieceComponents_stepsTo hthere hname, List.foldl_append, hstart]
    -- The double dots take back what only the first directory has; the names
    -- of the second one follow.
    obtain ⟨common, hclimb, henter⟩ := exists_common here there
    generalize (Path.apart here there).1 = climbed at hclimb ⊢
    generalize (Path.apart here there).2 = entered at henter ⊢
    rw [hclimb, foldl_up, foldl_down, ← List.append_assoc, ← henter]
  rw [normalize_eq, hstack, ofNames]

end Steps

def specifierTo (importer file : Path) : String :=
  stepsTo importer.names.dropLast file.names.dropLast (file.fileName?.getD "")

private theorem specifierTo_ofNames {here there : List String}
    {importer name : String} (hhere : AreNames here)
    (himporter : (Component.normal importer).Inner) (hthere : AreNames there)
    (hname : (Component.normal name).Inner) :
    (ofNames (here ++ [importer])).specifierTo (ofNames (there ++ [name])) =
      stepsTo here there name := by
  rw [specifierTo, names_ofNames (hhere.concat himporter),
    names_ofNames (hthere.concat hname), List.dropLast_concat,
    List.dropLast_concat, fileName?_ofNames hthere hname, Option.getD_some]

private theorem stepsTo_append (here there : List String)
    (name ending : String) :
    stepsTo here there (name ++ ending) =
      stepsTo here there name ++ ending := by
  have hne : stepsBetween here there ≠ [] := by
    unfold stepsBetween
    split
    · simp
    · rename_i hclimb
      simp [hclimb]
  rw [stepsTo, stepsTo, String.intercalate_append_of_ne_nil hne (by simp),
    String.intercalate_append_of_ne_nil hne (by simp),
    String.intercalate_singleton, String.intercalate_singleton]
  simp only [String.append_assoc]

/-! ## Files of one stem -/

private theorem fileName_eq_of_stem {path : Path} {name stem extension : String}
    (hname : path.fileName? = some name) (hstem : path.fileStem? = some stem)
    (hextension : path.extension? = some extension) :
    name = stem ++ "." ++ extension ∧ stem ≠ "" := by
  rw [fileStem?, hname, Option.map_some, Option.some.injEq] at hstem
  rw [extension?, hname, Option.bind_some] at hextension
  have hsplit : splitName name = (stem, some extension) :=
    Prod.ext hstem hextension
  exact ⟨(eq_append_of_splitName hsplit).1, (eq_append_of_splitName hsplit).2.1⟩

section Stem

variable {names : List String} {name stem : String}

theorem text_withFileName (h : AreNames names)
    (hname : (Component.normal name).Inner) {other : String}
    (hother : isAbsolute ⟨other⟩ = false) :
    ((ofNames (names ++ [name])).withFileName other).text =
      leadingText (nameStack names).reverse ++ other := by
  rw [withFileName, fileName?_ofNames h hname, parent?_ofNames h hname]
  exact (folded_nameStack h).text_join hother

private theorem withFileName_stem (h : AreNames names)
    (hname : (Component.normal name).Inner)
    (hstem : (Component.normal stem).Inner) :
    (ofNames (names ++ [name])).withFileName stem =
      ofNames (names ++ [stem]) := by
  rw [Path.mk.injEq, text_withFileName h hname hstem.not_isAbsolute,
    text_ofNames]

theorem ofNames_extension (names : List String) (stem extension : String) :
    ofNames (names ++ [stem ++ "." ++ extension]) =
      Resolver.withExtension (ofNames (names ++ [stem])) extension := by
  rw [Resolver.withExtension, Path.mk.injEq, text_ofNames, text_ofNames]
  simp only [String.append_assoc]

private theorem withFileName_extension (h : AreNames names)
    (hname : (Component.normal name).Inner)
    (hstem : (Component.normal stem).Inner) (extension : String) :
    (ofNames (names ++ [name])).withFileName (stem ++ "." ++ extension) =
      Resolver.withExtension (ofNames (names ++ [stem])) extension := by
  have hrelative : isAbsolute ⟨stem ++ "." ++ extension⟩ = false := by
    have hnotAbsolute := hstem.not_isAbsolute
    obtain ⟨c, letters, hletters⟩ : ∃ c letters, stem.toList = c :: letters :=
      List.exists_cons_of_ne_nil hstem.segment_toList_ne_nil
    simp_all [isAbsolute]
  rw [← ofNames_extension, Path.mk.injEq, text_withFileName h hname hrelative,
    text_ofNames]

private theorem getLast?_unify_iff {leading : String}
    (hstem : (Component.normal stem).Inner) :
    ((leading ++ stem).toList.map unifyChar).getLast? = some '/' ↔
      stem.toList.getLast? = some '\\' := by
  obtain ⟨letters, c, hletters⟩ :=
    List.eq_nil_or_concat stem.toList |>.resolve_left
      hstem.segment_toList_ne_nil
  have hc : c ≠ '/' := by
    rintro rfl
    exact hstem.noSlash_name (by rw [hletters]; simp)
  have hunify : unifyChar c = '/' ↔ c = '\\' := by
    unfold unifyChar
    split <;> simp_all
  simpa [hletters] using hunify

end Stem

end Path

namespace Resolver

variable {tree : FileTree} {resolver : Resolver}

theorem resolve_stepsTo {here there : List String} {importer name : String}
    (hhere : Path.AreNames here) (hthere : Path.AreNames there)
    (himporter : (Path.Component.normal importer).Inner)
    (hname : (Path.Component.normal name).Inner) :
    resolver.resolve tree (Path.stepsTo here there name)
      (Path.ofNames (here ++ [importer])) =
      (probeNormal tree resolver (Path.ofNames (there ++ [name]))).map
        .file := by
  simp only [resolve, (Path.isRelative_stepsTo here there name).1, if_true,
    Path.parent?_ofNames hhere himporter, Option.getD_some, probe,
    Path.normalize_join_stepsTo hhere hthere hname]

private theorem probeNormal_extension {candidate : Path} {first : String}
    (hshadow : ¬(resolver.hasKnownExtension candidate = true ∧
      tree.isFile candidate = true))
    (hfirst : (resolver.extensions.find? fun extension =>
      tree.isFile (withExtension candidate extension)) = some first) :
    probeNormal tree resolver candidate =
      some (withExtension candidate first) := by
  have hfind : (resolver.extensions.map (withExtension candidate)).find?
      tree.isFile =
      some (withExtension candidate first) := by
    rw [List.find?_map, Function.comp_def, hfirst, Option.map_some]
  rw [probeNormal, if_neg (by simpa using hshadow), hfind]

/-- A file is found by its relative specifier, and without the extension the
first file of its stem is found. -/
theorem specifier_round_trip (tree : FileTree) (base : Option Path)
    {importer file : Path} {stem extension : String}
    (himporter : importer.Rooted) (hinside : importer ≠ ⟨"/"⟩)
    (hfile : file.Rooted) (hexists : tree.isFile file = true)
    (hstem : file.fileStem? = some stem) (hdot : stem ≠ ".")
    (hdots : stem ≠ "..") (hextension : file.extension? = some extension)
    (hscript : extension ∈ scriptExtensions) :
    let resolver := Resolver.new base
    resolver.resolve tree (importer.specifierTo file) importer =
        some (.file file) ∧
      ∃ bare, importer.specifierTo file = bare ++ "." ++ extension ∧
        (¬(resolver.hasKnownExtension (file.withFileName stem) = true ∧
          tree.isFile (file.withFileName stem) = true) →
          ∃ first,
            (scriptExtensions.find? fun tried =>
              tree.isFile (file.withFileName (stem ++ "." ++ tried))) =
                some first ∧
            resolver.resolve tree bare importer =
              some (.file (file.withFileName (stem ++ "." ++ first))) ∧
            ((file.withFileName (stem ++ "." ++ first)).sameFile file = true ↔
              first = extension ∨ stem.toList.getLast? ≠ some '\\')) := by
  intro resolver
  have hbelow : file ≠ ⟨"/"⟩ := by
    rintro rfl
    contradiction
  obtain ⟨here, name, hhere, hname, rfl⟩ := himporter.exists_fileName hinside
  obtain ⟨there, fileName, hthere, hfileName, rfl⟩ :=
    hfile.exists_fileName hbelow
  obtain ⟨rfl, hstemEmpty⟩ :=
    Path.fileName_eq_of_stem (Path.fileName?_ofNames hthere hfileName)
      hstem hextension
  have hstemName : (Path.Component.normal stem).Inner :=
    Path.Component.inner_normal hstemEmpty hdot hdots fun hslash =>
      hfileName.noSlash_name (by simp [hslash])
  rw [Path.specifierTo_ofNames hhere hname hthere hfileName]
  refine ⟨?_, Path.stepsTo here there stem,
    by rw [String.append_assoc, Path.stepsTo_append, String.append_assoc], ?_⟩
  · -- With its extension the file is the candidate itself.
    have hknown : resolver.hasKnownExtension
        (Path.ofNames (there ++ [stem ++ "." ++ extension])) = true :=
      hasKnownExtension_iff.2 ⟨extension, hextension, extension, hscript,
        sameLetters_refl extension⟩
    rw [resolve_stepsTo hhere hthere hname hfileName, probeNormal,
      if_pos (by simp [hknown, hexists]), Option.map_some]
  · -- Without it the candidate is the stem, and the file itself shows that some
    -- extension is found.
    simp only [Path.withFileName_stem hthere hfileName hstemName,
      Path.withFileName_extension hthere hfileName hstemName]
    intro hshadow
    rw [Path.ofNames_extension] at hexists ⊢
    obtain ⟨first, hfirst⟩ : ∃ first, (scriptExtensions.find? fun tried =>
        tree.isFile (withExtension (Path.ofNames (there ++ [stem])) tried)) =
          some first := by
      rw [← Option.isSome_iff_exists, List.find?_isSome]
      exact ⟨extension, hscript, hexists⟩
    refine ⟨first, hfirst, ?_, ?_⟩
    · rw [resolve_stepsTo hhere hthere hname hstemName,
        probeNormal_extension hshadow hfirst, Option.map_some]
    · have habsolute :
          Path.isAbsolute ⟨(Path.ofNames (there ++ [stem])).text⟩ = true :=
        Path.isAbsolute_ofNames (hthere.concat hstemName)
      rw [withExtension, withExtension, Path.sameFile_script_iff habsolute
        (List.mem_of_find?_eq_some hfirst) hscript, Path.text_ofNames, ne_eq,
        Path.getLast?_unify_iff hstemName]

def dateTree : FileTree :=
  ⟨[("app", .directory [("pages", .directory [("home.ts", .file (some ""))]),
      ("lib", .directory [("date.utils.tsx", .file (some "")),
        ("date.utils.ts", .file (some ""))])])]⟩

theorem date_utils_round_trip :
    ∃ bare, Path.specifierTo ⟨"/app/pages/home.ts"⟩
      ⟨"/app/lib/date.utils.tsx"⟩ = bare ++ "." ++ "tsx" ∧
      (Resolver.new none).resolve dateTree bare ⟨"/app/pages/home.ts"⟩ =
        some (.file ⟨"/app/lib/date.utils.ts"⟩) ∧
      Path.sameFile ⟨"/app/lib/date.utils.ts"⟩
        ⟨"/app/lib/date.utils.tsx"⟩ = true := by
  obtain ⟨-, bare, hbare, hresolve⟩ := specifier_round_trip dateTree none
    (⟨by decide, by decide, by decide⟩ : Path.Rooted ⟨"/app/pages/home.ts"⟩)
    (by decide)
    (⟨by decide, by decide, by decide⟩ : Path.Rooted
      ⟨"/app/lib/date.utils.tsx"⟩) (by decide +kernel)
    (by
      decide +kernel : Path.fileStem? ⟨"/app/lib/date.utils.tsx"⟩ =
        some "date.utils") (by decide) (by decide)
    (by
      decide +kernel : Path.extension? ⟨"/app/lib/date.utils.tsx"⟩ = some "tsx")
        (by decide)
  obtain ⟨first, hfirst, hfound, hsame⟩ := hresolve (by decide +kernel)
  have hts : (scriptExtensions.find? fun tried =>
      dateTree.isFile (Path.withFileName ⟨"/app/lib/date.utils.tsx"⟩
        ("date.utils" ++ "." ++ tried))) = some "ts" := by
    decide +kernel
  obtain rfl : "ts" = first := Option.some.inj (hts.symm.trans hfirst)
  have hname : Path.withFileName ⟨"/app/lib/date.utils.tsx"⟩ ("date.utils" ++
      "." ++ "ts") =
      ⟨"/app/lib/date.utils.ts"⟩ := by decide +kernel
  rw [hname] at hfound hsame
  exact ⟨bare, hbare, hfound, hsame.2 (.inr (by decide))⟩

def backslashTree : FileTree :=
  ⟨[("a.ts", .file (some "")), ("x\\.ts", .file (some "")),
    ("x\\.tsx", .file (some ""))]⟩

theorem backslash_stem_finds_other_file :
    (Path.Rooted ⟨"/a.ts"⟩ ∧ Path.Rooted ⟨"/x\\.tsx"⟩ ∧
      backslashTree.isFile ⟨"/x\\.tsx"⟩ = true ∧
        Path.fileStem? ⟨"/x\\.tsx"⟩ = some "x\\" ∧
        Path.extension? ⟨"/x\\.tsx"⟩ = some "tsx" ∧
        backslashTree.isFile (Path.withFileName ⟨"/x\\.tsx"⟩ "x\\") = false) ∧
      Path.specifierTo ⟨"/a.ts"⟩ ⟨"/x\\.tsx"⟩ = "./x\\" ++ "." ++ "tsx" ∧
      (Resolver.new none).resolve backslashTree "./x\\" ⟨"/a.ts"⟩ =
        some (.file ⟨"/x\\.ts"⟩) ∧
      Path.sameFile ⟨"/x\\.ts"⟩ ⟨"/x\\.tsx"⟩ = false := by
  refine ⟨⟨⟨by decide, by decide, by decide⟩, ⟨by decide, by decide, by decide⟩,
    ?_⟩, ?_⟩
  · decide +kernel
  · decide +kernel

end Resolver

end ImportAtlas
