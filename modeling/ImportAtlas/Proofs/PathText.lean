import ImportAtlas.Proofs.FileIdentity
import Mathlib.Data.List.Basic
import Mathlib.Data.List.TakeWhile

/-!
# Texts of paths

Components that are written between slashes are read back as they were, as long
as no name among them has a slash or stands for something else.  A name is put
together from its stem and its extension in one way only.
-/

namespace ImportAtlas.Path

/-! ## Pieces of a text -/

theorem splitAtSlash_append (first second : List Char) :
    splitAtSlash (first ++ '/' :: second) = splitAtSlash first ++
      splitAtSlash second := by
  induction first with
  | nil => exact splitAtSlash_slash second
  | cons c rest ih =>
      by_cases hslash : c = '/'
      · subst hslash
        rw [List.cons_append, splitAtSlash_slash, splitAtSlash_slash, ih,
          List.cons_append]
      · obtain ⟨piece, pieces, hrest⟩ := exists_splitAtSlash_eq_cons rest
        rw [hrest, List.cons_append] at ih
        rw [List.cons_append, splitAtSlash_cons hslash ih,
          splitAtSlash_cons hslash hrest, List.cons_append]

theorem splitAtSlash_of_not_mem {text : List Char} (h : '/' ∉ text) :
    splitAtSlash text = [text] := by
  induction text with
  | nil => rfl
  | cons c rest ih =>
      rw [List.mem_cons, not_or] at h
      exact splitAtSlash_cons (Ne.symm h.1) (ih h.2)

theorem splitAtSlash_intercalate {pieces : List (List Char)}
    (hpieces : ∀ piece ∈ pieces, '/' ∉ piece) (hne : pieces ≠ []) :
    splitAtSlash (['/'].intercalate pieces) = pieces := by
  induction pieces with
  | nil => contradiction
  | cons piece pieces ih =>
      have hpiece := splitAtSlash_of_not_mem (hpieces piece List.mem_cons_self)
      cases pieces with
      | nil => rw [List.intercalate_singleton, hpiece]
      | cons next others =>
          have hrest :=
            ih (fun other hother =>
              hpieces other (List.mem_cons_of_mem piece hother)) (by simp)
          rw [List.intercalate_cons_cons, List.append_assoc,
            List.singleton_append, splitAtSlash_append, hpiece, hrest,
            List.singleton_append]

theorem not_mem_of_mem_splitAtSlash {text piece : List Char}
    (h : piece ∈ splitAtSlash text) : '/' ∉ piece := by
  induction text generalizing piece with
  | nil =>
      obtain rfl := List.mem_singleton.1 h
      simp
  | cons c rest ih =>
      by_cases hslash : c = '/'
      · subst hslash
        rw [splitAtSlash_slash] at h
        rcases List.mem_cons.1 h with rfl | h
        · simp
        · exact ih h
      · obtain ⟨first, others, hrest⟩ := exists_splitAtSlash_eq_cons rest
        rw [hrest] at ih
        rw [splitAtSlash_cons hslash hrest] at h
        rcases List.mem_cons.1 h with rfl | h
        · have hfirst := ih List.mem_cons_self
          simp [hfirst, Ne.symm hslash]
        · exact ih (List.mem_cons_of_mem first h)

/-! ## Components that are segments -/

/-- Whether a component is what its own text between two slashes stands for. -/
structure Component.Inner (component : Component) : Prop where
  read : ofSegment? component.segment = some component
  noSlash : '/' ∉ component.segment.toList

private theorem Component.inner_of_ofSegment? {segment : String}
    {component : Component} (h : ofSegment? segment = some component)
    (hslash : '/' ∉ segment.toList) : component.Inner := by
  have hsegment := segment_of_ofSegment? h
  exact ⟨by rw [hsegment]; exact h, by rw [hsegment]; exact hslash⟩

theorem Component.inner_parent : Component.parent.Inner :=
  ⟨rfl, by decide⟩

theorem Component.inner_normal {name : String} (hempty : name ≠ "")
    (hdot : name ≠ ".") (hdots : name ≠ "..") (hslash : '/' ∉ name.toList) :
    (Component.normal name).Inner := by
  refine ⟨?_, hslash⟩
  simp only [Component.segment, Component.ofSegment?]

namespace Component.Inner

variable {component : Component} {name : String}

theorem ne_root (h : component.Inner) : component ≠ .root := by
  rintro rfl
  exact absurd h.read (by decide)

theorem ne_current (h : component.Inner) : component ≠ .current := by
  rintro rfl
  exact absurd h.read (by decide)

theorem segment_ne_empty (h : component.Inner) : component.segment ≠ "" := by
  intro hempty
  have hread := h.read
  rw [hempty] at hread
  contradiction

theorem segment_toList_ne_nil (h : component.Inner) :
    component.segment.toList ≠ [] :=
  fun hnil => h.segment_ne_empty (String.toList_inj.1 hnil)

theorem segment_ne_dot (h : component.Inner) : component.segment ≠ "." := by
  intro hdot
  have hread := h.read
  rw [hdot] at hread
  contradiction

theorem noSlash_name (h : (Component.normal name).Inner) : '/' ∉ name.toList :=
  h.noSlash

theorem not_isAbsolute (h : (Component.normal name).Inner) :
    isAbsolute ⟨name⟩ = false := by
  rw [isAbsolute, beq_eq_false_iff_ne]
  intro hhead
  exact h.noSlash_name (List.mem_of_head? hhead)

theorem pieceComponents_name (h : (Component.normal name).Inner) :
    pieceComponents (splitAtSlash name.toList) = [.normal name] := by
  have hread : Component.ofSegment? name = some (.normal name) := h.read
  rw [splitAtSlash_of_not_mem h.noSlash_name]
  simp [pieceComponents, hread]

end Component.Inner

theorem inner_of_mem_pieceComponents {text : List Char} {component : Component}
    (h : component ∈ pieceComponents (splitAtSlash text)) :
    component.Inner := by
  obtain ⟨piece, hpiece, hread⟩ := List.mem_filterMap.1 h
  refine Component.inner_of_ofSegment? hread ?_
  rw [String.toList_ofList]
  exact not_mem_of_mem_splitAtSlash hpiece

/-! ## Writing and reading components -/

section Written

variable {components : List Component}

theorem ofComponents_root (components : List Component) :
    ofComponents (.root :: components) =
      ofSegments true (components.map Component.segment) := rfl

theorem ofComponents_relative (h : ∀ component ∈ components, component.Inner) :
    ofComponents components =
      ofSegments false (components.map Component.segment) := by
  unfold ofComponents
  split
  · rename_i rest
    exact absurd rfl (h .root List.mem_cons_self).ne_root
  · rfl

theorem splitAtSlash_segments (h : ∀ component ∈ components, component.Inner)
    (hne : components ≠ []) :
    splitAtSlash (['/'].intercalate (components.map fun component =>
      component.segment.toList)) =
      components.map fun component => component.segment.toList := by
  refine splitAtSlash_intercalate ?_ (by simpa using hne)
  intro piece hpiece
  obtain ⟨component, hcomponent, rfl⟩ := List.mem_map.1 hpiece
  exact (h component hcomponent).noSlash

theorem pieceComponents_segments
    (h : ∀ component ∈ components, component.Inner) :
    pieceComponents (components.map fun component => component.segment.toList) =
      components := by
  rw [pieceComponents, List.filterMap_map]
  calc
    components.filterMap _ = components.filterMap some := by
      refine List.filterMap_congr fun component hcomponent => ?_
      rw [Function.comp_apply, String.ofList_toList,
        (h component hcomponent).read]
    _ = components := List.filterMap_some

theorem segments_ofComponents (h : ∀ component ∈ components, component.Inner)
    (hne : components ≠ []) :
    (ofComponents (.root :: components)).segments =
      components.map fun component => (component.segment, some component) := by
  have hread : (components.map fun component =>
      (component.segment, Component.ofSegment? component.segment)) =
      components.map fun component => (component.segment, some component) :=
    List.map_congr_left fun component hcomponent => by
      rw [(h component hcomponent).read]
  rw [ofComponents_root, ← hread]
  simp [ofSegments, segments, isAbsolute, splitAtSlash_slash,
    splitAtSlash_segments h hne, Function.comp_def]

theorem components_ofComponents_root
    (h : ∀ component ∈ components, component.Inner) :
    (ofComponents (.root :: components)).components = .root :: components := by
  by_cases hne : components = []
  · rw [hne]
    decide
  · have htext : ofComponents (.root :: components) =
        ⟨String.ofList ('/' :: ['/'].intercalate
          (components.map fun component => component.segment.toList))⟩ := by
      rw [ofComponents_root, ofSegments, Path.mk.injEq, ← String.toList_inj]
      simp [Function.comp_def]
    rw [htext, components_absolute, splitAtSlash_segments h hne,
      pieceComponents_segments h]

theorem components_ofComponents_relative
    (h : ∀ component ∈ components, component.Inner) :
    (ofComponents components).components = components := by
  rw [ofComponents_relative h]
  cases components with
  | nil => decide
  | cons first rest =>
      have hfirst := h first List.mem_cons_self
      have hrest : ∀ component ∈ rest, component.Inner :=
        fun component hmem => h component (List.mem_cons_of_mem first hmem)
      have htext : ofSegments false ((first :: rest).map Component.segment) =
          ⟨String.ofList (['/'].intercalate
            ((first :: rest).map fun component =>
              component.segment.toList))⟩ := by
        rw [ofSegments, Path.mk.injEq, ← String.toList_inj]
        simp [Function.comp_def]
      have hhead : (['/'].intercalate ((first :: rest).map fun component =>
          component.segment.toList)).head? ≠ some '/' := by
        obtain ⟨c, letters, hletters⟩ :=
          List.exists_cons_of_ne_nil hfirst.segment_toList_ne_nil
        have hslash := hfirst.noSlash
        rw [hletters] at hslash
        rw [List.map_cons, hletters, List.intercalate_cons_cons_left,
          List.head?_cons, ne_eq, Option.some.injEq]
        rintro rfl
        exact hslash List.mem_cons_self
      have hsplit := splitAtSlash_segments h (by simp)
      rw [List.map_cons] at hsplit
      rw [htext, components_relative hhead
        (by rw [List.map_cons]; exact hsplit), pieceComponents_segments hrest]
      have hdot : first.segment.toList ≠ ['.'] :=
        fun hdot => hfirst.segment_ne_dot (String.toList_inj.1 hdot)
      rw [headComponents, if_neg hdot]
      simp [pieceComponents, hfirst.read]

end Written

theorem isAbsolute_iff_head {path : Path} :
    path.isAbsolute = true ↔ path.components.head? = some .root := by
  obtain ⟨text⟩ := path
  obtain ⟨letters, rfl⟩ : ∃ letters, text = String.ofList letters :=
    ⟨text.toList, String.ofList_toList.symm⟩
  cases letters with
  | nil => decide
  | cons c rest =>
      by_cases hslash : c = '/'
      · subst hslash
        rw [components_absolute]
        simp [isAbsolute]
      · obtain ⟨piece, pieces, hsplit⟩ :=
          exists_splitAtSlash_eq_cons (c :: rest)
        obtain ⟨tail, hpiece, -⟩ := splitAtSlash_head hslash hsplit
        obtain ⟨component, hhead, hroot, -⟩ :=
          headComponents_eq (by simp [hpiece] : piece ≠ [])
        rw [components_relative (by simpa using hslash) hsplit, hhead]
        simp [isAbsolute, hslash, hroot]

/-! ## Names with extensions -/

theorem takeWhile_extension {extension : String}
    (hextension : '.' ∉ extension.toList) (before : List Char) :
    (extension.toList.reverse ++ '.' :: before).takeWhile (· != '.') =
      extension.toList.reverse := by
  rw [List.takeWhile_append_of_pos, List.takeWhile_cons_of_neg (by simp),
    List.append_nil]
  intro c hc
  rw [List.mem_reverse] at hc
  rw [bne_iff_ne]
  rintro rfl
  exact hextension hc

theorem splitName_append {stem extension : String} (hstem : stem ≠ "")
    (hextension : '.' ∉ extension.toList) :
    splitName (stem ++ "." ++ extension) = (stem, some extension) := by
  have hreversed : (stem ++ "." ++ extension).toList.reverse =
      extension.toList.reverse ++ '.' :: stem.toList.reverse := by simp
  have hbefore : stem.toList.reverse ≠ [] :=
    fun hnil => hstem (String.toList_inj.1 (List.reverse_eq_nil_iff.1 hnil))
  unfold splitName
  dsimp only
  rw [hreversed, takeWhile_extension hextension, List.drop_left]
  split
  · contradiction
  · rename_i heq
    exact absurd (List.cons.inj heq).2 hbefore
  · rename_i heq
    obtain ⟨-, rfl⟩ := List.cons.inj heq
    simp

theorem splitName_hidden {extension : String}
    (hextension : '.' ∉ extension.toList) :
    splitName ("." ++ extension) = ("." ++ extension, none) := by
  have hreversed : ("." ++ extension).toList.reverse =
    extension.toList.reverse ++ ['.'] := by simp
  unfold splitName
  dsimp only
  rw [hreversed, takeWhile_extension hextension, List.drop_left]

theorem eq_append_of_splitName {name stem extension : String}
    (h : splitName name = (stem, some extension)) :
    name = stem ++ "." ++ extension ∧ stem ≠ "" ∧ '.' ∉ extension.toList := by
  unfold splitName at h
  dsimp only at h
  generalize hreversed : name.toList.reverse = reversed at h
  have hsplit :=
    List.takeWhile_append_dropWhile (p := (· != '.')) (l := reversed)
  have hdrop : reversed.drop (reversed.takeWhile (· != '.')).length =
      reversed.dropWhile (· != '.') :=
    calc
      _ = (reversed.takeWhile (· != '.') ++ reversed.dropWhile (· != '.')).drop
            (reversed.takeWhile (· != '.')).length := by rw [hsplit]
      _ = _ := List.drop_left
  rw [hdrop] at h
  split at h
  · simp at h
  · simp at h
  · rename_i dots dot before hbefore hrest
    have hdot : dot = '.' := by
      have hhead := List.head?_dropWhile_not (· != '.') reversed
      rw [hrest] at hhead
      simpa using hhead
    obtain ⟨rfl, hextension⟩ := Prod.mk.inj h
    obtain rfl := Option.some.inj hextension
    refine ⟨?_, ?_, ?_⟩
    · rw [hrest, ← hreversed, hdot] at hsplit
      have hname := congrArg List.reverse hsplit
      rw [List.reverse_reverse] at hname
      rw [← String.toList_inj, ← hname, hreversed]
      simp
    · intro hempty
      exact hbefore (by simpa using congrArg String.toList hempty)
    · rw [String.toList_ofList, List.mem_reverse]
      intro hmem
      simpa using List.mem_takeWhile_imp hmem

end ImportAtlas.Path

namespace ImportAtlas

structure PlainExtension (extension : String) : Prop where
  nonempty : extension ≠ ""
  noDot : '.' ∉ extension.toList
  noSlash : '/' ∉ extension.toList

namespace PlainExtension

variable {stem extension : String}

theorem inner (h : PlainExtension extension) (hstem : '/' ∉ stem.toList) :
    (Path.Component.normal (stem ++ "." ++ extension)).Inner := by
  have hletter : ∃ c ∈ (stem ++ "." ++ extension).toList, c ≠ '.' := by
    obtain ⟨c, letters, hletters⟩ : ∃ c letters, extension.toList =
        c :: letters :=
      List.exists_cons_of_ne_nil fun hnil =>
        h.nonempty (String.toList_inj.1 hnil)
    have hc : c ∈ extension.toList := by rw [hletters]; exact List.mem_cons_self
    refine ⟨c, by simp [hc], ?_⟩
    rintro rfl
    exact h.noDot hc
  obtain ⟨c, hc, hdot⟩ := hletter
  have hother (dots : String) (hdots : ∀ c ∈ dots.toList, c = '.') : stem ++
      "." ++ extension ≠ dots :=
    fun heq => hdot (hdots c (heq ▸ hc))
  refine Path.Component.inner_normal (hother "" (by simp))
    (hother "." (by simp)) (hother ".." (by simp)) ?_
  simp [hstem, h.noSlash]

end PlainExtension

theorem scriptExtensions_plain {extension : String}
    (h : extension ∈ scriptExtensions) : PlainExtension extension := by
  have hall : ∀ extension ∈ scriptExtensions,
      extension ≠ "" ∧ '.' ∉ extension.toList ∧ '/' ∉ extension.toList := by
        decide
  obtain ⟨hempty, hdot, hslash⟩ := hall extension h
  exact ⟨hempty, hdot, hslash⟩

end ImportAtlas
