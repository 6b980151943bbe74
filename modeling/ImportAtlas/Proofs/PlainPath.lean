import ImportAtlas.Proofs.PathTrail

/-!
# Plain paths

A plain path is normal and has no backslash, so that its key is its own text up
to the extension of a script.  The key is then written as a directory and a
last name, and it tells the directory: plain paths of one file lie in one
directory.
-/

namespace ImportAtlas.Path

/-- A path with nothing to fold and with slashes as its only separators. -/
structure Plain (path : Path) : Prop where
  normal : path.normalize = path
  noBackslash : '\\' ∉ path.text.toList

/-! ## Letters of a folded path -/

private theorem mem_of_mem_splitAtSlash {text piece : List Char} {c : Char}
    (h : piece ∈ splitAtSlash text) (hc : c ∈ piece) :
    c ∈ text := by
  induction text generalizing piece with
  | nil =>
      obtain rfl := List.mem_singleton.1 h
      exact hc
  | cons d rest ih =>
      by_cases hslash : d = '/'
      · subst hslash
        rw [splitAtSlash_slash] at h
        rcases List.mem_cons.1 h with rfl | h
        · contradiction
        · exact List.mem_cons_of_mem _ (ih h hc)
      · obtain ⟨first, others, hrest⟩ := exists_splitAtSlash_eq_cons rest
        rw [hrest] at ih
        rw [splitAtSlash_cons hslash hrest] at h
        rcases List.mem_cons.1 h with rfl | h
        · rcases List.mem_cons.1 hc with rfl | hc
          · exact List.mem_cons_self
          · exact List.mem_cons_of_mem d (ih List.mem_cons_self hc)
        · exact List.mem_cons_of_mem d (ih (List.mem_cons_of_mem first h) hc)

private theorem normal_mem_foldl {name : String}
    {stack components : List Component}
    (h : .normal name ∈ components.foldl foldComponent stack) :
    .normal name ∈ stack ∨ .normal name ∈ components := by
  induction components generalizing stack with
  | nil => exact .inl h
  | cons component components ih =>
      rcases ih h with hstack | hrest
      · cases component with
        | root => simp [foldComponent] at hstack
        | current => exact .inl hstack
        | normal other =>
            rcases List.mem_cons.1 hstack with heq | hstack
            · exact .inr (heq ▸ List.mem_cons_self)
            · exact .inl hstack
        | parent =>
            cases stack with
            | nil => simp [foldComponent] at hstack
            | cons first above => cases first <;> simp_all [foldComponent]
      · exact .inr (List.mem_cons_of_mem component hrest)

private theorem letters_of_mem_stack {path : Path} {name : String} {c : Char}
    (h : .normal name ∈ path.stack) (hc : c ∈ name.toList) :
    c ∈ path.text.toList := by
  have hstart : .normal name ∉ path.start := by
    unfold start
    split <;> simp
  rw [stack, foldl_components (fun _ => rfl) (fun _ => rfl)] at h
  obtain ⟨piece, hpiece, hread⟩ :=
    List.mem_filterMap.1 ((normal_mem_foldl h).resolve_left hstart)
  have hname : name = String.ofList piece :=
    Component.segment_of_ofSegment? hread
  rw [hname, String.toList_ofList] at hc
  exact mem_of_mem_splitAtSlash hpiece hc

private theorem noBackslash_leadingText {components : List Component}
    (h : '\\' ∉ (ofComponents components).text.toList) :
    '\\' ∉ (leadingText components).toList := by
  unfold leadingText
  split
  · exact h
  · simp [h]

theorem Folded.noBackslash {stack : List Component} (h : Folded stack)
    (hnames : ∀ name, .normal name ∈ stack → '\\' ∉ name.toList) :
    '\\' ∉ (ofComponents stack.reverse).text.toList := by
  induction h with
  | empty => decide
  | root => decide
  | up => decide
  | rootUp => decide
  | @name name stack hname _ ih =>
      have habove :=
        noBackslash_leadingText (ih fun other hother =>
          hnames other (List.mem_cons_of_mem _ hother))
      rw [List.reverse_cons, text_ofComponents_concat _ hname.ne_root,
        String.toList_append, List.mem_append, not_or]
      exact ⟨habove, hnames name List.mem_cons_self⟩

theorem plain_normalize {path : Path} (h : '\\' ∉ path.text.toList) :
    path.normalize.Plain := by
  refine ⟨(folded_stack path).normalize_eq,
    (folded_stack path).noBackslash fun name hname hbackslash => ?_⟩
  exact h (letters_of_mem_stack hname hbackslash)

/-! ## The directory of a path -/

theorem Folded.last_cases {stack : List Component} (h : Folded stack) :
    stack = [] ∨ stack = [.root] ∨
      ∃ component below, stack = component :: below ∧ component.Inner ∧
        Folded below := by
  by_cases hempty : stack = []
  · exact .inl hempty
  · by_cases hroot : stack = [.root]
    · exact .inr (.inl hroot)
    · exact .inr (.inr (h.eq_cons hempty hroot))

section Last

variable {component : Component} {below : List Component}

private theorem segments_ofComponents_relative {components : List Component}
    (h : ∀ component ∈ components, component.Inner) (hne : components ≠ []) :
    (ofComponents components).segments = components.map fun component =>
      (component.segment, some component) := by
  obtain ⟨first, rest, rfl⟩ := List.exists_cons_of_ne_nil hne
  have hfirst := h first List.mem_cons_self
  have hrest : ∀ component ∈ rest, component.Inner :=
    fun component hmem => h component (List.mem_cons_of_mem first hmem)
  have hrelative : (ofComponents (first :: rest)).isAbsolute = false := by
    rw [← Bool.not_eq_true, isAbsolute_iff_head,
      components_ofComponents_relative h]
    simp [hfirst.ne_root]
  have htext : (ofComponents (first :: rest)).text.toList =
      ['/'].intercalate ((first :: rest).map fun component =>
        component.segment.toList) := by
    rw [ofComponents_relative h, ofSegments]
    simp [Function.comp_def]
  have hpieces : (splitAtSlash (ofComponents (first :: rest)).text.toList).map
      String.ofList =
      first.segment :: rest.map Component.segment := by
    rw [htext, splitAtSlash_segments h hne]
    simp [Function.comp_def]
  rw [segments, hpieces]
  simp only [hrelative, hfirst.segment_ne_dot, hfirst.read, List.map_cons,
    List.map_map, if_false, Bool.false_eq_true]
  congr 1
  exact List.map_congr_left fun component hmem => by
    rw [Function.comp_apply, (hrest component hmem).read]

theorem parent?_of_segments {path : Path} {before : List Component}
    (h : path.segments = (before ++ [component]).map fun component =>
      (component.segment, some component)) :
    path.parent? =
      some (ofSegments path.isAbsolute (before.map Component.segment)) := by
  rw [parent?, h, trimEnd_segments, ← List.map_reverse, List.reverse_append,
    List.reverse_singleton, List.singleton_append, List.map_cons]
  dsimp only
  rw [← List.map_reverse, List.reverse_reverse, trimEnd_segments, List.map_map]
  rfl

theorem Folded.of_cons (h : Folded (component :: below))
    (hcomponent : component.Inner) : Folded below := by
  cases h with
  | root => exact absurd rfl hcomponent.ne_root
  | up => exact .empty
  | rootUp => exact .root
  | name _ h => exact h

theorem Folded.parent?_cons (h : Folded (component :: below))
    (hcomponent : component.Inner) :
    (ofComponents (component :: below).reverse).parent? =
      some (ofComponents below.reverse) := by
  obtain ⟨before, hinner, hbefore⟩ := (h.of_cons hcomponent).exists_inner
  have hall : ∀ other ∈ before ++ [component], other.Inner := by
    intro other hother
    rcases List.mem_append.1 hother with hother | hother
    · exact hinner other hother
    · exact List.mem_singleton.1 hother ▸ hcomponent
  rw [List.reverse_cons]
  rcases hbefore with hbefore | hbefore <;> rw [hbefore]
  · have hrelative :
        (ofComponents (before ++ [component])).isAbsolute = false := by
      rw [← Bool.not_eq_true, isAbsolute_iff_head,
        components_ofComponents_relative hall]
      intro hhead
      exact (hall .root (List.mem_of_head? hhead)).ne_root rfl
    rw [parent?_of_segments (segments_ofComponents_relative hall (by simp)),
      hrelative, ofComponents_relative hinner]
  · have habsolute :
        (ofComponents (.root :: (before ++ [component]))).isAbsolute =
          true := by
      rw [isAbsolute_iff_head, components_ofComponents_root hall,
        List.head?_cons]
    rw [List.cons_append, parent?_of_segments
      (segments_ofComponents hall (by simp)), habsolute, ofComponents_root]

/-! ## The key of a path -/

theorem unifySeparators_of_noBackslash {text : String}
    (h : '\\' ∉ text.toList) : unifySeparators text = text := by
  have hkeep : text.toList.map unifyChar = text.toList :=
    calc
      text.toList.map unifyChar = text.toList.map id := by
        refine List.map_congr_left fun c hc => if_neg ?_
        rintro rfl
        exact h hc
      _ = text.toList := List.map_id _
  rw [unifySeparators_eq, hkeep, String.ofList_toList]

private theorem Plain.key_cases {path : Path} (h : path.Plain) :
    path.key = path.text ∨ ∃ name stem extension, path.fileName? = some name ∧
      splitName name = (stem, some extension) ∧ path.key = unifySeparators
        (path.withFileName stem).text := by
  have hnormal : normalize ⟨unifySeparators path.text⟩ = path := by
    rw [unifySeparators_of_noBackslash h.noBackslash]
    exact h.normal
  unfold key
  simp only [hnormal]
  split
  · exact .inl (unifySeparators_of_noBackslash h.noBackslash)
  · rename_i name hname
    split
    · rename_i stem extension hsplit
      split
      · exact .inr ⟨name, stem, extension, hname, hsplit, rfl⟩
      · exact .inl (unifySeparators_of_noBackslash h.noBackslash)
    · exact .inl (unifySeparators_of_noBackslash h.noBackslash)

private theorem Folded.exists_key_eq (h : Folded (component :: below))
    (hcomponent : component.Inner)
    (hplain : (ofComponents (component :: below).reverse).Plain) :
    ∃ last, last ≠ "" ∧ '/' ∉ last.toList ∧
      (ofComponents (component :: below).reverse).key =
        leadingText below.reverse ++ last := by
  have htext : (ofComponents (component :: below).reverse).text =
      leadingText below.reverse ++ component.segment := by
    rw [List.reverse_cons, text_ofComponents_concat _ hcomponent.ne_root]
  have hletters := hplain.noBackslash
  rw [htext, String.toList_append, List.mem_append, not_or] at hletters
  rcases hplain.key_cases
    with hkey | ⟨name, stem, extension, hname, hsplit, hkey⟩
  · exact ⟨component.segment, hcomponent.segment_ne_empty, hcomponent.noSlash,
      by rw [hkey, htext]⟩
  · obtain rfl : component = .normal name := by
      rw [fileName?, h.components_eq, List.reverse_cons, List.getLast?_concat]
        at hname
      cases component <;> simp_all
    obtain ⟨rfl, hstem, -⟩ := eq_append_of_splitName hsplit
    have hslash : '/' ∉ stem.toList :=
      fun hmem => hcomponent.noSlash_name (by simp [hmem])
    have hbackslash : '\\' ∉ stem.toList :=
      fun hmem => hletters.2 (by simp [Component.segment, hmem])
    have hrelative : isAbsolute ⟨stem⟩ = false := by
      rw [isAbsolute, beq_eq_false_iff_ne]
      exact fun hhead => hslash (List.mem_of_head? hhead)
    refine ⟨stem, hstem, hslash, ?_⟩
    rw [hkey, withFileName, hname, h.parent?_cons hcomponent,
      Option.getD_some, joinName,
      (h.of_cons hcomponent).text_join hrelative,
      unifySeparators_of_noBackslash (by simp [hletters.1, hbackslash])]

end Last

/-! ## One key, one directory -/

private theorem append_inj_of_slash {first second last last' : List Char}
    (hfirst : first = [] ∨ first.getLast? = some '/')
    (hsecond : second = [] ∨ second.getLast? = some '/') (hlast : '/' ∉ last)
    (hlast' : '/' ∉ last') (h : first ++ last = second ++ last') :
    first = second := by
  -- What one beginning has more than the other belongs to the end of the other
  -- text, where no slash is.
  have hmore {longer shorter more rest : List Char} (hlonger : longer = [] ∨
      longer.getLast? = some '/') (heq : longer = shorter ++ more)
        (hslash : '/' ∉ more ++ rest) : longer = shorter := by
    rcases List.eq_nil_or_concat more with rfl | ⟨letters, c, rfl⟩
    · rw [heq, List.append_nil]
    · have hc : c ≠ '/' := by
        rintro rfl
        simp at hslash
      simp [heq, hc] at hlonger
  rcases List.append_eq_append_iff.1 h
    with ⟨more, hfirst', hrest⟩ | ⟨more, hsecond', hrest⟩
  · exact (hmore hsecond hfirst' (hrest ▸ hlast)).symm
  · exact hmore hfirst hsecond' (hrest ▸ hlast')

theorem leadingText_cons {component : Component} (hcomponent : component.Inner)
    (below : List Component) :
    leadingText (component :: below).reverse =
      (ofComponents (component :: below).reverse).text ++ "/" := by
  refine if_neg ?_
  rw [List.reverse_eq_iff, List.reverse_eq_iff]
  simp [hcomponent.ne_root]

section Leading

variable {stack : List Component} (h : Folded stack)
include h

theorem leadingText_getLast? :
    (leadingText stack.reverse).toList = [] ∨
      (leadingText stack.reverse).toList.getLast? = some '/' := by
  rcases h.last_cases with rfl | rfl | ⟨component, below, rfl, hcomponent, -⟩
  · exact .inl (by decide)
  · exact .inr (by decide)
  · rw [leadingText_cons hcomponent]
    exact .inr (by simp)

theorem text_of_leadingText :
    (ofComponents stack.reverse).text.toList =
      if leadingText stack.reverse = "/" then ['/']
      else (leadingText stack.reverse).toList.dropLast := by
  rcases h.last_cases with rfl | rfl | ⟨component, below, rfl, hcomponent, -⟩
  · decide
  · decide
  · obtain ⟨c, -, hlast⟩ := Folded.text_getLast? hcomponent below
    have htext : (ofComponents (component :: below).reverse).text ≠ "" := by
      intro hnil
      rw [hnil] at hlast
      contradiction
    have hlong : (ofComponents (component :: below).reverse).text ++
        "/" ≠ "/" := by
      rw [ne_eq, ← String.toList_inj, String.toList_append]
      simpa using htext
    rw [leadingText_cons hcomponent, if_neg hlong]
    simp

end Leading

theorem Plain.directory_cases {path : Path} (h : path.Plain) :
    path.parent? = none ∧ (path.key = "" ∨ path.key = "/") ∨
      ∃ below last, Folded below ∧ last ≠ "" ∧ '/' ∉ last.toList ∧
        path.parent? = some (ofComponents below.reverse) ∧
        path.key = leadingText below.reverse ++ last := by
  have hfolded := folded_stack path
  have hpath : ofComponents path.stack.reverse = path := h.normal
  rcases hfolded.last_cases
    with hempty | hroot | ⟨component, below, hstack, hcomponent, hbelow⟩
  · rw [hempty] at hpath
    subst hpath
    exact .inl ⟨by decide, .inl (by decide)⟩
  · rw [hroot] at hpath
    subst hpath
    exact .inl ⟨by decide, .inr (by decide)⟩
  · rw [hstack] at hfolded hpath
    rw [← hpath] at h ⊢
    obtain ⟨last, hne, hslash, hkey⟩ := hfolded.exists_key_eq hcomponent h
    exact .inr ⟨below, last, hbelow, hne, hslash,
      hfolded.parent?_cons hcomponent, hkey⟩

theorem append_ne_of_noSlash (leading : String) {last : String}
    (hne : last ≠ "") (hslash : '/' ∉ last.toList) :
    leading ++ last ≠ "" ∧ leading ++ last ≠ "/" := by
  obtain ⟨letters, c, hletters⟩ :=
    List.eq_nil_or_concat last.toList |>.resolve_left fun hnil =>
      hne (String.toList_inj.1 hnil)
  have hc : c ≠ '/' := by
    rintro rfl
    simp [hletters] at hslash
  refine ⟨by simp [hne], fun heq => ?_⟩
  have hlast := congrArg (fun text : String => text.toList.getLast?) heq
  simp [hletters, hc] at hlast

theorem Plain.parent?_eq {first second : Path} (hfirst : first.Plain)
    (hsecond : second.Plain) (h : first.key = second.key) :
    first.parent? = second.parent? := by
  rcases hfirst.directory_cases
    with ⟨hparent, hkey⟩ | ⟨below, last, hbelow, hne, hslash, hparent, hkey⟩ <;>
    rcases hsecond.directory_cases
      with ⟨hparent', hkey'⟩ | ⟨below', last', hbelow', hne', hslash',
        hparent', hkey'⟩ <;>
    rw [hparent, hparent']
  · have hshort :=
      append_ne_of_noSlash (leadingText below'.reverse) hne' hslash'
    rw [← hkey', ← h] at hshort
    exact absurd hkey (by simp [hshort])
  · have hshort := append_ne_of_noSlash (leadingText below.reverse) hne hslash
    rw [← hkey, h] at hshort
    exact absurd hkey' (by simp [hshort])
  · rw [hkey, hkey', ← String.toList_inj, String.toList_append,
      String.toList_append] at h
    have hleading :=
      append_inj_of_slash (leadingText_getLast? hbelow)
        (leadingText_getLast? hbelow') hslash hslash' h
    rw [Option.some.injEq, Path.mk.injEq, ← String.toList_inj,
      text_of_leadingText hbelow, text_of_leadingText hbelow',
      String.toList_inj.1 hleading]

end ImportAtlas.Path
