import ImportAtlas.Proofs.PathText

/-!
# Normal paths

The components read so far are folded on a stack, which holds names above at
most one double dot and at most one root.  Writing a folded stack as text and
reading the text again gives the same components, so a normal path is the only
text of its components and folding it changes nothing.
-/

namespace ImportAtlas.Path

/-! ## Folded stacks -/

/-- What the fold can leave on its stack. -/
inductive Folded : List Component → Prop
  | empty : Folded []
  | root : Folded [.root]
  | up : Folded [.parent]
  | rootUp : Folded [.parent, .root]
  | name {name : String} {stack : List Component} :
      (Component.normal name).Inner → Folded stack →
        Folded (.normal name :: stack)

def stack (path : Path) : List Component :=
  path.components.foldl foldComponent []

theorem normalize_eq (path : Path) :
    path.normalize = ofComponents path.stack.reverse := rfl

theorem Folded.foldComponent {stack : List Component} (h : Folded stack)
    {component : Component}
    (hname : ∀ name, component = .normal name → component.Inner) :
    Folded (foldComponent stack component) := by
  cases component with
  | root => exact .root
  | current => exact h
  | normal name => exact .name (hname name rfl) h
  | parent =>
      cases h with
      | empty => exact .up
      | root => exact .rootUp
      | up => exact .empty
      | rootUp => exact .root
      | name _ h => exact h

theorem Folded.foldl {stack components : List Component} (h : Folded stack)
    (hnames : ∀ name, .normal name ∈ components →
      (Component.normal name).Inner) :
    Folded (components.foldl Path.foldComponent stack) := by
  induction components generalizing stack with
  | nil => exact h
  | cons component components ih =>
      refine ih (h.foldComponent ?_) fun name hname =>
        hnames name (List.mem_cons_of_mem component hname)
      rintro name rfl
      exact hnames name List.mem_cons_self

theorem inner_of_normal_mem {path : Path} {name : String}
    (h : .normal name ∈ path.components) :
    (Component.normal name).Inner := by
  obtain ⟨text⟩ := path
  obtain ⟨letters, rfl⟩ : ∃ letters, text = String.ofList letters :=
    ⟨text.toList, String.ofList_toList.symm⟩
  obtain ⟨piece, pieces, hsplit⟩ := exists_splitAtSlash_eq_cons letters
  suffices hpieces : .normal name ∈ pieceComponents (splitAtSlash letters) from
    inner_of_mem_pieceComponents hpieces
  cases letters with
  | nil =>
      have hnil : components ⟨String.ofList []⟩ = [] := by decide
      rw [hnil] at h
      contradiction
  | cons c rest =>
      by_cases hslash : c = '/'
      · subst hslash
        rw [components_absolute] at h
        rw [splitAtSlash_slash]
        simpa [pieceComponents, Component.ofSegment?] using h
      · rw [components_relative (by simpa using hslash) hsplit] at h
        rw [hsplit, ← List.singleton_append, pieceComponents_append]
        rcases List.mem_append.1 h with h | h
        · unfold headComponents at h
          split at h
          · simp at h
          · exact List.mem_append_left _ h
        · exact List.mem_append_right _ h

theorem folded_stack (path : Path) : Folded path.stack :=
  Folded.empty.foldl fun _ => inner_of_normal_mem

namespace Folded

variable {stack : List Component}

private theorem foldl_reverse (h : Folded stack) :
    stack.reverse.foldl Path.foldComponent [] = stack := by
  induction h with
  | empty => rfl
  | root => rfl
  | up => rfl
  | rootUp => rfl
  | name _ _ ih =>
      rw [List.reverse_cons, List.foldl_append, ih]
      rfl

theorem exists_inner (h : Folded stack) :
    ∃ components : List Component, (∀ component ∈ components, component.Inner) ∧
      (stack.reverse = components ∨ stack.reverse = .root :: components) := by
  induction h with
  | empty => exact ⟨[], by simp, .inl rfl⟩
  | root => exact ⟨[], by simp, .inr rfl⟩
  | up => exact ⟨[.parent], by simp [Component.inner_parent], .inl rfl⟩
  | rootUp => exact ⟨[.parent], by simp [Component.inner_parent], .inr rfl⟩
  | @name name stack hname _ ih =>
      obtain ⟨components, hinner, hstack⟩ := ih
      refine ⟨components ++ [.normal name], ?_, ?_⟩
      · intro component hcomponent
        rcases List.mem_append.1 hcomponent with hcomponent | hcomponent
        · exact hinner component hcomponent
        · obtain rfl := List.mem_singleton.1 hcomponent
          exact hname
      · rw [List.reverse_cons]
        rcases hstack with hstack | hstack <;> simp [hstack]

theorem components_eq (h : Folded stack) :
    (ofComponents stack.reverse).components = stack.reverse := by
  obtain ⟨components, hinner, hstack | hstack⟩ := h.exists_inner
  · rw [hstack, components_ofComponents_relative hinner]
  · rw [hstack, components_ofComponents_root hinner]

theorem stack_eq (h : Folded stack) :
    (ofComponents stack.reverse).stack = stack := by
  rw [Path.stack, h.components_eq, h.foldl_reverse]

theorem normalize_eq (h : Folded stack) :
    (ofComponents stack.reverse).normalize = ofComponents stack.reverse := by
  rw [Path.normalize_eq, h.stack_eq]

end Folded

theorem components_normalize (path : Path) :
    path.normalize.components = path.stack.reverse :=
  (folded_stack path).components_eq

/-! ## The last component -/

def leadingText (components : List Component) : String :=
  if components = [] ∨ components = [.root] then (ofComponents components).text
  else (ofComponents components).text ++ "/"

theorem ofComponents_cons {component : Component} (h : component ≠ .root)
    (components : List Component) :
    ofComponents (component :: components) =
      ofSegments false ((component :: components).map Component.segment) := by
  cases component with
  | root => contradiction
  | current => rfl
  | parent => rfl
  | normal name => rfl

theorem text_ofComponents_concat {component : Component}
    (components : List Component) (h : component ≠ .root) :
    (ofComponents (components ++ [component])).text = leadingText components ++
      component.segment := by
  cases components with
  | nil =>
      rw [List.nil_append, ofComponents_cons h]
      simp [ofSegments, leadingText, ofComponents]
  | cons first rest =>
      have hjoin : rest ≠ [] →
          "/".intercalate (rest.map Component.segment ++ [component.segment]) =
          "/".intercalate (rest.map Component.segment) ++ "/" ++
            component.segment := by
        intro hrest
        rw [String.intercalate_append_of_ne_nil (by simpa using hrest)
          (by simp), String.intercalate_singleton]
      by_cases hroot : first = .root
      · subst hroot
        by_cases hrest : rest = []
        · simp [hrest, leadingText, ofComponents_root, ofSegments]
        · rw [List.cons_append, leadingText, if_neg (by simp [hrest]),
            ofComponents_root, ofComponents_root]
          simp [ofSegments, hjoin hrest, String.append_assoc]
      · rw [List.cons_append, leadingText, if_neg (by simp [hroot]),
          ofComponents_cons hroot, ofComponents_cons hroot]
        have hall : "/".intercalate ((first :: rest).map Component.segment ++
            [component.segment]) =
            "/".intercalate ((first :: rest).map Component.segment) ++ "/" ++
              component.segment := by
          rw [String.intercalate_append_of_ne_nil (by simp) (by simp),
            String.intercalate_singleton]
        simpa [ofSegments] using hall

namespace Folded

variable {stack : List Component}

theorem eq_cons (h : Folded stack) (hempty : stack ≠ [])
    (hroot : stack ≠ [.root]) :
    ∃ component below, stack = component :: below ∧ component.Inner ∧
      Folded below := by
  cases h with
  | empty => contradiction
  | root => contradiction
  | up => exact ⟨.parent, [], rfl, Component.inner_parent, .empty⟩
  | rootUp => exact ⟨.parent, [.root], rfl, Component.inner_parent, .root⟩
  | name hname hbelow => exact ⟨_, _, rfl, hname, hbelow⟩

theorem text_getLast? {component : Component} (hcomponent : component.Inner)
    (below : List Component) :
    ∃ c, c ≠ '/' ∧
      (ofComponents (component :: below).reverse).text.toList.getLast? =
        some c := by
  have hne := hcomponent.segment_toList_ne_nil
  refine ⟨component.segment.toList.getLast hne, ?_, ?_⟩
  · intro hslash
    exact hcomponent.noSlash (hslash ▸ List.getLast_mem hne)
  · rw [List.reverse_cons, text_ofComponents_concat _ hcomponent.ne_root,
      String.toList_append, List.getLast?_append,
      List.getLast?_eq_some_getLast hne, Option.some_or]

theorem text_join (h : Folded stack) {next : Path}
    (hnext : next.isAbsolute = false) :
    ((ofComponents stack.reverse).join next).text =
      leadingText stack.reverse ++ next.text := by
  rw [join, if_neg (by simp [hnext])]
  by_cases hshort : stack = [] ∨ stack = [.root]
  · rcases hshort with rfl | rfl
    · simp [leadingText, ofComponents, ofSegments]
    · simp [leadingText, ofComponents, ofSegments]
  · rw [not_or] at hshort
    obtain ⟨component, below, rfl, hcomponent, -⟩ := h.eq_cons hshort.1 hshort.2
    obtain ⟨c, hslash, hlast⟩ := text_getLast? hcomponent below
    have hlong : ¬((component :: below).reverse = [] ∨
        (component :: below).reverse = [.root]) := by
      simp only [List.reverse_eq_iff]
      simpa using hshort.2
    have htext : (ofComponents (component :: below).reverse).text ≠ "" := by
      intro hempty
      rw [hempty] at hlast
      contradiction
    have hinside : ¬((ofComponents (component :: below).reverse).text.isEmpty ||
        (ofComponents (component :: below).reverse).text.toList.getLast? ==
          some '/') = true := by
      rw [hlast, Bool.or_eq_true, String.isEmpty_iff, beq_iff_eq,
        Option.some.injEq]
      exact not_or.2 ⟨htext, hslash⟩
    rw [if_neg hinside, leadingText, if_neg hlong]

theorem joinName_eq (h : Folded stack) {name : String}
    (hname : (Component.normal name).Inner) :
    (ofComponents stack.reverse).joinName name =
      ofComponents (.normal name :: stack).reverse := by
  rw [joinName, Path.mk.injEq, h.text_join hname.not_isAbsolute,
    List.reverse_cons, text_ofComponents_concat _ hname.ne_root]
  rfl

end Folded

theorem trimEnd_segments (components : List Component) :
    trimEnd (components.map fun component =>
      (component.segment, some component)) =
      components.map fun component => (component.segment, some component) := by
  have hkeep (components : List Component) :
      (components.map fun component =>
        (component.segment, some component)).dropWhile
          (fun segment => segment.2.isNone) =
        components.map fun component =>
          (component.segment, some component) := by
    cases components <;> simp
  rw [trimEnd, ← List.map_reverse, hkeep, List.map_reverse,
    List.reverse_reverse]

theorem Folded.exists_inner_of_root {stack : List Component} (h : Folded stack)
    (hroot : .root ∈ stack) :
    ∃ components : List Component, (∀ component ∈ components, component.Inner) ∧
      stack.reverse = .root :: components := by
  obtain ⟨components, hinner, hstack | hstack⟩ := h.exists_inner
  · rw [← List.mem_reverse, hstack] at hroot
    exact absurd rfl (hinner .root hroot).ne_root
  · exact ⟨components, hinner, hstack⟩

theorem Folded.parent?_eq {stack : List Component} {name : String}
    (h : Folded stack) (hroot : .root ∈ stack)
    (hname : (Component.normal name).Inner) :
    (ofComponents (.normal name :: stack).reverse).parent? =
      some (ofComponents stack.reverse) := by
  obtain ⟨components, hinner, hstack⟩ := h.exists_inner_of_root hroot
  have hall : ∀ component ∈ components ++ [.normal name], component.Inner := by
    intro component hcomponent
    rcases List.mem_append.1 hcomponent with hcomponent | hcomponent
    · exact hinner component hcomponent
    · obtain rfl := List.mem_singleton.1 hcomponent
      exact hname
  have habsolute :
      (ofComponents (.root :: (components ++ [.normal name]))).isAbsolute =
        true := by
    rw [isAbsolute_iff_head, components_ofComponents_root hall]
    rfl
  rw [List.reverse_cons, hstack, List.cons_append, parent?,
    segments_ofComponents hall (by simp), trimEnd_segments,
    ← List.map_reverse, List.reverse_append, List.reverse_singleton,
    List.singleton_append, List.map_cons]
  dsimp only
  rw [← List.map_reverse, List.reverse_reverse, trimEnd_segments, habsolute,
    List.map_map, ofComponents_root]
  rfl

theorem fileName?_concat {stack : List Component} {name : String}
    (h : Folded (.normal name :: stack)) :
    (ofComponents (.normal name :: stack).reverse).fileName? = some name := by
  rw [fileName?, h.components_eq, List.reverse_cons, List.getLast?_concat]

/-! ## Absolute paths -/

theorem components_of_isAbsolute {path : Path} (h : path.isAbsolute = true) :
    path.components =
      .root :: pieceComponents (splitAtSlash path.text.toList) := by
  obtain ⟨text⟩ := path
  obtain ⟨letters, rfl⟩ : ∃ letters, text = String.ofList letters :=
    ⟨text.toList, String.ofList_toList.symm⟩
  cases letters with
  | nil => simp [isAbsolute] at h
  | cons c rest =>
      obtain rfl : c = '/' := by simpa [isAbsolute] using h
      rw [components_absolute, String.toList_ofList, splitAtSlash_slash]
      rfl

theorem isAbsolute_append {first : String} (h : isAbsolute ⟨first⟩ = true)
    (second : String) :
    isAbsolute ⟨first ++ second⟩ = true := by
  rw [isAbsolute, beq_iff_eq] at *
  rw [String.toList_append, List.head?_append, h, Option.some_or]

theorem components_join {directory next : Path}
    (hdirectory : directory.isAbsolute = true)
    (hnext : next.isAbsolute = false) :
    (directory.join next).components = directory.components ++
      pieceComponents (splitAtSlash next.text.toList) := by
  have hempty : directory.text.isEmpty = false := by
    rw [Bool.eq_false_iff, ne_eq, String.isEmpty_iff]
    intro hempty
    rw [isAbsolute, hempty] at hdirectory
    contradiction
  rw [join, if_neg (by simp [hnext]), hempty, Bool.false_or,
    components_of_isAbsolute hdirectory, List.cons_append]
  by_cases hlast : directory.text.toList.getLast? = some '/'
  · obtain ⟨before, hbefore⟩ := List.getLast?_eq_some_iff.1 hlast
    have hend : pieceComponents (splitAtSlash []) = [] := rfl
    rw [if_pos (by simp [hlast]), components_of_isAbsolute
      (isAbsolute_append hdirectory _), String.toList_append,
      hbefore, List.append_assoc, List.singleton_append, splitAtSlash_append,
      splitAtSlash_append,
      pieceComponents_append, pieceComponents_append, hend, List.append_nil]
  · have habsolute :=
      isAbsolute_append (isAbsolute_append hdirectory "/") next.text
    have hslash : "/".toList = ['/'] := rfl
    rw [if_neg (by simp [hlast]), components_of_isAbsolute habsolute,
      String.toList_append, String.toList_append, hslash, List.append_assoc,
      List.singleton_append, splitAtSlash_append, pieceComponents_append]

private theorem root_mem_foldComponent {stack : List Component}
    (h : .root ∈ stack) (component : Component) :
    .root ∈ foldComponent stack component := by
  cases component with
  | root => exact List.mem_singleton_self _
  | current => exact h
  | normal name => exact List.mem_cons_of_mem _ h
  | parent =>
      cases stack with
      | nil => contradiction
      | cons first above => cases first <;> simp_all [foldComponent]

private theorem root_mem_foldl {stack : List Component} (h : .root ∈ stack)
    (components : List Component) :
    .root ∈ components.foldl foldComponent stack := by
  induction components generalizing stack with
  | nil => exact h
  | cons component components ih =>
    exact ih (root_mem_foldComponent h component)

theorem root_mem_stack {path : Path} (h : path.isAbsolute = true) :
    .root ∈ path.stack := by
  rw [stack, components_of_isAbsolute h]
  exact root_mem_foldl (List.mem_singleton_self _) _

end ImportAtlas.Path
