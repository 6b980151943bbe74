import ImportAtlas.Path.Key
import ImportAtlas.Proofs.PathOrder

/-!
# File identity and the components of a path

The key of a path is computed from its text, after backslashes have become
slashes.  It depends only on the components of the path: the components of the
unified text are obtained from the components of the path one by one.  Paths
that denote the same place therefore have the same key.
-/

namespace ImportAtlas.Path

/-! ## Pieces between slashes -/

theorem exists_splitAtSlash_eq_cons (text : List Char) :
    ∃ piece pieces, splitAtSlash text = piece :: pieces := by
  fun_induction splitAtSlash text with
  | case1 => exact ⟨_, _, rfl⟩
  | case2 => exact ⟨_, _, rfl⟩
  | case3 => exact ⟨_, _, rfl⟩
  | case4 => exact ⟨_, _, rfl⟩

theorem splitAtSlash_slash (rest : List Char) :
    splitAtSlash ('/' :: rest) = [] :: splitAtSlash rest := by
  rw [splitAtSlash]

theorem splitAtSlash_cons {c : Char} {rest piece : List Char}
    {pieces : List (List Char)} (hc : c ≠ '/')
    (hrest : splitAtSlash rest = piece :: pieces) :
    splitAtSlash (c :: rest) = (c :: piece) :: pieces := by
  rw [splitAtSlash, hrest]
  exact hc

def unifyChar (c : Char) : Char :=
  if c = '\\' then '/' else c

theorem unifySeparators_eq (text : String) :
    unifySeparators text = String.ofList (text.toList.map unifyChar) := rfl

theorem splitAtSlash_unify (text : List Char) :
    splitAtSlash (text.map unifyChar) =
      (splitAtSlash text).flatMap fun piece =>
        splitAtSlash (piece.map unifyChar) := by
  induction text with
  | nil => rfl
  | cons c rest ih =>
      obtain ⟨piece, pieces, hrest⟩ := exists_splitAtSlash_eq_cons rest
      rw [hrest, List.flatMap_cons] at ih
      by_cases hslash : c = '/'
      · subst hslash
        have hkeep : unifyChar '/' = '/' := rfl
        rw [List.map_cons, hkeep, splitAtSlash_slash, splitAtSlash_slash,
          List.flatMap_cons, hrest, List.flatMap_cons, ih]
        rfl
      · rw [splitAtSlash_cons hslash hrest, List.flatMap_cons, List.map_cons,
          List.map_cons]
        by_cases hunified : unifyChar c = '/'
        · rw [hunified, splitAtSlash_slash, splitAtSlash_slash, ih]
          rfl
        · obtain ⟨head, tail, hhead⟩ :=
            exists_splitAtSlash_eq_cons (piece.map unifyChar)
          rw [hhead] at ih
          rw [splitAtSlash_cons hunified ih, splitAtSlash_cons hunified hhead]
          rfl

/-! ## Components of a text -/

def pieceComponents (pieces : List (List Char)) : List Component :=
  pieces.filterMap fun piece => Component.ofSegment? (String.ofList piece)

def headComponents (piece : List Char) : List Component :=
  if piece = ['.'] then [.current] else pieceComponents [piece]

theorem pieceComponents_append (first second : List (List Char)) :
    pieceComponents (first ++ second) = pieceComponents first ++
      pieceComponents second :=
  List.filterMap_append

theorem components_absolute (text : List Char) :
    components ⟨String.ofList ('/' :: text)⟩ =
      .root :: pieceComponents (splitAtSlash text) := by
  simp [components, segments, isAbsolute, splitAtSlash_slash, pieceComponents,
    List.filterMap_map, Function.comp_def]

theorem components_relative {text piece : List Char} {pieces : List (List Char)}
    (hhead : text.head? ≠ some '/')
    (hsplit : splitAtSlash text = piece :: pieces) :
    components ⟨String.ofList text⟩ = headComponents piece ++
      pieceComponents pieces := by
  have hrelative : isAbsolute ⟨String.ofList text⟩ = false := by
    simpa [isAbsolute] using hhead
  have hdot : String.ofList piece = "." ↔ piece = ['.'] := by
    rw [← String.toList_inj, String.toList_ofList]
    rfl
  simp only [components, segments, hrelative, String.toList_ofList, hsplit,
    List.map_cons]
  by_cases hpiece : piece = ['.']
  · simp [headComponents, hpiece, pieceComponents, List.filterMap_map,
      Function.comp_def]
  · have hsegment : String.ofList piece ≠ "." := fun h => hpiece (hdot.1 h)
    simp only [headComponents, if_neg hpiece, if_neg hsegment, pieceComponents,
      List.filterMap_cons, List.filterMap_nil]
    cases Component.ofSegment? (String.ofList piece) <;>
      simp [List.filterMap_map, Function.comp_def]

/-! ## Unified separators -/

/-- What a component becomes when backslashes separate too, unless it opens a
relative path. -/
def unifiedComponents (component : Component) : List Component :=
  pieceComponents (splitAtSlash (component.segment.toList.map unifyChar))

def unifiedPath : List Component → List Component
  | [] => []
  | .root :: rest => .root :: rest.flatMap unifiedComponents
  | first :: rest =>
    components ⟨unifySeparators first.segment⟩ ++ rest.flatMap unifiedComponents

theorem Component.segment_of_ofSegment? {segment : String}
    {component : Component} (h : ofSegment? segment = some component) :
    component.segment = segment := by
  unfold ofSegment? at h
  split at h <;> simp_all [Component.segment] <;> subst h <;> rfl

theorem Component.ofSegment?_eq_none {segment : String}
    (h : ofSegment? segment = none) :
    segment = "" ∨ segment = "." := by
  unfold ofSegment? at h
  split at h <;> simp_all

theorem pieceComponents_unify (pieces : List (List Char)) :
    pieceComponents (pieces.flatMap fun piece =>
      splitAtSlash (piece.map unifyChar)) =
      (pieceComponents pieces).flatMap unifiedComponents := by
  induction pieces with
  | nil => rfl
  | cons piece pieces ih =>
      rw [List.flatMap_cons, pieceComponents_append, ih]
      cases hpiece : Component.ofSegment? (String.ofList piece) with
      | none =>
          have hempty :
              pieceComponents (splitAtSlash (piece.map unifyChar)) = [] := by
            rcases Component.ofSegment?_eq_none hpiece with h | h <;>
              rw [← String.toList_inj, String.toList_ofList] at h <;>
              subst h <;> rfl
          rw [hempty]
          simp [pieceComponents, hpiece]
      | some component =>
          have hsegment := Component.segment_of_ofSegment? hpiece
          simp [pieceComponents, hpiece, unifiedComponents, hsegment]

theorem splitAtSlash_head {c : Char} {rest piece : List Char}
    {pieces : List (List Char)} (hc : c ≠ '/')
    (hsplit : splitAtSlash (c :: rest) = piece :: pieces) :
    ∃ tail, piece = c :: tail ∧ splitAtSlash rest = tail :: pieces := by
  obtain ⟨tail, others, hrest⟩ := exists_splitAtSlash_eq_cons rest
  rw [splitAtSlash_cons hc hrest, List.cons.injEq] at hsplit
  exact ⟨tail, hsplit.1.symm, by rw [hrest, hsplit.2]⟩

theorem headComponents_eq {piece : List Char} (hpiece : piece ≠ []) :
    ∃ component, headComponents piece = [component] ∧ component ≠ .root ∧
      component.segment = String.ofList piece := by
  by_cases hdot : piece = ['.']
  · exact ⟨.current, by rw [headComponents, if_pos hdot], by simp,
      by rw [hdot]; rfl⟩
  · cases hcomponent : Component.ofSegment? (String.ofList piece) with
    | none =>
        rcases Component.ofSegment?_eq_none hcomponent with h | h <;>
          rw [← String.toList_inj, String.toList_ofList] at h
        · exact absurd h hpiece
        · exact absurd h hdot
    | some component =>
        refine ⟨component, ?_, ?_, Component.segment_of_ofSegment? hcomponent⟩
        · simp [headComponents, hdot, pieceComponents, hcomponent]
        · rintro rfl
          have hsegment := Component.segment_of_ofSegment? hcomponent
          rw [← String.toList_inj, String.toList_ofList] at hsegment
          exact hpiece hsegment.symm

private theorem unifiedPath_cons {component : Component} (h : component ≠ .root)
    (rest : List Component) :
    unifiedPath (component :: rest) =
      components ⟨unifySeparators component.segment⟩ ++
        rest.flatMap unifiedComponents := by
  cases component with
  | root => exact absurd rfl h
  | current => rfl
  | parent => rfl
  | normal name => rfl

private theorem components_unify_relative {c : Char} {rest piece : List Char}
    {pieces : List (List Char)} (hc : c ≠ '/')
    (hsplit : splitAtSlash (c :: rest) = piece :: pieces) :
    components ⟨String.ofList ((c :: rest).map unifyChar)⟩ =
      components ⟨String.ofList (piece.map unifyChar)⟩ ++
        (pieceComponents pieces).flatMap unifiedComponents := by
  obtain ⟨tail, rfl, hrest⟩ := splitAtSlash_head hc hsplit
  have hunified := splitAtSlash_unify rest
  rw [hrest, List.flatMap_cons] at hunified
  rw [List.map_cons, List.map_cons]
  by_cases hslash : unifyChar c = '/'
  · rw [hslash, components_absolute, components_absolute, hunified,
      pieceComponents_append, pieceComponents_unify]
    rfl
  · obtain ⟨head, others, hhead⟩ :=
      exists_splitAtSlash_eq_cons (tail.map unifyChar)
    rw [hhead] at hunified
    have hrelative (text : List Char) :
        (unifyChar c :: text).head? ≠ some '/' := by
      simpa using hslash
    rw [components_relative (hrelative _) (splitAtSlash_cons hslash hunified),
      components_relative (hrelative _) (splitAtSlash_cons hslash hhead)]
    simp only [pieceComponents_append, pieceComponents_unify, List.append_eq,
      List.append_assoc]

theorem components_unify (path : Path) :
    components ⟨unifySeparators path.text⟩ = unifiedPath path.components := by
  obtain ⟨text⟩ := path
  obtain ⟨letters, rfl⟩ : ∃ letters, text = String.ofList letters :=
    ⟨text.toList, String.ofList_toList.symm⟩
  simp only [unifySeparators_eq, String.toList_ofList]
  cases letters with
  | nil => rfl
  | cons c rest =>
      by_cases hslash : c = '/'
      · subst hslash
        have hkeep : unifyChar '/' = '/' := rfl
        rw [List.map_cons, hkeep, components_absolute, components_absolute,
          splitAtSlash_unify, pieceComponents_unify]
        rfl
      · obtain ⟨piece, pieces, hsplit⟩ :=
          exists_splitAtSlash_eq_cons (c :: rest)
        obtain ⟨tail, hpiece, -⟩ := splitAtSlash_head hslash hsplit
        obtain ⟨component, hhead, hroot, hsegment⟩ :=
          headComponents_eq (by simp [hpiece] : piece ≠ [])
        have hrelative : (c :: rest).head? ≠ some '/' := by simpa using hslash
        rw [components_relative hrelative hsplit, hhead,
          components_unify_relative hslash hsplit,
          List.singleton_append, unifiedPath_cons hroot, hsegment,
          unifySeparators_eq, String.toList_ofList]

/-! ## Keys -/

theorem key_eq_of_same {first second : Path} (h : first.same second = true) :
    first.key = second.key := by
  have hcomponents : components ⟨unifySeparators first.text⟩ =
      components ⟨unifySeparators second.text⟩ := by
    rw [components_unify, components_unify, same_iff.1 h]
  simp only [key, normalize, hcomponents]

theorem sameFile_iff {first second : Path} :
    first.sameFile second = true ↔ first.key = second.key := by
  simp [sameFile]

theorem sameFile_eq_false_iff {first second : Path} :
    first.sameFile second = false ↔ first.key ≠ second.key := by
  simp [sameFile]

end ImportAtlas.Path
