import ImportAtlas.Proofs.PathTrail
import ImportAtlas.Proofs.RelativeSpecifier

/-!
# The directories above a path

The parent of an absolute path denotes the path without its last component,
however both are written. So the ancestors of a path denote its beginnings,
each one component shorter than the one before.
-/

namespace ImportAtlas.Path

/-! ## Parents -/

def IsRead (segment : String × Option Component) : Prop :=
  '/' ∉ segment.1.toList ∧ segment.2 = Component.ofSegment? segment.1

private theorem isRead_of_mem_segments {path : Path}
    (h : path.isAbsolute = true) {segment : String × Option Component}
    (hsegment : segment ∈ path.segments) : IsRead segment := by
  obtain ⟨piece, pieces, hsplit⟩ := exists_splitAtSlash_eq_cons path.text.toList
  simp only [segments, hsplit, h, List.map_cons, if_true, List.mem_map]
    at hsegment
  obtain ⟨text, ⟨letters, hletters, rfl⟩, rfl⟩ := hsegment
  have hmem : letters ∈ splitAtSlash path.text.toList :=
    hsplit ▸ List.mem_cons_of_mem piece hletters
  exact ⟨by simpa using not_mem_of_mem_splitAtSlash hmem, rfl⟩

private theorem components_ofSegments
    {segments : List (String × Option Component)}
    (h : ∀ segment ∈ segments, IsRead segment) :
    (ofSegments true (segments.map Prod.fst)).components =
      .root :: segments.filterMap Prod.snd := by
  have habsolute : (ofSegments true (segments.map Prod.fst)).isAbsolute =
    true := by simp [ofSegments, isAbsolute]
  have hread : (segments.map Prod.fst).filterMap Component.ofSegment? =
      segments.filterMap Prod.snd := by
    rw [List.filterMap_map]
    exact List.filterMap_congr fun segment hsegment =>
      (h segment hsegment).2.symm
  rw [components_of_isAbsolute habsolute, ← hread]
  by_cases hempty : segments = []
  · subst hempty
    rfl
  · have hslash : ∀ text ∈ segments.map Prod.fst, '/' ∉ text.toList := by
      intro text htext
      obtain ⟨segment, hsegment, rfl⟩ := List.mem_map.1 htext
      exact (h segment hsegment).1
    rw [← pieceComponents_intercalate hslash (by simpa using hempty)]
    simp [ofSegments, splitAtSlash_slash, pieceComponents, Component.ofSegment?]

theorem trimEnd_append (segments : List (String × Option Component)) :
    ∃ rest, segments = trimEnd segments ++ rest ∧
      rest.filterMap Prod.snd = [] := by
  refine ⟨(segments.reverse.takeWhile fun segment => segment.2.isNone).reverse,
    ?_, ?_⟩
  · rw [trimEnd, ← List.reverse_append, List.takeWhile_append_dropWhile,
      List.reverse_reverse]
  · rw [List.filterMap_eq_nil_iff]
    intro segment hsegment
    have hnone := List.mem_takeWhile_imp (List.mem_reverse.1 hsegment)
    exact Option.isNone_iff_eq_none.1 hnone

theorem filterMap_trimEnd (segments : List (String × Option Component)) :
    (trimEnd segments).filterMap Prod.snd = segments.filterMap Prod.snd := by
  obtain ⟨rest, hsegments, hrest⟩ := trimEnd_append segments
  conv_rhs => rw [hsegments, List.filterMap_append, hrest, List.append_nil]

theorem mem_of_mem_trimEnd {segments : List (String × Option Component)}
    {segment : String × Option Component} (h : segment ∈ trimEnd segments) :
    segment ∈ segments := by
  obtain ⟨rest, hsegments, -⟩ := trimEnd_append segments
  rw [hsegments]
  exact List.mem_append_left rest h

theorem components_eq_segments {path : Path} (h : path.isAbsolute = true) :
    path.components = .root :: path.segments.filterMap Prod.snd := by
  rw [components, if_pos h, List.singleton_append]

/-- An absolute path is the root, or one component longer than its parent. -/
theorem parent?_cases {path : Path} (h : path.isAbsolute = true) :
    path.parent? = none ∧ path.components = [.root] ∨
      ∃ above component, path.parent? = some above ∧ above.isAbsolute = true ∧
        path.components = above.components ++ [component] := by
  have hcomponents := components_eq_segments h
  rw [← filterMap_trimEnd] at hcomponents
  rw [parent?]
  cases hlast : (trimEnd path.segments).reverse with
  | nil =>
      rw [List.reverse_eq_nil_iff] at hlast
      rw [hlast] at hcomponents
      exact .inl ⟨rfl, hcomponents⟩
  | cons last before =>
      obtain ⟨segment, component⟩ := last
      -- what is left after trimming ends in a component
      obtain ⟨component, rfl⟩ : ∃ found, component = some found := by
        have hhead :=
          List.head?_dropWhile_not (fun segment =>
            Option.isNone (Prod.snd segment)) path.segments.reverse
        rw [trimEnd, List.reverse_reverse] at hlast
        rw [hlast, List.head?_cons] at hhead
        exact Option.isSome_iff_exists.1 (by simpa using hhead)
      have htrimmed : trimEnd path.segments = before.reverse ++
          [(segment, some component)] := by
        rw [← List.reverse_reverse (trimEnd path.segments), hlast,
          List.reverse_cons]
      have hread : ∀ segment ∈ trimEnd before.reverse, IsRead segment := by
        intro segment hsegment
        apply isRead_of_mem_segments h
        apply mem_of_mem_trimEnd
        rw [htrimmed]
        exact List.mem_append_left _ (mem_of_mem_trimEnd hsegment)
      rw [h]
      refine .inr ⟨_, component, rfl, by simp [ofSegments, isAbsolute], ?_⟩
      rw [components_ofSegments hread, filterMap_trimEnd, hcomponents, htrimmed,
        List.filterMap_append]
      rfl

/-! ## Ancestors -/

def depth (path : Path) : Nat :=
  path.components.length

theorem depth_pos {path : Path} (h : path.isAbsolute = true) :
    0 < path.depth := by
  rw [depth, components_of_isAbsolute h]
  simp

theorem depth_parent {path above : Path} (h : path.isAbsolute = true)
    (hparent : path.parent? = some above) :
    above.isAbsolute = true ∧ path.depth = above.depth + 1 ∧
      above.components <+: path.components := by
  rcases parent?_cases h
    with ⟨hnone, -⟩ | ⟨other, component, hother, habsolute, hcomponents⟩
  · rw [hnone] at hparent
    contradiction
  · obtain rfl : other = above := Option.some.inj (hother ▸ hparent)
    refine ⟨habsolute, ?_, component :: [], hcomponents.symm⟩
    rw [depth, hcomponents, List.length_append, List.length_singleton, depth]

private theorem loop_eq_loop {path : Path} (h : path.isAbsolute = true)
    {count other : Nat} (hcount : path.depth ≤ count)
    (hother : path.depth ≤ other) :
    ancestors.loop path count = ancestors.loop path other := by
  have hpos := depth_pos h
  induction count generalizing path other with
  | zero => omega
  | succ count ih =>
      obtain ⟨other, rfl⟩ : ∃ less, other = less + 1 := ⟨other - 1, by omega⟩
      rw [ancestors.loop, ancestors.loop]
      cases hparent : path.parent? with
      | none => rfl
      | some above =>
          obtain ⟨habsolute, hdepth, -⟩ := depth_parent h hparent
          exact congrArg (path :: ·)
            (ih habsolute (by omega) (by omega) (depth_pos habsolute))

theorem ancestors_eq_cons {path : Path} (h : path.isAbsolute = true) :
    path.ancestors = path :: (path.parent?.map ancestors).getD [] := by
  have hdepth : path.components.length = (path.depth - 1) + 1 :=
    (Nat.sub_add_cancel (depth_pos h)).symm
  rw [ancestors, hdepth, ancestors.loop]
  cases hparent : path.parent? with
  | none => rfl
  | some above =>
      obtain ⟨habsolute, hless, -⟩ := depth_parent h hparent
      exact congrArg (path :: ·)
        (loop_eq_loop habsolute (by omega) (Nat.le_refl above.depth))

theorem absolute_induction {motive : (path : Path) →
      path.isAbsolute = true → Prop}
    (step : ∀ path h, (∀ above habove, path.parent? = some above →
      motive above habove) → motive path h)
    (path : Path) (h : path.isAbsolute = true) : motive path h := by
  induction hdepth : path.depth generalizing path with
  | zero => exact absurd hdepth (Nat.ne_of_gt (depth_pos h))
  | succ depth ih =>
      refine step path h fun above habove hparent => ?_
      obtain ⟨-, hless, -⟩ := depth_parent h hparent
      exact ih above habove (by omega)

theorem mem_ancestors {path directory : Path} (h : path.isAbsolute = true)
    (hdirectory : directory ∈ path.ancestors) :
    directory.isAbsolute = true ∧ directory.components <+: path.components := by
  induction path, h using absolute_induction with
  | step path h ih =>
      rw [ancestors_eq_cons h] at hdirectory
      rcases List.mem_cons.1 hdirectory with rfl | hdirectory
      · exact ⟨h, List.prefix_refl _⟩
      · cases hparent : path.parent? with
        | none => simp [hparent] at hdirectory
        | some above =>
            obtain ⟨habove, -, hbeginning⟩ := depth_parent h hparent
            obtain ⟨habsolute, hbelow⟩ :=
              ih above habove hparent (by simpa [hparent] using hdirectory)
            exact ⟨habsolute, hbelow.trans hbeginning⟩

theorem ancestors_pairwise {path : Path} (h : path.isAbsolute = true) :
    path.ancestors.Pairwise fun first second => second.depth < first.depth := by
  induction path, h using absolute_induction with
  | step path h ih =>
      rw [ancestors_eq_cons h]
      cases hparent : path.parent? with
      | none => simp
      | some above =>
          obtain ⟨habsolute, hdepth, -⟩ := depth_parent h hparent
          refine List.pairwise_cons.2 ⟨fun directory hdirectory => ?_,
            ih above habsolute hparent⟩
          have hle := (mem_ancestors habsolute hdirectory).2.length_le
          rw [hdepth]
          exact Nat.lt_succ_of_le hle

/-! ## Paths below a directory -/

private theorem normalize_eq_of_components {first second : Path}
    (h : first.components = second.components) :
    first.normalize = second.normalize := by
  rw [normalize, normalize, h]

theorem names_joinName {directory : Path} (h : directory.isAbsolute = true)
    {name : String} (hname : (Component.normal name).Inner) :
    (directory.joinName name).names = directory.names ++ [name] := by
  rw [names, components_joinName directory hname h, List.filterMap_append]
  rfl

private theorem components_eq_names {path : Path} (h : path.isAbsolute = true)
    (hup : .parent ∉ path.components) :
    path.components = .root :: path.names.map .normal := by
  have hcomponents : path.components = .root :: path.steps :=
    components_of_isAbsolute h
  have hnormal : ∀ component ∈ path.steps,
      ∃ name, component = .normal name := by
    intro component hcomponent
    refine (steps_inner hcomponent).eq_normal ?_
    rintro rfl
    exact hup (by rw [hcomponents]; exact List.mem_cons_of_mem _ hcomponent)
  rw [names, hcomponents, List.filterMap_cons_none rfl,
    map_normal_names hnormal]

theorem length_names {path : Path} (h : path.isAbsolute = true)
    (hup : .parent ∉ path.components) :
    path.names.length + 1 = path.depth := by
  rw [depth, components_eq_names h hup, List.length_cons, List.length_map]

theorem normalize_beside {directory : Path} (h : directory.isAbsolute = true)
    {name : String} (hname : (Component.normal name).Inner) (next : Path) :
    (((directory.joinName name).parent?.getD ⟨""⟩).join next).normalize =
      (directory.join next).normalize := by
  have habsolute := (isAbsolute_joinName directory hname).trans h
  have hcomponents := components_joinName directory hname h
  rcases parent?_cases habsolute
    with ⟨-, hroot⟩ | ⟨above, component, hparent, habove, hlast⟩
  · rw [hcomponents, components_of_isAbsolute h] at hroot
    simp at hroot
  · rw [hparent, Option.getD_some]
    have hsame : above.components = directory.components := by
      rw [hlast] at hcomponents
      exact (List.append_inj' hcomponents rfl).1
    by_cases hnext : next.isAbsolute = true
    · rw [join, join, if_pos hnext, if_pos hnext]
    · rw [Bool.not_eq_true] at hnext
      apply normalize_eq_of_components
      rw [components_join habove hnext, components_join h hnext, hsame]

end ImportAtlas.Path
