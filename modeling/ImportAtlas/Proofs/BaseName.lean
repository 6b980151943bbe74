import ImportAtlas.Proofs.ScriptKey
import Mathlib.Data.List.DropRight

/-!
# Names and identities

A search by name looks at the text of a path, a search by file at its key.
Where a path ends in the name of a file both see the same name: what follows
the last separator of the text, without the extension of a script, is what
follows the last slash of the key.
-/

namespace ImportAtlas

/-! ## Last segments -/

def lastSegment (separators : List Char) (text : String) : String :=
  String.ofList (text.toList.rtakeWhile (!separators.contains ·))

/-- Whether a text ends in a name, and not in a separator, a dot or a double
dot. -/
structure Path.NamesFile (path : Path) : Prop where
  noSeparator : ∀ c ∈ path.text.toList.getLast?, c ≠ '/' ∧ c ≠ '\\'
  noDot : lastSegment ['/', '\\'] path.text ≠ "."
  noDots : lastSegment ['/', '\\'] path.text ≠ ".."

private theorem lastSegment_append {leading last : List Char}
    (hleading : leading = [] ∨ leading.getLast? = some '/')
    (hlast : '/' ∉ last) :
    lastSegment ['/'] (String.ofList (leading ++ last)) =
      String.ofList last := by
  have hkept : ∀ c ∈ last.reverse, (!(['/'].contains c)) = true := by
    intro c hc
    have hne : c ≠ '/' := by
      rintro rfl
      exact hlast (List.mem_reverse.1 hc)
    simp [hne]
  have hstop :
      leading.reverse.takeWhile (fun c => !(['/'].contains c)) = [] := by
    rcases hleading with rfl | hslash
    · rfl
    · obtain ⟨before, rfl⟩ := List.getLast?_eq_some_iff.1 hslash
      simp
  rw [lastSegment, String.toList_ofList, List.rtakeWhile, List.reverse_append,
    List.takeWhile_append_of_pos hkept, hstop, List.append_nil,
    List.reverse_reverse]

private theorem rtakeWhile_ne_nil {α : Type} {p : α → Bool} {letters : List α}
    {c : α} (hlast : letters.getLast? = some c) (hc : p c = true) :
    letters.rtakeWhile p ≠ [] := by
  obtain ⟨before, rfl⟩ := List.getLast?_eq_some_iff.1 hlast
  rw [List.rtakeWhile_concat_pos _ _ _ hc]
  simp

/-! ## Base names -/

private theorem dropScript_of_dots {name : String}
    (h : ∀ c ∈ name.toList, c = '.') : dropScript name = name := by
  rcases dropScript_cases name
    with ⟨stem, extension, hsplit, hscript, -⟩ | hname
  · obtain ⟨rfl, -, hdot⟩ := Path.eq_append_of_splitName hsplit
    have hempty : extension = "" := by
      rw [← String.toList_inj, String.toList_empty,
        List.eq_nil_iff_forall_not_mem]
      intro c hc
      have hc' : c = '.' := h c (by simp [hc])
      exact hdot (hc' ▸ hc)
    rw [hempty] at hscript
    exact absurd hscript (by decide)
  · exact hname

private theorem baseName_eq (text : String) :
    baseName text = dropScript (lastSegment ['/', '\\'] text) := by
  have hletters :
      (text.toList.reverse.takeWhile fun c => c != '/' && c != '\\').reverse =
      text.toList.rtakeWhile (fun c => !(['/', '\\'].contains c)) := by
    rw [List.rtakeWhile]
    congr 2
    funext c
    simp [bne, beq_eq_decide]
  unfold baseName
  simp only [hletters]
  rw [← lastSegment]
  generalize hname : lastSegment ['/', '\\'] text = name
  split
  · rename_i hdots
    refine (dropScript_of_dots fun c hc => ?_).symm
    rw [← hname, lastSegment, String.toList_ofList] at hc
    simpa using List.all_eq_true.1 hdots c hc
  · unfold dropScript
    rcases Path.splitName name with ⟨stem, _ | extension⟩
    · rfl
    · rfl

namespace Path

/-! ## The key by its last name -/

private theorem exists_joinName {path : Path}
    (hname : (Component.normal (lastSegment ['/', '\\'] path.text)).Inner) :
    ∃ directory : Path, ⟨unifySeparators path.text⟩ =
      directory.joinName (lastSegment ['/', '\\'] path.text) := by
  let inside (c : Char) : Bool := !(['/', '\\'].contains c)
  have hunify {c : Char} (hc : inside c = true) : unifyChar c = c := by
    refine if_neg ?_
    rintro rfl
    contradiction
  have hlast : (path.text.toList.rtakeWhile inside).map unifyChar =
      path.text.toList.rtakeWhile inside :=
    calc
      _ = (path.text.toList.rtakeWhile inside).map id :=
        List.map_congr_left fun c hc => hunify (List.mem_rtakeWhile_imp hc)
      _ = _ := List.map_id _
  generalize hbefore : path.text.toList.rdropWhile inside = before at *
  refine ⟨⟨String.ofList (before.map unifyChar)⟩, ?_⟩
  have hslash : before.map unifyChar = [] ∨
      (before.map unifyChar).getLast? = some '/' := by
    by_cases hnil : before = []
    · exact .inl (by rw [hnil]; rfl)
    · subst hbefore
      have hseparator := List.rdropWhile_last_not _ _ hnil
      refine .inr ?_
      rw [List.getLast?_map, List.getLast?_eq_some_getLast hnil]
      generalize (path.text.toList.rdropWhile inside).getLast hnil =
        c at hseparator
      have hcases : c = '/' ∨ c = '\\' := by
        simpa [inside, or_iff_not_imp_left] using hseparator
      rcases hcases with rfl | rfl <;> rfl
  have hletters : path.text.toList.map unifyChar = before.map unifyChar ++
      path.text.toList.rtakeWhile inside := by
    rw [← hlast, ← hbefore, ← List.map_append,
      List.rdropWhile_append_rtakeWhile]
  rw [joinName, join, if_neg (by simp [hname.not_isAbsolute]),
    if_pos (by simpa using hslash), Path.mk.injEq,
    unifySeparators_eq, hletters, ← String.toList_inj]
  simp [lastSegment, inside]

private theorem NamesFile.eq_empty_or_inner {path : Path} (h : path.NamesFile) :
    path.text = "" ∨
      (Component.normal (lastSegment ['/', '\\'] path.text)).Inner := by
  cases hlast : path.text.toList.getLast? with
  | none => exact .inl (String.toList_inj.1 (List.getLast?_eq_none_iff.1 hlast))
  | some c =>
      obtain ⟨hslash, hbackslash⟩ := h.noSeparator c hlast
      have hne :=
        rtakeWhile_ne_nil (p := (fun c => !(['/', '\\'].contains c))) hlast
          (by simp [hslash, hbackslash])
      refine .inr (Component.inner_normal ?_ h.noDot h.noDots ?_)
      · simpa [lastSegment] using hne
      · intro hmem
        rw [lastSegment, String.toList_ofList] at hmem
        exact absurd (List.mem_rtakeWhile_imp hmem) (by decide)

theorem NamesFile.baseName_eq_lastSegment {path : Path} (h : path.NamesFile) :
    baseName path.text = lastSegment ['/'] path.key := by
  rcases h.eq_empty_or_inner with hempty | hname
  · obtain ⟨text⟩ := path
    obtain rfl : text = "" := hempty
    decide
  · obtain ⟨directory, hdirectory⟩ := exists_joinName hname
    have hstack : stack ⟨unifySeparators path.text⟩ =
        .normal (lastSegment ['/', '\\'] path.text) :: directory.stack := by
      rw [hdirectory, stack_joinName directory hname]
    have hbase : ∀ c ∈ (dropScript (lastSegment ['/', '\\'] path.text)).toList,
        c ≠ '/' ∧ c ≠ '\\' := by
      intro c hc
      have hinside := mem_of_mem_dropScript hc
      rw [lastSegment, String.toList_ofList] at hinside
      simpa using List.mem_rtakeWhile_imp hinside
    have hleading : (leadingText directory.stack.reverse).toList.map
        unifyChar = [] ∨
        ((leadingText directory.stack.reverse).toList.map unifyChar).getLast? =
          some '/' := by
      rcases leadingText_getLast? (folded_stack directory) with hnil | hslash
      · exact .inl (by rw [hnil]; rfl)
      · exact .inr (by rw [List.getLast?_map, hslash]; rfl)
    rw [baseName_eq, key_eq_of_stack hstack, unifySeparators_append,
      unifySeparators_of_noBackslash fun hmem => (hbase _ hmem).2 rfl]
    generalize dropScript (lastSegment ['/', '\\'] path.text) = base at hbase
    have hkey : unifySeparators (leadingText directory.stack.reverse) ++ base =
        String.ofList ((leadingText directory.stack.reverse).toList.map
          unifyChar ++ base.toList) := by
      simp [unifySeparators_eq]
    rw [hkey, lastSegment_append hleading fun hmem => (hbase _ hmem).1 rfl,
      String.ofList_toList]

end Path

/--
Name matching and file identity agree: the base name of a path is the last
segment of its key, so paths of one file have one base name.
-/
theorem baseName_is_last_segment_of_key {path : Path} (hpath : path.NamesFile) :
    baseName path.text = lastSegment ['/'] path.key ∧
      ∀ other : Path, other.NamesFile → path.sameFile other = true →
        baseName path.text = baseName other.text := by
  refine ⟨hpath.baseName_eq_lastSegment, fun other hother hsame => ?_⟩
  rw [hpath.baseName_eq_lastSegment, hother.baseName_eq_lastSegment,
    Path.sameFile_iff.1 hsame]

private theorem Path.namesFile_iff {path : Path} :
    path.NamesFile ↔
      (path.text.toList.getLast?.all fun c => c != '/' && c != '\\') = true ∧
      lastSegment ['/', '\\'] path.text ≠ "." ∧
      lastSegment ['/', '\\'] path.text ≠ ".." := by
  have hlast :
      (path.text.toList.getLast?.all fun c => c != '/' && c != '\\') = true ↔
      ∀ c ∈ path.text.toList.getLast?, c ≠ '/' ∧ c ≠ '\\' := by
    cases path.text.toList.getLast? <;> simp
  rw [hlast]
  exact ⟨fun h => ⟨h.noSeparator, h.noDot, h.noDots⟩,
    fun ⟨hseparator, hdot, hdots⟩ => ⟨hseparator, hdot, hdots⟩⟩

instance (path : Path) : Decidable path.NamesFile :=
  decidable_of_iff' _ Path.namesFile_iff

theorem hidden_stories_named_alike :
    Path.NamesFile ⟨"src\\.\\lib/.Card.stories.TSX"⟩ ∧
      Path.NamesFile ⟨"src/lib/x/..\\.Card.stories"⟩ ∧
      baseName "src\\.\\lib/.Card.stories.TSX" = ".Card.stories" ∧
      baseName "src\\.\\lib/.Card.stories.TSX" =
        lastSegment ['/'] (Path.key ⟨"src\\.\\lib/.Card.stories.TSX"⟩) ∧
      baseName "src\\.\\lib/.Card.stories.TSX" =
        baseName "src/lib/x/..\\.Card.stories" := by
  have hfirst : Path.NamesFile ⟨"src\\.\\lib/.Card.stories.TSX"⟩ := by
    decide +kernel
  have hsecond : Path.NamesFile ⟨"src/lib/x/..\\.Card.stories"⟩ := by
    decide +kernel
  have hnames := baseName_is_last_segment_of_key hfirst
  exact ⟨hfirst, hsecond, by decide +kernel, hnames.1,
    hnames.2 _ hsecond (by decide +kernel)⟩

end ImportAtlas
