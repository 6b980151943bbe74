import ImportAtlas.Proofs.PlainPath

/-!
# Keys of scripts

The last name of a path begins after its last separator, and for the key of a
path a backslash is a separator too.  Dropping the extension of a script from
that name leaves a key without the extension, unless nothing stands before it:
a name that is only a dot and an extension is kept as it is.
-/

namespace ImportAtlas

/-! ## Names without the extension of a script -/

def dropScript (name : String) : String :=
  match Path.splitName name with
  | (stem, some extension) => if isScriptExtension extension then stem else name
  | _ => name

theorem dropScript_cases (name : String) :
    (∃ stem extension, Path.splitName name = (stem, some extension) ∧
      isScriptExtension extension = true ∧
      dropScript name = stem) ∨ dropScript name = name := by
  unfold dropScript
  split
  · rename_i stem extension hsplit
    by_cases hscript : isScriptExtension extension = true
    · exact .inl ⟨stem, extension, hsplit, hscript, if_pos hscript⟩
    · exact .inr (if_neg hscript)
  · exact .inr rfl

theorem mem_of_mem_dropScript {name : String} {c : Char}
    (hc : c ∈ (dropScript name).toList) : c ∈ name.toList := by
  rcases dropScript_cases name with ⟨stem, extension, hsplit, -, hstem⟩ | hname
  · obtain ⟨rfl, -, -⟩ := Path.eq_append_of_splitName hsplit
    rw [hstem] at hc
    simp [hc]
  · rwa [hname] at hc

namespace Path

/-! ## The key by the last name -/

theorem key_eq_of_stack {path : Path} {name : String} {below : List Component}
    (hstack : stack ⟨unifySeparators path.text⟩ = .normal name :: below) :
    path.key = unifySeparators (leadingText below.reverse ++
      dropScript name) := by
  have hfolded := folded_stack ⟨unifySeparators path.text⟩
  rw [hstack] at hfolded
  cases hfolded with
  | name hinner hbelow =>
      have hfileName := fileName?_concat (.name hinner hbelow)
      have hparent := Folded.parent?_cons (.name hinner hbelow) hinner
      have htext : (ofComponents (.normal name :: below).reverse).text =
          leadingText below.reverse ++ name := by
        rw [List.reverse_cons, text_ofComponents_concat _ hinner.ne_root,
          Component.segment]
      have hdropped : (ofComponents below.reverse).joinName (dropScript name) =
          ⟨leadingText below.reverse ++ dropScript name⟩ := by
        have hrelative : isAbsolute ⟨dropScript name⟩ = false := by
          rw [isAbsolute, beq_eq_false_iff_ne]
          exact fun hhead =>
            hinner.noSlash_name
              (mem_of_mem_dropScript (List.mem_of_head? hhead))
        rw [joinName, Path.mk.injEq, hbelow.text_join hrelative]
      simp only [key, normalize_eq, hstack, hfileName]
      rcases hsplit : splitName name with ⟨stem, _ | extension⟩
      · simp only [htext, dropScript, hsplit]
      · by_cases hscript : isScriptExtension extension = true
        · have hstem : dropScript name = stem := by
            simp [dropScript, hsplit, hscript]
          rw [hstem] at hdropped ⊢
          simp only [hscript, if_true, withFileName, hfileName, hparent,
            Option.getD_some, hdropped]
        · simp only [dropScript, hsplit, hscript, Bool.false_eq_true,
            if_false, htext]

/-! ## Scripts of one stem -/

theorem unifySeparators_append (first second : String) :
    unifySeparators (first ++ second) = unifySeparators first ++
      unifySeparators second := by
  simp [unifySeparators_eq]

theorem unifySeparators_extension {extension : String}
    (h : extension ∈ scriptExtensions) :
    unifySeparators extension = extension := by
  have hall : ∀ extension ∈ scriptExtensions,
    unifySeparators extension = extension := by decide
  exact hall extension h

private theorem isScriptExtension_of_mem {extension : String}
    (h : extension ∈ scriptExtensions) :
    isScriptExtension extension = true :=
  List.any_eq_true.2 ⟨extension, h, by simp [sameLetters]⟩

/-- The directory and the name at the end of a text, when backslashes separate
too. -/
structure EndsIn (text : String) (before name : List Char) : Prop where
  letters : text.toList.map unifyChar = before ++ '/' :: name
  noSlash : '/' ∉ name
  absolute : isAbsolute ⟨String.ofList (before ++ ['/'])⟩ = true

private theorem exists_endsIn {text : String} (h : isAbsolute ⟨text⟩ = true) :
    ∃ before name, EndsIn text before name := by
  obtain ⟨rest, hrest⟩ : ∃ rest, text.toList = '/' :: rest := by
    rw [isAbsolute, beq_iff_eq, List.head?_eq_some_iff] at h
    exact h
  have hslash : '/' ∈ (text.toList.map unifyChar).reverse := by
    rw [List.mem_reverse, hrest]
    exact List.mem_cons_self
  -- The last separator of the text is the first one of the reversed text.
  obtain ⟨name, before, hreversed, hname⟩ := List.eq_append_cons_of_mem hslash
  have hletters : text.toList.map unifyChar = before.reverse ++
      '/' :: name.reverse := by
    rw [← List.reverse_reverse (text.toList.map unifyChar), hreversed]
    simp
  refine ⟨before.reverse, name.reverse, hletters, by rwa [List.mem_reverse], ?_⟩
  rw [hrest] at hletters
  cases hbefore : before.reverse with
  | nil => rfl
  | cons c others =>
      rw [hbefore] at hletters
      obtain rfl : '/' = c := (List.cons.inj hletters).1
      simp [isAbsolute]

namespace EndsIn

variable {text extension : String} {before name : List Char}

private theorem getLast?_eq_iff (h : EndsIn text before name) :
    (text.toList.map unifyChar).getLast? = some '/' ↔ name = [] := by
  rw [h.letters]
  constructor
  · intro hlast
    by_contra hname
    rw [List.getLast?_append_of_ne_nil _ (by simp), List.getLast?_cons,
      List.getLast?_eq_some_getLast hname, Option.getD_some, Option.some.injEq]
        at hlast
    exact h.noSlash (hlast ▸ List.getLast_mem hname)
  · rintro rfl
    exact List.getLast?_concat

theorem stack_eq (h : EndsIn text before name)
    (hscript : extension ∈ scriptExtensions) :
    stack ⟨unifySeparators (text ++ "." ++ extension)⟩ =
      .normal (String.ofList name ++ "." ++ extension) ::
        stack ⟨String.ofList (before ++ ['/'])⟩ := by
  have hunified : unifySeparators (text ++ "." ++ extension) =
      String.ofList (before ++
        '/' :: (String.ofList name ++ "." ++ extension).toList) := by
    have hdot : unifySeparators "." = "." := rfl
    rw [unifySeparators_append, unifySeparators_append,
      unifySeparators_extension hscript, hdot, unifySeparators_eq, h.letters,
      ← String.toList_inj]
    simp
  have hslash : '/' ∉ (String.ofList name).toList := by
    rw [String.toList_ofList]
    exact h.noSlash
  have hinner := (scriptExtensions_plain hscript).inner hslash
  have hjoin : (⟨unifySeparators (text ++ "." ++ extension)⟩ : Path) =
      joinName ⟨String.ofList (before ++ ['/'])⟩ (String.ofList name ++
        "." ++ extension) := by
    rw [hunified, joinName, join, if_neg (by simp [hinner.not_isAbsolute]),
      if_pos (by simp), Path.mk.injEq,
      ← String.toList_inj]
    simp
  rw [hjoin, stack_joinName _ hinner]

theorem key_eq (h : EndsIn text before name)
    (hscript : extension ∈ scriptExtensions) :
    key ⟨text ++ "." ++ extension⟩ =
      unifySeparators
        (leadingText (stack ⟨String.ofList (before ++ ['/'])⟩).reverse) ++
        unifySeparators
          (dropScript (String.ofList name ++ "." ++ extension)) := by
  rw [key_eq_of_stack (h.stack_eq hscript), unifySeparators_append]

end EndsIn

theorem dropScript_of_mem {stem extension : String} (hstem : stem ≠ "")
    (hscript : extension ∈ scriptExtensions) :
    dropScript (stem ++ "." ++ extension) = stem := by
  simp [dropScript, splitName_append hstem
    (scriptExtensions_plain hscript).noDot, isScriptExtension_of_mem hscript]

theorem dropScript_hidden {extension : String}
    (hscript : extension ∈ scriptExtensions) :
    dropScript ("." ++ extension) = "." ++ extension := by
  simp [dropScript, splitName_hidden (scriptExtensions_plain hscript).noDot]

theorem sameFile_script_iff {text first second : String}
    (habsolute : isAbsolute ⟨text⟩ = true) (hfirst : first ∈ scriptExtensions)
    (hsecond : second ∈ scriptExtensions) :
    sameFile ⟨text ++ "." ++ first⟩ ⟨text ++ "." ++ second⟩ = true ↔
      first = second ∨ (text.toList.map unifyChar).getLast? ≠ some '/' := by
  obtain ⟨before, name, h⟩ := exists_endsIn habsolute
  rw [sameFile_iff, ne_eq, h.getLast?_eq_iff, h.key_eq hfirst, h.key_eq hsecond,
    String.append_right_inj]
  by_cases hname : name = []
  · have hhidden (extension : String) : String.ofList name ++ "." ++ extension =
      "." ++ extension := by simp [hname]
    rw [hhidden, hhidden, dropScript_hidden hfirst, dropScript_hidden hsecond,
      unifySeparators_append, unifySeparators_append,
      unifySeparators_extension hfirst, unifySeparators_extension hsecond,
      String.append_right_inj]
    simp [hname]
  · have hstem : String.ofList name ≠ "" := by simpa using hname
    rw [dropScript_of_mem hstem hfirst, dropScript_of_mem hstem hsecond]
    simp [hname]

end Path

end ImportAtlas
