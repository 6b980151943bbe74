import ImportAtlas.Proofs.PathAncestors
import ImportAtlas.Proofs.ResolvedIdentity
import Mathlib.Data.List.Infix

/-!
# Paths in a changing file tree

Where a path leads depends on the entries on its way only.  When files appear,
disappear or get another text, a path that does not lead to one of them leads
to the same place as before.  A path without double dots and links leads to the
location that it spells.
-/

namespace ImportAtlas

/-! ## Locations -/

def Entry.child? (name : String) : Entry → Option Entry
  | .directory entries => FileTree.lookup? name entries
  | _ => none

namespace FileTree

def Place.location : Place → Location
  | .entry location _ => location
  | .vacant location => location

private theorem entryBelow?_concat (names : List String) (name : String)
    (entry : Entry) :
    entryBelow? (names ++ [name]) entry =
      (entryBelow? names entry).bind (Entry.child? name) := by
  induction names generalizing entry with
  | nil =>
      cases entry with
      | directory entries =>
        cases hfound : lookup? name entries <;>
          simp [entryBelow?, Entry.child?, hfound]
      | file _ => rfl
      | link _ => rfl
  | cons first names ih =>
      cases entry with
      | directory entries =>
        cases hfound : lookup? first entries <;> simp [entryBelow?, hfound, ih]
      | file _ => rfl
      | link _ => rfl

theorem entryAt?_cons (tree : FileTree) (name : String) (here : Location) :
    tree.entryAt? (name :: here) =
      (tree.entryAt? here).bind (Entry.child? name) := by
  rw [entryAt?, List.reverse_cons, entryBelow?_concat, entryAt?]

theorem entryAt?_child {tree : FileTree} {here : Location}
    {entries : List (String × Entry)}
    (h : tree.entryAt? here = some (.directory entries)) (name : String) :
    tree.entryAt? (name :: here) = lookup? name entries := by
  rw [entryAt?_cons, h]
  rfl

private theorem exists_directory_above {tree : FileTree} {here : Location}
    {entries : List (String × Entry)}
    (h : tree.entryAt? here = some (.directory entries)) :
    ∃ above, tree.entryAt? here.tail = some (.directory above) := by
  cases here with
  | nil => exact ⟨entries, h⟩
  | cons name here =>
      rw [entryAt?_cons, Option.bind_eq_some_iff] at h
      obtain ⟨entry, hentry, hchild⟩ := h
      cases entry with
      | directory above => exact ⟨above, hentry⟩
      | file _ => simp [Entry.child?] at hchild
      | link _ => simp [Entry.child?] at hchild

/-! ## One path after another -/

def Continues (tree : FileTree) (more : List String)
    (first whole : Except ReadError Place) : Prop :=
  match first with
  | .ok (.entry here found) =>
    ∃ links, whole = walk tree (follow tree links) here found more
  | _ => ∃ error, whole = .error error

private theorem walk_continues {tree : FileTree} {more : List String}
    (hmore : more ≠ []) {links : Nat}
    (hfollow : ∀ here path, Continues tree more (follow tree links here path)
      (follow tree links here (path ++ more)))
    (here : Location) (entry : Entry) (path : List String) :
    Continues tree more (walk tree (follow tree links) here entry path)
      (walk tree (follow tree links) here entry (path ++ more)) := by
  induction path generalizing here entry with
  | nil => exact ⟨links, rfl⟩
  | cons step rest ih =>
      cases entry with
      | file _ => exact ⟨.notDirectory, rfl⟩
      | link _ => exact ⟨.notDirectory, rfl⟩
      | directory entries =>
          rw [List.cons_append, walk, walk]
          by_cases hdot : step = "" ∨ step = "."
          · rw [if_pos hdot, if_pos hdot]
            exact ih here _
          rw [if_neg hdot, if_neg hdot]
          by_cases hup : step = ".."
          · rw [if_pos hup, if_pos hup]
            cases entryAt? tree here.tail with
            | none => exact ⟨.notFound, rfl⟩
            | some above => exact ih here.tail above
          rw [if_neg hup, if_neg hup]
          cases lookup? step entries with
          | none =>
              -- only the last step may be missing, and here more steps follow
              have hwhole : (rest ++ more).isEmpty = false := by simp [hmore]
              rw [hwhole]
              cases rest <;> exact ⟨.notFound, rfl⟩
          | some found =>
              cases found with
              | link target =>
                  dsimp only
                  rw [← List.append_assoc]
                  exact hfollow _ _
              | file text => exact ih (step :: here) _
              | directory inner => exact ih (step :: here) _

theorem follow_continues (tree : FileTree) {more : List String}
    (hmore : more ≠ []) (links : Nat) (here : Location) (path : List String) :
    Continues tree more (follow tree links here path)
      (follow tree links here (path ++ more)) := by
  induction links generalizing here path with
  | zero => exact ⟨.tooManyLinks, rfl⟩
  | succ links ih =>
      rw [follow, follow]
      cases entryAt? tree here with
      | none => exact ⟨.notFound, rfl⟩
      | some entry => exact walk_continues hmore ih here entry path

theorem isFile_iff {tree : FileTree} {path : Path} :
    tree.isFile path = true ↔
      ∃ location text,
        tree.place path = .ok (.entry location (.file text)) := by
  simp only [isFile, find]
  cases hplace : tree.place path with
  | error _ => simp
  | ok place =>
      cases place with
      | vacant _ => simp
      | entry location found => cases found <;> simp

private theorem steps_joinName {directory : Path}
    (h : directory.isAbsolute = true) {name : String}
    (hname : (Path.Component.normal name).Inner) :
    ∃ before, (steps directory = before ∨ steps directory = before ++ [""]) ∧
      steps (directory.joinName name) = before ++ [name] := by
  have habsolute := (Path.isAbsolute_joinName directory hname).trans h
  have hlast := Path.splitAtSlash_of_not_mem hname.noSlash_name
  have hempty : directory.text ≠ "" := by
    rintro hempty
    simp [Path.isAbsolute, hempty] at h
  rw [steps, steps, if_pos h, if_pos habsolute, Path.joinName, Path.join,
    if_neg (by simp [hname.not_isAbsolute])]
  by_cases hslash : directory.text.toList.getLast? = some '/'
  · obtain ⟨letters, hletters⟩ := List.getLast?_eq_some_iff.1 hslash
    obtain ⟨piece, pieces, hsplit⟩ := Path.exists_splitAtSlash_eq_cons letters
    refine ⟨pieces.map String.ofList, .inr ?_, ?_⟩
    · rw [hletters, Path.splitAtSlash_append, hsplit]
      simp [Path.splitAtSlash]
    · rw [if_pos (by simp [hslash]), String.toList_append, hletters,
        List.append_assoc, List.singleton_append, Path.splitAtSlash_append,
        hsplit, hlast]
      simp
  · obtain ⟨piece, pieces, hsplit⟩ :=
      Path.exists_splitAtSlash_eq_cons directory.text.toList
    refine ⟨pieces.map String.ofList, .inl (by simp [hsplit]), ?_⟩
    have htext : (directory.text ++ "/" ++ name).toList =
      directory.text.toList ++ '/' :: name.toList := by simp
    rw [if_neg (by simp [hslash, hempty]), htext, Path.splitAtSlash_append,
      hsplit, hlast]
    simp

theorem not_isFile_joinName {tree : FileTree} {path : Path}
    (h : tree.isFile path = true) {name : String}
    (hname : (Path.Component.normal name).Inner) :
    tree.isFile (path.joinName name) = false := by
  obtain ⟨location, text, hplace⟩ := isFile_iff.1 h
  have habsolute := isAbsolute_of_isFile h
  obtain ⟨before, hsteps, hjoined⟩ := steps_joinName habsolute hname
  rw [place, if_pos habsolute] at hplace
  rw [← Bool.not_eq_true, isFile_iff]
  rintro ⟨location', text', hbelow⟩
  rw [place, if_pos ((Path.isAbsolute_joinName path hname).trans habsolute),
    hjoined] at hbelow
  rcases hsteps with hsteps | hsteps
  · have hcontinues :=
      follow_continues tree (List.cons_ne_nil name []) (linkLimit + 1) [] before
    rw [hsteps] at hplace
    rw [hplace, hbelow] at hcontinues
    obtain ⟨links, hwhole⟩ := hcontinues
    cases hwhole
  · -- a slash at the end asks for a directory
    have hcontinues :=
      follow_continues tree (List.cons_ne_nil "" []) (linkLimit + 1) [] before
    rw [← hsteps, hplace] at hcontinues
    cases hfirst : follow tree (linkLimit + 1) [] before with
    | error _ =>
        rw [hfirst] at hcontinues
        obtain ⟨error, hwhole⟩ := hcontinues
        cases hwhole
    | ok place =>
        rw [hfirst] at hcontinues
        cases place with
        | vacant _ =>
            obtain ⟨error, hwhole⟩ := hcontinues
            cases hwhole
        | entry here found =>
            obtain ⟨links, hwhole⟩ := hcontinues
            cases found <;> simp [walk] at hwhole

/-! ## Paths that are spelled out -/

def stepNames (path : List String) : List String :=
  path.filter fun step => step ≠ "" ∧ step ≠ "."

def LinkFree (tree : FileTree) (names : List String) : Prop :=
  ∀ start, start <+: names → ∀ target,
    tree.entryAt? start.reverse ≠ some (.link target)

def isLink : Option Entry → Bool
  | some (.link _) => true
  | _ => false

instance (tree : FileTree) (names : List String) :
    Decidable (tree.LinkFree names) :=
  decidable_of_iff (∀ start ∈ names.inits,
      isLink (tree.entryAt? start.reverse) = false) <| by
    simp only [LinkFree, List.mem_inits]
    refine forall₂_congr fun start _ => ?_
    cases tree.entryAt? start.reverse with
    | none => simp [isLink]
    | some found => cases found <;> simp [isLink]

private theorem walk_location {tree : FileTree}
    {follow : Location → List String → Except ReadError Place}
    {path : List String} (hup : ".." ∉ path) {here : Location} {entry : Entry}
    (hentry : tree.entryAt? here = some entry)
    (hlinks : ∀ start, start <+: stepNames path → ∀ target,
      tree.entryAt? (start.reverse ++ here) ≠ some (.link target))
    {place : Place} (h : walk tree follow here entry path = .ok place) :
    place.location = (stepNames path).reverse ++ here := by
  induction path generalizing here entry with
  | nil =>
      cases h
      rfl
  | cons step rest ih =>
      rw [List.mem_cons, not_or] at hup
      cases entry with
      | file _ => cases h
      | link _ => cases h
      | directory entries =>
          rw [walk] at h
          by_cases hdot : step = "" ∨ step = "."
          · have hnames : stepNames (step :: rest) = stepNames rest :=
              List.filter_cons_of_neg (by rcases hdot with rfl | rfl <;> simp)
            rw [if_pos hdot] at h
            rw [hnames] at hlinks ⊢
            exact ih hup.2 hentry hlinks h
          have hnames : stepNames (step :: rest) = step :: stepNames rest :=
            List.filter_cons_of_pos (by simpa using hdot)
          rw [hnames] at hlinks ⊢
          rw [if_neg hdot, if_neg (Ne.symm hup.1),
            ← entryAt?_child hentry step] at h
          rw [List.reverse_cons, List.append_assoc, List.singleton_append]
          have hrest : ∀ start, start <+: stepNames rest → ∀ target,
              tree.entryAt? (start.reverse ++ step :: here) ≠
                some (.link target) := by
            intro start hstart target
            have hlonger :=
              hlinks (step :: start) (List.cons_prefix_cons.2 ⟨rfl, hstart⟩)
                target
            rwa [List.reverse_cons, List.append_assoc, List.singleton_append]
              at hlonger
          cases hfound : tree.entryAt? (step :: here) with
          | none =>
              rw [hfound] at h
              cases rest with
              | nil =>
                  cases h
                  rfl
              | cons next others => cases h
          | some found =>
              rw [hfound] at h
              cases found with
              | link target =>
                exact absurd hfound (hrest [] (List.nil_prefix) target)
              | file text => exact ih hup.2 hfound hrest h
              | directory inner => exact ih hup.2 hfound hrest h

private theorem components_eq_steps {path : Path} (h : path.isAbsolute = true) :
    path.components = .root ::
      (steps path).filterMap Path.Component.ofSegment? := by
  obtain ⟨piece, pieces, hsplit⟩ :=
    Path.exists_splitAtSlash_eq_cons path.text.toList
  rw [Path.components_eq_segments h, steps, if_pos h, Path.segments, hsplit]
  simp [h, List.filterMap_map, Function.comp_def]

private theorem names_eq_stepNames {path : Path} (h : path.isAbsolute = true)
    (hup : .parent ∉ path.components) :
    ".." ∉ steps path ∧ path.names = stepNames (steps path) := by
  rw [Path.names, components_eq_steps h] at *
  have hno : ".." ∉ steps path := by
    intro hmem
    exact hup (List.mem_cons_of_mem _ (List.mem_filterMap.2 ⟨"..", hmem, rfl⟩))
  refine ⟨hno, ?_⟩
  rw [List.filterMap_cons_none rfl, List.filterMap_filterMap, stepNames,
    ← List.filterMap_eq_filter]
  refine List.filterMap_congr fun step hstep => ?_
  have hdots : step ≠ ".." := fun hdots => hno (hdots ▸ hstep)
  simp only [Path.Component.ofSegment?]
  split <;> simp_all [Path.Component.name?, Option.guard]

theorem location_of_linkFree {tree : FileTree} {path : Path}
    (h : path.isAbsolute = true) (hup : .parent ∉ path.components)
    (hlinks : tree.LinkFree path.names) {found : Place}
    (hplace : tree.place path = .ok found) :
    found.location = path.names.reverse := by
  obtain ⟨hsteps, hnames⟩ := names_eq_stepNames h hup
  rw [place, if_pos h, follow] at hplace
  have hroot : tree.entryAt? [] = some (.directory tree.entries) := rfl
  rw [hroot] at hplace
  have hlocation :=
    walk_location hsteps hroot (by simpa [LinkFree, hnames] using hlinks) hplace
  rw [hlocation, List.append_nil, hnames]

/-! ## Changed files -/

/-- Entries that are the same by themselves; a directory may hold other things.
-/
inductive Alike : Entry → Entry → Prop
  | file (text : Option String) : Alike (.file text) (.file text)
  | link (target : Path) : Alike (.link target) (.link target)
  | directory (first second : List (String × Entry)) :
      Alike (.directory first) (.directory second)

def FileOrNothing (found : Option Entry) : Prop :=
  found = none ∨ ∃ text, found = some (.file text)

/-- Trees that differ in the files of some locations only. -/
structure SameExcept (changed : Location → Prop) (tree other : FileTree) :
    Prop where
  kept : ∀ location, ¬changed location →
    Option.Rel Alike (tree.entryAt? location) (other.entryAt? location)
  before : ∀ location, changed location → FileOrNothing (tree.entryAt? location)
  after : ∀ location, changed location → FileOrNothing (other.entryAt? location)

def LeadsInto (tree : FileTree) (changed : Location → Prop) (path : Path) :
    Prop :=
  ∃ place, tree.place path = .ok place ∧ changed place.location

/-- Where a path leads in two trees, as long as it leads to no changed place in
the first. -/
inductive SameOutcome (changed : Location → Prop) :
    Except ReadError Place → Except ReadError Place → Prop
  | entry {location : Location} {first second : Entry}
      (h : Alike first second) :
      SameOutcome changed (.ok (.entry location first))
      (.ok (.entry location second))
  | vacant (location : Location) :
      SameOutcome changed (.ok (.vacant location)) (.ok (.vacant location))
  | error (first second : ReadError) :
      SameOutcome changed (.error first) (.error second)
  | changed {first : Place} (second : Except ReadError Place)
      (h : changed first.location) :
      SameOutcome changed (.ok first) second

namespace SameExcept

variable {changed : Location → Prop} {tree other : FileTree}
    (hsame : SameExcept changed tree other)
include hsame

theorem not_changed_of_directory {here : Location}
    {entries : List (String × Entry)}
    (h : tree.entryAt? here = some (.directory entries)) : ¬changed here := by
  intro hchanged
  rcases hsame.before here hchanged with hnone | ⟨text, hfile⟩
  · rw [h] at hnone
    contradiction
  · rw [h] at hfile
    cases hfile

theorem exists_alike {here : Location} {first : Entry} (hhere : ¬changed here)
    (h : tree.entryAt? here = some first) :
    ∃ second, other.entryAt? here = some second ∧ Alike first second := by
  have hkept := hsame.kept here hhere
  rw [h] at hkept
  cases hsecond : other.entryAt? here with
  | none => rw [hsecond] at hkept; cases hkept
  | some second =>
      rw [hsecond] at hkept
      cases hkept with
      | some halike => exact ⟨second, rfl, halike⟩

theorem eq_none {here : Location} (hhere : ¬changed here)
    (h : tree.entryAt? here = none) :
    other.entryAt? here = none := by
  have hkept := hsame.kept here hhere
  rw [h] at hkept
  cases hsecond : other.entryAt? here with
  | none => rfl
  | some second => rw [hsecond] at hkept; cases hkept

private theorem walk_outcome {first second : Entry}
    {follow follow' : Location → List String → Except ReadError Place}
    (hfollow : ∀ here path, ¬changed here →
      SameOutcome changed (follow here path) (follow' here path))
    {here : Location} (hhere : ¬changed here)
    (hfirst : tree.entryAt? here = some first)
    (hsecond : other.entryAt? here = some second) (halike : Alike first second)
    (path : List String) :
    SameOutcome changed (walk tree follow here first path)
      (walk other follow' here second path) := by
  induction path generalizing here first second with
  | nil => exact .entry halike
  | cons step rest ih =>
      cases halike with
      | file _ => exact .error _ _
      | link _ => exact .error _ _
      | directory entries others =>
          rw [walk, walk]
          by_cases hdot : step = "" ∨ step = "."
          · rw [if_pos hdot, if_pos hdot]
            exact ih hhere hfirst hsecond (.directory entries others)
          rw [if_neg hdot, if_neg hdot]
          by_cases hup : step = ".."
          · rw [if_pos hup, if_pos hup]
            obtain ⟨inner, habove⟩ := exists_directory_above hfirst
            have hkept := hsame.not_changed_of_directory habove
            obtain ⟨above, hother, halike⟩ := hsame.exists_alike hkept habove
            rw [habove, hother]
            exact ih hkept habove hother halike
          rw [if_neg hup, if_neg hup, ← entryAt?_child hfirst step,
            ← entryAt?_child hsecond step]
          by_cases hchanged : changed (step :: here)
          · -- a file or nothing ends the path here, in both trees
            rcases hsame.before _ hchanged with hbefore | ⟨text, hbefore⟩ <;>
              rcases hsame.after _ hchanged with hafter | ⟨text', hafter⟩ <;>
                rw [hbefore, hafter] <;>
                  cases rest with
                  | nil => exact .changed _ hchanged
                  | cons next others => exact .error _ _
          cases hfound : tree.entryAt? (step :: here) with
          | none =>
              rw [hsame.eq_none hchanged hfound]
              cases rest with
              | nil => exact .vacant _
              | cons next others => exact .error _ _
          | some found =>
              obtain ⟨second, hother, halike⟩ :=
                hsame.exists_alike hchanged hfound
              rw [hother]
              cases halike with
              | file text => exact ih hchanged hfound hother (.file text)
              | directory inner inner' =>
                exact ih hchanged hfound hother (.directory inner inner')
              | link target =>
                  -- a link goes on from the root or from here, and both are
                  -- directories
                  apply hfollow
                  split
                  · exact hsame.not_changed_of_directory rfl
                  · exact hhere

private theorem follow_outcome (links : Nat) {here : Location}
    (hhere : ¬changed here) (path : List String) :
    SameOutcome changed (follow tree links here path)
      (follow other links here path) := by
  induction links generalizing here path with
  | zero => exact .error _ _
  | succ links ih =>
      rw [follow, follow]
      cases hfirst : tree.entryAt? here with
      | none =>
          rw [hsame.eq_none hhere hfirst]
          exact .error _ _
      | some first =>
          obtain ⟨second, hsecond, halike⟩ := hsame.exists_alike hhere hfirst
          rw [hsecond]
          exact hsame.walk_outcome (fun here path hhere => ih hhere path)
            hhere hfirst hsecond halike path

private theorem place_outcome (path : Path) :
    SameOutcome changed (tree.place path) (other.place path) := by
  rw [place, place]
  split
  · exact hsame.follow_outcome _ (hsame.not_changed_of_directory rfl) _
  · exact .error _ _

theorem file_eq {path : Path} (h : ¬tree.LeadsInto changed path) :
    other.isFile path = tree.isFile path ∧
      (other.readText path).toOption = (tree.readText path).toOption := by
  have houtcome := hsame.place_outcome path
  simp only [isFile, readText, find]
  generalize hfirst : tree.place path = first at houtcome ⊢
  generalize other.place path = second at houtcome ⊢
  cases houtcome with
  | entry halike => cases halike <;> exact ⟨rfl, rfl⟩
  | vacant _ => exact ⟨rfl, rfl⟩
  | error _ _ => exact ⟨rfl, rfl⟩
  | changed second hchanged => exact absurd ⟨_, hfirst, hchanged⟩ h

end SameExcept

theorem Alike.refl (entry : Entry) : Alike entry entry := by
  cases entry with
  | file text => exact .file text
  | link target => exact .link target
  | directory entries => exact .directory entries entries

theorem sameExcept_first (name : String) (text text' : Option String)
    (entries : List (String × Entry)) :
    SameExcept (· = [name]) ⟨(name, .file text) :: entries⟩
      ⟨(name, .file text') :: entries⟩ := by
  refine ⟨fun location hlocation => ?_, fun location hlocation => ?_,
    fun location hlocation => ?_⟩
  · obtain ⟨names, rfl⟩ : ∃ names, location = List.reverse names :=
      ⟨location.reverse, (List.reverse_reverse _).symm⟩
    rw [entryAt?, entryAt?, List.reverse_reverse]
    cases names with
    | nil => exact .some (.directory _ _)
    | cons first rest =>
        simp only [entryBelow?, lookup?]
        by_cases hfirst : name = first
        · subst hfirst
          cases rest with
          | nil => exact absurd rfl hlocation
          | cons next others => simp [entryBelow?]
        · rw [if_neg hfirst, if_neg hfirst]
          generalize (lookup? first entries).bind (entryBelow? rest) = found
          cases found with
          | none => exact .none
          | some found => exact .some (Alike.refl found)
  · subst hlocation
    exact .inr ⟨text, by simp [entryAt?, entryBelow?, lookup?]⟩
  · subst hlocation
    exact .inr ⟨text', by simp [entryAt?, entryBelow?, lookup?]⟩

end FileTree

end ImportAtlas
