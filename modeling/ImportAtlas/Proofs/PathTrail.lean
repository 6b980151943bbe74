import ImportAtlas.Proofs.NormalPath

/-!
# The trail of a path

A path climbs some way above its start and then goes down over names: its
trail.  Following one path after another puts their trails together.  Folding
the dots of a path keeps its names, but of the climbs it keeps only whether
their number is odd.
-/

namespace ImportAtlas.Path

/-! ## Steps -/

def steps (path : Path) : List Component :=
  pieceComponents (splitAtSlash path.text.toList)

def start (path : Path) : List Component :=
  if path.isAbsolute then [.root] else []

theorem steps_inner {path : Path} {component : Component}
    (h : component ∈ path.steps) : component.Inner :=
  inner_of_mem_pieceComponents h

theorem components_cases (path : Path) :
    path.isAbsolute = true ∧ path.components = .root :: path.steps ∨
      path.isAbsolute = false ∧
      (path.components = path.steps ∨
        path.components = .current :: path.steps) := by
  by_cases habsolute : path.isAbsolute = true
  · exact .inl ⟨habsolute, components_of_isAbsolute habsolute⟩
  · rw [Bool.not_eq_true] at habsolute
    refine .inr ⟨habsolute, ?_⟩
    obtain ⟨text⟩ := path
    obtain ⟨letters, rfl⟩ : ∃ letters, text = String.ofList letters :=
      ⟨text.toList, String.ofList_toList.symm⟩
    obtain ⟨piece, pieces, hsplit⟩ := exists_splitAtSlash_eq_cons letters
    have hhead : letters.head? ≠ some '/' := by
      simpa [isAbsolute] using habsolute
    have hsteps : steps ⟨String.ofList letters⟩ = pieceComponents [piece] ++
        pieceComponents pieces := by
      rw [steps, String.toList_ofList, hsplit, ← pieceComponents_append,
        List.singleton_append]
    rw [components_relative hhead hsplit, hsteps]
    by_cases hdot : piece = ['.']
    · have hnone : pieceComponents [piece] = [] := by rw [hdot]; rfl
      rw [headComponents, if_pos hdot, hnone]
      exact .inr rfl
    · rw [headComponents, if_neg hdot]
      exact .inl rfl

theorem foldl_components {fold : List Component → Component → List Component}
    (hroot : ∀ done, fold done .root = [.root])
    (hcurrent : ∀ done, fold done .current = done) (path : Path) :
    path.components.foldl fold [] = path.steps.foldl fold path.start := by
  rcases components_cases path
    with ⟨habsolute, hcomponents⟩ | ⟨hrelative, hcomponents | hcomponents⟩
  · rw [hcomponents, start, if_pos habsolute, List.foldl_cons, hroot]
  · rw [hcomponents, start, hrelative]
    rfl
  · rw [hcomponents, start, hrelative, List.foldl_cons, hcurrent]
    rfl

section Join

variable {next : Path} (path : Path) (hnext : next.isAbsolute = false)
include hnext

theorem isAbsolute_join : (path.join next).isAbsolute = path.isAbsolute := by
  rw [join, if_neg (by simp [hnext])]
  by_cases hempty : path.text = ""
  · have hrelative : path.isAbsolute = false := by simp [isAbsolute, hempty]
    rw [hrelative, ← hnext]
    simp [hempty]
  · obtain ⟨c, rest, hletters⟩ : ∃ c rest, path.text.toList = c :: rest :=
      List.exists_cons_of_ne_nil fun hnil => hempty (String.toList_inj.1 hnil)
    split <;> simp [isAbsolute, hletters]

theorem steps_join : (path.join next).steps = path.steps ++ next.steps := by
  rw [join, if_neg (by simp [hnext])]
  by_cases hempty : path.text = ""
  · simp [steps, hempty, splitAtSlash, pieceComponents, Component.ofSegment?]
  · by_cases hlast : path.text.toList.getLast? = some '/'
    · obtain ⟨before, hbefore⟩ := List.getLast?_eq_some_iff.1 hlast
      have hend : pieceComponents (splitAtSlash []) = [] := rfl
      rw [if_pos (by simp [hlast]), steps, steps, steps, String.toList_append,
        hbefore, List.append_assoc, List.singleton_append, splitAtSlash_append,
        splitAtSlash_append, pieceComponents_append, pieceComponents_append,
        hend, List.append_nil]
    · have hslash : "/".toList = ['/'] := rfl
      rw [if_neg (by simp [hlast, hempty]), steps, steps, steps,
        String.toList_append, String.toList_append, hslash, List.append_assoc,
        List.singleton_append, splitAtSlash_append, pieceComponents_append]

end Join

section JoinName

variable (directory : Path) {name : String}
    (hname : (Component.normal name).Inner)
include hname

theorem isAbsolute_joinName :
    (directory.joinName name).isAbsolute = directory.isAbsolute :=
  isAbsolute_join directory hname.not_isAbsolute

theorem components_joinName (h : directory.isAbsolute = true) :
    (directory.joinName name).components = directory.components ++
      [.normal name] := by
  rw [joinName, components_join h hname.not_isAbsolute,
    hname.pieceComponents_name]

theorem stack_joinName :
    (directory.joinName name).stack = .normal name :: directory.stack := by
  have hsteps : steps ⟨name⟩ = [.normal name] := hname.pieceComponents_name
  have hstart : (directory.joinName name).start = directory.start := by
    rw [start, start, isAbsolute_joinName directory hname]
  rw [stack, stack, foldl_components (fun _ => rfl) (fun _ => rfl),
    foldl_components (fun _ => rfl) (fun _ => rfl), hstart, joinName,
    steps_join directory hname.not_isAbsolute, hsteps, List.foldl_append]
  rfl

end JoinName

/-! ## Trails -/

/-- How often a path climbs above its start, and the names that it then goes
down, the last one first. -/
@[ext]
structure Trail where
  climbs : Nat
  names : List String
  deriving DecidableEq

namespace Trail

def empty : Trail :=
  ⟨0, []⟩

def follow (trail : Trail) : Component → Trail
  | .root => trail
  | .current => trail
  | .parent =>
    match trail.names with
    | [] => ⟨trail.climbs + 1, []⟩
    | _ :: above => ⟨trail.climbs, above⟩
  | .normal name => ⟨trail.climbs, name :: trail.names⟩

/-- One trail after another: the second one takes back names of the first
before it climbs above its start. -/
def append (first second : Trail) : Trail :=
  ⟨first.climbs + (second.climbs - first.names.length), second.names ++
    first.names.drop second.climbs⟩

private theorem append_empty (trail : Trail) : trail.append empty = trail := by
  simp [append, empty]

private theorem follow_append (first second : Trail) (component : Component) :
    (first.append second).follow component =
      first.append (second.follow component) := by
  cases component with
  | root => rfl
  | current => rfl
  | normal name => rfl
  | parent =>
      obtain ⟨climbs, names⟩ := second
      cases names with
      | cons name above => rfl
      | nil =>
          by_cases hdeep : climbs < first.names.length
          · have hnone : climbs - first.names.length = 0 := by omega
            have hnone' : climbs + 1 - first.names.length = 0 := by omega
            have htaken := List.drop_eq_getElem_cons hdeep
            generalize habove : first.names.drop (climbs + 1) = above at htaken
            simp [append, follow, htaken, habove, hnone, hnone']
          · have hall : first.names.drop climbs = [] :=
              List.drop_eq_nil_of_le (by omega)
            have hall' : first.names.drop (climbs + 1) = [] :=
              List.drop_eq_nil_of_le (by omega)
            have hclimb : climbs + 1 - first.names.length =
              climbs - first.names.length + 1 := by omega
            simp [append, follow, hall, hall', hclimb, Nat.add_assoc]

private theorem foldl_follow (trail : Trail) (components : List Component) :
    components.foldl follow trail =
      trail.append (components.foldl follow empty) := by
  have hhom : components.foldl follow (trail.append empty) =
      trail.append (components.foldl follow empty) :=
    List.foldl_hom trail.append (follow_append trail)
  rwa [append_empty] at hhom

theorem foldl_climb (count : Nat) :
    (List.replicate count Component.parent).foldl follow empty =
      ⟨count, []⟩ := by
  induction count with
  | zero => rfl
  | succ count ih =>
      rw [List.replicate_succ', List.foldl_append, ih]
      rfl

theorem foldl_descend (trail : Trail) (names : List String) :
    (names.map Component.normal).foldl follow trail =
      ⟨trail.climbs, names.reverse ++ trail.names⟩ := by
  induction names generalizing trail with
  | nil => rfl
  | cons name names ih =>
      rw [List.map_cons, List.foldl_cons, ih]
      simp [follow]

end Trail

def trail (path : Path) : Trail :=
  path.components.foldl Trail.follow .empty

theorem trail_eq (path : Path) :
    path.trail = path.steps.foldl Trail.follow .empty := by
  unfold trail
  rcases components_cases path
    with ⟨-, hcomponents⟩ | ⟨-, hcomponents | hcomponents⟩ <;> rw [hcomponents]
  · rfl
  · rfl

theorem trail_join {next : Path} (path : Path)
    (hnext : next.isAbsolute = false) :
    (path.join next).trail = path.trail.append next.trail := by
  rw [trail_eq, steps_join path hnext, List.foldl_append, Trail.foldl_follow,
    ← trail_eq, ← trail_eq]

theorem foldl_steps {fold : List Component → Component → List Component}
    {form : Trail → List Component}
    (hstep : ∀ trail component, component.Inner →
      fold (form trail) component = form (trail.follow component))
    (path : Path) : path.steps.foldl fold (form .empty) = form path.trail := by
  rw [trail_eq]
  have hinner : ∀ component ∈ path.steps, component.Inner :=
    fun _ => steps_inner
  generalize path.steps = components at hinner
  generalize Trail.empty = trail
  induction components generalizing trail with
  | nil => rfl
  | cons component components ih =>
      rw [List.foldl_cons, List.foldl_cons,
        hstep trail component (hinner component List.mem_cons_self)]
      exact ih (fun other hother =>
        hinner other (List.mem_cons_of_mem component hother)) _

/-! ## Normal paths by their trails -/

def Trail.folded (start : List Component) (trail : Trail) : List Component :=
  trail.names.map .normal ++
    (List.replicate (trail.climbs % 2) .parent ++ start)

private theorem Trail.foldComponent_folded (path : Path) (trail : Trail)
    {component : Component} (h : component.Inner) :
    foldComponent (trail.folded path.start) component =
      (trail.follow component).folded path.start := by
  obtain ⟨climbs, names⟩ := trail
  cases component with
  | root => exact absurd rfl h.ne_root
  | current => exact absurd rfl h.ne_current
  | normal name => rfl
  | parent =>
      cases names with
      | cons name above => rfl
      | nil =>
          -- A climb is kept on the start, and the next one takes it back.
          rcases Nat.mod_two_eq_zero_or_one climbs with hparity | hparity
          · have hnext : (climbs + 1) % 2 = 1 := by omega
            unfold start
            cases path.isAbsolute <;>
              simp [folded, follow, hparity, hnext, foldComponent]
          · have hnext : (climbs + 1) % 2 = 0 := by omega
            simp [folded, follow, hparity, hnext, foldComponent]

theorem stack_eq_folded (path : Path) :
    path.stack = path.trail.folded path.start := by
  rw [stack, foldl_components (fun _ => rfl) (fun _ => rfl)]
  exact foldl_steps
    (fun trail _ hinner => trail.foldComponent_folded path hinner) path

private theorem start_reverse (path : Path) :
    path.start.reverse = path.start := by
  unfold start
  split <;> rfl

theorem parent_notMem_start (path : Path) : .parent ∉ path.start := by
  unfold start
  split <;> simp

private theorem current_notMem_start (path : Path) : .current ∉ path.start := by
  unfold start
  split <;> simp

theorem components_normalize_eq (path : Path) :
    path.normalize.components =
      path.start ++
        (List.replicate (path.trail.climbs % 2) .parent ++
          path.trail.names.reverse.map .normal) := by
  rw [components_normalize, stack_eq_folded, Trail.folded]
  simp [start_reverse]

theorem isAbsolute_normalize (path : Path) :
    path.normalize.isAbsolute = path.isAbsolute := by
  rw [Bool.eq_iff_iff, isAbsolute_iff_head, components_normalize_eq]
  unfold start
  cases path.isAbsolute with
  | true => simp
  | false =>
      rcases Nat.mod_two_eq_zero_or_one path.trail.climbs with hparity | hparity
      · cases path.trail.names.reverse <;> simp [hparity]
      · simp [hparity]

theorem trail_start (path : Path) :
    path.start.foldl Trail.follow .empty = .empty := by
  unfold start
  split <;> rfl

theorem trail_normalize (path : Path) :
    path.normalize.trail = ⟨path.trail.climbs % 2, path.trail.names⟩ := by
  rw [trail, components_normalize_eq, List.foldl_append, trail_start,
    List.foldl_append, Trail.foldl_climb, Trail.foldl_descend]
  simp

/-- Folding forgets of a path how often it climbs, except for the parity. -/
theorem normalize_eq_iff {first second : Path} :
    first.normalize = second.normalize ↔
      first.isAbsolute = second.isAbsolute ∧
      first.trail.climbs % 2 = second.trail.climbs % 2 ∧
        first.trail.names = second.trail.names := by
  constructor
  · intro h
    have htrail := congrArg trail h
    rw [trail_normalize, trail_normalize, Trail.mk.injEq] at htrail
    exact ⟨by rw [← isAbsolute_normalize first, h, isAbsolute_normalize],
      htrail⟩
  · rintro ⟨habsolute, hclimbs, hnames⟩
    rw [normalize_eq, normalize_eq, stack_eq_folded, stack_eq_folded,
      Trail.folded, Trail.folded, hclimbs, hnames, start, start, habsolute]

/--
A path may be folded before another one is followed from it: folding keeps
where the path starts, and leaves no dot and at most one double dot, right
after the start.
-/
theorem normalize_before_join (path : Path) :
    (∀ next : Path, next.isAbsolute = false →
      (path.normalize.join next).normalize = (path.join next).normalize) ∧
      path.normalize.normalize = path.normalize ∧
      path.normalize.isAbsolute = path.isAbsolute ∧
      .current ∉ path.normalize.components ∧
        path.normalize.components.count .parent ≤ 1 ∧
      ∀ before after, path.normalize.components = before ++ .parent :: after →
        before = path.start := by
  refine ⟨?_, (folded_stack path).normalize_eq, isAbsolute_normalize path, ?_⟩
  · intro next hnext
    rw [normalize_eq_iff, isAbsolute_join _ hnext, isAbsolute_join _ hnext,
      trail_join _ hnext, trail_join _ hnext, trail_normalize]
    exact ⟨isAbsolute_normalize path, by simp [Trail.append], rfl⟩
  · rw [components_normalize_eq]
    refine ⟨by simp [current_notMem_start], ?_, fun before after h => ?_⟩
    · rw [List.count_append, List.count_append, List.count_replicate_self,
        List.count_eq_zero.2 (parent_notMem_start path),
        List.count_eq_zero.2 (by simp)]
      omega
    · rcases Nat.mod_two_eq_zero_or_one path.trail.climbs with hparity | hparity
      · have hmem : .parent ∈ before ++ .parent :: after := by simp
        rw [← h, hparity] at hmem
        simp [parent_notMem_start] at hmem
      · rw [hparity, List.replicate_one, List.singleton_append,
          List.append_cons_inj_of_notMem (parent_notMem_start path) (by simp)]
            at h
        exact h.1.symm

theorem third_climb_kept_by_join :
    isAbsolute ⟨"../b"⟩ = false ∧ normalize ⟨"../a/../.."⟩ = ⟨""⟩ ∧
      (join (normalize ⟨"../a/../.."⟩) ⟨"../b"⟩).normalize =
        (join ⟨"../a/../.."⟩ ⟨"../b"⟩).normalize ∧
      (join ⟨"../a/../.."⟩ ⟨"../b"⟩).normalize = ⟨"../b"⟩ := by
  have hjoin := (normalize_before_join ⟨"../a/../.."⟩).1 ⟨"../b"⟩ (by decide)
  exact ⟨by decide, by decide, hjoin, by decide⟩

/-! ## A lexical fold -/

/--
One step of a fold in which double dots that climb are not lost: at the root
they stay there, elsewhere they are all kept.
-/
def lexicalComponent (done : List Component) : Component → List Component
  | .root => [.root]
  | .current => done
  | .parent =>
    match done with
    | .normal _ :: above => above
    | .root :: above => .root :: above
    | climbed => .parent :: climbed
  | .normal name => .normal name :: done

def lexical (path : Path) : Path :=
  ofComponents (path.components.foldl lexicalComponent []).reverse

def keptClimbs (path : Path) : Nat :=
  if path.isAbsolute then 0 else path.trail.climbs

def Trail.lexical (absolute : Bool) (trail : Trail) : List Component :=
  trail.names.map .normal ++ (if absolute then [.root]
    else List.replicate trail.climbs .parent)

private theorem Trail.lexicalComponent_lexical (absolute : Bool) (trail : Trail)
    {component : Component} (h : component.Inner) :
    lexicalComponent (trail.lexical absolute) component =
      (trail.follow component).lexical absolute := by
  obtain ⟨climbs, names⟩ := trail
  cases component with
  | root => exact absurd rfl h.ne_root
  | current => exact absurd rfl h.ne_current
  | normal name => rfl
  | parent =>
      cases names with
      | cons name above => rfl
      | nil =>
          cases absolute with
          | true => rfl
          | false => cases climbs <;> rfl

theorem foldl_lexicalComponent (path : Path) :
    path.components.foldl lexicalComponent [] =
      path.trail.lexical path.isAbsolute := by
  have hstart : path.start = Trail.lexical path.isAbsolute .empty := by
    unfold start
    cases path.isAbsolute <;> rfl
  rw [foldl_components (fun _ => rfl) (fun _ => rfl), hstart]
  exact foldl_steps (fun trail _ hinner =>
    trail.lexicalComponent_lexical path.isAbsolute hinner) path

private theorem inner_of_mem_trail {path : Path} {name : String}
    (h : name ∈ path.trail.names) :
    (Component.normal name).Inner := by
  have hmem : .normal name ∈ path.normalize.components := by
    rw [components_normalize_eq]
    simp [h]
  exact inner_of_normal_mem hmem

private theorem components_lexical (path : Path) :
    path.lexical.components =
      path.start ++
        (List.replicate path.keptClimbs .parent ++
          path.trail.names.reverse.map .normal) := by
  have hnames : ∀ component ∈ path.trail.names.reverse.map Component.normal,
      component.Inner := by
    intro component hcomponent
    obtain ⟨name, hname, rfl⟩ := List.mem_map.1 hcomponent
    exact inner_of_mem_trail (List.mem_reverse.1 hname)
  rw [lexical, foldl_lexicalComponent, Trail.lexical, start, keptClimbs]
  cases path.isAbsolute with
  | true =>
      have hroot := components_ofComponents_root hnames
      simpa using hroot
  | false =>
      have hall : ∀ component ∈ List.replicate path.trail.climbs
          Component.parent ++
          path.trail.names.reverse.map Component.normal, component.Inner := by
        intro component hcomponent
        rcases List.mem_append.1 hcomponent with hcomponent | hcomponent
        · obtain rfl := (List.mem_replicate.1 hcomponent).2
          exact Component.inner_parent
        · exact hnames component hcomponent
      have hrelative := components_ofComponents_relative hall
      simpa using hrelative

private theorem trail_lexical (path : Path) :
    path.lexical.trail = ⟨path.keptClimbs, path.trail.names⟩ := by
  rw [trail, components_lexical, List.foldl_append, trail_start,
    List.foldl_append, Trail.foldl_climb, Trail.foldl_descend]
  simp

private theorem normalize_eq_lexical_iff (path : Path) :
    path.normalize = path.lexical ↔
      path.trail.climbs % 2 = path.keptClimbs := by
  constructor
  · intro h
    have htrail := congrArg trail h
    rw [trail_normalize, trail_lexical, Trail.mk.injEq] at htrail
    exact htrail.1
  · intro hclimbs
    rw [normalize_eq, stack_eq_folded, lexical, foldl_lexicalComponent,
      Trail.folded, Trail.lexical, hclimbs, keptClimbs, start]
    cases path.isAbsolute <;> simp

private theorem normalize_join_normalize_iff {directory path : Path}
    (hpath : path.isAbsolute = false)
    (hdeep : (directory.join path).trail.climbs = 0) :
    (directory.join path).normalize =
      (directory.join path.normalize).normalize ↔ path.trail.climbs ≤ 1 := by
  have hnormal : path.normalize.isAbsolute = false := by
    rw [isAbsolute_normalize, hpath]
  rw [trail_join _ hpath] at hdeep
  rw [normalize_eq_iff, isAbsolute_join _ hpath, isAbsolute_join _ hnormal,
    trail_join _ hpath, trail_join _ hnormal, trail_normalize]
  generalize directory.trail = above at hdeep
  generalize path.trail = below at hdeep
  simp only [Trail.append, true_and] at hdeep ⊢
  constructor
  · rintro ⟨-, hnames⟩
    have hlength := congrArg List.length (List.append_cancel_left hnames)
    rw [List.length_drop, List.length_drop] at hlength
    omega
  · intro hclimbs
    have hkept : below.climbs % 2 = below.climbs := by omega
    rw [hkept]
    exact ⟨rfl, rfl⟩

/--
Folding is lexical exactly for the paths that climb at most once, or from the
root an even number of times. In a directory deep enough, a path can be folded
before it is followed exactly if it climbs at most once.
-/
theorem folding_is_lexical_iff_climbs_kept (path : Path) :
    (path.normalize = path.lexical ↔
        if path.isAbsolute then path.trail.climbs % 2 = 0
        else path.trail.climbs ≤ 1) ∧
      ∀ directory : Path, path.isAbsolute = false →
        (directory.join path).trail.climbs = 0 →
        ((directory.join path).normalize =
          (directory.join path.normalize).normalize ↔
          path.trail.climbs ≤ 1) := by
  refine ⟨?_, fun _ => normalize_join_normalize_iff⟩
  rw [normalize_eq_lexical_iff, keptClimbs]
  split
  · rfl
  · omega

theorem one_climb_folded_before_join :
    isAbsolute ⟨".././lib/x"⟩ = false ∧
      (join ⟨"/app/src"⟩ ⟨".././lib/x"⟩).trail.climbs = 0 ∧
      (join ⟨"/app/src"⟩ ⟨".././lib/x"⟩).normalize =
        (join ⟨"/app/src"⟩ (normalize ⟨".././lib/x"⟩)).normalize := by
  have hdeep : (join ⟨"/app/src"⟩ ⟨".././lib/x"⟩).trail.climbs = 0 := by decide
  have hiff :=
    (folding_is_lexical_iff_climbs_kept ⟨".././lib/x"⟩).2 ⟨"/app/src"⟩
      (by decide) hdeep
  exact ⟨by decide, hdeep, hiff.2 (by decide)⟩

theorem second_climb_lost :
    (lexical ⟨"../../x"⟩ = ⟨"../../x"⟩ ∧ normalize ⟨"../../x"⟩ = ⟨"x"⟩) ∧
      (lexical ⟨"/.."⟩ = ⟨"/"⟩ ∧ normalize ⟨"/.."⟩ = ⟨"/.."⟩) ∧
      (join ⟨"/a/b"⟩ ⟨"../../x"⟩).trail.climbs = 0 ∧
        (join ⟨"/a/b"⟩ ⟨"../../x"⟩).normalize = ⟨"/x"⟩ ∧
        (join ⟨"/a/b"⟩ (normalize ⟨"../../x"⟩)).normalize = ⟨"/a/b/x"⟩ := by
  decide

end ImportAtlas.Path
