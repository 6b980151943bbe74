import ImportAtlas.Grammar.Script

/-!
# Places of a reader

A reader only goes forward: every place that it remembers, on its stacks, in
its trees or as the place of an error, comes from the place where it starts by
going forward.  What holds at the start and is kept by going forward therefore
holds at the start and at the end of all trees that are read.
-/

namespace ImportAtlas.Grammar

open Source (Cursor)

variable {P : Cursor → Prop}

/-! ## Trees -/

/-- Whether a property holds at both ends of a tree and of all trees inside it.
-/
inductive Growth.Stands (P : Cursor → Prop) : Growth → Prop
  | leaf {token : Nat} {isComment : Bool} {start stop : Cursor}
      (hstart : P start) (hstop : P stop) :
      Stands P (.leaf token isComment start stop)
  | branch {stage : Nat} {start stop : Cursor} {weight : Int}
      {children : List Growth} (hstart : P start) (hstop : P stop)
      (hchildren : ∀ child ∈ children, Stands P child) :
      Stands P (.branch stage start stop weight children)

theorem Growth.Stands.start {tree : Growth} (h : tree.Stands P) :
    P tree.start := by
  cases h <;> assumption

theorem Growth.Stands.stop {tree : Growth} (h : tree.Stands P) :
    P tree.stop := by
  cases h <;> assumption

private theorem Growth.stands_ofChildren {place : Cursor}
    {children : List Growth} (hplace : P place)
    (hchildren : ∀ child ∈ children, child.Stands P) (stage : Nat)
    (weight : Int) :
    (ofChildren place stage weight children).Stands P := by
  refine .branch ?_ ?_ hchildren
  · cases hhead : (children.filter fun child => !child.isComment).head? with
    | none => exact hplace
    | some child =>
      exact (hchildren child
        (List.mem_filter.1 (List.mem_of_head? hhead)).1).start
  · cases hlast : (children.filter fun child => !child.isComment).getLast? with
    | none => exact hplace
    | some child =>
      exact (hchildren child
        (List.mem_filter.1 (List.mem_of_getLast? hlast)).1).stop

/-! ## Stacks -/

structure StackNode.Stands (P : Cursor → Prop) (node : StackNode) : Prop where
  place : P node.place
  links : ∀ link ∈ node.links, link.tree.Stands P

namespace StackNodes

def Stand (P : Cursor → Prop) (nodes : StackNodes) : Prop :=
  ∀ (index : Nat) (node : StackNode), nodes[index]? = some node → node.Stands P

theorem Stand.mem_links {nodes : StackNodes} (h : nodes.Stand P) {index : Nat}
    {link : Link}
    (hlink : link ∈ ((nodes[index]?).map StackNode.links).getD []) :
    link.tree.Stands P := by
  cases hnode : nodes[index]? with
  | none => simp [hnode] at hlink
  | some node =>
      simp only [hnode, Option.map_some, Option.getD_some] at hlink
      exact (h index node hnode).links link hlink

theorem stand_push {nodes : StackNodes} (h : nodes.Stand P) (below : Nat)
    {tree : Growth} (htree : tree.Stands P) (state : Nat) :
    Stand P (nodes.push below tree state).2 := by
  intro index node hnode
  simp only [push, Array.getElem?_push] at hnode
  split at hnode
  · cases hnode
    exact ⟨htree.stop, by simpa using htree⟩
  · exact h index node hnode

theorem stand_modify {nodes : StackNodes} (h : nodes.Stand P) (here : Nat)
    {change : StackNode → StackNode}
    (hchange : ∀ node, node.Stands P → (change node).Stands P) :
    Stand P (nodes.modify here change) := by
  intro index node hnode
  rw [Array.getElem?_modify] at hnode
  split at hnode
  · obtain ⟨known, hknown, rfl⟩ := Option.map_eq_some_iff.1 hnode
    exact hchange known (h index known hknown)
  · exact h index node hnode

private theorem stand_addLink (table : Table) {nodes : StackNodes}
    (h : nodes.Stand P) (fuel here : Nat) {link : Link}
    (hlink : link.tree.Stands P) :
    Stand P (nodes.addLink table fuel here link) := by
  induction fuel generalizing here link nodes with
  | zero => exact h
  | succ fuel ih =>
      simp only [addLink]
      split
      · exact h
      split
      · next node below hnode hbelow =>
        split
        · split
          · exact h
          split
          · split
            · refine stand_modify h here fun node hnode =>
                ⟨hnode.place, fun other hother => ?_⟩
              rcases List.mem_or_eq_of_mem_set hother with hother | rfl
              · exact hnode.links other hother
              · exact hlink
            · exact h
          · -- what lies below goes to the node below, tree by tree
            refine stand_modify ?_ here fun node hnode =>
              ⟨hnode.place, hnode.links⟩
            exact List.foldlRecOn _ _ h fun nodes hnodes inner hinner =>
              ih hnodes _ ((h _ below hbelow).links inner hinner)
        · split
          · exact h
          · refine stand_modify h here fun node hnode =>
              ⟨hnode.place, fun other hother => ?_⟩
            rcases List.mem_append.1 hother with hother | hother
            · exact hnode.links other hother
            · rw [List.mem_singleton.1 hother]
              exact hlink
      · exact h

theorem stand_join (table : Table) {nodes : StackNodes} (h : nodes.Stand P)
    (here other : Nat) :
    Stand P (nodes.join table here other) :=
  List.foldlRecOn _ _ h fun known hknown _ hlink =>
    stand_addLink table hknown known.size here (h.mem_links hlink)

/-! ## Ways down -/

def Path.Stands (P : Cursor → Prop) (path : Path) : Prop :=
  ∀ tree ∈ path.trees, tree.Stands P

def Base.Stands (P : Cursor → Prop) (base : Base) : Prop :=
  ∀ way ∈ base.ways, ∀ tree ∈ way, tree.Stands P

structure Descent.Stands (P : Cursor → Prop) (descent : Descent) : Prop where
  bases : ∀ base ∈ descent.bases, base.Stands P
  straight : ∀ path ∈ descent.straight, path.Stands P
  branches : ∀ path ∈ descent.branches, path.Stands P

theorem Path.Stands.through {path : Path} (h : path.Stands P) {link : Link}
    (hlink : link.tree.Stands P) :
    (path.through link).Stands P := by
  intro tree htree
  rcases List.mem_cons.1 htree with rfl | htree
  · exact hlink
  · exact h tree htree

private theorem Base.stands_enter {path : Path} (hpath : path.Stands P)
    {bases : List Base} (hbases : ∀ base ∈ bases, base.Stands P) :
    ∀ base ∈ Base.enter path bases, base.Stands P := by
  induction bases with
  | nil => simpa [Base.enter, Base.Stands, Path.Stands] using hpath
  | cons known bases ih =>
      rw [List.forall_mem_cons] at hbases
      unfold Base.enter
      split
      · rw [List.forall_mem_cons]
        refine ⟨fun way hway => ?_, hbases.2⟩
        rcases List.mem_append.1 hway with hway | hway
        · exact hbases.1 way hway
        · rw [List.mem_singleton.1 hway]
          exact hpath
      · rw [List.forall_mem_cons]
        exact ⟨hbases.1, ih hbases.2⟩

theorem Descent.Stands.follow {nodes : StackNodes} (hnodes : nodes.Stand P)
    {descent : Descent} (h : descent.Stands P) {path : Path}
    (hpath : path.Stands P) (goal : Nat) :
    (descent.follow nodes goal path).Stands P := by
  unfold Descent.follow
  split
  · exact ⟨Base.stands_enter hpath h.bases, h.straight, h.branches⟩
  split
  · exact h
  · next link links hlinks =>
    have hthrough : ∀ other ∈ link :: links, (path.through other).Stands P :=
      fun other hother => hpath.through (hnodes.mem_links (hlinks ▸ hother))
    rw [List.forall_mem_cons] at hthrough
    refine ⟨h.bases, List.forall_mem_cons.2 ⟨hthrough.1, h.straight⟩,
      fun other hother => ?_⟩
    rcases List.mem_append.1 hother with hother | hother
    · obtain ⟨further, hfurther, rfl⟩ :=
        List.mem_map.1 (List.mem_reverse.1 hother)
      exact hthrough.2 further (List.mem_of_mem_take hfurther)
    · exact h.branches other hother

private theorem stands_descend {nodes : StackNodes} (hnodes : nodes.Stand P)
    (goal fuel : Nat) {paths : List Path}
    (hpaths : ∀ path ∈ paths, path.Stands P) {bases : List Base}
    (hbases : ∀ base ∈ bases, base.Stands P) :
    ∀ base ∈ descend nodes goal fuel paths bases, base.Stands P := by
  fun_induction descend nodes goal fuel paths bases with
  | case1 => exact hbases
  | case2 => exact hbases
  | case3 fuel paths bases hsome descent ih =>
      have hdescent : descent.Stands P :=
        List.foldlRecOn _ _ (⟨hbases, by simp, by simp⟩ : Descent.Stands P
          ⟨bases, [], []⟩)
          fun _ hknown path hpath =>
          hknown.follow hnodes (hpaths path hpath) goal
      refine ih (fun path hpath => ?_) hdescent.bases
      rcases List.mem_append.1 hpath with hpath | hpath
      · exact hdescent.straight path (List.mem_reverse.1 hpath)
      · exact hdescent.branches path (List.mem_reverse.1 hpath)

theorem stands_bases {nodes : StackNodes} (hnodes : nodes.Stand P)
    (node count : Nat) :
    ∀ base ∈ nodes.bases node count, base.Stands P :=
  stands_descend hnodes count _ (by simp [Path.Stands]) (by simp)

end StackNodes

/-! ## Readers -/

structure Reader.Stands (P : Cursor → Prop) (reader : Reader) : Prop where
  nodes : reader.nodes.Stand P
  finished : ∀ tree ∈ reader.finished, tree.Stands P
  farthest : P reader.farthest

namespace Reader

private theorem stands_start (table : Table) (entry : Nat) {place : Cursor}
    (hplace : P place) :
    (Reader.start table entry place).Stands P := by
  refine ⟨fun index node hnode => ?_, by simp [start], hplace⟩
  obtain rfl : node = ⟨0, place, 0, []⟩ := by
    simpa [start] using Array.mem_of_getElem? hnode
  exact ⟨hplace, by simp⟩

def Progress.reader : Progress → Reader
  | .settled reader | .reduced reader _ | .nothing reader => reader

variable {reader : Reader} (table : Table)

theorem Stands.node? (h : reader.Stands P) {version : Nat} {node : StackNode}
    (hnode : reader.node? version = some node) : node.Stands P := by
  obtain ⟨head, -, hnode⟩ := Option.bind_eq_some_iff.1 hnode
  exact h.nodes _ node hnode

theorem Stands.setStatus (h : reader.Stands P) (version : Nat)
    (status : HeadStatus) :
    (reader.setStatus version status).Stands P :=
  ⟨h.nodes, h.finished, h.farthest⟩

theorem Stands.giveUp (h : reader.Stands P) (version : Nat) {place : Cursor}
    (hplace : P place) :
    (reader.giveUp version place).Stands P := by
  refine ⟨h.nodes, h.finished, ?_⟩
  unfold Reader.giveUp
  dsimp only
  split
  · exact hplace
  · exact h.farthest

theorem Stands.push (h : reader.Stands P) (version : Nat) {tree : Growth}
    (htree : tree.Stands P) (state : Nat) :
    (reader.push version tree state).Stands P := by
  obtain ⟨hnodes, hfinished, hfarthest⟩ := h
  unfold Reader.push
  dsimp only
  split
  · exact ⟨hnodes, hfinished, hfarthest⟩
  · exact ⟨StackNodes.stand_push hnodes _ htree state, hfinished, hfarthest⟩

theorem Stands.replaceHead (h : reader.Stands P) (version other : Nat) :
    (reader.replaceHead version other).Stands P := by
  unfold Reader.replaceHead
  split
  · exact h
  · exact ⟨h.nodes, h.finished, h.farthest⟩

/-! ### Ending a part -/

private theorem stands_bestTree {place : Cursor} (hplace : P place)
    (stage : Nat) {ways : List (List Growth)}
    (hways : ∀ way ∈ ways, ∀ tree ∈ way, tree.Stands P) :
    ∀ best ∈ bestTree table place stage ways, best.1.Stands P ∧
      ∀ comment ∈ best.2, comment.Stands P := by
  refine List.foldlRecOn (motive := fun known : Option (Growth × List Growth) =>
    ∀ best ∈ known, best.1.Stands P ∧ ∀ comment ∈ best.2, comment.Stands P)
      _ _ (by simp)
    fun known hknown way hway => ?_
  have hparts : (∀ tree ∈ (splitComments way).1, tree.Stands P) ∧
      ∀ tree ∈ (splitComments way).2, tree.Stands P := by
    constructor
    · intro tree htree
      have hback := (List.dropWhile_sublist _).subset (List.mem_reverse.1 htree)
      exact hways way hway tree (List.mem_reverse.1 hback)
    · intro tree htree
      have hback := (List.takeWhile_sublist _).subset (List.mem_reverse.1 htree)
      exact hways way hway tree (List.mem_reverse.1 hback)
  have hnew :=
    Growth.stands_ofChildren hplace hparts.1 stage
      (((table.stage stage).weight).getD 0)
  cases known with
  | none =>
      rintro best ⟨⟩
      exact ⟨hnew, hparts.2⟩
  | some known =>
      dsimp only
      split
      · rintro best ⟨⟩
        exact ⟨hnew, hparts.2⟩
      · exact hknown

theorem Stands.reduceAbove (h : reader.Stands P) (version stage doneCount : Nat)
    {place : Cursor} (hplace : P place) {base : StackNodes.Base}
    (hbase : base.Stands P) :
    (reader.reduceAbove table version stage doneCount place base).Stands P := by
  unfold Reader.reduceAbove
  split
  · exact h
  split
  · next tree comments below hbest _ =>
    obtain ⟨htree, hcomments⟩ :=
      stands_bestTree table hplace stage hbase _ hbest
    obtain ⟨hnodes, hfinished, hfarthest⟩ := h
    dsimp only
    -- the tree goes onto the stack first, then the comments that followed it
    generalize hpushed : comments.foldl _ _ = pushed
    have hpushed : StackNodes.Stand P pushed.2 := by
      rw [← hpushed]
      refine List.foldlRecOn (motive :=
        fun known : Nat × StackNodes => StackNodes.Stand P known.2) _ _
        (StackNodes.stand_push hnodes _ htree _) fun known hknown comment
        hcomment => ?_
      exact StackNodes.stand_push hknown _ (hcomments comment hcomment) _
    split
    · exact ⟨StackNodes.stand_join table hpushed _ _, hfinished, hfarthest⟩
    · exact ⟨hpushed, hfinished, hfarthest⟩
  · exact h

theorem Stands.reduce (h : reader.Stands P) (version stage : Nat) :
    (reader.reduce table version stage).Stands P := by
  unfold Reader.reduce
  split
  · exact h
  · next head _ =>
    have hplace : P (((reader.nodes[head.node]?).map StackNode.place).getD
        reader.farthest) := by
      cases hnode : reader.nodes[head.node]? with
      | none => exact h.farthest
      | some node => exact (h.nodes _ node hnode).place
    exact List.foldlRecOn _ _ h fun known hknown base hbase =>
      hknown.reduceAbove table version stage _ hplace
        (StackNodes.stands_bases h.nodes _ _ base hbase)

theorem Stands.finish (h : reader.Stands P) (version : Nat) :
    (reader.finish table version).Stands P := by
  unfold Reader.finish
  split
  · exact h
  · next head _ =>
    refine ⟨h.nodes, ?_, h.farthest⟩
    refine List.foldlRecOn (motive :=
      fun known : Option Growth => ∀ tree ∈ known, tree.Stands P) _ _ h.finished
      fun known hknown tree htree => ?_
    have hstands : tree.Stands P := by
      obtain ⟨base, hbase, htree⟩ := List.mem_flatMap.1 htree
      obtain ⟨way, hway, htree⟩ := List.mem_filterMap.1 htree
      exact StackNodes.stands_bases h.nodes _ _ base hbase way hway tree
        (List.mem_of_find?_eq_some htree)
    cases known with
    | none => simpa using hstands
    | some known =>
        dsimp only
        split
        · simpa using hstands
        · exact hknown

/-! ### One token -/

theorem Stands.perform (h : reader.Stands P) (version : Nat) {leaf : Growth}
    (hleaf : leaf.Stands P) (actions : List Action) (didReduce : Bool)
    (next : Option Nat) :
    (Reader.perform table version leaf actions didReduce
      next reader).reader.Stands P := by
  fun_induction Reader.perform table version leaf actions didReduce next reader
    with
  | case1 => exact h
  | case2 => exact h
  | case3 => exact h.push version hleaf _
  | case4 => exact h.finish table version
  | case5 _ _ _ _ _ _ _ ih => exact ih (h.reduce table version _)

theorem Stands.take (h : reader.Stands P) (version : Nat) {start stop : Cursor}
    (hstart : P start) (hstop : P stop) (fuel token : Nat) :
    (Reader.take table version start stop fuel token reader).Stands P := by
  induction fuel generalizing token reader with
  | zero => exact h.giveUp version hstart
  | succ fuel ih =>
      unfold Reader.take
      split
      · exact h
      · next node hnode =>
        have hnode := h.node? hnode
        obtain ⟨hnodes, hfinished, hfarthest⟩ := h
        dsimp only
        generalize hprogress : Reader.perform table version _ _ false
          none _ = progress
        have hstands : progress.reader.Stands P := by
          rw [← hprogress]
          apply Stands.perform table _ version (.leaf hstart hstop)
          exact ⟨hnodes, hfinished, hfarthest⟩
        split
        · exact hstands
        · exact ih (hstands.replaceHead version _) token
        · exact hstands.setStatus version .done
        · split
          · exact ih hstands _
          · exact hstands.giveUp version hnode.place

variable (hforward : ∀ cursor count, P cursor → P (cursor.advance count))
include hforward

theorem Stands.advance (h : reader.Stands P) (fuel version : Nat) :
    (reader.advance table fuel version).Stands P := by
  unfold Reader.advance
  split
  · exact h
  · next node hnode =>
    have hplace := (h.node? hnode).place
    split
    · exact h.giveUp version hplace
    · next found _ =>
      have hstart := hforward _ found.skip hplace
      have hstop := hforward _ found.length hstart
      dsimp only
      split
      · exact h.push version (.leaf hstart hstop) _
      · exact h.take table version hstart hstop fuel found.token

/-! ### Rounds -/

theorem Stands.catchUp (h : reader.Stands P)
    (bound version fuel reached : Nat) :
    (reader.catchUp table bound version fuel reached).2.Stands P := by
  fun_induction Reader.catchUp table bound version fuel reached reader with
  | case1 => exact h
  | case2 => exact h.advance table hforward bound version
  | case3 _ _ _ _ _ _ _ ih => exact ih (h.advance table hforward bound version)
  | case4 => exact h

theorem Stands.readRound (h : reader.Stands P)
    (bound fuel version reached : Nat) :
    (reader.readRound table bound fuel version reached).2.Stands P := by
  fun_induction Reader.readRound table bound fuel version reached reader with
  | case1 => exact h
  | case2 _ version reached reader _ known after hafter ih =>
      refine ih ?_
      have hcaught := h.catchUp table hforward bound version bound reached
      rwa [hafter] at hcaught
  | case3 => exact h

omit hforward in
private theorem stand_settle (head : Head) (heads : List Head)
    {nodes : StackNodes} (h : nodes.Stand P) :
    StackNodes.Stand P (settle table head heads nodes).2 := by
  fun_induction settle table head heads nodes with
  | case1 => exact h
  | case2 => exact h
  | case3 _ _ _ _ _ _ ih => exact ih h
  | case4 => exact StackNodes.stand_join table h _ _
  | case5 _ _ _ _ _ _ _ _ _ _ hsettled ih =>
      have hrest := ih h
      rwa [hsettled] at hrest
  | case6 _ _ _ _ _ _ _ _ _ _ hsettled ih =>
      have hrest := ih h
      rwa [hsettled] at hrest

omit hforward in
theorem Stands.condense (h : reader.Stands P) :
    (reader.condense table).Stands P := by
  obtain ⟨hnodes, hfinished, hfarthest⟩ := h
  refine ⟨?_, hfinished, hfarthest⟩
  unfold Reader.condense
  dsimp only
  rw [← Array.foldl_toList]
  refine List.foldlRecOn (motive :=
    fun known : List Head × StackNodes => StackNodes.Stand P known.2) _ _ hnodes
    fun known hknown head _ => ?_
  split
  · exact hknown
  · exact stand_settle table head _ hknown

theorem Stands.readRounds (h : reader.Stands P) (bound fuel reached : Nat) :
    (reader.readRounds table bound fuel reached).Stands P := by
  induction fuel generalizing reached reader with
  | zero => exact h
  | succ fuel ih =>
      have hround :=
        (h.readRound table hforward bound bound 0 reached).condense table
      unfold Reader.readRounds
      dsimp only
      split
      · exact ih hround _
      · exact hround

theorem stands_read {entry : Nat} {place : Cursor} (hplace : P place)
    {tree : Growth} (hread : Reader.read table entry place = .ok tree) :
    tree.Stands P := by
  unfold Reader.read at hread
  dsimp only at hread
  have hreader := (stands_start table entry hplace).readRounds table hforward
    (1000 + 40 * place.rest.length) (1000 + 40 * place.rest.length) place.index
  split at hread
  · next known hfinished =>
    cases hread
    exact hreader.finished tree hfinished
  · cases hread

end Reader

end ImportAtlas.Grammar
