import Mathlib.Data.List.Chain
import Flowchart.Chart.Summary
import Flowchart.Proofs.DepthFirst
import Flowchart.Proofs.Exported
import Flowchart.Proofs.Regions
import Flowchart.Proofs.Runs

/-!
# The Loops of a Chart Are the Loops of Its Program

A search through the chart of a program finds the heads of loops without knowing the
program.  It finds just the loops of the program whose bodies can be completed, in live
code and in dead code alike.

The reason is that the search never goes back along a new way.  It tries the nodes of the
program in order, so a path begins before all its other nodes, and to go back it would
have to enter the region of a loop from outside, which is possible only by the condition
that it goes back to.  So the path of the search always leads forward
(`Track.descending`), and

* a node that is met again on the path is the condition of a loop, and the path from there
  on is a run of its body (`Track.exists_loop`);
* the ways through a body that can be completed lead forward, so its nodes are finished
  from the last to the first; the way back from the last one must have been met while the
  condition was still on the path (`mem_loopHeads_of_canComplete`).
-/

namespace Flowchart

variable {settings : Settings} {statements : List Statement}

/-! ## §1 Tracks -/

/-- The numbers of the nodes on the path of a search, the latest first.  It begins at
    `root`, and at no later node. -/
structure Track (all : List (Way Nat)) (root : Nat) (track : List Nat) : Prop where
  chain : track.IsChain fun i j => LeadsTo all j i
  nodup : track.Nodup
  last : track.getLast? = some root
  root_le : ∀ i ∈ track, root ≤ i

theorem Track.tail {all : List (Way Nat)} {root i j : Nat} {track : List Nat}
    (h : Track all root (i :: j :: track)) : Track all root (j :: track) where
  chain := (List.isChain_cons_cons.1 h.chain).2
  nodup := (List.nodup_cons.1 h.nodup).2
  last := by rw [← h.last, List.getLast?_cons_cons]
  root_le := fun k hk => h.root_le k (List.mem_cons_of_mem i hk)

/-- A list of nodes that comes to a region from outside has come by its first node. -/
theorem number_mem_of_enters {p q : Site} (hclosed : p.Closed) (hpq : p.Contains q)
    {track : List Nat} (hchain : track.IsChain fun i j => LeadsTo (p.ways settings) j i)
    (hhead : ∀ i ∈ track.head?, q.Covers i) (houtside : ∃ k ∈ track, ¬q.Covers k) :
    q.number ∈ track := by
  induction track with
  | nil => simp at houtside
  | cons i track ih =>
    have hi : q.Covers i := hhead i rfl
    cases track with
    | nil =>
      obtain ⟨k, hk, hkout⟩ := houtside
      obtain rfl := List.mem_singleton.1 hk
      exact absurd hi hkout
    | cons j track =>
      obtain ⟨hstep, hchain⟩ := List.isChain_cons_cons.1 hchain
      by_cases hj : q.Covers j
      · apply List.mem_cons_of_mem
        apply ih hchain
        · intro k hk
          obtain rfl : j = k := Option.some.inj hk
          exact hj
        · obtain ⟨k, hk, hkout⟩ := houtside
          rcases List.mem_cons.1 hk with rfl | hk
          · exact absurd hi hkout
          · exact ⟨k, hk, hkout⟩
      · -- here the region is entered, and that is only possible at its first node
        obtain ⟨w, hw, rfl, htarget⟩ := hstep
        have hnumber := Site.target_eq_number_of_enters hpq hclosed hw hj htarget hi
        rw [← hnumber]
        exact List.mem_cons_self

/-- The program as a whole, with nothing after it. -/
def wholeSite (statements : List Statement) : Site := ⟨0, none, .block statements⟩

theorem wholeSite_closed : (wholeSite statements).Closed := Site.outside_none

/-- **The path of a search leads forward.** -/
theorem Track.descending {root : Nat} {track : List Nat}
    (h : Track ((wholeSite statements).ways settings) root track) :
    track.Pairwise fun i j => j < i := by
  induction track with
  | nil => exact .nil
  | cons i track ih =>
    cases track with
    | nil => exact List.pairwise_singleton _ i
    | cons j track =>
      have hdescending := ih h.tail
      -- suppose the latest step led back: then it led to the condition of a loop
      have hstep : j < i := by
        rw [← Nat.not_le]
        intro hback
        obtain ⟨⟨w, hw, rfl, htarget⟩, hchain⟩ := List.isChain_cons_cons.1 h.chain
        obtain ⟨hnew, hnodup⟩ := List.nodup_cons.1 h.nodup
        rcases Site.exists_loop_of_not_forward hw htarget hback with hnone | hloop
        · cases hnone
        obtain ⟨next, condition, body, hcontains, hcovers⟩ := hloop
        have hroot : root ∈ w.source :: track := List.mem_of_getLast? h.tail.last
        -- the path begins before the loop, so it came to the body by the condition
        have hbefore : root < i := by
          have hle := h.root_le i List.mem_cons_self
          have hne : root ≠ i := fun heq => hnew (heq ▸ hroot)
          omega
        apply hnew
        apply number_mem_of_enters wholeSite_closed hcontains hchain
        · intro k hk
          obtain rfl := Option.some.inj hk
          exact hcovers
        · exact ⟨root, hroot, fun hin => Nat.not_le_of_lt hbefore hin.1⟩
      refine List.pairwise_cons.2 ⟨?_, hdescending⟩
      intro k hk
      rcases List.mem_cons.1 hk with rfl | hk
      · exact hstep
      · exact Nat.lt_trans ((List.pairwise_cons.1 hdescending).1 k hk) hstep

/-! ## §2 A node met again is the condition of a loop -/

/-- Nodes of which each leads to the one before it make a walk. -/
theorem exists_walk_of_chain {all : List (Way Nat)} {track : List Nat} {first last goal : Nat}
    (hchain : track.IsChain fun i j => LeadsTo all j i) (hlast : track.head? = some last)
    (hfirst : track.getLast? = some first) (hgoal : LeadsTo all last goal) :
    ∃ trace, Way.Walk all (some goal) (some first) trace .completed := by
  induction track generalizing last goal with
  | nil => cases hlast
  | cons i track ih =>
    obtain rfl := Option.some.inj hlast
    obtain ⟨w, hw, rfl, htarget⟩ := hgoal
    have hstep : Way.Walk all (some goal) (some w.source) [(w.source, w.label)] .completed := by
      apply Way.Walk.follow hw
      rw [htarget]
      exact .arrive
    cases track with
    | nil =>
      obtain rfl : w.source = first := by simpa using hfirst
      exact ⟨_, hstep⟩
    | cons j track =>
      obtain ⟨hji, hchain⟩ := List.isChain_cons_cons.1 hchain
      rw [List.getLast?_cons_cons] at hfirst
      obtain ⟨trace, hwalk⟩ := ih hchain rfl hfirst hji
      exact ⟨_, hwalk.append hstep⟩

/-- A walk that comes back to the condition of a loop by nodes of its region has run the
    body. -/
theorem canComplete_of_walk {number first : Nat} {next : Option Nat} {condition : String}
    {body : List Statement} {trace : Trace Nat}
    (hfree : (wholeSite statements).statement.holeFree = true)
    (hcontains : (wholeSite statements).Contains ⟨number, next, .whileDo condition body⟩)
    (hfirst : LeadsTo ((wholeSite statements).ways settings) number first)
    (hcovers : Site.Covers ⟨number, next, .whileDo condition body⟩ first)
    (hwalk : Way.Walk ((wholeSite statements).ways settings) (some number) (some first) trace
      .completed) :
    Statement.canCompleteList body = true := by
  have hsite : Site.Within settings ((wholeSite statements).ways settings)
      ⟨number, next, .whileDo condition body⟩ := Site.within_self.contains hcontains
  obtain ⟨w, hw, hsource, htarget⟩ := hfirst
  -- of the three kinds of ways of the loop, only the one into its body is possible
  have hway := hsite.mem_ways (Nat.succ_pos _) hw hsource
  simp only [Site.ways, Statement.ways_whileDo, List.mem_cons] at hway
  rcases hway with rfl | rfl | hway
  · have hgoal : Site.Outside ⟨number + 1, some number, .block body⟩ (some number) :=
      (wholeSite_closed.contains hcontains).part .body
    have hbody : (Statement.block body).holeFree = true := hcontains.holeFree hfree
    rw [← htarget] at hwalk
    rcases hwalk.splits hbody (hsite.part .body) hgoal with
      ⟨hexited, -⟩ | ⟨_, _, -, hrun, -⟩
    · cases hexited
    · exact hrun.canComplete
  · -- the way that leaves the loop does not come back
    exact absurd hcovers (wholeSite_closed.contains hcontains first htarget)
  · have := (Statement.source_mem_ways hway).1
    omega

/-- **A node that is met again on the path is the condition of a loop**, and the body of the
    loop can be completed. -/
theorem Track.exists_loop {root u v : Nat} {track : List Nat}
    (hfree : (wholeSite statements).statement.holeFree = true)
    (h : Track ((wholeSite statements).ways settings) root (u :: track))
    (hback : LeadsTo ((wholeSite statements).ways settings) u v) (hv : v ∈ u :: track) :
    ∃ next condition body, (wholeSite statements).Contains ⟨v, next, .whileDo condition body⟩ ∧
      Statement.canCompleteList body = true := by
  have hle : v ≤ u := by
    rcases List.mem_cons.1 hv with rfl | hv
    · exact Nat.le_refl _
    · exact Nat.le_of_lt ((List.pairwise_cons.1 h.descending).1 v hv)
  obtain ⟨w, hw, hsource, htarget⟩ := hback
  subst hsource
  rcases Site.exists_loop_of_not_forward hw htarget hle with hnone | hloop
  · cases hnone
  obtain ⟨next, condition, body, hcontains, hcovers⟩ := hloop
  refine ⟨next, condition, body, hcontains, ?_⟩
  -- the nodes that the path has taken since it took the condition
  obtain ⟨later, earlier, hsplit⟩ := List.append_of_mem hv
  have hchain := h.chain
  have hnodup := h.nodup
  rw [hsplit] at hchain hnodup
  obtain ⟨hlater, -, hstep⟩ := List.isChain_append.1 hchain
  have hnew : v ∉ later := by
    intro hin
    exact (List.nodup_append.1 hnodup).2.2 v hin v List.mem_cons_self rfl
  cases hlast : later.getLast? with
  | none =>
    -- the condition leads to itself
    obtain rfl := List.getLast?_eq_none_iff.1 hlast
    obtain ⟨rfl, -⟩ := List.cons.inj hsplit
    exact canComplete_of_walk hfree hcontains ⟨w, hw, rfl, htarget⟩ hcovers .arrive
  | some first =>
    have hhead : later.head? = some w.source := by
      cases later with
      | nil => cases hlast
      | cons i later => rw [(List.cons.inj hsplit).1]; rfl
    obtain ⟨trace, hwalk⟩ := exists_walk_of_chain hlater hhead hlast ⟨w, hw, rfl, htarget⟩
    have hinside : Site.Covers ⟨v, next, .whileDo condition body⟩ first := by
      -- otherwise the path would have come to the condition once more
      by_contra hout
      apply hnew
      apply number_mem_of_enters wholeSite_closed hcontains hlater
      · intro k hk
        obtain rfl := Option.some.inj (hhead.symm.trans hk)
        exact hcovers
      · exact ⟨first, List.mem_of_getLast? hlast, hout⟩
    exact canComplete_of_walk hfree hcontains (hstep first hlast v rfl) hinside hwalk

/-! ## §3 The search through a chart -/

/-- The multigraph of a drawn program. -/
def programGraph (settings : Settings) (statements : List Statement) : Multigraph :=
  (drawProgram settings (.block statements)).graph.toMultigraph

theorem ids_programGraph (hfree : (Statement.block statements).holeFree = true) :
    (programGraph settings statements).ids =
      (List.range (Statement.block statements).size).map (numberedId "n") :=
  ids_drawProgram hfree

theorem mem_successors_programGraph (hfree : (Statement.block statements).holeFree = true)
    {i j : Nat} :
    numberedId "n" j ∈ (programGraph settings statements).successors (numberedId "n" i) ↔
      LeadsTo ((wholeSite statements).ways settings) i j := by
  rw [programGraph, mem_successors_drawProgram hfree]
  constructor
  · rintro ⟨w, hw, hsource, t, htarget, ht⟩
    rw [numberedId_inj] at hsource ht
    subst hsource ht
    exact ⟨w, hw, rfl, htarget⟩
  · rintro ⟨w, hw, rfl, htarget⟩
    exact ⟨w, hw, rfl, j, htarget, rfl⟩

theorem exists_map_eq_of_subset {α β : Type} {f : α → β} {xs : List α} {ys : List β}
    (h : ys ⊆ xs.map f) : ∃ zs : List α, ys = zs.map f := by
  induction ys with
  | nil => exact ⟨[], rfl⟩
  | cons y ys ih =>
    obtain ⟨hy, hys⟩ := List.cons_subset.1 h
    obtain ⟨x, -, rfl⟩ := List.mem_map.1 hy
    obtain ⟨zs, rfl⟩ := ih hys
    exact ⟨x :: zs, rfl⟩

theorem successors_programGraph_subset (id : String) :
    (programGraph settings statements).successors id ⊆ (programGraph settings statements).ids :=
  Graph.successors_subset_ids _ id

/-- The starts of the search are numbered in order. -/
theorem getElem?_ids_programGraph (hfree : (Statement.block statements).holeFree = true) {i : Nat}
    {id : String} (h : (programGraph settings statements).ids[i]? = some id) :
    id = numberedId "n" i := by
  rw [ids_programGraph hfree, List.getElem?_map] at h
  obtain ⟨j, hj, rfl⟩ := Option.map_eq_some_iff.1 h
  obtain ⟨-, rfl⟩ := List.getElem?_eq_some_iff.1 hj
  rw [List.getElem_range]

/-- The path of the search, in numbers. -/
theorem exists_track (hfree : (Statement.block statements).holeFree = true)
    {before path : List String}
    (h : Search.Trail (programGraph settings statements) (programGraph settings statements).ids
      before path) :
    ∃ root track, path = track.map (numberedId "n") ∧
      Track ((wholeSite statements).ways settings) root track := by
  have hsubset := h.subset_ids successors_programGraph_subset (List.Subset.refl _)
  rw [ids_programGraph hfree] at hsubset
  obtain ⟨track, rfl⟩ := exists_map_eq_of_subset hsubset
  obtain ⟨start, after, hstarts, hlast⟩ := h.root
  have hat : (programGraph settings statements).ids[before.length]? = some start := by
    rw [hstarts]
    simp
  have hstart : start = numberedId "n" before.length := getElem?_ids_programGraph hfree hat
  subst hstart
  refine ⟨before.length, track, rfl, ?_, h.nodup.of_map _, ?_, ?_⟩
  · apply ((List.isChain_map _).1 h.chain).imp
    intro i j hij
    exact (mem_successors_programGraph hfree).1 hij
  · show track.getLast? = some before.length
    rw [List.getLast?_map] at hlast
    obtain ⟨root, hroot, hname⟩ := Option.map_eq_some_iff.1 hlast
    rw [hroot, numberedId_inj.1 hname]
  · -- an earlier start does not lie on the path
    intro i hi
    by_contra hlt
    rw [Nat.not_le] at hlt
    apply h.fresh _ (List.mem_map_of_mem hi)
    have hid : (programGraph settings statements).ids[i]? = some before[i] := by
      rw [hstarts, List.getElem?_append_left hlt, List.getElem?_eq_getElem hlt]
    rw [← getElem?_ids_programGraph hfree hid]
    exact List.getElem_mem hlt

/-- **The search comes forward only**: wherever it comes to `i`, all nodes of the path are at
    or before `i`. -/
theorem le_of_comesFrom (hfree : (Statement.block statements).holeFree = true) {i j : Nat}
    (h : Search.ComesFrom (programGraph settings statements) (programGraph settings statements).ids
      (numberedId "n" i) (numberedId "n" j)) : j ≤ i := by
  obtain ⟨before, path, htrail, hmem⟩ := h
  obtain ⟨root, track, hpath, htrack⟩ := exists_track hfree htrail
  have hj : j ∈ track := by
    rw [hpath] at hmem
    obtain ⟨k, hk, hname⟩ := List.mem_map.1 hmem
    exact numberedId_inj.1 hname ▸ hk
  cases track with
  | nil => cases hpath
  | cons k track =>
    obtain rfl : i = k := numberedId_inj.1 (List.cons.inj hpath).1
    rcases List.mem_cons.1 hj with rfl | hj
    · exact Nat.le_refl _
    · exact Nat.le_of_lt ((List.pairwise_cons.1 htrack.descending).1 j hj)

/-- A head of a loop that the search finds is the condition of a loop whose body can be
    completed. -/
theorem exists_loop_of_comesFrom (hfree : (Statement.block statements).holeFree = true)
    {u id : String} (hsuccessor : id ∈ (programGraph settings statements).successors u)
    (h : Search.ComesFrom (programGraph settings statements) (programGraph settings statements).ids
      u id) :
    ∃ i next condition body, id = numberedId "n" i ∧
      (wholeSite statements).Contains ⟨i, next, .whileDo condition body⟩ ∧
      Statement.canCompleteList body = true := by
  obtain ⟨before, path, htrail, hmem⟩ := h
  obtain ⟨root, track, hpath, htrack⟩ := exists_track hfree htrail
  rw [hpath] at hmem
  obtain ⟨j, hj, rfl⟩ := List.mem_map.1 hmem
  cases track with
  | nil => cases hj
  | cons i track =>
    obtain ⟨rfl, -⟩ := List.cons.inj hpath
    obtain ⟨next, condition, body, hcontains, hcomplete⟩ :=
      htrack.exists_loop hfree ((mem_successors_programGraph hfree).1 hsuccessor) hj
    exact ⟨j, next, condition, body, rfl, hcontains, hcomplete⟩

/-! ## §4 A loop whose body can be completed is found -/

section Found

variable {s : Search} {finished : List String}
  (hfree : (Statement.block statements).holeFree = true)
  (hsound : Search.Sound (programGraph settings statements)
    (programGraph settings statements).ids (programGraph settings statements).ids s [] finished)

/-- The body of a loop that can be completed is crossed from the condition, by ways that
    lead forward, to a way back to the condition. -/
theorem exists_way_back {i : Nat} {next : Option Nat} {condition : String} {body : List Statement}
    (hcontains : (wholeSite statements).Contains ⟨i, next, .whileDo condition body⟩)
    (hcomplete : Statement.canCompleteList body = true) :
    ∃ j, Relation.ReflTransGen (Forward ((wholeSite statements).ways settings)) i j ∧
      LeadsTo ((wholeSite statements).ways settings) j i := by
  have hsite : Site.Within settings ((wholeSite statements).ways settings)
      ⟨i, next, .whileDo condition body⟩ := Site.within_self.contains hcontains
  have hin := hsite.mem (.head _)
  rcases Nat.eq_zero_or_pos (Statement.block body).size with hzero | hpos
  · exact ⟨i, .refl, _, hin, rfl, Statement.entry_of_size_eq_zero hzero⟩
  · have hbody : (Statement.block body).canComplete = true := hcomplete
    obtain ⟨w, hw, hback, hchain⟩ := Statement.exists_way_to_next hbody hpos (hsite.part .body)
    have hstep : Forward ((wholeSite statements).ways settings) i (i + 1) :=
      ⟨Nat.lt_succ_self i, _, hin, rfl, Statement.entry_of_size_pos hpos⟩
    exact ⟨w.source, .head hstep hchain, w, (hsite.part .body).mem hw, rfl, hback⟩

include hfree hsound

/-- The nodes that forward ways lead to are finished earlier. -/
theorem idxOf_lt_of_forward {i j : Nat} (h : Forward ((wholeSite statements).ways settings) i j)
    (hi : numberedId "n" i ∈ finished) :
    finished.idxOf (numberedId "n" i) < finished.idxOf (numberedId "n" j) ∧
      numberedId "n" j ∈ finished := by
  obtain ⟨hlt, hleads⟩ := h
  have hsuccessor := (mem_successors_programGraph hfree).2 hleads
  rcases hsound.settled _ hi _ hsuccessor with ⟨hj, hidx⟩ | ⟨-, hfrom⟩
  · exact ⟨hidx, hj⟩
  · -- it cannot lie on the path to a node before it
    exact absurd (le_of_comesFrom hfree hfrom) (Nat.not_le_of_lt hlt)

theorem idxOf_le_of_forwards {i j : Nat}
    (h : Relation.ReflTransGen (Forward ((wholeSite statements).ways settings)) i j)
    (hi : numberedId "n" i ∈ finished) :
    finished.idxOf (numberedId "n" i) ≤ finished.idxOf (numberedId "n" j) ∧
      numberedId "n" j ∈ finished := by
  induction h with
  | refl => exact ⟨Nat.le_refl _, hi⟩
  | tail _ hstep ih =>
    obtain ⟨hlt, hj⟩ := idxOf_lt_of_forward hfree hsound hstep ih.2
    exact ⟨Nat.le_of_lt (Nat.lt_of_le_of_lt ih.1 hlt), hj⟩

/-- **The condition of a loop whose body can be completed is met again on the path.** -/
theorem mem_loopHeads_of_canComplete {i : Nat} {next : Option Nat} {condition : String}
    {body : List Statement}
    (hcontains : (wholeSite statements).Contains ⟨i, next, .whileDo condition body⟩)
    (hcomplete : Statement.canCompleteList body = true) :
    numberedId "n" i ∈ s.loopHeads := by
  obtain ⟨j, hforwards, hback⟩ := @exists_way_back settings _ _ _ _ _ hcontains hcomplete
  have hloop : Site.Covers ⟨i, next, .whileDo condition body⟩ i :=
    Site.covers_number (Nat.succ_pos _)
  have hcovers : (wholeSite statements).Covers i := hloop.of_contains hcontains
  have hi : numberedId "n" i ∈ finished := by
    apply hsound.searched
    rw [ids_programGraph hfree]
    apply List.mem_map_of_mem
    have hlt := hcovers.2
    simpa [wholeSite, Site.stop] using hlt
  obtain ⟨hle, hj⟩ := idxOf_le_of_forwards hfree hsound hforwards hi
  rcases hsound.settled _ hj _ ((mem_successors_programGraph hfree).2 hback) with
    ⟨-, hlt⟩ | ⟨hhead, -⟩
  · -- the condition would be finished before the node that was finished before it
    omega
  · exact hhead

end Found

/-! ## §5 The loops of a program -/

/-- A loop that goes round: its body can be completed. -/
def Statement.goesRound : Statement → Bool
  | .whileDo _ body => Statement.canCompleteList body
  | _ => false

theorem mem_loopHeads_iff (hfree : (Statement.block statements).holeFree = true) {id : String} :
    id ∈ (programGraph settings statements).loopHeads ↔
      ∃ i s, (Statement.block statements).preorder[i]? = some s ∧ s.goesRound = true ∧
        id = numberedId "n" i := by
  obtain ⟨finished, hsound⟩ :=
    Search.sound_run (@successors_programGraph_subset settings statements) (List.Subset.refl _)
  have hpreorder : ∀ {x : Statement} {i : Nat}, (wholeSite statements).Numbers x i ↔
      (Statement.block statements).preorder[i]? = some x := by
    intro x i
    exact List.mem_zipIdx_iff_getElem?
  rw [Multigraph.loopHeads, List.mem_reverse]
  constructor
  · intro hid
    obtain ⟨u, hsuccessor, hfrom⟩ := hsound.heads id hid
    obtain ⟨i, next, condition, body, rfl, hcontains, hcomplete⟩ :=
      exists_loop_of_comesFrom hfree hsuccessor hfrom
    exact ⟨i, _, hpreorder.1 hcontains.numbers_loop, hcomplete, rfl⟩
  · rintro ⟨i, s, hs, hround, rfl⟩
    cases s with
    | whileDo condition body =>
      obtain ⟨next, hcontains⟩ := Site.exists_contains_loop (hpreorder.2 hs)
      exact mem_loopHeads_of_canComplete hfree hsound hcontains hround
    | _ => cases hround

theorem nodup_loopHeads : (programGraph settings statements).loopHeads.Nodup := by
  obtain ⟨finished, hsound⟩ :=
    Search.sound_run (@successors_programGraph_subset settings statements) (List.Subset.refl _)
  exact List.nodup_reverse.2 hsound.heads_nodup

/-- The names of the loops that go round, in preorder. -/
def roundLoops (statements : List Statement) : List String :=
  ((Statement.block statements).preorder.zipIdx.filter fun x => x.1.goesRound).map
    fun x => numberedId "n" x.2

theorem mem_roundLoops {id : String} :
    id ∈ roundLoops statements ↔ ∃ i s, (Statement.block statements).preorder[i]? = some s ∧
      s.goesRound = true ∧ id = numberedId "n" i := by
  simp only [roundLoops, List.mem_map, List.mem_filter, Prod.exists, List.mem_zipIdx_iff_getElem?]
  constructor
  · rintro ⟨s, i, ⟨hs, hround⟩, rfl⟩
    exact ⟨i, s, hs, hround, rfl⟩
  · rintro ⟨i, s, hs, hround, rfl⟩
    exact ⟨s, i, ⟨hs, hround⟩, rfl⟩

theorem nodup_roundLoops : (roundLoops statements).Nodup := by
  have hnumbers : ((Statement.block statements).preorder.zipIdx.filter
      fun x => x.1.goesRound).map Prod.snd |>.Nodup := by
    apply List.Nodup.sublist (List.filter_sublist.map Prod.snd)
    rw [List.zipIdx_map_snd]
    exact List.nodup_range'
  have hnames := hnumbers.map (numberedId_injective "n")
  rwa [List.map_map] at hnames

theorem length_roundLoops :
    (roundLoops statements).length =
      (Statement.block statements).preorder.countP Statement.goesRound := by
  have hcount : (Statement.block statements).preorder.countP Statement.goesRound =
      (((Statement.block statements).preorder.zipIdx).map Prod.fst).countP Statement.goesRound := by
    rw [List.zipIdx_map_fst]
  rw [hcount, List.countP_map, List.countP_eq_length_filter, roundLoops, List.length_map]
  rfl

/-- **Loop detection finds exactly the loops that go round.**  For every program without
    holes and all settings: no head of a loop is found twice; the heads are the nodes of the
    loops whose bodies can be completed, wherever they stand; the node of any other
    statement is none; and the summary counts them. -/
theorem loopHeads_drawProgram (settings : Settings) {statements : List Statement}
    (hfree : (Statement.block statements).holeFree = true) :
    (drawProgram settings (.block statements)).graph.toMultigraph.loopHeads.Nodup ∧
      (∀ id, id ∈ (drawProgram settings (.block statements)).graph.toMultigraph.loopHeads ↔
        ∃ i s, (Statement.block statements).preorder[i]? = some s ∧ s.goesRound = true ∧
          id = numberedId "n" i) ∧
      (∀ i s, (Statement.block statements).preorder[i]? = some s →
        (numberedId "n" i ∈
            (drawProgram settings (.block statements)).graph.toMultigraph.loopHeads ↔
          s.goesRound = true)) ∧
      (drawProgram settings (.block statements)).graph.summary.loops =
        (Statement.block statements).preorder.countP Statement.goesRound := by
  have hnodup : (programGraph settings statements).loopHeads.Nodup := nodup_loopHeads
  have hmem : ∀ id, id ∈ (programGraph settings statements).loopHeads ↔ _ :=
    fun id => mem_loopHeads_iff hfree
  refine ⟨hnodup, hmem, ?_, ?_⟩
  · intro i s hs
    refine (hmem _).trans ?_
    constructor
    · rintro ⟨j, t, ht, hround, hname⟩
      obtain rfl := numberedId_inj.1 hname
      obtain rfl : t = s := Option.some.inj (ht.symm.trans hs)
      exact hround
    · intro hround
      exact ⟨i, s, hs, hround, rfl⟩
  · have hperm : (programGraph settings statements).loopHeads.Perm (roundLoops statements) :=
      (List.perm_ext_iff_of_nodup hnodup nodup_roundLoops).2
        fun id => (hmem id).trans mem_roundLoops.symm
    rw [← length_roundLoops, ← hperm.length_eq]
    rfl

/-- A loop around an `exit` never comes back to its condition, and is not found; an empty
    loop in dead code is. -/
theorem loopHeads_of_dead_loop :
    (Statement.block [.whileDo "live" [.exit], .exit, .whileDo "dead" []]).holeFree = true ∧
      numberedId "n" 3 ∈ (drawProgram {} (.block [.whileDo "live" [.exit], .exit,
        .whileDo "dead" []])).graph.toMultigraph.loopHeads ∧
      numberedId "n" 0 ∉ (drawProgram {} (.block [.whileDo "live" [.exit], .exit,
        .whileDo "dead" []])).graph.toMultigraph.loopHeads ∧
      (drawProgram {} (.block [.whileDo "live" [.exit], .exit,
        .whileDo "dead" []])).graph.summary.loops = 1 := by
  obtain ⟨-, -, hheads, hloops⟩ :=
    @loopHeads_drawProgram {} [.whileDo "live" [.exit], .exit, .whileDo "dead" []] rfl
  refine ⟨rfl, (hheads 3 _ rfl).2 rfl, ?_, hloops⟩
  intro hlive
  cases (hheads 0 _ rfl).1 hlive

end Flowchart
