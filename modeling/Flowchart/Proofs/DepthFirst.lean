import Mathlib.Data.List.Nodup
import Mathlib.Data.List.Perm.Subperm
import Flowchart.Chart.Search

/-!
# What a Search in Depth Finds

A search leaves nodes behind in some order, each when everything behind it has been
looked at.  That order is not part of the search itself; here it is kept beside it, as
the list of finished nodes, the latest first.

The invariant `Search.Sound` says what is known at every moment.  A finished node leads
to nodes that were finished before it, and otherwise back along the path to a head of a
loop; and every head of a loop is met again from the end of a path that it lies on.

Main statement: `Search.sound_run`, the invariant after the whole search.
-/

namespace Flowchart

namespace Search

variable {g : Multigraph} {starts before path children finished finished' : List String}
  {s s' : Search}

/-! ## §1 Trails -/

/-- The path of a search, the latest node first.  It begins at a start, after the starts
    `before`, and none of them lies on it. -/
structure Trail (g : Multigraph) (starts before path : List String) : Prop where
  chain : path.IsChain fun a b => a ∈ g.successors b
  nodup : path.Nodup
  root : ∃ root after, starts = before ++ root :: after ∧ path.getLast? = some root
  fresh : ∀ id ∈ path, id ∉ before

theorem trail_singleton {root : String} {after : List String}
    (hstarts : starts = before ++ root :: after) (hfresh : root ∉ before) :
    Trail g starts before [root] where
  chain := .singleton root
  nodup := List.nodup_singleton root
  root := ⟨root, after, hstarts, rfl⟩
  fresh := by
    intro id hid
    rw [List.mem_singleton.1 hid]
    exact hfresh

theorem Trail.cons {u child : String} (h : Trail g starts before (u :: path))
    (hchild : child ∈ g.successors u) (hnew : child ∉ u :: path) (hfresh : child ∉ before) :
    Trail g starts before (child :: u :: path) where
  chain := List.isChain_cons_cons.2 ⟨hchild, h.chain⟩
  nodup := List.nodup_cons.2 ⟨hnew, h.nodup⟩
  root := by
    obtain ⟨root, after, hstarts, hlast⟩ := h.root
    exact ⟨root, after, hstarts, by rw [List.getLast?_cons_cons, hlast]⟩
  fresh := by
    intro id hid
    rcases List.mem_cons.1 hid with rfl | hid
    · exact hfresh
    · exact h.fresh id hid

theorem Trail.subset_ids (hclosed : ∀ id, g.successors id ⊆ g.ids) (hstarts : starts ⊆ g.ids)
    (h : Trail g starts before path) : path ⊆ g.ids := by
  obtain ⟨hchain, -, ⟨root, after, hroot, hlast⟩, -⟩ := h
  -- from the start on, the graph holds every node that one of its nodes leads to
  have hmem : root ∈ g.ids := hstarts (by simp [hroot])
  induction path with
  | nil => exact List.nil_subset _
  | cons a path ih =>
    cases path with
    | nil =>
      obtain rfl : a = root := by simpa using hlast
      exact List.cons_subset.2 ⟨hmem, List.nil_subset _⟩
    | cons b path =>
      obtain ⟨hab, hchain⟩ := List.isChain_cons_cons.1 hchain
      rw [List.getLast?_cons_cons] at hlast
      exact List.cons_subset.2 ⟨hclosed b hab, ih hchain hlast⟩

/-- No path is longer than the graph has nodes. -/
theorem Trail.length_le (hclosed : ∀ id, g.successors id ⊆ g.ids) (hstarts : starts ⊆ g.ids)
    (h : Trail g starts before path) : path.length ≤ g.vertices.length := by
  have hsub : path.Subperm g.ids := List.subperm_of_subset h.nodup (h.subset_ids hclosed hstarts)
  have hlength := hsub.length_le
  rwa [Multigraph.ids, List.length_map] at hlength

/-- The search comes to `u` by a path that `v` lies on. -/
def ComesFrom (g : Multigraph) (starts : List String) (u v : String) : Prop :=
  ∃ before path, Trail g starts before (u :: path) ∧ v ∈ u :: path

/-! ## §2 The invariant -/

/-- Each finished node leads to nodes finished before it, or back along the path to a head
    of a loop. -/
def Settled (g : Multigraph) (starts heads finished : List String) : Prop :=
  ∀ x ∈ finished, ∀ y ∈ g.successors x,
    (y ∈ finished ∧ finished.idxOf x < finished.idxOf y) ∨ (y ∈ heads ∧ ComesFrom g starts x y)

theorem Settled.mono {heads heads' : List String} (h : Settled g starts heads finished)
    (hheads : heads ⊆ heads') : Settled g starts heads' finished := by
  intro x hx y hy
  rcases h x hx y hy with hbefore | ⟨hhead, hfrom⟩
  · exact .inl hbefore
  · exact .inr ⟨hheads hhead, hfrom⟩

theorem Settled.cons {heads : List String} {c : String} (h : Settled g starts heads finished)
    (hnew : c ∉ finished)
    (hc : ∀ y ∈ g.successors c, y ∈ finished ∨ (y ∈ heads ∧ ComesFrom g starts c y)) :
    Settled g starts heads (c :: finished) := by
  have hlater : ∀ y ∈ finished, (c :: finished).idxOf y = finished.idxOf y + 1 := by
    intro y hy
    have hne : c ≠ y := fun heq => hnew (heq ▸ hy)
    exact List.idxOf_cons_ne finished hne
  intro x hx y hy
  rcases List.mem_cons.1 hx with rfl | hx
  · -- the node that is finished last stands in front of all others
    rcases hc y hy with hbefore | hback
    · refine .inl ⟨List.mem_cons_of_mem _ hbefore, ?_⟩
      rw [List.idxOf_cons_self, hlater y hbefore]
      exact Nat.succ_pos _
    · exact .inr hback
  · rcases h x hx y hy with ⟨hbefore, hlt⟩ | hback
    · refine .inl ⟨List.mem_cons_of_mem _ hbefore, ?_⟩
      rw [hlater x hx, hlater y hbefore]
      exact Nat.succ_lt_succ hlt
    · exact .inr hback

/-- What is known while a search is at the end of a path. -/
structure Sound (g : Multigraph) (starts before : List String) (s : Search)
    (path finished : List String) : Prop where
  visited_iff : ∀ id, id ∈ s.visited ↔ id ∈ path ∨ id ∈ finished
  nodup : finished.Nodup
  apart : ∀ id ∈ path, id ∉ finished
  searched : before ⊆ finished
  heads_nodup : s.loopHeads.Nodup
  heads : ∀ v ∈ s.loopHeads, ∃ u, v ∈ g.successors u ∧ ComesFrom g starts u v
  settled : Settled g starts s.loopHeads finished

/-- What it means to have looked at some children of the end of a path: the search knows
    more, and each child is finished or heads a loop around the path. -/
structure Explored (g : Multigraph) (starts before path children : List String) (s : Search)
    (finished : List String) (s' : Search) (finished' : List String) : Prop where
  sound : Sound g starts before s' path finished'
  finished_subset : finished ⊆ finished'
  heads_subset : s.loopHeads ⊆ s'.loopHeads
  children_done : ∀ c ∈ children, c ∈ finished' ∨ (c ∈ path ∧ c ∈ s'.loopHeads)

theorem Sound.explored_nil (h : Sound g starts before s path finished) :
    Explored g starts before path [] s finished s finished :=
  ⟨h, List.Subset.refl _, List.Subset.refl _, by simp⟩

theorem Explored.cons {s'' : Search} {finished'' : List String} {c : String}
    (h : Explored g starts before path [c] s finished s' finished')
    (hrest : Explored g starts before path children s' finished' s'' finished'') :
    Explored g starts before path (c :: children) s finished s'' finished'' where
  sound := hrest.sound
  finished_subset := List.Subset.trans h.finished_subset hrest.finished_subset
  heads_subset := List.Subset.trans h.heads_subset hrest.heads_subset
  children_done := by
    intro d hd
    rcases List.mem_cons.1 hd with rfl | hd
    · rcases h.children_done d List.mem_cons_self with hdone | ⟨hpath, hhead⟩
      · exact .inl (hrest.finished_subset hdone)
      · exact .inr ⟨hpath, hrest.heads_subset hhead⟩
    · exact hrest.children_done d hd

/-! ## §3 One child -/

/-- Go on with one child: it is met again, or walked on to. -/
def takeChild (g : Multigraph) (depth : Nat) (path : List String) (s : Search)
    (child : String) : Search :=
  if s.visited.contains child then s.meetAgain path child
  else walk g depth (child :: path) (g.successors child) (s.visit child)

theorem walk_succ (depth : Nat) :
    walk g (depth + 1) path children s = children.foldl (takeChild g depth path) s := rfl

/-- A child that was taken before. -/
theorem Sound.meetAgain {child : String} (h : Sound g starts before s path finished)
    (hvisited : child ∈ s.visited)
    (hback : child ∈ path → ∃ u, child ∈ g.successors u ∧ ComesFrom g starts u child) :
    Explored g starts before path [child] s finished (s.meetAgain path child) finished := by
  unfold Search.meetAgain
  split
  · next hfound =>
    -- a head of a loop is found
    simp only [Bool.and_eq_true, List.contains_iff_mem, Bool.not_eq_true', ← Bool.not_eq_true]
      at hfound
    obtain ⟨hpath, hnew⟩ := hfound
    have hheads : s.loopHeads ⊆ child :: s.loopHeads := List.subset_cons_self child _
    refine ⟨⟨h.visited_iff, h.nodup, h.apart, h.searched, List.nodup_cons.2 ⟨hnew, h.heads_nodup⟩,
      ?_, h.settled.mono hheads⟩, List.Subset.refl _, hheads, ?_⟩
    · intro v hv
      rcases List.mem_cons.1 hv with rfl | hv
      · exact hback hpath
      · exact h.heads v hv
    · intro c hc
      obtain rfl := List.mem_singleton.1 hc
      exact .inr ⟨hpath, List.mem_cons_self⟩
  · next hnone =>
    refine ⟨h, List.Subset.refl _, List.Subset.refl _, ?_⟩
    intro c hc
    obtain rfl := List.mem_singleton.1 hc
    rcases (h.visited_iff c).1 hvisited with hpath | hdone
    · -- it is on the path, so it must have been found before
      by_cases hhead : c ∈ s.loopHeads
      · exact .inr ⟨hpath, hhead⟩
      · simp [hpath, hhead] at hnone
    · exact .inl hdone

/-- A child that is put on the path. -/
theorem Sound.visit {child : String} (h : Sound g starts before s path finished)
    (hnew : child ∉ s.visited) :
    Sound g starts before (s.visit child) (child :: path) finished where
  visited_iff := by
    intro id
    change id ∈ child :: s.visited ↔ _
    rw [List.mem_cons, List.mem_cons, h.visited_iff, or_assoc]
  nodup := h.nodup
  apart := by
    intro id hid hdone
    rcases List.mem_cons.1 hid with rfl | hid
    · exact hnew ((h.visited_iff id).2 (.inr hdone))
    · exact h.apart id hid hdone
  searched := h.searched
  heads_nodup := h.heads_nodup
  heads := h.heads
  settled := h.settled

/-- A child that all has been looked at behind: it is taken off the path and finished. -/
theorem Explored.finish {child : String}
    (h : Explored g starts before (child :: path) (g.successors child) (s.visit child) finished s'
      finished')
    (htrail : Trail g starts before (child :: path)) :
    Explored g starts before path [child] s finished s' (child :: finished') := by
  have hsound := h.sound
  have hnew : child ∉ finished' := hsound.apart child List.mem_cons_self
  refine ⟨⟨?_, List.nodup_cons.2 ⟨hnew, hsound.nodup⟩, ?_, ?_, hsound.heads_nodup, hsound.heads,
    ?_⟩, ?_, h.heads_subset, ?_⟩
  · intro id
    show id ∈ s'.visited ↔ id ∈ path ∨ id ∈ child :: finished'
    rw [hsound.visited_iff, List.mem_cons, List.mem_cons]
    exact or_right_comm.trans or_comm.symm
  · intro id hid hdone
    rcases List.mem_cons.1 hdone with rfl | hdone
    · exact (List.nodup_cons.1 htrail.nodup).1 hid
    · exact hsound.apart id (List.mem_cons_of_mem child hid) hdone
  · exact List.subset_cons_of_subset child hsound.searched
  · -- whatever the child leads to was either finished or met on the path
    apply hsound.settled.cons hnew
    intro y hy
    rcases h.children_done y hy with hdone | ⟨hpath, hhead⟩
    · exact .inl hdone
    · exact .inr ⟨hhead, before, path, htrail, hpath⟩
  · exact List.subset_cons_of_subset child h.finished_subset
  · intro c hc
    obtain rfl := List.mem_singleton.1 hc
    exact .inl List.mem_cons_self

/-- What one child comes to, if it is known what walking on from it comes to. -/
theorem Sound.takeChild {child : String} {depth : Nat}
    (h : Sound g starts before s path finished)
    (hnew : child ∉ s.visited → Trail g starts before (child :: path))
    (hback : child ∈ path → ∃ u, child ∈ g.successors u ∧ ComesFrom g starts u child)
    (hdeeper : ∀ t, Trail g starts before (child :: path) →
      Sound g starts before t (child :: path) finished →
      ∃ finished', Explored g starts before (child :: path) (g.successors child) t finished
        (walk g depth (child :: path) (g.successors child) t) finished') :
    ∃ finished', Explored g starts before path [child] s finished
      (Search.takeChild g depth path s child) finished' := by
  unfold Search.takeChild
  by_cases hvisited : child ∈ s.visited
  · rw [if_pos (List.contains_iff_mem.2 hvisited)]
    exact ⟨finished, h.meetAgain hvisited hback⟩
  · rw [if_neg fun hcontains => hvisited (List.contains_iff_mem.1 hcontains)]
    have htrail := hnew hvisited
    obtain ⟨finished', hexplored⟩ := hdeeper _ htrail (h.visit hvisited)
    exact ⟨_, hexplored.finish htrail⟩

/-! ## §4 The whole search -/

/-- **A walk explores the children of the end of its path.**  The depth is enough, since no
    path is longer than the graph has nodes. -/
theorem Sound.walk (hclosed : ∀ id, g.successors id ⊆ g.ids) (hstarts : starts ⊆ g.ids)
    {depth : Nat} {u : String} (hdepth : depth + (u :: path).length = g.vertices.length + 1)
    (htrail : Trail g starts before (u :: path))
    (h : Sound g starts before s (u :: path) finished) (hchildren : children ⊆ g.successors u) :
    ∃ finished', Explored g starts before (u :: path) children s finished
      (Search.walk g depth (u :: path) children s) finished' := by
  induction depth generalizing u path children s finished with
  | zero =>
    -- the path would be longer than the graph has nodes
    have hlength := htrail.length_le hclosed hstarts
    omega
  | succ depth ih =>
    rw [walk_succ]
    -- the outer induction is for walking deeper, this one for going on to the next child
    induction children generalizing s finished with
    | nil => exact ⟨finished, h.explored_nil⟩
    | cons child children ihChildren =>
      obtain ⟨hchild, hchildren⟩ := List.cons_subset.1 hchildren
      have hone : ∃ finished', Explored g starts before (u :: path) [child] s finished
          (Search.takeChild g depth (u :: path) s child) finished' := by
        apply h.takeChild
        · intro hnew
          rw [h.visited_iff, not_or] at hnew
          exact htrail.cons hchild hnew.1 fun hbefore => hnew.2 (h.searched hbefore)
        · intro hpath
          exact ⟨u, hchild, before, path, htrail, hpath⟩
        · intro t htrail' ht
          refine ih ?_ htrail' ht (List.Subset.refl _)
          rw [List.length_cons]
          omega
      obtain ⟨finished', hexplored⟩ := hone
      obtain ⟨finished'', hrest⟩ := ihChildren hexplored.sound hchildren
      exact ⟨finished'', hexplored.cons hrest⟩

/-- The starts that are searched next come to the starts that were searched. -/
theorem Sound.walk_starts (hclosed : ∀ id, g.successors id ⊆ g.ids) (hstarts : starts ⊆ g.ids)
    (h : Sound g starts before s [] finished) (heq : starts = before ++ children) :
    ∃ finished', Sound g starts starts
      (Search.walk g (g.vertices.length + 1) [] children s) [] finished' := by
  rw [walk_succ]
  -- each start that is done joins those that no later path can meet
  induction children generalizing before s finished with
  | nil =>
    rw [List.append_nil] at heq
    exact ⟨finished, heq ▸ h⟩
  | cons child children ih =>
    have hone : ∃ finished', Explored g starts before [] [child] s finished
        (Search.takeChild g g.vertices.length [] s child) finished' := by
      apply h.takeChild
      · intro hnew
        apply trail_singleton heq
        intro hbefore
        exact hnew ((h.visited_iff child).2 (.inr (h.searched hbefore)))
      · intro hpath
        cases hpath
      · intro t htrail ht
        exact ht.walk hclosed hstarts rfl htrail (List.Subset.refl _)
    obtain ⟨finished', hexplored⟩ := hone
    have hdone : child ∈ finished' := by
      rcases hexplored.children_done child List.mem_cons_self with hdone | ⟨hpath, -⟩
      · exact hdone
      · cases hpath
    have hsound := hexplored.sound
    have hnext : Sound g starts (before ++ [child]) _ [] finished' :=
      { hsound with
        searched := List.append_subset.2
          ⟨hsound.searched, List.cons_subset.2 ⟨hdone, List.nil_subset _⟩⟩ }
    apply ih hnext
    rw [heq, List.append_assoc]
    rfl

theorem sound_initial : Sound g starts [] {} [] [] where
  visited_iff := by simp
  nodup := List.nodup_nil
  apart := by simp
  searched := List.nil_subset _
  heads_nodup := List.nodup_nil
  heads := by simp
  settled := by simp [Settled]

/-- **The whole search keeps the invariant**: all starts are finished in the end. -/
theorem sound_run (hclosed : ∀ id, g.successors id ⊆ g.ids) (hstarts : starts ⊆ g.ids) :
    ∃ finished, Sound g starts starts (run g starts) [] finished :=
  sound_initial.walk_starts hclosed hstarts rfl

end Search

end Flowchart
