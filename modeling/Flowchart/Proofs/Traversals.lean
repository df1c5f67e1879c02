import Mathlib.Data.List.Nodup
import Mathlib.Data.List.Perm.Subperm
import Flowchart.Chart.Traversal
import Flowchart.Proofs.DepthFirst

/-!
# The Steps of a Traversal Tell a Search

A reader of the steps of a traversal keeps a set of nodes: a node is put in when the
traversal goes forward to it, and taken out when the traversal comes back.  At every moment
this set is the path of a search in depth (`Traversal.Tells`), and so the reader finds the
heads of loops that the search finds, in the same order.

The stack of the traversal is never cut off.  Its frames are distinct nodes of the graph, so
as long as a node is new there is room for one more.

Main statement: `Traversal.reading_of_finished`.
-/

namespace Flowchart

namespace Traversal

variable {g : Multigraph} {s : Search} {t t' : Traversal} {frames : List Frame}
  {starts children : List String} {parent child root : String}

/-! ## §1 Runs -/

/-- Some steps of the traversal lead from one state to another. -/
def Leads (g : Multigraph) (t t' : Traversal) : Prop :=
  ∃ count, (next g)^[count] t = t'

theorem Leads.refl (t : Traversal) : Leads g t t :=
  ⟨0, rfl⟩

theorem Leads.step (h : Leads g (next g t) t') : Leads g t t' := by
  obtain ⟨count, rfl⟩ := h
  exact ⟨count + 1, rfl⟩

theorem Leads.trans {t'' : Traversal} (h : Leads g t t') (h' : Leads g t' t'') :
    Leads g t t'' := by
  obtain ⟨count, rfl⟩ := h
  obtain ⟨count', rfl⟩ := h'
  exact ⟨count' + count, Function.iterate_add_apply _ count' count t⟩

theorem next_of_finished (h : t.finished = true) : next g t = t := by
  obtain ⟨starts, frames, visited, steps⟩ := t
  simp only [finished, Bool.and_eq_true, List.isEmpty_iff] at h
  obtain ⟨rfl, rfl⟩ := h
  rfl

/-- A traversal that is finished stays as it is. -/
theorem eq_of_finished {count count' : Nat} (h : ((next g)^[count] t).finished = true)
    (h' : ((next g)^[count'] t).finished = true) :
    (next g)^[count] t = (next g)^[count'] t := by
  -- the later of the two goes on from a state that is finished
  wlog hle : count ≤ count' generalizing count count'
  · exact (this h' h (Nat.le_of_not_le hle)).symm
  obtain ⟨more, rfl⟩ := Nat.exists_eq_add_of_le' hle
  rw [Function.iterate_add_apply, Function.iterate_fixed (next_of_finished h)]

/-! ## §2 What a reader knows -/

theorem reading_note (t : Traversal) (source target : String) (move : Move) :
    (t.note source target move).reading = t.reading.read ⟨source, target, move⟩ := by
  rw [reading, note, List.foldl_append]
  rfl

/-- The path to where a traversal is, the latest node first. -/
def pathOf (frames : List Frame) : List String :=
  frames.map Frame.node

/-- A traversal tells a search: it has visited the same nodes, it is inside of the nodes on
    the path of the search, and whoever reads its steps knows this path and the heads of
    loops.  The path has been visited, and holds no node twice. -/
structure Tells (g : Multigraph) (t : Traversal) (starts : List String) (frames : List Frame)
    (s : Search) : Prop where
  starts_eq : t.starts = starts
  frames_eq : t.frames = frames
  visited_eq : t.visited = s.visited
  heads_eq : t.reading.heads = s.loopHeads.reverse
  mem_inside : ∀ id, id ∈ t.reading.inside ↔ id ∈ pathOf frames
  path_visited : pathOf frames ⊆ s.visited
  path_ids : pathOf frames ⊆ g.ids
  nodup : (pathOf frames).Nodup

theorem tells_initial (g : Multigraph) (starts : List String) :
    Tells g { starts := starts } starts [] {} :=
  ⟨rfl, rfl, rfl, rfl, fun _ => Iff.rfl, List.nil_subset _, List.nil_subset _, List.nodup_nil⟩

/-- There are no more frames than nodes. -/
theorem Tells.length_le (h : Tells g t starts frames s) : frames.length ≤ g.vertices.length := by
  -- the frames are distinct nodes of the graph
  have hlength := (List.subperm_of_subset h.nodup h.path_ids).length_le
  rwa [pathOf, Multigraph.ids, List.length_map, List.length_map] at hlength

/-- A new node fits on the path. -/
theorem Tells.length_lt (h : Tells g t starts frames s) (hchild : child ∈ g.ids)
    (hnew : child ∉ s.visited) : frames.length < g.vertices.length := by
  have hnodup : (child :: pathOf frames).Nodup :=
    List.nodup_cons.2 ⟨fun hpath => hnew (h.path_visited hpath), h.nodup⟩
  have hlength :=
    (List.subperm_of_subset hnodup (List.cons_subset.2 ⟨hchild, h.path_ids⟩)).length_le
  rwa [List.length_cons, pathOf, Multigraph.ids, List.length_map, List.length_map] at hlength

/-! ## §3 One step -/

/-- A visited node is met. -/
theorem Tells.meet (h : Tells g t starts (⟨parent, child :: children⟩ :: frames) s)
    (hvisited : child ∈ s.visited) :
    Tells g (next g t) starts (⟨parent, children⟩ :: frames)
      (s.meetAgain (parent :: pathOf frames) child) := by
  have hnext : next g t =
      (t.note parent child .meet).withFrames (⟨parent, children⟩ :: frames) := by
    rw [← h.visited_eq, ← List.contains_iff_mem] at hvisited
    simp only [next, h.frames_eq, hvisited, if_true]
  -- who reads the steps asks whether the node is on the path, as the search does
  have hinside : t.reading.inside.contains child = (parent :: pathOf frames).contains child := by
    rw [Bool.eq_iff_iff, List.contains_iff_mem, List.contains_iff_mem, h.mem_inside]
    rfl
  have hheads : t.reading.heads.contains child = s.loopHeads.contains child := by
    rw [h.heads_eq, List.contains_reverse]
  have hreading : (next g t).reading =
      if (parent :: pathOf frames).contains child && !s.loopHeads.contains child then
        { t.reading with heads := t.reading.heads ++ [child] }
      else t.reading := by
    have hnote : (next g t).reading = t.reading.read ⟨parent, child, .meet⟩ := by
      rw [hnext]
      exact reading_note t parent child .meet
    rw [hnote, StepReading.read, hinside, hheads]
  unfold Search.meetAgain
  refine ⟨?_, ?_, ?_, ?_, ?_, ?_, h.path_ids, h.nodup⟩
  · rw [hnext]
    exact h.starts_eq
  · rw [hnext]
    rfl
  · rw [hnext]
    split <;> exact h.visited_eq
  · rw [hreading]
    split
    · rw [List.reverse_cons, ← h.heads_eq]
    · exact h.heads_eq
  · rw [hreading]
    split <;> exact h.mem_inside
  · split <;> exact h.path_visited

/-- What is known when a new node has been entered. -/
theorem Tells.enter (h : Tells g t starts frames s) (parent : String) (hchild : child ∈ g.ids)
    (hnew : child ∉ s.visited) :
    Tells g ((t.enter parent child).withFrames (⟨child, children⟩ :: frames)) starts
      (⟨child, children⟩ :: frames) (s.visit child) := by
  have hreading : ((t.enter parent child).withFrames (⟨child, children⟩ :: frames)).reading =
      t.reading.read ⟨parent, child, .forward⟩ :=
    reading_note { t with visited := child :: t.visited } parent child .forward
  refine ⟨h.starts_eq, rfl, congrArg _ h.visited_eq, ?_, ?_,
    List.cons_subset_cons child h.path_visited, List.cons_subset.2 ⟨hchild, h.path_ids⟩,
    List.nodup_cons.2 ⟨fun hpath => hnew (h.path_visited hpath), h.nodup⟩⟩
  · rw [hreading]
    exact h.heads_eq
  · intro id
    rw [hreading]
    show id ∈ child :: t.reading.inside ↔ id ∈ child :: pathOf frames
    rw [List.mem_cons, List.mem_cons, h.mem_inside]

/-- A new node is put on the path. -/
theorem Tells.forward (h : Tells g t starts (⟨parent, child :: children⟩ :: frames) s)
    (hchild : child ∈ g.ids) (hnew : child ∉ s.visited) :
    Tells g (next g t) starts
      (⟨child, g.successors child⟩ :: ⟨parent, children⟩ :: frames) (s.visit child) := by
  have hroom : frames.length + 1 < g.vertices.length := h.length_lt hchild hnew
  have hnext : next g t = (t.enter parent child).withFrames
      (⟨child, g.successors child⟩ :: ⟨parent, children⟩ :: frames) := by
    have hvisited : ¬t.visited.contains child = true := by
      rwa [List.contains_iff_mem, h.visited_eq]
    simp only [next, h.frames_eq, hvisited, List.length_cons, hroom, if_true, if_false,
      Bool.false_eq_true]
  -- the frame that the node is entered from has looked at one connection more
  have hlooked : Tells g (t.withFrames (⟨parent, children⟩ :: frames)) starts
      (⟨parent, children⟩ :: frames) s :=
    { h with frames_eq := rfl }
  rw [hnext]
  exact hlooked.enter parent hchild hnew

/-- A start is put on the path. -/
theorem Tells.begin (h : Tells g t (root :: starts) [] s) (hroot : root ∈ g.ids)
    (hnew : root ∉ s.visited) :
    Tells g (next g t) starts [⟨root, g.successors root⟩] (s.visit root) := by
  have hnext : next g t =
      (({ t with starts := starts }).enter root root).withFrames [⟨root, g.successors root⟩] := by
    have hvisited : ¬t.visited.contains root = true := by
      rwa [List.contains_iff_mem, h.visited_eq]
    simp only [next, h.frames_eq, h.starts_eq, hvisited, if_false, Bool.false_eq_true]
  have htaken : Tells g { t with starts := starts } starts [] s :=
    { h with starts_eq := rfl }
  rw [hnext]
  exact htaken.enter root hroot hnew

/-- A start that was visited is passed over. -/
theorem Tells.skip (h : Tells g t (root :: starts) [] s) (hvisited : root ∈ s.visited) :
    Tells g (next g t) starts [] s := by
  have hnext : next g t = { t with starts := starts } := by
    rw [← h.visited_eq, ← List.contains_iff_mem] at hvisited
    simp only [next, h.frames_eq, h.starts_eq, hvisited, if_true]
  rw [hnext]
  exact { h with starts_eq := rfl }

/-- A node is taken off the path again. -/
theorem Tells.back (h : Tells g t starts (⟨child, []⟩ :: frames) s) :
    Tells g (next g t) starts frames s := by
  have hnext : next g t =
      (t.note ((frames.head?.map Frame.node).getD child) child .back).withFrames frames := by
    simp only [next, h.frames_eq]
  have hreading : (next g t).reading =
      t.reading.read ⟨(frames.head?.map Frame.node).getD child, child, .back⟩ := by
    rw [hnext]
    exact reading_note t _ child .back
  obtain ⟨hoff, hnodup⟩ := List.nodup_cons.1 h.nodup
  refine ⟨?_, ?_, ?_, ?_, ?_, (List.cons_subset.1 h.path_visited).2,
    (List.cons_subset.1 h.path_ids).2, hnodup⟩
  · rw [hnext]
    exact h.starts_eq
  · rw [hnext]
    rfl
  · rw [hnext]
    exact h.visited_eq
  · rw [hreading]
    exact h.heads_eq
  · intro id
    rw [hreading]
    -- the node is on the path once, so it is off the path when it is taken away
    show id ∈ t.reading.inside.filter _ ↔ _
    rw [List.mem_filter, h.mem_inside, decide_eq_true_eq]
    constructor
    · rintro ⟨hid, hne⟩
      exact (List.mem_cons.1 hid).resolve_left hne
    · intro hid
      refine ⟨List.mem_cons_of_mem child hid, ?_⟩
      rintro rfl
      exact hoff hid

/-! ## §4 The whole traversal -/

/-- **The traversal tells the walk** that looks at the children of the end of its path. -/
theorem Tells.walk (hclosed : ∀ id, g.successors id ⊆ g.ids) {depth : Nat}
    (hdepth : depth + (frames.length + 1) = g.vertices.length + 1)
    (h : Tells g t starts (⟨parent, children⟩ :: frames) s) (hchildren : children ⊆ g.ids) :
    ∃ t', Leads g t t' ∧ Tells g t' starts (⟨parent, []⟩ :: frames)
      (Search.walk g depth (parent :: pathOf frames) children s) := by
  induction depth generalizing parent frames children s t with
  | zero =>
    have hlength := h.length_le
    rw [List.length_cons] at hlength
    omega
  | succ depth ih =>
    rw [Search.walk_succ]
    -- the outer induction is for going deeper, this one for the next child
    induction children generalizing s t with
    | nil => exact ⟨t, Leads.refl t, h⟩
    | cons child children ihChildren =>
      obtain ⟨hchild, hchildren⟩ := List.cons_subset.1 hchildren
      have hone : ∃ t', Leads g t t' ∧ Tells g t' starts (⟨parent, children⟩ :: frames)
          (Search.takeChild g depth (parent :: pathOf frames) s child) := by
        unfold Search.takeChild
        split
        · next hvisited =>
          exact ⟨_, (Leads.refl _).step, h.meet (List.contains_iff_mem.1 hvisited)⟩
        · next hnew =>
          rw [List.contains_iff_mem] at hnew
          -- forward to the child, through all behind it, and back
          have hforward := h.forward hchild hnew
          have hdeeper : depth + ((⟨parent, children⟩ :: frames : List Frame).length + 1) =
              g.vertices.length + 1 := by
            rw [List.length_cons]
            omega
          obtain ⟨t', hleads, htold⟩ := ih hdeeper hforward (hclosed child)
          exact ⟨_, hleads.step.trans (Leads.refl _).step, htold.back⟩
      obtain ⟨t', hleads, htold⟩ := hone
      obtain ⟨t'', hleads', htold'⟩ := ihChildren htold hchildren
      exact ⟨t'', hleads.trans hleads', htold'⟩

/-- The traversal tells the search from one start after the other. -/
theorem Tells.run (hclosed : ∀ id, g.successors id ⊆ g.ids) (h : Tells g t starts [] s)
    (hstarts : starts ⊆ g.ids) :
    ∃ t', Leads g t t' ∧ Tells g t' [] []
      (Search.walk g (g.vertices.length + 1) [] starts s) := by
  rw [Search.walk_succ]
  induction starts generalizing s t with
  | nil => exact ⟨t, Leads.refl t, h⟩
  | cons root starts ih =>
    obtain ⟨hroot, hstarts⟩ := List.cons_subset.1 hstarts
    have hone : ∃ t', Leads g t t' ∧ Tells g t' starts []
        (Search.takeChild g g.vertices.length [] s root) := by
      unfold Search.takeChild
      split
      · next hvisited =>
        -- off the path nothing heads a loop
        exact ⟨_, (Leads.refl _).step, h.skip (List.contains_iff_mem.1 hvisited)⟩
      · next hnew =>
        rw [List.contains_iff_mem] at hnew
        obtain ⟨t', hleads, htold⟩ := (h.begin hroot hnew).walk hclosed rfl (hclosed root)
        exact ⟨_, hleads.step.trans (Leads.refl _).step, htold.back⟩
    obtain ⟨t', hleads, htold⟩ := hone
    obtain ⟨t'', hleads', htold'⟩ := ih htold hstarts
    exact ⟨t'', hleads.trans hleads', htold'⟩

/-- The traversal of a graph comes to an end, and then its steps tell the whole search. -/
theorem exists_finished (hclosed : ∀ id, g.successors id ⊆ g.ids) :
    ∃ count, (g.traversal count).finished = true ∧
      (g.traversal count).reading.heads = g.loopHeads := by
  obtain ⟨t, ⟨count, rfl⟩, htold⟩ :=
    (tells_initial g g.ids).run hclosed (List.Subset.refl g.ids)
  -- at the end there are no frames and no starts any more
  refine ⟨count, ?_, htold.heads_eq⟩
  rw [Multigraph.traversal, finished, htold.frames_eq, htold.starts_eq]
  rfl

/-- **Whoever reads the steps of a finished traversal finds the heads of loops that the
    search finds.** -/
theorem reading_of_finished (hclosed : ∀ id, g.successors id ⊆ g.ids) {count : Nat}
    (h : (g.traversal count).finished = true) :
    (g.traversal count).reading.heads = g.loopHeads := by
  obtain ⟨count', hfinished, hheads⟩ := exists_finished hclosed
  have heq : g.traversal count = g.traversal count' := eq_of_finished h hfinished
  rw [heq, hheads]

/-- Of two nodes that lead to each other, and to a third one, the first is met again from
    inside; the third one only after the search came back from it. -/
example : ((⟨[⟨"a", .empty, [⟨"b", [none]⟩, ⟨"c", [none]⟩]⟩,
    ⟨"b", .empty, [⟨"c", [none]⟩, ⟨"a", [none]⟩]⟩, ⟨"c", .empty, []⟩]⟩ :
      Multigraph).traversal 10).steps =
    [⟨"a", "a", .forward⟩, ⟨"a", "b", .forward⟩, ⟨"b", "c", .forward⟩, ⟨"b", "c", .back⟩,
      ⟨"b", "a", .meet⟩, ⟨"a", "b", .back⟩, ⟨"a", "c", .meet⟩, ⟨"a", "a", .back⟩] := by
  decide +kernel

end Traversal

end Flowchart
