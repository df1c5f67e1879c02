import Mathlib.Logic.Relation
import Flowchart.Proofs.DepthFirst
import Flowchart.Proofs.Exported
import Flowchart.Proofs.Regions

/-!
# What a Search Reaches

A search takes exactly the nodes that its starts lead to, by any number of steps
(`Search.mem_visited_run_iff`).

That it takes no others holds at every moment (`Search.Confined`): a node that is taken is a
start or a successor of one that was taken before.  That it leaves none out needs the whole
search: then every node taken is finished, and a finished node leads to nodes that were
finished before it, or to heads of loops, which were taken as well.
-/

namespace Flowchart

namespace Search

variable {g : Multigraph} {inside : String → Prop} {path children starts : List String}
  {s : Search} {child : String}

/-! ## §1 No others -/

/-- While a search is at the end of a path, it has taken the path and the heads of loops, and
    nothing that is not inside. -/
structure Confined (inside : String → Prop) (path : List String) (s : Search) : Prop where
  visited : ∀ id ∈ s.visited, inside id
  path_subset : path ⊆ s.visited
  heads_subset : s.loopHeads ⊆ s.visited

theorem confined_initial : Confined inside [] {} where
  visited := by simp
  path_subset := List.nil_subset _
  heads_subset := List.nil_subset _

theorem Confined.meetAgain (h : Confined inside path s) (child : String) :
    Confined inside path (s.meetAgain path child) := by
  unfold Search.meetAgain
  split
  · next hfound =>
    -- the new head lies on the path
    rw [Bool.and_eq_true, List.contains_iff_mem] at hfound
    exact ⟨h.visited, h.path_subset, List.cons_subset.2 ⟨h.path_subset hfound.1, h.heads_subset⟩⟩
  · exact h

theorem Confined.visit (h : Confined inside path s) (hchild : inside child) :
    Confined inside (child :: path) (s.visit child) where
  visited := List.forall_mem_cons.2 ⟨hchild, h.visited⟩
  path_subset := List.cons_subset_cons child h.path_subset
  heads_subset := List.subset_cons_of_subset child h.heads_subset

theorem Confined.leave (h : Confined inside (child :: path) s) : Confined inside path s :=
  ⟨h.visited, (List.cons_subset.1 h.path_subset).2, h.heads_subset⟩

/-- **A walk stays inside** whatever holds its children and is not left by any node. -/
theorem Confined.walk (hclosed : ∀ id, inside id → ∀ c ∈ g.successors id, inside c)
    {depth : Nat} (h : Confined inside path s) (hchildren : ∀ c ∈ children, inside c) :
    Confined inside path (Search.walk g depth path children s) := by
  -- one induction is for going deeper, and one for the next child
  induction depth generalizing path children s with
  | zero => exact h
  | succ depth ih =>
    rw [walk_succ]
    induction children generalizing s with
    | nil => exact h
    | cons child children ihChildren =>
      obtain ⟨hchild, hchildren⟩ := List.forall_mem_cons.1 hchildren
      rw [List.foldl_cons]
      apply ihChildren _ hchildren
      unfold takeChild
      split
      · -- a child that was taken is not taken again
        exact h.meetAgain child
      · exact (ih (h.visit hchild) (hclosed child hchild)).leave

/-! ## §2 All of them -/

/-- One node is a successor of another. -/
def Precedes (g : Multigraph) (a b : String) : Prop := b ∈ g.successors a

/-- **A search takes what its starts lead to**, and nothing else. -/
theorem mem_visited_run_iff (hclosed : ∀ id, g.successors id ⊆ g.ids) (hstarts : starts ⊆ g.ids)
    {id : String} :
    id ∈ (run g starts).visited ↔
      ∃ start ∈ starts, Relation.ReflTransGen (Precedes g) start id := by
  have hconfined : Confined (fun id => ∃ start ∈ starts,
      Relation.ReflTransGen (Precedes g) start id) [] (run g starts) := by
    -- whatever is taken is led to: that is kept by going on to a successor
    apply confined_initial.walk
    · rintro a ⟨start, hstart, hchain⟩ b hb
      exact ⟨start, hstart, hchain.tail hb⟩
    · intro start hstart
      exact ⟨start, hstart, .refl⟩
  obtain ⟨finished, hsound⟩ := sound_run hclosed hstarts
  have hfinished : ∀ id, id ∈ (run g starts).visited ↔ id ∈ finished := by
    intro id
    rw [hsound.visited_iff]
    exact or_iff_right List.not_mem_nil
  constructor
  · exact hconfined.visited id
  · rintro ⟨start, hstart, hchain⟩
    -- along the chain each node is finished, and with it the next one is taken
    induction hchain with
    | refl => exact (hfinished start).2 (hsound.searched hstart)
    | tail _ hstep ih =>
      rcases hsound.settled _ ((hfinished _).1 ih) _ hstep with ⟨hdone, -⟩ | ⟨hhead, -⟩
      · exact (hfinished _).2 hdone
      · exact hconfined.heads_subset hhead

end Search

/-! ## §3 Connections -/

/-- A connection leads from one node to another. -/
def Graph.Connects (g : Graph) (a b : String) : Prop :=
  ∃ c ∈ g.connections, c.source = a ∧ c.target = b

theorem Graph.precedes_eq_connects {g : Graph} :
    Search.Precedes g.toMultigraph = g.Connects := by
  funext a b
  exact propext mem_successors_toMultigraph

variable {settings : Settings} {statements : List Statement}

/-- The nodes of a program are connected just if a way leads from one number to the other. -/
theorem connects_drawProgram (hfree : (Statement.block statements).holeFree = true)
    {a b : String} :
    (drawProgram settings (.block statements)).graph.Connects a b ↔
      ∃ i j, a = numberedId "n" i ∧ b = numberedId "n" j ∧
        LeadsTo ((Statement.block statements).ways settings 0 none) i j := by
  rw [← Graph.precedes_eq_connects]
  refine (mem_successors_drawProgram hfree).trans ?_
  constructor
  · rintro ⟨w, hw, rfl, t, htarget, rfl⟩
    exact ⟨w.source, t, rfl, rfl, w, hw, rfl, htarget⟩
  · rintro ⟨_, t, rfl, rfl, w, hw, rfl, htarget⟩
    exact ⟨w, hw, rfl, t, htarget, rfl⟩

/-- The chart of a program connects nodes as the ways of the program connect numbers. -/
theorem connected_drawProgram_iff (hfree : (Statement.block statements).holeFree = true)
    {i j : Nat} :
    Relation.ReflTransGen (drawProgram settings (.block statements)).graph.Connects
        (numberedId "n" i) (numberedId "n" j) ↔
      Relation.ReflTransGen (LeadsTo ((Statement.block statements).ways settings 0 none)) i j := by
  constructor
  · intro h
    -- the chain visits named nodes only, so the numbers are read off it
    generalize hgoal : numberedId "n" j = goal at h
    induction h generalizing j with
    | refl => exact numberedId_inj.1 hgoal ▸ .refl
    | tail _ hstep ih =>
      obtain ⟨k, l, rfl, rfl, hleads⟩ := (connects_drawProgram hfree).1 hstep
      obtain rfl := numberedId_inj.1 hgoal
      exact (ih rfl).tail hleads
  · intro h
    exact h.lift (numberedId "n") fun k l hleads =>
      (connects_drawProgram hfree).2 ⟨k, l, rfl, rfl, hleads⟩

end Flowchart
