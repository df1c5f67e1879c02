import Mathlib.Data.List.Nodup
import Flowchart.Chart.Multigraph
import Flowchart.Proofs.DepthFirst
import Flowchart.Proofs.Exported
import Flowchart.Proofs.Traversals

/-!
# Heads of Loops Cut All Cycles

A search in depth calls a node the head of a loop when it meets it again on its own path.  In
every chart, drawn from a program or not, these nodes cut the cycles
(`Multigraph.CutsCycles`):

* each of them lies on a cycle, the one that the search closes when it meets it;
* no cycle avoids them all, for from a node that heads no loop the search only leads to nodes
  that it finished before, or back to a head.

Main statement: `loopHeads_cut_cycles`.
-/

namespace Flowchart

namespace Multigraph

variable {g : Multigraph} {a b c : String}

/-! ## §1 Connections and successors -/

/-- Where two nodes are connected, a connection is there. -/
def Filled (g : Multigraph) : Prop :=
  ∀ v ∈ g.vertices, ∀ bundle ∈ v.bundles, bundle.labels ≠ []

/-- Two nodes are connected just if the first keeps a connection to the second. -/
theorem joins_iff_exists_bundle :
    g.Joins a b ↔ ∃ v ∈ g.vertices, v.id = a ∧
      ∃ bundle ∈ v.bundles, bundle.target = b ∧ bundle.labels ≠ [] := by
  constructor
  · rintro ⟨e, he, rfl, rfl⟩
    obtain ⟨v, hv, he⟩ := List.mem_flatMap.1 he
    obtain ⟨bundle, hbundle, he⟩ := List.mem_flatMap.1 he
    obtain ⟨⟨label, key⟩, hlabel, rfl⟩ := List.mem_map.1 he
    exact ⟨v, hv, rfl, bundle, hbundle, rfl,
      List.ne_nil_of_mem (List.fst_mem_of_mem_zipIdx hlabel)⟩
  · rintro ⟨v, hv, rfl, bundle, hbundle, rfl, hlabels⟩
    obtain ⟨label, labels, hlabels⟩ := List.exists_cons_of_ne_nil hlabels
    refine ⟨⟨v.id, bundle.target, 0, label⟩, ?_, rfl, rfl⟩
    refine List.mem_flatMap.2 ⟨v, hv, List.mem_flatMap.2 ⟨bundle, hbundle, ?_⟩⟩
    rw [hlabels, List.zipIdx_cons, List.map_cons]
    exact List.mem_cons_self

theorem Joins.source_mem_ids (h : g.Joins a b) : a ∈ g.ids := by
  obtain ⟨v, hv, rfl, -⟩ := joins_iff_exists_bundle.1 h
  exact List.mem_map_of_mem hv

theorem joins_iff_mem_successors (hnodup : g.ids.Nodup) (hfilled : g.Filled) :
    g.Joins a b ↔ b ∈ g.successors a := by
  rw [joins_iff_exists_bundle, successors_eq, bundlesAt]
  constructor
  · rintro ⟨v, hv, rfl, bundle, hbundle, rfl, -⟩
    rw [find?_key_of_mem Vertex.id hnodup hv]
    exact List.mem_map_of_mem hbundle
  · intro hb
    -- a successor is read off the only vertex of that name, whose bundles all hold a connection
    cases hfind : g.vertices.find? (·.id == a) with
    | none => simp [hfind] at hb
    | some v =>
      rw [hfind] at hb
      obtain ⟨bundle, hbundle, rfl⟩ := List.mem_map.1 hb
      have hv := List.mem_of_find?_eq_some hfind
      have hid : v.id = a := by simpa using List.find?_some hfind
      exact ⟨v, hv, hid, bundle, hbundle, rfl, hfilled v hv bundle hbundle⟩

end Multigraph

namespace Graph

variable {g : Graph} {a b : String}

/-- A bundle is made for a connection, so none is empty. -/
theorem filled_toMultigraph (g : Graph) : g.toMultigraph.Filled := by
  refine Multigraph.forall_bundles_of_connect
    (P := fun bundles => ∀ bundle ∈ bundles, bundle.labels ≠ []) (by simp) ?_ _ _
  intro c bundles hbundles
  exact forall_mem_upsert hbundles (fun _ _ => List.append_ne_nil_of_right_ne_nil _ (by simp))
    (by simp)

theorem joins_iff_mem_successors :
    g.toMultigraph.Joins a b ↔ b ∈ g.toMultigraph.successors a :=
  Multigraph.joins_iff_mem_successors g.nodup_ids_toMultigraph g.filled_toMultigraph

end Graph

namespace Multigraph

variable {g : Multigraph} {a b c u v : String} {through through' path finished : List String}

/-! ## §2 The cycle that is closed at a head -/

theorem Path.append (h : g.Path a through b) (h' : g.Path b through' c) :
    g.Path a (through ++ through') c := by
  induction h with
  | nil => exact h'
  | cons hjoins _ ih => exact .cons hjoins (ih h')

theorem Path.of_joins (h : g.Joins a b) : g.Path a [b] b :=
  .cons h .nil

/-- Along the path of a search, the latest node first, each node leads to the latest one. -/
theorem exists_path_of_chain (h : (u :: path).IsChain fun x y => g.Joins y x)
    (hv : v ∈ u :: path) :
    ∃ through, g.Path v through u ∧ (v :: through).Sublist (u :: path).reverse := by
  induction path generalizing u with
  | nil =>
    obtain rfl := List.mem_singleton.1 hv
    exact ⟨[], .nil, List.Sublist.refl _⟩
  | cons w path ih =>
    obtain ⟨hjoins, hchain⟩ := List.isChain_cons_cons.1 h
    rcases List.mem_cons.1 hv with rfl | hv
    · refine ⟨[], .nil, ?_⟩
      rw [List.reverse_cons]
      exact List.sublist_append_right _ _
    · -- the node leads to the one before, and that one to the latest
      obtain ⟨through, hpath, hsublist⟩ := ih hchain hv
      refine ⟨through ++ [u], hpath.append (.of_joins hjoins), ?_⟩
      rw [List.reverse_cons, ← List.cons_append]
      exact hsublist.append (List.Sublist.refl [u])

/-- A connection back to a node on a path without repetitions closes a cycle that meets no
    node twice. -/
theorem exists_cycle_of_chain (h : (u :: path).IsChain fun x y => g.Joins y x)
    (hnodup : (u :: path).Nodup) (hv : v ∈ u :: path) (hback : g.Joins u v) :
    ∃ through, g.Cycle v through ∧ through.Nodup := by
  obtain ⟨through, hpath, hsublist⟩ := exists_path_of_chain h hv
  refine ⟨through ++ [v], ⟨by simp, hpath.append (.of_joins hback)⟩, ?_⟩
  -- the cycle meets nodes of the path only, each once
  have hdistinct : (v :: through).Nodup := (List.nodup_reverse.2 hnodup).sublist hsublist
  exact (List.perm_append_singleton v through).nodup_iff.2 hdistinct

/-! ## §3 No cycle without a head -/

/-- On a path that meets no head, each node was finished before the node that it is led to
    from. -/
theorem Path.idxOf_le {starts heads : List String}
    (hsuccessors : ∀ x y, g.Joins x y → y ∈ g.successors x)
    (hsettled : Search.Settled g starts heads finished) (h : g.Path a through b)
    (ha : a ∈ finished) (hheadless : ∀ id ∈ through, id ∉ heads) :
    finished.idxOf a + through.length ≤ finished.idxOf b := by
  induction h with
  | nil => exact Nat.le_refl _
  | cons hjoins _ ih =>
    obtain ⟨hhead, hrest⟩ := List.forall_mem_cons.1 hheadless
    -- a successor was finished before, unless the search met it as a head
    rcases hsettled _ ha _ (hsuccessors _ _ hjoins) with ⟨hdone, hlt⟩ | ⟨hmet, -⟩
    · have hle := ih hdone hrest
      rw [List.length_cons]
      omega
    · exact absurd hmet hhead

/-- Nodes that cut the cycles of a graph: no node is named twice, each lies on a cycle, and
    no cycle avoids them all. -/
structure CutsCycles (g : Multigraph) (heads : List String) : Prop where
  nodup : heads.Nodup
  on_cycle : ∀ id ∈ heads, ∃ through, g.Cycle id through ∧ through.Nodup
  meets : ∀ id through, g.Cycle id through → ∃ head ∈ heads, head ∈ through

/-- Without heads there is no cycle, and the other way round. -/
theorem CutsCycles.eq_nil_iff {heads : List String} (h : g.CutsCycles heads) :
    heads = [] ↔ ∀ id through, ¬g.Cycle id through := by
  constructor
  · rintro rfl id through hcycle
    obtain ⟨head, hhead, -⟩ := h.meets id through hcycle
    cases hhead
  · intro hnone
    apply List.eq_nil_iff_forall_not_mem.2
    intro head hhead
    obtain ⟨through, hcycle, -⟩ := h.on_cycle head hhead
    exact hnone head through hcycle

/-- **The heads of loops cut all cycles**, where successors and connections agree. -/
theorem cutsCycles_loopHeads (hclosed : ∀ id, g.successors id ⊆ g.ids)
    (hjoins : ∀ x y, g.Joins x y ↔ y ∈ g.successors x) : g.CutsCycles g.loopHeads := by
  obtain ⟨finished, hsound⟩ := Search.sound_run hclosed (List.Subset.refl g.ids)
  refine ⟨List.nodup_reverse.2 hsound.heads_nodup, ?_, ?_⟩
  · intro v hv
    obtain ⟨u, hback, before, path, htrail, hmem⟩ := hsound.heads v (List.mem_reverse.1 hv)
    -- the search met the head on its own path, which the connection closes
    exact exists_cycle_of_chain (htrail.chain.imp fun x y hxy => (hjoins y x).2 hxy) htrail.nodup
      hmem ((hjoins u v).2 hback)
  · rintro id through ⟨hne, hpath⟩
    by_contra hheadless
    push Not at hheadless
    -- the node would have been finished before itself
    have hfinished : id ∈ finished := by
      cases hpath with
      | nil => exact absurd rfl hne
      | cons hfirst _ => exact hsound.searched hfirst.source_mem_ids
    have hle := hpath.idxOf_le (fun x y => (hjoins x y).1) hsound.settled hfinished
      (fun x hx hhead => hheadless x (List.mem_reverse.2 hhead) hx)
    have hpos := List.length_pos_of_ne_nil hne
    omega

end Multigraph

/-! ## §4 Every chart -/

/-- **In every chart the heads of loops cut the cycles.**  None is named twice, each lies on a
    cycle that meets no node twice, every cycle meets one of them, and so there is none just
    if there is no cycle.  A traversal of the chart comes to an end, and whoever reads its
    steps finds these heads. -/
theorem loopHeads_cut_cycles (g : Graph) :
    g.toMultigraph.CutsCycles g.toMultigraph.loopHeads ∧
      (g.toMultigraph.loopHeads = [] ↔ ∀ id through, ¬g.toMultigraph.Cycle id through) ∧
      (∃ count, (g.toMultigraph.traversal count).finished = true) ∧
      ∀ count, (g.toMultigraph.traversal count).finished = true →
        (g.toMultigraph.traversal count).reading.heads = g.toMultigraph.loopHeads := by
  have hclosed := g.successors_subset_ids
  have hcuts := Multigraph.cutsCycles_loopHeads hclosed fun _ _ => Graph.joins_iff_mem_successors
  obtain ⟨count, hfinished, -⟩ := Traversal.exists_finished hclosed
  exact ⟨hcuts, hcuts.eq_nil_iff, ⟨count, hfinished⟩,
    fun _ => Traversal.reading_of_finished hclosed⟩

/-- A chart of connections alone: two nodes that lead to each other, one of them twice, and a
    third one that they lead to and that leads to itself. -/
def tangled : Graph :=
  { records := [.edge ⟨"b", "a", none⟩, .edge ⟨"a", "b", some "yes"⟩, .edge ⟨"a", "b", none⟩,
      .edge ⟨"b", "c", none⟩, .edge ⟨"c", "c", none⟩] }

theorem loopHeads_of_tangled :
    tangled.toMultigraph.loopHeads = ["b", "c"] ∧
      (∃ through, tangled.toMultigraph.Cycle "c" through ∧ through.Nodup) ∧
      (tangled.toMultigraph.traversal 10).finished = true ∧
      (tangled.toMultigraph.traversal 10).reading.heads = ["b", "c"] := by
  obtain ⟨hcuts, -, -, hreading⟩ := loopHeads_cut_cycles tangled
  have hheads : tangled.toMultigraph.loopHeads = ["b", "c"] := by decide +kernel
  have hfinished : (tangled.toMultigraph.traversal 10).finished = true := by decide +kernel
  refine ⟨hheads, hcuts.on_cycle "c" (by rw [hheads]; simp), hfinished, ?_⟩
  rw [hreading 10 hfinished, hheads]

end Flowchart
