import Mathlib.Algebra.Order.BigOperators.Group.List
import Mathlib.Algebra.Order.Group.Nat
import Mathlib.Data.Finset.Card
import Mathlib.Data.List.Nodup
import Mathlib.Order.Interval.Finset.Nat
import Flowchart.Proofs.Exported

/-!
# Each Connection Once

The multigraph of a chart keeps its connections at the nodes that they leave, by the nodes
that they lead to.  None is lost on the way and none is made up:

* between any two nodes there are the connections that the chart has between them, in order,
  with the keys 0, 1, 2 and so on (`Graph.edges_between`);
* so all connections are there, in some order, with the keys that they get when they are
  entered one after the other, each the least that is still free (`enterAll`);
* the nodes are the declared ones, and then those that only a connection mentions.

Main statement: `export_keeps_each_connection`.
-/

namespace Flowchart

/-! ## §1 Lists that are kept by key -/

section Keys

variable {α β κ : Type} (key : α → κ)

/-- Lists that have the same members of each key in the same order have the same members. -/
theorem perm_of_filter_key_eq [DecidableEq α] [BEq κ] [LawfulBEq κ] {xs ys : List α}
    (h : ∀ k, xs.filter (key · == k) = ys.filter (key · == k)) : xs.Perm ys := by
  rw [List.perm_iff_count]
  intro x
  -- a member is counted among those of its own key
  have hcount : ∀ zs : List α, zs.count x = (zs.filter (key · == key x)).count x := by
    intro zs
    rw [List.count_filter (by simp)]
  rw [hcount, hcount ys, h]

variable [DecidableEq κ]

/-- Where only one key contributes, and no key comes twice, one member contributes. -/
theorem flatMap_of_key {xs : List α} (hnodup : (xs.map key).Nodup) {f : α → List β} {k : κ}
    (hf : ∀ x, key x ≠ k → f x = []) :
    xs.flatMap f = ((xs.find? (key · == k)).map f).getD [] := by
  induction xs with
  | nil => rfl
  | cons x xs ih =>
    obtain ⟨hx, hxs⟩ := List.nodup_cons.1 hnodup
    rw [List.flatMap_cons, ih hxs, List.find?_cons]
    -- the member with the key comes first, or it is among the others; no other contributes
    by_cases hkey : key x = k
    · have hnone : xs.find? (key · == k) = none := find?_key_of_notMem key (hkey ▸ hx)
      simp [hkey, hnone]
    · simp [beq_false_of_ne hkey, hf x hkey]

/-- Keys that are added one after the other stand behind those that were there, each at its
    first occurrence. -/
theorem foldl_withKey_eq (ks keys : List κ) :
    ks.foldl withKey keys = keys ++ (firstOccurrences id ks).filter fun k => k ∉ keys := by
  induction ks generalizing keys with
  | nil => exact (List.append_nil keys).symm
  | cons k ks ih =>
    rw [List.foldl_cons, ih, firstOccurrences, List.filter_cons, List.filter_filter, withKey]
    -- a key that is there keeps its place, a new one gets the next
    by_cases hk : k ∈ keys
    · rw [if_pos hk, if_neg (by simpa using hk)]
      congr 1
      refine List.filter_congr fun l _ => ?_
      -- a key with a place is passed over anyway
      by_cases hl : l = k <;> simp [hl, hk]
    · rw [if_neg hk, if_pos (by simpa using hk), List.append_assoc, List.singleton_append]
      congr 2
      refine List.filter_congr fun l _ => ?_
      simp

end Keys

/-! ## §2 Keys -/

/-- Some number beyond the count of the used ones is not used. -/
theorem exists_unused (used : List Nat) : ∃ key, used.length ≤ key ∧ key ∉ used := by
  refine ⟨used.length + used.sum + 1, by omega, ?_⟩
  intro hmem
  -- it is larger than all of them together
  have hle := List.le_sum_of_mem hmem
  omega

/-- The key of one more connection between two nodes whose connections have the given keys: the
    least number from their count on that none of them has. -/
def nextKey (used : List Nat) : Nat :=
  Nat.find (exists_unused used)

/-- The two nodes that a connection lies between. -/
def Connection.ends (c : Connection) : String × String := (c.source, c.target)

/-- The two nodes that a connection lies between. -/
def MultiEdge.ends (e : MultiEdge) : String × String := (e.source, e.target)

/-- The connection without its key. -/
def MultiEdge.connection (e : MultiEdge) : Connection := ⟨e.source, e.target, e.label⟩

/-- One more connection, with the next key between its ends. -/
def enterEdge (entered : List MultiEdge) (c : Connection) : List MultiEdge :=
  let used := (entered.filter (·.ends == c.ends)).map MultiEdge.key
  entered ++ [⟨c.source, c.target, nextKey used, c.label⟩]

/-- Connections with the keys that they get when they are entered one after the other. -/
def enterAll (connections : List Connection) : List MultiEdge :=
  connections.foldl enterEdge []

/-- Connections between two nodes, with the keys 0, 1, 2 and so on. -/
def numbered (ends : String × String) (labels : List (Option String)) : List MultiEdge :=
  labels.zipIdx.map fun (label, key) => ⟨ends.1, ends.2, key, label⟩

/-- The labels of the connections between two nodes, in order. -/
def labelsBetween (connections : List Connection) (ends : String × String) :
    List (Option String) :=
  (connections.filter (·.ends == ends)).map Connection.label

/-- As long as no key is left out, the next key is the number of connections. -/
theorem nextKey_range (count : Nat) : nextKey (List.range count) = count := by
  rw [nextKey, Nat.find_eq_iff]
  simp

section Numbered

variable {ends : String × String} {labels : List (Option String)}

/-- The keys are the numbers in order. -/
theorem map_key_numbered : (numbered ends labels).map MultiEdge.key = List.range labels.length := by
  rw [numbered, List.map_map, List.range_eq_range', ← List.zipIdx_map_snd]
  rfl

theorem ends_of_mem_numbered {e : MultiEdge} (h : e ∈ numbered ends labels) : e.ends = ends := by
  obtain ⟨⟨label, key⟩, -, rfl⟩ := List.mem_map.1 h
  rfl

theorem numbered_concat (label : Option String) :
    numbered ends (labels ++ [label]) =
      numbered ends labels ++ [⟨ends.1, ends.2, labels.length, label⟩] := by
  simp [numbered, List.zipIdx_append]

/-- Of the connections between two nodes, those between two others are none. -/
theorem filter_numbered (ends' : String × String) :
    (numbered ends labels).filter (·.ends == ends') = if ends = ends' then numbered ends labels
      else [] := by
  split
  case isTrue hends =>
    rw [List.filter_eq_self]
    intro e he
    rw [ends_of_mem_numbered he, hends]
    exact beq_self_eq_true _
  case isFalse hends =>
    rw [List.filter_eq_nil_iff]
    intro e he
    rw [ends_of_mem_numbered he]
    simpa using hends

end Numbered

theorem labelsBetween_concat (connections : List Connection) (c : Connection)
    (ends : String × String) :
    labelsBetween (connections ++ [c]) ends =
      labelsBetween connections ends ++ if c.ends = ends then [c.label] else [] := by
  rw [labelsBetween, List.filter_append, List.map_append]
  by_cases hends : c.ends = ends <;> simp [hends, labelsBetween]

/-! ## §3 Connections that are entered one after the other -/

theorem enterAll_concat (connections : List Connection) (c : Connection) :
    enterAll (connections ++ [c]) = enterEdge (enterAll connections) c :=
  List.foldl_concat enterEdge [] c connections

/-- **Between two nodes the keys are given in order**, whatever is entered between others. -/
theorem filter_enterAll (connections : List Connection) (ends : String × String) :
    (enterAll connections).filter (·.ends == ends) =
      numbered ends (labelsBetween connections ends) := by
  -- by induction on the connections, the last one apart: what its key is depends on those
  -- before
  induction connections using List.reverseRecOn with
  | nil => rfl
  | append_singleton connections c ih =>
    rw [enterAll_concat, enterEdge, List.filter_append, ih, labelsBetween_concat]
    by_cases hends : c.ends = ends
    · subst hends
      -- between its ends the keys so far are 0, 1 and so on, so the next is their count
      have hkey : nextKey (((enterAll connections).filter (·.ends == c.ends)).map MultiEdge.key) =
          (labelsBetween connections c.ends).length := by
        rw [ih, map_key_numbered, nextKey_range]
      rw [if_pos rfl, numbered_concat, hkey]
      simp [MultiEdge.ends, Connection.ends]
    · have hends' : ¬(c.source, c.target) = ends := hends
      simp [MultiEdge.ends, hends, hends']

/-- But for their keys, the entered connections are the given ones in order. -/
theorem map_connection_enterAll (connections : List Connection) :
    (enterAll connections).map MultiEdge.connection = connections := by
  induction connections using List.reverseRecOn with
  | nil => rfl
  | append_singleton connections c ih =>
    rw [enterAll_concat, enterEdge, List.map_append, ih]
    rfl

/-! ## §4 Connections that are kept at their sources -/

namespace Multigraph

/-- The labels of the connections to a node. -/
def labelsTo (bundles : List Bundle) (target : String) : List (Option String) :=
  ((bundles.find? (·.target == target)).map Bundle.labels).getD []

theorem find?_addToBundles (c : Connection) (bundles : List Bundle) (target : String) :
    (addToBundles c bundles).find? (·.target == target) =
      if target = c.target then
        some (((bundles.find? (·.target == c.target)).map fun b =>
          { b with labels := b.labels ++ [c.label] }).getD ⟨c.target, [c.label]⟩)
      else bundles.find? (·.target == target) :=
  find?_upsert Bundle.target bundles target (fun _ => rfl) rfl

/-- One more connection adds its label behind those to its target. -/
theorem labelsTo_addToBundles (c : Connection) (bundles : List Bundle) (target : String) :
    labelsTo (addToBundles c bundles) target =
      labelsTo bundles target ++ if c.target = target then [c.label] else [] := by
  rw [labelsTo, labelsTo, find?_addToBundles]
  by_cases htarget : c.target = target
  · subst htarget
    cases bundles.find? (·.target == c.target) <;> simp
  · simp [htarget, Ne.symm htarget]

/-- **At each node are the connections that leave it**, by the nodes that they lead to. -/
theorem labelsTo_foldl_connect (connections : List Connection) (g : Multigraph)
    (a b : String) :
    labelsTo ((connections.foldl connect g).bundlesAt a) b =
      labelsTo (g.bundlesAt a) b ++ labelsBetween connections (a, b) := by
  -- by induction on the connections, for whatever is kept before them
  induction connections generalizing g with
  | nil => exact (List.append_nil _).symm
  | cons c connections ih =>
    have hrest : labelsBetween (c :: connections) (a, b) =
        (if c.ends = (a, b) then [c.label] else []) ++ labelsBetween connections (a, b) := by
      by_cases hends : c.ends = (a, b) <;> simp [labelsBetween, hends]
    rw [List.foldl_cons, ih, bundlesAt_connect, hrest, ← List.append_assoc]
    congr 1
    by_cases ha : a = c.source
    · rw [if_pos ha, labelsTo_addToBundles]
      simp [Connection.ends, ha]
    · -- a connection that leaves another node is kept there
      have hne : ¬c.ends = (a, b) := fun hends => ha (Prod.mk.inj hends).1.symm
      rw [if_neg ha, if_neg hne, List.append_nil]

/-- Of the connections that leave a node, those to another one are kept in one bundle. -/
theorem filter_vertexEdges {v : Vertex} (hnodup : (v.bundles.map Bundle.target).Nodup)
    (b : String) :
    (vertexEdges v).filter (·.ends == (v.id, b)) = numbered (v.id, b) (labelsTo v.bundles b) := by
  have hbundles : (vertexEdges v).filter (·.ends == (v.id, b)) =
      v.bundles.flatMap fun bundle =>
        (numbered (v.id, bundle.target) bundle.labels).filter (·.ends == (v.id, b)) :=
    List.filter_flatMap
  -- no two bundles of a node lead to the same target
  rw [hbundles, flatMap_of_key Bundle.target (k := b) hnodup]
  · rw [labelsTo]
    cases hfind : v.bundles.find? (·.target == b) with
    | none => rfl
    | some bundle =>
      obtain rfl : bundle.target = b := by simpa using List.find?_some hfind
      exact (filter_numbered _).trans (if_pos rfl)
  · intro bundle hne
    rw [filter_numbered, if_neg]
    intro hends
    exact hne (Prod.mk.inj hends).2

/-- What is read of a multigraph between two nodes is what is kept at the first of them. -/
theorem filter_edges {g : Multigraph} (hids : g.ids.Nodup)
    (htargets : ∀ v ∈ g.vertices, (v.bundles.map Bundle.target).Nodup) (a b : String) :
    g.edges.filter (·.ends == (a, b)) = numbered (a, b) (labelsTo (g.bundlesAt a) b) := by
  rw [edges, List.filter_flatMap, flatMap_of_key Vertex.id (k := a) hids, bundlesAt]
  · cases hfind : g.vertices.find? (·.id == a) with
    | none => rfl
    | some v =>
      obtain rfl : v.id = a := by simpa using List.find?_some hfind
      exact filter_vertexEdges (htargets v (List.mem_of_find?_eq_some hfind)) b
  · intro v hne
    rw [List.filter_eq_nil_iff]
    intro e he hends
    -- whatever is kept at another node has that node as its source
    obtain ⟨bundle, -, he⟩ := List.mem_flatMap.1 he
    obtain ⟨⟨label, key⟩, -, rfl⟩ := List.mem_map.1 he
    exact hne (Prod.mk.inj (eq_of_beq hends)).1

end Multigraph

namespace Graph

variable {g : Graph}

/-- Between two nodes a chart has the connections of its records, with the keys in order. -/
theorem edges_between (g : Graph) (ends : String × String) :
    g.toMultigraph.edges.filter (·.ends == ends) =
      numbered ends (labelsBetween g.connections ends) := by
  obtain ⟨a, b⟩ := ends
  -- entering a connection keeps the bundles of a node apart
  have htargets : ∀ v ∈ g.toMultigraph.vertices, (v.bundles.map Bundle.target).Nodup := by
    apply Multigraph.forall_bundles_of_connect (P := fun bundles => (bundles.map Bundle.target).Nodup)
      List.nodup_nil
    intro c bundles hbundles
    rw [Multigraph.map_target_addToBundles]
    exact nodup_withKey hbundles c.target
  rw [Multigraph.filter_edges g.nodup_ids_toMultigraph htargets, toMultigraph,
    Multigraph.labelsTo_foldl_connect, Multigraph.bundlesAt_foldl_declare]
  rfl

/-- All names that the records mention, in order. -/
def mentioned (g : Graph) : List String :=
  g.records.flatMap Record.names

/-- The nodes are the names that the records mention. -/
theorem mem_ids_toMultigraph {id : String} : id ∈ g.toMultigraph.ids ↔ id ∈ g.mentioned := by
  rw [ids_toMultigraph, mem_foldl_withKey, mem_foldl_withKey, mentioned]
  constructor
  · rintro ((hnone | hdeclared) | hconnected)
    · cases hnone
    · obtain ⟨n, hn, rfl⟩ := List.mem_map.1 hdeclared
      obtain ⟨r, hr, hrn⟩ := List.mem_filterMap.1 hn
      cases r <;> cases hrn
      exact List.mem_flatMap.2 ⟨_, hr, List.mem_singleton_self _⟩
    · obtain ⟨c, hc, hid⟩ := List.mem_flatMap.1 hconnected
      obtain ⟨r, hr, hrc⟩ := List.mem_filterMap.1 hc
      cases r <;> cases hrc
      exact List.mem_flatMap.2 ⟨_, hr, hid⟩
  · intro hmentioned
    obtain ⟨r, hr, hid⟩ := List.mem_flatMap.1 hmentioned
    cases r with
    | node n =>
      rw [List.mem_singleton.1 hid]
      exact .inl (.inr (List.mem_map_of_mem (List.mem_filterMap.2 ⟨_, hr, rfl⟩)))
    | edge c => exact .inr (List.mem_flatMap.2 ⟨c, List.mem_filterMap.2 ⟨_, hr, rfl⟩, hid⟩)

/-- **The declared nodes come first, and then those that only a connection mentions**, in the
    order in which they are mentioned. -/
theorem ids_toMultigraph_eq (g : Graph) :
    g.toMultigraph.ids = g.nodeIds ++
      (firstOccurrences id (g.connections.flatMap fun c => [c.source, c.target])).filter
        fun name => name ∉ g.nodeIds := by
  have hdeclared : (g.declarations.map Node.id).foldl withKey [] = g.nodeIds := by
    rw [foldl_withKey_eq, nodeIds, map_firstOccurrences]
    simp
  rw [ids_toMultigraph, hdeclared, foldl_withKey_eq]

end Graph

/-! ## §5 Every chart -/

/-- **The multigraph of a chart has each node once and each connection once.**

* Its nodes are the declared ones in the order of their declarations, and then those that only
  a connection mentions, in the order in which they are mentioned first, a source before its
  target.
* Its connections are those of the chart, with the same ends and labels, and each has the key
  that it gets when they are entered one after the other: the least number, from the count of
  the connections between its ends on, that none of them has.
* So between any two nodes the keys are 0, 1, 2 and so on, in the order of the records.
* There are as many connections as in the chart, and as many nodes as names in it. -/
theorem export_keeps_each_connection (g : Graph) :
    (g.toMultigraph.ids = g.nodeIds ++
        (firstOccurrences id (g.connections.flatMap fun c => [c.source, c.target])).filter
          fun name => name ∉ g.nodeIds) ∧
      g.toMultigraph.ids.Nodup ∧
      g.toMultigraph.edges.Perm (enterAll g.connections) ∧
      (g.toMultigraph.edges.map MultiEdge.connection).Perm g.connections ∧
      (∀ ends, g.toMultigraph.edges.filter (·.ends == ends) =
        numbered ends (labelsBetween g.connections ends)) ∧
      g.toMultigraph.edges.length = g.connections.length ∧
      g.toMultigraph.vertices.length = g.mentioned.toFinset.card := by
  have hperm : g.toMultigraph.edges.Perm (enterAll g.connections) := by
    -- between any two nodes both have the same connections in the same order
    apply perm_of_filter_key_eq MultiEdge.ends
    intro ends
    rw [Graph.edges_between, filter_enterAll]
  have hconnections := hperm.map MultiEdge.connection
  rw [map_connection_enterAll] at hconnections
  refine ⟨g.ids_toMultigraph_eq, g.nodup_ids_toMultigraph, hperm, hconnections, g.edges_between,
    ?_, ?_⟩
  · rw [← hconnections.length_eq, List.length_map]
  · have hsame : g.toMultigraph.ids.toFinset = g.mentioned.toFinset := by
      ext name
      rw [List.mem_toFinset, List.mem_toFinset, Graph.mem_ids_toMultigraph]
    rw [← hsame, List.toFinset_card_of_nodup g.nodup_ids_toMultigraph, Multigraph.ids,
      List.length_map]

/-- Two connections of the same nodes with another one between them, and a node that is declared
    after connections mention others. -/
example :
    let g : Graph := { records := [.edge ⟨"b", "a", none⟩, .edge ⟨"b", "b", some "x"⟩,
      .edge ⟨"b", "a", some ""⟩, .node ⟨"c", .empty⟩] }
    g.toMultigraph.ids = ["c", "b", "a"] ∧
      g.toMultigraph.edges =
        [⟨"b", "a", 0, none⟩, ⟨"b", "a", 1, some ""⟩, ⟨"b", "b", 0, some "x"⟩] := by
  decide

end Flowchart
