import Mathlib.Data.List.Nodup
import Flowchart.Chart.Multigraph
import Flowchart.Proofs.Drawn

/-!
# The Multigraph of a Drawn Program

A chart is turned into a multigraph record by record.  What comes of it does not depend
on the details of its tables: the nodes are those that the records mention, each where it
is mentioned first; one node is a successor of another just if a connection leads there
(`Graph.mem_successors_toMultigraph`); and something is said of a node just if one of its
declarations says it (`Graph.exists_vertex_says_iff`).

The chart of a program declares all its nodes in preorder before any other record can
mention them, so its multigraph has just these, in this order (`ids_drawProgram`).
-/

namespace Flowchart

/-! ## §1 Tables -/

section Tables

variable {α κ : Type} [DecidableEq κ] (key : α → κ) {k : κ} {change : α → α} {new : α}

/-- A key with a place of its own, at the end if it has none yet. -/
def withKey (keys : List κ) (k : κ) : List κ :=
  if k ∈ keys then keys else keys ++ [k]

theorem mem_withKey {keys : List κ} {l : κ} : l ∈ withKey keys k ↔ l ∈ keys ∨ l = k := by
  unfold withKey
  split
  · next hk =>
    constructor
    · exact .inl
    · rintro (hl | rfl)
      · exact hl
      · exact hk
  · simp

theorem nodup_withKey {keys : List κ} (h : keys.Nodup) (k : κ) : (withKey keys k).Nodup := by
  unfold withKey
  split
  · exact h
  · next hk => exact h.append (List.nodup_singleton k) (List.disjoint_singleton.2 hk)

/-- What holds of all entries, and of the new one, still does if changing keeps it. -/
theorem forall_mem_upsert {isIt : α → Bool} {P : α → Prop} {xs : List α}
    (hxs : ∀ x ∈ xs, P x) (hchange : ∀ x, P x → P (change x)) (hnew : P new) :
    ∀ x ∈ upsert isIt change new xs, P x := by
  induction xs with
  | nil =>
    intro x hx
    rw [List.mem_singleton.1 hx]
    exact hnew
  | cons y ys ih =>
    obtain ⟨hy, hys⟩ := List.forall_mem_cons.1 hxs
    unfold upsert
    split
    · exact List.forall_mem_cons.2 ⟨hchange y hy, hys⟩
    · exact List.forall_mem_cons.2 ⟨hy, ih hys⟩

/-- The keys are those from before, and the new one if it was missing. -/
theorem map_upsert (xs : List α) (hchange : ∀ x, key (change x) = key x) (hnew : key new = k) :
    (upsert (key · == k) change new xs).map key = withKey (xs.map key) k := by
  induction xs with
  | nil => simp [upsert, withKey, hnew]
  | cons x xs ih =>
    by_cases hx : key x = k
    · simp [upsert, withKey, hx, hchange]
    · -- the key is looked for behind the first entry
      have hx' : ¬k = key x := fun h => hx h.symm
      simp only [upsert, beq_iff_eq, hx, if_false, List.map_cons, ih, withKey, List.mem_cons, hx',
        false_or]
      split <;> simp

/-- Only what is found at the key has changed. -/
theorem find?_upsert (xs : List α) (l : κ) (hchange : ∀ x, key (change x) = key x)
    (hnew : key new = k) :
    (upsert (key · == k) change new xs).find? (key · == l) =
      if l = k then some (((xs.find? (key · == k)).map change).getD new)
      else xs.find? (key · == l) := by
  induction xs with
  | nil =>
    by_cases hl : l = k
    · simp [upsert, hl, hnew]
    · have hl' : ¬k = l := fun h => hl h.symm
      simp [upsert, hnew, hl, hl']
  | cons x xs ih =>
    by_cases hx : key x = k
    · by_cases hl : l = k
      · simp [upsert, hx, hl, hchange]
      · have hl' : ¬k = l := fun h => hl h.symm
        simp [upsert, hx, hl, hl', hchange]
    · -- the key comes later, but the entry that is looked for may be this one
      by_cases hxl : key x = l
      · have hl : ¬l = k := fun h => hx (hxl.trans h)
        simp [upsert, hxl, hl]
      · have hrest : (upsert (key · == k) change new (x :: xs)).find? (key · == l) =
            (upsert (key · == k) change new xs).find? (key · == l) := by
          simp [upsert, hx, hxl]
        simp only [hrest, ih, List.find?_cons, beq_false_of_ne hx, beq_false_of_ne hxl]

/-- Where no key comes twice, the entry with a key is the only one. -/
theorem filter_key_of_mem {xs : List α} (h : (xs.map key).Nodup) {x : α} (hx : x ∈ xs) :
    xs.filter (key · == key x) = [x] := by
  induction xs with
  | nil => cases hx
  | cons y ys ih =>
    obtain ⟨hy, hys⟩ := List.nodup_cons.1 h
    rcases List.mem_cons.1 hx with rfl | hx
    · -- the first entry has the key, so no later one does
      have hothers : ys.filter (key · == key x) = [] := by
        rw [List.filter_eq_nil_iff]
        intro z hz hkey
        exact hy (eq_of_beq hkey ▸ List.mem_map_of_mem hz)
      rw [List.filter_cons, if_pos (beq_self_eq_true _), hothers]
    · have hne : ¬(key y == key x) = true := fun hkey =>
        hy (eq_of_beq hkey ▸ List.mem_map_of_mem hx)
      rw [List.filter_cons, if_neg hne, ih hys hx]

theorem find?_key_of_mem {xs : List α} (h : (xs.map key).Nodup) {x : α} (hx : x ∈ xs) :
    xs.find? (key · == key x) = some x := by
  rw [← List.head?_filter, filter_key_of_mem key h hx]
  rfl

theorem find?_key_of_notMem {xs : List α} (h : k ∉ xs.map key) :
    xs.find? (key · == k) = none := by
  rw [List.find?_eq_none]
  intro x hx hxk
  exact h (eq_of_beq hxk ▸ List.mem_map_of_mem hx)

end Tables

namespace Multigraph

variable {g : Multigraph} {a b : String}

/-! ## §2 The names of the nodes -/

/-- A declared node gets a place, at the end if it is new. -/
theorem ids_declare (g : Multigraph) (n : Node) : (g.declare n).ids = withKey g.ids n.id :=
  map_upsert Vertex.id g.vertices (fun _ => rfl) rfl

theorem ids_mention (g : Multigraph) (id : String) : (g.mention id).ids = withKey g.ids id :=
  map_upsert Vertex.id g.vertices (fun _ => rfl) rfl

/-- A connection mentions its source and then its target. -/
theorem ids_connect (g : Multigraph) (c : Connection) :
    (g.connect c).ids = withKey (withKey g.ids c.source) c.target := by
  rw [← ids_mention, ← ids_mention, connect, ids, ids, List.map_map]
  apply List.map_congr_left
  intro v _
  rw [Function.comp_apply]
  split <;> rfl

/-! ## §3 The connections of a node -/

/-- The connections that leave a node; none, if it is not there. -/
def bundlesAt (g : Multigraph) (id : String) : List Bundle :=
  ((g.vertices.find? (·.id == id)).map Vertex.bundles).getD []

/-- The successors are what the connections of a node lead to. -/
theorem successors_eq (g : Multigraph) (id : String) :
    g.successors id = (g.bundlesAt id).map Bundle.target := by
  unfold successors bundlesAt
  cases g.vertices.find? (·.id == id) <;> rfl

theorem find?_declare (g : Multigraph) (n : Node) (a : String) :
    (g.declare n).vertices.find? (·.id == a) =
      if a = n.id then
        some (((g.vertices.find? (·.id == n.id)).map fun v =>
          { v with attributes := v.attributes.override n.attributes }).getD
            ⟨n.id, n.attributes, []⟩)
      else g.vertices.find? (·.id == a) :=
  find?_upsert Vertex.id g.vertices a (fun _ => rfl) rfl

theorem find?_mention (g : Multigraph) (id a : String) :
    (g.mention id).vertices.find? (·.id == a) =
      if a = id then
        some (((g.vertices.find? (·.id == id)).map fun v => v).getD ⟨id, .empty, []⟩)
      else g.vertices.find? (·.id == a) :=
  find?_upsert Vertex.id g.vertices a (fun _ => rfl) rfl

/-- Connecting changes the connections of the source only; all vertices keep their names. -/
theorem find?_connect (g : Multigraph) (c : Connection) (a : String) :
    (g.connect c).vertices.find? (·.id == a) =
      (((g.mention c.source).mention c.target).vertices.find? (·.id == a)).map fun v =>
        if v.id == c.source then { v with bundles := addToBundles c v.bundles } else v := by
  rw [connect, List.find?_map]
  congr 2
  funext v
  rw [Function.comp_apply]
  split <;> rfl

/-- To declare a node connects nothing. -/
theorem bundlesAt_declare (g : Multigraph) (n : Node) (a : String) :
    (g.declare n).bundlesAt a = g.bundlesAt a := by
  rw [bundlesAt, bundlesAt, find?_declare]
  split
  · next ha =>
    subst ha
    cases g.vertices.find? (·.id == n.id) <;> rfl
  · rfl

theorem bundlesAt_mention (g : Multigraph) (id a : String) :
    (g.mention id).bundlesAt a = g.bundlesAt a := by
  rw [bundlesAt, bundlesAt, find?_mention]
  split
  · next ha =>
    subst ha
    cases g.vertices.find? (·.id == a) <;> rfl
  · rfl

/-- One more connection is kept at the node that it leaves, and nowhere else. -/
theorem bundlesAt_connect (g : Multigraph) (c : Connection) (a : String) :
    (g.connect c).bundlesAt a =
      if a = c.source then addToBundles c (g.bundlesAt a) else g.bundlesAt a := by
  have hbefore : ((g.mention c.source).mention c.target).bundlesAt a = g.bundlesAt a := by
    rw [bundlesAt_mention, bundlesAt_mention]
  rw [← hbefore, bundlesAt, bundlesAt, find?_connect]
  cases hfind : ((g.mention c.source).mention c.target).vertices.find? (·.id == a) with
  | none =>
    -- the source is certainly found
    have hne : a ≠ c.source := by
      rintro rfl
      have hmem : c.source ∈ ((g.mention c.source).mention c.target).ids := by
        simp [ids_mention, mem_withKey]
      obtain ⟨v, hv, hid⟩ := List.mem_map.1 hmem
      exact List.find?_eq_none.1 hfind v hv (beq_iff_eq.2 hid)
    rw [if_neg hne]
    rfl
  | some v =>
    have hv : v.id = a := by simpa using List.find?_some hfind
    by_cases ha : a = c.source <;> simp [hv, ha]

/-- Each target of a node comes once, where it was first led to. -/
theorem map_target_addToBundles (c : Connection) (bundles : List Bundle) :
    (addToBundles c bundles).map Bundle.target = withKey (bundles.map Bundle.target) c.target :=
  map_upsert Bundle.target bundles (fun _ => rfl) rfl

/-- One more connection makes one more successor. -/
theorem mem_successors_connect (g : Multigraph) (c : Connection) :
    b ∈ (g.connect c).successors a ↔ b ∈ g.successors a ∨ a = c.source ∧ b = c.target := by
  rw [successors_eq, successors_eq, bundlesAt_connect]
  by_cases ha : a = c.source
  · simp [ha, map_target_addToBundles, mem_withKey]
  · simp [ha]

/-! ## §4 Attributes -/

/-- What is said of a node; nothing, if it is not there. -/
def attributesOf (g : Multigraph) (id : String) : AttributeSet :=
  ((g.vertices.find? (·.id == id)).map Vertex.attributes).getD .empty

/-- A declaration says something of its own node, and takes nothing back. -/
theorem contains_attributesOf_declare (g : Multigraph) (n : Node) (a : String)
    (kind : AttributeKind) :
    ((g.declare n).attributesOf a).contains kind = true ↔
      (g.attributesOf a).contains kind = true ∨
        n.id = a ∧ n.attributes.contains kind = true := by
  unfold attributesOf
  rw [find?_declare]
  by_cases ha : a = n.id
  · subst ha
    -- whether the node was there before or not
    cases g.vertices.find? (·.id == n.id) with
    | none => simp [AttributeSet.contains, AttributeSet.empty]
    | some v => simp [AttributeSet.contains_override]
  · have ha' : ¬n.id = a := fun h => ha h.symm
    simp [ha, ha']

theorem attributesOf_mention (g : Multigraph) (id a : String) :
    (g.mention id).attributesOf a = g.attributesOf a := by
  unfold attributesOf
  rw [find?_mention]
  split
  · next ha =>
    subst ha
    cases g.vertices.find? (·.id == a) <;> rfl
  · rfl

/-- To connect nodes says nothing of them. -/
theorem attributesOf_connect (g : Multigraph) (c : Connection) (a : String) :
    (g.connect c).attributesOf a = g.attributesOf a := by
  have hbefore : ((g.mention c.source).mention c.target).attributesOf a = g.attributesOf a := by
    rw [attributesOf_mention, attributesOf_mention]
  rw [← hbefore, attributesOf, attributesOf, find?_connect]
  cases ((g.mention c.source).mention c.target).vertices.find? (·.id == a) with
  | none => rfl
  | some v =>
    simp only [Option.map_some, Option.getD_some]
    split <;> rfl

/-! ## §5 Many records -/

theorem mem_successors_foldl_connect (connections : List Connection) (g : Multigraph) :
    b ∈ (connections.foldl connect g).successors a ↔
      b ∈ g.successors a ∨ ∃ c ∈ connections, c.source = a ∧ c.target = b := by
  induction connections generalizing g with
  | nil => simp
  | cons c connections ih =>
    rw [List.foldl_cons, ih, mem_successors_connect]
    -- one connection or the other leads there, or it was a successor before
    constructor
    · rintro ((h | ⟨rfl, rfl⟩) | ⟨d, hd, h⟩)
      · exact .inl h
      · exact .inr ⟨c, List.mem_cons_self, rfl, rfl⟩
      · exact .inr ⟨d, List.mem_cons_of_mem c hd, h⟩
    · rintro (h | ⟨d, hd, h⟩)
      · exact .inl (.inl h)
      · rcases List.mem_cons.1 hd with rfl | hd
        · exact .inl (.inr ⟨h.1.symm, h.2.symm⟩)
        · exact .inr ⟨d, hd, h⟩

theorem bundlesAt_foldl_declare (declarations : List Node) (g : Multigraph) (a : String) :
    (declarations.foldl declare g).bundlesAt a = g.bundlesAt a := by
  induction declarations generalizing g with
  | nil => rfl
  | cons n declarations ih => rw [List.foldl_cons, ih, bundlesAt_declare]

theorem contains_attributesOf_foldl_declare (declarations : List Node) (g : Multigraph)
    (a : String) (kind : AttributeKind) :
    ((declarations.foldl declare g).attributesOf a).contains kind = true ↔
      (g.attributesOf a).contains kind = true ∨
        ∃ n ∈ declarations, n.id = a ∧ n.attributes.contains kind = true := by
  -- by induction on the declarations, for whatever was declared before
  induction declarations generalizing g with
  | nil => simp
  | cons n declarations ih =>
    rw [List.foldl_cons, ih, contains_attributesOf_declare, or_assoc, List.exists_mem_cons_iff]

theorem attributesOf_foldl_connect (connections : List Connection) (g : Multigraph)
    (a : String) : (connections.foldl connect g).attributesOf a = g.attributesOf a := by
  induction connections generalizing g with
  | nil => rfl
  | cons c connections ih => rw [List.foldl_cons, ih, attributesOf_connect]

/-- What holds of no connections, and still does with one more, holds at every node. -/
theorem forall_bundles_of_connect {P : List Bundle → Prop} (hnil : P [])
    (hadd : ∀ c bundles, P bundles → P (addToBundles c bundles))
    (declarations : List Node) (connections : List Connection) :
    ∀ v ∈ (connections.foldl connect (declarations.foldl declare empty)).vertices,
      P v.bundles := by
  have hmention : ∀ (g : Multigraph) (id : String), (∀ v ∈ g.vertices, P v.bundles) →
      ∀ v ∈ (g.mention id).vertices, P v.bundles := by
    intro g id h
    exact forall_mem_upsert h (fun _ hv => hv) hnil
  have hdeclared : ∀ v ∈ (declarations.foldl declare empty).vertices, P v.bundles := by
    -- a declaration makes a node with no connections, or leaves those that it has
    apply List.foldlRecOn (motive := fun g => ∀ v ∈ g.vertices, P v.bundles) declarations declare
    · intro v hv
      cases hv
    · intro g h n _
      exact forall_mem_upsert h (fun _ hv => hv) hnil
  apply List.foldlRecOn (motive := fun g => ∀ v ∈ g.vertices, P v.bundles) connections connect
  · exact hdeclared
  · intro g h c _ v hv
    -- one node got a connection, after source and target were mentioned
    obtain ⟨w, hw, rfl⟩ := List.mem_map.1 hv
    have hbefore := hmention _ c.target (hmention _ c.source h) w hw
    split
    · exact hadd c w.bundles hbefore
    · exact hbefore

theorem ids_foldl_declare (declarations : List Node) (g : Multigraph) :
    (declarations.foldl declare g).ids = (declarations.map Node.id).foldl withKey g.ids := by
  induction declarations generalizing g with
  | nil => rfl
  | cons n declarations ih => rw [List.foldl_cons, ih, ids_declare, List.map_cons, List.foldl_cons]

theorem ids_foldl_connect (connections : List Connection) (g : Multigraph) :
    (connections.foldl connect g).ids =
      (connections.flatMap fun c => [c.source, c.target]).foldl withKey g.ids := by
  induction connections generalizing g with
  | nil => rfl
  | cons c connections ih =>
    rw [List.foldl_cons, ih, ids_connect, List.flatMap_cons, List.foldl_append]
    rfl

end Multigraph

section Tables

variable {κ : Type} [DecidableEq κ]

theorem mem_foldl_withKey (ks keys : List κ) {l : κ} :
    l ∈ ks.foldl withKey keys ↔ l ∈ keys ∨ l ∈ ks := by
  induction ks generalizing keys with
  | nil => simp
  | cons k ks ih => rw [List.foldl_cons, ih, mem_withKey, List.mem_cons, or_assoc]

theorem nodup_foldl_withKey (ks : List κ) {keys : List κ} (h : keys.Nodup) :
    (ks.foldl withKey keys).Nodup := by
  induction ks generalizing keys with
  | nil => exact h
  | cons k ks ih => exact ih (nodup_withKey h k)

/-- Keys that have a place already change nothing. -/
theorem foldl_withKey_of_subset {ks keys : List κ} (h : ks ⊆ keys) :
    ks.foldl withKey keys = keys := by
  induction ks with
  | nil => rfl
  | cons k ks ih =>
    obtain ⟨hk, hks⟩ := List.cons_subset.1 h
    have hsame : withKey keys k = keys := if_pos hk
    rw [List.foldl_cons, hsame, ih hks]

/-- Keys that are all new are put at the end in their order. -/
theorem foldl_withKey_of_nodup {ks keys : List κ} (h : (keys ++ ks).Nodup) :
    ks.foldl withKey keys = keys ++ ks := by
  induction ks generalizing keys with
  | nil => rw [List.foldl_nil, List.append_nil]
  | cons k ks ih =>
    rw [List.append_cons] at h
    -- all keys are distinct, so this one has no place yet
    have hnew : k ∉ keys := by
      intro hk
      have hdisjoint := (List.nodup_append.1 (List.nodup_append.1 h).1).2.2
      exact hdisjoint k hk k List.mem_cons_self rfl
    have happend : withKey keys k = keys ++ [k] := if_neg hnew
    rw [List.foldl_cons, happend, ih h, ← List.append_cons]

end Tables

/-- The names that a record mentions, a source before its target. -/
def Record.names : Record → List String
  | .node declaration => [declaration.id]
  | .edge connection => [connection.source, connection.target]

namespace Graph

variable {g : Graph}

/-- **One node is a successor of another just if a connection leads there.** -/
theorem mem_successors_toMultigraph {a b : String} :
    b ∈ g.toMultigraph.successors a ↔ ∃ c ∈ g.connections, c.source = a ∧ c.target = b := by
  have hempty : (g.declarations.foldl Multigraph.declare .empty).successors a = [] := by
    rw [Multigraph.successors_eq, Multigraph.bundlesAt_foldl_declare]
    rfl
  rw [toMultigraph, Multigraph.mem_successors_foldl_connect, hempty]
  simp

/-- The nodes are those that the records mention, the declared ones first. -/
theorem ids_toMultigraph (g : Graph) :
    g.toMultigraph.ids = (g.connections.flatMap fun c => [c.source, c.target]).foldl withKey
      ((g.declarations.map Node.id).foldl withKey []) := by
  rw [toMultigraph, Multigraph.ids_foldl_connect, Multigraph.ids_foldl_declare]
  rfl

/-- Each node is there once. -/
theorem nodup_ids_toMultigraph (g : Graph) : g.toMultigraph.ids.Nodup := by
  rw [ids_toMultigraph]
  exact nodup_foldl_withKey _ (nodup_foldl_withKey _ List.nodup_nil)

/-- What is said of a node is what its declarations say. -/
theorem contains_attributesOf_toMultigraph {a : String} {kind : AttributeKind} :
    (g.toMultigraph.attributesOf a).contains kind = true ↔
      ∃ n ∈ g.declarations, n.id = a ∧ n.attributes.contains kind = true := by
  have hempty : (Multigraph.empty.attributesOf a).contains kind = false := rfl
  rw [toMultigraph, Multigraph.attributesOf_foldl_connect,
    Multigraph.contains_attributesOf_foldl_declare, hempty]
  simp

/-- **Something is said of a node just if one of its declarations says it.** -/
theorem exists_vertex_says_iff {a : String} {kind : AttributeKind} :
    (∃ v ∈ g.toMultigraph.vertices, v.id = a ∧ v.attributes.contains kind = true) ↔
      ∃ n ∈ g.declarations, n.id = a ∧ n.attributes.contains kind = true := by
  rw [← contains_attributesOf_toMultigraph, Multigraph.attributesOf]
  constructor
  · rintro ⟨v, hv, rfl, hsays⟩
    -- there is only one node of the name
    rw [find?_key_of_mem Vertex.id g.nodup_ids_toMultigraph hv]
    exact hsays
  · cases hfind : g.toMultigraph.vertices.find? (·.id == a) with
    | none =>
      intro hsays
      cases hsays
    | some v =>
      intro hsays
      have hid : v.id = a := by simpa using List.find?_some hfind
      exact ⟨v, List.mem_of_find?_eq_some hfind, hid, hsays⟩

/-- Whatever a connection leads to is a node. -/
theorem successors_subset_ids (g : Graph) (a : String) :
    g.toMultigraph.successors a ⊆ g.toMultigraph.ids := by
  intro b hb
  obtain ⟨c, hc, rfl, rfl⟩ := mem_successors_toMultigraph.1 hb
  rw [ids_toMultigraph, mem_foldl_withKey]
  exact .inr (List.mem_flatMap.2 ⟨c, hc, by simp⟩)

end Graph

/-! ## §6 Drawn programs -/

theorem Statement.map_id_nodes (settings : Settings) (stem : String) (number : Nat)
    (s : Statement) :
    (s.nodes settings stem number).map Node.id =
      (List.range' number s.size).map (numberedId stem) := by
  rw [nodes, List.map_map]
  have hids : (Node.id ∘ fun x : Statement × Nat => x.1.ownNode settings stem x.2) =
      numberedId stem ∘ Prod.snd := rfl
  rw [hids, ← List.map_map, List.zipIdx_map_snd]
  rfl

theorem map_id_terminalNodes (settings : Settings) (exits : List LooseEnd) :
    (terminalNodes settings exits).map Node.id =
      (firstOccurrences Node.id (exits.map LooseEnd.source)).map Node.id := by
  rw [terminalNodes, List.map_map]
  rfl

theorem map_id_terminalNodes_subset (settings : Settings) (exits : List LooseEnd) :
    (terminalNodes settings exits).map Node.id ⊆ exits.map fun e => e.source.id := by
  intro id hid
  rw [map_id_terminalNodes, mem_map_firstOccurrences, List.map_map] at hid
  exact hid

variable {settings : Settings} {statements : List Statement}

/-- The ways of a program begin and end at its nodes. -/
theorem Statement.ends_of_mem_named_ways {stem : String} {s : Statement} {v : Way String}
    (h : v ∈ (s.ways settings 0 none).map (Way.named stem)) :
    v.source ∈ (List.range s.size).map (numberedId stem) ∧
      ∀ t, v.target = some t → t ∈ (List.range s.size).map (numberedId stem) := by
  obtain ⟨w, hw, rfl⟩ := List.mem_map.1 h
  constructor
  · show numberedId stem w.source ∈ _
    have hsource := (source_mem_ways hw).2
    rw [Nat.zero_add] at hsource
    exact List.mem_map_of_mem (List.mem_range.2 hsource)
  · intro t ht
    obtain ⟨i, hi, rfl⟩ := Option.map_eq_some_iff.1 ht
    -- nothing comes after a program, so its ways stay inside
    rcases target_mem_ways hw with hnone | ⟨j, hj, -, hhigh⟩
    · rw [hnone] at hi
      cases hi
    · obtain rfl := Option.some.inj (hi.symm.trans hj)
      rw [Nat.zero_add] at hhigh
      exact List.mem_map_of_mem (List.mem_range.2 hhigh)

/-- **The nodes of a drawn program are its statements in preorder.** -/
theorem ids_drawProgram (hfree : (Statement.block statements).holeFree = true) :
    (drawProgram settings (.block statements)).graph.toMultigraph.ids =
      (List.range (Statement.block statements).size).map (numberedId "n") := by
  obtain ⟨d, outgoing, hd, hresult, hrecords⟩ :=
    @Graph.drawProgram_spec settings {} statements hfree
  obtain ⟨ending, hending, hperm⟩ :=
    @Graph.perm_leads_drawProgram settings statements {} hfree rfl
  obtain rfl : (⟨outgoing, terminalNodes settings outgoing⟩ : Ending) = ending :=
    Except.ok.inj (hresult.symm.trans hending)
  have hends : ∀ v ∈ (Graph.leads (drawProgram settings (.block statements)).graph outgoing),
      v.source ∈ (List.range (Statement.block statements).size).map (numberedId "n") ∧
      ∀ t, v.target = some t →
        t ∈ (List.range (Statement.block statements).size).map (numberedId "n") := by
    intro v hv
    exact Statement.ends_of_mem_named_ways (hperm.mem_iff.1 hv)
  have hnodup : ((List.range (Statement.block statements).size).map (numberedId "n")).Nodup :=
    List.nodup_range.map (numberedId_injective "n")
  -- first the statements are declared, and no later record mentions any other node
  have hdeclared : (drawProgram settings (.block statements)).graph.declarations.map Node.id =
      (List.range (Statement.block statements).size).map (numberedId "n") ++
        (terminalNodes settings outgoing).map Node.id := by
    have hnodes := Statement.map_id_nodes settings "n" 0 (.block statements)
    rw [← List.range_eq_range'] at hnodes
    rw [drawProgram, Graph.declarations_eq_declarationsIn, hrecords]
    simp [hd.declared, hnodes]
  -- terminals and ends of connections are ends of ways, and these are statements
  have hterminals : (terminalNodes settings outgoing).map Node.id ⊆
      (List.range (Statement.block statements).size).map (numberedId "n") := by
    intro id hid
    obtain ⟨e, he, rfl⟩ := List.mem_map.1 (map_id_terminalNodes_subset settings outgoing hid)
    exact (hends _ (List.mem_append_right _ (List.mem_map_of_mem he))).1
  have hconnections : ((drawProgram settings (.block statements)).graph.connections.flatMap
      fun c => [c.source, c.target]) ⊆
      (List.range (Statement.block statements).size).map (numberedId "n") := by
    intro id hid
    obtain ⟨c, hc, hid⟩ := List.mem_flatMap.1 hid
    obtain ⟨hsource, htarget⟩ := hends _ (List.mem_append_left _ (List.mem_map_of_mem hc))
    simp only [List.mem_cons, List.not_mem_nil, or_false] at hid
    rcases hid with rfl | rfl
    · exact hsource
    · exact htarget _ rfl
  have hnames : ((List.range (Statement.block statements).size).map (numberedId "n")).foldl
      withKey [] = (List.range (Statement.block statements).size).map (numberedId "n") :=
    foldl_withKey_of_nodup hnodup
  rw [Graph.ids_toMultigraph, hdeclared, List.foldl_append, hnames,
    foldl_withKey_of_subset hterminals, foldl_withKey_of_subset hconnections]

/-- The successors in the multigraph of a drawn program are the targets of its ways. -/
theorem mem_successors_drawProgram (hfree : (Statement.block statements).holeFree = true)
    {a b : String} :
    b ∈ (drawProgram settings (.block statements)).graph.toMultigraph.successors a ↔
      ∃ w ∈ (Statement.block statements).ways settings 0 none,
        numberedId "n" w.source = a ∧ ∃ t, w.target = some t ∧ numberedId "n" t = b := by
  obtain ⟨ending, -, hperm⟩ :=
    @Graph.perm_leads_drawProgram settings statements {} hfree rfl
  rw [Graph.mem_successors_toMultigraph]
  constructor
  · rintro ⟨c, hc, rfl, rfl⟩
    -- connections and loose ends together are the ways of the program
    have hway : c.way ∈ Graph.leads (drawProgram settings (.block statements)).graph ending.exits :=
      List.mem_append_left _ (List.mem_map_of_mem hc)
    obtain ⟨w, hw, hnamed⟩ := List.mem_map.1 (hperm.mem_iff.1 hway)
    obtain ⟨t, ht, hb⟩ := Option.map_eq_some_iff.1 (congrArg Way.target hnamed)
    exact ⟨w, hw, congrArg Way.source hnamed, t, ht, hb⟩
  · rintro ⟨w, hw, rfl, t, ht, rfl⟩
    have hway := hperm.mem_iff.2 (List.mem_map_of_mem hw)
    rcases List.mem_append.1 hway with hway | hway
    · obtain ⟨c, hc, hnamed⟩ := List.mem_map.1 hway
      have htarget : some c.target = w.target.map (numberedId "n") := congrArg Way.target hnamed
      rw [ht] at htarget
      exact ⟨c, hc, congrArg Way.source hnamed, Option.some.inj htarget⟩
    · -- a loose end leads nowhere
      obtain ⟨e, he, hnamed⟩ := List.mem_map.1 hway
      have htarget : none = w.target.map (numberedId "n") := congrArg Way.target hnamed
      rw [ht] at htarget
      cases htarget

end Flowchart
