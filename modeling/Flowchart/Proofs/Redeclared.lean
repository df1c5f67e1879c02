import Flowchart.Proofs.Exported
import Flowchart.Proofs.FirstWords
import Flowchart.Proofs.Terminals

/-!
# Nodes That Are Declared Again

A node may be declared many times.  Its last declaration can be asked for, and the multigraph
of the chart has attributes for it as well.  The two agree on everything that the last
declaration says, but the multigraph also keeps what only earlier declarations said:

* on each matter it says what the last declaration that speaks on it says
  (`Graph.get?_attributesOf_toMultigraph`);
* so it says the same as the last declaration just if that one is silent on nothing that an
  earlier one spoke on (`Graph.sameAs_final_iff`);
* that is so if nodes are only ever declared again from their latest declarations
  (`Graph.BuiltBy.grown`), and in the chart of a program (`keepsWords_drawProgram`); it fails
  where a node is declared again from an older declaration.

Main statement: `export_has_last_words`.
-/

namespace Flowchart

/-! ## §1 What is said anew -/

namespace AttributeSet

variable {kind : AttributeKind}

/-- An attribute that is put into a set has the word on its own kind, and on no other. -/
theorem get?_replace (s : AttributeSet) (a : Attribute) :
    (s.replace a).get? kind = if a.kind = kind then some a else s.get? kind := by
  rw [get?, entries_replace]
  split
  case isTrue hcontains =>
    -- an attribute in the place of another one is of the same kind
    have hkind : ((fun b : Attribute => decide (b.kind = kind)) ∘
        fun b => if b.kind = a.kind then a else b) = fun b => decide (b.kind = kind) := by
      funext b
      by_cases hb : b.kind = a.kind <;> simp [hb]
    rw [List.find?_map, hkind]
    show (s.get? kind).map _ = _
    cases hget : s.get? kind with
    | none =>
      -- the set has none of this kind, but it has one of the kind of the attribute
      have hne : a.kind ≠ kind := by
        rintro rfl
        rw [← isSome_get?, hget] at hcontains
        cases hcontains
      rw [if_neg hne]
      rfl
    | some b =>
      obtain ⟨-, rfl⟩ := get?_eq_some_iff.1 hget
      rw [Option.map_some]
      simp only [eq_comm (a := a.kind)]
      split <;> rfl
  case isFalse hcontains =>
    rw [List.find?_append]
    show (s.get? kind).or _ = _
    by_cases ha : a.kind = kind
    · -- the attribute goes to the end, where it is found if no other of its kind comes first
      have hnone : s.get? kind = none := by
        rw [← Option.isNone_iff_eq_none, ← Option.not_isSome, isSome_get?, ← ha]
        simpa using hcontains
      simp [hnone, ha]
    · simp [ha]

/-- **On each matter a later set has the last word**, if it speaks on it. -/
theorem get?_override (s later : AttributeSet) :
    (s.override later).get? kind = (later.get? kind).or (s.get? kind) := by
  obtain ⟨entries, hdistinct⟩ := later
  rw [override, get?]
  show (entries.foldl replace s).get? kind = (entries.find? _).or _
  -- by induction on the later attributes, for whatever the earlier ones have become
  induction entries generalizing s with
  | nil => rfl
  | cons a entries ih =>
    obtain ⟨ha, hentries⟩ := List.nodup_cons.1 hdistinct
    rw [List.foldl_cons, ih _ hentries, get?_replace, List.find?_cons]
    by_cases hkind : a.kind = kind
    · -- none of the others is of this kind
      have hnone : entries.find? (fun b => decide (b.kind = kind)) = none :=
        find?_key_of_notMem Attribute.kind (hkind ▸ ha)
      simp [hkind, hnone]
    · simp [hkind]

/-- Further attributes take nothing away. -/
theorem contains_layered {s : AttributeSet} (attributes : List Attribute)
    (h : s.contains kind = true) : (s.layered attributes).contains kind = true := by
  rw [contains_iff, entries_layered, mem_map_firstOccurrences, List.map_append, List.mem_append]
  exact .inl (contains_iff.1 h)

end AttributeSet

/-! ## §2 The last word on a matter -/

/-- What a declaration says of a node on some matter; nothing if it declares another one. -/
def Node.wordOn (n : Node) (id : String) (kind : AttributeKind) : Option Attribute :=
  if n.id = id then n.attributes.get? kind else none

/-- What the last declaration of a node that speaks on some matter says on it. -/
def Graph.lastWord? (g : Graph) (id : String) (kind : AttributeKind) : Option Attribute :=
  g.declarations.reverse.findSome? fun n => n.wordOn id kind

namespace Multigraph

variable {a : String} {kind : AttributeKind}

/-- A declaration has the word on what it speaks on. -/
theorem get?_attributesOf_declare (g : Multigraph) (n : Node) :
    ((g.declare n).attributesOf a).get? kind =
      (n.wordOn a kind).or ((g.attributesOf a).get? kind) := by
  unfold attributesOf
  rw [find?_declare, Node.wordOn]
  by_cases ha : n.id = a
  · subst ha
    rw [if_pos rfl, if_pos rfl]
    cases g.vertices.find? (·.id == n.id) with
    | none => exact Option.or_none.symm
    | some v => exact v.attributes.get?_override n.attributes
  · rw [if_neg ha, if_neg (Ne.symm ha), Option.none_or]

/-- Of many declarations the last that speaks on a matter has the word. -/
theorem get?_attributesOf_foldl_declare (declarations : List Node) (g : Multigraph) :
    ((declarations.foldl declare g).attributesOf a).get? kind =
      (declarations.reverse.findSome? fun n => n.wordOn a kind).or
        ((g.attributesOf a).get? kind) := by
  induction declarations generalizing g with
  | nil => rfl
  | cons n declarations ih =>
    rw [List.foldl_cons, ih, get?_attributesOf_declare, List.reverse_cons, List.findSome?_append,
      Option.or_assoc]
    congr 2
    exact (List.findSome?_singleton).symm

end Multigraph

namespace Graph

variable {g : Graph} {id : String} {last : Node} {kind : AttributeKind}

/-- **The multigraph of a chart says the last word on each matter.** -/
theorem get?_attributesOf_toMultigraph (g : Graph) (id : String) (kind : AttributeKind) :
    (g.toMultigraph.attributesOf id).get? kind = g.lastWord? id kind := by
  rw [toMultigraph, Multigraph.attributesOf_foldl_connect,
    Multigraph.get?_attributesOf_foldl_declare]
  exact Option.or_none

/-! ## §3 The last declaration -/

/-- A node has a last declaration just if it is declared at all. -/
theorem exists_finalDeclaration?_iff :
    (∃ last, g.finalDeclaration? id = some last) ↔ id ∈ g.nodeIds := by
  rw [← Option.isSome_iff_exists, finalDeclaration?, List.find?_isSome, nodeIds,
    mem_map_firstOccurrences]
  simp [List.mem_map]

/-- A declared node has one place in the multigraph. -/
theorem exists_vertex_of_mem_nodeIds (hid : id ∈ g.nodeIds) :
    ∃ v, g.toMultigraph.vertices.filter (·.id == id) = [v] ∧
      g.toMultigraph.attributesOf id = v.attributes := by
  have hmem : id ∈ g.toMultigraph.ids := by
    rw [nodeIds, mem_map_firstOccurrences] at hid
    rw [ids_toMultigraph, mem_foldl_withKey, mem_foldl_withKey]
    exact .inl (.inr hid)
  obtain ⟨v, hv, rfl⟩ := List.mem_map.1 hmem
  refine ⟨v, filter_key_of_mem Vertex.id g.nodup_ids_toMultigraph hv, ?_⟩
  rw [Multigraph.attributesOf, find?_key_of_mem Vertex.id g.nodup_ids_toMultigraph hv]
  rfl

/-- What the last declaration of a node speaks on is settled by it. -/
theorem lastWord?_of_contains (hlast : g.finalDeclaration? id = some last)
    (hkind : last.attributes.contains kind = true) :
    g.lastWord? id kind = last.attributes.get? kind := by
  obtain ⟨hid, later, earlier, hsplit, hlater⟩ := List.find?_eq_some_iff_append.1 hlast
  have hid : last.id = id := by simpa using hid
  -- the later declarations are of other nodes
  have hnone : (later.findSome? fun n => n.wordOn id kind) = none := by
    rw [List.findSome?_eq_none_iff]
    intro n hn
    exact if_neg (by simpa using hlater n hn)
  have hword : last.wordOn id kind = last.attributes.get? kind := if_pos hid
  obtain ⟨a, ha⟩ := Option.isSome_iff_exists.1 (AttributeSet.isSome_get?.trans hkind)
  rw [lastWord?, hsplit, List.findSome?_append, hnone, Option.none_or, List.findSome?_cons, hword,
    ha]

/-- The last declaration of a node speaks on every matter that any declaration spoke on. -/
def KeepsWords (g : Graph) (id : String) : Prop :=
  ∀ last, g.finalDeclaration? id = some last → ∀ n ∈ g.declarations, n.id = id →
    ∀ kind, n.attributes.contains kind = true → last.attributes.contains kind = true

/-- **The multigraph says of a node what its last declaration says, just if that one is silent
    on nothing that was spoken on before.** -/
theorem sameAs_final_iff (hlast : g.finalDeclaration? id = some last) :
    (g.toMultigraph.attributesOf id).sameAs last.attributes = true ↔ g.KeepsWords id := by
  rw [AttributeSet.sameAs_iff_get?]
  constructor
  · intro hsame last' hlast' n hn hid kind hkind
    -- what any declaration spoke on, the multigraph speaks on
    obtain rfl : last = last' := Option.some.inj (hlast.symm.trans hlast')
    rw [← AttributeSet.isSome_get?, ← hsame, AttributeSet.isSome_get?]
    exact contains_attributesOf_toMultigraph.2 ⟨n, hn, hid, hkind⟩
  · intro hkeeps kind
    by_cases hkind : last.attributes.contains kind = true
    · rw [get?_attributesOf_toMultigraph, lastWord?_of_contains hlast hkind]
    · -- what the last declaration is silent on, no other one spoke on
      have hsilent : ¬(g.toMultigraph.attributesOf id).contains kind = true := by
        rw [contains_attributesOf_toMultigraph]
        rintro ⟨n, hn, hid, hspoken⟩
        exact hkind (hkeeps last hlast n hn hid kind hspoken)
      rw [← AttributeSet.isSome_get?, Option.not_isSome_iff_eq_none] at hkind hsilent
      rw [hkind, hsilent]

/-! ## §4 Charts that are built up -/

/-- A chart that was built up from nothing: nodes were created, connected, and declared again
    from nodes that `mayRestyle` allows at the time. -/
inductive BuiltBy (mayRestyle : Graph → Node → Prop) : Graph → Prop
  | start (stem : String) : BuiltBy mayRestyle { stem := stem }
  | create {g : Graph} (attributes : List Attribute) (h : BuiltBy mayRestyle g) :
      BuiltBy mayRestyle (g.createNode attributes).2
  | connect {g : Graph} (e : LooseEnd) (target : Node) (h : BuiltBy mayRestyle g) :
      BuiltBy mayRestyle (g.connect e target).2
  | restyle {g : Graph} {node : Node} (attributes : List Attribute) (h : BuiltBy mayRestyle g)
      (hnode : mayRestyle g node) : BuiltBy mayRestyle (g.restyle node attributes).2

/-- The node was obtained before, when it was created or declared again. -/
def Obtained (g : Graph) (node : Node) : Prop :=
  node ∈ g.declarations

/-- The node was not declared again since it was obtained. -/
def Latest (g : Graph) (node : Node) : Prop :=
  g.finalDeclaration? node.id = some node

instance (g : Graph) (node : Node) : Decidable (g.Obtained node) :=
  inferInstanceAs (Decidable (_ ∈ _))

instance (g : Graph) (node : Node) : Decidable (g.Latest node) :=
  inferInstanceAs (Decidable (_ = _))

theorem declarations_append (g : Graph) (records : List Record) :
    (g.append records).declarations = g.declarations ++ records.filterMap Record.node? :=
  List.filterMap_append

theorem finalDeclaration?_append_node (g : Graph) (n : Node) :
    (g.append [.node n]).finalDeclaration? id =
      if n.id = id then some n else g.finalDeclaration? id := by
  have hreverse : (g.append [.node n]).declarations.reverse = n :: g.declarations.reverse := by
    rw [declarations_append, List.reverse_append]
    rfl
  rw [finalDeclaration?, hreverse, List.find?_cons]
  by_cases hid : n.id = id <;> simp [hid, finalDeclaration?]

/-- A further declaration that is silent on nothing keeps what was said. -/
theorem keepsWords_append_node {n : Node} (h : ∀ id, g.KeepsWords id)
    (hn : ∀ m ∈ g.declarations, m.id = n.id →
      ∀ kind, m.attributes.contains kind = true → n.attributes.contains kind = true) :
    ∀ id, (g.append [.node n]).KeepsWords id := by
  intro id last hlast m hm hid kind hkind
  rw [declarations_append, List.mem_append] at hm
  rw [finalDeclaration?_append_node] at hlast
  split at hlast
  case isTrue hnew =>
    obtain rfl := Option.some.inj hlast
    rcases hm with hm | hm
    · exact hn m hm (hid.trans hnew.symm) kind hkind
    · obtain rfl : m = n := List.mem_singleton.1 hm
      exact hkind
  case isFalse hold =>
    rcases hm with hm | hm
    · exact h id last hlast m hm hid kind hkind
    · -- the node in question was not declared again
      obtain rfl : m = n := List.mem_singleton.1 hm
      exact absurd hid hold

/-- All nodes have names that the chart gave, and each keeps what it said. -/
structure Grown (g : Graph) : Prop where
  named : ∀ n ∈ g.declarations, ∃ number < g.nextNumber, n.id = numberedId g.stem number
  kept : ∀ id, g.KeepsWords id

theorem Grown.create (h : g.Grown) (attributes : List Attribute) :
    (g.createNode attributes).2.Grown where
  named := by
    intro n hn
    rcases List.mem_append.1 (declarations_append { g with nextNumber := g.nextNumber + 1 } _ ▸ hn)
      with hn | hn
    · obtain ⟨number, hlt, hid⟩ := h.named n hn
      exact ⟨number, Nat.lt_succ_of_lt hlt, hid⟩
    · obtain rfl := List.mem_singleton.1 hn
      exact ⟨g.nextNumber, Nat.lt_succ_self _, rfl⟩
  kept := by
    apply keepsWords_append_node (g := { g with nextNumber := g.nextNumber + 1 }) h.kept
    -- the name is new
    intro m hm hid
    obtain ⟨number, hlt, hnumber⟩ := h.named m hm
    have heq : number = g.nextNumber := numberedId_injective g.stem (hnumber.symm.trans hid)
    omega

theorem Grown.connect (h : g.Grown) (e : LooseEnd) (target : Node) :
    (g.connect e target).2.Grown := by
  have hsame : (g.connect e target).2.declarations = g.declarations := by
    rw [Graph.connect, declarations_append]
    exact List.append_nil _
  constructor
  · rw [hsame]
    exact h.named
  · intro id
    rw [KeepsWords, finalDeclaration?, hsame]
    exact h.kept id

theorem Grown.restyle {node : Node} (h : g.Grown) (hnode : g.Latest node)
    (attributes : List Attribute) : (g.restyle node attributes).2.Grown where
  named := by
    intro n hn
    rcases List.mem_append.1 (declarations_append g _ ▸ hn) with hn | hn
    · exact h.named n hn
    · obtain rfl := List.mem_singleton.1 hn
      exact h.named node (List.mem_reverse.1 (List.mem_of_find?_eq_some hnode))
  kept := by
    apply keepsWords_append_node h.kept
    intro m hm hid kind hkind
    exact AttributeSet.contains_layered attributes (h.kept _ node hnode m hm hid kind hkind)

/-- **Nothing is dropped where nodes are declared again from their latest declarations.** -/
theorem BuiltBy.grown (h : g.BuiltBy Latest) : g.Grown := by
  induction h with
  | start stem => exact ⟨by simp [declarations], by simp [KeepsWords, declarations]⟩
  | create attributes _ ih => exact ih.create attributes
  | connect e target _ ih => exact ih.connect e target
  | restyle attributes _ hnode ih => exact ih.restyle hnode attributes

end Graph

/-! ## §5 Drawn programs -/

/-- **The chart of a program drops nothing**: a terminal speaks on all there is to say, and any
    other node is declared once. -/
theorem keepsWords_drawProgram {settings : Settings} {statements : List Statement}
    (hfree : (Statement.block statements).holeFree = true) (id : String) :
    (drawProgram settings (.block statements)).graph.KeepsWords id := by
  intro last hlast n hn hid kind hkind
  rw [Graph.finalDeclaration?, declarations_drawProgram hfree, List.reverse_append,
    List.find?_append] at hlast
  rw [declarations_drawProgram hfree, List.mem_append] at hn
  cases hterminal : (terminalNodes settings (programExits settings statements)).reverse.find?
      fun t => t.id = id with
  | some t =>
    rw [hterminal, Option.some_or] at hlast
    -- the node is a terminal, and its last declaration marks it
    obtain rfl := Option.some.inj hlast
    have ht := List.mem_reverse.1 (List.mem_of_find?_eq_some hterminal)
    obtain ⟨_, text, shape, -, -, hentries⟩ := exists_first_declaration hfree ht
    rw [AttributeSet.contains, hentries]
    cases kind <;> simp [Attribute.kind]
  | none =>
    rw [hterminal, Option.none_or] at hlast
    -- no terminal has the name, so its only declaration is that of its statement
    have hlastNode := List.mem_reverse.1 (List.mem_of_find?_eq_some hlast)
    have hlastId : last.id = id := by simpa using List.find?_some hlast
    rcases hn with hn | hn
    · have hsame : n = last := List.inj_on_of_nodup_map
        (Statement.nodup_map_id_nodes "n" 0 _) hn hlastNode (hid.trans hlastId.symm)
      rwa [← hsame]
    · simpa [hid] using List.find?_eq_none.1 hterminal n (List.mem_reverse.2 hn)

/-! ## §6 Every chart -/

/-- **The multigraph of a chart has the last word on each matter, and not just the words of the
    last declaration.**  Let a node be declared in a chart, maybe many times.

    * Its last declaration and its attributes in the multigraph can be read, and on each matter
      the multigraph says what the last declaration that speaks on it says.
    * The two agree on all that the last declaration speaks on.
    * They say the same just if that one speaks on all that an earlier one spoke on.
    * That is so in a chart whose nodes are only declared again from their latest declarations,
      and in the chart of a program. -/
theorem export_has_last_words (g : Graph) (id : String) (hid : id ∈ g.nodeIds) :
    ∃ last v, g.finalDeclaration? id = some last ∧
      g.toMultigraph.vertices.filter (·.id == id) = [v] ∧
      (∀ kind, v.attributes.get? kind = g.lastWord? id kind) ∧
      (∀ kind, last.attributes.contains kind = true →
        v.attributes.get? kind = last.attributes.get? kind) ∧
      (v.attributes.sameAs last.attributes = true ↔ g.KeepsWords id) ∧
      (g.BuiltBy Graph.Latest → v.attributes.sameAs last.attributes = true) ∧
      (∀ settings statements, (Statement.block statements).holeFree = true →
        g = (drawProgram settings (.block statements)).graph →
        v.attributes.sameAs last.attributes = true) := by
  obtain ⟨last, hlast⟩ := Graph.exists_finalDeclaration?_iff.2 hid
  obtain ⟨v, hv, hattributes⟩ := Graph.exists_vertex_of_mem_nodeIds hid
  have hsame := Graph.sameAs_final_iff hlast
  rw [hattributes] at hsame
  have hword : ∀ kind, v.attributes.get? kind = g.lastWord? id kind := by
    intro kind
    rw [← hattributes, Graph.get?_attributesOf_toMultigraph]
  refine ⟨last, v, hlast, hv, hword, ?_, hsame, ?_, ?_⟩
  · intro kind hkind
    rw [hword, Graph.lastWord?_of_contains hlast hkind]
  · intro hbuilt
    exact hsame.2 (hbuilt.grown.kept id)
  · rintro settings statements hfree rfl
    exact hsame.2 (keepsWords_drawProgram hfree id)

/-- A node that is declared again in color, and then from `second` with a wide border. -/
def restyledTwice (second : Node → Node → Node) : Graph :=
  let (node, g) := ({} : Graph).createNode [.label "a"]
  let (colored, g) := g.restyle node [.color "red"]
  (g.restyle (second node colored) [.penWidth 3]).2

/-- Declared again from its latest declaration each time, the node is in color to the end. -/
theorem export_of_node_restyled_in_turn :
    "n0" ∈ (restyledTwice fun _ colored => colored).nodeIds ∧
      ∃ last v, (restyledTwice fun _ colored => colored).finalDeclaration? "n0" = some last ∧
        (restyledTwice fun _ colored => colored).toMultigraph.vertices.filter (·.id == "n0") =
          [v] ∧
        v.attributes.sameAs last.attributes = true ∧ last.attributes.contains .color = true := by
  have hid : "n0" ∈ (restyledTwice fun _ colored => colored).nodeIds := by decide
  have hbuilt : (restyledTwice fun _ colored => colored).BuiltBy Graph.Latest :=
    .restyle _ (.restyle _ (.create _ (.start "n")) (by decide)) (by decide)
  obtain ⟨last, v, hlast, hv, -, -, -, hsame, -⟩ :=
    export_has_last_words (restyledTwice fun _ colored => colored) "n0" hid
  refine ⟨hid, last, v, hlast, hv, hsame hbuilt, ?_⟩
  obtain rfl := Option.some.inj hlast
  decide

/-- Declared again from its first declaration both times, the node loses its color in its last
    declaration, but not in the multigraph. -/
theorem earlier_words_outlive_last_declaration :
    (restyledTwice fun first _ => first).BuiltBy Graph.Obtained ∧
      ∃ last, (restyledTwice fun first _ => first).finalDeclaration? "n0" = some last ∧
        last.attributes.entries = [.label "a", .penWidth 3] ∧
        ((restyledTwice fun first _ => first).toMultigraph.attributesOf "n0").entries =
          [.label "a", .color "red", .penWidth 3] ∧
        ((restyledTwice fun first _ => first).toMultigraph.attributesOf "n0").sameAs
          last.attributes = false := by
  have hbuilt : (restyledTwice fun first _ => first).BuiltBy Graph.Obtained :=
    .restyle _ (.restyle _ (.create _ (.start "n")) (by decide)) (by decide)
  exact ⟨hbuilt, _, rfl, by decide, by decide, by decide⟩

end Flowchart
