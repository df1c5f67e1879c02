import Mathlib.Data.List.Infix
import Mathlib.Data.List.Nodup
import Flowchart.Chart.Summary
import Flowchart.Proofs.Exported
import Flowchart.Proofs.Layout

/-!
# The Terminals of a Drawn Program

When a program was drawn, the nodes that it can run off its end at are declared once more, in
the color and with the pen of terminals.  A node may be left by several loose ends, and they
may lie far apart; it is marked once, where the first of them stands.

The marks are exact (`Graph.Marks`): these nodes are marked and no others, what was said of
them before stays, and the figures of the chart count them.

Main statement: `drawProgram_marks_terminals`.
-/

namespace Flowchart

variable {settings : Settings} {statements : List Statement} {exits : List LooseEnd}

/-! ## §1 Nodes that say what they are -/

/-- The node of a statement says its text and its shape. -/
theorem Statement.exists_of_mem_nodes {stem : String} {number : Nat} {s : Statement} {n : Node}
    (h : n ∈ s.nodes settings stem number) :
    ∃ text shape, n.attributes.entries = [.label text, .shape shape] := by
  obtain ⟨⟨part, i⟩, -, rfl⟩ := List.mem_map.1 h
  exact ⟨part.caption settings, part.nodeShape, rfl⟩

/-- Each node of a statement has a name of its own. -/
theorem Statement.nodup_map_id_nodes (stem : String) (number : Nat) (s : Statement) :
    ((s.nodes settings stem number).map Node.id).Nodup := by
  rw [map_id_nodes]
  exact (List.nodup_range').map (numberedId_injective stem)

/-- What is said of a node with a text and a shape when it is marked. -/
theorem entries_withAttributes {n : Node} {text color : String} {shape : Shape} {width : Int}
    (h : n.attributes.entries = [.label text, .shape shape]) :
    (n.withAttributes [.color color, .penWidth width]).attributes.entries =
      n.attributes.entries ++ [.color color, .penWidth width] := by
  obtain ⟨id, entries, hdistinct⟩ := n
  obtain rfl : entries = _ := h
  rfl

/-! ## §2 Terminals -/

/-- The terminals are the nodes that loose ends leave. -/
theorem mem_map_id_terminalNodes {id : String} :
    id ∈ (terminalNodes settings exits).map Node.id ↔ ∃ e ∈ exits, e.source.id = id := by
  rw [map_id_terminalNodes, mem_map_firstOccurrences, List.map_map, List.mem_map]
  rfl

theorem nodup_map_id_terminalNodes : ((terminalNodes settings exits).map Node.id).Nodup := by
  rw [map_id_terminalNodes]
  exact nodup_firstOccurrences Node.id _

/-- They stand in the order in which they are left. -/
theorem pairwise_terminalNodes :
    (terminalNodes settings exits).Pairwise fun t u =>
      (exits.map fun e => e.source.id).idxOf t.id <
        (exits.map fun e => e.source.id).idxOf u.id := by
  have hpairwise := pairwise_idxOf_firstOccurrences Node.id (exits.map LooseEnd.source)
  rw [List.map_map] at hpairwise
  exact List.pairwise_map.2 hpairwise

theorem exists_of_mem_terminalNodes {t : Node} (h : t ∈ terminalNodes settings exits) :
    ∃ e ∈ exits, t = e.source.withAttributes
      [.color settings.terminalColor, .penWidth settings.terminalPenWidth] := by
  obtain ⟨n, hn, rfl⟩ := List.mem_map.1 h
  obtain ⟨e, he, rfl⟩ := List.mem_map.1 ((firstOccurrences_sublist Node.id _).subset hn)
  exact ⟨e, he, rfl⟩

/-! ## §3 Marked charts -/

/-- In a chart whose program ends as `ending` says, the nodes that the loose ends leave are
    marked, and no others. -/
structure Graph.Marks (settings : Settings) (g : Graph) (ending : Ending) : Prop where
  /-- The terminals are declared last. -/
  last : ending.terminals.map .node <:+ g.records
  /-- They are the nodes that loose ends leave. -/
  sources : ∀ id, id ∈ ending.terminals.map Node.id ↔ ∃ e ∈ ending.exits, e.source.id = id
  /-- Each is declared once, where the first of these ends stands. -/
  order : ending.terminals.Pairwise fun t u =>
    (ending.exits.map fun e => e.source.id).idxOf t.id <
      (ending.exits.map fun e => e.source.id).idxOf u.id
  /-- A terminal says the text and the shape that were first said of it, and then its marks. -/
  marked : ∀ t ∈ ending.terminals, ∃ n text shape,
    g.declarations.find? (·.id == t.id) = some n ∧
      n.attributes.entries = [.label text, .shape shape] ∧
      t.attributes.entries = [.label text, .shape shape, .color settings.terminalColor,
        .penWidth settings.terminalPenWidth]
  /-- Any other node is declared once, without marks. -/
  unmarked : ∀ id ∈ g.toMultigraph.ids, (∀ e ∈ ending.exits, e.source.id ≠ id) →
    ∃ n, g.declarations.filter (·.id == id) = [n] ∧
      n.attributes.contains .color = false ∧ n.attributes.contains .penWidth = false
  /-- The figures of the chart count the terminals. -/
  counted : g.summary.terminals = ending.terminals.length

/-- **Who counts the nodes in color counts the terminals**, if they alone are declared in
    color. -/
theorem Graph.terminals_summary {g : Graph} {terminals : List Node}
    (hnodup : (terminals.map Node.id).Nodup)
    (hcolor : ∀ id, (∃ n ∈ g.declarations, n.id = id ∧ n.attributes.contains .color = true) ↔
      id ∈ terminals.map Node.id) :
    g.summary.terminals = terminals.length := by
  -- the nodes in color have different names, since all nodes have
  have hcolored : ((g.toMultigraph.vertices.filter fun v =>
      v.attributes.contains .color).map Vertex.id).Nodup :=
    g.nodup_ids_toMultigraph.sublist (List.filter_sublist.map Vertex.id)
  -- both lists have no repetitions and the same members
  have hperm : ((g.toMultigraph.vertices.filter fun v =>
      v.attributes.contains .color).map Vertex.id).Perm (terminals.map Node.id) := by
    rw [List.perm_ext_iff_of_nodup hcolored hnodup]
    intro id
    rw [← hcolor, ← exists_vertex_says_iff, List.mem_map]
    constructor
    · rintro ⟨v, hv, rfl⟩
      obtain ⟨hv, hsays⟩ := List.mem_filter.1 hv
      exact ⟨v, hv, rfl, hsays⟩
    · rintro ⟨v, hv, rfl, hsays⟩
      exact ⟨v, List.mem_filter.2 ⟨hv, hsays⟩, rfl⟩
  have hlength := hperm.length_eq
  rw [List.length_map, List.length_map] at hlength
  rw [← hlength, ← List.countP_eq_length_filter]
  rfl

/-! ## §4 Drawn programs -/

/-- The loose ends that leave a program. -/
abbrev programExits (settings : Settings) (statements : List Statement) : List LooseEnd :=
  (Statement.block statements).leaving settings "n" 0 []

/-- The nodes of a program. -/
abbrev programNodes (settings : Settings) (statements : List Statement) : List Node :=
  (Statement.block statements).nodes settings "n" 0

theorem source_mem_programNodes (hfree : (Statement.block statements).holeFree = true)
    {e : LooseEnd} (he : e ∈ programExits settings statements) :
    e.source ∈ programNodes settings statements := by
  rcases Statement.source_of_mem_leaving hfree he with hnone | hsource
  · cases hnone
  · exact hsource

/-- A program is declared statement by statement, and then the terminals once more. -/
theorem declarations_drawProgram (hfree : (Statement.block statements).holeFree = true) :
    (drawProgram settings (.block statements)).graph.declarations =
      programNodes settings statements ++
        terminalNodes settings (programExits settings statements) := by
  have hdeclared := (Statement.draws settings "n" hfree 0 []).declared
  have hrecords := (@Graph.layout_drawProgram settings statements {} hfree).2
  rw [drawProgram, Graph.declarations_eq_declarationsIn, hrecords]
  simp [Statement.drawn, hdeclared]

/-- **Only terminals are declared in color.** -/
theorem declared_in_color_iff (hfree : (Statement.block statements).holeFree = true)
    (id : String) :
    (∃ n ∈ (drawProgram settings (.block statements)).graph.declarations,
        n.id = id ∧ n.attributes.contains .color = true) ↔
      id ∈ (terminalNodes settings (programExits settings statements)).map Node.id := by
  rw [declarations_drawProgram hfree]
  constructor
  · rintro ⟨n, hn, rfl, hcolor⟩
    rcases List.mem_append.1 hn with hn | hn
    · obtain ⟨text, shape, hentries⟩ := Statement.exists_of_mem_nodes hn
      -- a statement is declared with a text and a shape, and no color
      simp [AttributeSet.contains, hentries, Attribute.kind] at hcolor
    · exact List.mem_map_of_mem hn
  · intro hid
    obtain ⟨t, ht, rfl⟩ := List.mem_map.1 hid
    -- a terminal is the node of a statement with two more attributes
    obtain ⟨e, he, rfl⟩ := exists_of_mem_terminalNodes ht
    obtain ⟨text, shape, hentries⟩ :=
      Statement.exists_of_mem_nodes (source_mem_programNodes hfree he)
    refine ⟨_, List.mem_append_right _ ht, rfl, ?_⟩
    rw [AttributeSet.contains, entries_withAttributes hentries]
    simp [Attribute.kind]

/-- A terminal is declared anew with all that was said of it. -/
theorem exists_first_declaration (hfree : (Statement.block statements).holeFree = true) {t : Node}
    (ht : t ∈ terminalNodes settings (programExits settings statements)) :
    ∃ n text shape,
      (drawProgram settings (.block statements)).graph.declarations.find? (·.id == t.id) = some n ∧
        n.attributes.entries = [.label text, .shape shape] ∧
        t.attributes.entries = [.label text, .shape shape, .color settings.terminalColor,
          .penWidth settings.terminalPenWidth] := by
  obtain ⟨e, he, rfl⟩ := exists_of_mem_terminalNodes ht
  have hsource := source_mem_programNodes hfree he
  obtain ⟨text, shape, hentries⟩ := Statement.exists_of_mem_nodes hsource
  -- its statement is declared before all terminals, and has a name of its own
  have hfirst : (programNodes settings statements).find? (·.id == e.source.id) = some e.source :=
    find?_key_of_mem Node.id (Statement.nodup_map_id_nodes "n" 0 _) hsource
  refine ⟨e.source, text, shape, ?_, hentries, ?_⟩
  · rw [declarations_drawProgram hfree, List.find?_append]
    change ((programNodes settings statements).find? (·.id == e.source.id)).or _ = _
    rw [hfirst]
    rfl
  · rw [entries_withAttributes hentries, hentries]
    rfl

/-- A node that no loose end leaves is declared once, and says no more than its text and its
    shape. -/
theorem exists_only_declaration (hfree : (Statement.block statements).holeFree = true)
    {id : String} (hid : id ∈ (drawProgram settings (.block statements)).graph.toMultigraph.ids)
    (hkept : ∀ e ∈ programExits settings statements, e.source.id ≠ id) :
    ∃ n text shape,
      (drawProgram settings (.block statements)).graph.declarations.filter (·.id == id) = [n] ∧
        n.attributes.entries = [.label text, .shape shape] := by
  rw [ids_drawProgram hfree, List.range_eq_range', ← Statement.map_id_nodes settings "n" 0] at hid
  obtain ⟨n, hn, rfl⟩ := List.mem_map.1 hid
  obtain ⟨text, shape, hentries⟩ := Statement.exists_of_mem_nodes hn
  -- no terminal has this name, for each is left by a loose end
  have hterminals :
      (terminalNodes settings (programExits settings statements)).filter (·.id == n.id) = [] := by
    rw [List.filter_eq_nil_iff]
    intro t ht hsame
    obtain ⟨e, he, heq⟩ := mem_map_id_terminalNodes.1 (List.mem_map_of_mem ht)
    exact hkept e he (heq.trans (eq_of_beq hsame))
  refine ⟨n, text, shape, ?_, hentries⟩
  rw [declarations_drawProgram hfree, List.filter_append, hterminals, List.append_nil]
  exact filter_key_of_mem Node.id (Statement.nodup_map_id_nodes "n" 0 _) hn

/-- **A drawn program marks its terminals, each once, and no other node.** -/
theorem drawProgram_marks_terminals (settings : Settings) {statements : List Statement}
    (hfree : (Statement.block statements).holeFree = true) :
    ∃ ending, (drawProgram settings (.block statements)).result = .ok ending ∧
      (drawProgram settings (.block statements)).graph.Marks settings ending := by
  obtain ⟨hresult, hrecords⟩ := @Graph.layout_drawProgram settings statements {} hfree
  refine ⟨_, hresult, ?_⟩
  constructor
  case last =>
    rw [drawProgram, hrecords]
    exact List.suffix_append _ _
  case sources =>
    intro id
    exact mem_map_id_terminalNodes
  case order => exact pairwise_terminalNodes
  case marked =>
    intro t ht
    exact exists_first_declaration hfree ht
  case unmarked =>
    intro id hid hkept
    obtain ⟨n, text, shape, hone, hentries⟩ := exists_only_declaration hfree hid hkept
    refine ⟨n, hone, ?_, ?_⟩ <;> simp [AttributeSet.contains, hentries, Attribute.kind]
  case counted =>
    exact Graph.terminals_summary nodup_map_id_terminalNodes (declared_in_color_iff hfree)

/-- A branch with nothing in it, inside a branch: three loose ends, two of them from one
    node. -/
theorem marks_of_nested_branch :
    ∃ ending, (drawProgram {} (.block [.ifThen "a" [.ifThen "b" []]])).result = .ok ending ∧
      (ending.exits.map fun e => e.source.id) = ["n1", "n1", "n0"] ∧
      ending.terminals.map Node.id = ["n1", "n0"] ∧
      (drawProgram {} (.block [.ifThen "a" [.ifThen "b" []]])).graph.summary.terminals = 2 := by
  obtain ⟨ending, hresult, hmarks⟩ :=
    @drawProgram_marks_terminals {} [.ifThen "a" [.ifThen "b" []]] (by decide)
  obtain rfl : ending = ⟨_, _⟩ := (Except.ok.inj hresult).symm
  exact ⟨_, hresult, by decide +kernel, by decide +kernel, hmarks.counted⟩

end Flowchart
