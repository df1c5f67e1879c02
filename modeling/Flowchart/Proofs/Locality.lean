import Flowchart.Proofs.Exported
import Flowchart.Proofs.Layout

/-!
# Drawings Are Local

What a statement draws does not depend on what was drawn before it, nor on what enters it.
Its entry is declared first, and the loose ends are led there, whatever they are.  All else
that it draws, and the ends that leave it, are made of its own nodes, and in another chart
they are the same up to the numbers in the names.

So a drawing is fixed by two facts.  It takes note of the incoming ends in its entry only
(`Statement.drawn_eq_enter_append`), and it goes along with any renaming of the numbers
(`Statement.drawn_renamed`).

Main statement: `draw_is_local`.
-/

namespace Flowchart

/-! ## §1 Renaming -/

/-- The node under another name. -/
def Node.renamed (rename : String → String) (n : Node) : Node := { n with id := rename n.id }

/-- The loose end with its node renamed. -/
def LooseEnd.renamed (rename : String → String) (e : LooseEnd) : LooseEnd :=
  ⟨e.source.renamed rename, e.label⟩

/-- The connection with both nodes renamed. -/
def Connection.renamed (rename : String → String) (c : Connection) : Connection :=
  ⟨rename c.source, rename c.target, c.label⟩

namespace Record

/-- The record with all nodes renamed. -/
def renamed (rename : String → String) : Record → Record
  | node declaration => node (declaration.renamed rename)
  | edge connection => edge (connection.renamed rename)

end Record

/-- Take so many names from `number` on to those from `number'` on; all others stay. -/
def renumber (stem : String) (number number' count : Nat) (id : String) : String :=
  match (List.range count).find? fun i => numberedId stem (number + i) = id with
  | some i => numberedId stem (number' + i)
  | none => id

/-- `rename` takes so many names from `number` on to those from `number'` on. -/
def Renumbers (rename : String → String) (stem : String) (number number' count : Nat) : Prop :=
  ∀ i < count, rename (numberedId stem (number + i)) = numberedId stem (number' + i)

section Renaming

variable {rename : String → String} {stem : String} {number number' count : Nat}

theorem renumbers_renumber (stem : String) (number number' count : Nat) :
    Renumbers (renumber stem number number' count) stem number number' count := by
  intro i hi
  unfold renumber
  split
  · next j hj =>
    -- no other number has the name
    have hname : numberedId stem (number + j) = numberedId stem (number + i) := by
      simpa using List.find?_some hj
    obtain rfl : j = i := Nat.add_left_cancel (numberedId_inj.1 hname)
    rfl
  · next hnone =>
    have hno := List.find?_eq_none.1 hnone i (List.mem_range.2 hi)
    simp at hno

/-- A part of the names is renamed along with the others. -/
theorem Renumbers.part (h : Renumbers rename stem number number' count) (offset : Nat)
    {count' : Nat} (hle : offset + count' ≤ count) :
    Renumbers rename stem (number + offset) (number' + offset) count' := by
  intro i hi
  rw [Nat.add_assoc, Nat.add_assoc]
  exact h (offset + i) (by omega)

theorem Renumbers.mono (h : Renumbers rename stem number number' count) {count' : Nat}
    (hle : count' ≤ count) : Renumbers rename stem number number' count' :=
  fun i hi => h i (Nat.lt_of_lt_of_le hi hle)

theorem Renumbers.zero (h : Renumbers rename stem number number' count) (hpos : 0 < count) :
    rename (numberedId stem number) = numberedId stem number' :=
  h 0 hpos

/-- The node of another number is the renamed one. -/
theorem labelledNode_renamed (hname : rename (numberedId stem number) = numberedId stem number')
    (text : String) (shape : Shape) :
    labelledNode stem number' text shape =
      (labelledNode stem number text shape).renamed rename := by
  rw [labelledNode, labelledNode, Node.renamed, hname]

theorem landAll_renamed (ends : List LooseEnd) (node : Node) :
    landAll (ends.map (LooseEnd.renamed rename)) (node.renamed rename) =
      (landAll ends node).map (Record.renamed rename) := by
  rw [landAll, landAll, List.map_map, List.map_map]
  rfl

/-- To enter a renamed node by renamed ends is to rename what was written. -/
theorem enter_renamed (node : Node) (incoming : List LooseEnd) :
    enter (node.renamed rename) (incoming.map (LooseEnd.renamed rename)) =
      (enter node incoming).map (Record.renamed rename) :=
  congrArg _ (landAll_renamed incoming node)

end Renaming

namespace Statement

variable {settings : Settings} {stem : String} {number number' : Nat} {incoming : List LooseEnd}
  {rename : String → String}

/-! ## §2 Other numbers -/

/-- **A drawing goes along with a renaming** of its own nodes, and of the ends that come in. -/
theorem drawn_renamed {s : Statement} (hfree : s.holeFree = true)
    (h : Renumbers rename stem number number' s.size) (incoming : List LooseEnd) :
    s.drawn settings stem number' (incoming.map (LooseEnd.renamed rename)) =
        (s.drawn settings stem number incoming).map (Record.renamed rename) ∧
      s.leaving settings stem number' (incoming.map (LooseEnd.renamed rename)) =
        (s.leaving settings stem number incoming).map (LooseEnd.renamed rename) := by
  induction s generalizing number number' incoming with
  | step text =>
    have hnode := labelledNode_renamed (h.zero Nat.one_pos) text .rectangle
    constructor
    · rw [drawn_step, drawn_step, ← enter_renamed]
      exact congrArg (enter · _) hnode
    · exact congrArg (fun node => [(⟨node, none⟩ : LooseEnd)]) hnode
  | exit =>
    have hnode := labelledNode_renamed (h.zero Nat.one_pos) settings.exitLabel .rectangle
    refine ⟨?_, rfl⟩
    rw [drawn_exit, drawn_exit, ← enter_renamed]
    exact congrArg (enter · _) hnode
  | ifThen condition thenBranch ih =>
    have hnode := labelledNode_renamed (h.zero (Nat.succ_pos _)) condition .diamond
    have hthen := ih hfree (h.part 1 (by rw [size_ifThen]; omega))
      [taken settings (asking stem number condition)]
    rw [(layout_ifThen hfree).1, (layout_ifThen hfree).2, (layout_ifThen hfree).1,
      (layout_ifThen hfree).2, asking, hnode, List.map_append, List.map_append, ← hthen.1,
      ← hthen.2, ← enter_renamed]
    exact ⟨rfl, rfl⟩
  | ifThenElse condition thenBranch elseBranch ihThen ihElse =>
    obtain ⟨hthen, helse⟩ := Bool.and_eq_true_iff.1 hfree
    have hnode := labelledNode_renamed (h.zero (Nat.succ_pos _)) condition .diamond
    have hparts : Renumbers rename stem (number + 1) (number' + 1)
        ((block thenBranch).size + (block elseBranch).size) :=
      h.part 1 (by rw [size_ifThenElse]; omega)
    have hfirst := ihThen hthen (hparts.mono (Nat.le_add_right _ _))
      [taken settings (asking stem number condition)]
    have hother := ihElse helse (hparts.part (block thenBranch).size (Nat.le_refl _))
      [untaken settings (asking stem number condition)]
    rw [(layout_ifThenElse hthen helse).1, (layout_ifThenElse hthen helse).2,
      (layout_ifThenElse hthen helse).1, (layout_ifThenElse hthen helse).2, asking, hnode,
      List.map_append, List.map_append, List.map_append, ← hfirst.1, ← hfirst.2, ← hother.1,
      ← hother.2, ← enter_renamed]
    exact ⟨rfl, rfl⟩
  | whileDo condition body ih =>
    -- the condition has the first number, and the body those behind it
    have hnode := labelledNode_renamed (h.zero (Nat.succ_pos _)) condition .diamond
    have hbody := ih hfree (h.part 1 (by rw [size_whileDo]; omega))
      [taken settings (asking stem number condition)]
    rw [(layout_whileDo hfree).1, (layout_whileDo hfree).2, (layout_whileDo hfree).1,
      (layout_whileDo hfree).2, asking, hnode, List.map_append, List.map_append, ← hbody.1,
      ← landAll_renamed, ← hbody.2, ← enter_renamed]
    exact ⟨rfl, rfl⟩
  | hole => cases hfree
  | nil => exact ⟨rfl, rfl⟩
  | cons s rest ihFirst ihRest =>
    obtain ⟨hs, hrest⟩ := Bool.and_eq_true_iff.1 hfree
    have hfirst := ihFirst hs (h.mono (by rw [size_cons]; omega)) incoming
    -- what leaves the first statement is renamed, and comes in at the others
    have hothers := ihRest hrest (h.part s.size (by rw [size_cons]))
      (s.leaving settings stem number incoming)
    rw [(layout_cons hs).1, (layout_cons hs).2, (layout_cons hs).1, (layout_cons hs).2,
      List.map_append, ← hfirst.1, ← hothers.1, ← hothers.2, ← hfirst.2]
    exact ⟨rfl, rfl⟩

/-! ## §3 Own nodes -/

theorem numberedId_mem_nodes {s : Statement} {i : Nat} (hlow : number ≤ i)
    (hhigh : i < number + s.size) :
    numberedId stem i ∈ (s.nodes settings stem number).map Node.id := by
  rw [map_id_nodes]
  exact List.mem_map_of_mem (List.mem_range'_1.2 ⟨hlow, hhigh⟩)

/-- If nothing comes in, all connections join nodes of the statement. -/
theorem ends_mem_nodes {s : Statement} (hfree : s.holeFree = true) {c : Connection}
    (hc : c ∈ connectionsIn (s.drawn settings stem number [])) :
    c.source ∈ (s.nodes settings stem number).map Node.id ∧
      c.target ∈ (s.nodes settings stem number).map Node.id := by
  -- a connection is a way of the tree if nothing comes after it
  have hway : c.way ∈ (s.ways settings number none).map (Way.named stem) := by
    apply ((draws settings stem hfree number []).led none).subset
    exact List.mem_append_left _ (List.mem_map_of_mem hc)
  obtain ⟨w, hw, hnamed⟩ := List.mem_map.1 hway
  obtain ⟨t, ht, htarget⟩ := Option.map_eq_some_iff.1 (congrArg Way.target hnamed)
  constructor
  · have hsource : numberedId stem w.source = c.source := congrArg Way.source hnamed
    rw [← hsource]
    exact numberedId_mem_nodes (source_mem_ways hw).1 (source_mem_ways hw).2
  · rcases target_mem_ways hw with hnone | ⟨i, hi, hlow, hhigh⟩
    · rw [ht] at hnone
      cases hnone
    · obtain rfl := Option.some.inj (ht.symm.trans hi)
      rw [← htarget]
      exact numberedId_mem_nodes hlow hhigh

/-- If nothing comes in, all names that are mentioned are those of nodes of the statement. -/
theorem names_subset_nodes {s : Statement} (hfree : s.holeFree = true) :
    (s.drawn settings stem number []).flatMap Record.names ⊆
      (s.nodes settings stem number).map Node.id := by
  intro id hid
  obtain ⟨record, hrecord, hid⟩ := List.mem_flatMap.1 hid
  cases record with
  | node declaration =>
    obtain rfl := List.mem_singleton.1 hid
    apply List.mem_map_of_mem
    rw [← (draws settings stem hfree number []).declared]
    exact List.mem_filterMap.2 ⟨_, hrecord, rfl⟩
  | edge connection =>
    have hends := @ends_mem_nodes settings stem number s hfree connection
      (List.mem_filterMap.2 ⟨_, hrecord, rfl⟩)
    simp only [Record.names, List.mem_cons, List.not_mem_nil, or_false] at hid
    rcases hid with rfl | rfl
    · exact hends.1
    · exact hends.2

end Statement

/-! ## §4 Two runs -/

/-- Drawing a statement into a chart declares `entry`, then leads every loose end there in
    order, then writes `rest`, and leaves `outgoing` loose.  Neither of the two mentions a
    node that was not declared in this drawing. -/
structure Graph.DrawsLocally (settings : Settings) (g : Graph) (s : Statement)
    (incoming : List LooseEnd) (entry : Node) (rest : List Record) (outgoing : List LooseEnd) :
    Prop where
  result_eq : (g.draw settings incoming s).result = .ok outgoing
  records_eq : (g.draw settings incoming s).graph.records =
    g.records ++ (.node entry :: incoming.map fun e => .edge (e.land entry)) ++ rest
  rest_own : ∀ record ∈ rest, ∀ id ∈ record.names,
    id ∈ (declarationsIn (.node entry :: rest)).map Node.id
  outgoing_own : ∀ e ∈ outgoing, e.source ∈ declarationsIn (.node entry :: rest)

theorem Graph.drawsLocally {settings : Settings} {s : Statement} (hfree : s.holeFree = true)
    (g : Graph) {entry : Node} {rest : List Record} {outgoing : List LooseEnd}
    (hentry : ∀ incoming,
      s.drawn settings g.stem g.nextNumber incoming = enter entry incoming ++ rest ∧
        s.leaving settings g.stem g.nextNumber incoming = outgoing)
    (incoming : List LooseEnd) : g.DrawsLocally settings s incoming entry rest outgoing := by
  -- what is declared does not depend on what comes in, so let nothing come in
  have hdeclared := (Statement.draws settings g.stem hfree g.nextNumber []).declared
  have hdrawn : s.drawn settings g.stem g.nextNumber [] = .node entry :: rest := (hentry []).1
  have hnodes : declarationsIn (.node entry :: rest) = s.nodes settings g.stem g.nextNumber := by
    rw [← hdrawn]
    exact hdeclared
  refine ⟨?_, ?_, ?_, ?_⟩
  · rw [← (hentry incoming).2]
    exact (Statement.draws settings g.stem hfree g.nextNumber incoming).outgoing_eq
  · rw [Graph.records_draw]
    exact (congrArg _ (hentry incoming).1).trans (List.append_assoc ..).symm
  · intro record hrecord id hid
    rw [hnodes]
    apply Statement.names_subset_nodes hfree
    rw [hdrawn]
    exact List.mem_flatMap.2 ⟨record, List.mem_cons_of_mem _ hrecord, hid⟩
  · intro e he
    rw [hnodes]
    rw [← (hentry []).2] at he
    exact (Statement.source_of_mem_leaving hfree he).resolve_left List.not_mem_nil

/-- **Drawing is local.**  It depends neither on what was drawn before nor on what flows in.
    For a statement without holes that has a node, and for any two charts with one stem and any
    two lists of incoming loose ends:

    * Each run declares an entry first, leads every incoming end there in order, and mentions
      none but its own nodes in the rest of its records and in the ends that leave it.
    * When the numbers of the first run are replaced by those of the second, entry, rest and
      outgoing ends of the two runs are the same.

    A statement that has no node adds nothing to a chart and hands all loose ends on. -/
theorem draw_is_local (settings : Settings) {s : Statement} (hfree : s.holeFree = true) :
    (0 < s.size → ∀ (g g' : Graph) (incoming incoming' : List LooseEnd), g.stem = g'.stem →
      ∃ entry rest outgoing entry' rest' outgoing',
        g.DrawsLocally settings s incoming entry rest outgoing ∧
        g'.DrawsLocally settings s incoming' entry' rest' outgoing' ∧
        entry' = entry.renamed (renumber g.stem g.nextNumber g'.nextNumber s.size) ∧
        rest' = rest.map (Record.renamed (renumber g.stem g.nextNumber g'.nextNumber s.size)) ∧
        outgoing' = outgoing.map
          (LooseEnd.renamed (renumber g.stem g.nextNumber g'.nextNumber s.size))) ∧
    (s.size = 0 → ∀ (g : Graph) (incoming : List LooseEnd),
      (g.draw settings incoming s).graph = g ∧
        (g.draw settings incoming s).result = .ok incoming) := by
  constructor
  · intro hpos g g' incoming incoming' hstem
    obtain ⟨entry, rest, outgoing, hentry⟩ :=
      @Statement.exists_entry settings g.stem g.nextNumber s hfree hpos
    obtain ⟨entry', rest', outgoing', hentry'⟩ :=
      @Statement.exists_entry settings g'.stem g'.nextNumber s hfree hpos
    refine ⟨entry, rest, outgoing, entry', rest', outgoing', g.drawsLocally hfree hentry incoming,
      g'.drawsLocally hfree hentry' incoming', ?_⟩
    -- the two are compared where nothing comes in
    obtain ⟨hdrawn, hleaving⟩ := @Statement.drawn_renamed settings g.stem g.nextNumber
      g'.nextNumber _ s hfree (renumbers_renumber _ _ _ _) []
    rw [hstem] at hdrawn hleaving hentry
    rw [List.map_nil, (hentry' []).1, (hentry []).1] at hdrawn
    rw [List.map_nil, (hentry' []).2, (hentry []).2] at hleaving
    rw [hstem]
    obtain ⟨hnode, hrest⟩ := List.cons.inj hdrawn
    exact ⟨Record.node.inj hnode, hrest, hleaving⟩
  · intro hzero g incoming
    have hdraws := Statement.draws settings g.stem hfree g.nextNumber incoming
    obtain ⟨hdrawn, hleaving⟩ :=
      @Statement.layout_of_size_eq_zero settings g.stem g.nextNumber incoming s hfree hzero
    refine ⟨?_, hdraws.outgoing_eq.trans (congrArg _ hleaving)⟩
    have hrecords : (s.draw settings g.stem g.nextNumber incoming).records = [] := hdrawn
    have hnumber := hdraws.nextNumber_eq
    rw [hzero, Nat.add_zero] at hnumber
    rw [Graph.draw, Graph.add, Graph.append, hrecords, hnumber, List.append_nil]

/-- The same loop is drawn first into an empty chart with nothing that enters it, and then
    into a longer one where two loose ends do. -/
theorem exists_two_runs_of_loop :
    (Statement.block [.block [], .whileDo "more" [.ifThen "odd" [.exit]]]).holeFree = true ∧
      0 < (Statement.block [.block [], .whileDo "more" [.ifThen "odd" [.exit]]]).size ∧
      ∃ entry rest outgoing,
        Graph.DrawsLocally {} {} (.block [.block [], .whileDo "more" [.ifThen "odd" [.exit]]]) []
          entry rest outgoing ∧
        Graph.DrawsLocally {} { nextNumber := 41, records := [.edge ⟨"x", "y", none⟩] }
          (.block [.block [], .whileDo "more" [.ifThen "odd" [.exit]]])
          (List.replicate 2 ⟨⟨"n0", .empty⟩, none⟩)
          (entry.renamed (renumber "n" 0 41 3)) (rest.map (Record.renamed (renumber "n" 0 41 3)))
          (outgoing.map (LooseEnd.renamed (renumber "n" 0 41 3))) ∧
        renumber "n" 0 41 3 "n2" = "n43" := by
  obtain ⟨hruns, -⟩ := @draw_is_local {}
    (.block [.block [], .whileDo "more" [.ifThen "odd" [.exit]]]) rfl
  obtain ⟨entry, rest, outgoing, entry', rest', outgoing', hfirst, hsecond, rfl, rfl, rfl⟩ :=
    hruns (by decide) {} { nextNumber := 41, records := [.edge ⟨"x", "y", none⟩] } []
      (List.replicate 2 ⟨⟨"n0", .empty⟩, none⟩) rfl
  exact ⟨rfl, by decide, entry, rest, outgoing, hfirst, hsecond, by decide +kernel⟩

end Flowchart
