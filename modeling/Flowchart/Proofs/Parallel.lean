import Flowchart.Proofs.Conservation
import Flowchart.Proofs.Layout
import Flowchart.Proofs.Reachable

/-!
# Parallel Connections

A reader of a chart may merge connections that join the same two nodes.  In the chart of a
program there is just one reason for such a pair: a branch whose blocks hold nothing that is
drawn, so that it goes on at the same place whether its condition holds or fails.

* Two ways of a program that leave one node for one destination leave such a branch
  (`Site.ways_pairwise`): every other destination is in a region that the other way of the
  node cannot enter.
* The two ways of such a branch stay neighbours from frontier to frontier, until they are
  written down one after the other or are left over (`Statement.together_of_emptyBranch`).
* A node has no other ways (`perm_origins_from`), so a pair is all there is.
-/

namespace Flowchart

namespace Statement

variable {settings : Settings} {stem : String} {number i : Nat} {incoming : List LooseEnd}

/-! ## §1 Branches with nothing to draw -/

/-- A branch whose blocks hold no statement that has a node. -/
def isEmptyBranch : Statement → Bool
  | .ifThen _ thenBranch => (block thenBranch).size == 0
  | .ifThenElse _ thenBranch elseBranch =>
    (block thenBranch).size == 0 && (block elseBranch).size == 0
  | .step _ | .exit | .whileDo .. | .block _ | .hole => false

theorem labels_of_isEmptyBranch {s : Statement} (h : s.isEmptyBranch = true) :
    s.labels settings = [some settings.trueLabel, some settings.falseLabel] := by
  cases s <;> first | rfl | cases h

theorem length_labels_le (s : Statement) : (s.labels settings).length ≤ 2 := by
  cases s <;> simp [labels]

/-- The origins at one number are those that its statement has to offer. -/
theorem filter_origins {s part : Statement} (h : s.preorder[i]? = some part) :
    (s.origins settings number).filter (fun o => o.1 = number + i) =
      (part.labels settings).map fun l => (number + i, l) := by
  unfold origins
  generalize s.preorder = parts at h
  induction parts generalizing number i with
  | nil => simp at h
  | cons first parts ih =>
    rw [List.zipIdx_cons, List.flatMap_cons, List.filter_append]
    cases i with
    | zero =>
      obtain rfl : first = part := by simpa using h
      -- the other statements have later numbers
      have hothers : ((parts.zipIdx (number + 1)).flatMap fun x : Statement × Nat =>
          (x.1.labels settings).map fun l => (x.2, l)).filter (fun o => o.1 = number) = [] := by
        rw [List.filter_eq_nil_iff]
        intro o ho
        obtain ⟨⟨x, j⟩, hx, hl⟩ := List.mem_flatMap.1 ho
        obtain ⟨l, -, rfl⟩ := List.mem_map.1 hl
        have hj := List.le_snd_of_mem_zipIdx hx
        simp only [decide_eq_true_eq]
        omega
      rw [Nat.add_zero]
      simp [hothers, List.filter_eq_self]
    | succ i =>
      have hfirst : ((first.labels settings).map fun l => (number, l)).filter
          (fun o => o.1 = number + (i + 1)) = [] := by
        simp [List.filter_eq_nil_iff]
      have hnumber : number + (i + 1) = number + 1 + i := by omega
      rw [hfirst, List.nil_append, hnumber]
      exact ih (by simpa using h)

/-! ## §2 Neighbours -/

/-- Two loose ends are written down one after the other, led to the same node, or leave the
    statement one after the other. -/
def Together (settings : Settings) (stem : String) (number : Nat) (incoming : List LooseEnd)
    (s : Statement) (e f : LooseEnd) : Prop :=
  (∃ node, [.edge (e.land node), .edge (f.land node)] <:+:
      s.drawn settings stem number incoming) ∨
    [e, f] <:+: s.leaving settings stem number incoming

theorem Together.of_part {s part : Statement} {number' : Nat} {entering : List LooseEnd}
    {e f : LooseEnd} (h : part.Together settings stem number' entering e f)
    (hdrawn : part.drawn settings stem number' entering <:+:
      s.drawn settings stem number incoming)
    (hleaving : [e, f] <:+: part.leaving settings stem number' entering →
      s.Together settings stem number incoming e f) :
    s.Together settings stem number incoming e f := by
  rcases h with ⟨node, hwritten⟩ | hleft
  · exact .inl ⟨node, hwritten.trans hdrawn⟩
  · exact hleaving hleft

/-- Neighbours that are led to one node are written down as neighbours. -/
theorem infix_landAll {ends : List LooseEnd} {e f : LooseEnd} (h : [e, f] <:+: ends)
    (node : Node) :
    [.edge (e.land node), .edge (f.land node)] <:+: landAll ends node :=
  List.IsInfix.map (fun e : LooseEnd => Record.edge (e.land node)) h

/-- **Neighbours that come in stay together**, in the entry or on the way past. -/
theorem together_of_incoming {s : Statement} (hfree : s.holeFree = true) {e f : LooseEnd}
    (h : [e, f] <:+: incoming) : s.Together settings stem number incoming e f := by
  rcases Nat.eq_zero_or_pos s.size with hzero | hpos
  · right
    rw [(layout_of_size_eq_zero hfree hzero).2]
    exact h
  · left
    obtain ⟨node, hprefix⟩ :=
      @enter_prefix_drawn settings stem number incoming s hfree hpos
    have henter : [.edge (e.land node), .edge (f.land node)] <:+: enter node incoming :=
      List.infix_cons (infix_landAll h node)
    exact ⟨node, henter.trans hprefix.isInfix⟩

/-- **The two ways of an empty branch stay together**, wherever it stands. -/
theorem together_of_emptyBranch {s part : Statement} (hfree : s.holeFree = true)
    (hpart : (part, i) ∈ s.preorder.zipIdx number) (hempty : part.isEmptyBranch = true) :
    s.Together settings stem number incoming (taken settings (part.ownNode settings stem i))
      (untaken settings (part.ownNode settings stem i)) := by
  induction s generalizing number incoming with
  | step text =>
    obtain ⟨rfl, rfl⟩ : part = step text ∧ i = number := by simpa [preorder] using hpart
    cases hempty
  | exit =>
    obtain ⟨rfl, rfl⟩ : part = exit ∧ i = number := by simpa [preorder] using hpart
    cases hempty
  | ifThen condition thenBranch ih =>
    have hthen : (block thenBranch).holeFree = true := hfree
    rcases List.mem_cons.1 hpart with hself | hpart
    · -- the block hands the first way on, and the second one comes after it
      cases hself
      have hzero : (block thenBranch).size = 0 := by simpa [isEmptyBranch] using hempty
      right
      rw [(layout_ifThen hthen).2, (layout_of_size_eq_zero hthen hzero).2]
      exact List.infix_refl _
    · apply (ih hthen hpart).of_part
      · rw [(layout_ifThen hthen).1]
        exact (List.suffix_append _ _).isInfix
      · intro hleft
        right
        rw [(layout_ifThen hthen).2]
        exact hleft.trans (List.prefix_append _ _).isInfix
  | ifThenElse condition thenBranch elseBranch ihThen ihElse =>
    rw [holeFree_ifThenElse, Bool.and_eq_true] at hfree
    obtain ⟨hthen, helse⟩ := hfree
    simp only [preorder, List.zipIdx_cons, List.zipIdx_append, List.mem_cons, List.mem_append]
      at hpart
    rcases hpart with hself | hpart | hpart
    · cases hself
      obtain ⟨hthenZero, helseZero⟩ :
          (block thenBranch).size = 0 ∧ (block elseBranch).size = 0 := by
        simpa [isEmptyBranch] using hempty
      right
      rw [(layout_ifThenElse hthen helse).2, (layout_of_size_eq_zero hthen hthenZero).2,
        (layout_of_size_eq_zero helse helseZero).2]
      exact List.infix_refl _
    · apply (ihThen hthen hpart).of_part
      · rw [(layout_ifThenElse hthen helse).1]
        exact List.infix_append' _ _ _
      · intro hleft
        right
        rw [(layout_ifThenElse hthen helse).2]
        exact hleft.trans (List.prefix_append _ _).isInfix
    · apply (ihElse helse hpart).of_part
      · rw [(layout_ifThenElse hthen helse).1, ← List.append_assoc]
        exact (List.suffix_append _ _).isInfix
      · intro hleft
        right
        rw [(layout_ifThenElse hthen helse).2]
        exact hleft.trans (List.suffix_append _ _).isInfix
  | whileDo condition body ih =>
    have hbody : (block body).holeFree = true := hfree
    rcases List.mem_cons.1 hpart with hself | hpart
    · cases hself
      cases hempty
    · apply (ih hbody hpart).of_part
      · rw [(layout_whileDo hbody).1]
        exact List.infix_append' _ _ _
      · -- what leaves the body is led back to the condition
        intro hleft
        left
        rw [(layout_whileDo hbody).1, ← List.append_assoc]
        exact ⟨_, (infix_landAll hleft _).trans (List.suffix_append _ _).isInfix⟩
  | hole => cases hfree
  | nil => simp [preorder, preorderList] at hpart
  | cons s rest ihFirst ihRest =>
    rw [holeFree_cons, Bool.and_eq_true] at hfree
    obtain ⟨hs, hrest⟩ := hfree
    have hothers : ∀ {e f}, (block rest).Together settings stem (number + s.size)
          (s.leaving settings stem number incoming) e f →
        (block (s :: rest)).Together settings stem number incoming e f := by
      intro e f h
      apply h.of_part
      · rw [(layout_cons hs).1]
        exact (List.suffix_append _ _).isInfix
      · intro hleft
        right
        rw [(layout_cons hs).2]
        exact hleft
    simp only [preorder, preorderList, List.zipIdx_append, List.mem_append] at hpart
    rcases hpart with hpart | hpart
    · apply (ihFirst hs hpart).of_part
      · rw [(layout_cons hs).1]
        exact (List.prefix_append _ _).isInfix
      · -- what leaves the first statement comes in at the others
        intro hleft
        exact hothers (together_of_incoming hrest hleft)
    · exact hothers (ihRest hrest hpart)

end Statement

/-! ## §3 Ways that coincide -/

namespace Site

variable {settings : Settings} {p q : Site}

/-- The node `i` belongs to an empty branch inside the statement. -/
def EmptyBranchAt (p : Site) (i : Nat) : Prop :=
  ∃ part, p.Numbers part i ∧ part.isEmptyBranch = true

theorem EmptyBranchAt.of_part {i : Nat} (hpart : p.Part q) (h : q.EmptyBranchAt i) :
    p.EmptyBranchAt i := by
  obtain ⟨part, hnumbers, hempty⟩ := h
  exact ⟨part, hpart.numbers hnumbers, hempty⟩

/-- If two ways leave one node for one destination, it belongs to an empty branch. -/
def Apart (p : Site) (w v : Way Nat) : Prop :=
  w.source = v.source → w.target = v.target → p.EmptyBranchAt w.source

theorem pairwise_apart_of_part (hpart : p.Part q) {ways : List (Way Nat)}
    (h : ways.Pairwise q.Apart) : ways.Pairwise p.Apart :=
  h.imp fun hapart hsource htarget => (hapart hsource htarget).of_part hpart

/-- Ways of different regions leave different nodes. -/
theorem apart_of_lt {w v : Way Nat} (h : w.source < v.source) : p.Apart w v :=
  fun hsource => absurd hsource (Nat.ne_of_lt h)

/-- An entry is no node that the statement is closed against. -/
theorem entry_ne {s : Statement} {number : Nat} {middle next : Option Nat}
    (h : 0 < s.size) (hclosed : Closed ⟨number, next, s⟩) :
    s.entry number middle ≠ next := by
  rw [Statement.entry_of_size_pos h]
  intro hnext
  exact hclosed number hnext.symm (covers_number h)

/-- **Only at an empty branch do two ways of a node coincide.** -/
theorem ways_pairwise {s : Statement} {number : Nat} {next : Option Nat}
    (hclosed : Closed ⟨number, next, s⟩) :
    (s.ways settings number next).Pairwise (Apart ⟨number, next, s⟩) := by
  induction s generalizing number next with
  | step text => exact List.pairwise_singleton _ _
  | exit => exact .nil
  | ifThen condition thenBranch ih =>
    rw [Statement.ways_ifThen, List.pairwise_cons, List.pairwise_cons]
    have hpart := hclosed.part .onlyBranch
    refine ⟨?_, ?_, pairwise_apart_of_part .onlyBranch (ih hpart)⟩
    · intro v hv
      rcases List.mem_cons.1 hv with rfl | hv
      · intro _ htarget
        rcases Nat.eq_zero_or_pos (Statement.block thenBranch).size with hzero | hpos
        · exact ⟨_, .head _, by simpa [Statement.isEmptyBranch] using hzero⟩
        · exact absurd htarget (entry_ne hpos hpart)
      · exact apart_of_lt (Statement.source_mem_ways hv).1
    · intro v hv
      exact apart_of_lt (Statement.source_mem_ways hv).1
  | ifThenElse condition thenBranch elseBranch ihThen ihElse =>
    rw [Statement.ways_ifThenElse, List.pairwise_cons, List.pairwise_cons, List.pairwise_append]
    have hthen := hclosed.part .thenBranch
    have helse := hclosed.part .elseBranch
    refine ⟨?_, ?_, pairwise_apart_of_part .thenBranch (ihThen hthen),
      pairwise_apart_of_part .elseBranch (ihElse helse), ?_⟩
    · intro v hv
      rcases List.mem_cons.1 hv with rfl | hv
      · intro _ htarget
        rcases Nat.eq_zero_or_pos (Statement.block thenBranch).size with hzero | hpos
        · rcases Nat.eq_zero_or_pos (Statement.block elseBranch).size with hzero' | hpos'
          · exact ⟨_, .head _, by simp [Statement.isEmptyBranch, hzero, hzero']⟩
          · rw [Statement.entry_of_size_eq_zero hzero] at htarget
            exact absurd htarget.symm (entry_ne hpos' helse)
        · -- the first block is entered at a node that comes before the other block
          rw [Statement.entry_of_size_pos hpos] at htarget
          rcases entry_eq_some htarget.symm with hother | hnext
          · omega
          · exact absurd (covers_number hpos) (hthen _ hnext)
      · rcases List.mem_append.1 hv with hv | hv
        · exact apart_of_lt (Statement.source_mem_ways hv).1
        · have hlow := (Statement.source_mem_ways hv).1
          exact apart_of_lt (by dsimp only; omega)
    · intro v hv
      rcases List.mem_append.1 hv with hv | hv
      · exact apart_of_lt (Statement.source_mem_ways hv).1
      · have hlow := (Statement.source_mem_ways hv).1
        exact apart_of_lt (by dsimp only; omega)
    · intro w hw v hv
      have hhigh := (Statement.source_mem_ways hw).2
      have hlow := (Statement.source_mem_ways hv).1
      exact apart_of_lt (by omega)
  | whileDo condition body ih =>
    rw [Statement.ways_whileDo, List.pairwise_cons, List.pairwise_cons]
    refine ⟨?_, ?_, pairwise_apart_of_part .body (ih (hclosed.part .body))⟩
    · intro v hv
      rcases List.mem_cons.1 hv with rfl | hv
      · -- one way stays in the loop, the other one leaves it
        intro _ htarget
        have hinside : Statement.LeadsInto (number + 1) (Statement.block body).size (some number)
            ((Statement.block body).entry (number + 1) (some number)) := Statement.leadsInto_entry
        rcases hinside with hback | ⟨t, hown, hlow, hhigh⟩
        · exact (hclosed number (htarget.symm.trans hback) (covers_number (Nat.succ_pos _))).elim
        · refine absurd ?_ (hclosed t (htarget.symm.trans hown))
          simp only [Covers, stop, Statement.size_whileDo]
          omega
      · exact apart_of_lt (Statement.source_mem_ways hv).1
    · intro v hv
      exact apart_of_lt (Statement.source_mem_ways hv).1
  | hole => exact .nil
  | nil => exact .nil
  | cons s rest ihFirst ihRest =>
    rw [Statement.ways_cons, List.pairwise_append]
    refine ⟨pairwise_apart_of_part .first (ihFirst (hclosed.part .first)),
      pairwise_apart_of_part .others (ihRest (hclosed.part .others)), ?_⟩
    intro w hw v hv
    have hhigh := (Statement.source_mem_ways hw).2
    have hlow := (Statement.source_mem_ways hv).1
    exact apart_of_lt (by omega)

end Site

/-! ## §4 The connections of a node -/

variable {settings : Settings} {statements : List Statement}

/-- Two connections of the chart of a program that join the same nodes leave an empty
    branch. -/
theorem connections_pairwise (hfree : (Statement.block statements).holeFree = true) :
    (drawProgram settings (.block statements)).graph.connections.Pairwise fun c d =>
      c.source = d.source → c.target = d.target →
        ∃ i, c.source = numberedId "n" i ∧
          Site.EmptyBranchAt ⟨0, none, .block statements⟩ i := by
  obtain ⟨ending, -, hperm⟩ := @Graph.perm_leads_drawProgram settings statements {} hfree rfl
  have hways := @Site.ways_pairwise settings (.block statements) 0 none Site.outside_none
  -- among named ways the relation does not depend on their order
  let coincide : Way String → Way String → Prop := fun w v =>
    w.source = v.source → w.target = v.target →
      ∃ i, w.source = numberedId "n" i ∧ Site.EmptyBranchAt ⟨0, none, .block statements⟩ i
  have hsymm : ∀ {w v}, coincide w v → coincide v w := by
    intro w v h hsource htarget
    rw [hsource]
    exact h hsource.symm htarget.symm
  have hnamed : (((Statement.block statements).ways settings 0 none).map
      (Way.named "n")).Pairwise coincide := by
    rw [List.pairwise_map]
    refine hways.imp fun hapart hsource htarget => ?_
    have htarget' := Option.map_injective (numberedId_injective "n") htarget
    exact ⟨_, rfl, hapart (numberedId_inj.1 hsource) htarget'⟩
  have hleads := (hperm.pairwise_iff hsymm).2 hnamed
  have hconnections := (List.pairwise_append.1 hleads).1
  rw [List.pairwise_map] at hconnections
  exact hconnections.imp fun h hsource htarget => h hsource (congrArg some htarget)

/-- The connections that leave a node. -/
def Graph.connectionsFrom (g : Graph) (id : String) : List Connection :=
  g.connections.filter fun c => c.source = id

theorem connections_drawProgram (hfree : (Statement.block statements).holeFree = true) :
    (drawProgram settings (.block statements)).graph.connections =
      connectionsIn ((Statement.block statements).drawn settings "n" 0 []) := by
  rw [Graph.connections_eq_connectionsIn, drawProgram, (Graph.layout_drawProgram {} hfree).2]
  simp

/-- The connections that leave a node, and the ends left loose there, are those that its
    statement has to offer. -/
theorem perm_origins_from (hfree : (Statement.block statements).holeFree = true) {i : Nat}
    {s : Statement} (hs : (Statement.block statements).preorder[i]? = some s) :
    (((drawProgram settings (.block statements)).graph.connectionsFrom (numberedId "n" i)).map
          Connection.origin ++
        (((Statement.block statements).leaving settings "n" 0 []).filter fun e =>
          e.source.id = numberedId "n" i).map LooseEnd.origin).Perm
      ((s.labels settings).map fun l => (numberedId "n" i, l)) := by
  have hperm := (Statement.draws settings "n" hfree 0 []).perm_origins.filter
    fun o => o.1 = numberedId "n" i
  have horigins : ((Statement.block statements).origins settings 0).filter
      ((fun o => o.1 = numberedId "n" i) ∘ Prod.map (numberedId "n") id) =
      (s.labels settings).map fun l => (i, l) := by
    have hnumbers := @Statement.filter_origins settings 0 i _ _ hs
    rw [Nat.zero_add] at hnumbers
    rw [← hnumbers]
    refine List.filter_congr fun o _ => ?_
    simp [numberedId_inj]
  rw [List.filter_append, List.filter_map, List.filter_map, List.map_nil, List.nil_append,
    List.filter_map, horigins, List.map_map] at hperm
  rw [Graph.connectionsFrom, connections_drawProgram hfree]
  exact hperm

/-- **An empty branch is left twice for the same node**, by connections that are written down
    one after the other, or its ends are left loose at the end of the program. -/
theorem pair_of_emptyBranch (hfree : (Statement.block statements).holeFree = true) {i : Nat}
    {s : Statement} (hs : (Statement.block statements).preorder[i]? = some s)
    (hempty : s.isEmptyBranch = true) :
    (∃ target,
        [.edge ⟨numberedId "n" i, target, some settings.trueLabel⟩,
            .edge ⟨numberedId "n" i, target, some settings.falseLabel⟩] <:+:
          (drawProgram settings (.block statements)).graph.records ∧
        (drawProgram settings (.block statements)).graph.connectionsFrom (numberedId "n" i) =
          [⟨numberedId "n" i, target, some settings.trueLabel⟩,
            ⟨numberedId "n" i, target, some settings.falseLabel⟩]) ∧
        (∀ e ∈ (Statement.block statements).leaving settings "n" 0 [],
          e.source.id ≠ numberedId "n" i) ∨
      (drawProgram settings (.block statements)).graph.connectionsFrom (numberedId "n" i) = [] ∧
        ∃ e ∈ (Statement.block statements).leaving settings "n" 0 [],
          e.source.id = numberedId "n" i := by
  have hlength := (@perm_origins_from settings statements hfree i s hs).length_eq
  rw [Statement.labels_of_isEmptyBranch hempty, List.length_append, List.length_map,
    List.length_map, List.length_map] at hlength
  have hpart : (s, i) ∈ (Statement.block statements).preorder.zipIdx 0 :=
    List.mem_zipIdx_iff_getElem?.2 hs
  rcases @Statement.together_of_emptyBranch settings "n" 0 i [] _ s hfree hpart hempty with
    ⟨node, hwritten⟩ | hleft
  · left
    -- both are found among the connections of the node, which has no others
    have hpair : List.Sublist
        [⟨numberedId "n" i, node.id, some settings.trueLabel⟩,
          ⟨numberedId "n" i, node.id, some settings.falseLabel⟩]
        ((drawProgram settings (.block statements)).graph.connectionsFrom
          (numberedId "n" i)) := by
      rw [Graph.connectionsFrom, connections_drawProgram hfree]
      have hfiltered := (hwritten.filterMap Record.edge?).sublist.filter
        fun c => c.source = numberedId "n" i
      simpa [connectionsIn, LooseEnd.land, Statement.ownNode, labelledNode, Record.edge?]
        using hfiltered
    have hcount := hpair.length_le
    simp only [List.length_cons, List.length_nil] at hlength hcount
    refine ⟨⟨node.id, ?_, (hpair.eq_of_length_le ?_).symm⟩, ?_⟩
    · rw [drawProgram, (Graph.layout_drawProgram {} hfree).2]
      exact hwritten.trans (List.infix_append _ _ _)
    · simp only [List.length_cons, List.length_nil]
      omega
    · have hnone := List.eq_nil_of_length_eq_zero (l := ((Statement.block statements).leaving
        settings "n" 0 []).filter fun e => e.source.id = numberedId "n" i) (by omega)
      intro e he hid
      exact List.not_mem_nil (hnone ▸ List.mem_filter.2 ⟨he, decide_eq_true hid⟩)
  · right
    -- both are found among the loose ends of the node, so no connection leaves it
    have hpair := hleft.sublist.filter fun e => e.source.id = numberedId "n" i
    have hboth : List.Sublist
        [Statement.taken settings (s.ownNode settings "n" i),
          Statement.untaken settings (s.ownNode settings "n" i)]
        (((Statement.block statements).leaving settings "n" 0 []).filter
          fun e => e.source.id = numberedId "n" i) := by
      simpa [Statement.ownNode, labelledNode] using hpair
    refine ⟨?_, _, hleft.subset List.mem_cons_self, rfl⟩
    have hcount := hboth.length_le
    simp only [List.length_cons, List.length_nil] at hlength hcount
    exact List.eq_nil_of_length_eq_zero (by omega)

/-! ## §5 Parallel connections -/

/-- Two connections of a node, in the order of the chart, are found in this order among all
    connections of the node. -/
theorem Graph.sublist_connectionsFrom {g : Graph} {id : String} {c d : Connection}
    (h : List.Sublist [c, d] g.connections) (hc : c.source = id) (hd : d.source = id) :
    List.Sublist [c, d] (g.connectionsFrom id) := by
  have hfiltered := h.filter fun c => c.source = id
  simpa [connectionsFrom, hc, hd] using hfiltered

/-- Two connections that leave an empty branch are its two ways, in this order. -/
theorem eq_ways_of_sublist (hfree : (Statement.block statements).holeFree = true) {i : Nat}
    {s : Statement} (hs : (Statement.block statements).preorder[i]? = some s)
    (hempty : s.isEmptyBranch = true) {c d : Connection}
    (h : List.Sublist [c, d] (drawProgram settings (.block statements)).graph.connections)
    (hc : c.source = numberedId "n" i) (hd : d.source = numberedId "n" i) :
    ∃ target, c = ⟨numberedId "n" i, target, some settings.trueLabel⟩ ∧
      d = ⟨numberedId "n" i, target, some settings.falseLabel⟩ := by
  have hpair := Graph.sublist_connectionsFrom h hc hd
  rcases @pair_of_emptyBranch settings statements hfree i s hs hempty with
    ⟨⟨target, -, hfrom⟩, -⟩ | ⟨hfrom, -⟩
  · -- two of the two connections of the node are both of them
    rw [hfrom] at hpair
    exact ⟨target, by simpa using hpair.eq_of_length rfl⟩
  · rw [hfrom] at hpair
    cases hpair

theorem parallel_iff_of_sublist (hfree : (Statement.block statements).holeFree = true)
    {c d : Connection}
    (h : List.Sublist [c, d] (drawProgram settings (.block statements)).graph.connections) :
    c.source = d.source ∧ c.target = d.target ↔
      ∃ i s, (Statement.block statements).preorder[i]? = some s ∧ s.isEmptyBranch = true ∧
        c.origin = (numberedId "n" i, some settings.trueLabel) ∧
        d.origin = (numberedId "n" i, some settings.falseLabel) := by
  constructor
  · rintro ⟨hsource, htarget⟩
    obtain ⟨i, hc, part, hnumbers, hempty⟩ :=
      List.pairwise_iff_forall_sublist.1 (connections_pairwise hfree) h hsource htarget
    have hpart : (Statement.block statements).preorder[i]? = some part :=
      List.mem_zipIdx_iff_getElem?.1 hnumbers
    obtain ⟨target, rfl, rfl⟩ :=
      eq_ways_of_sublist hfree hpart hempty h hc (hsource.symm.trans hc)
    exact ⟨i, part, hpart, hempty, rfl, rfl⟩
  · rintro ⟨i, part, hpart, hempty, hc, hd⟩
    obtain ⟨target, rfl, rfl⟩ := eq_ways_of_sublist hfree hpart hempty h
      (congrArg Prod.fst hc) (congrArg Prod.fst hd)
    exact ⟨rfl, rfl⟩

/-- At most two connections leave a node. -/
theorem length_connectionsFrom_le (hfree : (Statement.block statements).holeFree = true)
    (id : String) :
    ((drawProgram settings (.block statements)).graph.connectionsFrom id).length ≤ 2 := by
  by_contra hmany
  obtain ⟨c, hc⟩ := List.exists_mem_of_length_pos (Nat.zero_lt_of_lt (Nat.lt_of_not_le hmany))
  -- a node with a connection is the node of a statement
  obtain ⟨hmem, hsource⟩ := List.mem_filter.1 hc
  obtain ⟨i, j, hid, -, w, hw, rfl, -⟩ :=
    (@connects_drawProgram settings statements hfree c.source c.target).1 ⟨c, hmem, rfl, rfl⟩
  have hinside : w.source < (Statement.block statements).preorder.length := by
    simpa [Statement.size] using (Statement.source_mem_ways hw).2
  have hlength := (@perm_origins_from settings statements hfree _ _
    (List.getElem?_eq_getElem hinside)).length_eq
  have hlabels := @Statement.length_labels_le settings
    (Statement.block statements).preorder[w.source]
  obtain rfl : c.source = id := of_decide_eq_true hsource
  rw [← hid] at hlength
  simp only [List.length_append, List.length_map] at hlength
  omega

/-- **Exactly which connections of a chart are parallel.**  For every program without holes and
    all settings:

    * Of two connections, in the order in which they are written, both ends are the same just
      if they are the two ways of one branch whose blocks have nothing to draw, the one on
      which its condition holds before the other.
    * Unless the ends of such a branch are left loose at the end of the program, it has just
      this pair of connections, and they are written down one right after the other;
      otherwise it has none.
    * No three connections join the same two nodes. -/
theorem parallel_drawProgram (settings : Settings) {statements : List Statement}
    (hfree : (Statement.block statements).holeFree = true) :
    ∃ ending, (drawProgram settings (.block statements)).result = .ok ending ∧
      (drawProgram settings (.block statements)).graph.connections.Pairwise (fun c d =>
        (c.source = d.source ∧ c.target = d.target ↔
          ∃ i s, (Statement.block statements).preorder[i]? = some s ∧ s.isEmptyBranch = true ∧
            c.origin = (numberedId "n" i, some settings.trueLabel) ∧
            d.origin = (numberedId "n" i, some settings.falseLabel))) ∧
      (∀ i s, (Statement.block statements).preorder[i]? = some s → s.isEmptyBranch = true →
        ((∀ e ∈ ending.exits, e.source.id ≠ numberedId "n" i) →
          ∃ target,
            [.edge ⟨numberedId "n" i, target, some settings.trueLabel⟩,
                .edge ⟨numberedId "n" i, target, some settings.falseLabel⟩] <:+:
              (drawProgram settings (.block statements)).graph.records ∧
            (drawProgram settings (.block statements)).graph.connectionsFrom
                (numberedId "n" i) =
              [⟨numberedId "n" i, target, some settings.trueLabel⟩,
                ⟨numberedId "n" i, target, some settings.falseLabel⟩]) ∧
        ((∃ e ∈ ending.exits, e.source.id = numberedId "n" i) →
          (drawProgram settings (.block statements)).graph.connectionsFrom
            (numberedId "n" i) = [])) ∧
      ∀ source target, (drawProgram settings (.block statements)).graph.connections.countP
        (fun c => c.source = source ∧ c.target = target) ≤ 2 := by
  refine ⟨_, (Graph.layout_drawProgram {} hfree).1, ?_, ?_, ?_⟩
  · exact List.pairwise_iff_forall_sublist.2 (parallel_iff_of_sublist hfree)
  · intro i s hs hempty
    rcases @pair_of_emptyBranch settings statements hfree i s hs hempty with
      ⟨hpair, hnone⟩ | ⟨hfrom, e, he, hid⟩
    · exact ⟨fun _ => hpair, fun ⟨e, he, hid⟩ => absurd hid (hnone e he)⟩
    · exact ⟨fun hall => absurd hid (hall e he), fun _ => hfrom⟩
  · intro source target
    -- parallel connections leave one node, and at most two do that
    calc (drawProgram settings (.block statements)).graph.connections.countP
          (fun c => c.source = source ∧ c.target = target)
      _ ≤ (drawProgram settings (.block statements)).graph.connections.countP
          (fun c => c.source = source) := by
        refine List.countP_mono_left fun c _ hc => ?_
        exact decide_eq_true (of_decide_eq_true hc).1
      _ = ((drawProgram settings (.block statements)).graph.connectionsFrom source).length :=
        List.countP_eq_length_filter
      _ ≤ 2 := length_connectionsFrom_le hfree source

/-- The ways of the first branch join it to the second one, whose own ways are left loose. -/
theorem parallel_of_two_empty_branches :
    let chart := drawProgram {} (.block [.ifThen "odd" [.block []], .ifThen "last" []])
    (∃ target,
        [.edge ⟨"n0", target, some "True"⟩, .edge ⟨"n0", target, some "False"⟩] <:+:
          chart.graph.records ∧
        chart.graph.connectionsFrom "n0" =
          [⟨"n0", target, some "True"⟩, ⟨"n0", target, some "False"⟩]) ∧
      chart.graph.connectionsFrom "n1" = [] := by
  obtain ⟨ending, hresult, -, hpairs, -⟩ :=
    @parallel_drawProgram {} [.ifThen "odd" [.block []], .ifThen "last" []] rfl
  obtain rfl := Except.ok.inj (hresult.symm.trans rfl)
  refine ⟨(hpairs 0 _ rfl rfl).1 ?_, (hpairs 1 _ rfl rfl).2 ?_⟩ <;> decide +kernel

end Flowchart
