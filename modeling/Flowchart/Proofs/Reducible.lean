import Flowchart.Proofs.Layout
import Flowchart.Proofs.Loops
import Flowchart.Proofs.Reachable

/-!
# The Chart of a Program Is Reducible

Whatever is drawn later, the nodes of a statement keep to themselves: in the finished chart
they are entered from outside at the first of them only, and a connection that does not lead
forward leads to the condition of a loop from the loop itself.  So a chart falls into regions
with one entry each, and without the ways back of its loops it has no cycles
(`reducible_drawProgram`).

For the ways of the tree this is known (`Site.target_eq_number_of_enters`,
`Site.exists_loop_of_not_forward`); here it is carried over to the connections of the chart.
-/

namespace Flowchart

variable {settings : Settings} {statements : List Statement}

/-! ## §1 Regions of a chart -/

/-- The names of the nodes of a statement. -/
def Site.region (stem : String) (q : Site) : List String :=
  (List.range' q.number q.statement.size).map (numberedId stem)

/-- A name is in the region just if its number is. -/
theorem Site.mem_region {stem : String} {q : Site} {i : Nat} :
    numberedId stem i ∈ q.region stem ↔ q.Covers i := by
  rw [region, List.mem_map_of_injective (numberedId_injective stem), List.mem_range'_1]
  rfl

/-- The nodes that are declared while a statement is drawn are its region. -/
theorem Site.map_id_declared {stem : String} {q : Site} (hfree : q.statement.holeFree = true)
    (incoming : List LooseEnd) :
    (declarationsIn (q.statement.drawn settings stem q.number incoming)).map Node.id =
      q.region stem := by
  have hdeclared := (Statement.draws settings stem hfree q.number incoming).declared
  rw [Statement.drawn, hdeclared, Statement.map_id_nodes]
  rfl

/-- A connection of the chart of a program is a way of the program. -/
theorem leadsTo_of_connection (hfree : (Statement.block statements).holeFree = true)
    {c : Connection} (hc : c ∈ (drawProgram settings (.block statements)).graph.connections) :
    ∃ i j, c.source = numberedId "n" i ∧ c.target = numberedId "n" j ∧
      LeadsTo ((wholeSite statements).ways settings) i j :=
  (connects_drawProgram hfree).1 ⟨c, hc, rfl, rfl⟩

/-- **A region of a chart is entered at its first node.** -/
theorem target_eq_of_enters_region (hfree : (Statement.block statements).holeFree = true)
    {q : Site} (hq : (wholeSite statements).Contains q) {c : Connection}
    (hc : c ∈ (drawProgram settings (.block statements)).graph.connections)
    (hsource : c.source ∉ q.region "n") (htarget : c.target ∈ q.region "n") :
    c.target = numberedId "n" q.number := by
  obtain ⟨i, j, hi, hj, w, hw, rfl, hleads⟩ := leadsTo_of_connection hfree hc
  -- the connection is a way of the program, and for ways this is known
  rw [hi, Site.mem_region] at hsource
  rw [hj, Site.mem_region] at htarget
  rw [hj, Site.target_eq_number_of_enters hq wholeSite_closed hw hsource hleads htarget]

/-! ## §2 Ways back -/

/-- **A connection that does not lead forward leads back in a loop.** -/
theorem loopAround_of_not_forward {i j : Nat}
    (h : LeadsTo ((wholeSite statements).ways settings) i j) (hback : j ≤ i) :
    (wholeSite statements).LoopAround i j := by
  obtain ⟨w, hw, rfl, htarget⟩ := h
  rcases Site.exists_loop_of_not_forward hw htarget hback with hnone | hloop
  · cases hnone
  · exact hloop

/-- One node of a chart leads back to the other, which is the condition of a loop around
    it. -/
def LeadsBack (statements : List Statement) (a b : String) : Prop :=
  ∃ i j, a = numberedId "n" i ∧ b = numberedId "n" j ∧ (wholeSite statements).LoopAround i j

/-- **All other connections lead forward**, and so does every chain of them. -/
theorem lt_of_onward (hfree : (Statement.block statements).holeFree = true) {a b : String}
    (h : Relation.TransGen (fun a b =>
      (drawProgram settings (.block statements)).graph.Connects a b ∧
        ¬LeadsBack statements a b) a b) :
    ∃ i j, a = numberedId "n" i ∧ b = numberedId "n" j ∧ i < j := by
  -- one connection leads to a later number, or it would lead back in a loop
  have hstep : ∀ {a b}, (drawProgram settings (.block statements)).graph.Connects a b →
      ¬LeadsBack statements a b → ∃ i j, a = numberedId "n" i ∧ b = numberedId "n" j ∧ i < j := by
    intro a b hconnects honward
    obtain ⟨i, j, rfl, rfl, hleads⟩ := (connects_drawProgram hfree).1 hconnects
    refine ⟨i, j, rfl, rfl, ?_⟩
    by_contra hback
    exact honward ⟨i, j, rfl, rfl, loopAround_of_not_forward hleads (Nat.not_lt.1 hback)⟩
  induction h with
  | single h => exact hstep h.1 h.2
  | tail _ h ih =>
    obtain ⟨i, j, rfl, rfl, hij⟩ := ih
    obtain ⟨k, l, hk, rfl, hkl⟩ := hstep h.1 h.2
    -- a chain ends where the next connection begins, and names have one number
    obtain rfl := numberedId_inj.1 hk
    exact ⟨i, l, rfl, rfl, Nat.lt_trans hij hkl⟩

/-! ## §3 The chart of a program -/

/-- **The chart of a program is reducible.**  For every program without holes and all
    settings:

    * What a statement inside the program writes stands together in the chart, and the nodes
      that it declares there have consecutive numbers.  If it has any, every connection that
      leads to one of them from elsewhere leads to the first.
    * A connection joins numbered nodes, and if it does not lead to a later one, it leads to
      the condition of a loop from that condition or from the body of the loop.
    * The connections that do not lead back to the condition of a loop from the loop itself
      have no cycle. -/
theorem reducible_drawProgram (settings : Settings) {statements : List Statement}
    (hfree : (Statement.block statements).holeFree = true) :
    (∀ q, (wholeSite statements).Contains q →
      (∃ entering,
        q.statement.drawn settings "n" q.number entering <:+:
            (drawProgram settings (.block statements)).graph.records ∧
          (declarationsIn (q.statement.drawn settings "n" q.number entering)).map Node.id =
            q.region "n") ∧
      ∀ c ∈ (drawProgram settings (.block statements)).graph.connections,
        c.source ∉ q.region "n" → c.target ∈ q.region "n" →
          c.target = numberedId "n" q.number) ∧
    (∀ c ∈ (drawProgram settings (.block statements)).graph.connections,
      ∃ i j, c.source = numberedId "n" i ∧ c.target = numberedId "n" j ∧
        (j ≤ i → ∃ next condition body,
          (wholeSite statements).Contains ⟨j, next, .whileDo condition body⟩ ∧
            Site.Covers ⟨j, next, .whileDo condition body⟩ i)) ∧
    ∀ id, ¬Relation.TransGen (fun a b =>
      (drawProgram settings (.block statements)).graph.Connects a b ∧
        ¬LeadsBack statements a b) id id := by
  refine ⟨?_, ?_, ?_⟩
  · intro q hq
    constructor
    · obtain ⟨entering, hinfix⟩ :=
        @Site.Contains.drawn_infix settings "n" _ _ hq hfree []
      refine ⟨entering, ?_, Site.map_id_declared (Site.Contains.holeFree hq hfree) entering⟩
      -- what is written of a statement stands together in the program, and the terminals come
      -- after it
      rw [drawProgram, (Graph.layout_drawProgram {} hfree).2]
      exact hinfix.trans (List.infix_append _ _ _)
    · intro c hc hsource htarget
      exact target_eq_of_enters_region hfree hq hc hsource htarget
  · intro c hc
    obtain ⟨i, j, hi, hj, hleads⟩ := leadsTo_of_connection hfree hc
    exact ⟨i, j, hi, hj, fun hback => loopAround_of_not_forward hleads hback⟩
  · intro id hcycle
    -- the numbers would grow all around the cycle
    obtain ⟨i, j, rfl, hj, hlt⟩ := lt_of_onward hfree hcycle
    obtain rfl := numberedId_inj.1 hj
    exact Nat.lt_irrefl i hlt

/-- A branch in a loop holds a dead step.  The branch is entered at its condition, and the way
    from the dead step leads back to the condition of the loop, which it belongs to. -/
theorem reducible_of_dead_step_in_loop :
    (Statement.block [.whileDo "more" [.step "one",
        .ifThen "odd" [.exit, .step "dead"]]]).holeFree = true ∧
      (wholeSite [.whileDo "more" [.step "one", .ifThen "odd" [.exit, .step "dead"]]]).Contains
        ⟨2, some 0, .ifThen "odd" [.exit, .step "dead"]⟩ ∧
      (∃ c ∈ (drawProgram {} (.block [.whileDo "more" [.step "one",
          .ifThen "odd" [.exit, .step "dead"]]])).graph.connections,
        c.source = numberedId "n" 1 ∧
          c.source ∉ Site.region "n" ⟨2, some 0, .ifThen "odd" [.exit, .step "dead"]⟩ ∧
          c.target ∈ Site.region "n" ⟨2, some 0, .ifThen "odd" [.exit, .step "dead"]⟩ ∧
          c.target = numberedId "n" 2) ∧
      ∃ c ∈ (drawProgram {} (.block [.whileDo "more" [.step "one",
          .ifThen "odd" [.exit, .step "dead"]]])).graph.connections,
        c.source = numberedId "n" 4 ∧ c.target = numberedId "n" 0 ∧
          ∃ next condition body,
            (wholeSite [.whileDo "more" [.step "one",
                .ifThen "odd" [.exit, .step "dead"]]]).Contains
              ⟨0, next, .whileDo condition body⟩ ∧
            Site.Covers ⟨0, next, .whileDo condition body⟩ 4 := by
  obtain ⟨hregions, hconnections, -⟩ := @reducible_drawProgram {}
    [.whileDo "more" [.step "one", .ifThen "odd" [.exit, .step "dead"]]] rfl
  have hbranch : (wholeSite [.whileDo "more" [.step "one",
      .ifThen "odd" [.exit, .step "dead"]]]).Contains
      ⟨2, some 0, .ifThen "odd" [.exit, .step "dead"]⟩ :=
    Site.Part.first.contains_trans (Site.Part.body.contains_trans
      (Site.Part.others.contains_trans Site.Part.first.contains))
  refine ⟨rfl, hbranch, ?_, ?_⟩
  · refine ⟨⟨numberedId "n" 1, numberedId "n" 2, none⟩, by decide +kernel, rfl, by decide +kernel,
      by decide +kernel, ?_⟩
    exact (hregions _ hbranch).2 _ (by decide +kernel) (by decide +kernel) (by decide +kernel)
  · refine ⟨⟨numberedId "n" 4, numberedId "n" 0, none⟩, by decide +kernel, rfl, rfl, ?_⟩
    obtain ⟨i, j, hi, hj, hback⟩ :=
      hconnections ⟨numberedId "n" 4, numberedId "n" 0, none⟩ (by decide +kernel)
    obtain rfl := numberedId_inj.1 hi
    obtain rfl := numberedId_inj.1 hj
    exact hback (Nat.zero_le 4)

end Flowchart
