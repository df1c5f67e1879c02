import Flowchart.Proofs.Drawn

/-!
# No Loose End is Lost

While a statement is drawn, a loose end may be handed on many times before it is led
somewhere: past empty blocks, out of branches, back to the condition of a loop.  On the
way none is lost and none is doubled.  What is led somewhere and what is left loose are
together what came in, and for each new node the ways on that its statement has.

Main statement: `draw_conserves_ends`, with what it comes to for whole programs.
-/

namespace Flowchart

/-! ## §1 What a node has to offer -/

/-- Where a way begins, and its label: all of a way but its destination. -/
abbrev Origin (ν : Type) := ν × Option String

/-- Where a loose end begins. -/
def LooseEnd.origin (e : LooseEnd) : Origin String := (e.source.id, e.label)

/-- Where a connection begins. -/
def Connection.origin (c : Connection) : Origin String := (c.source, c.label)

/-- Where a way begins. -/
def Way.origin {ν : Type} (w : Way ν) : Origin ν := (w.source, w.label)

theorem origin_comp_way : Way.origin ∘ Connection.way = Connection.origin := rfl

theorem origin_comp_lead (target : Option String) :
    (Way.origin ∘ fun e : LooseEnd => e.lead target) = LooseEnd.origin := rfl

theorem origin_comp_named (stem : String) :
    Way.origin ∘ Way.named stem = Prod.map (numberedId stem) id ∘ Way.origin := rfl

namespace Statement

/-- The labels of the ways on that leave the node of a statement. -/
def labels (settings : Settings) : Statement → List (Option String)
  | .step _ => [none]
  | .ifThen .. | .ifThenElse .. | .whileDo .. =>
    [some settings.trueLabel, some settings.falseLabel]
  | .exit | .block _ | .hole => []

/-- The ways on that leave the nodes of the statements inside a statement, in preorder. -/
def origins (settings : Settings) (number : Nat) (s : Statement) : List (Origin Nat) :=
  (s.preorder.zipIdx number).flatMap fun (part, i) => (part.labels settings).map fun l => (i, l)

/-- A plain action. -/
def isStep : Statement → Bool
  | .step _ => true
  | _ => false

/-- A branch, with another block or without. -/
def isBranch : Statement → Bool
  | .ifThen .. | .ifThenElse .. => true
  | _ => false

/-- A loop. -/
def isLoop : Statement → Bool
  | .whileDo .. => true
  | _ => false

variable {settings : Settings} {number : Nat} {next : Option Nat}

/-- **The ways of a tree begin as its nodes have them to offer**, whatever comes next. -/
theorem map_origin_ways {s : Statement} :
    (s.ways settings number next).map Way.origin = s.origins settings number := by
  induction s generalizing number next with
  | step text => rfl
  | exit => rfl
  | ifThen condition thenBranch ih =>
    rw [ways_ifThen, List.map_cons, List.map_cons, ih]
    rfl
  | ifThenElse condition thenBranch elseBranch ihThen ihElse =>
    rw [ways_ifThenElse, List.map_cons, List.map_cons, List.map_append, ihThen, ihElse]
    simp [origins, preorder, size, List.zipIdx_append, labels, Way.origin]
  | whileDo condition body ih =>
    rw [ways_whileDo, List.map_cons, List.map_cons, ih]
    rfl
  | hole => rfl
  | nil => rfl
  | cons s rest ihFirst ihRest =>
    rw [ways_cons, List.map_append, ihFirst, ihRest]
    simp [origins, preorder, preorderList, size, List.zipIdx_append]

/-- A step has one way on, a branch and a loop have two, and nothing else has any. -/
theorem length_origins (s : Statement) :
    (s.origins settings number).length =
      s.preorder.countP isStep + 2 * s.preorder.countP isBranch +
        2 * s.preorder.countP isLoop := by
  unfold origins
  induction s.preorder generalizing number with
  | nil => rfl
  | cons part parts ih =>
    rw [List.zipIdx_cons, List.flatMap_cons, List.length_append, ih]
    -- the labels of each kind are as many as it counts for
    cases part <;> simp [labels, isStep, isBranch, isLoop, List.countP_cons] <;> omega

/-- An exit has no way on. -/
theorem ne_of_mem_origins {s : Statement} {i : Nat} (hexit : s.preorder[i]? = some .exit)
    {o : Origin Nat} (ho : o ∈ s.origins settings number) : o.1 ≠ number + i := by
  obtain ⟨⟨part, j⟩, hpart, hlabel⟩ := List.mem_flatMap.1 ho
  obtain ⟨l, hl, rfl⟩ := List.mem_map.1 hlabel
  rintro (rfl : j = number + i)
  -- the number finds the statement again, and it is the exit
  have hfound := List.mem_zipIdx_iff_le_and_getElem?_sub.1 hpart
  rw [Nat.add_sub_cancel_left, hexit] at hfound
  obtain rfl := Option.some.inj hfound.2
  simp [labels] at hl

end Statement

/-! ## §2 Conservation -/

variable {settings : Settings} {stem : String} {number : Nat} {incoming outgoing : List LooseEnd}
  {s : Statement} {d : Drawing}

/-- What a drawing connects and leaves loose begins as what came in, and as the nodes of
    the statement have it to offer. -/
theorem Drawing.Draws.perm_origins
    (h : d.Draws settings stem number incoming s outgoing) :
    ((connectionsIn d.records).map Connection.origin ++ outgoing.map LooseEnd.origin).Perm
      (incoming.map LooseEnd.origin ++
        (s.origins settings number).map (Prod.map (numberedId stem) id)) := by
  -- where the outgoing ends lead does not matter here
  have hperm := (h.led none).map Way.origin
  simp only [List.map_append, List.map_map, origin_comp_way, origin_comp_lead,
    origin_comp_named] at hperm
  rw [← @Statement.map_origin_ways settings number none, List.map_map]
  exact hperm

/-- Only a loose end that came in can leave the node of an exit. -/
theorem Drawing.Draws.exists_incoming_of_exit
    (h : d.Draws settings stem number incoming s outgoing) {i : Nat}
    (hexit : s.preorder[i]? = some .exit) {c : Connection} (hc : c ∈ connectionsIn d.records)
    (hsource : c.source = numberedId stem (number + i)) :
    ∃ e ∈ incoming, e.source.id = c.source := by
  have hmem : c.origin ∈ incoming.map LooseEnd.origin ++
      (s.origins settings number).map (Prod.map (numberedId stem) id) :=
    h.perm_origins.subset (List.mem_append_left _ (List.mem_map_of_mem hc))
  rcases List.mem_append.1 hmem with hin | hown
  · obtain ⟨e, he, horigin⟩ := List.mem_map.1 hin
    exact ⟨e, he, congrArg Prod.fst horigin⟩
  · -- the nodes of the statement offer nothing that leaves an exit
    obtain ⟨o, ho, horigin⟩ := List.mem_map.1 hown
    have hnumber : numberedId stem o.1 = numberedId stem (number + i) :=
      (congrArg Prod.fst horigin).trans hsource
    exact absurd (numberedId_inj.1 hnumber) (Statement.ne_of_mem_origins hexit ho)

/-- **No loose end is lost or doubled.**  Whatever the chart, the settings and the loose
    ends that come in: the connections a statement adds and the ends it leaves loose begin
    as the ends that came in, and for each node it declares as the kind of its statement
    has it: once without a label for a step, once with either label for a branch or a loop,
    never for an exit.  The node of an exit is left only by ends that already came in as
    leaving it.

    In a whole program none comes in.  So no connection leaves an exit, and connections and
    exits of the program are together one for each step and two for each branch and loop. -/
theorem draw_conserves_ends (settings : Settings) (g : Graph) :
    (∀ (incoming : List LooseEnd) (s : Statement), s.holeFree = true →
      ∃ records outgoing,
        (g.draw settings incoming s).result = .ok outgoing ∧
        (g.draw settings incoming s).graph.records = g.records ++ records ∧
        declarationsIn records = s.nodes settings g.stem g.nextNumber ∧
        ((connectionsIn records).map Connection.origin ++ outgoing.map LooseEnd.origin).Perm
          (incoming.map LooseEnd.origin ++
            (s.origins settings g.nextNumber).map (Prod.map (numberedId g.stem) id)) ∧
        ∀ i, s.preorder[i]? = some .exit → ∀ c ∈ connectionsIn records,
          c.source = numberedId g.stem (g.nextNumber + i) →
            ∃ e ∈ incoming, e.source.id = c.source) ∧
    (∀ statements, (Statement.block statements).holeFree = true →
      ∃ records ending,
        (g.drawProgram settings (.block statements)).result = .ok ending ∧
        (g.drawProgram settings (.block statements)).graph.records = g.records ++ records ∧
        (connectionsIn records).length + ending.exits.length =
          (Statement.block statements).preorder.countP Statement.isStep +
            2 * (Statement.block statements).preorder.countP Statement.isBranch +
            2 * (Statement.block statements).preorder.countP Statement.isLoop ∧
        ∀ i, (Statement.block statements).preorder[i]? = some .exit →
          ∀ c ∈ connectionsIn records, c.source ≠ numberedId g.stem (g.nextNumber + i)) := by
  refine ⟨fun incoming s hs => ?_, fun statements hs => ?_⟩
  · obtain ⟨outgoing, hd⟩ := Statement.draw_spec hs g.nextNumber incoming
    refine ⟨_, outgoing, hd.outgoing_eq, Graph.records_draw settings g incoming s, hd.declared,
      hd.perm_origins, ?_⟩
    intro i hexit c hc hsource
    exact hd.exists_incoming_of_exit hexit hc hsource
  · obtain ⟨d, outgoing, hd, hresult, hrecords⟩ := Graph.drawProgram_spec hs
    refine ⟨_, _, hresult, hrecords.trans (List.append_assoc ..), ?_, ?_⟩
    · -- nothing came in, so all that is there comes from the nodes
      have hlength := hd.perm_origins.length_eq
      rw [List.map_nil, List.nil_append, List.length_map, Statement.length_origins] at hlength
      simpa using hlength
    · intro i hexit c hc hsource
      -- the terminals are declared without connections
      have hd_mem : c ∈ connectionsIn d.records := by simpa using hc
      obtain ⟨e, he, _⟩ := hd.exists_incoming_of_exit hexit hd_mem hsource
      exact absurd he (List.not_mem_nil)

/-- A loose end comes in twice at a loop around an empty branch, a step and an `exit`: of
    the seven ends that there are then, all are led somewhere or left loose. -/
theorem exists_draw_loop_of_doubled_end :
    (Statement.whileDo "more" [.ifThen "odd" [], .step "rest", .exit]).holeFree = true ∧
      ∃ records outgoing,
        (Graph.draw {} {} (List.replicate 2 ⟨⟨"start", .empty⟩, none⟩)
            (.whileDo "more" [.ifThen "odd" [], .step "rest", .exit])).result = .ok outgoing ∧
          (Graph.draw {} {} (List.replicate 2 ⟨⟨"start", .empty⟩, none⟩)
            (.whileDo "more" [.ifThen "odd" [], .step "rest", .exit])).graph.records = records ∧
          (connectionsIn records).length + outgoing.length = 7 := by
  refine ⟨rfl, ?_⟩
  obtain ⟨records, outgoing, hresult, hrecords, _, hperm, _⟩ :=
    (draw_conserves_ends {} {}).1 (List.replicate 2 ⟨⟨"start", .empty⟩, none⟩)
      (.whileDo "more" [.ifThen "odd" [], .step "rest", .exit]) rfl
  refine ⟨records, outgoing, hresult, hrecords, ?_⟩
  have hlength := hperm.length_eq
  rw [List.length_append, List.length_map, List.length_map] at hlength
  exact hlength

end Flowchart
