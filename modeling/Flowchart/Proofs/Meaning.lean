import Flowchart.Program.Execution
import Flowchart.Proofs.Drawn
import Flowchart.Proofs.Runs

/-!
# A Chart Means What Its Program Means

A program is run, and its chart is walked.  Both leave a trace behind, the statements met
with the labels of the ways taken, and both may end past the last statement or at an
`exit`.  Drawing preserves all of it: the runs of a program and the walks through its
chart leave the same traces and end alike (`walk_drawProgram_iff_runs`).

The comparison goes over the ways of the tree.  A chart with its loose ends is a list of
ways between named nodes, up to order the ways of the tree with the numbers named
(`Graph.perm_leads_drawProgram`), and along those walks are runs.
-/

namespace Flowchart

/-! ## §1 Walks through a chart -/

theorem Graph.way_mem_leads {g : Graph} {exits : List LooseEnd} {c : Connection}
    (h : c ∈ g.connections) : c.way ∈ g.leads exits :=
  List.mem_append_left _ (List.mem_map_of_mem h)

theorem Graph.lead_mem_leads {g : Graph} {exits : List LooseEnd} {e : LooseEnd}
    (h : e ∈ exits) : e.lead none ∈ g.leads exits :=
  List.mem_append_right _ (List.mem_map_of_mem h)

/-- A walk through a chart is a walk along its connections and loose ends. -/
theorem Graph.walk_iff {g : Graph} {exits : List LooseEnd} {id : String} {trace : Trace String}
    {e : RunEnd} :
    g.Walk exits id trace e ↔ Way.Walk (g.leads exits) none (some id) trace e := by
  constructor
  · intro h
    induction h with
    | halt hconnections hexits =>
      apply Way.Walk.halt
      intro w hw
      rcases List.mem_append.1 hw with hw | hw
      · obtain ⟨c, hc, rfl⟩ := List.mem_map.1 hw
        exact hconnections c hc
      · obtain ⟨e, he, rfl⟩ := List.mem_map.1 hw
        exact hexits e he
    | leave he => exact Way.Walk.follow (lead_mem_leads he) .arrive
    | follow hc _ ih => exact Way.Walk.follow (way_mem_leads hc) ih
  · intro h
    -- the walk goes from place to place, where the end is a place as well
    generalize hstart : some id = start at h
    induction h generalizing id with
    | arrive => cases hstart
    | halt hquiet =>
      obtain rfl := Option.some.inj hstart
      apply Graph.Walk.halt
      · intro c hc
        exact hquiet _ (way_mem_leads hc)
      · intro e he
        exact hquiet _ (lead_mem_leads he)
    | follow hw hrest ih =>
      obtain rfl := Option.some.inj hstart
      rcases List.mem_append.1 hw with hw | hw
      · obtain ⟨c, hc, rfl⟩ := List.mem_map.1 hw
        exact Graph.Walk.follow hc (ih rfl)
      · obtain ⟨e, he, rfl⟩ := List.mem_map.1 hw
        -- past the end there is nothing left to walk
        cases hrest
        exact Graph.Walk.leave he

/-! ## §2 Walks between named nodes -/

namespace Way.Walk

variable {ν : Type} {ways ways' : List (Way ν)} {goal start : Option ν} {trace : Trace ν}
  {e : RunEnd}

/-- Only which ways there are matters to a walk. -/
theorem congr (hways : ∀ w, w ∈ ways ↔ w ∈ ways') (h : Way.Walk ways goal start trace e) :
    Way.Walk ways' goal start trace e := by
  induction h with
  | arrive => exact .arrive
  | halt hquiet => exact .halt fun w hw => hquiet w ((hways w).2 hw)
  | follow hw _ ih => exact .follow ((hways _).1 hw) ih

end Way.Walk

/-- The trace with the nodes of the numbers in it. -/
def Trace.named (stem : String) (trace : Trace Nat) : Trace String :=
  trace.map (Prod.map (numberedId stem) id)

theorem Trace.named_injective (stem : String) : Function.Injective (Trace.named stem) := by
  intro trace trace' h
  apply (List.map_inj_right _).1 h
  rintro ⟨i, label⟩ ⟨j, label'⟩ hsame
  obtain ⟨hid, hlabel⟩ := Prod.mk.inj hsame
  exact Prod.ext (numberedId_injective stem hid) hlabel

namespace Way.Walk

variable {ways : List (Way Nat)} {trace : Trace Nat} {e : RunEnd}

/-- A walk between numbers is a walk between the nodes of these numbers. -/
theorem named {goal start : Option Nat} (stem : String) (h : Way.Walk ways goal start trace e) :
    Way.Walk (ways.map (Way.named stem)) (goal.map (numberedId stem))
      (start.map (numberedId stem)) (trace.named stem) e := by
  induction h with
  | arrive => exact .arrive
  | halt hquiet =>
    apply Way.Walk.halt
    intro w hw hsource
    obtain ⟨w, hmem, rfl⟩ := List.mem_map.1 hw
    exact hquiet w hmem (numberedId_inj.1 hsource)
  | follow hw _ ih => exact Way.Walk.follow (List.mem_map_of_mem hw) ih

/-- A walk between the nodes of numbers comes from a walk between the numbers. -/
theorem exists_of_named {stem : String} {walked : Trace String} (goal start : Option Nat)
    (h : Way.Walk (ways.map (Way.named stem)) (goal.map (numberedId stem))
      (start.map (numberedId stem)) walked e) :
    ∃ trace, walked = Trace.named stem trace ∧ Way.Walk ways goal start trace e := by
  generalize hgoal : goal.map (numberedId stem) = goal' at h
  generalize hstart : start.map (numberedId stem) = start' at h
  induction h generalizing start with
  | arrive =>
    -- names tell numbers apart, so the walk between the numbers has arrived as well
    have hsame : goal = start :=
      Option.map_injective (numberedId_injective stem) (hgoal.trans hstart.symm)
    subst hsame
    exact ⟨[], rfl, .arrive⟩
  | halt hquiet =>
    obtain ⟨i, rfl, rfl⟩ := Option.map_eq_some_iff.1 hstart
    refine ⟨[(i, none)], rfl, .halt fun w hw hsource => ?_⟩
    exact hquiet _ (List.mem_map_of_mem hw) (congrArg (numberedId stem) hsource)
  | follow hw _ ih =>
    obtain ⟨w, hmem, rfl⟩ := List.mem_map.1 hw
    obtain ⟨i, rfl, hi⟩ := Option.map_eq_some_iff.1 hstart
    have hsource : i = w.source := numberedId_inj.1 hi
    subst hsource
    obtain ⟨trace, rfl, hrest⟩ := ih _ rfl
    exact ⟨(w.source, w.label) :: trace, rfl, .follow hmem hrest⟩

end Way.Walk

/-! ## §3 Runs and walks -/

variable {settings : Settings} {statements : List Statement}

/-- A walk along the ways of a program is a run of it. -/
theorem Statement.walk_iff_runs {s : Statement} {number : Nat} {trace : Trace Nat} {e : RunEnd}
    (hfree : s.holeFree = true) :
    Way.Walk (s.ways settings number none) none (s.entry number none) trace e ↔
      s.Runs settings number trace e := by
  have hsite : Site.Within settings (s.ways settings number none) ⟨number, none, s⟩ :=
    Site.within_self
  constructor
  · intro h
    rcases h.splits hfree hsite Site.outside_none with
      ⟨rfl, hrun⟩ | ⟨first, later, rfl, hrun, hlater⟩
    · exact hrun
    · -- nothing comes next, so the walk ends with the run
      cases hlater
      rw [List.append_nil]
      exact hrun
  · intro h
    exact h.walk hsite

/-- **Drawing preserves meaning.**  For every program without holes that has a statement at
    all, and all settings: the traces of the runs of the program, whose statements are
    numbered in preorder, are the traces of the walks through its chart from the first
    node, with the numbers named; and those that end at an `exit`, or past the last
    statement, are so in both.  There are no other walks. -/
theorem walk_drawProgram_iff_runs (settings : Settings) {statements : List Statement}
    (hfree : (Statement.block statements).holeFree = true)
    (hpos : 0 < (Statement.block statements).size) :
    ∃ ending, (drawProgram settings (.block statements)).result = .ok ending ∧
      (∀ trace e,
        (drawProgram settings (.block statements)).graph.Walk ending.exits (numberedId "n" 0)
            (Trace.named "n" trace) e ↔
          (Statement.block statements).Runs settings 0 trace e) ∧
      ∀ walked e,
        (drawProgram settings (.block statements)).graph.Walk ending.exits (numberedId "n" 0)
            walked e →
          ∃ trace, walked = Trace.named "n" trace := by
  have hentry : (Statement.block statements).entry 0 none = some 0 :=
    Statement.entry_of_size_pos hpos
  obtain ⟨ending, hresult, hperm⟩ := Graph.perm_leads_drawProgram (g := {}) hfree rfl
  refine ⟨ending, hresult, ?_, ?_⟩
  · intro trace e
    rw [Graph.walk_iff, ← Statement.walk_iff_runs hfree, hentry]
    constructor
    · intro h
      have hnamed := h.congr fun w => hperm.mem_iff
      obtain ⟨trace', hsame, hwalk⟩ := Way.Walk.exists_of_named none (some 0) hnamed
      rw [Trace.named_injective _ hsame]
      exact hwalk
    · intro h
      exact (h.named "n").congr fun w => hperm.mem_iff.symm
  · intro walked e h
    rw [Graph.walk_iff] at h
    have hnamed := h.congr fun w => hperm.mem_iff
    obtain ⟨trace, hsame, _⟩ := Way.Walk.exists_of_named none (some 0) hnamed
    exact ⟨trace, hsame⟩

/-- In a loop around a branch, the way in, the way into the branch and the `exit` there make
    a walk, because they make a run. -/
theorem exists_walk_to_exit_in_loop :
    (Statement.block [.whileDo "more" [.ifThen "odd" [.exit]]]).holeFree = true ∧
      0 < (Statement.block [.whileDo "more" [.ifThen "odd" [.exit]]]).size ∧
      ∃ ending,
        (drawProgram {} (.block [.whileDo "more" [.ifThen "odd" [.exit]]])).result =
            .ok ending ∧
          (drawProgram {} (.block [.whileDo "more" [.ifThen "odd" [.exit]]])).graph.Walk
            ending.exits (numberedId "n" 0)
            (Trace.named "n" [(0, some "True"), (1, some "True"), (2, none)]) .exited := by
  refine ⟨rfl, by decide, ?_⟩
  obtain ⟨ending, hresult, hiff, _⟩ :=
    @walk_drawProgram_iff_runs {} [.whileDo "more" [.ifThen "odd" [.exit]]] rfl (by decide)
  refine ⟨ending, hresult, (hiff _ _).2 ?_⟩
  exact .block (.stop (.lastRound (.stop (.thenTaken (.stop .exit)))))

end Flowchart
