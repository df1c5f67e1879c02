import Flowchart.Chart.Summary
import Flowchart.Proofs.Reachable

/-!
# The Unreachable Nodes of a Chart Are the Dead Code of Its Program

A statement is dead if it stands after one that lets nothing past, in its own block or in a
block around it.  Dead code is drawn like any other, and its ways lead to later statements
and back to the conditions of loops.  Still the nodes that the first node of the chart leads
to are just those of the other statements, the live ones.

* A way from a live statement leads to a live one, or past a statement that can be completed
  (`Statement.live_target`).  So nothing dead is reached.
* The live nodes of a statement are reached from its first node (`Statement.Live.reached`):
  where one statement follows another, the ways cross the one before.
-/

namespace Flowchart

namespace Statement

variable {settings : Settings} {number i : Nat} {next : Option Nat}

/-! ## §1 Live statements -/

theorem length_reached (here : Bool) (s : Statement) : (s.reached here).length = s.size := by
  induction s generalizing here with
  | step text => rfl
  | exit => rfl
  | ifThen condition thenBranch ih => exact congrArg (· + 1) (ih here)
  | ifThenElse condition thenBranch elseBranch ihThen ihElse =>
    change (_ ++ _ : List Bool).length + 1 = _
    rw [List.length_append, size_ifThenElse]
    exact congrArg (· + 1) (congrArg₂ (· + ·) (ihThen here) (ihElse here))
  | whileDo condition body ih => exact congrArg (· + 1) (ih here)
  | hole => rfl
  | nil => rfl
  | cons s rest ihFirst ihRest =>
    change (_ ++ _ : List Bool).length = _
    rw [List.length_append, size_cons]
    exact congrArg₂ (· + ·) (ihFirst here) (ihRest _)

/-- Nothing is reached inside a statement that is not reached. -/
theorem not_mem_reached_false (s : Statement) : true ∉ s.reached false := by
  induction s with
  | step text => simp [reached]
  | exit => simp [reached]
  | ifThen condition thenBranch ih => simpa [reached] using ih
  | ifThenElse condition thenBranch elseBranch ihThen ihElse =>
    simpa [reached] using And.intro ihThen ihElse
  | whileDo condition body ih => simpa [reached] using ih
  | hole => simp [reached]
  | nil => simp [reached, reachedList]
  | cons s rest ihFirst ihRest => simpa [reached, reachedList] using And.intro ihFirst ihRest

/-- The node `i` belongs to a live statement inside a statement that is reached, and whose
    nodes are numbered from `number`. -/
def Live (number : Nat) (s : Statement) (i : Nat) : Prop :=
  (true, i) ∈ (s.reached true).zipIdx number

theorem Live.bounds {s : Statement} (h : s.Live number i) :
    number ≤ i ∧ i < number + s.size := by
  obtain ⟨hlow, hhigh, -⟩ := List.mem_zipIdx h
  rw [length_reached] at hhigh
  exact ⟨hlow, hhigh⟩

theorem live_step {text : String} : (step text).Live number i ↔ i = number := by
  simp [Live, reached]

theorem live_exit : exit.Live number i ↔ i = number := by
  simp [Live, reached]

theorem live_ifThen {condition : String} {thenBranch : List Statement} :
    (ifThen condition thenBranch).Live number i ↔
      i = number ∨ (block thenBranch).Live (number + 1) i := by
  simp [Live, reached]

theorem live_ifThenElse {condition : String} {thenBranch elseBranch : List Statement} :
    (ifThenElse condition thenBranch elseBranch).Live number i ↔
      i = number ∨ (block thenBranch).Live (number + 1) i ∨
        (block elseBranch).Live (number + 1 + (block thenBranch).size) i := by
  rw [← length_reached true (block thenBranch)]
  simp [Live, reached, List.zipIdx_append]

theorem live_whileDo {condition : String} {body : List Statement} :
    (whileDo condition body).Live number i ↔
      i = number ∨ (block body).Live (number + 1) i := by
  simp [Live, reached]

theorem not_live_hole : ¬hole.Live number i := by
  simp [Live, reached]

theorem not_live_nil : ¬(block []).Live number i := by
  simp [Live, reached, reachedList]

/-- What follows a statement is live only if the statement lets the flow past. -/
theorem live_cons {s : Statement} {rest : List Statement} :
    (block (s :: rest)).Live number i ↔
      s.Live number i ∨ (s.canComplete = true ∧ (block rest).Live (number + s.size) i) := by
  have hsplit : (block (s :: rest)).Live number i ↔
      s.Live number i ∨
        (true, i) ∈ ((block rest).reached s.canComplete).zipIdx (number + s.size) := by
    rw [← length_reached true s]
    simp [Live, reached, reachedList, List.zipIdx_append]
  rw [hsplit]
  cases s.canComplete with
  | true => simp [Live]
  | false =>
    have hnone : (true, i) ∉ ((block rest).reached false).zipIdx (number + s.size) :=
      fun h => not_mem_reached_false _ (List.fst_mem_of_mem_zipIdx h)
    simp [hnone]

/-- A statement without nodes lets the flow past. -/
theorem canComplete_of_size_eq_zero {s : Statement} (hfree : s.holeFree = true)
    (h : s.size = 0) : s.canComplete = true := by
  induction s with
  | nil => rfl
  | cons s rest ihFirst ihRest =>
    obtain ⟨hs, hrest⟩ := Bool.and_eq_true_iff.1 hfree
    rw [size_cons, Nat.add_eq_zero_iff] at h
    exact Bool.and_eq_true_iff.2 ⟨ihFirst hs h.1, ihRest hrest h.2⟩
  | hole => cases hfree
  | _ => simp at h

/-- The first node of a statement is live. -/
theorem live_number {s : Statement} (hfree : s.holeFree = true) (hpos : 0 < s.size) :
    s.Live number number := by
  induction s generalizing number with
  | step text => exact live_step.2 rfl
  | exit => exact live_exit.2 rfl
  | ifThen condition thenBranch ih => exact live_ifThen.2 (.inl rfl)
  | ifThenElse condition thenBranch elseBranch ihThen ihElse => exact live_ifThenElse.2 (.inl rfl)
  | whileDo condition body ih => exact live_whileDo.2 (.inl rfl)
  | hole => cases hfree
  | nil => simp at hpos
  | cons s rest ihFirst ihRest =>
    obtain ⟨hs, hrest⟩ := Bool.and_eq_true_iff.1 hfree
    rcases Nat.eq_zero_or_pos s.size with hzero | hspos
    · -- the first node is one of the others
      rw [size_cons, hzero, Nat.zero_add] at hpos
      have hlive := @ihRest (number + s.size) hrest hpos
      refine live_cons.2 (.inr ⟨canComplete_of_size_eq_zero hs hzero, ?_⟩)
      simpa [hzero] using hlive
    · exact live_cons.2 (.inl (ihFirst hs hspos))

/-! ## §2 Nothing dead is reached -/

/-- Where a way from the live part of a statement may lead: to a live node of it, or to what
    comes next if the statement can be completed. -/
def LeadsLive (number : Nat) (next : Option Nat) (s : Statement) (target : Option Nat) : Prop :=
  (target = next ∧ s.canComplete = true) ∨ ∃ t, target = some t ∧ s.Live number t

/-- To enter a statement leads to a live node, or past it. -/
theorem leadsLive_entry {s : Statement} (hfree : s.holeFree = true) :
    s.LeadsLive number next (s.entry number next) := by
  rcases Nat.eq_zero_or_pos s.size with hzero | hpos
  · exact .inl ⟨entry_of_size_eq_zero hzero, canComplete_of_size_eq_zero hfree hzero⟩
  · exact .inr ⟨number, entry_of_size_pos hpos, live_number hfree hpos⟩

/-- **A way from a live node leads to a live node**, or past the statement, which can be
    completed then. -/
theorem live_target {s : Statement} {w : Way Nat} (hfree : s.holeFree = true)
    (hw : w ∈ s.ways settings number next) (hlive : s.Live number w.source) :
    s.LeadsLive number next w.target := by
  induction s generalizing number next with
  | step text =>
    obtain rfl := List.mem_singleton.1 hw
    exact .inl ⟨rfl, rfl⟩
  | exit => simp at hw
  | ifThen condition thenBranch ih =>
    -- what leaves the block leaves the branch, which can always be completed
    have hpart : ∀ {target}, (block thenBranch).LeadsLive (number + 1) next target →
        (ifThen condition thenBranch).LeadsLive number next target := by
      rintro target (⟨rfl, -⟩ | ⟨t, rfl, ht⟩)
      · exact .inl ⟨rfl, rfl⟩
      · exact .inr ⟨t, rfl, live_ifThen.2 (.inr ht)⟩
    simp only [ways_ifThen, List.mem_cons] at hw
    rcases hw with rfl | rfl | hw
    · exact hpart (leadsLive_entry hfree)
    · exact .inl ⟨rfl, rfl⟩
    · have hsource := (source_mem_ways hw).1
      exact hpart (ih hfree hw ((live_ifThen.1 hlive).resolve_left (by omega)))
  | ifThenElse condition thenBranch elseBranch ihThen ihElse =>
    obtain ⟨hthen, helse⟩ := Bool.and_eq_true_iff.1 hfree
    have hfirst : ∀ {target}, (block thenBranch).LeadsLive (number + 1) next target →
        (ifThenElse condition thenBranch elseBranch).LeadsLive number next target := by
      rintro target (⟨rfl, hcomplete⟩ | ⟨t, rfl, ht⟩)
      · exact .inl ⟨rfl, Bool.or_eq_true_iff.2 (.inl hcomplete)⟩
      · exact .inr ⟨t, rfl, live_ifThenElse.2 (.inr (.inl ht))⟩
    have hother : ∀ {target}, (block elseBranch).LeadsLive
          (number + 1 + (block thenBranch).size) next target →
        (ifThenElse condition thenBranch elseBranch).LeadsLive number next target := by
      rintro target (⟨rfl, hcomplete⟩ | ⟨t, rfl, ht⟩)
      · exact .inl ⟨rfl, Bool.or_eq_true_iff.2 (.inr hcomplete)⟩
      · exact .inr ⟨t, rfl, live_ifThenElse.2 (.inr (.inr ht))⟩
    simp only [ways_ifThenElse, List.mem_cons, List.mem_append] at hw
    rcases hw with rfl | rfl | hw | hw
    · exact hfirst (leadsLive_entry hthen)
    · exact hother (leadsLive_entry helse)
    · have hsource := source_mem_ways hw
      rcases live_ifThenElse.1 hlive with heq | hlive | hlive
      · omega
      · exact hfirst (ihThen hthen hw hlive)
      · have := hlive.bounds.1
        omega
    · have hsource := source_mem_ways hw
      rcases live_ifThenElse.1 hlive with heq | hlive | hlive
      · omega
      · have := hlive.bounds.2
        omega
      · exact hother (ihElse helse hw hlive)
  | whileDo condition body ih =>
    -- what leaves the body comes back to the condition, which is live
    have hpart : ∀ {target}, (block body).LeadsLive (number + 1) (some number) target →
        (whileDo condition body).LeadsLive number next target := by
      rintro target (⟨rfl, -⟩ | ⟨t, rfl, ht⟩)
      · exact .inr ⟨number, rfl, live_whileDo.2 (.inl rfl)⟩
      · exact .inr ⟨t, rfl, live_whileDo.2 (.inr ht)⟩
    simp only [ways_whileDo, List.mem_cons] at hw
    rcases hw with rfl | rfl | hw
    · exact hpart (leadsLive_entry hfree)
    · exact .inl ⟨rfl, rfl⟩
    · have hsource := (source_mem_ways hw).1
      exact hpart (ih hfree hw ((live_whileDo.1 hlive).resolve_left (by omega)))
  | hole => simp at hw
  | nil => simp at hw
  | cons s rest ihFirst ihRest =>
    obtain ⟨hs, hrest⟩ := Bool.and_eq_true_iff.1 hfree
    -- the others are live as soon as the first statement can be completed
    have hothers : ∀ {target}, s.canComplete = true →
        (block rest).LeadsLive (number + s.size) next target →
        (block (s :: rest)).LeadsLive number next target := by
      rintro target hcomplete (⟨rfl, hlater⟩ | ⟨t, rfl, ht⟩)
      · exact .inl ⟨rfl, Bool.and_eq_true_iff.2 ⟨hcomplete, hlater⟩⟩
      · exact .inr ⟨t, rfl, live_cons.2 (.inr ⟨hcomplete, ht⟩)⟩
    simp only [ways_cons, List.mem_append] at hw
    rcases hw with hw | hw
    · have hsource := source_mem_ways hw
      rcases live_cons.1 hlive with hlive | ⟨-, hlive⟩
      · rcases ihFirst hs hw hlive with ⟨hentry, hcomplete⟩ | ⟨t, ht, hown⟩
        · exact hentry ▸ hothers hcomplete (leadsLive_entry hrest)
        · exact .inr ⟨t, ht, live_cons.2 (.inl hown)⟩
      · have := hlive.bounds.1
        omega
    · have hsource := source_mem_ways hw
      rcases live_cons.1 hlive with hlive | ⟨hcomplete, hlive⟩
      · have := hlive.bounds.2
        omega
      · exact hothers hcomplete (ihRest hrest hw hlive)

/-! ## §3 All that is live is reached -/

/-- **The live nodes of a statement are reached from its first node.** -/
theorem Live.reached {s : Statement} {all : List (Way Nat)}
    (hsite : Site.Within settings all ⟨number, next, s⟩) (h : s.Live number i) :
    Relation.ReflTransGen (LeadsTo all) number i := by
  induction s generalizing number next with
  | step text => exact live_step.1 h ▸ .refl
  | exit => exact live_exit.1 h ▸ .refl
  | ifThen condition thenBranch ih =>
    rcases live_ifThen.1 h with rfl | h
    · exact .refl
    · have hpos : 0 < (block thenBranch).size := by have := h.bounds; omega
      have hin : LeadsTo all number (number + 1) :=
        ⟨_, hsite.mem (.head _), rfl, entry_of_size_pos hpos⟩
      exact .head hin (ih (hsite.part .onlyBranch) h)
  | ifThenElse condition thenBranch elseBranch ihThen ihElse =>
    rcases live_ifThenElse.1 h with rfl | h | h
    · exact .refl
    · have hpos : 0 < (block thenBranch).size := by have := h.bounds; omega
      have hin : LeadsTo all number (number + 1) :=
        ⟨_, hsite.mem (.head _), rfl, entry_of_size_pos hpos⟩
      exact .head hin (ihThen (hsite.part .thenBranch) h)
    · have hpos : 0 < (block elseBranch).size := by have := h.bounds; omega
      have hin : LeadsTo all number (number + 1 + (block thenBranch).size) :=
        ⟨_, hsite.mem (.tail _ (.head _)), rfl, entry_of_size_pos hpos⟩
      exact .head hin (ihElse (hsite.part .elseBranch) h)
  | whileDo condition body ih =>
    rcases live_whileDo.1 h with rfl | h
    · exact .refl
    · have hpos : 0 < (block body).size := by have := h.bounds; omega
      have hin : LeadsTo all number (number + 1) :=
        ⟨_, hsite.mem (.head _), rfl, entry_of_size_pos hpos⟩
      exact .head hin (ih (hsite.part .body) h)
  | hole => exact absurd h not_live_hole
  | nil => exact absurd h not_live_nil
  | cons s rest ihFirst ihRest =>
    rcases live_cons.1 h with h | ⟨hcomplete, h⟩
    · exact ihFirst (hsite.part .first) h
    · have hothers := ihRest (hsite.part .others) h
      rcases Nat.eq_zero_or_pos s.size with hzero | hpos
      · simpa [hzero] using hothers
      · -- the first statement is crossed, and its last way leads to the others
        have hrest : 0 < (block rest).size := by have := h.bounds; omega
        obtain ⟨w, hw, hentry, hchain⟩ := exists_way_to_next hcomplete hpos (hsite.part .first)
        rw [entry_of_size_pos hrest] at hentry
        have hcrossed : Relation.ReflTransGen (LeadsTo all) number w.source :=
          Relation.ReflTransGen.mono (fun _ _ hforward => hforward.2) _ _ hchain
        have hstep : LeadsTo all w.source (number + s.size) :=
          ⟨w, (hsite.part .first).mem hw, rfl, hentry⟩
        exact (hcrossed.tail hstep).trans hothers

end Statement

/-! ## §4 The unreachable nodes of a program -/

variable {settings : Settings} {statements : List Statement}

/-- Nothing comes after a program, so what its first node leads to is what is live. -/
theorem leads_iff_live (hfree : (Statement.block statements).holeFree = true)
    (hpos : 0 < (Statement.block statements).size) {i : Nat} :
    Relation.ReflTransGen (LeadsTo ((Statement.block statements).ways settings 0 none)) 0 i ↔
      (Statement.block statements).Live 0 i := by
  constructor
  · intro h
    -- each way from a live node leads to a live one, and nothing comes after the program
    induction h with
    | refl => exact Statement.live_number hfree hpos
    | tail _ hstep ih =>
      obtain ⟨w, hw, rfl, htarget⟩ := hstep
      rcases Statement.live_target hfree hw ih with ⟨hnone, -⟩ | ⟨t, ht, hlive⟩
      · rw [htarget] at hnone
        cases hnone
      · obtain rfl := Option.some.inj (htarget.symm.trans ht)
        exact hlive
  · intro h
    have hsite : Site.Within settings ((Statement.block statements).ways settings 0 none)
        ⟨0, none, .block statements⟩ := Site.within_self
    exact h.reached hsite

/-- The search for unreachable nodes takes whatever the first node of a program leads to. -/
theorem mem_visited_drawProgram (hfree : (Statement.block statements).holeFree = true)
    (hpos : 0 < (Statement.block statements).size) {id : String} :
    id ∈ (Search.run (drawProgram settings (.block statements)).graph.toMultigraph
        ((drawProgram settings (.block statements)).graph.toMultigraph.ids.take 1)).visited ↔
      Relation.ReflTransGen (drawProgram settings (.block statements)).graph.Connects
        (numberedId "n" 0) id := by
  have hfirst : (drawProgram settings (.block statements)).graph.toMultigraph.ids.take 1 =
      [numberedId "n" 0] := by
    obtain ⟨m, hm⟩ := Nat.exists_eq_succ_of_ne_zero (Nat.ne_of_gt hpos)
    rw [ids_drawProgram hfree, hm, List.range_succ_eq_map]
    rfl
  rw [Search.mem_visited_run_iff (Graph.successors_subset_ids _) (List.take_subset 1 _), hfirst,
    Graph.precedes_eq_connects]
  simp

/-- The nodes of the dead statements of a program, in preorder. -/
def deadNodes (statements : List Statement) : List String :=
  (((Statement.block statements).reached true).zipIdx.filter fun x => !x.1).map
    fun x => numberedId "n" x.2

/-- **The unreachable nodes are exactly the dead code.**  For every program without holes and
    all settings: the summary of its chart lists, in preorder, the nodes of the statements that
    are dead, because a statement before them in a block around them cannot be completed; and
    the connections lead from the first node to a node just if its statement is live. -/
theorem unreachable_drawProgram (settings : Settings) {statements : List Statement}
    (hfree : (Statement.block statements).holeFree = true) :
    (drawProgram settings (.block statements)).graph.summary.unreachable =
        deadNodes statements ∧
      ∀ i, i < (Statement.block statements).size →
        (Relation.ReflTransGen (drawProgram settings (.block statements)).graph.Connects
            (numberedId "n" 0) (numberedId "n" i) ↔
          ((Statement.block statements).reached true)[i]? = some true) := by
  have hlive : ∀ i, i < (Statement.block statements).size →
      (Relation.ReflTransGen (drawProgram settings (.block statements)).graph.Connects
          (numberedId "n" 0) (numberedId "n" i) ↔
        ((Statement.block statements).reached true)[i]? = some true) := by
    intro i hi
    rw [connected_drawProgram_iff hfree, leads_iff_live hfree (Nat.zero_lt_of_lt hi)]
    exact List.mem_zipIdx_iff_getElem?
  refine ⟨?_, hlive⟩
  have hnames : (drawProgram settings (.block statements)).graph.toMultigraph.ids =
      ((Statement.block statements).reached true).zipIdx.map fun x => numberedId "n" x.2 := by
    have hnumbers := List.zipIdx_map_snd 0 ((Statement.block statements).reached true)
    rw [Statement.length_reached, ← List.range_eq_range'] at hnumbers
    rw [ids_drawProgram hfree, ← hnumbers, List.map_map]
    rfl
  -- both lists name statements in preorder, so one statement is looked at
  change List.filter _ _ = _
  rw [hnames, deadNodes, List.filter_map, ← hnames]
  refine congrArg _ (List.filter_congr fun x hx => ?_)
  obtain ⟨live, i⟩ := x
  have hfound := List.mem_zipIdx_iff_getElem?.1 hx
  have hi : i < (Statement.block statements).size := by
    rw [← Statement.length_reached true]
    exact (List.getElem?_eq_some_iff.1 hfound).1
  -- the search takes it just if it is connected to the first node, that is if it is live
  have hvisited := (mem_visited_drawProgram hfree (Nat.zero_lt_of_lt hi)).trans (hlive i hi)
  rw [hfound, Option.some_inj] at hvisited
  exact congrArg (!·) (Bool.eq_iff_iff.2 (List.contains_iff_mem.trans hvisited))

/-- The step after an `exit` in a loop is dead, although its way leads back to the condition
    of the loop; what follows the loop is live. -/
theorem unreachable_of_exit_in_loop :
    (Statement.block [.whileDo "more" [.exit, .step "never"], .step "on"]).holeFree = true ∧
      (drawProgram {} (.block [.whileDo "more" [.exit, .step "never"],
        .step "on"])).graph.summary.unreachable = [numberedId "n" 2] :=
  ⟨rfl, (@unreachable_drawProgram {}
    [.whileDo "more" [.exit, .step "never"], .step "on"] rfl).1⟩

end Flowchart
