import Flowchart.Program.Execution
import Flowchart.Proofs.Ways

/-!
# Runs Are Walks

A run of a program is told by its tree; a walk follows ways, from node to node, and knows
nothing of the tree.  Here the two are compared, statement by statement, for walks among
any ways of which those that leave the statement's nodes are its own.

* Every run of a statement is a walk from its entry to what comes next, or to an exit
  (`Statement.Runs.walk`).
* Every walk from the entry to a goal outside the statement begins with a run of it
  (`Way.Walk.splits`).
-/

namespace Flowchart

/-! ## §1 Walks along ways -/

/-- `Way.Walk ways goal start trace e`: a walk along `ways` from `start`, which leaves
    `trace` behind.  It completes when it gets to its goal, and it is over as well at a
    node that no way leaves. -/
inductive Way.Walk {ν : Type} (ways : List (Way ν)) (goal : Option ν) :
    Option ν → Trace ν → RunEnd → Prop where
  /-- The goal is there. -/
  | arrive : Way.Walk ways goal goal [] .completed
  /-- No way leaves the node. -/
  | halt {i : ν} (h : ∀ w ∈ ways, w.source ≠ i) : Way.Walk ways goal (some i) [(i, none)] .exited
  /-- The node is left for another, or for the end. -/
  | follow {w : Way ν} {trace : Trace ν} {e : RunEnd} (h : w ∈ ways)
      (hrest : Way.Walk ways goal w.target trace e) :
      Way.Walk ways goal (some w.source) ((w.source, w.label) :: trace) e

namespace Way.Walk

variable {ν : Type} {ways : List (Way ν)} {goal middle start : Option ν}
  {trace later : Trace ν} {e : RunEnd}

/-- A walk that completes can be gone on with from its goal. -/
theorem append (h : Way.Walk ways middle start trace .completed)
    (hlater : Way.Walk ways goal middle later e) :
    Way.Walk ways goal start (trace ++ later) e := by
  -- the end is an index of the walk, so the induction has to carry it along
  generalize hc : RunEnd.completed = c at h
  induction h with
  | arrive => exact hlater
  | halt hquiet => cases hc
  | follow hmem _ ih => exact .follow hmem (ih hc)

/-- A walk that is over on the way does not look at its goal. -/
theorem retarget (h : Way.Walk ways middle start trace .exited) :
    Way.Walk ways goal start trace .exited := by
  generalize hx : RunEnd.exited = x at h ⊢
  induction h with
  | arrive => cases hx
  | halt hquiet => exact .halt hquiet
  | follow hmem _ ih => exact .follow hmem (ih hx)

/-- A walk that begins at a node with a way on, and not at its goal, follows some way. -/
theorem exists_follow {i : ν} (h : Way.Walk ways goal (some i) trace e) (hgoal : goal ≠ some i)
    {w : Way ν} (hw : w ∈ ways) (hsource : w.source = i) :
    ∃ w ∈ ways, w.source = i ∧
      ∃ rest, trace = (i, w.label) :: rest ∧ Way.Walk ways goal w.target rest e := by
  generalize hstart : some i = begin at h
  cases h with
  | arrive => exact absurd hstart.symm hgoal
  | halt hquiet =>
    obtain rfl := Option.some.inj hstart
    exact absurd hsource (hquiet w hw)
  | follow hmem hrest =>
    obtain rfl := Option.some.inj hstart
    exact ⟨_, hmem, rfl, _, rfl, hrest⟩

end Way.Walk

/-! ## §2 Runs of blocks -/

namespace Statement

variable {settings : Settings} {number : Nat} {trace : Trace Nat} {e : RunEnd}

theorem runs_block_iff {statements : List Statement} :
    (block statements).Runs settings number trace e ↔
      RunsList settings number statements trace e :=
  ⟨fun h => by cases h with | block h => exact h, .block⟩

theorem runs_nil : (block []).Runs settings number [] .completed := .block .nil

theorem runs_cons_stop {s : Statement} {rest : List Statement}
    (h : s.Runs settings number trace .exited) :
    (block (s :: rest)).Runs settings number trace .exited := .block (.stop h)

theorem runs_cons {s : Statement} {rest : List Statement} {later : Trace Nat}
    (h : s.Runs settings number trace .completed)
    (hlater : (block rest).Runs settings (number + s.size) later e) :
    (block (s :: rest)).Runs settings number (trace ++ later) e :=
  .block (.cons h (runs_block_iff.1 hlater))

/-! ## §3 Every run is a walk -/

/-- What a loop leaves behind after its first round is shorter than the whole. -/
theorem length_lt_round (x : Nat × Option String) (first later : Trace Nat) :
    later.length < (x :: (first ++ later)).length := by
  rw [List.length_cons, List.length_append]
  omega

/-- The rounds of a loop are walks around it if the runs of its body are walks. -/
private theorem walk_whileDo {next : Option Nat} {condition : String} {body : List Statement}
    {all : List (Way Nat)}
    (hsite : Site.Within settings all ⟨number, next, .whileDo condition body⟩)
    (hbody : ∀ {trace e}, (block body).Runs settings (number + 1) trace e →
      Way.Walk all (some number) ((block body).entry (number + 1) (some number)) trace e)
    (h : (whileDo condition body).Runs settings number trace e) :
    Way.Walk all next (some number) trace e := by
  have hin : ⟨number, some settings.trueLabel, _⟩ ∈ all := hsite.mem (.head _)
  have hout : ⟨number, some settings.falseLabel, next⟩ ∈ all := hsite.mem (.tail _ (.head _))
  -- a later round leaves a shorter trace behind
  induction hlength : trace.length using Nat.strongRecOn generalizing trace with
  | ind n ih =>
    subst hlength
    cases h with
    | round hround hlater =>
      have hagain := ih _ (length_lt_round _ _ _) hlater rfl
      exact .follow hin ((hbody (.block hround)).append hagain)
    | lastRound hround =>
      -- the walk through the body is over, wherever it was to get to
      exact .follow hin (hbody (.block hround)).retarget
    | loopLeft => exact .follow hout .arrive

/-- **Every run of a statement is a walk** from its entry, either to what comes next or to
    a node that no way leaves. -/
theorem Runs.walk {s : Statement} {next : Option Nat} {all : List (Way Nat)}
    (hsite : Site.Within settings all ⟨number, next, s⟩)
    (h : s.Runs settings number trace e) :
    Way.Walk all next (s.entry number next) trace e := by
  induction s generalizing number next trace e with
  | step text =>
    cases h
    exact .follow (hsite.mem (.head _)) .arrive
  | exit =>
    cases h
    refine .halt fun w hw hsource => ?_
    -- an exit has no way of its own
    exact absurd (hsite.mem_ways Nat.one_pos hw hsource) List.not_mem_nil
  | ifThen condition thenBranch ih =>
    cases h with
    | thenTaken hthen =>
      exact .follow (hsite.mem (.head _)) (ih (hsite.part .onlyBranch) (.block hthen))
    | thenSkipped => exact .follow (hsite.mem (.tail _ (.head _))) .arrive
  | ifThenElse condition thenBranch elseBranch ihThen ihElse =>
    cases h with
    | firstTaken hthen =>
      exact .follow (hsite.mem (.head _)) (ihThen (hsite.part .thenBranch) (.block hthen))
    | otherTaken helse =>
      exact .follow (hsite.mem (.tail _ (.head _)))
        (ihElse (hsite.part .elseBranch) (.block helse))
  | whileDo condition body ih =>
    exact walk_whileDo hsite (fun hbody => ih (hsite.part .body) hbody) h
  | hole => cases h
  | nil =>
    rw [runs_block_iff] at h
    cases h
    exact .arrive
  | cons s rest ihFirst ihRest =>
    rw [runs_block_iff] at h
    rw [entry_cons]
    cases h with
    | stop hs => exact (ihFirst (hsite.part .first) hs).retarget
    | cons hs hrest =>
      exact (ihFirst (hsite.part .first) hs).append
        (ihRest (hsite.part .others) (.block hrest))

end Statement

/-! ## §4 Every walk is a run -/

/-- `p.Splits settings all goal trace e`: what leaves `trace` behind is a run of the
    statement that is over there, or a run of it that completes and then a walk from what
    comes next. -/
def Site.Splits (settings : Settings) (all : List (Way Nat)) (goal : Option Nat) (p : Site)
    (trace : Trace Nat) (e : RunEnd) : Prop :=
  (e = .exited ∧ p.statement.Runs settings p.number trace .exited) ∨
    ∃ first later, trace = first ++ later ∧
      p.statement.Runs settings p.number first .completed ∧ Way.Walk all goal p.next later e

namespace Way.Walk

variable {settings : Settings} {all : List (Way Nat)} {goal : Option Nat} {p : Site}
  {trace : Trace Nat} {e : RunEnd}

/-- A walk from the first node of a statement follows one of its ways, if any leaves that
    node and the goal is elsewhere. -/
theorem exists_own_way {s : Statement} {number : Nat} {next : Option Nat}
    (hsite : Site.Within settings all ⟨number, next, s⟩)
    (hgoal : Site.Outside ⟨number, next, s⟩ goal) (hpos : 0 < s.size) {w : Way Nat}
    (hw : w ∈ s.ways settings number next) (hsource : w.source = number)
    (h : Way.Walk all goal (some number) trace e) :
    ∃ w ∈ s.ways settings number next, w.source = number ∧
      ∃ rest, trace = (number, w.label) :: rest ∧ Way.Walk all goal w.target rest e := by
  obtain ⟨w, hmem, hw_source, hrest⟩ :=
    h.exists_follow (fun hg => hgoal _ hg (Site.covers_number hpos)) (hsite.mem hw) hsource
  exact ⟨w, hsite.mem_ways hpos hmem hw_source, hw_source, hrest⟩

/-- The walks around a loop are its rounds if the walks through its body are runs. -/
private theorem splits_whileDo {number : Nat} {next : Option Nat} {condition : String}
    {body : List Statement}
    (hsite : Site.Within settings all ⟨number, next, .whileDo condition body⟩)
    (hgoal : Site.Outside ⟨number, next, .whileDo condition body⟩ goal)
    (hbody : ∀ {trace e},
      Way.Walk all goal ((Statement.block body).entry (number + 1) (some number)) trace e →
        Site.Splits settings all goal ⟨number + 1, some number, .block body⟩ trace e)
    (h : Way.Walk all goal (some number) trace e) :
    Site.Splits settings all goal ⟨number, next, .whileDo condition body⟩ trace e := by
  -- a round is followed by a shorter walk around the loop
  induction hlength : trace.length using Nat.strongRecOn generalizing trace with
  | ind n ih =>
    subst hlength
    obtain ⟨w, hw, hsource, rest, rfl, hrest⟩ :=
      exists_own_way hsite hgoal (Nat.succ_pos _) (.head _) rfl h
    rw [Statement.ways_whileDo, List.mem_cons, List.mem_cons] at hw
    rcases hw with rfl | rfl | hw
    · -- what comes after the body is the condition, where the shorter walk begins
      rcases hbody hrest with ⟨rfl, hrun⟩ | ⟨first, later, rfl, hround, hlater⟩
      · exact .inl ⟨rfl, .lastRound (Statement.runs_block_iff.1 hrun)⟩
      · have hround' := Statement.runs_block_iff.1 hround
        rcases ih _ (Statement.length_lt_round _ _ _) hlater rfl with
          ⟨rfl, hrun⟩ | ⟨again, after, rfl, hrun, hafter⟩
        · exact .inl ⟨rfl, .round hround' hrun⟩
        · exact .inr ⟨_, after, by simp, .round hround' hrun, hafter⟩
    · exact .inr ⟨[_], rest, rfl, .loopLeft, hrest⟩
    · -- the ways of the body do not leave the condition
      have := (Statement.source_mem_ways hw).1
      omega

/-- **Every walk is a run.**  A walk from the entry of a statement to a goal outside of it
    begins with a run of the statement, and if that completes, goes on from what comes
    next. -/
theorem splits {s : Statement} {number : Nat} {next : Option Nat} (hfree : s.holeFree = true)
    (hsite : Site.Within settings all ⟨number, next, s⟩)
    (hgoal : Site.Outside ⟨number, next, s⟩ goal)
    (h : Way.Walk all goal (s.entry number next) trace e) :
    Site.Splits settings all goal ⟨number, next, s⟩ trace e := by
  induction s generalizing number next trace e with
  | step text =>
    obtain ⟨w, hw, _, rest, rfl, hrest⟩ :=
      exists_own_way hsite hgoal Nat.one_pos (.head _) rfl h
    obtain rfl := List.mem_singleton.1 hw
    exact .inr ⟨[_], rest, rfl, .step, hrest⟩
  | exit =>
    rw [Statement.entry_exit] at h
    -- the walk begins in the statement, so it is not at its goal
    generalize hstart : some number = start at h
    cases h with
    | arrive => exact absurd (Site.covers_number (by simp)) (hgoal _ hstart.symm)
    | halt hquiet =>
      obtain rfl := Option.some.inj hstart
      exact .inl ⟨rfl, .exit⟩
    | follow hmem _ =>
      -- an exit has no way of its own
      exact absurd (hsite.mem_ways Nat.one_pos hmem (Option.some.inj hstart).symm)
        List.not_mem_nil
  | ifThen condition thenBranch ih =>
    obtain ⟨w, hw, hsource, rest, rfl, hrest⟩ :=
      exists_own_way hsite hgoal (Nat.succ_pos _) (.head _) rfl h
    rw [Statement.ways_ifThen, List.mem_cons, List.mem_cons] at hw
    rcases hw with rfl | rfl | hw
    · rcases ih hfree (hsite.part .onlyBranch) (hgoal.part .onlyBranch) hrest with
        ⟨rfl, hrun⟩ | ⟨first, later, rfl, hrun, hlater⟩
      · exact .inl ⟨rfl, .thenTaken (Statement.runs_block_iff.1 hrun)⟩
      · exact .inr ⟨_, later, rfl, .thenTaken (Statement.runs_block_iff.1 hrun), hlater⟩
    · exact .inr ⟨[_], rest, rfl, .thenSkipped, hrest⟩
    · have := (Statement.source_mem_ways hw).1
      omega
  | ifThenElse condition thenBranch elseBranch ihThen ihElse =>
    rw [Statement.holeFree_ifThenElse, Bool.and_eq_true] at hfree
    obtain ⟨w, hw, hsource, rest, rfl, hrest⟩ :=
      exists_own_way hsite hgoal (by simp) (.head _) rfl h
    rw [Statement.ways_ifThenElse, List.mem_cons, List.mem_cons, List.mem_append] at hw
    rcases hw with rfl | rfl | hw | hw
    · rcases ihThen hfree.1 (hsite.part .thenBranch) (hgoal.part .thenBranch) hrest with
        ⟨rfl, hrun⟩ | ⟨first, later, rfl, hrun, hlater⟩
      · exact .inl ⟨rfl, .firstTaken (Statement.runs_block_iff.1 hrun)⟩
      · exact .inr ⟨_, later, rfl, .firstTaken (Statement.runs_block_iff.1 hrun), hlater⟩
    · rcases ihElse hfree.2 (hsite.part .elseBranch) (hgoal.part .elseBranch) hrest with
        ⟨rfl, hrun⟩ | ⟨first, later, rfl, hrun, hlater⟩
      · exact .inl ⟨rfl, .otherTaken (Statement.runs_block_iff.1 hrun)⟩
      · exact .inr ⟨_, later, rfl, .otherTaken (Statement.runs_block_iff.1 hrun), hlater⟩
    · have := (Statement.source_mem_ways hw).1
      omega
    · have := (Statement.source_mem_ways hw).1
      omega
  | whileDo condition body ih =>
    exact splits_whileDo hsite hgoal (ih hfree (hsite.part .body) (hgoal.part .body)) h
  | hole => simp at hfree
  | nil => exact .inr ⟨[], trace, rfl, Statement.runs_nil, h⟩
  | cons s rest ihFirst ihRest =>
    rw [Statement.holeFree_cons, Bool.and_eq_true] at hfree
    rw [Statement.entry_cons] at h
    rcases ihFirst hfree.1 (hsite.part .first) (hgoal.part .first) h with
      ⟨rfl, hrun⟩ | ⟨first, later, rfl, hrun, hlater⟩
    · exact .inl ⟨rfl, Statement.runs_cons_stop hrun⟩
    -- the first statement completed, and its walk goes on through the others
    rcases ihRest hfree.2 (hsite.part .others) (hgoal.part .others) hlater with
      ⟨rfl, hrest⟩ | ⟨second, after, rfl, hrest, hafter⟩
    · exact .inl ⟨rfl, Statement.runs_cons hrun hrest⟩
    · exact .inr ⟨_, after, by simp, Statement.runs_cons hrun hrest, hafter⟩

end Way.Walk

end Flowchart
