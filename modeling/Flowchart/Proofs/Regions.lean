import Mathlib.Logic.Relation
import Flowchart.Program.Execution
import Flowchart.Proofs.Ways

/-!
# Regions of a Program

The nodes of a statement are a run of numbers, its region.  The ways of a program respect
the regions of its statements.

* A region is entered at its first node only (`Site.target_eq_number_of_enters`).
* A way that does not lead forward leads to the condition of a loop around its source
  (`Site.exists_loop_of_not_forward`).
* A statement that can be completed is crossed from its first node to what comes next by
  ways that lead forward, but for the last one (`Statement.exists_way_to_next`), and
  every run that completes shows that it can be (`Statement.Runs.canComplete`).

The last section finds the statements of the preorder among the regions.
-/

namespace Flowchart

namespace Site

variable {settings : Settings} {p q : Site}

/-! ## §1 Regions inside regions -/

/-- A statement stands inside another one, or is it. -/
def Contains (p q : Site) : Prop := Relation.ReflTransGen Part p q

theorem Contains.refl (p : Site) : p.Contains p := Relation.ReflTransGen.refl

theorem Part.contains (h : p.Part q) : p.Contains q := Relation.ReflTransGen.single h

theorem Part.contains_trans {r : Site} (h : p.Part q) (hq : q.Contains r) : p.Contains r :=
  Relation.ReflTransGen.head h hq

/-- The nodes of a statement inside are among those of the whole. -/
theorem Covers.of_contains {i : Nat} (h : q.Covers i) (hpq : p.Contains q) : p.Covers i := by
  induction hpq with
  | refl => exact h
  | tail _ hpart ih => exact ih (h.of_part hpart)

theorem Within.contains {all : List (Way Nat)} (h : p.Within settings all)
    (hpq : p.Contains q) : q.Within settings all := by
  induction hpq with
  | refl => exact h
  | tail _ hpart ih => exact ih.part hpart

theorem Part.holeFree (hpart : p.Part q) (h : p.statement.holeFree = true) :
    q.statement.holeFree = true := by
  cases hpart with
  | onlyBranch => exact h
  | thenBranch => exact (Bool.and_eq_true_iff.1 h).1
  | elseBranch => exact (Bool.and_eq_true_iff.1 h).2
  | body => exact h
  | first => exact (Bool.and_eq_true_iff.1 h).1
  | others => exact (Bool.and_eq_true_iff.1 h).2

/-- What stands inside a tree without holes has none. -/
theorem Contains.holeFree (hpq : p.Contains q) (h : p.statement.holeFree = true) :
    q.statement.holeFree = true := by
  induction hpq with
  | refl => exact h
  | tail _ hpart ih => exact hpart.holeFree ih

/-- What comes next is no node of the statement. -/
def Closed (p : Site) : Prop := p.Outside p.next

theorem Closed.part (h : p.Closed) (hpart : p.Part q) : q.Closed := by
  have hnext := Outside.part h hpart
  cases hpart with
  | onlyBranch => exact hnext
  | thenBranch => exact hnext
  | elseBranch => exact hnext
  | body =>
    -- after the body comes the condition, which is no part of it
    intro i hi hc
    obtain rfl := Option.some.inj hi
    exact Nat.not_succ_le_self _ hc.1
  | @first number next s rest =>
    intro i hi hc
    -- after the first statement come the others, which are none of its nodes either
    have hleads : Statement.LeadsInto (number + s.size) (Statement.block rest).size next
        (some i) := hi ▸ Statement.leadsInto_entry
    rcases hleads with hi | ⟨t, hi, hlow, -⟩
    · exact h i hi.symm (hc.of_part .first)
    · obtain rfl := Option.some.inj hi
      have := hc.2
      dsimp only [stop] at this
      omega
  | others => exact hnext

theorem Closed.contains (h : p.Closed) (hpq : p.Contains q) : q.Closed := by
  induction hpq with
  | refl => exact h
  | tail _ hpart ih => exact ih.part hpart

/-! ## §2 Entering a region -/

/-- Whatever enters a statement gets to its first node, or straight to what comes next. -/
theorem entry_eq_some {s : Statement} {number t : Nat} {next : Option Nat}
    (h : s.entry number next = some t) : t = number ∨ next = some t := by
  rcases Nat.eq_zero_or_pos s.size with hs | hs
  · rw [Statement.entry_of_size_eq_zero hs] at h
    exact .inr h
  · rw [Statement.entry_of_size_pos hs] at h
    exact .inl (Option.some.inj h).symm

/-- If whatever enters a statement does not get to a later node, it gets to what comes
    next. -/
theorem next_eq_some_of_entry {s : Statement} {number i t : Nat} {next : Option Nat}
    (h : s.entry number next = some t) (hback : t ≤ i) (hi : i < number) : next = some t := by
  rcases entry_eq_some h with rfl | hnext
  · exact absurd (Nat.lt_of_lt_of_le hi hback) (Nat.lt_irrefl i)
  · exact hnext

/-- A way of a statement leads to what comes next or to one of its nodes. -/
theorem target_eq_some {s : Statement} {number t : Nat} {next : Option Nat} {w : Way Nat}
    (hw : w ∈ s.ways settings number next) (h : w.target = some t) :
    next = some t ∨ number ≤ t ∧ t < number + s.size := by
  rcases Statement.target_mem_ways hw with hnext | ⟨i, hi, hlow, hhigh⟩
  · exact .inl (hnext.symm.trans h)
  · obtain rfl := Option.some.inj (hi.symm.trans h)
    exact .inr ⟨hlow, hhigh⟩

/-- Of the ways of a statement, those that enter a part from the rest of it enter it at its
    first node. -/
theorem Part.target_eq_number (h : p.Part q) (hclosed : p.Closed) {w : Way Nat}
    (hw : w ∈ p.ways settings) (hsource : ¬q.Covers w.source) {t : Nat}
    (htarget : w.target = some t) (ht : q.Covers t) : t = q.number := by
  have hnext : p.next ≠ some t := fun hnext => hclosed t hnext (ht.of_part h)
  -- in each case only the ways that leave the rest of the statement are of interest
  unfold Covers stop at hsource ht
  cases h with
  | onlyBranch =>
    dsimp only at hnext hsource ht ⊢
    simp only [ways, Statement.ways_ifThen, List.mem_cons] at hw
    rcases hw with rfl | rfl | hw
    · exact (entry_eq_some htarget).resolve_right hnext
    · exact absurd htarget hnext
    · exact absurd (Statement.source_mem_ways hw) hsource
  | thenBranch =>
    dsimp only at hnext hsource ht ⊢
    simp only [ways, Statement.ways_ifThenElse, List.mem_cons, List.mem_append] at hw
    rcases hw with rfl | rfl | hw | hw
    · exact (entry_eq_some htarget).resolve_right hnext
    · have := (entry_eq_some htarget).resolve_right hnext
      omega
    · exact absurd (Statement.source_mem_ways hw) hsource
    · have := (target_eq_some hw htarget).resolve_left hnext
      omega
  | elseBranch =>
    dsimp only at hnext hsource ht ⊢
    simp only [ways, Statement.ways_ifThenElse, List.mem_cons, List.mem_append] at hw
    rcases hw with rfl | rfl | hw | hw
    · have := (entry_eq_some htarget).resolve_right hnext
      omega
    · exact (entry_eq_some htarget).resolve_right hnext
    · have := (target_eq_some hw htarget).resolve_left hnext
      omega
    · exact absurd (Statement.source_mem_ways hw) hsource
  | body =>
    dsimp only at hnext hsource ht ⊢
    simp only [ways, Statement.ways_whileDo, List.mem_cons] at hw
    rcases hw with rfl | rfl | hw
    · rcases entry_eq_some htarget with heq | hback
      · exact heq
      · -- an empty body is not entered at all
        obtain rfl := Option.some.inj hback
        omega
    · exact absurd htarget hnext
    · exact absurd (Statement.source_mem_ways hw) hsource
  | first =>
    dsimp only at hnext hsource ht ⊢
    simp only [ways, Statement.ways_cons, List.mem_append] at hw
    rcases hw with hw | hw
    · exact absurd (Statement.source_mem_ways hw) hsource
    · have := (target_eq_some hw htarget).resolve_left hnext
      omega
  | others =>
    dsimp only at hnext hsource ht ⊢
    simp only [ways, Statement.ways_cons, List.mem_append] at hw
    rcases hw with hw | hw
    · rcases target_eq_some hw htarget with hentry | hown
      · exact (entry_eq_some hentry).resolve_right hnext
      · omega
    · exact absurd (Statement.source_mem_ways hw) hsource

/-- **A region has one entry.**  Whatever way leads into the region of a statement from
    outside leads to its first node. -/
theorem target_eq_number_of_enters (hpq : p.Contains q) (hclosed : p.Closed) {w : Way Nat}
    (hw : w ∈ p.ways settings) (hsource : ¬q.Covers w.source) {t : Nat}
    (htarget : w.target = some t) (ht : q.Covers t) : t = q.number := by
  -- the induction goes from the whole to smaller and smaller parts
  induction hpq with
  | refl => exact absurd (source_covered hw) hsource
  | @tail r q hpr hpart ih =>
    by_cases hr : r.Covers w.source
    · have hwr : w ∈ r.ways settings := (within_self.contains hpr w hr).1 hw
      exact hpart.target_eq_number (hclosed.contains hpr) hwr hsource htarget ht
    · -- the way enters the larger region as well, at its first node
      have hnumber := ih hr (ht.of_part hpart)
      have hbounds := hpart.bounds.1
      have hlow := ht.1
      omega

/-! ## §3 Ways that do not lead forward -/

/-- Inside a statement stands a loop whose condition is the node `t`, and the node `i` is
    the condition or belongs to the body. -/
def LoopAround (p : Site) (i t : Nat) : Prop :=
  ∃ next condition body, p.Contains ⟨t, next, .whileDo condition body⟩ ∧
    Covers ⟨t, next, .whileDo condition body⟩ i

theorem LoopAround.of_part {i t : Nat} (hpart : p.Part q) (h : q.LoopAround i t) :
    p.LoopAround i t := by
  obtain ⟨next, condition, body, hq, hi⟩ := h
  exact ⟨next, condition, body, hpart.contains_trans hq, hi⟩

/-- **Only loops lead back.**  A way that does not lead forward leads past the statement, or to
    the condition of a loop around its source. -/
theorem exists_loop_of_not_forward {s : Statement} {number : Nat} {next : Option Nat}
    {w : Way Nat} (hw : w ∈ s.ways settings number next) {t : Nat} (htarget : w.target = some t)
    (hback : t ≤ w.source) :
    next = some t ∨ LoopAround ⟨number, next, s⟩ w.source t := by
  induction s generalizing number next with
  | step text =>
    obtain rfl := List.mem_singleton.1 hw
    exact .inl htarget
  | exit => simp at hw
  | ifThen condition thenBranch ih =>
    simp only [Statement.ways_ifThen, List.mem_cons] at hw
    rcases hw with rfl | rfl | hw
    · exact .inl (next_eq_some_of_entry htarget hback (Nat.lt_succ_self _))
    · exact .inl htarget
    · exact (ih hw).imp_right (LoopAround.of_part .onlyBranch)
  | ifThenElse condition thenBranch elseBranch ihThen ihElse =>
    simp only [Statement.ways_ifThenElse, List.mem_cons, List.mem_append] at hw
    rcases hw with rfl | rfl | hw | hw
    · exact .inl (next_eq_some_of_entry htarget hback (Nat.lt_succ_self _))
    · have hlater : number < number + 1 + (Statement.block thenBranch).size := by omega
      exact .inl (next_eq_some_of_entry htarget hback hlater)
    · exact (ihThen hw).imp_right (LoopAround.of_part .thenBranch)
    · exact (ihElse hw).imp_right (LoopAround.of_part .elseBranch)
  | whileDo condition body ih =>
    -- a way back to the condition stays inside this very loop
    have hself : ∀ {i}, Covers ⟨number, next, .whileDo condition body⟩ i →
        LoopAround ⟨number, next, .whileDo condition body⟩ i number :=
      fun hi => ⟨next, condition, body, .refl _, hi⟩
    have hcovers : Covers ⟨number, next, .whileDo condition body⟩ w.source :=
      Statement.source_mem_ways hw
    simp only [Statement.ways_whileDo, List.mem_cons] at hw
    rcases hw with rfl | rfl | hw
    · -- an empty body leads straight back
      have hnumber := next_eq_some_of_entry htarget hback (Nat.lt_succ_self _)
      obtain rfl := Option.some.inj hnumber
      exact .inr (hself hcovers)
    · exact .inl htarget
    · rcases ih hw with hnumber | hloop
      · obtain rfl := Option.some.inj hnumber
        exact .inr (hself hcovers)
      · exact .inr (hloop.of_part .body)
  | hole => simp at hw
  | nil => simp at hw
  | cons s rest ihFirst ihRest =>
    simp only [Statement.ways_cons, List.mem_append] at hw
    rcases hw with hw | hw
    · rcases ihFirst hw with hentry | hloop
      · have hlater := (Statement.source_mem_ways hw).2
        exact .inl (next_eq_some_of_entry hentry hback hlater)
      · exact .inr (hloop.of_part .first)
    · exact (ihRest hw).imp_right (LoopAround.of_part .others)

end Site

/-! ## §4 Crossing a statement -/

/-- A way leads from one node to another. -/
def LeadsTo (all : List (Way Nat)) (i j : Nat) : Prop :=
  ∃ w ∈ all, w.source = i ∧ w.target = some j

/-- A way leads forward from one node to another. -/
def Forward (all : List (Way Nat)) (i j : Nat) : Prop := i < j ∧ LeadsTo all i j

namespace Statement

variable {settings : Settings} {all : List (Way Nat)}

/-- **A statement that can be completed is crossed** from its first node, by ways that lead
    forward, to a way to what comes next. -/
theorem exists_way_to_next {s : Statement} {number : Nat} {next : Option Nat}
    (hcomplete : s.canComplete = true) (hpos : 0 < s.size)
    (hsite : Site.Within settings all ⟨number, next, s⟩) :
    ∃ w ∈ s.ways settings number next, w.target = next ∧
      Relation.ReflTransGen (Forward all) number w.source := by
  induction s generalizing number next with
  | step text => exact ⟨_, .head _, rfl, .refl⟩
  | exit => simp [canComplete] at hcomplete
  | ifThen condition thenBranch ih => exact ⟨_, .tail _ (.head _), rfl, .refl⟩
  | ifThenElse condition thenBranch elseBranch ihThen ihElse =>
    have hfirst : ⟨number, some settings.trueLabel, _⟩ ∈ all := hsite.mem (.head _)
    have hother : ⟨number, some settings.falseLabel, _⟩ ∈ all := hsite.mem (.tail _ (.head _))
    -- whichever block can be completed is crossed, unless it is empty
    rcases Bool.or_eq_true_iff.1 hcomplete with hthen | helse
    · rcases Nat.eq_zero_or_pos (block thenBranch).size with hzero | hsize
      · exact ⟨_, .head _, entry_of_size_eq_zero hzero, .refl⟩
      · obtain ⟨w, hw, hnext, hchain⟩ := ihThen hthen hsize (hsite.part .thenBranch)
        have hstep : Forward all number (number + 1) :=
          ⟨by omega, _, hfirst, rfl, entry_of_size_pos hsize⟩
        exact ⟨w, by simp [hw], hnext, .head hstep hchain⟩
    · rcases Nat.eq_zero_or_pos (block elseBranch).size with hzero | hsize
      · exact ⟨_, .tail _ (.head _), entry_of_size_eq_zero hzero, .refl⟩
      · obtain ⟨w, hw, hnext, hchain⟩ := ihElse helse hsize (hsite.part .elseBranch)
        have hstep : Forward all number (number + 1 + (block thenBranch).size) :=
          ⟨by omega, _, hother, rfl, entry_of_size_pos hsize⟩
        exact ⟨w, by simp [hw], hnext, .head hstep hchain⟩
  | whileDo condition body ih => exact ⟨_, .tail _ (.head _), rfl, .refl⟩
  | hole => simp [canComplete] at hcomplete
  | nil => simp at hpos
  | cons s rest ihFirst ihRest =>
    obtain ⟨hs, hrest⟩ := Bool.and_eq_true_iff.1 hcomplete
    have hfirst := @ihFirst number ((block rest).entry (number + s.size) next) hs
    have hothers := @ihRest (number + s.size) next hrest
    rcases Nat.eq_zero_or_pos (block rest).size with hzero | hsize
    · -- nothing follows, so the first statement has all the ways
      rw [size_cons, hzero, Nat.add_zero] at hpos
      obtain ⟨w, hw, hnext, hchain⟩ := hfirst hpos (hsite.part .first)
      rw [entry_of_size_eq_zero hzero] at hnext
      exact ⟨w, List.mem_append_left _ hw, hnext, hchain⟩
    · obtain ⟨w, hw, hnext, hchain⟩ := hothers hsize (hsite.part .others)
      refine ⟨w, List.mem_append_right _ hw, hnext, ?_⟩
      rcases Nat.eq_zero_or_pos s.size with hszero | hspos
      · rw [hszero] at hchain
        exact hchain
      · -- the last way through the first statement leads forward to the others
        obtain ⟨v, hv, hentry, hbefore⟩ := hfirst hspos (hsite.part .first)
        rw [entry_of_size_pos hsize] at hentry
        have hlow := (source_mem_ways hv).2
        have hstep : Forward all v.source (number + s.size) :=
          ⟨hlow, v, (hsite.part .first).mem hv, rfl, hentry⟩
        exact (hbefore.tail hstep).trans hchain

/-- **A run that completes shows that the statement can.** -/
theorem Runs.canComplete {s : Statement} {number : Nat} {trace : Trace Nat}
    (h : s.Runs settings number trace .completed) : s.canComplete = true := by
  induction s generalizing number trace with
  | step text => rfl
  | exit => cases h
  | ifThen condition thenBranch ih => rfl
  | ifThenElse condition thenBranch elseBranch ihThen ihElse =>
    apply Bool.or_eq_true_iff.2
    cases h with
    | firstTaken h => exact .inl (ihThen (.block h))
    | otherTaken h => exact .inr (ihElse (.block h))
  | whileDo condition body ih => rfl
  | hole => cases h
  | nil => rfl
  | cons s rest ihFirst ihRest =>
    apply Bool.and_eq_true_iff.2
    cases h with
    | block h =>
      cases h with
      | cons h hlater => exact ⟨ihFirst h, ihRest (.block hlater)⟩

end Statement

/-! ## §5 The statements of the preorder -/

namespace Site

variable {p q : Site}

/-- The statement `x` of the preorder has the number `i`. -/
def Numbers (p : Site) (x : Statement) (i : Nat) : Prop :=
  (x, i) ∈ p.statement.preorder.zipIdx p.number

theorem Part.numbers (h : p.Part q) {x : Statement} {i : Nat} (hq : q.Numbers x i) :
    p.Numbers x i := by
  cases h <;> simp_all [Numbers, Statement.preorder, Statement.preorderList, List.zipIdx_append,
    Statement.size]

theorem Contains.numbers (h : p.Contains q) {x : Statement} {i : Nat} (hq : q.Numbers x i) :
    p.Numbers x i := by
  induction h with
  | refl => exact hq
  | tail _ hpart ih => exact ih (hpart.numbers hq)

/-- A loop inside a statement is the one of its number. -/
theorem Contains.numbers_loop {number : Nat} {next : Option Nat} {condition : String}
    {body : List Statement} (h : p.Contains ⟨number, next, .whileDo condition body⟩) :
    p.Numbers (.whileDo condition body) number :=
  h.numbers (.head _)

/-- A loop of the preorder stands inside the statement. -/
theorem exists_contains_loop {s : Statement} {number i : Nat} {next : Option Nat}
    {condition : String} {body : List Statement}
    (h : Numbers ⟨number, next, s⟩ (.whileDo condition body) i) :
    ∃ next', Contains ⟨number, next, s⟩ ⟨i, next', .whileDo condition body⟩ := by
  induction s generalizing number next with
  | step text => simp [Numbers, Statement.preorder] at h
  | exit => simp [Numbers, Statement.preorder] at h
  | ifThen condition' thenBranch ih =>
    rcases List.mem_cons.1 h with h | h
    · cases h
    · obtain ⟨next', hcontains⟩ := ih h
      exact ⟨next', Part.onlyBranch.contains_trans hcontains⟩
  | ifThenElse condition' thenBranch elseBranch ihThen ihElse =>
    simp only [Numbers, Statement.preorder, List.zipIdx_cons, List.zipIdx_append,
      List.mem_cons, List.mem_append] at h
    rcases h with h | h | h
    · cases h
    · obtain ⟨next', hcontains⟩ := ihThen h
      exact ⟨next', Part.thenBranch.contains_trans hcontains⟩
    · obtain ⟨next', hcontains⟩ := ihElse h
      exact ⟨next', Part.elseBranch.contains_trans hcontains⟩
  | whileDo condition' body' ih =>
    rcases List.mem_cons.1 h with h | h
    · cases h
      exact ⟨next, .refl _⟩
    · obtain ⟨next', hcontains⟩ := ih h
      exact ⟨next', Part.body.contains_trans hcontains⟩
  | hole => simp [Numbers, Statement.preorder] at h
  | nil => simp [Numbers, Statement.preorder, Statement.preorderList] at h
  | cons s rest ihFirst ihRest =>
    simp only [Numbers, Statement.preorder, Statement.preorderList, List.zipIdx_append,
      List.mem_append] at h
    rcases h with h | h
    · obtain ⟨next', hcontains⟩ := ihFirst h
      exact ⟨next', Part.first.contains_trans hcontains⟩
    · obtain ⟨next', hcontains⟩ := ihRest h
      exact ⟨next', Part.others.contains_trans hcontains⟩

end Site

end Flowchart
