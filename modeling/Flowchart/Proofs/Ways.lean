import Flowchart.Program.Preorder
import Flowchart.Chart.Graph

/-!
# Ways Through a Program

A drawing learns late where a way leads: it hands loose ends on from statement to
statement until one of them takes them in.  Here the same is said early.  Whoever knows
what comes after a statement knows where each of its ways leads, so the ways of a
program are a list that is computed from the tree, with the destinations filled in.

Nodes are plain numbers here, in preorder, and a way without a target runs off the end.

Main statements: the ways of a statement leave its own nodes (`Statement.source_mem_ways`)
and lead to its own nodes or to what comes next (`Statement.target_mem_ways`).
-/

namespace Flowchart

/-! ## §1 Induction over statements -/

/-- Induction over statements with their lists.  A list is spoken of as the block of its
    members, so that one fact about statements covers both. -/
@[elab_as_elim, induction_eliminator]
theorem Statement.inductionWithBlocks {motive : Statement → Prop}
    (step : ∀ text, motive (.step text))
    (exit : motive .exit)
    (ifThen : ∀ condition thenBranch, motive (.block thenBranch) →
      motive (.ifThen condition thenBranch))
    (ifThenElse : ∀ condition thenBranch elseBranch, motive (.block thenBranch) →
      motive (.block elseBranch) → motive (.ifThenElse condition thenBranch elseBranch))
    (whileDo : ∀ condition body, motive (.block body) → motive (.whileDo condition body))
    (hole : motive .hole)
    (nil : motive (.block []))
    (cons : ∀ s rest, motive s → motive (.block rest) → motive (.block (s :: rest)))
    (s : Statement) : motive s :=
  @Statement.rec motive (fun statements => motive (.block statements))
    step exit ifThen ifThenElse whileDo (fun _ h => h) hole nil cons s

namespace Statement

variable {settings : Settings} {number : Nat} {next : Option Nat}

/-! ## §2 Sizes and holes, part by part -/

@[simp] theorem size_step (text : String) : (step text).size = 1 := rfl

@[simp] theorem size_exit : exit.size = 1 := rfl

@[simp] theorem size_ifThen (condition : String) (thenBranch : List Statement) :
    (ifThen condition thenBranch).size = (block thenBranch).size + 1 := rfl

@[simp] theorem size_ifThenElse (condition : String) (thenBranch elseBranch : List Statement) :
    (ifThenElse condition thenBranch elseBranch).size =
      (block thenBranch).size + (block elseBranch).size + 1 := by
  simp [size, preorder]

@[simp] theorem size_whileDo (condition : String) (body : List Statement) :
    (whileDo condition body).size = (block body).size + 1 := rfl

@[simp] theorem size_hole : hole.size = 0 := rfl

@[simp] theorem size_nil : (block []).size = 0 := rfl

@[simp] theorem size_cons (s : Statement) (rest : List Statement) :
    (block (s :: rest)).size = s.size + (block rest).size := by
  simp [size, preorder, preorderList]

@[simp] theorem holeFree_ifThen (condition : String) (thenBranch : List Statement) :
    (ifThen condition thenBranch).holeFree = (block thenBranch).holeFree := rfl

@[simp] theorem holeFree_ifThenElse (condition : String)
    (thenBranch elseBranch : List Statement) :
    (ifThenElse condition thenBranch elseBranch).holeFree =
      ((block thenBranch).holeFree && (block elseBranch).holeFree) := rfl

@[simp] theorem holeFree_whileDo (condition : String) (body : List Statement) :
    (whileDo condition body).holeFree = (block body).holeFree := rfl

@[simp] theorem holeFree_hole : hole.holeFree = false := rfl

@[simp] theorem holeFree_cons (s : Statement) (rest : List Statement) :
    (block (s :: rest)).holeFree = (s.holeFree && (block rest).holeFree) := rfl

end Statement

/-! ## §3 Ways with their destinations -/

/-- A way that leaves a node, and the node it leads to; one without a target runs off the
    end. -/
structure Way (ν : Type) where
  source : ν
  label : Option String
  target : Option ν
deriving DecidableEq, Repr

/-- Where whatever enters a statement gets to: its first node, or what comes next if it
    has none. -/
def Statement.entry (number : Nat) (next : Option Nat) (s : Statement) : Option Nat :=
  if s.size = 0 then next else some number

mutual

/-- The ways that leave the nodes of a statement, numbered from `number` in preorder, if
    `next` comes after it. -/
def Statement.ways (settings : Settings) (number : Nat) (next : Option Nat) :
    Statement → List (Way Nat)
  | .step _ => [⟨number, none, next⟩]
  | .exit => []
  | .ifThen _ thenBranch =>
    ⟨number, some settings.trueLabel, (Statement.block thenBranch).entry (number + 1) next⟩ ::
      ⟨number, some settings.falseLabel, next⟩ ::
      Statement.waysList settings (number + 1) next thenBranch
  | .ifThenElse _ thenBranch elseBranch =>
    let other := number + 1 + (Statement.block thenBranch).size
    ⟨number, some settings.trueLabel, (Statement.block thenBranch).entry (number + 1) next⟩ ::
      ⟨number, some settings.falseLabel, (Statement.block elseBranch).entry other next⟩ ::
      (Statement.waysList settings (number + 1) next thenBranch ++
        Statement.waysList settings other next elseBranch)
  | .whileDo _ body =>
    -- what comes after the body is the condition once more
    ⟨number, some settings.trueLabel, (Statement.block body).entry (number + 1) (some number)⟩ ::
      ⟨number, some settings.falseLabel, next⟩ ::
      Statement.waysList settings (number + 1) (some number) body
  | .block statements => Statement.waysList settings number next statements
  | .hole => []

/-- The ways of statements in order. -/
def Statement.waysList (settings : Settings) (number : Nat) (next : Option Nat) :
    List Statement → List (Way Nat)
  | [] => []
  | s :: rest =>
    s.ways settings number ((Statement.block rest).entry (number + s.size) next) ++
      Statement.waysList settings (number + s.size) next rest

end

namespace Statement

variable {settings : Settings} {number : Nat} {next : Option Nat}

/-! ## §4 Ways, part by part -/

theorem entry_of_size_eq_zero {s : Statement} (h : s.size = 0) : s.entry number next = next :=
  if_pos h

theorem entry_of_size_pos {s : Statement} (h : 0 < s.size) :
    s.entry number next = some number :=
  if_neg (Nat.ne_of_gt h)

@[simp] theorem entry_step (text : String) : (step text).entry number next = some number := rfl

@[simp] theorem entry_exit : exit.entry number next = some number := rfl

@[simp] theorem entry_ifThen (condition : String) (thenBranch : List Statement) :
    (ifThen condition thenBranch).entry number next = some number := rfl

@[simp] theorem entry_ifThenElse (condition : String) (thenBranch elseBranch : List Statement) :
    (ifThenElse condition thenBranch elseBranch).entry number next = some number := rfl

@[simp] theorem entry_whileDo (condition : String) (body : List Statement) :
    (whileDo condition body).entry number next = some number := rfl

@[simp] theorem entry_nil : (block []).entry number next = next := rfl

@[simp] theorem entry_cons (s : Statement) (rest : List Statement) :
    (block (s :: rest)).entry number next =
      s.entry number ((block rest).entry (number + s.size) next) := by
  rcases Nat.eq_zero_or_pos s.size with hs | hs
  · -- a statement without nodes is passed by
    simp [entry, hs]
  · have hcons : 0 < (block (s :: rest)).size := by
      rw [size_cons]
      exact Nat.add_pos_left hs _
    rw [entry_of_size_pos hs, entry_of_size_pos hcons]

@[simp] theorem ways_step (text : String) :
    (step text).ways settings number next = [⟨number, none, next⟩] := rfl

@[simp] theorem ways_exit : exit.ways settings number next = [] := rfl

@[simp] theorem ways_ifThen (condition : String) (thenBranch : List Statement) :
    (ifThen condition thenBranch).ways settings number next =
      ⟨number, some settings.trueLabel, (block thenBranch).entry (number + 1) next⟩ ::
      ⟨number, some settings.falseLabel, next⟩ ::
      (block thenBranch).ways settings (number + 1) next := rfl

@[simp] theorem ways_ifThenElse (condition : String) (thenBranch elseBranch : List Statement) :
    (ifThenElse condition thenBranch elseBranch).ways settings number next =
      ⟨number, some settings.trueLabel, (block thenBranch).entry (number + 1) next⟩ ::
      ⟨number, some settings.falseLabel,
        (block elseBranch).entry (number + 1 + (block thenBranch).size) next⟩ ::
      ((block thenBranch).ways settings (number + 1) next ++
        (block elseBranch).ways settings (number + 1 + (block thenBranch).size) next) := rfl

@[simp] theorem ways_whileDo (condition : String) (body : List Statement) :
    (whileDo condition body).ways settings number next =
      ⟨number, some settings.trueLabel, (block body).entry (number + 1) (some number)⟩ ::
      ⟨number, some settings.falseLabel, next⟩ ::
      (block body).ways settings (number + 1) (some number) := rfl

@[simp] theorem ways_hole : hole.ways settings number next = [] := rfl

@[simp] theorem ways_nil : (block []).ways settings number next = [] := rfl

@[simp] theorem ways_cons (s : Statement) (rest : List Statement) :
    (block (s :: rest)).ways settings number next =
      s.ways settings number ((block rest).entry (number + s.size) next) ++
        (block rest).ways settings (number + s.size) next := rfl

/-! ## §5 Where ways begin and end -/

/-- **Ways leave the statement's own nodes**: their sources are its numbers. -/
theorem source_mem_ways {s : Statement} {w : Way Nat} (h : w ∈ s.ways settings number next) :
    number ≤ w.source ∧ w.source < number + s.size := by
  induction s generalizing number next with
  | step text =>
    simp only [ways_step, List.mem_singleton] at h
    subst h
    simp
  | exit => simp at h
  | ifThen condition thenBranch ih =>
    simp only [ways_ifThen, List.mem_cons, size_ifThen] at h ⊢
    rcases h with rfl | rfl | h
    · simp
    · simp
    · have := ih h
      omega
  | ifThenElse condition thenBranch elseBranch ihThen ihElse =>
    simp only [ways_ifThenElse, List.mem_cons, List.mem_append, size_ifThenElse] at h ⊢
    rcases h with rfl | rfl | h | h
    · simp
    · simp
    · have := ihThen h
      omega
    · have := ihElse h
      omega
  | whileDo condition body ih =>
    simp only [ways_whileDo, List.mem_cons, size_whileDo] at h ⊢
    rcases h with rfl | rfl | h
    · simp
    · simp
    · have := ih h
      omega
  | hole => simp at h
  | nil => simp at h
  | cons s rest ihFirst ihRest =>
    simp only [ways_cons, List.mem_append, size_cons] at h ⊢
    rcases h with h | h
    · have := ihFirst h
      omega
    · -- the others are numbered after the first
      have := ihRest h
      omega

/-- A destination is one of `size` nodes from `number` on, or it is `next`. -/
def LeadsInto (number size : Nat) (next target : Option Nat) : Prop :=
  target = next ∨ ∃ t, target = some t ∧ number ≤ t ∧ t < number + size

theorem LeadsInto.own {number size t : Nat} {next : Option Nat} (hlow : number ≤ t)
    (hhigh : t < number + size) : LeadsInto number size next (some t) :=
  .inr ⟨t, rfl, hlow, hhigh⟩

/-- The nodes may lie among others, with a destination of their own after them. -/
theorem LeadsInto.trans {number size outer outerSize : Nat} {next middle target : Option Nat}
    (h : LeadsInto number size middle target) (hmiddle : LeadsInto outer outerSize next middle)
    (hlow : outer ≤ number) (hhigh : number + size ≤ outer + outerSize) :
    LeadsInto outer outerSize next target := by
  rcases h with rfl | ⟨t, rfl, hleft, hright⟩
  · exact hmiddle
  · exact .own (by omega) (by omega)

/-- To enter a statement leads to its first node, or past it. -/
theorem leadsInto_entry {s : Statement} :
    LeadsInto number s.size next (s.entry number next) := by
  -- a statement without nodes is passed by
  rcases Nat.eq_zero_or_pos s.size with hs | hs
  · exact .inl (entry_of_size_eq_zero hs)
  · rw [entry_of_size_pos hs]
    exact .own (by omega) (by omega)

/-- **Ways lead to the statement's own nodes, or to what comes next.** -/
theorem target_mem_ways {s : Statement} {w : Way Nat} (h : w ∈ s.ways settings number next) :
    LeadsInto number s.size next w.target := by
  induction s generalizing number next with
  | step text =>
    simp only [ways_step, List.mem_singleton] at h
    subst h
    exact .inl rfl
  | exit => simp at h
  | ifThen condition thenBranch ih =>
    simp only [ways_ifThen, List.mem_cons] at h
    simp only [size_ifThen]
    rcases h with rfl | rfl | h
    · exact leadsInto_entry.trans (.inl rfl) (by omega) (by omega)
    · exact .inl rfl
    · exact (ih h).trans (.inl rfl) (by omega) (by omega)
  | ifThenElse condition thenBranch elseBranch ihThen ihElse =>
    simp only [ways_ifThenElse, List.mem_cons, List.mem_append] at h
    simp only [size_ifThenElse]
    rcases h with rfl | rfl | h | h
    · exact leadsInto_entry.trans (.inl rfl) (by omega) (by omega)
    · exact leadsInto_entry.trans (.inl rfl) (by omega) (by omega)
    · exact (ihThen h).trans (.inl rfl) (by omega) (by omega)
    · exact (ihElse h).trans (.inl rfl) (by omega) (by omega)
  | whileDo condition body ih =>
    simp only [ways_whileDo, List.mem_cons] at h
    simp only [size_whileDo]
    -- what comes after the body is the condition, a node of the loop
    have hback : LeadsInto number ((block body).size + 1) next (some number) :=
      .own (by omega) (by omega)
    rcases h with rfl | rfl | h
    · exact leadsInto_entry.trans hback (by omega) (by omega)
    · exact .inl rfl
    · exact (ih h).trans hback (by omega) (by omega)
  | hole => simp at h
  | nil => simp at h
  | cons s rest ihFirst ihRest =>
    simp only [ways_cons, List.mem_append] at h
    simp only [size_cons]
    rcases h with h | h
    · -- what comes after the first statement is a node of the others, or what comes next
      have hrest : LeadsInto number (s.size + (block rest).size) next
          ((block rest).entry (number + s.size) next) :=
        leadsInto_entry.trans (.inl rfl) (by omega) (by omega)
      exact (ihFirst h).trans hrest (by omega) (by omega)
    · exact (ihRest h).trans (.inl rfl) (by omega) (by omega)

end Statement

/-! ## §6 Sites -/

/-- A statement where it stands: the number of its first node, and what comes after it. -/
structure Site where
  number : Nat
  next : Option Nat
  statement : Statement

namespace Site

/-- The number after those of the statement. -/
def stop (p : Site) : Nat := p.number + p.statement.size

/-- The ways of the statement. -/
def ways (settings : Settings) (p : Site) : List (Way Nat) :=
  p.statement.ways settings p.number p.next

/-- Where whatever enters the statement gets to. -/
def entry (p : Site) : Option Nat := p.statement.entry p.number p.next

/-- A number belongs to a node of the statement. -/
def Covers (p : Site) (i : Nat) : Prop := p.number ≤ i ∧ i < p.stop

/-- `p.Part q`: the statement at `q` is a direct part of the one at `p`.  A block has its
    first statement and the block of the others as its parts. -/
inductive Part : Site → Site → Prop where
  | onlyBranch {number : Nat} {next : Option Nat} {condition : String}
      {thenBranch : List Statement} :
      Part ⟨number, next, .ifThen condition thenBranch⟩ ⟨number + 1, next, .block thenBranch⟩
  | thenBranch {number : Nat} {next : Option Nat} {condition : String}
      {thenBranch elseBranch : List Statement} :
      Part ⟨number, next, .ifThenElse condition thenBranch elseBranch⟩
        ⟨number + 1, next, .block thenBranch⟩
  | elseBranch {number : Nat} {next : Option Nat} {condition : String}
      {thenBranch elseBranch : List Statement} :
      Part ⟨number, next, .ifThenElse condition thenBranch elseBranch⟩
        ⟨number + 1 + (Statement.block thenBranch).size, next, .block elseBranch⟩
  | body {number : Nat} {next : Option Nat} {condition : String} {body : List Statement} :
      Part ⟨number, next, .whileDo condition body⟩ ⟨number + 1, some number, .block body⟩
  | first {number : Nat} {next : Option Nat} {s : Statement} {rest : List Statement} :
      Part ⟨number, next, .block (s :: rest)⟩
        ⟨number, (Statement.block rest).entry (number + s.size) next, s⟩
  | others {number : Nat} {next : Option Nat} {s : Statement} {rest : List Statement} :
      Part ⟨number, next, .block (s :: rest)⟩ ⟨number + s.size, next, .block rest⟩

variable {settings : Settings} {p q : Site}

/-- The nodes of a part are nodes of the whole. -/
theorem Part.bounds (h : p.Part q) : p.number ≤ q.number ∧ q.stop ≤ p.stop := by
  cases h <;> simp [stop] <;> omega

theorem covers_number (hpos : 0 < p.statement.size) : p.Covers p.number :=
  ⟨Nat.le_refl _, Nat.lt_add_of_pos_right hpos⟩

theorem Covers.of_part {i : Nat} (h : q.Covers i) (hpart : p.Part q) : p.Covers i := by
  have := hpart.bounds
  unfold Covers at *
  omega

/-- A destination is no node of the statement. -/
def Outside (p : Site) (target : Option Nat) : Prop :=
  ∀ i, target = some i → ¬p.Covers i

theorem Outside.part {target : Option Nat} (h : p.Outside target) (hpart : p.Part q) :
    q.Outside target :=
  fun i hi hc => h i hi (hc.of_part hpart)

theorem outside_none : p.Outside none := nofun

theorem source_covered {w : Way Nat} (h : w ∈ p.ways settings) : p.Covers w.source :=
  Statement.source_mem_ways h

/-- **A part has the ways of the whole that leave its nodes.** -/
theorem Part.mem_ways_iff (h : p.Part q) {w : Way Nat} (hw : q.Covers w.source) :
    w ∈ p.ways settings ↔ w ∈ q.ways settings := by
  unfold Covers stop at hw
  -- the other ways of the whole leave its first node, or a node of another part
  cases h with
  | onlyBranch =>
    simp only [ways, Statement.ways_ifThen, List.mem_cons]
    refine ⟨?_, fun h => .inr (.inr h)⟩
    rintro (rfl | rfl | h)
    · dsimp only at hw; omega
    · dsimp only at hw; omega
    · exact h
  | thenBranch =>
    simp only [ways, Statement.ways_ifThenElse, List.mem_cons, List.mem_append]
    refine ⟨?_, fun h => .inr (.inr (.inl h))⟩
    rintro (rfl | rfl | h | h)
    · dsimp only at hw; omega
    · dsimp only at hw; omega
    · exact h
    · have := Statement.source_mem_ways h
      dsimp only at hw
      omega
  | elseBranch =>
    simp only [ways, Statement.ways_ifThenElse, List.mem_cons, List.mem_append]
    refine ⟨?_, fun h => .inr (.inr (.inr h))⟩
    rintro (rfl | rfl | h | h)
    · dsimp only at hw; omega
    · dsimp only at hw; omega
    · have := Statement.source_mem_ways h
      dsimp only at hw
      omega
    · exact h
  | body =>
    simp only [ways, Statement.ways_whileDo, List.mem_cons]
    refine ⟨?_, fun h => .inr (.inr h)⟩
    rintro (rfl | rfl | h)
    · dsimp only at hw; omega
    · dsimp only at hw; omega
    · exact h
  | first =>
    simp only [ways, Statement.ways_cons, List.mem_append]
    refine ⟨?_, .inl⟩
    rintro (h | h)
    · exact h
    · have := Statement.source_mem_ways h
      dsimp only at hw
      omega
  | others =>
    simp only [ways, Statement.ways_cons, List.mem_append]
    refine ⟨?_, .inr⟩
    rintro (h | h)
    · have := Statement.source_mem_ways h
      dsimp only at hw
      omega
    · exact h

/-- `p.Within settings all`: of the ways `all`, those that leave the nodes of the statement
    are just its own. -/
def Within (settings : Settings) (all : List (Way Nat)) (p : Site) : Prop :=
  ∀ w : Way Nat, p.Covers w.source → (w ∈ all ↔ w ∈ p.ways settings)

theorem Within.part {all : List (Way Nat)} (h : p.Within settings all) (hpart : p.Part q) :
    q.Within settings all :=
  fun w hw => (h w (hw.of_part hpart)).trans (hpart.mem_ways_iff hw)

theorem within_self : p.Within settings (p.ways settings) := fun _ _ => Iff.rfl

/-- Whatever leaves the first node of a statement is one of its ways. -/
theorem Within.mem_ways {all : List (Way Nat)} (h : p.Within settings all)
    (hpos : 0 < p.statement.size) {w : Way Nat} (hw : w ∈ all) (hsource : w.source = p.number) :
    w ∈ p.ways settings :=
  (h w ⟨by omega, by unfold stop; omega⟩).1 hw

theorem Within.mem {all : List (Way Nat)} (h : p.Within settings all) {w : Way Nat}
    (hw : w ∈ p.ways settings) : w ∈ all :=
  (h w (source_covered hw)).2 hw

end Site

end Flowchart
