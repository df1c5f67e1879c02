import Mathlib.Data.List.Infix
import Flowchart.Proofs.Drawn
import Flowchart.Proofs.Regions

/-!
# The Order of a Drawing

Up to their order, the records of a drawing are known from the ways of the tree.  This module
keeps the order.  A statement without holes always comes to an end, so what it writes and
what it leaves loose are lists that are put together from those of its parts
(`Statement.drawn`, `Statement.leaving`).

* A statement with nodes first writes down its entry, to which all loose ends are led, and
  takes no more note of them (`Statement.exists_entry`); one without nodes hands them on as
  they are (`Statement.layout_of_size_eq_zero`).
* A loose end leaves a node of the statement, unless it was handed on
  (`Statement.source_of_mem_leaving`).
* What a part writes stands together in what the whole writes
  (`Site.Contains.drawn_infix`).
-/

namespace Flowchart

namespace Statement

variable {settings : Settings} {stem : String} {number : Nat} {incoming : List LooseEnd}

/-! ## §1 What is written and what is left -/

/-- The records that a statement writes. -/
def drawn (settings : Settings) (stem : String) (number : Nat) (incoming : List LooseEnd)
    (s : Statement) : List Record :=
  (s.draw settings stem number incoming).records

/-- The loose ends that leave a statement; none if its drawing stops at a hole. -/
def leaving (settings : Settings) (stem : String) (number : Nat) (incoming : List LooseEnd)
    (s : Statement) : List LooseEnd :=
  (s.draw settings stem number incoming).outgoing.toOption.getD []

/-- What a drawing hands on is what leaves the statement. -/
theorem leaving_of_outgoing {s : Statement} {outgoing : List LooseEnd}
    (h : (s.draw settings stem number incoming).outgoing = .ok outgoing) :
    s.leaving settings stem number incoming = outgoing := by
  rw [leaving, h]
  rfl

/-- A statement without holes is drawn to its end. -/
theorem draws (settings : Settings) (stem : String) {s : Statement} (h : s.holeFree = true)
    (number : Nat) (incoming : List LooseEnd) :
    (s.draw settings stem number incoming).Draws settings stem number incoming s
      (s.leaving settings stem number incoming) := by
  obtain ⟨outgoing, hd⟩ := draw_spec h number incoming
  rw [leaving_of_outgoing hd.outgoing_eq]
  exact hd

/-- The loose end on which a condition holds. -/
abbrev taken (settings : Settings) (node : Node) : LooseEnd := ⟨node, some settings.trueLabel⟩

/-- The loose end on which a condition fails. -/
abbrev untaken (settings : Settings) (node : Node) : LooseEnd := ⟨node, some settings.falseLabel⟩

/-! ## §2 Part by part -/

@[simp] theorem drawn_step (text : String) :
    (step text).drawn settings stem number incoming =
      enter ((step text).ownNode settings stem number) incoming := rfl

@[simp] theorem leaving_step (text : String) :
    (step text).leaving settings stem number incoming =
      [⟨(step text).ownNode settings stem number, none⟩] := rfl

@[simp] theorem drawn_exit :
    exit.drawn settings stem number incoming =
      enter (exit.ownNode settings stem number) incoming := rfl

@[simp] theorem leaving_exit : exit.leaving settings stem number incoming = [] := rfl

@[simp] theorem drawn_nil : (block []).drawn settings stem number incoming = [] := rfl

@[simp] theorem leaving_nil : (block []).leaving settings stem number incoming = incoming := rfl

/-- The node that asks a condition. -/
abbrev asking (stem : String) (number : Nat) (condition : String) : Node :=
  labelledNode stem number condition .diamond

section Parts

variable {condition : String} {thenBranch elseBranch body rest : List Statement} {s : Statement}

/-- A branch writes its entry and its block; behind what leaves the block, the way on which the
    condition fails is left loose. -/
theorem layout_ifThen (hfree : (block thenBranch).holeFree = true) :
    (ifThen condition thenBranch).drawn settings stem number incoming =
        enter (asking stem number condition) incoming ++
          (block thenBranch).drawn settings stem (number + 1)
            [taken settings (asking stem number condition)] ∧
      (ifThen condition thenBranch).leaving settings stem number incoming =
        (block thenBranch).leaving settings stem (number + 1)
            [taken settings (asking stem number condition)] ++
          [untaken settings (asking stem number condition)] := by
  have hthen := draws settings stem hfree (number + 1)
    [taken settings (asking stem number condition)]
  -- the block comes to its end, so the whole drawing is its parts in a row
  have hdraw : (ifThen condition thenBranch).draw settings stem number incoming = _ :=
    draw_ifThen condition thenBranch
  rw [Drawing.finished_andThen] at hdraw
  dsimp only at hdraw
  rw [Drawing.andThen_of_outgoing hthen.outgoing_eq] at hdraw
  refine ⟨(congrArg Drawing.records hdraw).trans ?_,
    leaving_of_outgoing (congrArg Drawing.outgoing hdraw)⟩
  simp [Drawing.finished, drawn]

/-- A branch with two blocks writes them one after the other, the numbers of the second going on
    from those of the first. -/
theorem layout_ifThenElse (hthen : (block thenBranch).holeFree = true)
    (helse : (block elseBranch).holeFree = true) :
    (ifThenElse condition thenBranch elseBranch).drawn settings stem number incoming =
        enter (asking stem number condition) incoming ++
          ((block thenBranch).drawn settings stem (number + 1)
              [taken settings (asking stem number condition)] ++
            (block elseBranch).drawn settings stem (number + 1 + (block thenBranch).size)
              [untaken settings (asking stem number condition)]) ∧
      (ifThenElse condition thenBranch elseBranch).leaving settings stem number incoming =
        (block thenBranch).leaving settings stem (number + 1)
            [taken settings (asking stem number condition)] ++
          (block elseBranch).leaving settings stem (number + 1 + (block thenBranch).size)
            [untaken settings (asking stem number condition)] := by
  have hthen := draws settings stem hthen (number + 1)
    [taken settings (asking stem number condition)]
  have helse := draws settings stem helse
    (number + 1 + (block thenBranch).size) [untaken settings (asking stem number condition)]
  -- both blocks come to their ends
  have hdraw :
      (ifThenElse condition thenBranch elseBranch).draw settings stem number incoming = _ :=
    draw_ifThenElse condition thenBranch elseBranch
  rw [Drawing.finished_andThen] at hdraw
  dsimp only at hdraw
  rw [Drawing.andThen_of_outgoing hthen.outgoing_eq, hthen.nextNumber_eq,
    Drawing.andThen_of_outgoing helse.outgoing_eq] at hdraw
  refine ⟨(congrArg Drawing.records hdraw).trans ?_,
    leaving_of_outgoing (congrArg Drawing.outgoing hdraw)⟩
  simp [Drawing.finished, drawn]

/-- A loop leads what leaves its body back to its entry, after the body. -/
theorem layout_whileDo (hfree : (block body).holeFree = true) :
    (whileDo condition body).drawn settings stem number incoming =
        enter (asking stem number condition) incoming ++
          ((block body).drawn settings stem (number + 1)
              [taken settings (asking stem number condition)] ++
            landAll ((block body).leaving settings stem (number + 1)
              [taken settings (asking stem number condition)])
              (asking stem number condition)) ∧
      (whileDo condition body).leaving settings stem number incoming =
        [untaken settings (asking stem number condition)] := by
  have hbody := draws settings stem hfree (number + 1)
    [taken settings (asking stem number condition)]
  have hdraw : (whileDo condition body).draw settings stem number incoming = _ :=
    draw_whileDo condition body
  rw [Drawing.finished_andThen] at hdraw
  dsimp only at hdraw
  rw [Drawing.andThen_of_outgoing hbody.outgoing_eq] at hdraw
  exact ⟨congrArg Drawing.records hdraw, leaving_of_outgoing (congrArg Drawing.outgoing hdraw)⟩

/-- Statements are written in order, each from what the one before left loose. -/
theorem layout_cons (hfree : s.holeFree = true) :
    (block (s :: rest)).drawn settings stem number incoming =
        s.drawn settings stem number incoming ++
          (block rest).drawn settings stem (number + s.size)
            (s.leaving settings stem number incoming) ∧
      (block (s :: rest)).leaving settings stem number incoming =
        (block rest).leaving settings stem (number + s.size)
          (s.leaving settings stem number incoming) := by
  have hs := draws settings stem hfree number incoming
  -- the first statement does not stop, so the others are drawn from its loose ends
  have hdraw : (block (s :: rest)).draw settings stem number incoming = _ := draw_cons s rest
  rw [Drawing.andThen_of_outgoing hs.outgoing_eq, hs.nextNumber_eq] at hdraw
  refine ⟨congrArg Drawing.records hdraw, ?_⟩
  rw [leaving, hdraw]
  rfl

end Parts

/-! ## §3 Entering -/

/-- A statement without nodes writes nothing and hands all loose ends on. -/
theorem layout_of_size_eq_zero {s : Statement} (hfree : s.holeFree = true) (h : s.size = 0) :
    s.drawn settings stem number incoming = [] ∧
      s.leaving settings stem number incoming = incoming := by
  induction s generalizing number incoming with
  -- only lists have no nodes: an empty one, or members without nodes
  | nil => exact ⟨rfl, rfl⟩
  | cons s rest ihFirst ihRest =>
    obtain ⟨hs, hrest⟩ := Bool.and_eq_true_iff.1 hfree
    rw [size_cons, Nat.add_eq_zero_iff] at h
    obtain ⟨hdrawn, hleaving⟩ := ihFirst hs h.1
    rw [(layout_cons hs).1, (layout_cons hs).2, hdrawn, hleaving]
    exact ihRest hrest h.2
  | hole => cases hfree
  | _ => simp at h

/-- **What comes in is seen in the entry only.**  A statement with nodes writes down an entry
    first and leads all loose ends there; the rest, and the ends that leave the statement, are
    the same whatever comes in. -/
theorem exists_entry {s : Statement} (hfree : s.holeFree = true) (hpos : 0 < s.size) :
    ∃ entry rest outgoing, ∀ incoming,
      s.drawn settings stem number incoming = enter entry incoming ++ rest ∧
        s.leaving settings stem number incoming = outgoing := by
  induction s generalizing number with
  -- the entry of every other statement is its own node
  | step text => exact ⟨_, [], _, fun incoming => ⟨(List.append_nil _).symm, rfl⟩⟩
  | exit => exact ⟨_, [], _, fun incoming => ⟨(List.append_nil _).symm, rfl⟩⟩
  | ifThen condition thenBranch ih => exact ⟨_, _, _, fun incoming => layout_ifThen hfree⟩
  | ifThenElse condition thenBranch elseBranch ihThen ihElse =>
    obtain ⟨hthen, helse⟩ := Bool.and_eq_true_iff.1 hfree
    exact ⟨_, _, _, fun incoming => layout_ifThenElse hthen helse⟩
  | whileDo condition body ih => exact ⟨_, _, _, fun incoming => layout_whileDo hfree⟩
  | hole => cases hfree
  | nil => simp at hpos
  | cons s rest ihFirst ihRest =>
    obtain ⟨hs, hrest⟩ := Bool.and_eq_true_iff.1 hfree
    rcases Nat.eq_zero_or_pos s.size with hzero | hspos
    · -- the first statement hands the loose ends on to the others
      rw [size_cons, hzero, Nat.zero_add] at hpos
      obtain ⟨entry, later, outgoing, hothers⟩ := @ihRest number hrest hpos
      refine ⟨entry, later, outgoing, fun incoming => ?_⟩
      obtain ⟨hdrawn, hleaving⟩ := @layout_of_size_eq_zero settings stem number incoming s hs hzero
      rw [(layout_cons hs).1, (layout_cons hs).2, hdrawn, hleaving, hzero]
      exact hothers incoming
    · -- the entry is that of the first statement, and the others are drawn from ends that do
      -- not depend on what came in
      obtain ⟨entry, later, ends, hfirst⟩ := @ihFirst number hs hspos
      refine ⟨entry, later ++ (block rest).drawn settings stem (number + s.size) ends,
        (block rest).leaving settings stem (number + s.size) ends, fun incoming => ?_⟩
      rw [(layout_cons hs).1, (layout_cons hs).2, (hfirst incoming).1, (hfirst incoming).2,
        List.append_assoc]
      exact ⟨rfl, rfl⟩

/-- A statement with nodes writes down an entry first, and leads all loose ends there. -/
theorem enter_prefix_drawn {s : Statement} (hfree : s.holeFree = true) (hpos : 0 < s.size) :
    ∃ node, enter node incoming <+: s.drawn settings stem number incoming := by
  obtain ⟨entry, rest, outgoing, hentry⟩ := @exists_entry settings stem number s hfree hpos
  rw [(hentry incoming).1]
  exact ⟨entry, List.prefix_append _ _⟩

/-- **A loose end leaves a node of the statement**, or came in and was handed on. -/
theorem source_of_mem_leaving {s : Statement} (hfree : s.holeFree = true) {e : LooseEnd}
    (he : e ∈ s.leaving settings stem number incoming) :
    e ∈ incoming ∨ e.source ∈ s.nodes settings stem number := by
  induction s generalizing number incoming with
  | step text =>
    obtain rfl := List.mem_singleton.1 he
    exact .inr List.mem_cons_self
  | exit => cases he
  | ifThen condition thenBranch ih =>
    rw [(layout_ifThen hfree).2, List.mem_append, List.mem_singleton] at he
    rw [nodes_ifThen, List.mem_cons]
    rcases he with he | rfl
    · -- what enters the block leaves the node of the condition
      rcases ih hfree he with hentering | hinside
      · obtain rfl := List.mem_singleton.1 hentering
        exact .inr (.inl rfl)
      · exact .inr (.inr hinside)
    · exact .inr (.inl rfl)
  | ifThenElse condition thenBranch elseBranch ihThen ihElse =>
    obtain ⟨hthen, helse⟩ := Bool.and_eq_true_iff.1 hfree
    rw [(layout_ifThenElse hthen helse).2, List.mem_append] at he
    rw [nodes_ifThenElse, List.mem_cons, List.mem_append]
    rcases he with he | he
    · rcases ihThen hthen he with hentering | hinside
      · obtain rfl := List.mem_singleton.1 hentering
        exact .inr (.inl rfl)
      · exact .inr (.inr (.inl hinside))
    · rcases ihElse helse he with hentering | hinside
      · obtain rfl := List.mem_singleton.1 hentering
        exact .inr (.inl rfl)
      · exact .inr (.inr (.inr hinside))
  | whileDo condition body ih =>
    rw [(layout_whileDo hfree).2, List.mem_singleton] at he
    subst he
    exact .inr List.mem_cons_self
  | hole => cases hfree
  -- an empty block hands on what comes in
  | nil => exact .inl he
  | cons s rest ihFirst ihRest =>
    obtain ⟨hs, hrest⟩ := Bool.and_eq_true_iff.1 hfree
    rw [(layout_cons hs).2] at he
    rw [nodes_cons, List.mem_append]
    rcases ihRest hrest he with hentering | hinside
    · -- what entered the others left the first statement
      rcases ihFirst hs hentering with hcame | hfirst
      · exact .inl hcame
      · exact .inr (.inl hfirst)
    · exact .inr (.inr hinside)

end Statement

/-! ## §4 Parts -/

namespace Site

variable {settings : Settings} {stem : String} {p q : Site}

/-- What a direct part writes stands together in what the whole writes. -/
theorem Part.drawn_infix (h : p.Part q) (hfree : p.statement.holeFree = true)
    (incoming : List LooseEnd) :
    ∃ entering, q.statement.drawn settings stem q.number entering <:+:
      p.statement.drawn settings stem p.number incoming := by
  cases h with
  | onlyBranch =>
    rw [(Statement.layout_ifThen hfree).1]
    exact ⟨_, (List.suffix_append _ _).isInfix⟩
  | thenBranch =>
    obtain ⟨hthen, helse⟩ := Bool.and_eq_true_iff.1 hfree
    rw [(Statement.layout_ifThenElse hthen helse).1]
    exact ⟨_, List.infix_append' _ _ _⟩
  | elseBranch =>
    obtain ⟨hthen, helse⟩ := Bool.and_eq_true_iff.1 hfree
    rw [(Statement.layout_ifThenElse hthen helse).1, ← List.append_assoc]
    exact ⟨_, (List.suffix_append _ _).isInfix⟩
  | body =>
    rw [(Statement.layout_whileDo hfree).1]
    exact ⟨_, List.infix_append' _ _ _⟩
  | first =>
    rw [(Statement.layout_cons (Bool.and_eq_true_iff.1 hfree).1).1]
    exact ⟨_, (List.prefix_append _ _).isInfix⟩
  | others =>
    rw [(Statement.layout_cons (Bool.and_eq_true_iff.1 hfree).1).1]
    exact ⟨_, (List.suffix_append _ _).isInfix⟩

/-- **What a part writes stands together in what the whole writes.** -/
theorem Contains.drawn_infix (h : p.Contains q) (hfree : p.statement.holeFree = true)
    (incoming : List LooseEnd) :
    ∃ entering, q.statement.drawn settings stem q.number entering <:+:
      p.statement.drawn settings stem p.number incoming := by
  -- by induction on the way from the whole down to the part
  induction h with
  | refl => exact ⟨incoming, List.infix_refl _⟩
  | tail hpr hpart ih =>
    obtain ⟨middle, houter⟩ := ih
    obtain ⟨entering, hinner⟩ := hpart.drawn_infix (Contains.holeFree hpr hfree) middle
    exact ⟨entering, hinner.trans houter⟩

end Site

/-! ## §5 Whole programs -/

variable {settings : Settings} {statements : List Statement}

/-- **What a program writes**: its statements, and then the terminals once more. -/
theorem Graph.layout_drawProgram (g : Graph)
    (hfree : (Statement.block statements).holeFree = true) :
    (g.drawProgram settings (.block statements)).result =
        .ok ⟨(Statement.block statements).leaving settings g.stem g.nextNumber [],
          terminalNodes settings
            ((Statement.block statements).leaving settings g.stem g.nextNumber [])⟩ ∧
      (g.drawProgram settings (.block statements)).graph.records =
        g.records ++ (Statement.block statements).drawn settings g.stem g.nextNumber [] ++
          (terminalNodes settings
            ((Statement.block statements).leaving settings g.stem g.nextNumber [])).map
            .node := by
  have hd := (Statement.draws settings g.stem hfree g.nextNumber []).outgoing_eq
  constructor <;> simp [drawProgram, draw, hd, append, add, Statement.drawn]

end Flowchart
