import Flowchart.Proofs.Exported
import Flowchart.Proofs.Layout

/-!
# Declared Before Use

Who reads a chart from its first record to its last meets the nodes in the order of their
numbers, each with the text and the shape of its statement, and meets no connection before
both its ends.  A connection that leads on to a later node follows the declaration of that
node, and no other node is declared in between.  The terminals come when all else is written.

A stretch of records is in order (`InOrder`) with respect to the number of nodes that are
declared before it.  So stretches that follow each other are in order together
(`InOrder.append`), and the records of a statement are in order because those of its parts are
(`Statement.inOrder_drawn`).

Main statement: `drawProgram_declares_before_use`.
-/

namespace Flowchart

/-! ## §1 Records in order -/

/-- `InOrder stem k records m`: with the nodes below `k` declared, the records declare those
    from `k` to `m`, one after the other.  A connection joins nodes that are declared; if it
    leads to a later node, that is the one that was declared last. -/
inductive InOrder (stem : String) : Nat → List Record → Nat → Prop where
  | nil {k : Nat} : InOrder stem k [] k
  | node {k m : Nat} {n : Node} {rest : List Record} (hid : n.id = numberedId stem k)
      (h : InOrder stem (k + 1) rest m) : InOrder stem k (.node n :: rest) m
  | edge {k m i j : Nat} {c : Connection} {rest : List Record}
      (hsource : c.source = numberedId stem i) (htarget : c.target = numberedId stem j)
      (hi : i < k) (hj : j < k) (hlast : i < j → j + 1 = k) (h : InOrder stem k rest m) :
      InOrder stem k (.edge c :: rest) m

namespace InOrder

variable {stem : String} {k m n : Nat} {records more : List Record}

theorem append (h : InOrder stem k records m) (hmore : InOrder stem m more n) :
    InOrder stem k (records ++ more) n := by
  induction h with
  | nil => exact hmore
  | node hid h ih => exact .node hid (ih hmore)
  | edge hsource htarget hi hj hlast h ih =>
    exact .edge hsource htarget hi hj hlast (ih hmore)

/-- The nodes that are declared have the names of their numbers. -/
theorem map_id_declarationsIn (h : InOrder stem k records m) :
    (declarationsIn records).map Node.id =
      (List.range' k (declarationsIn records).length).map (numberedId stem) := by
  induction h with
  | nil => rfl
  | @node k m n rest hid h ih =>
    change n.id :: (declarationsIn rest).map Node.id = _
    rw [ih, hid]
    rfl
  | edge hsource htarget hi hj hlast h ih => exact ih

theorem eq_add_length (h : InOrder stem k records m) : m = k + (declarationsIn records).length := by
  induction h with
  | nil => rfl
  | @node k m n rest hid h ih =>
    change m = k + ((declarationsIn rest).length + 1)
    omega
  | edge hsource htarget hi hj hlast h ih => exact ih

/-- A first part of what is in order is in order, and so is the rest. -/
theorem of_append (h : InOrder stem k (records ++ more) m) :
    ∃ p, InOrder stem k records p ∧ InOrder stem p more m := by
  induction records generalizing k with
  | nil => exact ⟨k, .nil, h⟩
  | cons record records ih =>
    cases h with
    | node hid h =>
      obtain ⟨p, hfirst, hrest⟩ := ih h
      exact ⟨p, .node hid hfirst, hrest⟩
    | edge hsource htarget hi hj hlast h =>
      obtain ⟨p, hfirst, hrest⟩ := ih h
      exact ⟨p, .edge hsource htarget hi hj hlast hfirst, hrest⟩

end InOrder

/-! ## §2 Loose ends that are led to a node -/

/-- Every loose end leaves a node with a number from `low` to `high`. -/
def LeaveFrom (stem : String) (low high : Nat) (ends : List LooseEnd) : Prop :=
  ∀ e ∈ ends, ∃ i, e.source.id = numberedId stem i ∧ low ≤ i ∧ i < high

section

variable {stem : String} {low high : Nat} {ends : List LooseEnd}

theorem leaveFrom_nil : LeaveFrom stem low high [] := by
  intro e he
  cases he

theorem leaveFrom_singleton {e : LooseEnd} {i : Nat} (h : e.source.id = numberedId stem i) :
    LeaveFrom stem i (i + 1) [e] := by
  intro d hd
  obtain rfl := List.mem_singleton.1 hd
  exact ⟨i, h, Nat.le_refl i, Nat.lt_succ_self i⟩

theorem LeaveFrom.mono (h : LeaveFrom stem low high ends) {low' high' : Nat} (hlow : low' ≤ low)
    (hhigh : high ≤ high') : LeaveFrom stem low' high' ends := by
  intro e he
  obtain ⟨i, hid, hi, hi'⟩ := h e he
  exact ⟨i, hid, hlow.trans hi, hi'.trans_le hhigh⟩

/-- Ways back are in order: they lead to a node that is not later than the ones they leave. -/
theorem inOrder_landAll_back {target : Node} {j k : Nat} (hid : target.id = numberedId stem j)
    (hj : j < k) (h : LeaveFrom stem j k ends) : InOrder stem k (landAll ends target) k := by
  induction ends with
  | nil => exact .nil
  | cons e ends ih =>
    obtain ⟨i, hsource, hlow, hhigh⟩ := h e List.mem_cons_self
    have hrest := ih fun d hd => h d (List.mem_cons_of_mem e hd)
    refine InOrder.edge hsource hid hhigh hj ?_ hrest
    -- the connection leads to no later node
    intro hlater
    omega

/-- So are the ways to a node that was declared just now. -/
theorem inOrder_landAll_new {target : Node} {k : Nat} (hid : target.id = numberedId stem k)
    (h : LeaveFrom stem 0 k ends) : InOrder stem (k + 1) (landAll ends target) (k + 1) := by
  induction ends with
  | nil => exact .nil
  | cons e ends ih =>
    obtain ⟨i, hsource, -, hhigh⟩ := h e List.mem_cons_self
    have hrest := ih fun d hd => h d (List.mem_cons_of_mem e hd)
    refine InOrder.edge hsource hid (Nat.lt_succ_of_lt hhigh) (Nat.lt_succ_self k) ?_ hrest
    intro _
    rfl

theorem inOrder_enter {node : Node} {k : Nat} (hid : node.id = numberedId stem k)
    (h : LeaveFrom stem 0 k ends) : InOrder stem k (enter node ends) (k + 1) :=
  .node hid (inOrder_landAll_new hid h)

end

/-! ## §3 Statements -/

namespace Statement

variable {settings : Settings} {stem : String} {number : Nat} {incoming : List LooseEnd}

/-- What leaves a statement leaves one of its nodes, or came in. -/
theorem leaveFrom_leaving {s : Statement} (hfree : s.holeFree = true) {low : Nat}
    (hlow : low ≤ number) (h : LeaveFrom stem low number incoming) :
    LeaveFrom stem low (number + s.size) (s.leaving settings stem number incoming) := by
  intro e he
  rcases source_of_mem_leaving hfree he with hcame | hown
  · exact h.mono (Nat.le_refl low) (Nat.le_add_right number s.size) e hcame
  · -- its nodes are numbered from `number` on
    have hid : e.source.id ∈ (s.nodes settings stem number).map Node.id :=
      List.mem_map_of_mem hown
    rw [map_id_nodes] at hid
    obtain ⟨i, hi, hname⟩ := List.mem_map.1 hid
    obtain ⟨hfirst, hlast⟩ := List.mem_range'_1.1 hi
    exact ⟨i, hname.symm, hlow.trans hfirst, hlast⟩

/-- **The records of a statement are in order**, if what comes in leaves nodes before it. -/
theorem inOrder_drawn {s : Statement} (hfree : s.holeFree = true)
    (h : LeaveFrom stem 0 number incoming) :
    InOrder stem number (s.drawn settings stem number incoming) (number + s.size) := by
  induction s generalizing number incoming with
  | step text => exact inOrder_enter rfl h
  | exit => exact inOrder_enter rfl h
  | ifThen condition thenBranch ih =>
    have hentry := @inOrder_enter _ _ (asking stem number condition) number rfl h
    have htaken : LeaveFrom stem 0 (number + 1) [taken settings (asking stem number condition)] :=
      (leaveFrom_singleton rfl).mono (Nat.zero_le _) (Nat.le_refl _)
    have hsize : number + (ifThen condition thenBranch).size =
        number + 1 + (block thenBranch).size := by
      rw [size_ifThen]
      omega
    rw [(layout_ifThen hfree).1, hsize]
    exact hentry.append (ih hfree htaken)
  | ifThenElse condition thenBranch elseBranch ihThen ihElse =>
    obtain ⟨hthen, helse⟩ := Bool.and_eq_true_iff.1 hfree
    -- the condition is declared, then the branches with the nodes behind it
    have hentry := @inOrder_enter _ _ (asking stem number condition) number rfl h
    have htaken : LeaveFrom stem 0 (number + 1) [taken settings (asking stem number condition)] :=
      (leaveFrom_singleton rfl).mono (Nat.zero_le _) (Nat.le_refl _)
    have huntaken : LeaveFrom stem 0 (number + 1 + (block thenBranch).size)
        [untaken settings (asking stem number condition)] :=
      (leaveFrom_singleton rfl).mono (Nat.zero_le _) (Nat.le_add_right _ _)
    have hsize : number + (ifThenElse condition thenBranch elseBranch).size =
        number + 1 + (block thenBranch).size + (block elseBranch).size := by
      rw [size_ifThenElse]
      omega
    rw [(layout_ifThenElse hthen helse).1, hsize]
    exact hentry.append ((ihThen hthen htaken).append (ihElse helse huntaken))
  | whileDo condition body ih =>
    have hentry := @inOrder_enter _ _ (asking stem number condition) number rfl h
    have htaken : LeaveFrom stem number (number + 1)
        [taken settings (asking stem number condition)] := leaveFrom_singleton rfl
    have hbody := ih hfree (htaken.mono (Nat.zero_le _) (Nat.le_refl _))
    -- what leaves the body leaves the condition or comes after it, so it is led back
    have hback := @leaveFrom_leaving settings stem (number + 1) _ (block body) hfree number
      (Nat.le_succ number) htaken
    have hsize : number + (whileDo condition body).size = number + 1 + (block body).size := by
      rw [size_whileDo]
      omega
    rw [(layout_whileDo hfree).1, hsize]
    exact hentry.append (hbody.append (inOrder_landAll_back rfl (by omega) hback))
  | hole => cases hfree
  | nil => exact .nil
  | cons s rest ihFirst ihRest =>
    obtain ⟨hs, hrest⟩ := Bool.and_eq_true_iff.1 hfree
    -- what leaves the first statement enters the others
    have hfirst := ihFirst hs h
    have hothers := ihRest hrest (@leaveFrom_leaving settings _ _ _ s hs 0 (Nat.zero_le _) h)
    rw [(layout_cons hs).1, size_cons, ← Nat.add_assoc]
    exact hfirst.append hothers

/-- What is declared is a list of the statements in preorder, with their texts and shapes. -/
theorem map_nodes (settings : Settings) (stem : String) (number : Nat) (s : Statement) :
    (s.nodes settings stem number).map (fun n => (n.id, n.attributes.entries)) =
      (s.preorder.zipIdx number).map fun (part, i) =>
        (numberedId stem i, [.label (part.caption settings), .shape part.nodeShape]) := by
  rw [nodes, List.map_map]
  rfl

end Statement

/-! ## §4 Whole programs -/

/-- A chart that is read from top to bottom: each connection joins nodes that were declared
    before it, and one that leads to a later node comes before any other is declared. -/
def DeclaredBeforeUse (records : List Record) : Prop :=
  ∀ before c after, records = before ++ .edge c :: after →
    ∃ i j, c.source = numberedId "n" i ∧ c.target = numberedId "n" j ∧
      c.source ∈ (declarationsIn before).map Node.id ∧
      c.target ∈ (declarationsIn before).map Node.id ∧
      (i < j → ((declarationsIn before).map Node.id).getLast? = some c.target)

theorem InOrder.declaredBeforeUse {records : List Record} {m : Nat}
    (h : InOrder "n" 0 records m) : DeclaredBeforeUse records := by
  rintro before c after rfl
  obtain ⟨p, hbefore, hrest⟩ := h.of_append
  -- in front of the connection stand the declarations of the nodes below `p`
  have hp := hbefore.eq_add_length
  have hids := hbefore.map_id_declarationsIn
  rw [Nat.zero_add] at hp
  rw [← hp] at hids
  cases hrest with
  | @edge _ _ i j _ _ hsource htarget hi hj hlast _ =>
    refine ⟨i, j, hsource, htarget, ?_, ?_, ?_⟩ <;> rw [hids]
    · exact hsource ▸ List.mem_map_of_mem (List.mem_range'_1.2 ⟨Nat.zero_le i, by omega⟩)
    · exact htarget ▸ List.mem_map_of_mem (List.mem_range'_1.2 ⟨Nat.zero_le j, by omega⟩)
    · intro hlater
      rw [← hlast hlater, List.range'_concat, List.map_append, List.map_singleton,
        List.getLast?_concat, htarget, Nat.one_mul, Nat.zero_add]

/-- **The nodes of a program are declared in order, and before they are used.**  The chart of a
    program without holes is a list of records, and behind it the terminals once more.

    * Each statement is declared once, in preorder, by its number, with its text and shape.
    * A connection comes after the declarations of both its ends.  If it leads to a node with a
      larger number, that is the last node that was declared. -/
theorem drawProgram_declares_before_use (settings : Settings) {statements : List Statement}
    (hfree : (Statement.block statements).holeFree = true) :
    ∃ body ending, (drawProgram settings (.block statements)).result = .ok ending ∧
      (drawProgram settings (.block statements)).graph.records =
        body ++ ending.terminals.map .node ∧
      (declarationsIn body).map (fun n => (n.id, n.attributes.entries)) =
        ((Statement.block statements).preorder.zipIdx.map fun (s, i) =>
          (numberedId "n" i, [.label (s.caption settings), .shape s.nodeShape])) ∧
      DeclaredBeforeUse body := by
  obtain ⟨hresult, hrecords⟩ := @Graph.layout_drawProgram settings statements {} hfree
  have hdraws := Statement.draws settings "n" hfree 0 []
  have horder := @Statement.inOrder_drawn settings "n" 0 [] _ hfree leaveFrom_nil
  refine ⟨(Statement.block statements).drawn settings "n" 0 [], _, hresult, hrecords, ?_,
    horder.declaredBeforeUse⟩
  rw [Statement.drawn, hdraws.declared, Statement.map_nodes]

/-- A loop in the first block of a branch, and an `exit` in the other. -/
theorem declares_loop_in_branch_before_use :
    (Statement.block [.ifThenElse "a" [.whileDo "b" [.step "c"]] [.exit], .step "d"]).holeFree =
        true ∧
      ∃ body ending,
        (drawProgram {} (.block [.ifThenElse "a" [.whileDo "b" [.step "c"]] [.exit],
          .step "d"])).result = .ok ending ∧
        (drawProgram {} (.block [.ifThenElse "a" [.whileDo "b" [.step "c"]] [.exit],
          .step "d"])).graph.records = body ++ ending.terminals.map .node ∧
        (declarationsIn body).map (fun n => (n.id, n.attributes.entries)) =
          [("n0", [.label "a", .shape .diamond]), ("n1", [.label "b", .shape .diamond]),
            ("n2", [.label "c", .shape .rectangle]), ("n3", [.label "Exit", .shape .rectangle]),
            ("n4", [.label "d", .shape .rectangle])] ∧
        DeclaredBeforeUse body := by
  obtain ⟨body, ending, hresult, hrecords, hcensus, horder⟩ := @drawProgram_declares_before_use {}
    [.ifThenElse "a" [.whileDo "b" [.step "c"]] [.exit], .step "d"] rfl
  exact ⟨rfl, body, ending, hresult, hrecords, hcensus.trans (by decide +kernel), horder⟩

end Flowchart
