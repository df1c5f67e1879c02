import Flowchart.Chart.Drawing
import Flowchart.Proofs.Ways

/-!
# What a Drawing Amounts To

A drawing hands loose ends on from statement to statement.  This module compares it with
the ways of the tree, whose destinations are known at once.

Whatever comes after a statement, all its outgoing loose ends are led there together.
So fix a destination for them: the connections of the drawing and its outgoing loose
ends are then, up to their order, the incoming loose ends led to the entry, and the ways
of the statement (`Statement.draw_spec`).  For a whole program nothing comes in and nothing
comes next: its chart holds the ways of the tree (`Graph.perm_leads_drawProgram`).
-/

namespace Flowchart

/-! ## §1 Names and captions -/

/-- **Names tell numbers apart.** -/
theorem numberedId_injective (stem : String) : Function.Injective (numberedId stem) := by
  intro m n h
  -- a name is read back as the number after its stem
  have hrepr : (toString m).toList = (toString n).toList := by
    have hlists := congrArg String.toList h
    simpa [numberedId] using hlists
  have hdigits : Nat.toDigits 10 m = Nat.toDigits 10 n := by
    rw [← Nat.toList_repr, ← Nat.toList_repr]
    exact hrepr
  have hread := congrArg (fun cs => Nat.ofDigitChars 10 cs 0) hdigits
  simpa using hread

theorem numberedId_inj {stem : String} {m n : Nat} :
    numberedId stem m = numberedId stem n ↔ m = n :=
  (numberedId_injective stem).eq_iff

/-- The text that stands in the node of a statement. -/
def Statement.caption (settings : Settings) : Statement → String
  | .step text => text
  | .exit => settings.exitLabel
  | .ifThen condition _ | .ifThenElse condition _ _ | .whileDo condition _ => condition
  | .block _ | .hole => ""

/-- The shape of the node of a statement: a diamond asks a condition. -/
def Statement.nodeShape : Statement → Shape
  | .ifThen .. | .ifThenElse .. | .whileDo .. => .diamond
  | .step _ | .exit | .block _ | .hole => .rectangle

/-- The node of a statement, with the given number in its name. -/
def Statement.ownNode (settings : Settings) (stem : String) (number : Nat) (s : Statement) :
    Node :=
  labelledNode stem number (s.caption settings) s.nodeShape

/-- The nodes of the statements inside a statement, in preorder. -/
def Statement.nodes (settings : Settings) (stem : String) (number : Nat) (s : Statement) :
    List Node :=
  (s.preorder.zipIdx number).map fun (part, i) => part.ownNode settings stem i

/-! ## §2 Loose ends and connections as ways -/

/-- The way that a loose end is when its destination is known. -/
def LooseEnd.lead (e : LooseEnd) (target : Option String) : Way String :=
  ⟨e.source.id, e.label, target⟩

/-- A connection as a way. -/
def Connection.way (c : Connection) : Way String :=
  ⟨c.source, c.label, some c.target⟩

/-- A way between numbers as a way between the nodes of these numbers. -/
def Way.named (stem : String) (w : Way Nat) : Way String :=
  ⟨numberedId stem w.source, w.label, w.target.map (numberedId stem)⟩

/-- The connections among records. -/
def connectionsIn (records : List Record) : List Connection :=
  records.filterMap Record.edge?

/-- The declarations among records. -/
def declarationsIn (records : List Record) : List Node :=
  records.filterMap Record.node?

@[simp] theorem connectionsIn_append (xs ys : List Record) :
    connectionsIn (xs ++ ys) = connectionsIn xs ++ connectionsIn ys :=
  List.filterMap_append

@[simp] theorem declarationsIn_append (xs ys : List Record) :
    declarationsIn (xs ++ ys) = declarationsIn xs ++ declarationsIn ys :=
  List.filterMap_append

@[simp] theorem connectionsIn_nil : connectionsIn [] = [] := rfl

@[simp] theorem declarationsIn_nil : declarationsIn [] = [] := rfl

@[simp] theorem connectionsIn_landAll (ends : List LooseEnd) (target : Node) :
    connectionsIn (landAll ends target) = ends.map (·.land target) := by
  induction ends with
  | nil => rfl
  | cons e ends ih =>
    change e.land target :: connectionsIn (landAll ends target) = _
    rw [ih, List.map_cons]

@[simp] theorem declarationsIn_landAll (ends : List LooseEnd) (target : Node) :
    declarationsIn (landAll ends target) = [] := by
  induction ends with
  | nil => rfl
  | cons e ends ih => exact ih

@[simp] theorem connectionsIn_enter (node : Node) (incoming : List LooseEnd) :
    connectionsIn (enter node incoming) = incoming.map (·.land node) :=
  connectionsIn_landAll incoming node

@[simp] theorem declarationsIn_enter (node : Node) (incoming : List LooseEnd) :
    declarationsIn (enter node incoming) = [node] :=
  congrArg (node :: ·) (declarationsIn_landAll incoming node)

@[simp] theorem connectionsIn_map_node (nodes : List Node) :
    connectionsIn (nodes.map Record.node) = [] := by
  induction nodes with
  | nil => rfl
  | cons n nodes ih => exact ih

@[simp] theorem declarationsIn_map_node (nodes : List Node) :
    declarationsIn (nodes.map Record.node) = nodes := by
  induction nodes with
  | nil => rfl
  | cons n nodes ih => exact congrArg (n :: ·) ih

@[simp] theorem way_comp_land (target : Node) :
    (Connection.way ∘ fun e : LooseEnd => e.land target) = fun e => e.lead (some target.id) :=
  rfl

/-! ## §3 One statement -/

/-- What follows a drawing that did not stop is added to it. -/
theorem Drawing.andThen_of_outgoing {d : Drawing} {ends : List LooseEnd}
    (h : d.outgoing = .ok ends) (next : Nat → List LooseEnd → Drawing) :
    d.andThen next =
      ⟨d.records ++ (next d.nextNumber ends).records, d.notes ++ (next d.nextNumber ends).notes,
        (next d.nextNumber ends).nextNumber, (next d.nextNumber ends).outgoing⟩ := by
  simp only [Drawing.andThen, h]

/-- `d.Draws settings stem number incoming s outgoing`: the drawing declares the nodes of
    `s` in preorder, and leaves `outgoing` loose.  Wherever those are led, the ways are
    the incoming ones, led to the entry, and those of `s`. -/
structure Drawing.Draws (d : Drawing) (settings : Settings) (stem : String) (number : Nat)
    (incoming : List LooseEnd) (s : Statement) (outgoing : List LooseEnd) : Prop where
  outgoing_eq : d.outgoing = .ok outgoing
  nextNumber_eq : d.nextNumber = number + s.size
  declared : declarationsIn d.records = s.nodes settings stem number
  led : ∀ next : Option Nat,
    ((connectionsIn d.records).map Connection.way ++
        outgoing.map (·.lead (next.map (numberedId stem)))).Perm
      (incoming.map (·.lead ((s.entry number next).map (numberedId stem))) ++
        (s.ways settings number next).map (Way.named stem))

/-! ## §4 Every statement -/

namespace Statement

variable {settings : Settings} {stem : String} {number : Nat} {incoming : List LooseEnd}

theorem draw_ifThen (condition : String) (thenBranch : List Statement) :
    (ifThen condition thenBranch).draw settings stem number incoming =
      let node := labelledNode stem number condition .diamond
      (Drawing.finished (enter node incoming) [] (number + 1)
        [⟨node, some settings.trueLabel⟩]).andThen fun number taken =>
      ((block thenBranch).draw settings stem number taken).andThen fun number exits =>
      let exits := exits ++ [⟨node, some settings.falseLabel⟩]
      .finished [] [.branch node.id exits.length] number exits := rfl

theorem draw_ifThenElse (condition : String) (thenBranch elseBranch : List Statement) :
    (ifThenElse condition thenBranch elseBranch).draw settings stem number incoming =
      let node := labelledNode stem number condition .diamond
      (Drawing.finished (enter node incoming) [] (number + 1)
        [⟨node, some settings.trueLabel⟩]).andThen fun number taken =>
      ((block thenBranch).draw settings stem number taken).andThen fun number exits =>
      ((block elseBranch).draw settings stem number
        [⟨node, some settings.falseLabel⟩]).andThen fun number otherExits =>
      let exits := exits ++ otherExits
      .finished [] [.branch node.id exits.length] number exits := rfl

theorem draw_whileDo (condition : String) (body : List Statement) :
    (whileDo condition body).draw settings stem number incoming =
      let node := labelledNode stem number condition .diamond
      (Drawing.finished (enter node incoming) [] (number + 1)
        [⟨node, some settings.trueLabel⟩]).andThen fun number taken =>
      ((block body).draw settings stem number taken).andThen fun number back =>
      .finished (landAll back node) [.loop node.id back.length] number
        [⟨node, some settings.falseLabel⟩] := rfl

theorem draw_cons (s : Statement) (rest : List Statement) :
    (block (s :: rest)).draw settings stem number incoming =
      (s.draw settings stem number incoming).andThen fun number ends =>
      (block rest).draw settings stem number ends := rfl

theorem nodes_ifThen (condition : String) (thenBranch : List Statement) :
    (ifThen condition thenBranch).nodes settings stem number =
      labelledNode stem number condition .diamond ::
        (block thenBranch).nodes settings stem (number + 1) := rfl

/-- The nodes of the second block are numbered behind those of the first. -/
theorem nodes_ifThenElse (condition : String) (thenBranch elseBranch : List Statement) :
    (ifThenElse condition thenBranch elseBranch).nodes settings stem number =
      labelledNode stem number condition .diamond ::
        ((block thenBranch).nodes settings stem (number + 1) ++
          (block elseBranch).nodes settings stem (number + 1 + (block thenBranch).size)) := by
  simp [nodes, preorder, size, List.zipIdx_append, ownNode, caption, nodeShape]

theorem nodes_whileDo (condition : String) (body : List Statement) :
    (whileDo condition body).nodes settings stem number =
      labelledNode stem number condition .diamond ::
        (block body).nodes settings stem (number + 1) := rfl

/-- The nodes of the others are numbered behind those of the first statement. -/
theorem nodes_cons (s : Statement) (rest : List Statement) :
    (block (s :: rest)).nodes settings stem number =
      s.nodes settings stem number ++ (block rest).nodes settings stem (number + s.size) := by
  simp [nodes, preorder, preorderList, size, List.zipIdx_append]

/-- **A drawing of a tree without holes amounts to the ways of the tree.** -/
theorem draw_spec {s : Statement} (h : s.holeFree = true) (number : Nat)
    (incoming : List LooseEnd) :
    ∃ outgoing, (s.draw settings stem number incoming).Draws settings stem number incoming s
      outgoing := by
  induction s generalizing number incoming with
  | step text =>
    refine ⟨[⟨(step text).ownNode settings stem number, none⟩], rfl, rfl, ?_, fun next => ?_⟩
    · exact declarationsIn_enter _ _
    · simp [draw, Drawing.finished, LooseEnd.lead, Way.named, ownNode, labelledNode]
  | exit =>
    refine ⟨[], rfl, rfl, ?_, fun next => ?_⟩
    · exact declarationsIn_enter _ _
    · simp [draw, Drawing.finished, LooseEnd.lead, labelledNode]
  | ifThen condition thenBranch ih =>
    -- the block is entered by the way with the true label, and by nothing else
    obtain ⟨exits, hthen⟩ := ih h (number + 1)
      [⟨labelledNode stem number condition .diamond, some settings.trueLabel⟩]
    rw [draw_ifThen, Drawing.finished_andThen]
    simp only [Drawing.andThen_of_outgoing hthen.outgoing_eq]
    refine ⟨_, rfl, ?_, ?_, fun next => ?_⟩
    · simp [Drawing.finished, hthen.nextNumber_eq]; omega
    · simp [Drawing.finished, hthen.declared, nodes_ifThen]
    · -- lists are the same up to order if each way is in them as often
      rw [List.perm_iff_count]
      intro w
      have hcount := (hthen.led next).count_eq w
      simp [Drawing.finished, LooseEnd.lead, Way.named, labelledNode, List.count_cons] at hcount ⊢
      omega
  | ifThenElse condition thenBranch elseBranch ihThen ihElse =>
    rw [holeFree_ifThenElse, Bool.and_eq_true] at h
    obtain ⟨exits, hthen⟩ := ihThen h.1 (number + 1)
      [⟨labelledNode stem number condition .diamond, some settings.trueLabel⟩]
    obtain ⟨otherExits, helse⟩ := ihElse h.2 (number + 1 + (block thenBranch).size)
      [⟨labelledNode stem number condition .diamond, some settings.falseLabel⟩]
    rw [draw_ifThenElse, Drawing.finished_andThen]
    simp only [Drawing.andThen_of_outgoing hthen.outgoing_eq, hthen.nextNumber_eq,
      Drawing.andThen_of_outgoing helse.outgoing_eq]
    refine ⟨_, rfl, ?_, ?_, fun next => ?_⟩
    · simp [Drawing.finished, helse.nextNumber_eq]; omega
    · simp [Drawing.finished, hthen.declared, helse.declared, nodes_ifThenElse]
    · rw [List.perm_iff_count]
      intro w
      -- both blocks are left for what comes next
      have hfirst := (hthen.led next).count_eq w
      have hother := (helse.led next).count_eq w
      simp [Drawing.finished, LooseEnd.lead, Way.named, labelledNode, List.count_cons]
        at hfirst hother ⊢
      omega
  | whileDo condition body ih =>
    obtain ⟨back, hbody⟩ := ih h (number + 1)
      [⟨labelledNode stem number condition .diamond, some settings.trueLabel⟩]
    rw [draw_whileDo, Drawing.finished_andThen]
    simp only [Drawing.andThen_of_outgoing hbody.outgoing_eq]
    refine ⟨_, rfl, ?_, ?_, fun next => ?_⟩
    · simp [Drawing.finished, hbody.nextNumber_eq]; omega
    · simp [Drawing.finished, hbody.declared, nodes_whileDo]
    · rw [List.perm_iff_count]
      intro w
      -- the ways that leave the body are led back to the condition
      have hcount := (hbody.led (some number)).count_eq w
      simp [Drawing.finished, LooseEnd.lead, Way.named, labelledNode, List.count_cons] at hcount ⊢
      omega
  | hole => simp at h
  | nil =>
    refine ⟨incoming, rfl, rfl, rfl, fun next => ?_⟩
    simp [draw, drawList, Drawing.finished]
  | cons s rest ihFirst ihRest =>
    rw [holeFree_cons, Bool.and_eq_true] at h
    obtain ⟨ends, hs⟩ := ihFirst h.1 number incoming
    obtain ⟨outgoing, hrest⟩ := ihRest h.2 (number + s.size) ends
    rw [draw_cons, Drawing.andThen_of_outgoing hs.outgoing_eq, hs.nextNumber_eq]
    refine ⟨outgoing, hrest.outgoing_eq, ?_, ?_, fun next => ?_⟩
    · simp [hrest.nextNumber_eq]; omega
    · simp [hs.declared, hrest.declared, nodes_cons]
    · rw [List.perm_iff_count]
      intro w
      -- what comes after the first statement is the entry of the others
      have hfirst := (hs.led ((block rest).entry (number + s.size) next)).count_eq w
      have hlater := (hrest.led next).count_eq w
      simp at hfirst hlater ⊢
      omega

end Statement

/-! ## §5 Whole programs -/

namespace Graph

variable {settings : Settings} {g : Graph} {statements : List Statement}

theorem connections_eq_connectionsIn (g : Graph) : g.connections = connectionsIn g.records := rfl

theorem declarations_eq_declarationsIn (g : Graph) :
    g.declarations = declarationsIn g.records := rfl

/-- Whatever is drawn into a chart is put after what stood there. -/
theorem records_draw (settings : Settings) (g : Graph) (incoming : List LooseEnd)
    (s : Statement) :
    (g.draw settings incoming s).graph.records =
      g.records ++ (s.draw settings g.stem g.nextNumber incoming).records := rfl

/-- **A program without holes is drawn to its end**: its statements from no loose end, and
    then the terminals once more. -/
theorem drawProgram_spec (h : (Statement.block statements).holeFree = true) :
    ∃ d outgoing,
      Drawing.Draws d settings g.stem g.nextNumber [] (.block statements) outgoing ∧
      (g.drawProgram settings (.block statements)).result =
        .ok ⟨outgoing, terminalNodes settings outgoing⟩ ∧
      (g.drawProgram settings (.block statements)).graph.records =
        g.records ++ d.records ++ (terminalNodes settings outgoing).map .node := by
  obtain ⟨outgoing, hd⟩ :=
    @Statement.draw_spec settings g.stem (.block statements) h g.nextNumber []
  refine ⟨_, outgoing, hd, ?_, ?_⟩ <;>
    simp [drawProgram, draw, hd.outgoing_eq, append, add]

/-- The connections of a chart, and its loose ends as ways that run off the end. -/
def leads (g : Graph) (exits : List LooseEnd) : List (Way String) :=
  g.connections.map Connection.way ++ exits.map (·.lead none)

/-- The chart of a program with its exits holds the ways of the tree. -/
theorem perm_leads_drawProgram {g : Graph} (hfree : (Statement.block statements).holeFree = true)
    (hempty : g.records = []) :
    ∃ ending, (g.drawProgram settings (.block statements)).result = .ok ending ∧
      ((g.drawProgram settings (.block statements)).graph.leads ending.exits).Perm
        (((Statement.block statements).ways settings g.nextNumber none).map
          (Way.named g.stem)) := by
  obtain ⟨d, outgoing, hd, hresult, hrecords⟩ := drawProgram_spec (g := g) hfree
  refine ⟨_, hresult, ?_⟩
  have hled := hd.led none
  simpa [leads, connections_eq_connectionsIn, hrecords, hempty] using hled

end Graph

end Flowchart
