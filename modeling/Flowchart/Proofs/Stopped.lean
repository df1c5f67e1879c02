import Flowchart.Program.Filling
import Flowchart.Proofs.HoleFree
import Flowchart.Proofs.Layout

/-!
# Drawings That Stop at a Hole

A tree with a hole anywhere, in dead code or not, has neither a chart nor an outline.  Its
drawing stops when it comes to the first hole, and what was written by then stays: for each
statement before the hole its node, once and unmarked, and the connections that were made
on the way.

What was written is compared with the drawings of the completed trees, in which every hole
is filled (`Statement.fill`).  All of them begin with the same records, and go on with the
drawing of whatever fills the first hole (`Statement.draw_stops`).

Main statement: `draw_stops_at_first_hole`.
-/

namespace Flowchart

namespace Statement

variable {settings : Settings} {stem : String} {number first : Nat} {incoming : List LooseEnd}
  {fillings : Nat → Statement}

/-! ## §1 Before the first hole -/

/-- Without holes the places are the statements in preorder. -/
theorem places_of_holeFree {s : Statement} (h : s.holeFree = true) : s.places = s.preorder := by
  induction s with
  | step text => rfl
  | exit => rfl
  | ifThen condition thenBranch ih => exact congrArg _ (ih h)
  | ifThenElse condition thenBranch elseBranch ihThen ihElse =>
    obtain ⟨hthen, helse⟩ := Bool.and_eq_true_iff.1 h
    have hparts : (block thenBranch).places ++ (block elseBranch).places = _ :=
      congrArg₂ _ (ihThen hthen) (ihElse helse)
    exact congrArg _ hparts
  | whileDo condition body ih => exact congrArg _ (ih h)
  | hole => cases h
  | nil => rfl
  | cons s rest ihFirst ihRest =>
    obtain ⟨hs, hrest⟩ := Bool.and_eq_true_iff.1 h
    exact congrArg₂ _ (ihFirst hs) (ihRest hrest)

/-- A tree has a hole just if one of its places is a hole. -/
theorem hole_mem_places_iff {s : Statement} : hole ∈ s.places ↔ s.holeFree = false := by
  induction s with
  | step text => simp [places, holeFree]
  | exit => simp [places, holeFree]
  | ifThen condition thenBranch ih => simpa [places] using ih
  | ifThenElse condition thenBranch elseBranch ihThen ihElse =>
    rw [holeFree_ifThenElse, Bool.and_eq_false_iff, ← ihThen, ← ihElse]
    simp [places]
  | whileDo condition body ih => simpa [places] using ih
  | hole => simp [places]
  | nil => simp [places, placesList, holeFree, holeFreeList]
  | cons s rest ihFirst ihRest =>
    rw [holeFree_cons, Bool.and_eq_false_iff, ← ihFirst, ← ihRest]
    simp [places, placesList]

theorem holes_of_holeFree {s : Statement} (h : s.holeFree = true) : s.holes = 0 := by
  rw [holes, List.count_eq_zero, hole_mem_places_iff, h]
  exact Bool.noConfusion

/-- Whatever stands behind a hole makes no difference. -/
theorem takeWhile_append_of_hole {s : Statement} (h : s.holeFree = false)
    (later : List Statement) :
    (s.places ++ later).takeWhile (fun place => place ≠ hole) = s.beforeHole := by
  have hmem := hole_mem_places_iff.2 h
  unfold beforeHole
  generalize s.places = places at hmem
  -- by induction on the places; the hole is among them, so what comes later is never reached
  induction places with
  | nil => cases hmem
  | cons place places ih =>
    by_cases hplace : place = hole
    · simp [hplace]
    · have hrest : hole ∈ places := (List.mem_cons.1 hmem).resolve_left fun h => hplace h.symm
      simpa [hplace] using ih hrest

/-- Statements without holes are passed by. -/
theorem takeWhile_append_of_holeFree {s : Statement} (h : s.holeFree = true)
    (later : List Statement) :
    (s.places ++ later).takeWhile (fun place => place ≠ hole) =
      s.preorder ++ later.takeWhile fun place => place ≠ hole := by
  rw [List.takeWhile_append_of_pos, places_of_holeFree h]
  intro place hplace
  refine decide_eq_true ?_
  rintro rfl
  rw [hole_mem_places_iff.1 hplace] at h
  cases h

section Parts

variable {condition : String} {thenBranch elseBranch body rest : List Statement} {s : Statement}

theorem beforeHole_ifThen :
    (ifThen condition thenBranch).beforeHole =
      ifThen condition thenBranch :: (block thenBranch).beforeHole := by
  simp [beforeHole, places]

/-- A hole in the first block keeps the other block from being reached. -/
theorem beforeHole_ifThenElse_of_hole (h : (block thenBranch).holeFree = false) :
    (ifThenElse condition thenBranch elseBranch).beforeHole =
      ifThenElse condition thenBranch elseBranch :: (block thenBranch).beforeHole := by
  rw [← takeWhile_append_of_hole h (block elseBranch).places]
  simp [beforeHole, places]

/-- A first block without holes is passed by. -/
theorem beforeHole_ifThenElse_of_holeFree (h : (block thenBranch).holeFree = true) :
    (ifThenElse condition thenBranch elseBranch).beforeHole =
      ifThenElse condition thenBranch elseBranch ::
        ((block thenBranch).preorder ++ (block elseBranch).beforeHole) := by
  rw [beforeHole, beforeHole, ← takeWhile_append_of_holeFree h]
  simp [places]

theorem beforeHole_whileDo :
    (whileDo condition body).beforeHole =
      whileDo condition body :: (block body).beforeHole := by
  simp [beforeHole, places]

theorem beforeHole_cons_of_hole (h : s.holeFree = false) :
    (block (s :: rest)).beforeHole = s.beforeHole :=
  takeWhile_append_of_hole h (block rest).places

theorem beforeHole_cons_of_holeFree (h : s.holeFree = true) :
    (block (s :: rest)).beforeHole = s.preorder ++ (block rest).beforeHole :=
  takeWhile_append_of_holeFree h (block rest).places

end Parts

/-! ## §2 Filling -/

/-- A tree without holes stays as it is. -/
theorem fill_of_holeFree {s : Statement} (h : s.holeFree = true) (first : Nat) :
    s.fill fillings first = s := by
  induction s generalizing first with
  | step text => rfl
  | exit => rfl
  | ifThen condition thenBranch ih =>
    rw [fill, Statement.block.inj (ih h first)]
  | ifThenElse condition thenBranch elseBranch ihThen ihElse =>
    obtain ⟨hthen, helse⟩ := Bool.and_eq_true_iff.1 h
    rw [fill, Statement.block.inj (ihThen hthen first), Statement.block.inj (ihElse helse _)]
  | whileDo condition body ih =>
    rw [fill, Statement.block.inj (ih h first)]
  | hole => cases h
  | nil => rfl
  | cons s rest ihFirst ihRest =>
    obtain ⟨hs, hrest⟩ := Bool.and_eq_true_iff.1 h
    rw [fill, fillList, ihFirst hs, Statement.block.inj (ihRest hrest _)]

end Statement

/-! ## §3 Drawings that stop -/

/-- The nodes of statements with numbers in a row. -/
def nodesFrom (settings : Settings) (stem : String) (number : Nat) (parts : List Statement) :
    List Node :=
  (parts.zipIdx number).map fun (part, i) => part.ownNode settings stem i

theorem nodesFrom_append (settings : Settings) (stem : String) (number : Nat)
    (parts more : List Statement) :
    nodesFrom settings stem number (parts ++ more) =
      nodesFrom settings stem number parts ++
        nodesFrom settings stem (number + parts.length) more := by
  simp [nodesFrom, List.zipIdx_append]

namespace Drawing

variable {d d' : Drawing} {settings : Settings} {stem : String} {number : Nat}
  {ends : List LooseEnd} {next next' : Nat → List LooseEnd → Drawing} {more : List Record}
  {before : List Statement}

/-- `d.Stops settings stem number before`: the drawing stopped at a hole.  By then it had
    declared the nodes of the statements `before`, each once, and used up their numbers. -/
structure Stops (d : Drawing) (settings : Settings) (stem : String) (number : Nat)
    (before : List Statement) : Prop where
  outgoing_eq : d.outgoing = .error .hole
  nextNumber_eq : d.nextNumber = number + before.length
  declared : declarationsIn d.records = nodesFrom settings stem number before

/-- `d.ResumedBy more d'`: what `d'` writes begins with what `d` writes and goes on with
    `more`. -/
def ResumedBy (d : Drawing) (more : List Record) (d' : Drawing) : Prop :=
  d.records ++ more <+: d'.records

theorem andThen_of_error {e : TreeError} (h : d.outgoing = .error e)
    (next : Nat → List LooseEnd → Drawing) : d.andThen next = d := by
  simp only [andThen, h]

theorem records_prefix_andThen (d : Drawing) (next : Nat → List LooseEnd → Drawing) :
    d.records <+: (d.andThen next).records := by
  cases h : d.outgoing with
  | error e =>
    rw [andThen_of_error h]
  | ok ends =>
    rw [andThen_of_outgoing h]
    exact List.prefix_append _ _

/-- Nothing is drawn after a hole. -/
theorem Stops.andThen (h : d.Stops settings stem number before)
    (next : Nat → List LooseEnd → Drawing) :
    (d.andThen next).Stops settings stem number before := by
  rw [andThen_of_error h.outgoing_eq]
  exact h

/-- What was drawn before the statement that the hole is in stays. -/
theorem Stops.after (parts : List Statement) (houtgoing : d.outgoing = .ok ends)
    (hnumber : d.nextNumber = number + parts.length)
    (hdeclared : declarationsIn d.records = nodesFrom settings stem number parts)
    (h : (next (number + parts.length) ends).Stops settings stem (number + parts.length) before) :
    (d.andThen next).Stops settings stem number (parts ++ before) := by
  rw [andThen_of_outgoing houtgoing, hnumber]
  -- the hole is met in what is drawn next, after the numbers and nodes of the parts before
  refine ⟨h.outgoing_eq, ?_, ?_⟩
  · rw [List.length_append, ← Nat.add_assoc]
    exact h.nextNumber_eq
  · rw [declarationsIn_append, hdeclared, h.declared, nodesFrom_append]

/-- Whatever comes after the filled hole is written later. -/
theorem ResumedBy.andThen (h : d.ResumedBy more d') (hstops : d.outgoing = .error .hole)
    (next next' : Nat → List LooseEnd → Drawing) :
    (d.andThen next).ResumedBy more (d'.andThen next') := by
  rw [andThen_of_error hstops]
  exact h.trans (records_prefix_andThen d' next')

/-- Whatever comes before the hole is written first, in either tree. -/
theorem ResumedBy.after (houtgoing : d.outgoing = .ok ends)
    (h : (next d.nextNumber ends).ResumedBy more (next' d.nextNumber ends)) :
    (d.andThen next).ResumedBy more (d.andThen next') := by
  rw [andThen_of_outgoing houtgoing, andThen_of_outgoing houtgoing]
  unfold ResumedBy
  rw [List.append_assoc]
  exact (List.prefix_append_right_inj _).2 h

end Drawing

namespace Statement

variable {settings : Settings} {stem : String}

theorem add_length_cons (number : Nat) (part : Statement) (parts : List Statement) :
    number + (part :: parts).length = number + 1 + parts.length := by
  rw [List.length_cons, Nat.add_assoc, Nat.add_comm 1]

/-- **A drawing stops at the first hole**, and the drawings of all completed trees go on from
    there with whatever fills it. -/
theorem draw_stops {s : Statement} (h : s.holeFree = false) (number : Nat)
    (incoming : List LooseEnd) :
    (s.draw settings stem number incoming).Stops settings stem number s.beforeHole ∧
      ∃ entering, ∀ fillings first,
        (s.draw settings stem number incoming).ResumedBy
          ((fillings first).drawn settings stem (number + s.beforeHole.length) entering)
          ((s.fill fillings first).draw settings stem number incoming) := by
  -- by induction on the tree; a hole behind parts without holes adds their nodes to those
  -- before it
  induction s generalizing number incoming with
  | step text => cases h
  | exit => cases h
  | ifThen condition thenBranch ih =>
    obtain ⟨hstops, entering, hresumed⟩ :=
      ih h (number + 1) [taken settings (asking stem number condition)]
    rw [beforeHole_ifThen]
    refine ⟨?_, entering, fun fillings first => ?_⟩
    · rw [draw_ifThen]
      exact .after [ifThen condition thenBranch] rfl rfl (declarationsIn_enter _ _)
        (hstops.andThen _)
    · rw [fill, draw_ifThen, draw_ifThen, add_length_cons]
      exact .after rfl ((hresumed fillings first).andThen hstops.outgoing_eq _ _)
  | ifThenElse condition thenBranch elseBranch ihThen ihElse =>
    -- the first hole is in the first block, or that block has none
    cases hthen : (block thenBranch).holeFree with
    | false =>
      obtain ⟨hstops, entering, hresumed⟩ :=
        ihThen hthen (number + 1) [taken settings (asking stem number condition)]
      rw [beforeHole_ifThenElse_of_hole hthen]
      refine ⟨?_, entering, fun fillings first => ?_⟩
      · rw [draw_ifThenElse]
        exact .after [ifThenElse condition thenBranch elseBranch] rfl rfl
          (declarationsIn_enter _ _) (hstops.andThen _)
      · rw [fill, draw_ifThenElse, draw_ifThenElse, add_length_cons]
        exact .after rfl ((hresumed fillings first).andThen hstops.outgoing_eq _ _)
    | true =>
      -- the first block is drawn to its end, and the hole is in the other one
      have helse : (block elseBranch).holeFree = false := by
        rw [holeFree_ifThenElse, hthen, Bool.true_and] at h
        exact h
      have hdraws := draws settings stem hthen (number + 1)
        [taken settings (asking stem number condition)]
      obtain ⟨hstops, entering, hresumed⟩ :=
        ihElse helse (number + 1 + (block thenBranch).size)
          [untaken settings (asking stem number condition)]
      rw [beforeHole_ifThenElse_of_holeFree hthen]
      refine ⟨?_, entering, fun fillings first => ?_⟩
      · rw [draw_ifThenElse]
        exact .after [ifThenElse condition thenBranch elseBranch] rfl rfl
          (declarationsIn_enter _ _)
          (.after _ hdraws.outgoing_eq hdraws.nextNumber_eq hdraws.declared (hstops.andThen _))
      · rw [fill, Statement.block.inj (fill_of_holeFree hthen first), holes_of_holeFree hthen,
          Nat.add_zero, draw_ifThenElse, draw_ifThenElse, add_length_cons, List.length_append,
          ← Nat.add_assoc]
        refine .after rfl (.after hdraws.outgoing_eq ?_)
        dsimp only [Drawing.finished]
        rw [hdraws.nextNumber_eq]
        exact (hresumed fillings first).andThen hstops.outgoing_eq _ _
  | whileDo condition body ih =>
    obtain ⟨hstops, entering, hresumed⟩ :=
      ih h (number + 1) [taken settings (asking stem number condition)]
    rw [beforeHole_whileDo]
    refine ⟨?_, entering, fun fillings first => ?_⟩
    · rw [draw_whileDo]
      exact .after [whileDo condition body] rfl rfl (declarationsIn_enter _ _)
        (hstops.andThen _)
    · rw [fill, draw_whileDo, draw_whileDo, add_length_cons]
      exact .after rfl ((hresumed fillings first).andThen hstops.outgoing_eq _ _)
  | hole =>
    -- here the drawing stops, and whatever fills the hole is drawn from the same ends
    refine ⟨⟨rfl, rfl, rfl⟩, incoming, fun fillings first => ?_⟩
    exact List.prefix_refl _
  | nil => cases h
  | cons s rest ihFirst ihRest =>
    cases hs : s.holeFree with
    | false =>
      obtain ⟨hstops, entering, hresumed⟩ := ihFirst hs number incoming
      rw [beforeHole_cons_of_hole hs]
      refine ⟨?_, entering, fun fillings first => ?_⟩
      · rw [draw_cons]
        exact hstops.andThen _
      · rw [fill, fillList, draw_cons, draw_cons]
        exact (hresumed fillings first).andThen hstops.outgoing_eq _ _
    | true =>
      -- the first statement is drawn to its end, and filling leaves it as it is
      have hrest : (block rest).holeFree = false := by
        rw [holeFree_cons, hs, Bool.true_and] at h
        exact h
      have hdraws := draws settings stem hs number incoming
      obtain ⟨hstops, entering, hresumed⟩ :=
        ihRest hrest (number + s.size) (s.leaving settings stem number incoming)
      rw [beforeHole_cons_of_holeFree hs]
      refine ⟨?_, entering, fun fillings first => ?_⟩
      · rw [draw_cons]
        exact .after _ hdraws.outgoing_eq hdraws.nextNumber_eq hdraws.declared hstops
      · rw [fill, fillList, fill_of_holeFree hs, holes_of_holeFree hs, Nat.add_zero, draw_cons,
          draw_cons, List.length_append, ← Nat.add_assoc]
        refine .after hdraws.outgoing_eq ?_
        rw [hdraws.nextNumber_eq]
        exact hresumed fillings first

/-! ## §4 Outlines that stop -/

/-- The lines of a block fail where those of its members do. -/
theorem outlineLinesList_of_hole {statements : List Statement} {indent : Nat}
    (h : (block statements).outlineLines indent = .error .hole) :
    outlineLinesList (indent + 2) statements = .error .hole := by
  simp only [outlineLines] at h
  cases hlist : outlineLinesList (indent + 2) statements with
  | error e => rwa [hlist] at h
  | ok inner => rw [hlist] at h; cases h

/-- A tree with a hole has no outline, however far it is set in. -/
theorem outlineLines_of_hole {s : Statement} (h : s.holeFree = false) (indent : Nat) :
    s.outlineLines indent = .error .hole := by
  induction s generalizing indent with
  | step text => cases h
  | exit => cases h
  | ifThen condition thenBranch ih =>
    rw [outlineLines, outlineLinesList_of_hole (ih h (indent + 2))]
    rfl
  | ifThenElse condition thenBranch elseBranch ihThen ihElse =>
    rw [outlineLines]
    cases hthen : (block thenBranch).holeFree with
    | false =>
      rw [outlineLinesList_of_hole (ihThen hthen (indent + 2))]
      rfl
    | true =>
      rw [holeFree_ifThenElse, hthen, Bool.true_and] at h
      -- the first block is outlined, and then the other one fails
      obtain ⟨inner, hinner⟩ := exists_outlineLinesList (exists_outlineLines hthen (indent + 2))
      rw [hinner, outlineLinesList_of_hole (ihElse h (indent + 4))]
      rfl
  | whileDo condition body ih =>
    rw [outlineLines, outlineLinesList_of_hole (ih h (indent + 2))]
    rfl
  | hole => rfl
  | nil => cases h
  | cons s rest ihFirst ihRest =>
    rw [outlineLines, outlineLinesList]
    cases hs : s.holeFree with
    | false =>
      rw [ihFirst hs (indent + 2)]
      rfl
    | true =>
      rw [holeFree_cons, hs, Bool.true_and] at h
      -- the first statement is outlined, and then one of the others fails
      obtain ⟨lines, hlines⟩ := exists_outlineLines hs (indent + 2)
      rw [hlines, outlineLinesList_of_hole (ihRest h indent)]
      rfl

theorem renderOutline_of_hole {s : Statement} (h : s.holeFree = false) :
    s.renderOutline = .error .hole := by
  rw [renderOutline, outline, outlineLines_of_hole h]
  rfl

/-- A tree without holes has an outline. -/
theorem exists_renderOutline {s : Statement} (h : s.holeFree = true) :
    ∃ text, s.renderOutline = .ok text := by
  obtain ⟨lines, hlines⟩ := exists_outlineLines h 2
  rw [renderOutline, outline, hlines]
  exact ⟨_, rfl⟩

end Statement

/-! ## §5 Charts -/

/-- What succeeds if a condition holds, and fails in one way if it does not, fails just if it
    does not hold, and succeeds just if it does. -/
theorem result_iff {α ε : Type} {result : Except ε α} {e : ε} {whole : Bool}
    (herror : whole = false → result = .error e) (hok : whole = true → ∃ a, result = .ok a) :
    (result = .error e ↔ whole = false) ∧ ((∃ a, result = .ok a) ↔ whole = true) := by
  cases whole with
  | false => simp [herror rfl]
  | true =>
    obtain ⟨a, ha⟩ := hok rfl
    simp [ha]

namespace Graph

variable {settings : Settings} {g : Graph} {incoming : List LooseEnd}

/-- `run t` is the chart `g` after something was done with the tree `t`.  For the tree `s` this
    stopped at the first hole, when the loose ends `entering` were waiting to enter it:

    * The chart had `before` added by then, which declares the nodes of the statements before
      the hole, unmarked, and their numbers were used up.
    * However the holes are filled, the run goes on from this chart with the drawing of what
      fills the first hole. -/
structure StopsAtFirstHole (settings : Settings) (g : Graph) (s : Statement)
    (run : Statement → Graph) (before : List Record) (entering : List LooseEnd) : Prop where
  records_eq : (run s).records = g.records ++ before
  nextNumber_eq : (run s).nextNumber = g.nextNumber + s.beforeHole.length
  declared : declarationsIn before = nodesFrom settings g.stem g.nextNumber s.beforeHole
  unmarked : ∀ n ∈ declarationsIn before,
    n.attributes.contains .color = false ∧ n.attributes.contains .penWidth = false
  resumed : ∀ fillings : Nat → Statement,
    (run s).records ++ (fillings 0).drawn settings g.stem (run s).nextNumber entering <+:
      (run (s.fill fillings 0)).records

/-- A drawing into a chart stops at the first hole. -/
theorem stopsAtFirstHole_draw {s : Statement} (h : s.holeFree = false) (g : Graph)
    (incoming : List LooseEnd) :
    ∃ entering, g.StopsAtFirstHole settings s (fun t => (g.draw settings incoming t).graph)
      (s.drawn settings g.stem g.nextNumber incoming) entering := by
  obtain ⟨hstops, entering, hresumed⟩ :=
    @Statement.draw_stops settings g.stem s h g.nextNumber incoming
  refine ⟨entering, rfl, hstops.nextNumber_eq, hstops.declared, ?_, fun fillings => ?_⟩
  · intro n hn
    -- a node of a statement has a label and a shape only
    rw [Statement.drawn, hstops.declared] at hn
    obtain ⟨⟨part, i⟩, -, rfl⟩ := List.mem_map.1 hn
    exact ⟨rfl, rfl⟩
  · have hnumber : (g.draw settings incoming s).graph.nextNumber =
        g.nextNumber + s.beforeHole.length := hstops.nextNumber_eq
    rw [hnumber, records_draw, records_draw, List.append_assoc]
    exact (List.prefix_append_right_inj _).2 (hresumed fillings 0)

/-- A whole program that stops at a hole has no terminals declared. -/
theorem drawProgram_of_hole {statements : List Statement}
    (h : (Statement.block statements).holeFree = false) (g : Graph) :
    (g.drawProgram settings (.block statements)).result = .error .hole ∧
      (g.drawProgram settings (.block statements)).graph =
        (g.draw settings [] (.block statements)).graph := by
  obtain ⟨hstops, -⟩ := @Statement.draw_stops settings g.stem _ h g.nextNumber []
  constructor <;> simp [drawProgram, draw, hstops.outgoing_eq]

/-- What is drawn of a program is written before its terminals. -/
theorem draw_prefix_drawProgram (g : Graph) (settings : Settings) (statements : List Statement) :
    (g.draw settings [] (.block statements)).graph.records <+:
      (g.drawProgram settings (.block statements)).graph.records := by
  simp only [drawProgram]
  split
  · exact List.prefix_refl _
  · exact List.prefix_append _ _

/-- A program stops at its first hole, as its drawing does. -/
theorem stopsAtFirstHole_drawProgram {statements : List Statement}
    (h : (Statement.block statements).holeFree = false) (g : Graph) :
    ∃ entering, g.StopsAtFirstHole settings (.block statements)
      (fun t => (g.drawProgram settings t).graph)
      ((Statement.block statements).drawn settings g.stem g.nextNumber []) entering := by
  obtain ⟨entering, hstops⟩ := @stopsAtFirstHole_draw settings _ h g []
  have hgraph := (@drawProgram_of_hole settings _ h g).2
  refine ⟨entering, ?_, ?_, hstops.declared, hstops.unmarked, fun fillings => ?_⟩
  · rw [hgraph]
    exact hstops.records_eq
  · rw [hgraph]
    exact hstops.nextNumber_eq
  · rw [hgraph]
    exact (hstops.resumed fillings).trans (draw_prefix_drawProgram g settings _)

end Graph

/-- **A drawing stops at the first hole of its tree, and nowhere else.**  Whatever the chart,
    the settings and the loose ends that come in:

    * A tree is drawn, and it is outlined, just if it has no hole.
    * A drawing that stops has written what all drawings of completed trees write before
      they draw what fills the first hole: the nodes of the statements before it, once each
      and without the mark of a terminal, and the connections made until then.
    * The same holds of a whole program.  If its root is no block, it is refused, and the chart
      stays as it is. -/
theorem draw_stops_at_first_hole (settings : Settings) (g : Graph) :
    (∀ (incoming : List LooseEnd) (s : Statement),
      ((g.draw settings incoming s).result = .error .hole ↔ s.holeFree = false) ∧
      ((∃ outgoing, (g.draw settings incoming s).result = .ok outgoing) ↔ s.holeFree = true) ∧
      (s.renderOutline = .error .hole ↔ s.holeFree = false) ∧
      ((∃ outline, s.renderOutline = .ok outline) ↔ s.holeFree = true)) ∧
    (∀ (incoming : List LooseEnd) (s : Statement), s.holeFree = false →
      ∃ before entering, g.StopsAtFirstHole settings s
        (fun t => (g.draw settings incoming t).graph) before entering) ∧
    (∀ statements,
      ((g.drawProgram settings (.block statements)).result = .error .hole ↔
        (Statement.block statements).holeFree = false) ∧
      ((∃ ending, (g.drawProgram settings (.block statements)).result = .ok ending) ↔
        (Statement.block statements).holeFree = true) ∧
      ((Statement.block statements).holeFree = false →
        ∃ before entering, g.StopsAtFirstHole settings (.block statements)
          (fun t => (g.drawProgram settings t).graph) before entering)) ∧
    ∀ root, (∀ statements, root ≠ .block statements) →
      (g.drawProgram settings root).result = .error (.rootNotBlock root) ∧
        (g.drawProgram settings root).graph = g := by
  refine ⟨fun incoming s => ?_, fun incoming s h => ?_, fun statements => ?_, fun root h => ?_⟩
  · have hdraw := @result_iff _ _ (g.draw settings incoming s).result .hole s.holeFree
      (fun h => (Statement.draw_stops h g.nextNumber incoming).1.outgoing_eq)
      (fun h => ⟨_, (Statement.draws settings g.stem h g.nextNumber incoming).outgoing_eq⟩)
    have houtline := @result_iff _ _ s.renderOutline .hole s.holeFree
      Statement.renderOutline_of_hole Statement.exists_renderOutline
    exact ⟨hdraw.1, hdraw.2, houtline⟩
  · exact ⟨_, Graph.stopsAtFirstHole_draw h g incoming⟩
  · have hprogram := @result_iff _ _ (g.drawProgram settings (.block statements)).result .hole
      (Statement.block statements).holeFree (fun h => (Graph.drawProgram_of_hole h g).1)
      (fun h => ⟨_, (g.layout_drawProgram h).1⟩)
    -- a program fails where its drawing fails, and else it has an ending
    exact ⟨hprogram.1, hprogram.2, fun h => ⟨_, Graph.stopsAtFirstHole_drawProgram h g⟩⟩
  · cases root with
    | block statements => exact absurd rfl (h statements)
    | _ => exact ⟨rfl, rfl⟩

/-- The hole is in the other block of a branch in a loop.  Four nodes are declared by then; the
    way back to the condition of the loop is drawn only if the hole is filled, after what
    fills it. -/
theorem exists_stop_in_branch_of_loop :
    (Statement.block [.whileDo "more" [.ifThenElse "odd" [.exit] [.step "one", .hole]],
        .hole]).holeFree = false ∧
      ∃ before entering,
        (drawProgram {} (.block [.whileDo "more" [.ifThenElse "odd" [.exit]
            [.step "one", .hole]], .hole])).result = .error .hole ∧
        (drawProgram {} (.block [.whileDo "more" [.ifThenElse "odd" [.exit]
            [.step "one", .hole]], .hole])).graph.records = before ∧
        (declarationsIn before).map Node.id = ["n0", "n1", "n2", "n3"] ∧
        before ++ (Statement.step "two").drawn {} "n" 4 entering <+:
          (drawProgram {} (.block [.whileDo "more" [.ifThenElse "odd" [.exit]
            [.step "one", .step "two"]], .exit])).graph.records := by
  obtain ⟨-, -, hprogram, -⟩ := draw_stops_at_first_hole {} {}
  obtain ⟨hresult, -, hstops⟩ :=
    hprogram [.whileDo "more" [.ifThenElse "odd" [.exit] [.step "one", .hole]], .hole]
  obtain ⟨before, entering, hstops⟩ := hstops rfl
  refine ⟨rfl, before, entering, hresult.2 rfl, hstops.records_eq, ?_, ?_⟩
  · rw [hstops.declared]
    decide +kernel
  · have hresumed := hstops.resumed fun i => if i = 0 then .step "two" else .exit
    rwa [hstops.nextNumber_eq, hstops.records_eq] at hresumed

end Flowchart
