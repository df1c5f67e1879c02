import Mathlib.Data.List.Nodup
import Flowchart.Chart.Session
import Flowchart.Proofs.Drawn

/-!
# Sessions Only Add

Whatever is done to a chart, its records stay in their places and new ones come after
them.  The names that are given in a session, by themselves or to nodes that are drawn,
are those of the numbers in order, and none is left out.  That a drawing may stop at a
hole makes no difference: it has used up the numbers of the nodes that it had drawn.

So a session grows a chart by a run of names (`Graph.Grows`).  This is shown of drawings
by induction on the tree, of one action, and then of all actions in a row.

Main statement: `performAll_gives_names_in_order`.
-/

namespace Flowchart

/-! ## §1 Runs of names -/

/-- The names of so many numbers in a row. -/
def numberedIds (stem : String) (number count : Nat) : List String :=
  (List.range' number count).map (numberedId stem)

/-- The names of two runs of numbers in a row are those of one run. -/
theorem numberedIds_append (stem : String) (number count more : Nat) :
    numberedIds stem number count ++ numberedIds stem (number + count) more =
      numberedIds stem number (count + more) := by
  rw [numberedIds, numberedIds, ← List.map_append]
  simp [numberedIds]

theorem nodup_numberedIds (stem : String) (number count : Nat) :
    (numberedIds stem number count).Nodup :=
  (List.nodup_range' 1).map (numberedId_injective stem)

/-! ## §2 Names in a drawing -/

/-- The names of the nodes that a drawing makes. -/
def Drawing.names (d : Drawing) : List String :=
  (declarationsIn d.records).map Node.id

/-- A drawing names its nodes by the numbers from `number` on, and uses up no others. -/
structure Drawing.CountsFrom (d : Drawing) (stem : String) (number : Nat) : Prop where
  nextNumber_eq : d.nextNumber = number + d.names.length
  names_eq : d.names = numberedIds stem number d.names.length

namespace Drawing

variable {d : Drawing} {stem : String} {number : Nat}

/-- A drawing that makes no node uses up no number. -/
theorem countsFrom_of_no_names (hnames : d.names = []) (hnumber : d.nextNumber = number) :
    d.CountsFrom stem number where
  nextNumber_eq := by simp [hnames, hnumber]
  names_eq := by simp [hnames, numberedIds]

/-- To enter a node uses up its number. -/
theorem countsFrom_enter (text : String) (shape : Shape) (incoming outgoing : List LooseEnd)
    (notes : List Note) :
    (finished (enter (labelledNode stem number text shape) incoming) notes (number + 1)
      outgoing).CountsFrom stem number where
  nextNumber_eq := by simp [names, finished]
  names_eq := by simp [names, finished, labelledNode, numberedIds]

/-- What is drawn next goes on with the numbers. -/
theorem CountsFrom.andThen {next : Nat → List LooseEnd → Drawing} (h : d.CountsFrom stem number)
    (hnext : ∀ ends, (next d.nextNumber ends).CountsFrom stem d.nextNumber) :
    (d.andThen next).CountsFrom stem number := by
  cases houtgoing : d.outgoing with
  | error e =>
    -- a drawing that stopped stays as it is
    have hstopped : d.andThen next = d := by simp only [Drawing.andThen, houtgoing]
    rw [hstopped]
    exact h
  | ok ends =>
    have hrest := hnext ends
    have hnames : (d.andThen next).names = d.names ++ (next d.nextNumber ends).names := by
      simp [andThen_of_outgoing houtgoing, names]
    constructor
    · rw [hnames, List.length_append, andThen_of_outgoing houtgoing, hrest.nextNumber_eq,
        h.nextNumber_eq, Nat.add_assoc]
    · rw [hnames, List.length_append, ← numberedIds_append, ← h.names_eq, ← h.nextNumber_eq,
        ← hrest.names_eq]

end Drawing

/-- **A drawing uses up the numbers in order**, also one that stops at a hole. -/
theorem Statement.draw_countsFrom (settings : Settings) (stem : String) (s : Statement)
    (number : Nat) (incoming : List LooseEnd) :
    (s.draw settings stem number incoming).CountsFrom stem number := by
  induction s generalizing number incoming with
  | step text => exact Drawing.countsFrom_enter text .rectangle incoming _ _
  | exit => exact Drawing.countsFrom_enter settings.exitLabel .rectangle incoming _ _
  | ifThen condition thenBranch ih =>
    rw [draw_ifThen]
    apply (Drawing.countsFrom_enter condition .diamond incoming _ _).andThen
    intro taken
    apply (ih _ taken).andThen
    intro exits
    exact Drawing.countsFrom_of_no_names rfl rfl
  | ifThenElse condition thenBranch elseBranch ihThen ihElse =>
    rw [draw_ifThenElse]
    apply (Drawing.countsFrom_enter condition .diamond incoming _ _).andThen
    intro taken
    apply (ihThen _ taken).andThen
    intro exits
    apply (ihElse _ _).andThen
    intro otherExits
    exact Drawing.countsFrom_of_no_names rfl rfl
  | whileDo condition body ih =>
    rw [draw_whileDo]
    apply (Drawing.countsFrom_enter condition .diamond incoming _ _).andThen
    intro taken
    apply (ih _ taken).andThen
    intro back
    -- leading the ways of the body back makes no node
    exact Drawing.countsFrom_of_no_names (by simp [Drawing.names, Drawing.finished]) rfl
  | hole => exact Drawing.countsFrom_of_no_names rfl rfl
  | nil => exact Drawing.countsFrom_of_no_names rfl rfl
  | cons s rest ihFirst ihRest =>
    rw [draw_cons]
    -- the others go on where the first statement ended, if it did
    apply (ihFirst number incoming).andThen
    intro ends
    exact ihRest _ ends

/-! ## §3 Names in a session -/

namespace Graph

/-- The names that an action gives, in the order in which it gives them: the one that it
    takes, or those of the nodes that it makes.  The terminals of a program are declared
    under names that they have. -/
def namesGiven (settings : Settings) (g : Graph) : Action → List String
  | .takeId => [g.nextId.1]
  | .create attributes => [(g.createNode attributes).1.id]
  | .draw incoming s own => (s.draw (own.getD settings) g.stem g.nextNumber incoming).names
  | .drawProgram (.block statements) own =>
    ((Statement.block statements).draw (own.getD settings) g.stem g.nextNumber []).names
  | .drawProgram .. | .make .. | .layer .. | .restyle .. | .connect .. => []

/-- The names that are given in a session. -/
def allNamesGiven (settings : Settings) (g : Graph) : List Action → List String
  | [] => []
  | action :: rest =>
    g.namesGiven settings action ++ (g.perform settings action).2.allNamesGiven settings rest

/-- `g.Grows names g'`: `g'` has the records of `g` and perhaps more after them, and
    between the two the names have been given, by the numbers in order. -/
structure Grows (g : Graph) (names : List String) (g' : Graph) : Prop where
  stem_eq : g'.stem = g.stem
  records_kept : g.records <+: g'.records
  nextNumber_eq : g'.nextNumber = g.nextNumber + names.length
  names_eq : names = numberedIds g.stem g.nextNumber names.length

variable {settings : Settings} {g g' g'' : Graph} {names more : List String}

theorem Grows.refl (g : Graph) : g.Grows [] g :=
  ⟨rfl, List.prefix_rfl, rfl, rfl⟩

/-- More records without a new node give no name. -/
theorem Grows.append (h : g.Grows names g') (records : List Record) :
    g.Grows names (g'.append records) :=
  ⟨h.stem_eq, h.records_kept.trans (List.prefix_append _ _), h.nextNumber_eq, h.names_eq⟩

theorem Grows.trans (h : g.Grows names g') (h' : g'.Grows more g'') :
    g.Grows (names ++ more) g'' where
  stem_eq := h'.stem_eq.trans h.stem_eq
  records_kept := h.records_kept.trans h'.records_kept
  nextNumber_eq := by
    rw [h'.nextNumber_eq, h.nextNumber_eq, List.length_append, Nat.add_assoc]
  names_eq := by
    rw [List.length_append, ← numberedIds_append, ← h.names_eq, ← h.nextNumber_eq, ← h.stem_eq,
      ← h'.names_eq]

theorem grows_nextId (g : Graph) : g.Grows [g.nextId.1] g.nextId.2 :=
  ⟨rfl, List.prefix_rfl, rfl, rfl⟩

/-- To draw a statement gives the names of its nodes. -/
theorem grows_draw (settings : Settings) (g : Graph) (incoming : List LooseEnd) (s : Statement) :
    g.Grows (s.draw settings g.stem g.nextNumber incoming).names
      (g.draw settings incoming s).graph where
  stem_eq := rfl
  records_kept := List.prefix_append _ _
  nextNumber_eq := (s.draw_countsFrom settings g.stem g.nextNumber incoming).nextNumber_eq
  names_eq := (s.draw_countsFrom settings g.stem g.nextNumber incoming).names_eq

/-- To draw a program gives the names of its nodes, and no others to the terminals. -/
theorem grows_drawProgram (settings : Settings) (own : Option Settings) (g : Graph)
    (root : Statement) :
    g.Grows (g.namesGiven settings (.drawProgram root own))
      (g.drawProgram (own.getD settings) root).graph := by
  cases root with
  | block statements =>
    have hdrawn := grows_draw (own.getD settings) g [] (.block statements)
    simp only [drawProgram]
    -- a program that was drawn to its end has its terminals declared again
    split
    · exact hdrawn
    · exact hdrawn.append _
  -- only blocks are drawn as programs
  | _ => exact .refl g

/-- **One action keeps what there is and gives the next names.** -/
theorem grows_perform (settings : Settings) (g : Graph) (action : Action) :
    g.Grows (g.namesGiven settings action) (g.perform settings action).2 := by
  cases action with
  | takeId => exact grows_nextId g
  | create attributes => exact (grows_nextId g).append _
  | make id attributes => exact .refl g
  | layer node attributes => exact .refl g
  | restyle node attributes => exact (Grows.refl g).append _
  | connect way target => exact (Grows.refl g).append _
  | draw incoming s own =>
    have hdrawn := grows_draw (own.getD settings) g incoming s
    simp only [perform]
    -- the answer tells whether the drawing stopped; the chart does not
    split <;> exact hdrawn
  | drawProgram root own =>
    have hdrawn := grows_drawProgram settings own g root
    simp only [perform]
    split <;> exact hdrawn

theorem grows_performAll (settings : Settings) (g : Graph) (actions : List Action) :
    g.Grows (g.allNamesGiven settings actions) (g.performAll settings actions).2 := by
  -- by induction on the actions, for whatever chart the earlier ones left
  induction actions generalizing g with
  | nil => exact .refl g
  | cons action rest ih => exact (grows_perform settings g action).trans (ih _)

theorem performAll_append (settings : Settings) (g : Graph) (actions more : List Action) :
    (g.performAll settings (actions ++ more)).2 =
      ((g.performAll settings actions).2.performAll settings more).2 := by
  induction actions generalizing g with
  | nil => rfl
  | cons action rest ih => exact ih _

end Graph

/-! ## §4 Whole sessions -/

/-- **A session only adds to a chart, and uses no name twice.**  At every moment of it the
    records are a first part of those at any later moment, and the names given so far are
    those of the numbers in order, from the next number that the chart had at the start. -/
theorem performAll_gives_names_in_order (settings : Settings) (g : Graph)
    (actions more : List Graph.Action) :
    (g.performAll settings actions).2.records <+:
        (g.performAll settings (actions ++ more)).2.records ∧
      g.allNamesGiven settings actions =
        (List.range' g.nextNumber (g.allNamesGiven settings actions).length).map
          (fun number => g.stem ++ toString number) ∧
      (g.performAll settings actions).2.nextNumber =
        g.nextNumber + (g.allNamesGiven settings actions).length ∧
      (g.allNamesGiven settings actions).Nodup := by
  have hgrows := g.grows_performAll settings actions
  refine ⟨?_, hgrows.names_eq, hgrows.nextNumber_eq, ?_⟩
  · rw [Graph.performAll_append]
    exact (Graph.grows_performAll settings _ more).records_kept
  · rw [hgrows.names_eq]
    exact nodup_numberedIds _ _ _

/-- A drawing that stops keeps its numbers: the next node gets the number after them. -/
example : ({ stem := "a1" } : Graph).allNamesGiven {}
    [.draw [] (.block [.step "x", .hole]), .takeId, .create []] = ["a10", "a11", "a12"] := by
  decide

end Flowchart
