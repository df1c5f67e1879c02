import Flowchart.Proofs.DotLines
import Flowchart.Proofs.Stopped

/-!
# An Outline Tells Its Tree

Texts stand in an outline as they are, and what belongs to what is said by nothing but the
columns that lines are set in by.  It is still enough.  A line shows how far it is set in,
because what it says begins with no space; and whatever belongs to a statement is set in
further than its first line, so the statement ends where a line is not.  The same lines
therefore come from the same tree, whatever stands behind them (`Outlined.append_inj`).

A text with a line feed in it would look like two lines.  No text that was read from a flow
has one (`WellFormedList.lineFeedFree`).

Main statement: `outline_tells_tree`.
-/

namespace Flowchart

open Text

/-! ## §1 Lines -/

/-- What a line says begins with no space, and has no line feed in it. -/
structure OutlineLine.IsClear (l : OutlineLine) : Prop where
  begins : StopsAt (· == ' ') l.content.toList
  unbroken : '\n' ∉ l.content.toList

namespace OutlineLine

/-- The line as text, without its end. -/
def shown (l : OutlineLine) : String :=
  String.ofList (List.replicate l.indent ' ') ++ l.content

theorem render_eq (l : OutlineLine) : l.render = l.shown ++ "\n" := rfl

/-- A line shows how far it is set in, and what it says. -/
theorem eq_of_shown_eq {l m : OutlineLine} (hl : l.IsClear) (hm : m.IsClear)
    (h : l.shown = m.shown) : l = m := by
  have hlists := congrArg String.toList h
  simp only [shown, String.toList_append, String.toList_ofList] at hlists
  have hspaces : ∀ {n : Nat}, ∀ c ∈ List.replicate n ' ', (c == ' ') = true := by
    intro n c hc
    rw [List.eq_of_mem_replicate hc]
    rfl
  -- the spaces end where the content begins, which is with no space
  obtain ⟨hindent, hrest⟩ := append_inj_of_stopsAt hspaces hspaces hl.begins hm.begins hlists
  have hlength := congrArg List.length hindent
  rw [List.length_replicate, List.length_replicate] at hlength
  obtain ⟨indent, content⟩ := l
  obtain ⟨indent', content'⟩ := m
  exact congr (congrArg OutlineLine.mk hlength) (String.toList_inj.1 hrest)

/-- A line is one line. -/
theorem newline_not_mem_shown {l : OutlineLine} (h : l.IsClear) : '\n' ∉ l.shown.toList := by
  rw [shown, String.toList_append, String.toList_ofList, List.mem_append, not_or]
  refine ⟨?_, h.unbroken⟩
  intro hfeed
  exact absurd (List.eq_of_mem_replicate hfeed) (by decide)

/-- **Lines are read back from their text.** -/
theorem lines_eq_of_render_eq {lines others : List OutlineLine} (hlines : ∀ l ∈ lines, l.IsClear)
    (hothers : ∀ l ∈ others, l.IsClear)
    (h : String.join (lines.map render) = String.join (others.map render)) : lines = others := by
  have hshown : ∀ {lines : List OutlineLine}, (∀ l ∈ lines, l.IsClear) →
      ∀ text ∈ lines.map shown, '\n' ∉ text.toList := by
    intro lines hlines text htext
    obtain ⟨l, hl, rfl⟩ := List.mem_map.1 htext
    exact newline_not_mem_shown (hlines l hl)
  have hjoin : ∀ lines : List OutlineLine,
      lines.map render = (lines.map shown).map (· ++ "\n") := by
    intro lines
    rw [List.map_map]
    exact List.map_congr_left fun l _ => render_eq l
  rw [hjoin, hjoin] at h
  have hsame := map_eq_map_of_map_eq (g := id)
    (fun l hl m hm => eq_of_shown_eq (hlines l hl) (hothers m hm))
    (lines_eq_of_join_eq (hshown hlines) (hshown hothers) h)
  rwa [List.map_id, List.map_id] at hsame

end OutlineLine

/-! ## §2 The lines of a statement -/

namespace Statement

/-- `s.Outlined indent lines`: the lines of a statement that is set in by `indent` columns.
    A list of statements is spoken of as the block of its members. -/
inductive Outlined : Nat → Statement → List OutlineLine → Prop where
  | step {indent : Nat} {text : String} :
      Outlined indent (.step text)
        [⟨indent, "step:"⟩, ⟨indent + 2, namedText "expression" text⟩]
  | exit {indent : Nat} : Outlined indent .exit [⟨indent, "step:"⟩, ⟨indent + 2, "EXIT"⟩]
  | ifThen {indent : Nat} {condition : String} {thenBranch : List Statement}
      {inner : List OutlineLine} (h : Outlined (indent + 2) (.block thenBranch) inner) :
      Outlined indent (.ifThen condition thenBranch)
        (⟨indent, "if_branch:"⟩ :: ⟨indent + 2, namedText "condition" condition⟩ :: inner)
  | ifThenElse {indent : Nat} {condition : String} {thenBranch elseBranch : List Statement}
      {inner other : List OutlineLine} (h : Outlined (indent + 2) (.block thenBranch) inner)
      (hother : Outlined (indent + 4) (.block elseBranch) other) :
      Outlined indent (.ifThenElse condition thenBranch elseBranch)
        (⟨indent, "if_branch:"⟩ :: ⟨indent + 2, namedText "condition" condition⟩ ::
          (inner ++ ⟨indent + 2, "else_branch:"⟩ :: other))
  | whileDo {indent : Nat} {condition : String} {body : List Statement}
      {inner : List OutlineLine} (h : Outlined (indent + 2) (.block body) inner) :
      Outlined indent (.whileDo condition body)
        (⟨indent, "while_loop:"⟩ :: ⟨indent + 2, namedText "condition" condition⟩ :: inner)
  | nil {indent : Nat} : Outlined indent (.block []) [⟨indent, "process:"⟩]
  | cons {indent : Nat} {s : Statement} {rest : List Statement}
      {first others : List OutlineLine} (h : Outlined (indent + 2) s first)
      (hrest : Outlined indent (.block rest) (⟨indent, "process:"⟩ :: others)) :
      Outlined indent (.block (s :: rest)) (⟨indent, "process:"⟩ :: (first ++ others))

/-- A block that has lines has them under its title. -/
theorem outlineLines_block_eq_ok {statements : List Statement} {indent : Nat}
    {lines : List OutlineLine} (h : outlineLinesList (indent + 2) statements = .ok lines) :
    (block statements).outlineLines indent = .ok (⟨indent, "process:"⟩ :: lines) := by
  rw [outlineLines, h]
  rfl

/-- **The lines of a tree without holes** are put together from those of its parts. -/
theorem exists_outlined {s : Statement} (h : s.holeFree = true) (indent : Nat) :
    ∃ lines, s.outlineLines indent = .ok lines ∧ s.Outlined indent lines := by
  induction s generalizing indent with
  | step text => exact ⟨_, rfl, .step⟩
  | exit => exact ⟨_, rfl, .exit⟩
  | ifThen condition thenBranch ih =>
    obtain ⟨lines, hlines, hinner⟩ := ih h (indent + 2)
    obtain ⟨inner, hlist⟩ := exists_outlineLinesList ⟨lines, hlines⟩
    -- the branch alone is a block, whose members the branch has under its own lines
    obtain rfl := Except.ok.inj (hlines.symm.trans (outlineLines_block_eq_ok hlist))
    refine ⟨_, ?_, .ifThen hinner⟩
    rw [outlineLines, hlist]
    rfl
  | ifThenElse condition thenBranch elseBranch ihThen ihElse =>
    obtain ⟨hthen, helse⟩ := Bool.and_eq_true_iff.1 h
    obtain ⟨lines, hlines, hinner⟩ := ihThen hthen (indent + 2)
    obtain ⟨inner, hlist⟩ := exists_outlineLinesList ⟨lines, hlines⟩
    obtain rfl := Except.ok.inj (hlines.symm.trans (outlineLines_block_eq_ok hlist))
    obtain ⟨lines', hlines', hother⟩ := ihElse helse (indent + 4)
    obtain ⟨other, hlist'⟩ := exists_outlineLinesList ⟨lines', hlines'⟩
    obtain rfl := Except.ok.inj (hlines'.symm.trans (outlineLines_block_eq_ok hlist'))
    refine ⟨_, ?_, .ifThenElse hinner hother⟩
    rw [outlineLines, hlist, hlist']
    rfl
  | whileDo condition body ih =>
    obtain ⟨lines, hlines, hinner⟩ := ih h (indent + 2)
    obtain ⟨inner, hlist⟩ := exists_outlineLinesList ⟨lines, hlines⟩
    obtain rfl := Except.ok.inj (hlines.symm.trans (outlineLines_block_eq_ok hlist))
    refine ⟨_, ?_, .whileDo hinner⟩
    rw [outlineLines, hlist]
    rfl
  | hole => cases h
  | nil => exact ⟨_, rfl, .nil⟩
  | cons s rest ih ihRest =>
    obtain ⟨hs, hrest⟩ := Bool.and_eq_true_iff.1 h
    obtain ⟨first, hfirst, houtlined⟩ := ih hs (indent + 2)
    obtain ⟨lines, hlines, hothers⟩ := ihRest hrest indent
    obtain ⟨others, hlist⟩ := exists_outlineLinesList ⟨lines, hlines⟩
    obtain rfl := Except.ok.inj (hlines.symm.trans (outlineLines_block_eq_ok hlist))
    refine ⟨_, ?_, .cons houtlined hothers⟩
    rw [outlineLines, outlineLinesList, hfirst, hlist]
    rfl

/-! ## §3 Where a statement ends -/

/-- What comes next is set in by no more than `indent` columns, if anything comes. -/
def SetInUpTo (indent : Nat) (lines : List OutlineLine) : Prop :=
  ∀ l ∈ lines.head?, l.indent ≤ indent

theorem setInUpTo_nil {indent : Nat} : SetInUpTo indent [] := by
  intro l hl
  cases hl

theorem SetInUpTo.mono {indent indent' : Nat} {lines : List OutlineLine}
    (h : SetInUpTo indent lines) (hle : indent ≤ indent') : SetInUpTo indent' lines :=
  fun l hl => (h l hl).trans hle

theorem setInUpTo_cons {indent : Nat} {content : String} {lines : List OutlineLine} :
    SetInUpTo indent (⟨indent, content⟩ :: lines) := by
  intro l hl
  obtain rfl := Option.some.inj hl
  exact Nat.le_refl indent

namespace Outlined

variable {indent : Nat} {s t : Statement} {lines others rest rest' : List OutlineLine}

/-- The first line of a statement is set in as far as the statement is. -/
theorem exists_cons (h : s.Outlined indent lines) :
    ∃ title more, lines = ⟨indent, title⟩ :: more := by
  cases h <;> exact ⟨_, _, rfl⟩

/-- Where the next line is set in no further, no statement that is set in further begins. -/
theorem not_setInUpTo {inner : Nat} (h : s.Outlined inner lines) (hlt : indent < inner)
    (hrest : SetInUpTo indent (lines ++ rest)) : False := by
  obtain ⟨title, more, rfl⟩ := h.exists_cons
  exact absurd (hrest _ rfl) (Nat.not_le.2 hlt)

/-- Behind a member of a block comes the next one, or what comes behind the block. -/
theorem setInUpTo_others {members : List Statement}
    (h : (block members).Outlined indent (⟨indent, "process:"⟩ :: others))
    (hrest : SetInUpTo indent rest) : SetInUpTo (indent + 2) (others ++ rest) := by
  cases h with
  | nil => exact hrest.mono (Nat.le_add_right indent 2)
  | cons hfirst hothers =>
    obtain ⟨title, more, rfl⟩ := hfirst.exists_cons
    exact setInUpTo_cons

/-- The lines of a branch up to the end of its first block. -/
theorem branch_inj {condition condition' : String} {inner inner' : List OutlineLine}
    (h : ⟨indent, "if_branch:"⟩ :: ⟨indent + 2, namedText "condition" condition⟩ :: inner ++ rest =
      ⟨indent, "if_branch:"⟩ :: ⟨indent + 2, namedText "condition" condition'⟩ :: inner' ++ rest') :
    condition = condition' ∧ inner ++ rest = inner' ++ rest' := by
  simpa [namedText] using h

/-- **The lines of a statement tell the statement, and where it ends.** -/
theorem append_inj (hs : s.Outlined indent lines) (ht : t.Outlined indent others)
    (hrest : SetInUpTo indent rest) (hrest' : SetInUpTo indent rest')
    (h : lines ++ rest = others ++ rest') : s = t ∧ rest = rest' := by
  induction s generalizing t indent lines others rest rest' with
  | step text =>
    cases hs
    cases ht with
    | step => simpa [namedText] using h
    -- a step is told from an exit by its second line
    | exit => simp [namedText, ← String.toList_inj] at h
    | _ => simp at h
  | exit =>
    cases hs
    cases ht with
    | step => simp [namedText, ← String.toList_inj] at h
    | exit => simpa using h
    | _ => simp at h
  | ifThen condition thenBranch ih =>
    cases hs with | ifThen hinner =>
    have hdeeper := hrest.mono (Nat.le_add_right indent 2)
    cases ht with
    | ifThen hinner' =>
      obtain ⟨rfl, hblock⟩ := branch_inj h
      obtain ⟨hthen, hrests⟩ := ih hinner hinner' hdeeper
        (hrest'.mono (Nat.le_add_right indent 2)) hblock
      exact ⟨congrArg _ (Statement.block.inj hthen), hrests⟩
    | @ifThenElse _ _ thenBranch' elseBranch' inner' other' hinner' hother' =>
      -- what stands behind the first block is not set in far enough for another one
      obtain ⟨-, hblock⟩ := branch_inj h
      rw [List.append_assoc] at hblock
      obtain ⟨-, hrests⟩ := ih hinner hinner' hdeeper setInUpTo_cons hblock
      rw [hrests] at hrest
      exact absurd (hrest _ rfl) (by simp)
    | _ => simp at h
  | ifThenElse condition thenBranch elseBranch ihThen ihElse =>
    cases hs with | ifThenElse hinner hother =>
    cases ht with
    | ifThen hinner' =>
      obtain ⟨-, hblock⟩ := branch_inj h
      rw [List.append_assoc] at hblock
      obtain ⟨-, hrests⟩ := ihThen hinner hinner' setInUpTo_cons
        (hrest'.mono (Nat.le_add_right indent 2)) hblock
      -- the other way round: here the title of the second block stands too far in
      rw [← hrests] at hrest'
      exact absurd (hrest' _ rfl) (by simp)
    | ifThenElse hinner' hother' =>
      obtain ⟨rfl, hblock⟩ := branch_inj h
      rw [List.append_assoc, List.append_assoc] at hblock
      obtain ⟨hthen, hblocks⟩ := ihThen hinner hinner' setInUpTo_cons setInUpTo_cons hblock
      obtain ⟨helse, hrests⟩ := ihElse hother hother' (hrest.mono (Nat.le_add_right indent 4))
        (hrest'.mono (Nat.le_add_right indent 4)) (List.cons.inj hblocks).2
      refine ⟨?_, hrests⟩
      rw [Statement.block.inj hthen, Statement.block.inj helse]
    | _ => simp at h
  | whileDo condition body ih =>
    cases hs with | whileDo hinner =>
    cases ht with
    | whileDo hinner' =>
      obtain ⟨rfl, hblock⟩ : condition = _ ∧ _ := by simpa [namedText] using h
      obtain ⟨hbody, hrests⟩ := ih hinner hinner' (hrest.mono (Nat.le_add_right indent 2))
        (hrest'.mono (Nat.le_add_right indent 2)) hblock
      exact ⟨congrArg _ (Statement.block.inj hbody), hrests⟩
    | _ => simp at h
  | hole => cases hs
  | nil =>
    cases hs
    cases ht with
    | nil => exact ⟨rfl, (List.cons.inj h).2⟩
    | cons hfirst' hothers' =>
      -- a first member would be set in further than what comes behind the block
      simp only [List.cons_append, List.nil_append, List.append_assoc] at h
      obtain rfl := (List.cons.inj h).2
      exact (hfirst'.not_setInUpTo (Nat.lt_add_of_pos_right Nat.two_pos) hrest).elim
    | _ => simp at h
  | cons s members ih ihRest =>
    cases hs with | cons hfirst hothers =>
    cases ht with
    | nil =>
      simp only [List.cons_append, List.nil_append, List.append_assoc] at h
      obtain rfl := (List.cons.inj h).2
      exact (hfirst.not_setInUpTo (Nat.lt_add_of_pos_right Nat.two_pos) hrest').elim
    | cons hfirst' hothers' =>
      simp only [List.cons_append, List.append_assoc] at h
      -- a member ends where the next one begins or the block ends, so it is settled by itself
      obtain ⟨rfl, hmore⟩ := ih hfirst hfirst' (hothers.setInUpTo_others hrest)
        (hothers'.setInUpTo_others hrest') (List.cons.inj h).2
      obtain ⟨hblock, hrests⟩ := ihRest hothers hothers' hrest hrest' (congrArg _ hmore)
      exact ⟨congrArg _ (congrArg _ (Statement.block.inj hblock)), hrests⟩
    | _ => simp at h

end Outlined

/-! ## §4 Texts without line feeds -/

/-- The text that a statement shows, if it has one. -/
def text? : Statement → Option String
  | .step text => some text
  | .ifThen condition _ | .ifThenElse condition _ _ | .whileDo condition _ => some condition
  | .exit | .block _ | .hole => none

/-- No text of a tree has a line feed in it. -/
def LineFeedFree (s : Statement) : Prop :=
  ∀ part ∈ s.preorder, ∀ text ∈ part.text?, '\n' ∉ text.toList

/-- The lines that show no text. -/
def titles : List String :=
  ["all:", "process:", "step:", "EXIT", "if_branch:", "else_branch:", "while_loop:"]

theorem isClear_title {indent : Nat} (title : String) (h : title ∈ titles) :
    (OutlineLine.mk indent title).IsClear := by
  simp only [titles, List.mem_cons, List.not_mem_nil, or_false] at h
  rcases h with rfl | rfl | rfl | rfl | rfl | rfl | rfl <;> constructor <;> simp [StopsAt]

theorem isClear_namedText {indent : Nat} {name text : String}
    (hname : name = "expression" ∨ name = "condition") (htext : '\n' ∉ text.toList) :
    (OutlineLine.mk indent (namedText name text)).IsClear := by
  rcases hname with rfl | rfl <;> constructor <;> simp [namedText, StopsAt, htext]

/-- The lines of a tree are clear if its texts have no line feeds. -/
theorem Outlined.isClear {indent : Nat} {s : Statement} {lines : List OutlineLine}
    (h : s.Outlined indent lines) (hfree : s.LineFeedFree) : ∀ l ∈ lines, l.IsClear := by
  induction h with
  | @step indent text =>
    have htext : '\n' ∉ text.toList := hfree _ List.mem_cons_self text rfl
    exact List.forall_mem_cons.2 ⟨isClear_title _ (by decide), List.forall_mem_singleton.2
      (isClear_namedText (.inl rfl) htext)⟩
  | exit =>
    exact List.forall_mem_cons.2
      ⟨isClear_title _ (by decide), List.forall_mem_singleton.2 (isClear_title _ (by decide))⟩
  | @ifThen indent condition thenBranch inner h ih =>
    obtain ⟨htext, hthen⟩ := List.forall_mem_cons.1 hfree
    exact List.forall_mem_cons.2 ⟨isClear_title _ (by decide),
      List.forall_mem_cons.2 ⟨isClear_namedText (.inr rfl) (htext condition rfl), ih hthen⟩⟩
  | @ifThenElse indent condition thenBranch elseBranch inner other h hother ih ihOther =>
    obtain ⟨htext, hparts⟩ := List.forall_mem_cons.1 hfree
    obtain ⟨hthen, helse⟩ := List.forall_mem_append.1 hparts
    refine List.forall_mem_cons.2 ⟨isClear_title _ (by decide),
      List.forall_mem_cons.2 ⟨isClear_namedText (.inr rfl) (htext condition rfl), ?_⟩⟩
    exact List.forall_mem_append.2
      ⟨ih hthen, List.forall_mem_cons.2 ⟨isClear_title _ (by decide), ihOther helse⟩⟩
  | @whileDo indent condition body inner h ih =>
    obtain ⟨htext, hbody⟩ := List.forall_mem_cons.1 hfree
    exact List.forall_mem_cons.2 ⟨isClear_title _ (by decide),
      List.forall_mem_cons.2 ⟨isClear_namedText (.inr rfl) (htext condition rfl), ih hbody⟩⟩
  | nil => exact List.forall_mem_singleton.2 (isClear_title _ (by decide))
  | cons h hrest ih ihRest =>
    obtain ⟨hs, hothers⟩ := List.forall_mem_append.1 hfree
    refine List.forall_mem_cons.2 ⟨isClear_title _ (by decide), ?_⟩
    exact List.forall_mem_append.2 ⟨ih hs, (List.forall_mem_cons.1 (ihRest hothers)).2⟩

end Statement

/-- A collapsed text has no blanks but spaces. -/
theorem eq_space_of_mem_collapse {cs : List Char} {c : Char} (h : c ∈ collapse cs)
    (hc : isBlank c = true) : c = ' ' := by
  rcases mem_intercalate_space h with rfl | ⟨w, hw, hmem⟩
  · rfl
  · rw [(isWord_of_mem_words hw).not_blank c hmem] at hc
    cases hc

theorem IsWritable.newline_not_mem {text : String} (h : IsWritable text) :
    '\n' ∉ text.toList := by
  intro hmem
  rw [← h.collapsed] at hmem
  exact absurd (eq_space_of_mem_collapse hmem (by decide)) (by decide)

mutual

theorem Statement.WellFormed.lineFeedFree {afterBranch : Bool} {s : Statement}
    (h : s.WellFormed afterBranch) : s.LineFeedFree := by
  have htext : ∀ {text}, IsWritable text → ∀ t ∈ some text, '\n' ∉ t.toList := by
    intro text htext t ht
    obtain rfl := Option.some.inj ht
    exact htext.newline_not_mem
  cases h with
  | step h => exact List.forall_mem_singleton.2 (htext h.writable)
  | exit =>
    have hnone : ∀ t ∈ Statement.exit.text?, '\n' ∉ t.toList := by
      intro t ht
      cases ht
    exact List.forall_mem_singleton.2 hnone
  | ifThen hcondition h =>
    exact List.forall_mem_cons.2 ⟨htext hcondition, Statement.WellFormedList.lineFeedFree h⟩
  | ifThenElse hcondition h hother =>
    exact List.forall_mem_cons.2 ⟨htext hcondition, List.forall_mem_append.2
      ⟨Statement.WellFormedList.lineFeedFree h, Statement.WellFormedList.lineFeedFree hother⟩⟩
  | whileDo hcondition h =>
    exact List.forall_mem_cons.2 ⟨htext hcondition, Statement.WellFormedList.lineFeedFree h⟩

/-- **No text of a flow has a line feed in it**, though its source may. -/
theorem Statement.WellFormedList.lineFeedFree {afterBranch : Bool} {statements : List Statement}
    (h : Statement.WellFormedList afterBranch statements) :
    (Statement.block statements).LineFeedFree := by
  cases h with
  | nil =>
    intro part hpart
    cases hpart
  | cons h hrest =>
    exact List.forall_mem_append.2
      ⟨Statement.WellFormed.lineFeedFree h, Statement.WellFormedList.lineFeedFree hrest⟩

end

/-! ## §5 Whole trees -/

theorem Statement.eq_of_renderOutline_eq {s t : Statement} (hs : s.holeFree = true)
    (ht : t.holeFree = true) (hsText : s.LineFeedFree) (htText : t.LineFeedFree)
    (h : s.renderOutline = t.renderOutline) : s = t := by
  obtain ⟨lines, hlines, houtlined⟩ := Statement.exists_outlined hs 2
  obtain ⟨others, hothers, houtlined'⟩ := Statement.exists_outlined ht 2
  have hall : (OutlineLine.mk 0 "all:").IsClear := Statement.isClear_title _ (by decide)
  rw [renderOutline, renderOutline, outline, outline, hlines, hothers] at h
  have hsame := OutlineLine.lines_eq_of_render_eq
    (List.forall_mem_cons.2 ⟨hall, houtlined.isClear hsText⟩)
    (List.forall_mem_cons.2 ⟨hall, houtlined'.isClear htText⟩) (Except.ok.inj h)
  -- behind the lines of the whole tree nothing comes
  refine (houtlined.append_inj houtlined' Statement.setInUpTo_nil Statement.setInUpTo_nil ?_).1
  rw [(List.cons.inj hsame).2]

/-- **An outline tells its tree.**  Two trees without holes, of whatever shape, are the same if
    they have the same outline and no text in them has a line feed.  So are two flows that were
    read, without any condition on their sources. -/
theorem outline_tells_tree :
    (∀ s t : Statement, s.holeFree = true → t.holeFree = true → s.LineFeedFree →
      t.LineFeedFree → s.renderOutline = t.renderOutline → s = t) ∧
    (∀ source source' program program', parse source = .ok program →
      parse source' = .ok program' →
      (Statement.block program).renderOutline = (Statement.block program').renderOutline →
      program = program') := by
  constructor
  · intro s t hs ht hsText htText h
    exact Statement.eq_of_renderOutline_eq hs ht hsText htText h
  · intro source source' program program' hparse hparse' h
    have hwell := Parser.wellFormed_of_parseChars (parse_eq_ok_iff.1 hparse)
    have hwell' := Parser.wellFormed_of_parseChars (parse_eq_ok_iff.1 hparse')
    exact Statement.block.inj (Statement.eq_of_renderOutline_eq hwell.holeFree hwell'.holeFree
      hwell.lineFeedFree hwell'.lineFeedFree h)

/-- Trees of blocks whose texts look like the lines of an outline, and a flow that is spaced in
    two ways. -/
theorem outline_tells_quoted_branch :
    (Statement.block [.block [], .ifThenElse "process: \"EXIT\"" [.exit] []]).renderOutline =
        ((Statement.block [.block [], .hole]).fill
          (fun _ => .ifThenElse "process: \"EXIT\"" [.exit] []) 0).renderOutline ∧
      Statement.block [.block [], .ifThenElse "process: \"EXIT\"" [.exit] []] =
        (Statement.block [.block [], .hole]).fill
          (fun _ => .ifThenElse "process: \"EXIT\"" [.exit] []) 0 ∧
    ∃ program program', parse "if a \x7bexit;\x7d else \x7b\x7d" = .ok program ∧
      parse "if  a\n\x7b exit ;\x7d else\t\x7b \x7d" = .ok program' ∧
      (Statement.block program).renderOutline = (Statement.block program').renderOutline ∧
      program = program' := by
  have hfree : Statement.LineFeedFree
      (.block [.block [], .ifThenElse "process: \"EXIT\"" [.exit] []]) := by
    simp [Statement.LineFeedFree, Statement.preorder, Statement.preorderList, Statement.text?]
  have hparse : parse "if a \x7bexit;\x7d else \x7b\x7d" =
      .ok [.ifThenElse "a" [.exit] []] := by decide +kernel
  have hparse' : parse "if  a\n\x7b exit ;\x7d else\t\x7b \x7d" =
      .ok [.ifThenElse "a" [.exit] []] := by decide +kernel
  exact ⟨rfl, outline_tells_tree.1 _ _ rfl rfl hfree hfree rfl,
    _, _, hparse, hparse', rfl, outline_tells_tree.2 _ _ _ _ hparse hparse' rfl⟩

end Flowchart
