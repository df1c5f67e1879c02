import Mathlib.Tactic.ByContra
import Std.Data.String.ToInt
import Flowchart.Dot.Writer

/-!
# What Written Entries Say

Names and texts may hold anything: quotation marks, backslashes, arrows, even what looks
like a line of its own.  What is written for them is read in one way only, whatever comes
after it.

* Text between quotation marks ends at the first mark that no backslash escapes
  (`Dot.upToMark_escapeChars`), a bare name where something comes that is no part of an
  identifier, and the value of an attribute at the comma or bracket after it.
* So each piece is settled by the text that begins with it, and so is the rest of the text
  (`Dot.quote_append_inj`, `Dot.identifier_append_inj`, `Attribute.toDot_append_inj`,
  `Attribute.intercalate_append_inj`).
* Two entries are written in the same way just if they are the same, but for carriage returns
  right before line feeds, which are not written (`Record.toDot_inj`).

Of a name this needs that it does not end in a line feed, and of a color that its name is an
identifier: names of colors are written as they are.
-/

namespace Flowchart

open Text

/-! ## §1 Carriage returns that are not written -/

/-- A text in which a carriage return with a line feed is read as a line feed. -/
def Text.joinLineEnds (s : String) : String :=
  String.ofList (joinCarriageReturns s.toList)

/-- The attribute with such a text. -/
def Attribute.joined : Attribute → Attribute
  | .label text => .label (joinLineEnds text)
  | .shape kind => .shape kind
  | .color name => .color name
  | .penWidth width => .penWidth width

@[simp] theorem Attribute.kind_joined (a : Attribute) : a.joined.kind = a.kind := by
  cases a <;> rfl

/-- The attributes with such texts. -/
def AttributeSet.joined (s : AttributeSet) : AttributeSet where
  entries := s.entries.map Attribute.joined
  distinct := by simpa [Function.comp_def] using s.distinct

/-- The node with such a name and such texts. -/
def Node.joined (n : Node) : Node :=
  ⟨joinLineEnds n.id, n.attributes.joined⟩

/-- The connection with such names, and such a label if it has one. -/
def Connection.joined (c : Connection) : Connection :=
  ⟨joinLineEnds c.source, joinLineEnds c.target, c.label.map joinLineEnds⟩

/-- The entry with such names and texts. -/
def Record.joined : Record → Record
  | .node n => .node n.joined
  | .edge c => .edge c.joined

/-! ## §2 Where a piece of text ends -/

/-- The text begins with no character of the class. -/
def StopsAt (p : Char → Bool) (rest : List Char) : Prop :=
  ∀ c ∈ rest.head?, p c = false

@[simp] theorem stopsAt_cons {p : Char → Bool} {c : Char} {cs : List Char} :
    StopsAt p (c :: cs) ↔ p c = false := by
  simp [StopsAt]

theorem takeWhile_append_of_stopsAt {p : Char → Bool} {xs rest : List Char}
    (hxs : ∀ c ∈ xs, p c = true) (hrest : StopsAt p rest) :
    (xs ++ rest).takeWhile p = xs := by
  rw [List.takeWhile_append_of_pos hxs]
  cases rest with
  | nil => simp
  | cons c cs => simp [stopsAt_cons.1 hrest]

/-- A piece of one class of characters is settled by the text that begins with it. -/
theorem append_inj_of_stopsAt {p : Char → Bool} {xs ys rest rest' : List Char}
    (hxs : ∀ c ∈ xs, p c = true) (hys : ∀ c ∈ ys, p c = true)
    (hrest : StopsAt p rest) (hrest' : StopsAt p rest') (h : xs ++ rest = ys ++ rest') :
    xs = ys ∧ rest = rest' := by
  obtain rfl : xs = ys := by
    rw [← takeWhile_append_of_stopsAt hxs hrest, h, takeWhile_append_of_stopsAt hys hrest']
  exact ⟨rfl, List.append_cancel_left h⟩

namespace Dot

/-! ## §3 Quoted texts -/

@[simp] theorem toList_quote (s : String) :
    (quote s).toList = '"' :: (escapeChars s.toList ++ ['"']) := by
  simp [quote, escape]

/-- A text up to its first quotation mark that no backslash escapes. -/
def upToMark : List Char → List Char
  | [] => []
  | '\\' :: c :: cs => '\\' :: c :: upToMark cs
  | '"' :: _ => []
  | c :: cs => c :: upToMark cs

/-- **No text breaks out of its quotation marks**: the first bare mark is the closing one. -/
theorem upToMark_escapeChars (cs rest : List Char) :
    upToMark (escapeChars cs ++ '"' :: rest) = escapeChars cs := by
  fun_induction escapeChars cs with
  | case1 => simp [upToMark]
  | case2 cs ih => simp [upToMark, ih]
  | case3 c cs hne ih =>
    by_cases hescaped : c = '\\' ∨ c = '"' ∨ c = '\n'
    · rcases hescaped with rfl | rfl | rfl <;> simp [escapeChar, upToMark, ih]
    · obtain ⟨hbackslash, hmark, hfeed⟩ : c ≠ '\\' ∧ c ≠ '"' ∧ c ≠ '\n' := by simpa using hescaped
      have hplain : escapeChar c = [c] := by simp [escapeChar, hbackslash, hmark, hfeed]
      -- it is neither a backslash nor a mark, so it is only passed
      rw [hplain, List.singleton_append, List.cons_append, upToMark.eq_def]
      split <;> simp_all

/-- A quoted text is settled by the text that begins with it. -/
theorem quote_append_inj {s t : String} {rest rest' : List Char}
    (h : (quote s).toList ++ rest = (quote t).toList ++ rest') :
    joinLineEnds s = joinLineEnds t ∧ rest = rest' := by
  have hescaped : escapeChars s.toList ++ '"' :: rest = escapeChars t.toList ++ '"' :: rest' := by
    simpa using h
  have hsame : escapeChars s.toList = escapeChars t.toList := by
    rw [← upToMark_escapeChars s.toList rest, hescaped, upToMark_escapeChars]
  -- what was escaped is undone, up to the line ends that are not written
  have hread : joinCarriageReturns s.toList = joinCarriageReturns t.toList := by
    apply Option.some.inj
    rw [← unescape_escapeChars, hsame, unescape_escapeChars]
  rw [hsame] at hescaped
  exact ⟨congrArg String.ofList hread, List.tail_eq_of_cons_eq (List.append_cancel_left hescaped)⟩

/-! ## §4 Names -/

/-- A name that does not end in a line feed. -/
def EndsInText (name : String) : Prop :=
  name.toList.getLast? ≠ some '\n'

instance (name : String) : Decidable (EndsInText name) :=
  inferInstanceAs (Decidable (_ ≠ _))

/-- Such a name is judged as a whole when it is asked to stand bare. -/
theorem dropFinalLineFeed_of_endsInText {name : String} (h : EndsInText name) :
    dropFinalLineFeed name.toList = name.toList := by
  rw [dropFinalLineFeed, if_neg]
  simpa [EndsInText] using h

theorem isIdentifier_of_isBare {name : String} (hname : EndsInText name)
    (h : isBare name.toList = true) : isIdentifier name.toList = true := by
  rw [← dropFinalLineFeed_of_endsInText hname]
  exact (Bool.and_eq_true_iff.1 h).1

theorem isIdentifierRest_of_start {c : Char} (h : isIdentifierStart c = true) :
    isIdentifierRest c = true := by
  simp only [isIdentifierStart, isIdentifierRest, Char.isAlphanum, Bool.or_eq_true] at h ⊢
  exact h.imp_left .inl

theorem isIdentifierRest_of_mem {cs : List Char} (h : isIdentifier cs = true) {c : Char}
    (hc : c ∈ cs) : isIdentifierRest c = true := by
  cases cs with
  | nil => cases h
  | cons first cs =>
    obtain ⟨hfirst, hcs⟩ := Bool.and_eq_true_iff.1 h
    -- the first character is of a smaller class than the others
    rcases List.mem_cons.1 hc with rfl | hc
    · exact isIdentifierRest_of_start hfirst
    · exact List.all_eq_true.1 hcs c hc

/-- An identifier is no quoted text. -/
theorem isIdentifier_append_ne_quote {cs : List Char} (h : isIdentifier cs = true) {t : String}
    {rest rest' : List Char} : cs ++ rest ≠ (quote t).toList ++ rest' := by
  cases cs with
  | nil => cases h
  | cons first cs =>
    intro heq
    obtain rfl : first = '"' := by simpa using congrArg List.head? heq
    cases h

/-- **A name is settled by the text that begins with it**, bare or quoted, when something
    comes after it that is no part of an identifier. -/
theorem identifier_append_inj {s t : String} (hs : EndsInText s) (ht : EndsInText t)
    {rest rest' : List Char} (hrest : StopsAt isIdentifierRest rest)
    (hrest' : StopsAt isIdentifierRest rest')
    (h : (identifier s).toList ++ rest = (identifier t).toList ++ rest') :
    joinLineEnds s = joinLineEnds t ∧ rest = rest' := by
  unfold identifier at h
  split at h <;> rename_i hbareS <;> split at h <;> rename_i hbareT
  · have hidS := isIdentifier_of_isBare hs hbareS
    have hidT := isIdentifier_of_isBare ht hbareT
    obtain ⟨heq, hrests⟩ := append_inj_of_stopsAt (fun _ => isIdentifierRest_of_mem hidS)
      (fun _ => isIdentifierRest_of_mem hidT) hrest hrest' h
    exact ⟨congrArg joinLineEnds (String.toList_inj.1 heq), hrests⟩
  · -- one name is bare and the other quoted: they differ in the first character
    exact absurd h (isIdentifier_append_ne_quote (isIdentifier_of_isBare hs hbareS))
  · exact absurd h.symm (isIdentifier_append_ne_quote (isIdentifier_of_isBare ht hbareT))
  · exact quote_append_inj h

end Dot

/-! ## §5 Attributes -/

/-- If the attribute is a color, its name is an identifier. -/
def Attribute.IsPlain : Attribute → Prop
  | .color name => Dot.isIdentifier name.toList = true
  | .label _ | .shape _ | .penWidth _ => True

instance (a : Attribute) : Decidable a.IsPlain :=
  match a with
  | .color _ => inferInstanceAs (Decidable (_ = true))
  | .label _ | .shape _ | .penWidth _ => inferInstanceAs (Decidable True)

/-- The characters of a value that is not quoted: all but those that come after a value. -/
def isValueChar (c : Char) : Bool :=
  c != ',' && c != ']'

theorem isValueChar_of_isIdentifierRest {c : Char} (h : Dot.isIdentifierRest c = true) :
    isValueChar c = true := by
  by_contra hvalue
  obtain rfl | rfl : c = ',' ∨ c = ']' := by
    simpa [isValueChar, or_iff_not_imp_left] using hvalue
  all_goals cases h

/-- A number is written with digits, and maybe a sign. -/
theorem mem_toString_int {w : Int} {c : Char} (hc : c ∈ (toString w).toList) :
    c = '-' ∨ Dot.isIdentifierRest c = true := by
  have hdigits : ∀ n : Nat, c ∈ n.repr.toList → Dot.isIdentifierRest c = true := by
    intro n hn
    rw [Nat.toList_repr] at hn
    have hdigit := Nat.isDigit_of_mem_toDigits (by decide) (by decide) hn
    simp [Dot.isIdentifierRest, Char.isAlphanum, hdigit]
  rw [Int.toString_eq_repr, Int.repr_eq_if] at hc
  split at hc
  · exact .inr (hdigits _ hc)
  · rw [String.toList_append, List.mem_append] at hc
    exact hc.imp (fun hsign => by simpa using hsign) (hdigits _)

/-- A written width goes on to the comma or bracket after it. -/
theorem isValueChar_of_mem_toString {w : Int} {c : Char} (hc : c ∈ (toString w).toList) :
    isValueChar c = true := by
  rcases mem_toString_int hc with rfl | hrest
  · rfl
  · exact isValueChar_of_isIdentifierRest hrest

theorem isValueChar_of_mem_name {k : Shape} {c : Char} (hc : c ∈ k.name.toList) :
    isValueChar c = true := by
  have hall : k.name.toList.all isValueChar = true := by
    cases k <;> simp [Shape.name, isValueChar]
  exact List.all_eq_true.1 hall c hc

namespace Attribute

/-- **An attribute is settled by the text that begins with it**, when a comma or a bracket
    comes after it. -/
theorem toDot_append_inj {a b : Attribute} (ha : a.IsPlain) (hb : b.IsPlain)
    {rest rest' : List Char} (hrest : StopsAt isValueChar rest) (hrest' : StopsAt isValueChar rest')
    (h : a.toDot.toList ++ rest = b.toDot.toList ++ rest') :
    a.joined = b.joined ∧ rest = rest' := by
  cases a <;> cases b <;> simp only [toDot, String.toList_append, List.append_assoc] at h
  case label.label text text' =>
    obtain ⟨htext, hrests⟩ := Dot.quote_append_inj (List.append_cancel_left h)
    exact ⟨congrArg label htext, hrests⟩
  case shape.shape kind kind' =>
    obtain ⟨hname, hrests⟩ := append_inj_of_stopsAt (fun _ => isValueChar_of_mem_name)
      (fun _ => isValueChar_of_mem_name) hrest hrest' (List.append_cancel_left h)
    refine ⟨?_, hrests⟩
    -- no two shapes have one name
    cases kind <;> cases kind' <;> first | rfl | cases hname
  case color.color name name' =>
    obtain ⟨hname, hrests⟩ := append_inj_of_stopsAt
      (fun _ hc => isValueChar_of_isIdentifierRest (Dot.isIdentifierRest_of_mem ha hc))
      (fun _ hc => isValueChar_of_isIdentifierRest (Dot.isIdentifierRest_of_mem hb hc))
      hrest hrest' (List.append_cancel_left h)
    exact ⟨congrArg color (String.toList_inj.1 hname), hrests⟩
  case penWidth.penWidth width width' =>
    obtain ⟨hwidth, hrests⟩ := append_inj_of_stopsAt (fun _ => isValueChar_of_mem_toString)
      (fun _ => isValueChar_of_mem_toString) hrest hrest' (List.append_cancel_left h)
    exact ⟨congrArg penWidth (Int.repr_inj.1 (String.toList_inj.1 hwidth)), hrests⟩
  -- attributes of two kinds begin with different letters
  all_goals simp at h

/-! ### Lists of attributes -/

/-- What comes after the first of some attributes, up to the closing bracket and on. -/
def afterFirst (others : List Attribute) (rest : List Char) : List Char :=
  match others with
  | [] => ']' :: rest
  | _ :: _ => ',' :: ' ' :: ((", ".intercalate (others.map toDot)).toList ++ ']' :: rest)

/-- An attribute goes on no further, whether others come after it or not. -/
theorem stopsAt_afterFirst {others : List Attribute} {rest : List Char} :
    StopsAt isValueChar (afterFirst others rest) := by
  cases others <;> exact stopsAt_cons.2 rfl

/-- The first of some attributes stands before all the others. -/
theorem toList_intercalate_cons (a : Attribute) (others : List Attribute) (rest : List Char) :
    (", ".intercalate ((a :: others).map toDot)).toList ++ ']' :: rest =
      a.toDot.toList ++ afterFirst others rest := by
  cases others <;> simp [afterFirst, String.intercalate_cons_cons]

/-- Some attributes are settled by the text that begins with them and a closing bracket. -/
theorem intercalate_append_inj {xs ys : List Attribute} (hxs : ∀ a ∈ xs, a.IsPlain)
    (hys : ∀ a ∈ ys, a.IsPlain) (hx : xs ≠ []) (hy : ys ≠ []) {rest rest' : List Char}
    (h : (", ".intercalate (xs.map toDot)).toList ++ ']' :: rest =
      (", ".intercalate (ys.map toDot)).toList ++ ']' :: rest') :
    xs.map joined = ys.map joined ∧ rest = rest' := by
  induction xs generalizing ys with
  -- with no attributes at all there are no brackets either
  | nil => exact absurd rfl hx
  | cons a as ih =>
    obtain ⟨b, bs, rfl⟩ := List.exists_cons_of_ne_nil hy
    obtain ⟨ha, has⟩ := List.forall_mem_cons.1 hxs
    obtain ⟨hb, hbs⟩ := List.forall_mem_cons.1 hys
    rw [toList_intercalate_cons, toList_intercalate_cons] at h
    obtain ⟨hfirst, hafter⟩ := toDot_append_inj ha hb stopsAt_afterFirst stopsAt_afterFirst h
    rw [List.map_cons, List.map_cons, hfirst]
    cases as <;> cases bs
    case nil.nil => exact ⟨rfl, List.tail_eq_of_cons_eq hafter⟩
    case cons.cons =>
      obtain ⟨hothers, hrests⟩ := ih has hbs (List.cons_ne_nil _ _) (List.cons_ne_nil _ _)
        (List.tail_eq_of_cons_eq (List.tail_eq_of_cons_eq hafter))
      exact ⟨congrArg _ hothers, hrests⟩
    -- after the last attribute comes the bracket, after any other one a comma
    all_goals simp [afterFirst] at hafter

end Attribute

namespace AttributeSet

theorem joined_eq_iff {s t : AttributeSet} :
    s.joined = t.joined ↔ s.entries.map Attribute.joined = t.entries.map Attribute.joined := by
  rw [joined, joined, AttributeSet.mk.injEq]

/-- What stands for attributes is no part of an identifier. -/
theorem stopsAt_toDot (s : AttributeSet) :
    StopsAt Dot.isIdentifierRest (s.toDot.toList ++ [';']) := by
  unfold toDot
  split <;> simp <;> rfl

/-- Attributes at the end of a line are settled by it. -/
theorem joined_eq_of_toDot_eq {s t : AttributeSet} (hs : ∀ a ∈ s.entries, a.IsPlain)
    (ht : ∀ a ∈ t.entries, a.IsPlain)
    (h : s.toDot.toList ++ [';'] = t.toDot.toList ++ [';']) : s.joined = t.joined := by
  rw [joined_eq_iff]
  unfold toDot at h
  split at h <;> rename_i hsEmpty <;> split at h <;> rename_i htEmpty
  · rw [List.isEmpty_iff.1 hsEmpty, List.isEmpty_iff.1 htEmpty]
  · simp at h
  · simp at h
  · -- with an attribute there are brackets, and without one there are none
    rw [List.isEmpty_iff] at hsEmpty htEmpty
    refine (@Attribute.intercalate_append_inj _ _ hs ht hsEmpty htEmpty [';'] [';'] ?_).1
    simpa using h

end AttributeSet

/-! ## §6 Entries -/

/-- The name does not end in a line feed, and the names of colors are identifiers. -/
def Node.IsPlain (n : Node) : Prop :=
  Dot.EndsInText n.id ∧ ∀ a ∈ n.attributes.entries, a.IsPlain

/-- Neither name ends in a line feed. -/
def Connection.IsPlain (c : Connection) : Prop :=
  Dot.EndsInText c.source ∧ Dot.EndsInText c.target

/-- The names in the entry do not end in line feeds, and those of colors are identifiers. -/
def Record.IsPlain : Record → Prop
  | .node n => n.IsPlain
  | .edge c => c.IsPlain

instance (n : Node) : Decidable n.IsPlain :=
  inferInstanceAs (Decidable (_ ∧ _))

instance (c : Connection) : Decidable c.IsPlain :=
  inferInstanceAs (Decidable (_ ∧ _))

instance (r : Record) : Decidable r.IsPlain :=
  match r with
  | .node n => inferInstanceAs (Decidable n.IsPlain)
  | .edge c => inferInstanceAs (Decidable c.IsPlain)

/-- A node is settled by its line: first its name, then its attributes. -/
theorem Node.joined_eq_of_toDot_eq {n m : Node} (hn : n.IsPlain) (hm : m.IsPlain)
    (h : n.toDot = m.toDot) : n.joined = m.joined := by
  have hlist := congrArg String.toList h
  simp only [toDot, String.toList_append, List.append_assoc] at hlist
  obtain ⟨hid, hattributes⟩ := Dot.identifier_append_inj hn.1 hm.1
    (AttributeSet.stopsAt_toDot _) (AttributeSet.stopsAt_toDot _) hlist
  rw [joined, joined, hid, AttributeSet.joined_eq_of_toDot_eq hn.2 hm.2 hattributes]

namespace Connection

/-- The end of a line for a connection: its label, if it has one, and a semicolon. -/
def labelLine : Option String → List Char
  | none => [';']
  | some text => ' ' :: ("[label=".toList ++ ((Dot.quote text).toList ++ [']', ';']))

/-- A connection is written with an arrow between its names. -/
theorem toList_toDot (c : Connection) :
    c.toDot.toList = (Dot.identifier c.source).toList ++
      ' ' :: '-' :: '>' :: ' ' :: ((Dot.identifier c.target).toList ++ labelLine c.label) := by
  obtain ⟨source, target, _ | text⟩ := c <;> simp [toDot, labelLine]

theorem stopsAt_labelLine (label : Option String) :
    StopsAt Dot.isIdentifierRest (labelLine label) := by
  cases label <;> exact stopsAt_cons.2 rfl

/-- No label is written like an empty one. -/
theorem map_joinLineEnds_of_labelLine_eq {label label' : Option String}
    (h : labelLine label = labelLine label') :
    label.map joinLineEnds = label'.map joinLineEnds := by
  cases label <;> cases label'
  case none.none => rfl
  case some.some text text' =>
    have hquoted := List.append_cancel_left (List.tail_eq_of_cons_eq h)
    exact congrArg some (Dot.quote_append_inj hquoted).1
  all_goals simp [labelLine] at h

/-- A connection is settled by its line: its names one after the other, then its label. -/
theorem joined_eq_of_toDot_eq {c d : Connection} (hc : c.IsPlain) (hd : d.IsPlain)
    (h : c.toDot = d.toDot) : c.joined = d.joined := by
  have hlist := congrArg String.toList h
  rw [toList_toDot, toList_toDot] at hlist
  obtain ⟨hsource, harrow⟩ := Dot.identifier_append_inj hc.1 hd.1
    (stopsAt_cons.2 rfl) (stopsAt_cons.2 rfl) hlist
  obtain ⟨htarget, hlabel⟩ := Dot.identifier_append_inj hc.2 hd.2
    (stopsAt_labelLine _) (stopsAt_labelLine _) (by simpa using harrow)
  rw [joined, joined, hsource, htarget, map_joinLineEnds_of_labelLine_eq hlabel]

/-- No node is written like a connection. -/
theorem toDot_ne_node {n : Node} {c : Connection} (hn : n.IsPlain) (hc : c.IsPlain) :
    n.toDot ≠ c.toDot := by
  intro h
  have hlist := congrArg String.toList h
  rw [toList_toDot] at hlist
  simp only [Node.toDot, String.toList_append, List.append_assoc] at hlist
  obtain ⟨-, hafter⟩ := Dot.identifier_append_inj hn.1 hc.1
    (AttributeSet.stopsAt_toDot _) (stopsAt_cons.2 rfl) hlist
  -- an arrow begins like neither a bracket nor a semicolon
  unfold AttributeSet.toDot at hafter
  split at hafter <;> simp at hafter

end Connection

/-- An entry is settled by its line. -/
theorem Record.joined_eq_of_toDot_eq {r t : Record} (hr : r.IsPlain) (ht : t.IsPlain)
    (h : r.toDot = t.toDot) : r.joined = t.joined := by
  cases r <;> cases t
  case node.node => exact congrArg node (Node.joined_eq_of_toDot_eq hr ht h)
  case edge.edge => exact congrArg edge (Connection.joined_eq_of_toDot_eq hr ht h)
  case node.edge => exact absurd h (Connection.toDot_ne_node hr ht)
  case edge.node => exact absurd h.symm (Connection.toDot_ne_node ht hr)

/-! ## §7 What is not written -/

theorem Text.joinLineEnds_inj {s t : String} :
    joinLineEnds s = joinLineEnds t ↔
      joinCarriageReturns s.toList = joinCarriageReturns t.toList :=
  String.ofList_inj

theorem Text.joinCarriageReturns_cons {c : Char} {cs : List Char}
    (h : ∀ ds, c = '\r' → cs = '\n' :: ds → False) :
    joinCarriageReturns (c :: cs) = c :: joinCarriageReturns cs := by
  rw [joinCarriageReturns]
  exact h

/-- A text keeps its lines. -/
theorem Text.newline_mem_joinCarriageReturns {cs : List Char} :
    '\n' ∈ joinCarriageReturns cs ↔ '\n' ∈ cs := by
  fun_induction joinCarriageReturns cs <;> simp_all

theorem Text.joinCarriageReturns_of_newline_not_mem {cs : List Char} (h : '\n' ∉ cs) :
    joinCarriageReturns cs = cs := by
  fun_induction joinCarriageReturns cs <;> simp_all

namespace Dot

/-- A text is escaped character by character, once its line ends are joined. -/
theorem escapeChars_eq_flatMap (cs : List Char) :
    escapeChars cs = (joinCarriageReturns cs).flatMap escapeChar := by
  fun_induction escapeChars cs with
  | case1 => rfl
  | case2 cs ih => simp [joinCarriageReturns, escapeChar, ih]
  | case3 c cs hne ih => rw [joinCarriageReturns_cons hne, List.flatMap_cons, ih]

/-- Carriage returns right before line feeds are not written. -/
theorem quote_congr {s t : String} (h : joinLineEnds s = joinLineEnds t) :
    quote s = quote t := by
  rw [quote, quote, escape, escape, escapeChars_eq_flatMap, joinLineEnds_inj.1 h,
    ← escapeChars_eq_flatMap]

/-- An identifier stands on one line. -/
theorem newline_not_mem_of_isIdentifier {cs : List Char} (h : isIdentifier cs = true) :
    '\n' ∉ cs := by
  intro hmem
  cases isIdentifierRest_of_mem h hmem

/-- No other name differs from an identifier in its carriage returns only. -/
theorem eq_of_isIdentifier {s t : String} (hs : isIdentifier s.toList = true)
    (h : joinLineEnds s = joinLineEnds t) : s = t := by
  have hfeedS := newline_not_mem_of_isIdentifier hs
  have hjoin := joinLineEnds_inj.1 h
  have hfeedT : '\n' ∉ t.toList := by
    rw [← newline_mem_joinCarriageReturns, ← hjoin, newline_mem_joinCarriageReturns]
    exact hfeedS
  rw [joinCarriageReturns_of_newline_not_mem hfeedS,
    joinCarriageReturns_of_newline_not_mem hfeedT] at hjoin
  exact String.toList_inj.1 hjoin

theorem identifier_congr {s t : String} (hs : EndsInText s) (ht : EndsInText t)
    (h : joinLineEnds s = joinLineEnds t) : identifier s = identifier t := by
  by_cases hbareS : isBare s.toList = true
  · rw [eq_of_isIdentifier (isIdentifier_of_isBare hs hbareS) h]
  -- only names that are quoted may differ in their line ends
  by_cases hbareT : isBare t.toList = true
  · rw [eq_of_isIdentifier (isIdentifier_of_isBare ht hbareT) h.symm]
  · rw [identifier, identifier, if_neg hbareS, if_neg hbareT, quote_congr h]

end Dot

/-- Lists that are the same entry by entry under one function are so under another one that
    tells no more entries apart. -/
theorem map_eq_map_of_map_eq {α β γ : Type} {f : α → β} {g : α → γ} {xs ys : List α}
    (hfg : ∀ x ∈ xs, ∀ y ∈ ys, f x = f y → g x = g y) (h : xs.map f = ys.map f) :
    xs.map g = ys.map g := by
  induction xs generalizing ys with
  | nil =>
    obtain rfl : ys = [] := by simpa using h.symm
    rfl
  | cons x xs ih =>
    obtain ⟨y, ys, rfl, hxy, hothers⟩ := List.map_eq_cons_iff.1 h.symm
    have hrest := ih (fun x hx y hy => hfg x (.tail _ hx) y (.tail _ hy)) hothers.symm
    rw [List.map_cons, List.map_cons, hfg x (.head _) y (.head _) hxy.symm, hrest]

theorem Attribute.toDot_congr {a b : Attribute} (h : a.joined = b.joined) :
    a.toDot = b.toDot := by
  cases a <;> cases b
  case label.label text text' => rw [toDot, toDot, Dot.quote_congr (label.inj h)]
  all_goals simp_all [joined]

theorem AttributeSet.toDot_congr {s t : AttributeSet} (h : s.joined = t.joined) :
    s.toDot = t.toDot := by
  have hwritten : s.entries.map Attribute.toDot = t.entries.map Attribute.toDot :=
    map_eq_map_of_map_eq (fun _ _ _ _ => Attribute.toDot_congr) (joined_eq_iff.1 h)
  have hempty : s.entries.isEmpty = t.entries.isEmpty := by
    rw [← List.isEmpty_map, hwritten, List.isEmpty_map]
  rw [toDot, toDot, hempty, hwritten]

theorem Node.toDot_congr {n m : Node} (hn : n.IsPlain) (hm : m.IsPlain)
    (h : n.joined = m.joined) : n.toDot = m.toDot := by
  obtain ⟨hid, hattributes⟩ := Node.mk.inj h
  rw [toDot, toDot, Dot.identifier_congr hn.1 hm.1 hid, AttributeSet.toDot_congr hattributes]

theorem Connection.toDot_congr {c d : Connection} (hc : c.IsPlain) (hd : d.IsPlain)
    (h : c.joined = d.joined) : c.toDot = d.toDot := by
  obtain ⟨hsource, htarget, hlabel⟩ := Connection.mk.inj h
  have hline : labelLine c.label = labelLine d.label := by
    -- the labels are both there or both missing, which the names have no part in
    generalize c.label = label at hlabel
    generalize d.label = label' at hlabel
    cases label <;> cases label'
    case none.none => rfl
    case some.some text text' =>
      rw [labelLine, labelLine, Dot.quote_congr (Option.some.inj hlabel)]
    all_goals simp at hlabel
  apply String.toList_inj.1
  rw [toList_toDot, toList_toDot, Dot.identifier_congr hc.1 hd.1 hsource,
    Dot.identifier_congr hc.2 hd.2 htarget, hline]

/-- **Entries are written in the same way just if they are the same**, but for carriage returns
    right before line feeds. -/
theorem Record.toDot_inj {r t : Record} (hr : r.IsPlain) (ht : t.IsPlain) :
    r.toDot = t.toDot ↔ r.joined = t.joined := by
  refine ⟨joined_eq_of_toDot_eq hr ht, fun h => ?_⟩
  cases r <;> cases t
  case node.node => exact Node.toDot_congr hr ht (node.inj h)
  case edge.edge => exact Connection.toDot_congr hr ht (edge.inj h)
  all_goals cases h

end Flowchart
