import Mathlib.Tactic.SplitIfs
import Flowchart.Compile
import Flowchart.Proofs.DotEntries
import Flowchart.Proofs.Words

/-!
# The Lines of a DOT File

A chart is written with one line for each of its entries.  Whatever stands in its names and
texts, no line of it is broken in two, none loses blanks at its ends, and each is written
for one entry only.  So the file says all there is to say of the chart.

* Line feeds are escaped in quoted text and do not stand in identifiers
  (`Record.newline_not_mem_toDot`).
* A line begins with a letter, an underscore or a quotation mark and ends in a semicolon, so
  there is nothing to trim (`Record.trim_toDot`).
* Lines without line feeds are read back from the text in which each is ended by one
  (`lines_eq_of_join_eq`).
-/

namespace Flowchart

open Text

/-! ## §1 No line is broken -/

namespace Dot

theorem newline_not_mem_escapeChar (c : Char) : '\n' ∉ escapeChar c := by
  unfold escapeChar
  split_ifs with hbackslash hmark hfeed
  · simp
  · simp
  · simp
  · intro hmem
    obtain rfl := List.mem_singleton.1 hmem
    exact hfeed rfl

theorem newline_not_mem_escapeChars (cs : List Char) : '\n' ∉ escapeChars cs := by
  fun_induction escapeChars cs with
  | case1 => simp
  | case2 cs ih => simp [ih]
  | case3 c cs hne ih => simp [newline_not_mem_escapeChar, ih]

/-- A line feed in a quoted text is escaped. -/
theorem newline_not_mem_quote (s : String) : '\n' ∉ (quote s).toList := by
  simp [newline_not_mem_escapeChars]

/-- A name that does not end in a line feed stands on one line. -/
theorem newline_not_mem_identifier {name : String} (h : EndsInText name) :
    '\n' ∉ (identifier name).toList := by
  unfold identifier
  split
  case isTrue hbare => exact newline_not_mem_of_isIdentifier (isIdentifier_of_isBare h hbare)
  case isFalse => exact newline_not_mem_quote name

/-- The header stands on one line. -/
theorem newline_not_mem_header {name : String} (strict : Bool) (h : EndsInText name) :
    '\n' ∉ (header name strict).toList := by
  unfold header
  split_ifs <;> simp [newline_not_mem_identifier h]

end Dot

theorem Attribute.newline_not_mem_toDot {a : Attribute} (h : a.IsPlain) :
    '\n' ∉ a.toDot.toList := by
  cases a with
  | label text => simp [toDot, Dot.newline_not_mem_escapeChars]
  | shape kind => cases kind <;> simp [toDot, Shape.name]
  | color name => simpa [toDot] using Dot.newline_not_mem_of_isIdentifier h
  | penWidth width =>
    -- a width is written with digits and maybe a sign, which are no line feeds
    intro hmem
    rw [toDot, String.toList_append, List.mem_append] at hmem
    rcases hmem with hkey | hwidth
    · simp at hkey
    · rcases mem_toString_int hwidth with hsign | hrest
      · cases hsign
      · cases hrest

theorem Attribute.newline_not_mem_intercalate {as : List Attribute} (h : ∀ a ∈ as, a.IsPlain) :
    '\n' ∉ (", ".intercalate (as.map toDot)).toList := by
  induction as with
  | nil => simp
  | cons a as ih =>
    obtain ⟨ha, has⟩ := List.forall_mem_cons.1 h
    have hfirst := newline_not_mem_toDot ha
    cases as with
    | nil => simpa using hfirst
    | cons b bs => simpa [String.intercalate_cons_cons, hfirst] using ih has

theorem AttributeSet.newline_not_mem_toDot {s : AttributeSet}
    (h : ∀ a ∈ s.entries, a.IsPlain) : '\n' ∉ s.toDot.toList := by
  have hentries := Attribute.newline_not_mem_intercalate h
  unfold toDot
  split
  · simp
  · simpa using hentries

theorem Connection.newline_not_mem_labelLine (label : Option String) :
    '\n' ∉ labelLine label := by
  cases label <;> simp [labelLine, Dot.newline_not_mem_escapeChars]

/-- **An entry is written on one line.** -/
theorem Record.newline_not_mem_toDot {r : Record} (h : r.IsPlain) : '\n' ∉ r.toDot.toList := by
  cases r with
  | node n =>
    simp [toDot, Node.toDot, Dot.newline_not_mem_identifier h.1,
      AttributeSet.newline_not_mem_toDot h.2]
  | edge c =>
    simp [toDot, Connection.toList_toDot, Dot.newline_not_mem_identifier h.1,
      Dot.newline_not_mem_identifier h.2, Connection.newline_not_mem_labelLine]

/-! ## §2 Nothing is trimmed -/

/-- A text that neither begins nor ends with a blank has nothing to trim. -/
theorem Text.trim_of_ends {cs : List Char} (hhead : ∀ c ∈ cs.head?, isBlank c = false)
    (hlast : ∀ c ∈ cs.getLast?, isBlank c = false) : trim cs = cs := by
  have hdrop : ∀ ds : List Char, (∀ c ∈ ds.head?, isBlank c = false) →
      ds.dropWhile isBlank = ds := by
    intro ds hds
    cases ds with
    | nil => rfl
    | cons d ds => simp [hds d rfl]
  rw [trim, hdrop cs hhead, hdrop cs.reverse (by simpa using hlast), List.reverse_reverse]

namespace Dot

/-- An identifier begins with no blank. -/
theorem isBlank_of_isIdentifierStart {c : Char} (h : isIdentifierStart c = true) :
    isBlank c = false := by
  -- the start of an identifier is an ASCII word character
  have hascii : c.toNat < 128 := by
    have hletter : ((decide (c.val ≥ 'A'.val ∧ c.val ≤ 'Z'.val) ||
        c.val ≥ 'a'.val && c.val ≤ 'z'.val) || c == '_') = true := h
    simp only [Bool.or_eq_true, Bool.and_eq_true, decide_eq_true_eq, beq_iff_eq,
      UInt32.le_iff_toNat_le] at hletter
    rcases hletter with (⟨-, hhigh⟩ | ⟨-, hhigh⟩) | rfl
    · exact Nat.lt_of_le_of_lt hhigh (by decide)
    · exact Nat.lt_of_le_of_lt hhigh (by decide)
    · decide
  -- an ASCII word character is one also among all characters, where no blank is
  by_contra hblank
  have hword := isWordChar_eq_false_of_isBlank (Bool.of_not_eq_false hblank)
  rw [isWordChar, if_pos hascii] at hword
  have hrest := isIdentifierRest_of_start h
  rw [isIdentifierRest, hword] at hrest
  cases hrest

/-- A name begins with no blank, bare or quoted. -/
theorem exists_identifier_cons {name : String} (h : EndsInText name) :
    ∃ c cs, (identifier name).toList = c :: cs ∧ isBlank c = false := by
  unfold identifier
  split
  case isTrue hbare =>
    have hid := isIdentifier_of_isBare h hbare
    cases hname : name.toList with
    | nil =>
      rw [hname] at hid
      cases hid
    | cons c cs =>
      rw [hname] at hid
      exact ⟨c, cs, rfl, isBlank_of_isIdentifierStart (Bool.and_eq_true_iff.1 hid).1⟩
  case isFalse => exact ⟨'"', _, toList_quote name, rfl⟩

end Dot

/-- A text that begins with a name and ends in a semicolon has nothing to trim. -/
theorem Dot.trim_of_identifier {name : String} (h : EndsInText name) (middle : List Char) :
    trim ((identifier name).toList ++ (middle ++ [';'])) =
      (identifier name).toList ++ (middle ++ [';']) := by
  obtain ⟨c, cs, hname, hblank⟩ := exists_identifier_cons h
  apply trim_of_ends
  · simpa [hname] using hblank
  · rw [← List.append_assoc, List.getLast?_concat]
    intro c hc
    obtain rfl := Option.some.inj hc
    rfl

theorem Connection.exists_labelLine_eq (label : Option String) :
    ∃ middle, labelLine label = middle ++ [';'] := by
  cases label with
  | none => exact ⟨[], rfl⟩
  | some text =>
    refine ⟨' ' :: ("[label=".toList ++ ((Dot.quote text).toList ++ [']'])), ?_⟩
    simp [labelLine]

/-- **The line of an entry is written as it is**, with nothing trimmed. -/
theorem Record.trim_toDot {r : Record} (h : r.IsPlain) : trim r.toDot.toList = r.toDot.toList := by
  cases r with
  | node n =>
    have htrim := Dot.trim_of_identifier h.1 n.attributes.toDot.toList
    simpa [toDot, Node.toDot] using htrim
  | edge c =>
    -- with or without a label, the line ends in a semicolon
    obtain ⟨middle, hmiddle⟩ := Connection.exists_labelLine_eq c.label
    have htrim := Dot.trim_of_identifier h.1
      (' ' :: '-' :: '>' :: ' ' :: ((Dot.identifier c.target).toList ++ middle))
    simpa [toDot, Connection.toList_toDot, hmiddle] using htrim

theorem Dot.trim_header (name : String) (strict : Bool) :
    trim (header name strict).toList = (header name strict).toList := by
  apply trim_of_ends
  · unfold header
    split_ifs <;> simp <;> rfl
  · intro c hc
    rw [header, String.toList_append] at hc
    obtain rfl : c = '\x7b' := by simpa using hc.symm
    rfl

/-! ## §3 The text of a file -/

namespace Dot

/-- Each entry adds its line behind those already written. -/
theorem lines_foldl_addRecord {records : List Record} (h : ∀ r ∈ records, r.IsPlain)
    (w : Writer) :
    (records.foldl Writer.addRecord w).lines = w.lines ++ records.map Record.toDot := by
  -- by induction on the entries, for whatever is written before them
  induction records generalizing w with
  | nil => simp
  | cons r records ih =>
    obtain ⟨hr, hrecords⟩ := List.forall_mem_cons.1 h
    rw [List.foldl_cons, ih hrecords]
    simp [Writer.addRecord, Writer.addLine, Record.trim_toDot hr]

/-- The lines of a file: its header, one line for each entry in order, and a closing brace. -/
def fileLines (name : String) (strict : Bool) (records : List Record) : List String :=
  header name strict :: records.map Record.toDot ++ ["\x7d"]

/-- A file is its lines, each with a line feed behind it. -/
theorem render_eq (name : String) (strict : Bool) {records : List Record}
    (h : ∀ r ∈ records, r.IsPlain) :
    render name strict records =
      String.join ((fileLines name strict records).map (· ++ "\n")) := by
  have hclosing : trim ['\x7d'] = ['\x7d'] := rfl
  simp [render, fileLines, Writer.consume, Writer.addLine, lines_foldl_addRecord h, trim_header,
    hclosing]

theorem newline_not_mem_fileLines {name : String} (hname : EndsInText name) (strict : Bool)
    {records : List Record} (h : ∀ r ∈ records, r.IsPlain) :
    ∀ line ∈ fileLines name strict records, '\n' ∉ line.toList := by
  intro line hline
  rcases List.mem_append.1 hline with hline | hclosing
  · rcases List.mem_cons.1 hline with rfl | hentry
    · exact newline_not_mem_header strict hname
    · obtain ⟨r, hr, rfl⟩ := List.mem_map.1 hentry
      exact Record.newline_not_mem_toDot (h r hr)
  · obtain rfl := List.mem_singleton.1 hclosing
    simp

end Dot

theorem bne_newline_of_notMem {cs : List Char} (h : '\n' ∉ cs) :
    ∀ c ∈ cs, (c != '\n') = true := by
  intro c hc
  exact bne_iff_ne.2 fun heq => h (heq ▸ hc)

/-- Lines without line feeds are read back from the text in which each is ended by one. -/
theorem lines_eq_of_join_eq {lines others : List String} (hlines : ∀ l ∈ lines, '\n' ∉ l.toList)
    (hothers : ∀ l ∈ others, '\n' ∉ l.toList)
    (h : String.join (lines.map (· ++ "\n")) = String.join (others.map (· ++ "\n"))) :
    lines = others := by
  -- line by line: a text without line feeds is settled by the one behind it
  induction lines generalizing others with
  | nil =>
    cases others with
    | nil => rfl
    | cons m others => simp [String.join_cons] at h
  | cons l lines ih =>
    cases others with
    | nil => simp [String.join_cons] at h
    | cons m others =>
      obtain ⟨hl, hlines⟩ := List.forall_mem_cons.1 hlines
      obtain ⟨hm, hothers⟩ := List.forall_mem_cons.1 hothers
      rw [List.map_cons, List.map_cons, String.join_cons, String.join_cons] at h
      have hlist := congrArg String.toList h
      have hfeed : "\n".toList = ['\n'] := rfl
      simp only [String.toList_append, hfeed, List.append_assoc, List.singleton_append] at hlist
      obtain ⟨hfirst, hrest⟩ := append_inj_of_stopsAt (bne_newline_of_notMem hl)
        (bne_newline_of_notMem hm)
        (stopsAt_cons.2 rfl) (stopsAt_cons.2 rfl) hlist
      rw [String.toList_inj.1 hfirst, ih hlines hothers
        (String.toList_inj.1 (List.tail_eq_of_cons_eq hrest))]

/-! ## §4 The file says it all -/

/-- **A DOT file says all there is to say of a chart.**  Let neither the name of the file nor
    those of the nodes end in a line feed, and let the names of colors be identifiers; all
    other texts may be anything.

    * The file consists of its header, one line for each entry of the chart in order, and a
      line with the closing brace.  Each of them is ended by a line feed, and there are no
      other line feeds in them.
    * Two charts are written as the same file, by the same name and with the same strictness,
      just if they have the same entries in the same order: of the same kinds, with the same
      names, attributes and labels, where having no label is not the same as having an empty
      one.  Only carriage returns right before line feeds may differ. -/
theorem render_faithful {name : String} {strict : Bool} {xs ys : List Record}
    (hname : Dot.EndsInText name) (hxs : ∀ r ∈ xs, r.IsPlain) (hys : ∀ r ∈ ys, r.IsPlain) :
    Dot.render name strict xs =
        String.join ((Dot.fileLines name strict xs).map (· ++ "\n")) ∧
      (∀ line ∈ Dot.fileLines name strict xs, '\n' ∉ line.toList) ∧
      (Dot.render name strict xs = Dot.render name strict ys ↔
        xs.map Record.joined = ys.map Record.joined) := by
  have hunbroken := Dot.newline_not_mem_fileLines hname strict hxs
  refine ⟨Dot.render_eq name strict hxs, hunbroken, ?_⟩
  rw [Dot.render_eq name strict hxs, Dot.render_eq name strict hys]
  constructor
  · intro h
    have hlines := lines_eq_of_join_eq hunbroken
      (Dot.newline_not_mem_fileLines hname strict hys) h
    -- the first and the last line are the same for both charts
    have hentries : xs.map Record.toDot = ys.map Record.toDot :=
      List.append_cancel_right (List.tail_eq_of_cons_eq hlines)
    exact map_eq_map_of_map_eq
      (fun r hr t ht => (Record.toDot_inj (hxs r hr) (hys t ht)).1) hentries
  · intro h
    have hentries : xs.map Record.toDot = ys.map Record.toDot := map_eq_map_of_map_eq
      (fun r hr t ht => (Record.toDot_inj (hxs r hr) (hys t ht)).2) h
    rw [Dot.fileLines, Dot.fileLines, hentries]

/-- A chart with line ends in a name and in a label that looks like the end of its line, and
    with an empty label. -/
def chartWithLineEnd (lineEnd : String) : List Record :=
  [.node ⟨"a" ++ lineEnd ++ "b",
      .ofList [.label ("\"];" ++ lineEnd ++ "x -> y;"), .color "red", .penWidth (-3)]⟩,
    .edge ⟨"a" ++ lineEnd ++ "b", "node", some ""⟩]

/-- Whether its line ends have carriage returns or not, the chart is written as the same file,
    from which it is known up to them. -/
theorem render_faithful_of_line_ends :
    Dot.render "flow" true (chartWithLineEnd "\r\n") =
        Dot.render "flow" true (chartWithLineEnd "\n") ∧
      (chartWithLineEnd "\r\n").map Record.joined = (chartWithLineEnd "\n").map Record.joined := by
  have hsame : Dot.render "flow" true (chartWithLineEnd "\r\n") =
      Dot.render "flow" true (chartWithLineEnd "\n") := by decide +kernel
  have hfaithful := @render_faithful "flow" true (chartWithLineEnd "\r\n")
    (chartWithLineEnd "\n") (by decide) (by decide) (by decide)
  exact ⟨hsame, hfaithful.2.2.1 hsame⟩

end Flowchart
