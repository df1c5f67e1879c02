import Flowchart.Proofs.ErrorPlaces

/-!
# One Flow Behind Another

A flow may be put behind another one: what is read is the statements of the first, and then
those of the second.  The only thing that the second could tell from the first is a branch
without an `else` right in front of it, and only the word `else` asks for that.

Behind a first flow the machine is in the state it began in, except that statements stand in
front of all that it reads (`State.behind`).  They are in the outermost block, so a token is
taken behind them as it is without them (`State.step?_behind`), and whatever token is taken
first, the block that it leaves does not end with one of them any more (`State.Begun`).

Main statements: a read flow is read in front of anything (`reaches_of_run`), a run behind
earlier statements (`run_behind`), and the two together (`parse_append`).
-/

namespace Flowchart

open Text

namespace Parser

/-! ## §1 Statements in front of all that is read -/

/-- The statements of a block with earlier ones in front, if the block is in no other. -/
def doneBehind (earlier done : List Statement) : List Frame → List Statement
  | [] => done ++ earlier
  | _ :: _ => done

/-- The open blocks with earlier statements in front of the outermost. -/
def framesBehind (earlier : List Statement) : List Frame → List Frame
  | [] => []
  | frame :: enclosing =>
    ⟨frame.header, doneBehind earlier frame.before enclosing⟩ :: framesBehind earlier enclosing

/-- The state with earlier statements, the latest first, in front of all that was read. -/
def State.behind (earlier : List Statement) (s : State) : State :=
  ⟨doneBehind earlier s.done s.enclosing, framesBehind earlier s.enclosing, s.awaiting⟩

variable {earlier : List Statement}

@[simp] theorem doneBehind_cons (s : Statement) (done : List Statement) (enclosing : List Frame) :
    doneBehind earlier (s :: done) enclosing = s :: doneBehind earlier done enclosing := by
  cases enclosing <;> rfl

/-- The machine has begun: it does not stand in front of its first statement. -/
def State.Begun (s : State) : Prop :=
  s.enclosing = [] → s.awaiting = .statement → s.done ≠ []

theorem Takes.begun {s s' : State} {token : Token} (h : Takes s token s') : s'.Begun := by
  cases h <;> simp [State.Begun]

/-- Behind earlier statements a block ends with an open branch as it does without them, if it
    has a statement of its own or the earlier ones do not end with one. -/
theorem endsWithOpenBranch_behind {done : List Statement} {enclosing : List Frame}
    (h : (State.mk done enclosing .statement).Begun ∨ endsWithOpenBranch earlier = false) :
    endsWithOpenBranch (doneBehind earlier done enclosing) = endsWithOpenBranch done := by
  cases enclosing with
  | cons frame enclosing => rfl
  | nil =>
    cases done with
    | cons s done => rfl
    -- nothing stands between the earlier statements and what comes next
    | nil => exact h.resolve_left fun hbegun => hbegun rfl rfl rfl

/-! ## §2 One token -/

theorem Takes.behind {s s' : State} {token : Token} (h : Takes s token s') :
    Takes (s.behind earlier) token (s'.behind earlier) := by
  cases h with
  | branch => exact .branch
  | loop => exact .loop
  | exit => exact .exit
  | step => exact .step
  | reopen =>
    rw [State.behind, doneBehind_cons]
    exact .reopen
  | close =>
    rw [State.behind, State.behind, doneBehind_cons]
    exact .close
  | branchCondition => exact .branchCondition
  | loopCondition => exact .loopCondition
  | «open» => exact .open
  | semicolon =>
    rw [State.behind, State.behind, doneBehind_cons]
    exact .semicolon

/-- **A token is taken behind earlier statements as it is without them**, but for the word
    `else` in front of the first statement. -/
theorem State.step?_behind {s : State} {token : Token}
    (h : (s.Begun ∨ endsWithOpenBranch earlier = false) ∨ token ≠ .elseWord) :
    (s.behind earlier).step? token = (s.step? token).map (State.behind earlier) := by
  cases hstep : s.step? token with
  | some s' => exact step?_eq_some_iff.2 (step?_eq_some_iff.1 hstep).behind
  | none =>
    obtain ⟨done, enclosing, awaiting⟩ := s
    -- most of what is refused is refused for what has to come next, which is the same
    cases awaiting <;> cases token <;> first | rfl | cases hstep | skip
    case statement.elseWord =>
      have hends := endsWithOpenBranch_behind (h.resolve_right fun hne => hne rfl)
      rw [step?_elseWord_eq_none_iff] at hstep
      exact step?_elseWord_eq_none_iff.2 (hends.trans hstep)
    case statement.closeBrace =>
      cases enclosing with
      | nil => rfl
      | cons frame enclosing => cases hstep

theorem State.exists_takes_of_next? {s s' : State} {input rest : List Char}
    (h : s.next? input = some (s', rest)) :
    ∃ token, (token, rest) ∈ Token.candidates input ∧ Takes s token s' := by
  obtain ⟨⟨token, after⟩, hp, hnext⟩ := List.exists_of_findSome?_eq_some h
  obtain ⟨_, hstep, heq⟩ := Option.map_eq_some_iff.1 hnext
  obtain ⟨rfl, rfl⟩ := Prod.mk.inj heq
  exact ⟨token, hp, step?_eq_some_iff.1 hstep⟩

/-- The token that is taken next is the same behind earlier statements. -/
theorem State.next?_behind {s : State} {input : List Char}
    (h : (s.Begun ∨ endsWithOpenBranch earlier = false) ∨
      ∀ rest, (Token.elseWord, rest) ∉ Token.candidates input) :
    (s.behind earlier).next? input = (s.next? input).map fun p => (p.1.behind earlier, p.2) := by
  apply @next?_eq_map s (s.behind earlier) input input id id (State.behind earlier) (by simp)
  rintro ⟨token, rest⟩ hp
  apply step?_behind
  -- the word `else` is not offered, so no token that is offered is that word
  apply h.imp_right
  rintro hnone rfl
  exact hnone rest hp

/-- The word `else` is offered only where the input begins with it. -/
theorem beginsWithWord_of_mem_candidates {input rest : List Char}
    (h : (Token.elseWord, rest) ∈ Token.candidates input) :
    BeginsWithWord Token.elseWord.lexeme input := by
  rcases List.mem_append.1 h with hkeyword | hplain
  · obtain ⟨-, hafter⟩ := Token.keyword?_eq_some_iff.1 (Option.mem_toList.1 hkeyword)
    obtain ⟨rfl, hends⟩ := Token.after?_eq_some_iff.1 hafter
    exact ⟨rest, rfl, (endsBefore_eq_true_iff (by decide)).1 hends⟩
  · rcases Token.plain?_eq_some (Option.mem_toList.1 hplain) with ⟨hmark, -⟩ | ⟨chars, htext, -⟩
    · exact absurd hmark (by decide)
    · cases htext

/-! ## §3 A whole run -/

/-- Behind earlier statements the same program ends, with these in front of it. -/
theorem State.finish?_behind (s : State) :
    (s.behind earlier).finish? = s.finish?.map (earlier.reverse ++ ·) := by
  obtain ⟨done, enclosing, awaiting⟩ := s
  cases enclosing with
  | cons frame enclosing => rfl
  | nil =>
    cases awaiting with
    | statement => exact congrArg some List.reverse_append
    | _ => rfl

/-- **A run behind earlier statements** reads what it reads without them, and fails where it
    fails without them. -/
theorem run_behind {last input : List Char} {s : State}
    (h : (s.Begun ∨ endsWithOpenBranch earlier = false) ∨
      ¬BeginsWithWord Token.elseWord.lexeme (input.dropWhile isLayout)) :
    run last (s.behind earlier) input = (run last s input).map (earlier.reverse ++ ·) := by
  -- the induction follows the reading; after one token the state has begun
  fun_induction run last s input with
  | case1 last s input hinput statements hfinish =>
    rw [run_eq, hinput]
    simp only [State.finish?_behind, hfinish]
    rfl
  | case2 last s input hinput hfinish =>
    rw [run_eq, hinput]
    simp only [State.finish?_behind, hfinish]
    rfl
  | case3 last s input c cs hinput s' rest hnext ih =>
    rw [hinput] at h
    have hbehind := State.next?_behind (h.imp_right fun hword rest hmem =>
      hword (beginsWithWord_of_mem_candidates hmem))
    rw [run_eq, hinput]
    simp only [hbehind, hnext, Option.map_some]
    obtain ⟨token, -, htakes⟩ := State.exists_takes_of_next? hnext
    exact ih (.inl (.inl htakes.begun))
  | case4 last s input c cs hinput hnext =>
    rw [hinput] at h
    have hbehind := State.next?_behind (h.imp_right fun hword rest hmem =>
      hword (beginsWithWord_of_mem_candidates hmem))
    rw [run_eq, hinput]
    simp only [hbehind, hnext]
    rfl

/-! ## §4 In front of another flow -/

/-- A statement may come next only behind a mark. -/
theorem Takes.mem_marks {s s' : State} {token : Token} (h : Takes s token s')
    (hs' : s'.awaiting = .statement) : token ∈ Token.marks := by
  cases h <;> first | decide | cases hs'

theorem State.hasMark_of_next? {s s' : State} {input rest : List Char}
    (h : s.next? input = some (s', rest))
    (hrest : Token.HasMark rest ∨ s'.awaiting = .statement) : Token.HasMark input := by
  obtain ⟨token, hmem, htakes⟩ := exists_takes_of_next? h
  rw [Token.eq_lexeme_append hmem, Token.hasMark_append]
  rcases hrest with hmark | hawaiting
  · exact .inr hmark
  · exact .inl (Token.hasMark_lexeme (htakes.mem_marks hawaiting))

/-- What is read to its end has a mark in it, unless a statement may come next. -/
theorem hasMark_of_run {last input : List Char} {s : State} {program : List Statement}
    (h : run last s input = .ok program) :
    Token.HasMark input ∨ s.awaiting = .statement := by
  fun_induction run last s input with
  | case1 last s input hinput statements hfinish =>
    rw [State.eq_of_finish? hfinish]
    exact .inr rfl
  | case2 => cases h
  | case3 last s input c cs hinput s' rest hnext ih =>
    obtain ⟨-, gap, -, rfl⟩ := exists_gap hinput
    left
    exact Token.hasMark_append.2 (.inr (State.hasMark_of_next? hnext (ih h)))
  | case4 => cases h

/-- **A flow is read in front of anything** as it is read alone. -/
theorem reaches_of_run {last input : List Char} {s : State} {program : List Statement}
    (h : run last s input = .ok program) (more : List Char) :
    Reaches s (input ++ more) ⟨program.reverse, [], .statement⟩ more := by
  fun_induction run last s input with
  | case1 last s input hinput statements hfinish =>
    obtain rfl := Except.ok.inj h
    rw [← State.eq_of_finish? hfinish]
    exact .skip (List.dropWhile_eq_nil_iff.1 hinput)
  | case2 => cases h
  | case3 last s input c cs hinput s' rest hnext ih =>
    obtain ⟨-, gap, hgap, rfl⟩ := exists_gap hinput
    -- the token has seen all that it looks at, because a mark comes before the end
    have hmark := State.hasMark_of_next? hnext (hasMark_of_run h)
    have hsame : s.next? (c :: cs ++ more) = some (s', rest ++ more) := by
      rw [s.next?_append hmark, hnext]
      rfl
    rw [List.append_assoc]
    exact .take hgap hsame (ih h)
  | case4 => cases h

end Parser

/-- **A flow behind a flow is read as the statements of both**, the first ones first, unless the
    first ends with a branch without an `else` and the second begins with the word `else`. -/
theorem parse_append {a b : String} {first : List Statement} (ha : parse a = .ok first)
    (hb : ¬(first.getLast?.any Statement.isOpenBranch = true ∧
      BeginsWithWord Token.elseWord.lexeme (b.toList.dropWhile isLayout)))
    (program : List Statement) :
    parse (a ++ b) = .ok program ↔ ∃ later, parse b = .ok later ∧ program = first ++ later := by
  have hfront := Parser.reaches_of_run (parse_eq_ok_iff.1 ha) b.toList
  obtain ⟨last, hrun⟩ := hfront.run_eq (a.toList ++ b.toList)
  have hbehind : Parser.run last ⟨first.reverse, [], .statement⟩ b.toList =
      (Parser.run last .initial b.toList).map (first ++ ·) := by
    have hends : Parser.endsWithOpenBranch first.reverse = false ∨
        ¬BeginsWithWord Token.elseWord.lexeme (b.toList.dropWhile isLayout) := by
      rwa [Parser.endsWithOpenBranch, List.head?_reverse, ← Bool.not_eq_true, ← not_and_or]
    have hsame := @Parser.run_behind first.reverse last b.toList .initial (hends.imp_left .inr)
    rwa [List.reverse_reverse] at hsame
  -- where an error of the second flow would be reported makes no difference
  have hlater : ∀ later, parse b = .ok later ↔ Parser.run last .initial b.toList = .ok later := by
    intro later
    rw [parse_eq_ok_iff]
    exact ⟨fun h => Parser.reads_of_run h _, fun h => Parser.reads_of_run h _⟩
  rw [parse_eq_ok_iff, String.toList_append, Parser.parseChars, hrun, hbehind]
  simp only [hlater]
  cases Parser.run last .initial b.toList with
  | error failure => simp [Except.map]
  | ok later => simp [Except.map, eq_comm]

/-- Behind a branch, a step that begins with the letters of the word `else`. -/
theorem parse_append_elsewhere :
    parse "if a \x7b\x7d" = .ok [.ifThen "a" []] ∧
      ¬BeginsWithWord Token.elseWord.lexeme (" elsewhere;".toList.dropWhile isLayout) ∧
      parse ("if a \x7b\x7d" ++ " elsewhere;") = .ok [.ifThen "a" [], .step "elsewhere"] := by
  have hbranch : parse "if a \x7b\x7d" = .ok [.ifThen "a" []] := by decide +kernel
  have hword : ¬BeginsWithWord Token.elseWord.lexeme (" elsewhere;".toList.dropWhile isLayout) := by
    rintro ⟨rest, hrest, hends⟩
    obtain rfl : rest = "where;".toList := List.append_cancel_left (hrest.symm.trans rfl)
    exact absurd (hends 'w' rfl) (by decide +kernel)
  have hstep : parse " elsewhere;" = .ok [.step "elsewhere"] := by decide +kernel
  exact ⟨hbranch, hword, (parse_append hbranch (fun h => hword h.2) _).2 ⟨_, hstep, rfl⟩⟩

/-- The word `else` is refused at the beginning of a flow, but not behind a branch. -/
example : parse "else \x7b\x7d" = .error ⟨.unexpected .openBrace, ⟨1, 6⟩⟩ ∧
    parse ("if a \x7b\x7d" ++ "else \x7b\x7d") = .ok [.ifThenElse "a" [] []] := by decide +kernel

end Flowchart
