import Mathlib.Data.List.Nodup
import Mathlib.Data.List.Perm.Basic
import Flowchart.Chart.Session
import Flowchart.FirstOccurrence

/-!
# The First Word Stands

An attribute set takes one attribute of each kind, the first that comes, and keeps the order
in which they came.  So what a set lists can be told from what it was offered: the first
attribute of each kind.

This goes through all that can be done with sets.  Sets are built, derived from one another
and added to in any order, and of each member of such a family we keep an account of what
it was offered (`AttributeFamily.offered`): what its origin listed when it was derived, the
attributes it was derived with, and what was added to it later.  One action keeps family and
account together (`AttributeFamily.Lists.perform`), and so do all actions in a row.

Main statement: `attributes_listed_by_first_words`.
-/

namespace Flowchart

namespace AttributeSet

variable {s t : AttributeSet} {a : Attribute} {kind : AttributeKind}

/-! ## §1 What a set says -/

theorem eq_of_entries_eq (h : s.entries = t.entries) : s = t := by
  obtain ⟨entries, hdistinct⟩ := s
  obtain rfl : entries = t.entries := h
  rfl

theorem nodup_entries (s : AttributeSet) : s.entries.Nodup :=
  .of_map Attribute.kind s.distinct

/-- What a set says on a matter is the only attribute of that kind that it lists. -/
theorem get?_eq_some_iff : s.get? kind = some a ↔ a ∈ s.entries ∧ a.kind = kind := by
  constructor
  · intro h
    exact ⟨List.mem_of_find?_eq_some h, by simpa using List.find?_some h⟩
  · rintro ⟨ha, rfl⟩
    cases hfind : s.get? a.kind with
    | none => simpa using List.find?_eq_none.1 hfind a ha
    | some b =>
      have hb : b ∈ s.entries := List.mem_of_find?_eq_some hfind
      have hkind : b.kind = a.kind := by simpa using List.find?_some hfind
      -- no two attributes of a set are of one kind
      rw [List.inj_on_of_nodup_map s.distinct hb ha hkind]

theorem isSome_get? : (s.get? kind).isSome = s.contains kind := by
  rw [Bool.eq_iff_iff, get?, contains, List.find?_isSome, List.any_eq_true]

/-! ## §2 When two sets say the same -/

/-- Two sets say the same just if they list the same attributes, in whatever order. -/
theorem sameAs_iff_mem : s.sameAs t = true ↔ ∀ a, a ∈ s.entries ↔ a ∈ t.entries := by
  rw [sameAs, List.isPerm_iff, List.perm_ext_iff_of_nodup s.nodup_entries t.nodup_entries]

/-- Two sets say the same just if they say the same on each matter. -/
theorem sameAs_iff_get? : s.sameAs t = true ↔ ∀ kind, s.get? kind = t.get? kind := by
  rw [sameAs_iff_mem]
  constructor
  · intro h kind
    apply Option.ext
    intro a
    rw [get?_eq_some_iff, get?_eq_some_iff, h]
  · intro h a
    have hlisted : ∀ u : AttributeSet, a ∈ u.entries ↔ u.get? a.kind = some a := by
      simp [get?_eq_some_iff]
    rw [hlisted, hlisted, h]

/-! ## §3 First words -/

/-- An attribute that is added comes behind the others, if it is the first of its kind. -/
theorem entries_insert_eq_firstOccurrences (s : AttributeSet) (a : Attribute) :
    (s.insert a).entries = firstOccurrences Attribute.kind (s.entries ++ [a]) := by
  rw [entries_insert, firstOccurrences_concat, firstOccurrences_of_nodup _ s.distinct]
  simp only [contains_iff]
  split
  · rw [List.append_nil]
  · rfl

/-- **A set with further attributes lists the first attribute of each kind** among those that
    it had and those that it was given. -/
theorem entries_layered (s : AttributeSet) (attributes : List Attribute) :
    (s.layered attributes).entries =
      firstOccurrences Attribute.kind (s.entries ++ attributes) := by
  rw [layered]
  induction attributes generalizing s with
  | nil => rw [List.append_nil, firstOccurrences_of_nodup _ s.distinct, List.foldl_nil]
  | cons a attributes ih =>
    -- first occurrences may be taken after each addition or once at the end
    rw [List.foldl_cons, ih, entries_insert_eq_firstOccurrences, firstOccurrences_append_left,
      List.append_assoc, List.singleton_append]

theorem entries_ofList (attributes : List Attribute) :
    (ofList attributes).entries = firstOccurrences Attribute.kind attributes :=
  entries_layered empty attributes

theorem layered_append (s : AttributeSet) (xs ys : List Attribute) :
    s.layered (xs ++ ys) = (s.layered xs).layered ys :=
  List.foldl_append

/-- A set that is built from what another one lists is a copy of it. -/
theorem ofList_entries (s : AttributeSet) : ofList s.entries = s :=
  eq_of_entries_eq (by rw [entries_ofList, firstOccurrences_of_nodup _ s.distinct])

end AttributeSet

/-! ## §4 Nodes -/

/-- A node that is given attributes several times keeps its name, and has them all under those
    that it had. -/
theorem Graph.layerAll_eq (g : Graph) (node : Node) (layers : List Graph.Layer) :
    (g.layerAll node layers).1 = node.withAttributes (layers.flatMap Graph.Layer.attributes) := by
  induction layers generalizing g node with
  | nil => rfl
  | cons layer layers ih =>
    -- on the side or in the chart, the same node comes of it
    have hfirst : (g.layerAll node (layer :: layers)).1 =
        (node.withAttributes layer.attributes).withAttributes
          (layers.flatMap Graph.Layer.attributes) := by
      cases layer with
      | aside attributes => exact ih g _
      | declared attributes => exact ih _ _
    rw [hfirst, List.flatMap_cons, Node.withAttributes, Node.withAttributes, Node.withAttributes,
      AttributeSet.layered_append]

/-! ## §5 Families -/

namespace AttributeFamily

variable {f : AttributeFamily} {offers : List (List Attribute)}

/-- What each member has been offered, after one more action.  A derived member is offered
    what its origin lists at that moment, and then the attributes that it is derived with. -/
def offer (offers : List (List Attribute)) : Action → List (List Attribute)
  | .build attributes => offers ++ [attributes]
  | .insert number a => offers.modify number (· ++ [a])
  | .derive number attributes =>
    offers ++ [firstOccurrences Attribute.kind (offers.getD number []) ++ attributes]

/-- What each member has been offered, after a session that began without any. -/
def offered (actions : List Action) : List (List Attribute) :=
  actions.foldl offer []

/-- Each member lists the first attribute of each kind that it was offered. -/
def Lists (f : AttributeFamily) (offers : List (List Attribute)) : Prop :=
  f.members.map AttributeSet.entries = offers.map (firstOccurrences Attribute.kind)

theorem Lists.getElem? (h : f.Lists offers) (number : Nat) :
    (f.members[number]?).map AttributeSet.entries =
      (offers[number]?).map (firstOccurrences Attribute.kind) := by
  rw [← List.getElem?_map, h, List.getElem?_map]

theorem Lists.entries_member (h : f.Lists offers) (number : Nat) :
    (f.member number).entries = firstOccurrences Attribute.kind (offers.getD number []) := by
  have hnumber := h.getElem? number
  rw [member, List.getD_eq_getElem?_getD, List.getD_eq_getElem?_getD]
  cases hmember : f.members[number]? <;> cases hoffers : offers[number]? <;>
    rw [hmember, hoffers] at hnumber
  case none.none => rfl
  case some.some s offer => exact Option.some.inj hnumber
  all_goals cases hnumber

/-- **One action keeps the account of a family.** -/
theorem Lists.perform (h : f.Lists offers) (action : Action) :
    (f.perform action).2.Lists (offer offers action) := by
  cases action with
  | build attributes =>
    show (f.members ++ [AttributeSet.ofList attributes]).map AttributeSet.entries = _
    rw [offer, List.map_append, List.map_append, h, List.map_singleton, List.map_singleton,
      AttributeSet.entries_ofList]
  | insert number a =>
    show (f.members.modify number fun s => s.insert a).map AttributeSet.entries = _
    -- each place of the family and its account change alike
    apply List.ext_getElem?
    intro i
    have hi := h.getElem? i
    rw [offer, List.getElem?_map, List.getElem?_map, List.getElem?_modify, List.getElem?_modify]
    cases hmember : f.members[i]? <;> cases hoffers : offers[i]? <;> rw [hmember, hoffers] at hi
    case none.none => rfl
    case some.some s offer =>
      have hentries : s.entries = firstOccurrences Attribute.kind offer := Option.some.inj hi
      -- the member that is added to, and the others
      by_cases hnumber : number = i
      · simp [hnumber, AttributeSet.entries_insert_eq_firstOccurrences, hentries,
          firstOccurrences_append_left]
      · simp [hnumber, hentries]
    all_goals cases hi
  | derive number attributes =>
    show (f.members ++ [(f.member number).layered attributes]).map AttributeSet.entries = _
    rw [offer, List.map_append, List.map_append, h, List.map_singleton, List.map_singleton,
      AttributeSet.entries_layered, h.entries_member]

theorem Lists.performAll (h : f.Lists offers) (actions : List Action) :
    (f.performAll actions).2.Lists (actions.foldl offer offers) := by
  induction actions generalizing f offers with
  | nil => exact h
  | cons action rest ih => exact ih (h.perform action)

/-- What a family lists after a session is told by the account of it. -/
theorem lists_offered (actions : List Action) :
    (empty.performAll actions).2.Lists (offered actions) :=
  Lists.performAll (by rfl) actions

/-- An attribute is new to a member just if it was offered none of that kind. -/
theorem Lists.insert (h : f.Lists offers) (number : Nat) (a : Attribute) :
    (f.perform (.insert number a)).1 =
      .stored (decide (a.kind ∉ (offers.getD number []).map Attribute.kind)) := by
  show Answer.stored (!(f.member number).contains a.kind) = _
  have hcontains : (f.member number).contains a.kind =
      decide (a.kind ∈ (offers.getD number []).map Attribute.kind) := by
    rw [Bool.eq_iff_iff, AttributeSet.contains_iff, h.entries_member, mem_map_firstOccurrences,
      decide_eq_true_iff]
  rw [hcontains, decide_not]

/-- **Only adding to a member changes it.** -/
theorem getElem?_perform {action : Action} {number : Nat} (hnumber : number < f.members.length)
    (hother : ∀ a, action ≠ .insert number a) :
    (f.perform action).2.members[number]? = f.members[number]? := by
  cases action with
  | build attributes => exact List.getElem?_append_left hnumber
  | insert other a =>
    have hne : other ≠ number := by
      rintro rfl
      exact hother a rfl
    show (f.members.modify other fun s => s.insert a)[number]? = _
    simp [hne]
  | derive other attributes => exact List.getElem?_append_left hnumber

end AttributeFamily

/-! ## §6 Sessions, nodes and equality -/

/-- **The first word stands, and no set disturbs another one.**

* After any session with attribute sets, each of them lists, in order, the first attribute of
  each kind that it was offered: by its origin as that was when the set was derived, then when
  it was derived or built, and later.
* An attribute that is added is new just if none of its kind was offered before, and nothing
  but adding to a set changes that set.
* To give further attributes to a set is to build it from all of them, and a set that is built
  from what another one lists is a copy of it.  A node that is given attributes many times, on
  the side or by being declared again, has them as if it had been made with them all.
* Two sets are equal just if they list the same attributes, in whatever order, which is just if
  they say the same on each matter. -/
theorem attributes_listed_by_first_words (actions : List AttributeFamily.Action) (g : Graph)
    (xs ys : List Attribute) (layers : List Graph.Layer) (s t : AttributeSet) :
    let f := (AttributeFamily.empty.performAll actions).2
    let offered := AttributeFamily.offered actions
    f.members.map AttributeSet.entries = offered.map (firstOccurrences Attribute.kind) ∧
      (∀ number a, (f.perform (.insert number a)).1 =
        .stored (decide (a.kind ∉ (offered.getD number []).map Attribute.kind))) ∧
      (∀ action number, number < f.members.length → (∀ a, action ≠ .insert number a) →
        (f.perform action).2.members[number]? = f.members[number]?) ∧
      (AttributeSet.ofList xs).layered ys = .ofList (xs ++ ys) ∧
      AttributeSet.ofList s.entries = s ∧
      (g.layerAll (g.createNode xs).1 layers).1.attributes =
        .ofList (xs ++ layers.flatMap Graph.Layer.attributes) ∧
      (s.sameAs t = true ↔ ∀ a, a ∈ s.entries ↔ a ∈ t.entries) ∧
      (s.sameAs t = true ↔ ∀ kind, s.get? kind = t.get? kind) := by
  have hlists := AttributeFamily.lists_offered actions
  refine ⟨hlists, hlists.insert, ?_, ?_, s.ofList_entries, ?_, AttributeSet.sameAs_iff_mem,
    AttributeSet.sameAs_iff_get?⟩
  · intro action number
    exact AttributeFamily.getElem?_perform
  · exact (AttributeSet.layered_append .empty xs ys).symm
  · rw [Graph.layerAll_eq]
    exact (AttributeSet.layered_append .empty xs _).symm

/-- Two sets, the second derived from the first; what is added to one of them later does not
    appear in the other. -/
example :
    (AttributeFamily.empty.performAll [.build [.label "a"], .derive 0 [.label "b", .penWidth 1],
      .insert 0 (.color "red"), .insert 1 (.color "blue")]).2.members.map AttributeSet.entries =
      [[.label "a", .color "red"], [.label "a", .penWidth 1, .color "blue"]] := by
  decide

end Flowchart
