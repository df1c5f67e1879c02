import Flowchart.Chart.Attribute

/-!
# Attribute Sets

What is said of one node: at most one attribute of each kind, in the order in which
they came.

Two policies meet here.  While a set is built, the first word on a matter stands:
`insert` leaves a kind alone that is already there.  Where a node is declared more than
once, the last word stands: `override` puts each new value in the place of the old one.

Main statements: `entries_insert` and `entries_replace` say what one attribute does to
the list under either policy.
-/

namespace Flowchart

/-- Attributes of which no two are of one kind, in the order in which they came. -/
structure AttributeSet where
  entries : List Attribute
  distinct : (entries.map Attribute.kind).Nodup
deriving DecidableEq, Repr

namespace AttributeSet

/-! ## §1 Looking up -/

/-- Nothing said. -/
def empty : AttributeSet := ⟨[], .nil⟩

instance : Inhabited AttributeSet := ⟨empty⟩

/-- How many attributes there are. -/
def size (s : AttributeSet) : Nat := s.entries.length

/-- Whether anything is said on a matter. -/
def contains (s : AttributeSet) (kind : AttributeKind) : Bool :=
  s.entries.any fun a => a.kind = kind

/-- What is said on a matter. -/
def get? (s : AttributeSet) (kind : AttributeKind) : Option Attribute :=
  s.entries.find? fun a => a.kind = kind

theorem contains_iff {s : AttributeSet} {kind : AttributeKind} :
    s.contains kind = true ↔ kind ∈ s.entries.map Attribute.kind := by
  simp [contains]

/-- Two sets say the same when one lists the attributes of the other in some order. -/
def sameAs (s t : AttributeSet) : Bool :=
  s.entries.isPerm t.entries

/-! ## §2 The first word stands -/

/-- Add an attribute, unless its matter is already spoken of. -/
def insert (s : AttributeSet) (a : Attribute) : AttributeSet :=
  if h : s.contains a.kind then s
  else
    { entries := s.entries ++ [a]
      distinct := by
        rw [List.map_append, List.nodup_append]
        refine ⟨s.distinct, by simp, ?_⟩
        rintro kind hkind _ hlast rfl
        obtain rfl : kind = a.kind := by simpa using hlast
        exact h (contains_iff.2 hkind) }

theorem entries_insert (s : AttributeSet) (a : Attribute) :
    (s.insert a).entries = if s.contains a.kind then s.entries else s.entries ++ [a] := by
  unfold insert
  split <;> simp_all

/-- The set with further attributes under those it has. -/
def layered (s : AttributeSet) (attributes : List Attribute) : AttributeSet :=
  attributes.foldl insert s

/-- The set of the first attribute of each kind. -/
def ofList (attributes : List Attribute) : AttributeSet :=
  empty.layered attributes

/-! ## §3 The last word stands -/

/-- An attribute in the place of the one of its kind. -/
def replaceIn (entries : List Attribute) (a : Attribute) : List Attribute :=
  entries.map fun b => if b.kind = a.kind then a else b

theorem map_kind_replaceIn (entries : List Attribute) (a : Attribute) :
    (replaceIn entries a).map Attribute.kind = entries.map Attribute.kind := by
  simp only [replaceIn, List.map_map]
  refine List.map_congr_left fun b _ => ?_
  by_cases h : b.kind = a.kind <;> simp [h]

/-- Say something anew: in the place of what was said on the matter, or at the end. -/
def replace (s : AttributeSet) (a : Attribute) : AttributeSet :=
  if s.contains a.kind then
    ⟨replaceIn s.entries a, by rw [map_kind_replaceIn]; exact s.distinct⟩
  else s.insert a

theorem entries_replace (s : AttributeSet) (a : Attribute) :
    (s.replace a).entries =
      if s.contains a.kind then s.entries.map fun b => if b.kind = a.kind then a else b
      else s.entries ++ [a] := by
  unfold replace
  split
  · rfl
  · simp_all [entries_insert]

theorem contains_replace (s : AttributeSet) (a : Attribute) (kind : AttributeKind) :
    (s.replace a).contains kind = true ↔ s.contains kind = true ∨ a.kind = kind := by
  by_cases h : s.contains a.kind = true
  · -- a kind that is replaced was there before
    have hsame : (s.replace a).contains kind = true ↔ s.contains kind = true := by
      rw [contains_iff, contains_iff, replace, if_pos h, map_kind_replaceIn]
    rw [hsame]
    constructor
    · exact .inl
    · rintro (hkind | rfl)
      · exact hkind
      · exact h
  · rw [contains_iff, contains_iff, entries_replace, if_neg h, List.map_append, List.mem_append,
      List.map_singleton, List.mem_singleton, eq_comm]

/-- The set with everything that a later one says said anew. -/
def override (s later : AttributeSet) : AttributeSet :=
  later.entries.foldl replace s

theorem contains_override (s later : AttributeSet) (kind : AttributeKind) :
    (s.override later).contains kind = true ↔
      s.contains kind = true ∨ later.contains kind = true := by
  rw [contains_iff (s := later), override]
  generalize later.entries = entries
  induction entries generalizing s with
  | nil => simp
  | cons a entries ih =>
    rw [List.foldl_cons, ih, contains_replace, List.map_cons, List.mem_cons, or_assoc,
      eq_comm (a := kind)]

/-! ## §4 In words -/

/-- The attributes spelled out in order. -/
def describe (s : AttributeSet) : String :=
  "AttrSet([" ++ ", ".intercalate (s.entries.map Attribute.describe) ++ "])"

end AttributeSet

end Flowchart
