/-!
# Paths

The text of a path, taken apart without a look at any file: its names, the part in front
of its last name, and its normal form.
-/

namespace Flowchart.Path

/-! ## §1 Names -/

/-- The pieces of a text between slashes, empty ones included. -/
def pieces : List Char → List (List Char)
  | [] => [[]]
  | c :: cs =>
    if c == '/' then [] :: pieces cs
    else
      match pieces cs with
      | [] => [[c]]
      | piece :: rest => (c :: piece) :: rest

/-- The names along a path; slashes in a row count as one. -/
def names (path : List Char) : List String :=
  ((pieces path).filter (· ≠ [])).map String.ofList

/-- Whether a path starts at the root. -/
def isAbsolute (path : List Char) : Bool :=
  path.head? == some '/'

/-- Whether a path ends in a slash, and so can only name a directory. -/
def endsInSlash (path : List Char) : Bool :=
  path.getLast? == some '/'

/-! ## §2 The part in front of the last name -/

/-- Drop the slashes at the end, unless nothing else is left. -/
def dropFinalSlashes (path : List Char) : List Char :=
  if path.all (· == '/') then path else (path.reverse.dropWhile (· == '/')).reverse

/-- What stands after the last slash. -/
def lastName (path : List Char) : List Char :=
  (path.reverse.takeWhile (· ≠ '/')).reverse

/-- What stands in front of the last name, without the slash between them. -/
def directory (path : List Char) : List Char :=
  dropFinalSlashes (path.reverse.dropWhile (· ≠ '/')).reverse

theorem length_dropFinalSlashes_le (path : List Char) :
    (dropFinalSlashes path).length ≤ path.length := by
  unfold dropFinalSlashes
  split
  · exact Nat.le_refl _
  · simpa using (List.dropWhile_suffix _ (l := path.reverse)).length_le

theorem length_directory_add_lastName_le (path : List Char) :
    (directory path).length + (lastName path).length ≤ path.length := by
  have hsplit := congrArg List.length
    (List.takeWhile_append_dropWhile (p := (· ≠ '/')) (l := path.reverse))
  have hdrop := length_dropFinalSlashes_le (path.reverse.dropWhile (· ≠ '/')).reverse
  simp only [List.length_append, List.length_reverse] at hsplit hdrop
  simp only [directory, lastName, List.length_reverse]
  omega

/-! ## §3 Normal form -/

/-- Follow one name without looking at files: a point stays, two points go back. -/
def followName (here : List String) (name : String) : List String :=
  if name = "." then here
  else if name = ".." then here.dropLast
  else here ++ [name]

/-- The slashes in front of a path from the root: two stay two, and else there is one. -/
def rootSlashes (path : List Char) : String :=
  if path.takeWhile (· == '/') == ['/', '/'] then "//" else "/"

/-- The absolute path that a path stands for, without points and repeated slashes.
    `workingDirectory` is where a path starts that does not start at the root. -/
def absolute (workingDirectory : List String) (path : List Char) : String :=
  if isAbsolute path then
    rootSlashes path ++ "/".intercalate ((names path).foldl followName [])
  else
    "/" ++ "/".intercalate ((names path).foldl followName workingDirectory)

end Flowchart.Path
