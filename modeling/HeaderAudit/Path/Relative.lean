import HeaderAudit.Path.Basic

/-!
# Relative — one directory seen from another

`walk root path` gives the segments that lead from the directory `root` to `path`, both taken from
the file system's root.  Common segments in front cancel; then every segment left in `root` costs a
`..`, and the rest of `path` follows.  There is no answer where the first segment left in `root` is
itself a `..` that has to be undone on the way to something else.

`walk_append` says that below the root the way is what is left of the path.
-/

namespace HeaderAudit
namespace Route

/-- As many steps up as the given directory has segments. -/
def climb (root : List Segment) : List Segment :=
  root.map fun _ => Segment.parent

def walk : List Segment → List Segment → Option (List Segment)
  | [], path => some path
  | r :: root, [] => some (climb (r :: root))
  | r :: root, s :: path =>
      if s = r then walk root path
      else if r = Segment.parent then none
      else some (climb (r :: root) ++ s :: path)

/-- The route seen from a root.  Only absolute routes change, and only under an absolute root. -/
def relativeTo (root path : Route) : Option Route :=
  if path.absolute ∧ root.absolute then (walk root.segments path.segments).map (⟨false, ·⟩)
  else some path

theorem walk_append (root rest : List Segment) : walk root (root ++ rest) = some rest := by
  induction root with
  | nil => rfl
  | cons r root ih => simp [walk, ih]

end Route
end HeaderAudit
