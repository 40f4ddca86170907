import HeaderAudit.Path.Basic

/-!
# CommentStyle — which files carry which kind of line comment

A license header is written in line comments, and the ending of a file's name decides which ones.
This file defines the two styles, the table from endings to styles, and `CommentStyle.ofPath?`, the
style of a path.  A path whose ending is not in the table has no style and owes no header.
-/

namespace HeaderAudit

inductive CommentStyle
  | slashes
  | hash
deriving DecidableEq, Repr

namespace CommentStyle

def name : CommentStyle → String
  | .slashes => "c-style"
  | .hash => "hash"

/-- What begins a comment line. -/
def leader : CommentStyle → String
  | .slashes => "//"
  | .hash => "#"

/-- Endings are matched exactly, upper and lower case apart. -/
def extensions : List (String × CommentStyle) :=
  [("js", .slashes), ("ts", .slashes), ("mjs", .slashes),
    ("py", .hash), ("mojo", .hash), ("yaml", .hash)]

def ofExtension? (ext : Bytes) : Option CommentStyle :=
  (extensions.find? fun entry => Utf8.encode entry.1 = ext).map (·.2)

def ofPath? (p : Path) : Option CommentStyle :=
  p.extension?.bind ofExtension?

/-- The endings of one style, each with its dot. -/
def endings (style : CommentStyle) : List String :=
  (extensions.filter fun entry => entry.2 = style).map ("." ++ ·.1)

end CommentStyle
end HeaderAudit
