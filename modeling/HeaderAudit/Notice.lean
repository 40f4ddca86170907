import HeaderAudit.CommentStyle
import HeaderAudit.Text.Blank
import HeaderAudit.Text.Newline

/-!
# Notice — the license header itself

The notice is a fixed text between two rules, each line of it a comment.  This file defines its
twelve lines in either style and `Notice.opens`, the test that a file begins with them: line breaks
are unified, blanks around the text do not count, and whatever comes after the notice is free.
-/

namespace HeaderAudit
namespace Notice

/-- What the notice says, without comment marks. -/
def wording : List String :=
  ["Copyright (c) 2025, Modular Inc. All rights reserved.",
    "",
    "Licensed under the Apache License v2.0 with LLVM Exceptions:",
    "https://llvm.org/LICENSE.txt",
    "",
    "Unless required by applicable law or agreed to in writing, software",
    "distributed under the License is distributed on an \"AS IS\" BASIS,",
    "WITHOUT WARRANTIES OR CONDITIONS OF ANY KIND, either express or implied.",
    "See the License for the specific language governing permissions and",
    "limitations under the License."]

/-- The line above and below the wording. -/
def rule : CommentStyle → String
  | .slashes => "//===----------------------------------------------------------------------===//"
  | .hash => "# ===----------------------------------------------------------------------=== #"

/-- An empty line of the wording is the bare comment mark. -/
def comment (style : CommentStyle) (line : String) : List Char :=
  if line.isEmpty then style.leader.toList else style.leader.toList ++ ' ' :: line.toList

def lines (style : CommentStyle) : List (List Char) :=
  (rule style).toList :: wording.map (comment style) ++ [(rule style).toList]

/-- The lines with a line feed between each two. -/
def chars (style : CommentStyle) : List Char :=
  ['\n'].intercalate (lines style)

def text (style : CommentStyle) : String :=
  String.ofList (chars style)

/-- The content begins with the notice, up to line breaks and blanks in front. -/
def opens (style : CommentStyle) (content : String) : Bool :=
  (chars style).isPrefixOf (Blank.trim (Newline.unify content.toList))

theorem length_lines (style : CommentStyle) : (lines style).length = 12 := by
  cases style <;> rfl

theorem opens_iff {style : CommentStyle} {content : String} :
    opens style content ↔ chars style <+: Blank.trim (Newline.unify content.toList) :=
  List.isPrefixOf_iff_prefix

end Notice
end HeaderAudit
