/-!
# Help — what the program says about itself

The help text comes as a summary, with one line per option, and in full, with a paragraph per
option.  Both are laid out from the same entries.
-/

namespace HeaderAudit
namespace Help

/-! ## Entries -/

/-- An argument or an option, with its line in the summary and its paragraphs in the full text. -/
structure Entry where
  spelling : String
  brief : String
  full : List (List String)
deriving DecidableEq, Repr

/-- An entry with the same text in both forms. -/
def Entry.plain (spelling text : String) : Entry :=
  ⟨spelling, text, [[text]]⟩

def title : String := "headercheck v0.1.0"

def versionLine : String := "headercheck 0.1.0"

def purpose : String :=
  "A pre-commit hook that verifies staged source files begin with the project's exact license " ++
    "header block."

def usage : String := "Usage: headercheck [OPTIONS] [PATH]..."

def paths : Entry :=
  Entry.plain "  [PATH]..."
    ("Files to check, usually the staged files passed by the hook runner. Only `.js`, `.ts` and " ++
      "`.mjs` files are checked unless --all-families is given")

def options : List Entry :=
  [Entry.plain "      --all-families"
      "Also check `.py`, `.mojo` and `.yaml` files against the `#` header",
    Entry.plain "      --keep-going"
      "Report unreadable files as failures instead of aborting the run",
    Entry.plain "      --report-json <OUTPUT>"
      "Write a JSON report of every checked file to the specified path",
    Entry.plain "  -v, --verbose..." "Increase verbosity (-v info, -vv debug, -vvv trace)",
    Entry.plain "  -q, --quiet" "Suppress all diagnostics. The failure list is still printed",
    ⟨"      --colors [<WHEN>]",
      "Control when to use colored output (auto, never, always) [default: auto] " ++
        "[possible values: auto, never, always]",
      [["Control when to use colored output (auto, never, always)"],
        ["Possible values:",
          "- auto:   Automatically determine whether to use colors based on TTY detection",
          "- never:  Never use colors",
          "- always: Always use colors",
          "",
          "[default: auto]"]]⟩,
    ⟨"  -h, --help", "Print help (see more with '--help')",
      [["Print help (see a summary with '-h')"]]⟩,
    Entry.plain "  -V, --version" "Print version"]

def examples : List String :=
  ["Examples:",
    "  # Check the files staged for commit (what pre-commit passes)",
    "  headercheck extension/client.ts extension/server/index.js",
    "",
    "  # Also check Python, Mojo and YAML files",
    "  headercheck --all-families tools/gen.py ci/build.yaml",
    "",
    "  # Report unreadable files instead of aborting, and write a JSON report",
    "  headercheck --keep-going --report-json headers.json $(git diff --name-only --cached)"]

/-! ## Layout -/

/-- The text filled up with blanks to the given width. -/
def padTo (width : Nat) (s : String) : String :=
  s ++ String.ofList (List.replicate (width - s.length) ' ')

/-- One line, the description beginning at the given column. -/
def briefLine (column : Nat) (e : Entry) : String :=
  padTo column e.spelling ++ e.brief

def indent (line : String) : String :=
  "          " ++ line

/-- The spelling on a line of its own and indented paragraphs below it. -/
def fullLines (e : Entry) : List String :=
  e.spelling :: ["\n\n".intercalate
    (e.full.map fun paragraph => "\n".intercalate (paragraph.map indent))]

def briefOptions : List String :=
  options.map (briefLine 30)

def fullOptions : List String :=
  ["\n\n".intercalate (options.map fun e => "\n".intercalate (fullLines e))]

/-- The help text, in full or as a summary. -/
def lines (full : Bool) : List String :=
  [title, "", purpose, "", usage, "", "Arguments:"] ++
    (if full then fullLines paths else [briefLine 13 paths]) ++
    ["", "Options:"] ++ (if full then fullOptions else briefOptions) ++ [""] ++ examples

end Help
end HeaderAudit
