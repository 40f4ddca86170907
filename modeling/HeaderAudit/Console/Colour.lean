/-!
# Colour — terminal colours in messages

A coloured text stands between a sequence that sets a colour and one that ends it.  Colours are
asked for, refused, or left to what standard error is found to show; how that is found out is no
part of this library.
-/

namespace HeaderAudit

/-- When to use colours. -/
inductive ColourChoice
  | auto
  | never
  | always
deriving DecidableEq, Repr

namespace ColourChoice

def name : ColourChoice → String
  | .auto => "auto"
  | .never => "never"
  | .always => "always"

def all : List ColourChoice :=
  [.auto, .never, .always]

/-- The decision, where it is known whether standard error is found to support colours. -/
def isOn (supported : Bool) : ColourChoice → Bool
  | .auto => supported
  | .never => false
  | .always => true

end ColourChoice

inductive Colour
  | red
  | green
  | yellow
  | dimmed
deriving DecidableEq, Repr

namespace Colour

def start : Colour → String
  | .red => "\x1b[31m"
  | .green => "\x1b[32m"
  | .yellow => "\x1b[33m"
  | .dimmed => "\x1b[2m"

def stop : Colour → String
  | .red => "\x1b[39m"
  | .green => "\x1b[39m"
  | .yellow => "\x1b[39m"
  | .dimmed => "\x1b[0m"

def paint (coloured : Bool) (colour : Colour) (s : String) : String :=
  if coloured then colour.start ++ s ++ colour.stop else s

end Colour
end HeaderAudit
