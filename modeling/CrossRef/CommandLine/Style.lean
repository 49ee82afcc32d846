/-!
Styles of output on terminals.
-/
namespace CrossRef
namespace CommandLine

inductive Style
  | green
  | red
  | cyan
  | dimmed
  | boldGreen
  | boldRed
  deriving DecidableEq, Repr, Inhabited

namespace Style

def code : Style → String
  | green => "32"
  | red => "31"
  | cyan => "36"
  | dimmed => "2"
  | boldGreen => "1;32"
  | boldRed => "1;31"

/-- A text in a style, if output is coloured. -/
def paint (style : Style) (isColored : Bool) (text : String) : String :=
  if isColored then "\x1b[" ++ style.code ++ "m" ++ text ++ "\x1b[0m" else text

end Style
end CommandLine
end CrossRef
