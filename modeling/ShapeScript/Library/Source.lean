/-
ShapeScript.Library.Source — the text of the builtin shape library.

The builtin shapes are written in the language itself and are read by the
same scanner and parser as everybody's. Each turns its parameters into
the attributes of one element.
-/
namespace ShapeScript

/-- The source of the builtin shapes `circle`, `rect`, `ellipse` and
`line`. -/
def builtinSource : String :=
  "shape circle(\n"
    ++ "  cx=0,\n"
    ++ "  cy=0,\n"
    ++ "  r=10,\n"
    ++ "  fill=\"hotpink\",\n"
    ++ "  stroke=\"none\",\n"
    ++ "  strokeWidth=0) \x7b\n"
    ++ "\n"
    ++ "  svg(value: \"<circle cx='\" + cx + \"' cy='\" + cy + \"' r='\" + r + \"' fill='\" + fill + \"' stroke='\" + stroke + \"' stroke-width='\" + strokeWidth + \"'/>\")\n"
    ++ "\x7d\n"
    ++ "\n"
    ++ "shape rect(\n"
    ++ "  x=0,\n"
    ++ "  y=0,\n"
    ++ "  width=10,\n"
    ++ "  height=10,\n"
    ++ "  fill=\"hotpink\",\n"
    ++ "  stroke=\"none\",\n"
    ++ "  strokeWidth=0) \x7b\n"
    ++ "\n"
    ++ "  svg(value: \"<rect x='\" + x + \"' y='\" + y + \"' width='\" + width + \"' height='\" + height + \"' fill='\" + fill + \"' stroke='\" + stroke + \"' stroke-width='\" + strokeWidth + \"'/>\")\n"
    ++ "\x7d\n"
    ++ "\n"
    ++ "shape ellipse(\n"
    ++ "  cx=0,\n"
    ++ "  cy=0,\n"
    ++ "  rx=10,\n"
    ++ "  ry=5,\n"
    ++ "  fill=\"hotpink\",\n"
    ++ "  stroke=\"none\",\n"
    ++ "  strokeWidth=0) \x7b\n"
    ++ "\n"
    ++ "  svg(value: \"<ellipse cx='\" + cx + \"' cy='\" + cy + \"' rx='\" + rx + \"' ry='\" + ry + \"' fill='\" + fill + \"' stroke='\" + stroke + \"' stroke-width='\" + strokeWidth + \"'/>\")\n"
    ++ "\x7d\n"
    ++ "\n"
    ++ "shape line(\n"
    ++ "  x1=0,\n"
    ++ "  y1=0,\n"
    ++ "  x2=10,\n"
    ++ "  y2=10,\n"
    ++ "  stroke=\"black\",\n"
    ++ "  strokeWidth=1) \x7b\n"
    ++ "\n"
    ++ "  svg(value: \"<line x1='\" + x1 + \"' y1='\" + y1 + \"' x2='\" + x2 + \"' y2='\" + y2 + \"' stroke='\" + stroke + \"' stroke-width='\" + strokeWidth + \"'/>\")\n"
    ++ "\x7d\n"

end ShapeScript
