import TraceChart.Chart.Drawing

/-!
The colors of terminal cells. Roles take a color that the terminal names; palette names take their
red, green and blue parts.
-/

namespace TraceChart.Terminal

inductive Color where
  /-- What the terminal shows where nothing is drawn. -/
  | reset
  | black
  | white
  | gray
  | darkGray
  | lightYellow
  | rgb (red green blue : UInt8)
deriving DecidableEq, Repr

namespace Color

def ofToken : Token → Color
  | .background => .black
  | .laneBackground => .black
  | .border => .darkGray
  | .laneBorder => .darkGray
  | .laneHeaderBackground => .darkGray
  | .laneHeaderText => .white
  | .textPrimary => .white
  | .textMuted => .gray
  | .placeholder => .gray
  | .selectionHighlight => .lightYellow

def named : List (String × Color) :=
  [("lightslategray", .rgb 119 136 153),
    ("peachpuff", .rgb 255 218 185),
    ("midnightblue", .rgb 25 25 112),
    ("mediumseagreen", .rgb 60 179 113),
    ("lightgray", .rgb 211 211 211),
    ("yellow", .rgb 255 255 0),
    ("thistle", .rgb 216 191 216),
    ("firebrick", .rgb 178 34 34),
    ("mediumblue", .rgb 0 0 205),
    ("blue", .rgb 0 0 255),
    ("darkblue", .rgb 0 0 139),
    ("black", .rgb 0 0 0),
    ("whitesmoke", .rgb 245 245 245),
    ("silver", .rgb 192 192 192),
    ("teal", .rgb 0 128 128),
    ("yellowgreen", .rgb 154 205 50),
    ("palevioletred", .rgb 219 112 147),
    ("mediumaquamarine", .rgb 102 205 170),
    ("linen", .rgb 250 240 230),
    ("darkviolet", .rgb 148 0 211),
    ("darkslateblue", .rgb 72 61 139)]

/-- A name that is not in the palette is gray. -/
def ofName (name : String) : Color :=
  (named.lookup name).getD .gray

def ofPaint : Paint → Color
  | .token token => ofToken token
  | .named name => ofName name

end Color

end TraceChart.Terminal
