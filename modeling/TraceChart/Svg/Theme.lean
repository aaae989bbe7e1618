import TraceChart.Chart.Drawing

/-!
The colors of SVG drawings: two themes for the roles, and the colors of the texts inside bars.
-/

namespace TraceChart.Svg

inductive Theme where
  | light
  | dark
deriving DecidableEq, Repr

def Theme.color : Theme → Token → String
  | .dark, .background => "#1a1a2e"
  | .dark, .border => "#303030"
  | .dark, .laneBorder => "#303030"
  | .dark, .laneBackground => "#181818"
  | .dark, .laneHeaderBackground => "#242424"
  | .dark, .textPrimary => "#ececec"
  | .dark, .laneHeaderText => "#ececec"
  | .dark, .textMuted => "#9e9e9e"
  | .dark, .placeholder => "#616161"
  | .dark, .selectionHighlight => "#448aff"
  | .light, .background => "#ffffff"
  | .light, .border => "#dee2e6"
  | .light, .laneBorder => "#dee2e6"
  | .light, .laneBackground => "#f8f9fa"
  | .light, .laneHeaderBackground => "#eef0f2"
  | .light, .textPrimary => "#1a1a2e"
  | .light, .laneHeaderText => "#1a1a2e"
  | .light, .textMuted => "#666677"
  | .light, .placeholder => "#999999"
  | .light, .selectionHighlight => "#ffd60a"

/-- A role has the color of the theme, a named color is used as it is. -/
def Theme.paint (theme : Theme) : Paint → String
  | .token token => theme.color token
  | .named name => name

/-- The palette colors on which dark text would not be readable. -/
def deepColors : List String :=
  ["black", "blue", "darkblue", "mediumblue", "midnightblue", "darkviolet", "darkslateblue",
    "firebrick", "teal"]

/-- The color of a text on a fill. -/
def Theme.inkOn (theme : Theme) : Paint → String
  | .token _ => theme.color .textPrimary
  | .named name => if name ∈ deepColors then "#ffffff" else "#1a1a2e"

end TraceChart.Svg
