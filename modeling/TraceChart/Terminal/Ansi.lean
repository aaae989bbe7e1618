import TraceChart.Terminal.Screen
import TraceChart.Terminal.Viewer

/-!
Screens as sequences for a terminal, and what a terminal sends for keys.
-/

namespace TraceChart.Terminal

/-- The parameters that select a color, the first of which tells ink from ground. -/
def Color.parameters (ground : Bool) : Color → String
  | .reset => if ground then "49" else "39"
  | color =>
    let layer := if ground then "48" else "38"
    match color with
    | .rgb red green blue => s!"{layer};2;{red};{green};{blue}"
    | .black => s!"{layer};5;0"
    | .gray => s!"{layer};5;7"
    | .darkGray => s!"{layer};5;8"
    | .lightYellow => s!"{layer};5;11"
    | _ => s!"{layer};5;15"

def Cell.sequence (cell : Cell) : String :=
  s!"\x1b[{cell.ink.parameters false};{cell.ground.parameters true}m" ++
    String.ofList cell.text

/-- A row of cells, without those that are covered. -/
def rowSequence (covered : Nat) : List Cell → String
  | [] => ""
  | cell :: cells =>
    if covered = 0 then cell.sequence ++ rowSequence (cell.text.columns - 1) cells
    else rowSequence (covered - 1) cells

def Screen.sequence (screen : Screen) : String :=
  "\x1b[2J\x1b[H" ++ "\r\n".intercalate (screen.rows.map (rowSequence 0)) ++ "\x1b[0m"

/-- The inputs that a line of characters stands for. The end of the line is none. -/
def Input.ofChars : List Char → List Input
  | '\x1b' :: '[' :: 'A' :: rest => .up :: ofChars rest
  | '\x1b' :: '[' :: 'B' :: rest => .down :: ofChars rest
  | '\x1b' :: '[' :: 'C' :: rest => .right :: ofChars rest
  | '\x1b' :: '[' :: 'D' :: rest => .left :: ofChars rest
  | '\n' :: rest => ofChars rest
  | key :: rest => .ofChar key :: ofChars rest
  | [] => []

end TraceChart.Terminal
