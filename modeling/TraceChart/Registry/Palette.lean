/-!
Palettes: which color an event or category name is drawn in.
-/

namespace TraceChart

/-- Names with their colors. The first entry of a name counts. -/
structure Palette where
  entries : List (String × String)
deriving DecidableEq, Repr

namespace Palette

def color? (palette : Palette) (name : String) : Option String :=
  palette.entries.lookup name

/-- The palette of every marker and category. -/
def standard : Palette where
  entries :=
    [("SYS_TIMER", "lightslategray"),
      ("SU_TIMER", "peachpuff"),
      ("MEM_TIMER", "midnightblue"),
      ("CU_TIMER", "mediumseagreen"),
      ("SYS_START", "lightgray"),
      ("SYS_END", "yellow"),
      ("SU_START", "thistle"),
      ("SU_END", "firebrick"),
      ("FETCH_DECODE_INSTRUCTION", "mediumblue"),
      ("DISPATCH_INSTRUCTION", "blue"),
      ("EXECUTE_CONTROL_INSTRUCTION", "darkblue"),
      ("EXECUTE_ARITH_INSTRUCTION", "black"),
      ("SU_IDLE", "whitesmoke"),
      ("MEM_START", "silver"),
      ("MEM_END", "teal"),
      ("MEM_EXECUTION", "yellowgreen"),
      ("MEM_IDLE", "palevioletred"),
      ("CU_START", "mediumaquamarine"),
      ("CU_END", "linen"),
      ("CU_EXECUTION", "darkviolet"),
      ("CU_IDLE", "darkslateblue")]

end Palette

end TraceChart
