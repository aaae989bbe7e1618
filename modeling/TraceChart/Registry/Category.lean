/-!
Counter categories and the markers that their events can carry. Each category has a closed list
of markers; an event code is an index into the list of its counter's category.
-/

namespace TraceChart

/-- The kind of hardware unit that a counter instruments. -/
inductive Category where
  | system
  | schedulingUnit
  | memoryUnit
  | computeUnit
deriving DecidableEq, Repr

/-- What an event code stands for. -/
structure Marker where
  name : String
  /-- Start, end and idle markers open no interval. -/
  boundary : Bool
deriving DecidableEq, Repr

namespace Category

def all : List Category :=
  [.system, .schedulingUnit, .memoryUnit, .computeUnit]

/-- The number of a category in a trace. -/
def code : Category → Int
  | .system => 0
  | .schedulingUnit => 1
  | .memoryUnit => 2
  | .computeUnit => 3

def ofCode? (code : Int) : Option Category :=
  all.find? fun category => category.code == code

def name : Category → String
  | .system => "SYS_TIMER"
  | .schedulingUnit => "SU_TIMER"
  | .memoryUnit => "MEM_TIMER"
  | .computeUnit => "CU_TIMER"

/-- The markers of a category in the order of their codes. -/
def markers : Category → List Marker
  | .system => [⟨"SYS_START", true⟩, ⟨"SYS_END", true⟩]
  | .schedulingUnit =>
    [⟨"SU_START", true⟩, ⟨"SU_END", true⟩, ⟨"FETCH_DECODE_INSTRUCTION", false⟩,
      ⟨"DISPATCH_INSTRUCTION", false⟩, ⟨"EXECUTE_CONTROL_INSTRUCTION", false⟩,
      ⟨"EXECUTE_ARITH_INSTRUCTION", false⟩, ⟨"SU_IDLE", true⟩]
  | .memoryUnit =>
    [⟨"MEM_START", true⟩, ⟨"MEM_END", true⟩, ⟨"MEM_EXECUTION", false⟩, ⟨"MEM_IDLE", true⟩]
  | .computeUnit =>
    [⟨"CU_START", true⟩, ⟨"CU_END", true⟩, ⟨"CU_EXECUTION", false⟩, ⟨"CU_IDLE", true⟩]

def marker? (category : Category) (code : Int) : Option Marker :=
  if 0 ≤ code then category.markers[code.toNat]? else none

end Category

end TraceChart
