import TraceChart.Proofs.Json.Spelling
import TraceChart.Proofs.Number.Value
import TraceChart.Trace.Document

/-!
# How traces are spelled

A second account of trace documents beside the reader, from counters to JSON values. A document
has its choice at each code, event and counter, so a list of counters is written in many ways.
-/

namespace TraceChart

/-! ### Codes -/

/-- Digits without point and exponent write an integer of a word. Minus zero is not one of them:
its sign would be lost. -/
structure Numeral.Integral (numeral : Numeral) (value : Int) : Prop where
  pointless : numeral.fraction = []
  unraised : numeral.exponent = none
  reads : Binary64.signed numeral.negative (Digit.value numeral.whole) = value
  signed : ¬(numeral.negative = true ∧ value = 0)
  fits : fitsWord value = true

/-- The sign before the digits of a string, which is optional for plus. -/
inductive SignWritten : Bool → List Char → Prop
  | absent : SignWritten false []
  | plus : SignWritten false ['+']
  | minus : SignWritten true ['-']

/-- A string that holds an integer: white space, a sign, digits and white space. -/
inductive IntegerWritten : Int → String → Prop
  | parts {negative : Bool} {text : String} {before sign after : List Char} (digits : List Digit)
      (leading : ∀ char ∈ before, isBlank char = true) (signed : SignWritten negative sign)
      (written : digits ≠ []) (trailing : ∀ char ∈ after, isBlank char = true)
      (split : text.toList = before ++ (sign ++ Digit.chars digits) ++ after) :
      IntegerWritten (Binary64.signed negative (Digit.value digits)) text

/-- A code: an integer, any other number that is equal to it, or a string. -/
inductive CodeWritten (convert : Conversion) (code : Int) : Json.Value → Prop
  | integer {numeral : Numeral} (integral : numeral.Integral code) :
      CodeWritten convert code (.number numeral)
  | float {numeral : Numeral} (other : ∀ integer, ¬numeral.Integral integer)
      (finite : (convert numeral).isFinite = true) (equal : (convert numeral).value = code) :
      CodeWritten convert code (.number numeral)
  | string {text : String} (written : IntegerWritten code text) :
      CodeWritten convert code (.string (some text))

/-- Minus zero is the code zero all the same. -/
theorem CodeWritten.minusZero :
    CodeWritten .stepwise 0 (.number ⟨true, [Digit.zero], [], none⟩) := by
  have read : Conversion.stepwise ⟨true, [Digit.zero], [], none⟩ = .zero true := by decide +kernel
  apply CodeWritten.float
  · intro integer integral
    have zero : 0 = integer := integral.reads
    exact integral.signed ⟨rfl, zero.symm⟩
  · rw [read]
    rfl
  · rw [read]
    simp [Binary64.value, Binary64.zero, Binary64.signed]

/-- A time is any number that reads as it. -/
def TimeWritten (convert : Conversion) (time : Binary64) (value : Json.Value) : Prop :=
  ∃ numeral, value = .number numeral ∧ convert numeral = time

/-! ### Records -/

/-- An event: an object with its keys in either order, or an array. -/
inductive Event.Written (convert : Conversion) (event : Event Binary64) : Json.Value → Prop
  | object {code time : Json.Value} {members : List (Json.Text × Json.Value)}
      (coded : CodeWritten convert event.code code) (timed : TimeWritten convert event.time time)
      (order : members.Perm [(some "type", code), (some "value", time)]) :
      Event.Written convert event (.object members)
  | array {code time : Json.Value} (coded : CodeWritten convert event.code code)
      (timed : TimeWritten convert event.time time) :
      Event.Written convert event (.array [code, time])

/-- A counter without its name: an object with its keys in either order, where no events may be
left out, or an array. -/
inductive Counter.Written (convert : Conversion) (counter : Counter Binary64) : Json.Value → Prop
  | object {code : Json.Value} {events : List Json.Value}
      {members : List (Json.Text × Json.Value)}
      (coded : CodeWritten convert counter.category.code code)
      (listed : List.Forall₂ (Event.Written convert) counter.events events)
      (order : members.Perm [(some "counter type", code), (some "events", .array events)]) :
      Counter.Written convert counter (.object members)
  | withoutEvents {code : Json.Value} (coded : CodeWritten convert counter.category.code code)
      (none_recorded : counter.events = []) :
      Counter.Written convert counter (.object [(some "counter type", code)])
  | array {code : Json.Value} {events : List Json.Value}
      (coded : CodeWritten convert counter.category.code code)
      (listed : List.Forall₂ (Event.Written convert) counter.events events) :
      Counter.Written convert counter (.array [code, .array events])

/-- A list of counters: one object, with a member for each of them in their order. -/
inductive CountersWritten (convert : Conversion) (counters : List (Counter Binary64)) :
    Json.Value → Prop
  | object {members : List (Json.Text × Json.Value)}
      (entries : List.Forall₂
        (fun counter member =>
          member.1 = some counter.name ∧ Counter.Written convert counter member.2)
        counters members) :
      CountersWritten convert counters (.object members)

end TraceChart
