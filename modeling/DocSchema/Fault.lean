/-!
Faults: the ways an evaluation can break off without an answer.

A fault is not a diagnostic. Diagnostics say that a document does not conform; a fault says that a
number, a pattern or a name of the wrong kind met an operation that has no answer for it.
-/

namespace DocSchema

/-- Why an evaluation broke off. -/
inductive Fault where
  /-- A number, or a repeat count, beyond what its operation can hold. -/
  | tooLarge
  /-- A quotient that is not a number had to be rounded. -/
  | notANumber
  /-- An integer written with more digits than are read. -/
  | tooManyDigits (count : Nat)
  /-- A pattern that asks for two incompatible character sets at once. -/
  | conflictingModes
  /-- An array or object stood where a key is looked up. -/
  | unkeyable
  /-- A number or true stood where a list of arguments is read. -/
  | notIterable
  /-- Something that is no type node was handed over as one. -/
  | notANode (kind path : String)
  /-- Something that is neither text nor a container was handed over as a document. -/
  | notADocument (kind : String)
  /-- References were followed further than any well-founded schema needs. -/
  | exhausted
  deriving DecidableEq

/-- The most digits an integer may be written with. -/
def digitLimit : Nat := 4300

namespace Fault

/-- What a fault has to say, where it says anything. -/
def message? : Fault → Option String
  | .notANumber => some "cannot convert float NaN to integer"
  | .tooManyDigits count =>
    some s!"Exceeds the limit ({digitLimit} digits) for integer string conversion: value has {count} digits; use sys.set_int_max_str_digits() to increase the limit"
  | .conflictingModes => some "ASCII and UNICODE flags are incompatible"
  | .notANode kind path => some s!"unsupported type node {kind} at {path}"
  | .notADocument kind => some s!"Unsupported type for load_json_input: <class '{kind}'>"
  | _ => none

/-- Faults in a value, as opposed to misuse of a name or a limit of the arithmetic. -/
def inValue : Fault → Bool
  | .notANumber | .tooManyDigits _ | .conflictingModes => true
  | _ => false

end Fault

end DocSchema
