/-!
Diagnostics: what is wrong with a document, where, and of which sort.

A code says what is wrong and belongs to one category. A `Report` is the ordered list of the
diagnostics of one validation, to which entries are only ever added.
-/

namespace DocSchema

/-- The sorts of diagnostics. -/
inductive Category where
  | parse
  | type
  | validation
  | semantic
  deriving DecidableEq

/-- The categories in the order in which a report card lists them. -/
def Category.all : List Category := [.parse, .type, .validation, .semantic]

def Category.name : Category → String
  | .parse => "ParseError"
  | .type => "TypeError"
  | .validation => "ValidationError"
  | .semantic => "SemanticError"

/-- What a diagnostic says. -/
inductive Code where
  | invalidExpression
  | unknownType
  | typeMismatch
  | fieldMissing
  | fieldMustBeAbsent
  | unknownConstraint
  | constraintViolation
  | validatorFailed
  deriving DecidableEq

namespace Code

def all : List Code :=
  [.invalidExpression, .unknownType, .typeMismatch, .fieldMissing, .fieldMustBeAbsent,
    .unknownConstraint, .constraintViolation, .validatorFailed]

def name : Code → String
  | .invalidExpression => "InvalidExpression"
  | .unknownType => "UnknownType"
  | .typeMismatch => "TypeMismatch"
  | .fieldMissing => "FieldMissing"
  | .fieldMustBeAbsent => "FieldMustBeAbsent"
  | .unknownConstraint => "UnknownConstraint"
  | .constraintViolation => "ConstraintViolation"
  | .validatorFailed => "ValidatorFailed"

def ofName? (n : String) : Option Code := all.find? (·.name = n)

def category : Code → Category
  | .invalidExpression => .parse
  | .unknownType => .type
  | .typeMismatch => .type
  | .fieldMissing => .validation
  | .fieldMustBeAbsent => .validation
  | .unknownConstraint => .semantic
  | .constraintViolation => .validation
  | .validatorFailed => .validation

end Code

/-- One finding: where, what, and in words. -/
structure Diagnostic where
  path : String
  code : Code
  message : String
  deriving DecidableEq

namespace Diagnostic

def category (d : Diagnostic) : Category := d.code.category

/-- The one-line form. -/
def line (d : Diagnostic) : String := s!"{d.path}: {d.message}"

end Diagnostic

/-- The diagnostics of one validation, in the order in which they were reported. -/
structure Report where
  entries : List Diagnostic
  deriving DecidableEq

namespace Report

def empty : Report := ⟨[]⟩

def add (r : Report) (d : Diagnostic) : Report := ⟨r.entries ++ [d]⟩

/-- Adds diagnostics one after another. -/
def addAll (r : Report) (ds : List Diagnostic) : Report := ds.foldl add r

def size (r : Report) : Nat := r.entries.length

def isEmpty (r : Report) : Bool := r.entries.isEmpty

def last? (r : Report) : Option Diagnostic := r.entries.getLast?

end Report

end DocSchema
