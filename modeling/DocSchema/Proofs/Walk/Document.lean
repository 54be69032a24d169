import DocSchema.Check.Validate
import DocSchema.Proofs.Json.Distinct
import DocSchema.Proofs.Walk.Equivariance

/-!
Validations and the walk.

A document that can be read is a value in which no object has a key twice
(`Document.distinct_of_read`), and a validation of it is one walk over that value from the root type,
with the root in front of each path (`Catalog.validate_of_read`).
-/

namespace DocSchema

/-- No object of a document that is handed over as a value has a key twice. -/
def Document.Distinct : Document → Prop
  | .value v => v.Distinct
  | _ => True

theorem distinct_of_readStrict {text : String} {v : Json} (h : readStrict text = .ok v) :
    v.Distinct := by
  simp only [readStrict] at h
  cases hr : Json.read true text with
  | error e => rw [hr] at h; cases h
  | ok u => rw [hr] at h; cases h; exact Json.distinct_of_read hr

theorem Document.distinct_of_read {document : Document} {v : Json} (hd : document.Distinct)
    (h : document.read = .ok v) : v.Distinct := by
  cases document with
  | text s => exact distinct_of_readStrict h
  | octets bytes =>
    simp only [Document.read, readOctets] at h
    split at h
    · exact distinct_of_readStrict h
    · cases h
  | value u =>
    cases u with
    | string s => exact distinct_of_readStrict h
    | null | bool _ | number _ | array _ | object _ => cases h; exact hd

/-- A document that is read is checked against the root type by one walk, unless there is none. -/
theorem Catalog.validate_of_read {c : Catalog} {document : Document} {root v : Json}
    (h : document.read = .ok v) : c.validate (m := Except Fault) document root =
      match c.resolveRoot root with
      | .ok name => (c.outcome (c.budget (.named (.string name) []) (some v))
          ⟨.named (.string name) [], some v, some v⟩).under rootPath
      | .error (.fault f) => .error f
      | .error e => .ok [⟨rootPath, .unknownType, e.message?.getD ""⟩] := by
  simp only [validate, h]
  cases c.resolveRoot root with
  | error e => cases e <;> rfl
  | ok name =>
    simp only [checkDocument, checkSlot_eq, Scope.subject_atRoot]
    -- the remark at the end changes nothing
    cases c.outcome (c.budget (.named (.string name) []) (some v))
      ⟨.named (.string name) [], some v, some v⟩ <;> rfl

end DocSchema
