import DocSchema.Json.Basic

/-!
Equality of JSON values in kind and value.

Numbers are equal if they stand at the same place, so `1` equals `1.0` and NaN equals nothing;
`true` never equals `1`. Arrays compare item by item, objects key by key in any order.
-/

namespace DocSchema.Json

mutual

/-- Equal in kind and value. -/
def same : Json → Json → Bool
  | .null, .null => true
  | .bool a, .bool b => a == b
  | .number a, .number b => a.eq b
  | .string a, .string b => a == b
  | .array as, .array bs => sameItems as bs
  | .object fs, .object gs => fs.length == gs.length && sameFields fs gs
  | _, _ => false

/-- Equal item by item. -/
def sameItems : List Json → List Json → Bool
  | [], [] => true
  | a :: as, b :: bs => same a b && sameItems as bs
  | _, _ => false

/-- Every key on the left has an equal value on the right. -/
def sameFields : List (String × Json) → List (String × Json) → Bool
  | [], _ => true
  | (k, a) :: fs, gs =>
    match lookup k gs with
    | some b => same a b && sameFields fs gs
    | none => false

end

end DocSchema.Json
