import DocSchema.Json.Basic

/-!
The sample schema that comes with the library: posts with authors and tags.
-/

namespace DocSchema.Sample

/-- The file name under which the sample is found. -/
def fileName : String := "example.json"

/-- An integer in a range, 1 to 99, that is odd. -/
def oddRangedInt : Json :=
  .object [
    ("kind", .string "named"),
    ("name", .string "Int"),
    ("constraints", .array [
      .object [("name", .string "range"), ("args", .array [.string "1", .string "99"])],
      .object [("name", .string "odd")]])]

/-- Words of lower case letters and digits, joined by hyphens. -/
def slug : Json :=
  .object [
    ("kind", .string "named"),
    ("name", .string "String"),
    ("constraints", .array [
      .object [
        ("name", .string "pattern"),
        ("args", .array [.string "'^[a-z0-9]+(-[a-z0-9]+)*$'"])]])]

/-- One of three words. -/
def status : Json :=
  .object [
    ("kind", .string "union"),
    ("members", .array [
      .object [("kind", .string "literal"), ("value", .string "Draft")],
      .object [("kind", .string "literal"), ("value", .string "Published")],
      .object [("kind", .string "literal"), ("value", .string "Rejected")]])]

/-- A text that is not empty. -/
def tag : Json :=
  .object [
    ("kind", .string "named"),
    ("name", .string "String"),
    ("constraints", .array [.object [("name", .string "min"), ("argument", .int 1)]])]

/-- A record of a person. -/
def author : Json :=
  .object [
    ("kind", .string "record"),
    ("fields", .array [
      .object [("name", .string "name"), ("type", .string "String")],
      .object [
        ("name", .string "email"),
        ("type", .object [("kind", .string "nullableNamed"), ("name", .string "String")])],
      .object [("name", .string "url"), ("type", .string "String"), ("optional", .bool true)]])]

/-- A record of a post, which has a reason only if it was rejected. -/
def post : Json :=
  .object [
    ("kind", .string "record"),
    ("fields", .array [
      .object [
        ("name", .string "id"),
        ("type", .object [
          ("kind", .string "named"),
          ("name", .string "Int"),
          ("constraints", .array [.object [("name", .string "min"), ("argument", .int 1)]])])],
      .object [
        ("name", .string "title"),
        ("type", .object [
          ("kind", .string "named"),
          ("name", .string "String"),
          ("constraints", .array [.object [("name", .string "min"), ("args", .array [.string "3"])]])])],
      .object [("name", .string "slug"), ("type", .string "Slug")],
      .object [("name", .string "status"), ("type", .string "Status")],
      .object [
        ("name", .string "reason"),
        ("type", .object [
          ("kind", .string "conditional"),
          ("condition", .string "status = \"Rejected\""),
          ("then", .object [
            ("kind", .string "named"),
            ("name", .string "String"),
            ("constraints", .array [.object [("name", .string "min"), ("args", .array [.string "3"])]])]),
          ("else", .object [("kind", .string "absent")])]),
        ("optional", .bool true)],
      .object [
        ("name", .string "tags"),
        ("type", .object [
          ("kind", .string "array"),
          ("itemType", .string "Tag"),
          ("constraints", .array [
            .object [("name", .string "max"), ("args", .array [.string "5"])],
            .object [("name", .string "unique")]])])],
      .object [("name", .string "author"), ("type", .string "Author")],
      .object [
        ("name", .string "meta"),
        ("type", .object [
          ("kind", .string "dict"),
          ("keyType", .string "Slug"),
          ("valueType", .string "Any")]),
        ("optional", .bool true)],
      .object [
        ("name", .string "publishedAt"),
        ("type", .object [("kind", .string "nullable"), ("inner", .string "DateTime")]),
        ("optional", .bool true)],
      .object [("name", .string "rating"), ("type", .string "Float"), ("default", .string "0")]])]

/-- Two custom validators for integers. -/
def validators : Json :=
  .object [
    ("Int", .object [
      ("range", .object [
        ("params", .array [
          .object [("name", .string "min"), ("default", .string "0")],
          .object [("name", .string "max"), ("default", .string "100")]]),
        ("body", .string "this >= $min and this <= $max")]),
      ("odd", .object [("body", .string "this matches /[13579]$/")])])]

/-- The sample as a compiled schema. -/
def schema : Json :=
  .object [
    ("version", .string "0.14.2"),
    ("root", .string "Post"),
    ("types", .object [
      ("OddRangedInt", oddRangedInt),
      ("Slug", slug),
      ("Status", status),
      ("Tag", tag),
      ("Author", author),
      ("Post", post)]),
    ("validators", validators)]

end DocSchema.Sample
