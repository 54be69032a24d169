import DocSchema.Diagnostic

/-!
Tables: diagnostics as rows, and the rows as aligned text.
-/

namespace DocSchema.Table

def columns : List String := ["path", "code", "category", "message"]

/-- The cells of a diagnostic. -/
def row (d : Diagnostic) : List String := [d.path, d.code.name, d.category.name, d.message]

def rows (ds : List Diagnostic) : List (List String) := ds.map row

/-- Text at the right end of a field. -/
def alignRight (width : Nat) (s : String) : String :=
  "".pushn ' ' (width - s.length) ++ s

/-- Text at the left end of a field. -/
def alignLeft (width : Nat) (s : String) : String :=
  s.pushn ' ' (width - s.length)

/-- A column is as wide as its header, and leaves a space in front of its longest cell. -/
def width (header : String) (cells : List String) : Nat :=
  cells.foldl (fun w c => max w (c.length + 1)) header.length

/-- The widths of the columns. -/
def widths (rs : List (List String)) : List Nat :=
  columns.mapIdx fun i header => width header (rs.map fun r => (r[i]?).getD "")

/-- One line: the row number, then the cells. -/
def line (numberWidth : Nat) (ws : List Nat) (number : String) (cells : List String) : String :=
  " ".intercalate (alignLeft numberWidth number :: List.zipWith alignRight ws cells)

/-- The table as text. -/
def render (ds : List Diagnostic) : String :=
  match rows ds with
  | [] => "Empty DataFrame\nColumns: [" ++ ", ".intercalate columns ++ "]\nIndex: []\n"
  | rs =>
    let numberWidth := (toString (rs.length - 1)).length
    let ws := widths rs
    let lines := line numberWidth ws "" columns ::
      rs.mapIdx fun i r => line numberWidth ws (toString i) r
    "\n".intercalate lines ++ "\n"

end DocSchema.Table
