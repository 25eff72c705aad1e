import CollectionShell.Operation.Method

/-!
# The table of methods

A table has a title, a heading and rows, and is drawn with box characters. Each column is as
wide as its widest cell, and each cell has a blank on both sides.
-/

namespace CollectionShell.Console

/-- Where a cell's text stands. -/
inductive Alignment
  | left
  | centre
  deriving DecidableEq, Repr

/-- A column of a table. -/
structure Column where
  /-- Its heading. -/
  heading : Text
  /-- Where the texts of its cells stand. -/
  alignment : Alignment := .left
  deriving DecidableEq, Repr

/-- A table. -/
structure Table where
  /-- What stands above it. -/
  title : Text
  /-- Its columns. -/
  columns : List Column
  /-- Its rows, one text for each column. -/
  rows : List (List Text)
  deriving DecidableEq, Repr

/-- The text with blanks up to a width; of those around a centred text the odd one stands
behind it. -/
def pad (a : Alignment) (width : Nat) (t : Text) : Text :=
  let spare := width - t.length
  match a with
  | .left => t ++ List.replicate spare ' '
  | .centre => List.replicate (spare / 2) ' ' ++ t ++ List.replicate (spare - spare / 2) ' '

namespace Table

/-- The cells of a column, its heading first. -/
def cells (t : Table) (index : Nat) (c : Column) : List Text :=
  c.heading :: t.rows.map fun row => row.getD index []

/-- The columns with the widths of their texts. -/
def widths (t : Table) : List (Column × Nat) :=
  t.columns.zipIdx.map fun (c, index) => (c, ((t.cells index c).map List.length).foldl max 0)

/-- A line between rows : its ends, its crossings and what is between them. -/
def rule (ws : List (Column × Nat)) (first line crossing last : Char) : Text :=
  first :: Text.joinWith [crossing] (ws.map fun w => List.replicate (w.2 + 2) line) ++ [last]

/-- A row of cells with a line on each side of each. -/
def row (ws : List (Column × Nat)) (bar : Char) (cells : List Text) : Text :=
  bar :: (ws.zip cells).flatMap fun (w, cell) =>
    ' ' :: pad w.1.alignment w.2 cell ++ [' ', bar]

/-- The lines of a table. -/
def lines (t : Table) : List Text :=
  let ws := t.widths
  let top := rule ws '┏' '━' '┳' '┓'
  [pad .centre top.length t.title, top, row ws '┃' (t.columns.map (·.heading)),
    rule ws '┡' '━' '╇' '┩'] ++
  t.rows.map (row ws '│') ++ [rule ws '└' '─' '┴' '┘']

/-- The text of a table. -/
def text (t : Table) : Text := t.lines.flatMap fun l => l ++ ['\n']

end Table

/-! ## The methods -/

/-- The parameters of a method, the ones that may be missing in brackets. -/
def parameterNames (m : Method) : Text :=
  let names := m.parameters.zipIdx.map fun (p, index) =>
    if index < m.required then p.name.toList else '[' :: p.name.toList ++ [']']
  if names = [] then ['-'] else Text.joinWith [',', ' '] names

/-- The table of all methods. -/
def methodTable : Table where
  title := Text.ofString "Supported operations"
  columns := [⟨Text.ofString "method", .left⟩, ⟨Text.ofString "args", .centre⟩,
    ⟨Text.ofString "parameters", .left⟩]
  rows := Method.all.map fun m => [m.name.toList, m.arity.toList, parameterNames m]

end CollectionShell.Console
