import ScriptLint.Entries
import ScriptLint.Rule.Registry
import ScriptLint.Text.Width

/-!
# Tables

A table has a row of titles and rows of cells between lines of box-drawing characters. A column is
as wide as its widest line. A cell may have several lines, and a line with more characters than the
column has places, because some of them take none, is continued on the next line.
-/

namespace ScriptLint

namespace Table

/-- Replaces tabs by four spaces. -/
def expandTabs (t : Text) : Text := t.flatMap fun c => if c = '\t' then "    ".toList else [c]

/-- Puts a character at a place of a line. -/
def overwrite (line : Text) (place : Nat) (c : Char) : Text :=
  if place < line.length then line.set place c else line ++ [c]

/-- A line in which a carriage return leads back to its start, where what follows replaces what is
there. -/
def settleReturns (t : Text) : Text :=
  (t.foldl (fun (line, place) c =>
    if c = '\r' then (line, 0) else (overwrite line place c, place + 1)) (([] : Text), 0)).1

/-- Joins carriage returns with the line feeds behind them. -/
def dropReturns : Text → Text
  | '\r' :: '\n' :: r => '\n' :: dropReturns r
  | c :: r => c :: dropReturns r
  | [] => []

/-- The lines of a text between line feeds. -/
def splitLineFeeds : Text → List Text
  | [] => [[]]
  | c :: r =>
    if c = '\n' then [] :: splitLineFeeds r
    else
      match splitLineFeeds r with
      | l :: ls => (c :: l) :: ls
      | [] => [[c]]

/-- The lines of a cell. -/
def cellLines (content : Bytes) : List Text :=
  (splitLineFeeds (dropReturns (expandTabs (Utf8.lossy content)))).map settleReturns

/-- Cuts a line after so many characters, escape sequences not counted. -/
def wrapLine (limit : Nat) : (count : Nat) → (inSequence : Bool) → Text → List Text
  | _, _, [] => [[]]
  | count, true, c :: r => pushFront c (wrapLine limit count (c != 'm') r)
  | count, false, c :: r =>
    if c = Width.escapeChar then pushFront c (wrapLine limit count true r)
    else if count = limit then [] :: pushFront c (wrapLine limit 1 false r)
    else pushFront c (wrapLine limit (count + 1) false r)
where
  /-- Adds a character in front of the first line. -/
  pushFront (c : Char) : List Text → List Text
    | l :: ls => (c :: l) :: ls
    | [] => [[c]]

/-- A line without the spaces at its end, filled up to the width of its column. -/
def fit (width : Nat) (line : Text) : Text :=
  let kept := dropEndWhile (· == ' ') line
  kept ++ List.replicate (width - Width.ofText false kept) ' '

/-- One line of cells between bars. -/
def renderLine (widths : List Nat) (cells : List Text) : Text :=
  '│' :: ((widths.zip cells).flatMap fun (w, c) => ' ' :: fit w c ++ [' ', '│'])

/-- A row, on as many lines as its highest cell needs. -/
def renderRow (widths : List Nat) (cells : List (List Text)) : List Text :=
  let wrapped := (widths.zip cells).map fun (w, ls) => ls.flatMap (wrapLine w 0 false)
  let height := (wrapped.map List.length).foldl max 0
  (List.range height).map fun i => renderLine widths (wrapped.map fun ls => ls.getD i [])

/-- A line of box-drawing characters across all columns. -/
def border (widths : List Nat) (left middle right : Char) : Text :=
  left :: ((widths.map fun w => List.replicate (w + 2) '─').intersperse [middle]).flatten ++ [right]

/-- The width of a column: that of its widest line. -/
def columnWidth (column : List (List Text)) : Nat :=
  (column.flatten.map (Width.ofText false)).foldl max 0

/-- The text of a table with titles, without a line break at its end. -/
def render (titles : List Bytes) (rows : List (List Bytes)) : Bytes :=
  let cells := (titles :: rows).map fun row => row.map cellLines
  let widths := (List.range titles.length).map fun i =>
    columnWidth (cells.map fun row => row.getD i [])
  let lines :=
    [border widths '┌' '┬' '┐']
      ++ (cells.take 1).flatMap (renderRow widths)
      ++ [border widths '├' '┼' '┤']
      ++ (cells.drop 1).flatMap (renderRow widths)
      ++ [border widths '└' '┴' '┘']
  joinBytes (bytes "\n") (lines.map Utf8.encode)

end Table

/-! ### The table of rules -/

/-- What is listed about a rule. -/
structure RuleInfo where
  name : Bytes
  unit : Bytes
  description : Bytes
  settings : Option Settings

namespace RuleInfo

/-- What is listed about a registered rule. -/
def ofRule (r : Rule) : RuleInfo where
  name := r.name
  unit := unitName r.name
  description := r.description
  settings := r.configurable.map (·.defaults)

/-- Settings as names and values, in byte order of the names. -/
def settingsText (settings : Option Settings) : Bytes :=
  joinBytes (bytes " ")
    ((Entries.sorted (settings.getD [])).map fun (name, v) => name ++ bytes "=" ++ v.render)

/-- The titles of the columns. -/
def titles : List Bytes := [bytes "RULE", bytes "UNIT", bytes "SETTINGS", bytes "DESCRIPTION"]

/-- The table of some rules, as the two pieces that are written one after the other. -/
def table (infos : List RuleInfo) : List Bytes :=
  [Table.render titles (infos.map fun i => [i.name, i.unit, settingsText i.settings, i.description]),
    bytes "\n"]

end RuleInfo

end ScriptLint
