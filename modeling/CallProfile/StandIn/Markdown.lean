import CallProfile.Libraries

/-! # Markdown, stood in for

The layout of documents. The cells of tables are centred; a bar inside a cell is escaped, and
nothing else is.
-/

namespace CallProfile.StandIn.Markdown

open CallProfile.Markdown

def cell (s : String) : String :=
  String.ofList (s.toList.flatMap fun c => if c = '|' then ['\\', '|'] else [c])

def row (cells : List String) : String :=
  "|" ++ String.join (cells.map fun s => cell s ++ "|") ++ "\n"

/-- The row that centres the columns of a table. -/
def alignment (columns : Nat) : String :=
  "|" ++ String.join (List.replicate columns " :---: |") ++ "\n"

def renderBlock : Block → String
  | .header level title => "\n" ++ "".pushn '#' level ++ " " ++ title ++ "\n"
  | .list items => "\n" ++ String.join (items.map fun item => "- " ++ item ++ "\n")
  | .paragraph text => "\n\n" ++ text
  | .table titles rows =>
      "\n" ++ row titles ++ alignment titles.length ++ String.join (rows.map row)

def render (blocks : List Block) : String :=
  "\n\n\n" ++ String.join (blocks.map renderBlock)

/-- The path of the file of a document. -/
def path (base : String) : String :=
  if base.endsWith ".md" then base else base ++ ".md"

end CallProfile.StandIn.Markdown
