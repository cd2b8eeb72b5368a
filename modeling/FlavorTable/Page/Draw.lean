import FlavorTable.Csv.Write
import FlavorTable.Grid
import FlavorTable.Page.Event
import FlavorTable.Query

/-!
# What the page draws

The parts of the page, each as the events it consists of. The frame is the
same on every run. Rows are always announced with their number and followed
by a table, or by a notice when there are none. The answer to a query is
drawn three times: its stages one by one, its result as a table that can be
saved, and its result as a grid.
-/

namespace FlavorTable.Page

/-! ## The frame -/

def head : List Event :=
  atTop
    [.configure "Ice Cream Query Rewrite" "🍨" "wide",
     .title "🍨 Ice Cream — query rewrite as index seeks and set operations",
     .write
       ("Restates `(Maker LIKE '% <suffix>' OR Flavor IN <union flavors>) " ++
         "AND Flavor IN <intersect flavors>` " ++
         "as `flavor seek ∩ (maker scan ⋃ flavor seek)` over in-memory indexes."),
     .columns [1, 1] "large"]

def tableColumn : List Event :=
  inside (.column 0) <| atTop
    [.subheader "Rows",
     .textArea "MakerFlavor rows" 320
       ("Header line " ++ ",".intercalate Row.header.fields ++ " followed by one row per line.")
       "rows_text"]

def queryColumn : List Event :=
  inside (.column 1) <| atTop
    [.subheader "Query",
     .textInput "Intersect flavors (Flavor IN ...)" "intersect_flavors",
     .textInput "Maker suffix (Maker LIKE '% ...')" "maker_suffix",
     .textInput "Union flavors (OR Flavor IN ...)" "union_flavors",
     .checkbox "Compare with deprecated BaseFlavor lookup" true]

/-- What every run begins with. -/
def frame : List Event := head ++ tableColumn ++ queryColumn

/-! ## Rows -/

/-- The announcement of some rows. -/
def announcement (title : String) (count : Nat) : String :=
  "**" ++ title ++ "** — _rows: " ++ toString count ++ "_"

/-- Rows under a title, with a remark if there is one. -/
def showRows (title : String) (rows : List Row) (remark : Option String) : List Event :=
  atTop <|
    .markdown (announcement title rows.length) ::
      (remark.map Call.caption).toList ++
        [if rows.isEmpty then .info "Empty result set." else .table (Row.records rows)]

def allRows (rows : List Row) : List Event :=
  atTop [.subheader "👀 All rows"] ++ showRows "MakerFlavor" rows none

/-- The button that asks for the query. -/
def runButton : List Event := atTop [.button "▶️ Run" "primary"]

/-! ## The answer to a query -/

/-- The arguments of a query as they were read from the fields. -/
structure Request where
  intersect : List String
  suffix : String
  union : List String
  deriving DecidableEq, Repr

/-- Names as a collection of keys. -/
def Request.nameList (names : List String) : Value := .list (names.map .text)

def Request.query (request : Request) : Query :=
  ⟨nameList request.intersect, .text request.suffix, nameList request.union⟩

/-- The remark on a flavor seek. -/
def seekRemark (names : List String) : String :=
  "Flavor IN " ++ Text.bracketed (names.map Text.quoted)

def stages (request : Request) (plan : Plan) : List Event :=
  showRows "Outer: flavor seek" plan.outer.rows (seekRemark request.intersect) ++
  showRows "Maker scan" plan.makerLike.rows ("Maker LIKE '% " ++ request.suffix ++ "'") ++
  showRows "Flavor seek (union)" plan.flavorUnion.rows (seekRemark request.union) ++
  showRows "Inner: maker scan ⋃ flavor seek" plan.inner.rows none

/-- The label of the part that compares with the base flavor seek. -/
def comparisonLabel : String := "Deprecated: BaseFlavor lookup"

/-- The rows of the base flavor seek beside those of the flavor seek. -/
def comparison (plan : Plan) (found : RowSet) : List Event :=
  atTop [.expander comparisonLabel] ++
  inside (.expander comparisonLabel)
    (showRows "BaseFlavor seek (union)" found.rows
      (toString found.size ++ " rows against " ++ toString plan.flavorUnion.size ++
        " from the Flavor seek"))

/-- The result as a table, which can be saved when it has rows. -/
def resultTable (result : RowSet) : List Event :=
  showRows "Outer ∩ Inner" result.rows none ++
  if result.rows.isEmpty then []
  else
    atTop [.downloadButton "Download CSV" (Csv.write result.rows Csv.defaultDelimiter)
      "result.csv" "text/csv"]

/-- The result as a grid. -/
def resultText (result : RowSet) : List Event :=
  atTop [.code (Grid.draw result.rows Grid.defaultLimit) "text"]

def stagesTab : String := "Plan Steps"
def tableTab : String := "Result Table"
def textTab : String := "Result Text"

/-- The answer to a query, with the base flavor seek beside it if one was made. -/
def answer (request : Request) (plan : Plan) (compared : Option RowSet) : List Event :=
  atTop [.success "Query executed successfully!", .tabs [stagesTab, tableTab, textTab]] ++
  inside (.tab stagesTab)
    (stages request plan ++ (compared.map (comparison plan)).getD []) ++
  inside (.tab tableTab) (resultTable plan.result) ++
  inside (.tab textTab) (resultText plan.result)

end FlavorTable.Page
