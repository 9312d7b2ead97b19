import OrderFlow.Failure
import OrderFlow.Files.Tree
import OrderFlow.Json.Reader
import OrderFlow.Market.Series

/-! Market files: `<data>/<symbol>/<day>/<name>.json`, one document each. -/
namespace OrderFlow.MarketFiles

/-- The name of the directory that holds market files. -/
def directoryName : String := "data"

/-- The nearest data directory beside a path or one of its ancestors, looking at `levels` of
them. -/
def findData (t : FileTree) (start : Path) (levels : Nat) : Except Cause Path :=
  match ((start.ancestors levels).map (Path.join · directoryName)).find? t.isDirectory with
  | some found => .ok found
  | none => .error (.dataDirectoryNotFound start levels)

/-- The paths directly inside a directory, in order of their names. -/
def inside (t : FileTree) (directory : Path) : List Path :=
  (t.names directory).map directory.join

/-- The market files of one day. -/
def dayFiles (t : FileTree) (day : Path) : List Path :=
  ((t.names day).filter Path.isJsonName).map day.join |>.filter t.isFile

/-- The market files of a symbol, by day and name. -/
def files (t : FileTree) (data : Path) (symbol : String) : Except Cause (List Path) :=
  let directory := data.join symbol
  if t.isDirectory directory then
    .ok (((inside t directory).filter t.isDirectory).flatMap (dayFiles t))
  else .error (.symbolNotFound directory)

/-- The document in a file; none if it is unreadable. -/
def document? (t : FileTree) (file : Path) : Option Json := (t.text? file).bind Json.document?

/-- The documents of a symbol; unreadable files are left out. -/
def documents (t : FileTree) (data : Path) (symbol : String) : Except Cause (List Json) :=
  (files t data symbol).map (·.filterMap (document? t))

/-- The candles of a symbol, with depth. -/
def series (t : FileTree) (data : Path) (tf : Timeframe) (symbol : String) : Outcome Series := do
  let docs ← attempting ("Failed to load market files for " ++ symbol)
    ((documents t data symbol).mapError Failure.ofCause)
  (Series.build tf symbol docs true).mapError Failure.ofCause

end OrderFlow.MarketFiles
