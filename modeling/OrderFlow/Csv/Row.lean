import OrderFlow.Text.Blank

/-! Rows of comma-separated values. A field that holds a comma, a quote or a line break is quoted,
with its quotes doubled; so is the only field of a row when it is empty. -/
namespace OrderFlow.Csv

def needsQuotes (field : List Char) : Bool :=
  field.any fun c => c = ',' || c = '"' || c = '\n' || c = '\r'

def doubled (field : List Char) : List Char :=
  field.flatMap fun c => if c = '"' then ['"', '"'] else [c]

def quoted (field : List Char) : List Char := '"' :: doubled field ++ ['"']

def fieldChars (field : List Char) : List Char :=
  if needsQuotes field then quoted field else field

/-- One row, ended by a newline. -/
def rowChars (fields : List (List Char)) : List Char :=
  if fields = [[]] then ['"', '"', '\n']
  else Text.joined [','] (fields.map fieldChars) ++ ['\n']

def row (fields : List String) : String := String.ofList (rowChars (fields.map String.toList))

end OrderFlow.Csv
