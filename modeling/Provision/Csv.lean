namespace Provision.Csv

def needsQuotes (field : List Char) : Bool :=
  field.any fun c => c = ',' || c = '"' || c = '\r' || c = '\n'

def quote : List Char → List Char
  | [] => []
  | c :: cs => if c = '"' then '"' :: '"' :: quote cs else c :: quote cs

def field (s : String) : List Char :=
  if needsQuotes s.toList then '"' :: quote s.toList ++ ['"'] else s.toList

def fields : List String → List Char
  | [] => []
  | [s] => field s
  | s :: rest => field s ++ ',' :: fields rest

def row (cells : List String) : List Char :=
  fields cells ++ ['\r', '\n']

def lines (rows : List (List String)) : List String :=
  rows.map fun cells => String.ofList (row cells)

end Provision.Csv
