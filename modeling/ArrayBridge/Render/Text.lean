import ArrayBridge.QueryResult
import ArrayBridge.Render.Number

/-!
Results as plain text: a line a field, a blank line between records.
-/
namespace ArrayBridge.Render

def hostText (charset : Charset) (bytes : Bytes) : String :=
  match charset with
  | .convert => String.ofList (latin1 bytes)
  | .identity => String.ofList (Utf8.decodeLossy bytes)

def arrayText (a : NumericArray) : String :=
  if a.isEmpty then "[]"
  else if a.isScalar then ((a.double? 0).map plainNumber).getD ""
  else a.text

def valueText (charset : Charset) : HostValue → String
  | .numeric a => arrayText a
  | .text bytes => hostText charset bytes
  | v => "[" ++ v.className ++ "]"

def recordText (charset : Charset) (fields : List String) (values : List HostValue) : String :=
  String.join (List.zipWith (fun f v => f ++ ": " ++ valueText charset v ++ "\n") fields values)

def text (charset : Charset) : QueryOutput → String
  | .empty => "[]\n"
  | .records table => "\n".intercalate (table.records.map (recordText charset table.fields))

end ArrayBridge.Render
