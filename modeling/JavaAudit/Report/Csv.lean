import JavaAudit.Report.Basic

/-! The issues as records of comma separated fields. -/
namespace JavaAudit.Csv

def header : List String := ["scope", "severity", "code", "location", "line", "message"]

def needsQuotes (c : Char) : Bool := c = ',' || c = '"' || c = '\r' || c = '\n'

def doubled : List Char → List Char
  | [] => []
  | c :: rest => if c = '"' then '"' :: '"' :: doubled rest else c :: doubled rest

def field (text : String) : List Char :=
  if text.toList.any needsQuotes then '"' :: doubled text.toList ++ ['"'] else text.toList

def record (fields : List String) : List Char :=
  List.intercalate [','] (fields.map field) ++ ['\n']

def ofIssue (i : Issue) : List String :=
  [i.scope, i.severity.name, i.code.name, i.location, (i.line?.map toString).getD "", i.message]

def write (records : List (List String)) : String := String.ofList (records.flatMap record)

end JavaAudit.Csv

namespace JavaAudit.Report

def csv (r : AnalysisResult) (least : Severity) : String :=
  Csv.write (Csv.header :: (r.issuesFrom least).map Csv.ofIssue)

end JavaAudit.Report
