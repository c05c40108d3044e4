import JavaAudit.Report.Csv
import JavaAudit.Report.Json
import JavaAudit.Report.Text
import JavaAudit.Settings.Basic

/-! The report that the settings ask for. -/
namespace JavaAudit.Report

def write (s : Settings) (r : AnalysisResult) : String :=
  match s.outputFormat with
  | .text => if s.quiet then quiet r else text r s.minSeverity s.useColors s.verbose
  | .json => json r
  | .csv => csv r s.minSeverity

end JavaAudit.Report
