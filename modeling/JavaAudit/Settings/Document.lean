import JavaAudit.Error
import JavaAudit.Settings.Layer
import JavaAudit.Toml.Read

/-! A layer of settings from a TOML document. Names that are no setting are passed over. -/
namespace JavaAudit.Layer

open Toml (Span Value Cause)

abbrev Reading (α : Type) := Except (Span × Cause) α

def whole (size : Nat) (expected : String) (span : Span) : Value → Reading Nat
  | .integer n =>
      if 0 ≤ n ∧ n < size then .ok n.toNat
      else if Int64.minValue.toInt ≤ n ∧ n < UInt64.size then
        .error (span, .wrongValue (Value.integer n).describe expected)
      else .error (span, .wrongType (Value.integer n).describe expected)
  | v => .error (span, .wrongType v.describe expected)

def count : Span → Value → Reading Nat := whole UInt64.size "usize"

def smallCount : Span → Value → Reading Nat := whole UInt32.size "u32"

def textAs (expected : String) (span : Span) : Value → Reading String
  | .text s => .ok s
  | v => .error (span, .wrongType v.describe expected)

def path : Span → Value → Reading String := textAs "path string"

def flag (span : Span) : Value → Reading Bool
  | .boolean b => .ok b
  | v => .error (span, .wrongType v.describe "a boolean")

def names (span : Span) : Value → Reading (List String)
  | .list items => items.mapM fun (span, v) => textAs "a string" span v
  | v => .error (span, .wrongType v.describe "a sequence")

def variant {α : Type} (all : List α) (name : α → String) (span : Span) : Value → Reading α
  | .text s => match all.find? (name · == s) with
      | some a => .ok a
      | none => .error (span, .unknownVariant s (all.map name))
  | v => .error (span, .notText v.describe)

def add (l : Layer) (name : String) (span : Span) (v : Value) : Reading Layer :=
  match name with
  | "scan_path" => do return { l with scanPath := ← path span v }
  | "excluded_dirs" => do return { l with excludedDirs := ← names span v }
  | "test_dir_names" => do return { l with testDirNames := ← names span v }
  | "exclude_patterns" => do return { l with excludePatterns := ← names span v }
  | "max_depth" => do return { l with maxDepth := ← count span v }
  | "follow_links" => do return { l with followLinks := ← flag span v }
  | "min_severity" => do return { l with minSeverity := ← variant Severity.all Severity.name span v }
  | "god_package_threshold" => do return { l with godPackageThreshold := ← count span v }
  | "deep_package_threshold" => do return { l with deepPackageThreshold := ← count span v }
  | "entry_point_suffixes" => do return { l with entryPointSuffixes := ← names span v }
  | "dedupe_cycles" => do return { l with dedupeCycles := ← flag span v }
  | "max_method_complexity" => do return { l with maxMethodComplexity := ← smallCount span v }
  | "max_method_lines" => do return { l with maxMethodLines := ← count span v }
  | "max_parameters" => do return { l with maxParameters := ← count span v }
  | "output_format" => do
      return { l with outputFormat := ← variant OutputFormat.all OutputFormat.name span v }
  | "output_file" => do return { l with outputFile := ← path span v }
  | "parallel" => do return { l with parallel := ← flag span v }
  | "threads" => do return { l with threads := ← count span v }
  | "quiet" => do return { l with quiet := ← flag span v }
  | "verbose" => do return { l with verbose := ← flag span v }
  | "use_colors" => do return { l with useColors := ← flag span v }
  | "show_progress" => do return { l with showProgress := ← flag span v }
  | _ => .ok l

def ofToml (text : String) : Except Toml.Problem Layer :=
  match Toml.read text with
  | .error offset => .error ⟨text, ⟨offset, offset⟩, .malformed⟩
  | .ok fields =>
      let ordered := fields.mergeSort fun a b => a.1 ≤ b.1
      match ordered.foldlM (fun l (name, span, v) => add l name span v) {} with
      | .ok l => .ok l
      | .error (span, cause) => .error ⟨text, span, cause⟩

def checkPattern (pattern : String) : Except String Unit :=
  if pattern.isEmpty then .error "Empty exclude pattern"
  else match Glob.read pattern with
    | .ok _ => .ok ()
    | .error fault => .error ("Invalid exclude pattern '" ++ pattern ++ "': " ++ fault.message)

def check (l : Layer) : Except String Unit := do
  if l.scanPath = some "" then throw "Invalid empty scan_path"
  (l.excludePatterns.getD []).forM checkPattern
  if l.maxDepth = some 0 then throw "max_depth must be at least 1"
  if l.outputFile = some "" then throw "Invalid empty output_file"

def checkIn (l : Layer) (file : String) : Except AuditError Unit :=
  l.check.mapError fun message => .config (message ++ " (in " ++ file ++ ")")

def ofContent (content file : String) : Except AuditError Layer := do
  let l ← (ofToml content).mapError (.configParse file)
  l.checkIn file
  pure l

end JavaAudit.Layer
