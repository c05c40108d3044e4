import JavaAudit.CommandLine.Arguments
import JavaAudit.Text.Count

/-! Reading a command line. An option with a value takes it from behind an equals sign, from the rest
of a cluster of short options, or from the next word; it is looked at when the next option comes or
the line ends. -/
namespace JavaAudit.CommandLine

def programName : String := "codequal"

def programVersion : String := "0.1.0"

def versionText : String := programName ++ " " ++ programVersion ++ "\n"

inductive Switch where
  | path | exclude | excludeDir | maxDepth | followLinks | output | outputFile | minSeverity
  | godPackageThreshold | deepPackageThreshold | entryPointSuffix | dedupeCycles | maxComplexity
  | maxMethodLines | maxParameters | noParallel | threads | noColors | noProgress | quiet | verbose
  | config | init | failUnder | dot | help | version
  deriving DecidableEq, Repr, Inhabited

inductive Refusal where
  | unknownArgument | invalidValue | valueValidation | argumentConflict | tooManyValues
  | displayHelp | displayVersion
  deriving DecidableEq, Repr, Inhabited

namespace Switch

def all : List Switch :=
  [path, exclude, excludeDir, maxDepth, followLinks, output, outputFile, minSeverity,
    godPackageThreshold, deepPackageThreshold, entryPointSuffix, dedupeCycles, maxComplexity,
    maxMethodLines, maxParameters, noParallel, threads, noColors, noProgress, quiet, verbose, config,
    init, failUnder, dot, help, version]

def long : Switch → String
  | path => "path"
  | exclude => "exclude"
  | excludeDir => "exclude-dir"
  | maxDepth => "max-depth"
  | followLinks => "follow-links"
  | output => "output"
  | outputFile => "output-file"
  | minSeverity => "min-severity"
  | godPackageThreshold => "god-package-threshold"
  | deepPackageThreshold => "deep-package-threshold"
  | entryPointSuffix => "entry-point-suffix"
  | dedupeCycles => "dedupe-cycles"
  | maxComplexity => "max-complexity"
  | maxMethodLines => "max-method-lines"
  | maxParameters => "max-parameters"
  | noParallel => "no-parallel"
  | threads => "threads"
  | noColors => "no-colors"
  | noProgress => "no-progress"
  | quiet => "quiet"
  | verbose => "verbose"
  | config => "config"
  | init => "init"
  | failUnder => "fail-under"
  | dot => "dot"
  | help => "help"
  | version => "version"

def short? : Switch → Option Char
  | path => some 'p'
  | exclude => some 'e'
  | output => some 'o'
  | quiet => some 'q'
  | verbose => some 'v'
  | config => some 'c'
  | help => some 'h'
  | version => some 'V'
  | _ => none

def takesValue : Switch → Bool
  | followLinks | dedupeCycles | noParallel | noColors | noProgress | quiet | verbose | init | help
  | version => false
  | _ => true

def isRepeatable : Switch → Bool
  | exclude | excludeDir | entryPointSuffix => true
  | _ => false

def ofLong? (name : String) : Option Switch := all.find? (·.long == name)

def ofShort? (c : Char) : Option Switch := all.find? (·.short? == some c)

end Switch

def pathValue (value : String) : Except Refusal String :=
  if value.isEmpty then .error .invalidValue else .ok value

def countValue (value : String) : Except Refusal Nat :=
  (Text.readCount UInt64.size value).mapError fun _ => .valueValidation

def boundedValue (bound : Nat) (value : String) : Except Refusal Nat :=
  match Text.readBounded? bound value with
  | some n => .ok n
  | none => .error .valueValidation

def formatValue (value : String) : Except Refusal OutputFormat :=
  match OutputFormat.ofName? value with
  | some f => .ok f
  | none => .error .invalidValue

def severityValue (value : String) : Except Refusal Severity :=
  (Severity.read value).mapError fun _ => .valueValidation

def setValue (a : Arguments) (value : String) : Switch → Except Refusal Arguments
  | .path => do return { a with path := ← pathValue value }
  | .exclude => .ok { a with exclude := a.exclude ++ [value] }
  | .excludeDir => .ok { a with excludeDirs := a.excludeDirs ++ [value] }
  | .maxDepth => do return { a with maxDepth := ← countValue value }
  | .output => do return { a with output := ← formatValue value }
  | .outputFile => do return { a with outputFile := ← pathValue value }
  | .minSeverity => do return { a with minSeverity := ← severityValue value }
  | .godPackageThreshold => do return { a with godPackageThreshold := ← countValue value }
  | .deepPackageThreshold => do return { a with deepPackageThreshold := ← countValue value }
  | .entryPointSuffix => .ok { a with entryPointSuffixes := a.entryPointSuffixes ++ [value] }
  | .maxComplexity => do return { a with maxComplexity := ← boundedValue (UInt32.size - 1) value }
  | .maxMethodLines => do return { a with maxMethodLines := ← countValue value }
  | .maxParameters => do return { a with maxParameters := ← countValue value }
  | .threads => do return { a with threads := ← countValue value }
  | .config => do return { a with config := ← pathValue value }
  | .failUnder => do return { a with failUnder := ← boundedValue 100 value }
  | .dot => do return { a with dot := ← pathValue value }
  | _ => .ok a

def setFlag (a : Arguments) : Switch → Except Refusal Arguments
  | .followLinks => .ok { a with followLinks := true }
  | .dedupeCycles => .ok { a with dedupeCycles := true }
  | .noParallel => .ok { a with noParallel := true }
  | .noColors => .ok { a with noColors := true }
  | .noProgress => .ok { a with noProgress := true }
  | .quiet => .ok { a with quiet := true }
  | .verbose => .ok { a with verbose := true }
  | .init => .ok { a with init := true }
  | .help => .error .displayHelp
  | .version => .error .displayVersion
  | _ => .ok a

structure State where
  arguments : Arguments := {}
  given : List Switch := []
  -- the option that was met last, and its value if that has come already
  pending : Option (Switch × Option String) := none
  /-- Whether a double dash has ended the options. -/
  ended : Bool := false
  deriving Repr, Inhabited

namespace State

def meet (s : State) (o : Switch) : Except Refusal State :=
  if !o.isRepeatable ∧ o ∈ s.given then .error .argumentConflict
  else .ok { s with given := o :: s.given }

def settle (s : State) : Except Refusal State :=
  match s.pending with
  | none => .ok s
  | some (_, none) => .error .invalidValue
  | some (o, some value) => do
      let s ← s.meet o
      let arguments ← setValue s.arguments value o
      pure { s with arguments, pending := none }

def flag (s : State) (o : Switch) : Except Refusal State := do
  let s ← s.settle
  if o = .help then throw .displayHelp
  if o = .version then throw .displayVersion
  let s ← s.meet o
  let arguments ← setFlag s.arguments o
  pure { s with arguments }

def option (s : State) (o : Switch) (value : Option String) : Except Refusal State := do
  let s ← s.settle
  match value with
  | none => pure { s with pending := some (o, none) }
  | some v => State.settle { s with pending := some (o, some v) }

def long (s : State) (name : String) (value : Option String) : Except Refusal State :=
  match Switch.ofLong? name with
  | none => .error .unknownArgument
  | some o =>
      if o.takesValue then s.option o value
      else if value.isSome then .error .tooManyValues
      else s.flag o

/-- A cluster of short options; what follows one that takes a value is its value. -/
def shorts (s : State) : List Char → Except Refusal State
  | [] => .ok s
  | c :: rest => match Switch.ofShort? c with
      | none => .error .unknownArgument
      | some o =>
          if o.takesValue then match rest with
            | [] => s.option o none
            | '=' :: value => s.option o (String.ofList value)
            | value => s.option o (String.ofList value)
          else do
            let s ← s.flag o
            shorts s rest

def word (s : State) (word : String) : Except Refusal State :=
  if s.ended then .error .unknownArgument
  else match word.toList with
    | ['-', '-'] => .ok { s with ended := true }
    | '-' :: '-' :: text =>
        let name := text.takeWhile (· ≠ '=')
        let value := match text.dropWhile (· ≠ '=') with
          | [] => none
          | _ :: value => some (String.ofList value)
        s.long (String.ofList name) value
    | '-' :: c :: cs => s.shorts (c :: cs)
    | _ => match s.pending with
        | some (o, none) => .ok { s with pending := some (o, some word) }
        | _ => .error .unknownArgument

end State

def read (words : List String) : Except Refusal Arguments := do
  let s ← words.foldlM State.word {}
  let s ← s.settle
  pure s.arguments

end JavaAudit.CommandLine
