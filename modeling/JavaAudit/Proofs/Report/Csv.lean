import JavaAudit.Report.Csv
import Mathlib.Data.List.Basic

/-! Comma separated fields can be read back. The reader is a strict one and refuses quotes and
carriage returns that are out of place. -/
namespace JavaAudit.Csv

/-- Where a reader is: in front of a record or of a later field, within a field without quotes or
with quotes, behind a quote that ends a field unless it is doubled, or behind a carriage return. -/
inductive Mode where
  | recordStart | fieldStart | plain | quoted | quoteSeen | returned
  deriving DecidableEq, Repr

structure Reader where
  mode : Mode
  field : List Char
  fields : List String
  records : List (List String)

namespace Reader

def start : Reader := ⟨.recordStart, [], [], []⟩

def push (r : Reader) (mode : Mode) (c : Char) : Reader :=
  { r with mode := mode, field := r.field ++ [c] }

def endField (r : Reader) : Reader :=
  ⟨.fieldStart, [], r.fields ++ [String.ofList r.field], r.records⟩

def endRecord (r : Reader) : Reader :=
  ⟨.recordStart, [], [], r.records ++ [r.fields ++ [String.ofList r.field]]⟩

def takeEnd? (r : Reader) (c : Char) : Option Reader :=
  if c = ',' then some r.endField
  else if c = '\n' then some r.endRecord
  else if c = '\r' then some { r with mode := .returned }
  else none

def take (r : Reader) (c : Char) : Option Reader :=
  match r.mode with
  | .recordStart | .fieldStart =>
      if c = '"' then some { r with mode := .quoted } else (r.takeEnd? c).or (some (r.push .plain c))
  | .plain => if c = '"' then none else (r.takeEnd? c).or (some (r.push .plain c))
  | .quoted => some (if c = '"' then { r with mode := .quoteSeen } else r.push .quoted c)
  | .quoteSeen => if c = '"' then some (r.push .quoted c) else r.takeEnd? c
  | .returned => if c = '\n' then some r.endRecord else none

def finish (r : Reader) : Option (List (List String)) :=
  match r.mode with
  | .recordStart => some r.records
  | .fieldStart | .plain | .quoteSeen => some r.endRecord.records
  | .quoted | .returned => none

end Reader

def read (text : String) : Option (List (List String)) :=
  (text.toList.foldlM Reader.take .start).bind Reader.finish

theorem takeQuoted (cs field : List Char) (fields : List String) (records : List (List String)) :
    (doubled cs).foldlM Reader.take ⟨.quoted, field, fields, records⟩ =
      some ⟨.quoted, field ++ cs, fields, records⟩ := by
  induction cs generalizing field with
  | nil => simp [doubled]
  | cons c cs ih =>
    by_cases quote : c = '"'
    · simp [doubled, quote, Reader.take, Reader.push, ih]
    · simp [doubled, quote, Reader.take, Reader.push, ih]

theorem takePlain {cs : List Char} (free : ∀ c ∈ cs, needsQuotes c = false) (field : List Char)
    (fields : List String) (records : List (List String)) :
    cs.foldlM Reader.take ⟨.plain, field, fields, records⟩ =
      some ⟨.plain, field ++ cs, fields, records⟩ := by
  induction cs generalizing field with
  | nil => simp
  | cons c cs ih =>
    have first := free c List.mem_cons_self
    simp only [needsQuotes, Bool.or_eq_false_iff, decide_eq_false_iff_not] at first
    have rest := ih fun c mem => free c (List.mem_cons_of_mem _ mem)
    simp [Reader.take, Reader.takeEnd?, Reader.push, first, rest]

def Mode.isStart : Mode → Bool
  | recordStart | fieldStart => true
  | _ => false

theorem takeEnding {mode : Mode} (within : mode ≠ .quoted ∧ mode ≠ .returned) (field : List Char)
    (fields : List String) (records : List (List String)) {c : Char} (ends : c = ',' ∨ c = '\n') :
    Reader.take ⟨mode, field, fields, records⟩ c =
      Reader.takeEnd? ⟨.plain, field, fields, records⟩ c := by
  rcases ends with rfl | rfl
  · cases mode <;> simp_all [Reader.take, Reader.takeEnd?, Reader.endField]
  · cases mode <;> simp_all [Reader.take, Reader.takeEnd?, Reader.endRecord]

theorem takeField {mode : Mode} (begins : mode.isStart = true) (text : String)
    (fields : List String) (records : List (List String)) {c : Char} (ends : c = ',' ∨ c = '\n') :
    (field text ++ [c]).foldlM Reader.take ⟨mode, [], fields, records⟩ =
      Reader.takeEnd? ⟨.plain, text.toList, fields, records⟩ c := by
  unfold field
  split
  · have opened : Reader.take ⟨mode, [], fields, records⟩ '"' =
        some ⟨.quoted, [], fields, records⟩ := by
      cases mode <;> simp_all [Mode.isStart, Reader.take]
    have closed : Reader.take ⟨.quoted, text.toList, fields, records⟩ '"' =
        some ⟨.quoteSeen, text.toList, fields, records⟩ := rfl
    have ended := @takeEnding .quoteSeen (by decide) text.toList fields records _ ends
    simp [opened, takeQuoted, closed, ended]
  · rename_i unmarked
    have free : ∀ c ∈ text.toList, needsQuotes c = false := by simpa using unmarked
    cases chars : text.toList with
    | nil =>
      have ended := @takeEnding mode (by cases mode <;> simp_all [Mode.isStart]) [] fields
        records _ ends
      simpa using ended
    | cons first rest =>
      rw [chars] at free
      have opened : Reader.take ⟨mode, [], fields, records⟩ first =
          some ⟨.plain, [first], fields, records⟩ := by
        have head := free first List.mem_cons_self
        simp only [needsQuotes, Bool.or_eq_false_iff, decide_eq_false_iff_not] at head
        cases mode <;> simp_all [Mode.isStart, Reader.take, Reader.takeEnd?, Reader.push]
      have later := takePlain (fun c mem => free c (List.mem_cons_of_mem _ mem)) [first] fields
        records
      have ended := @takeEnding .plain (by decide) (first :: rest) fields records _ ends
      simp [opened, later, ended]

theorem takeRecord {mode : Mode} (begins : mode.isStart = true) (first : String)
    (rest fields : List String) (records : List (List String)) :
    (record (first :: rest)).foldlM Reader.take ⟨mode, [], fields, records⟩ =
      some ⟨.recordStart, [], [], records ++ [fields ++ first :: rest]⟩ := by
  induction rest generalizing mode first fields with
  | nil =>
    have one := takeField begins first fields records (.inr rfl)
    simpa [record, List.intercalate, Reader.takeEnd?, Reader.endRecord] using one
  | cons next rest ih =>
    have one := takeField begins first fields records (.inl rfl)
    have parts : record (first :: next :: rest) =
        (field first ++ [',']) ++ record (next :: rest) := by
      simp [record, List.intercalate]
    have more := @ih .fieldStart rfl next (fields ++ [first])
    rw [parts, List.foldlM_append, one]
    simpa [Reader.takeEnd?, Reader.endField] using more

theorem takeRecords {records : List (List String)} (filled : ∀ fields ∈ records, fields ≠ [])
    (before : List (List String)) :
    (records.flatMap record).foldlM Reader.take ⟨.recordStart, [], [], before⟩ =
      some ⟨.recordStart, [], [], before ++ records⟩ := by
  induction records generalizing before with
  | nil => simp
  | cons fields records ih =>
    obtain ⟨first, rest, rfl⟩ := List.exists_cons_of_ne_nil (filled fields List.mem_cons_self)
    have later := ih (fun f mem => filled f (List.mem_cons_of_mem _ mem)) (before ++ [first :: rest])
    rw [List.flatMap_cons, List.foldlM_append, takeRecord rfl]
    simpa using later

theorem readWrite {records : List (List String)} (filled : ∀ fields ∈ records, fields ≠ []) :
    read (write records) = some records := by
  rw [read, write, String.toList_ofList, Reader.start, takeRecords filled]
  rfl

end JavaAudit.Csv

namespace JavaAudit.Report

theorem csvReadsBack (r : AnalysisResult) (least : Severity) :
    Csv.read (csv r least) = some (["scope", "severity", "code", "location", "line", "message"] ::
      (r.issuesFrom least).map fun
        | .file path i =>
            ["file", i.severity.name, i.code.name, path, toString i.line, i.message]
        | .project i =>
            ["project", i.severity.name, i.code.name, i.location, "", i.message]) := by
  have filled : ∀ fields ∈ Csv.header :: (r.issuesFrom least).map Csv.ofIssue, fields ≠ [] := by
    simp [Csv.header, Csv.ofIssue]
  rw [csv, Csv.readWrite filled, Csv.header]
  congr 3
  funext i
  cases i <;> rfl

end JavaAudit.Report
