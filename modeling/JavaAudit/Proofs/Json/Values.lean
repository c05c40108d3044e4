import JavaAudit.Proofs.Json.Numerals
import JavaAudit.Proofs.Json.Texts

/-! Every JSON value can be read back from its written form, on one line or indented. Only floating
point numbers may come back as others. -/
namespace JavaAudit.Json

def restored (x : Float) : Json :=
  match readNumber (floatChars x) with
  | some (j, _) => j
  | none => .null

mutual

def reread : Json → Json
  | .null => .null
  | .boolean b => .boolean b
  | .integer n => .integer n
  | .float x => restored x
  | .text s => .text s
  | .list items => .list (rereadItems items)
  | .object fields => .object (rereadFields fields)

def rereadItems : List Json → List Json
  | [] => []
  | j :: js => reread j :: rereadItems js

def rereadFields : List (String × Json) → List (String × Json)
  | [] => []
  | (name, j) :: rest => (name, reread j) :: rereadFields rest

end

def Gap (cs : List Char) : Prop := ∀ c ∈ cs, isGap c

theorem skipBlank {gap : List Char} (blank : Gap gap) (cs : List Char) :
    skipGap (gap ++ cs) = skipGap cs :=
  List.dropWhile_append_of_pos blank

theorem skipNone {c : Char} (shown : isGap c = false) (cs : List Char) :
    skipGap (c :: cs) = c :: cs := by
  simp [skipGap, shown]

theorem skipTo {gap : List Char} (blank : Gap gap) {c : Char} (shown : isGap c = false)
    (cs : List Char) : skipGap (gap ++ c :: cs) = c :: cs := by
  rw [skipBlank blank, skipNone shown]

theorem stopsAt {c : Char} (mark : c = ',' ∨ c = ']' ∨ c = '\x7d' ∨ isGap c) (cs : List Char) :
    Stops (c :: cs) := by
  rintro c ⟨⟩
  rcases mark with rfl | rfl | rfl | gap
  · decide
  · decide
  · decide
  · simp only [isGap, Bool.or_eq_true, decide_eq_true_eq] at gap
    rcases gap with ((rfl | rfl) | rfl) | rfl <;> decide

theorem stopsBehind {gap : List Char} (blank : Gap gap) {rest : List Char} (stops : Stops rest) :
    Stops (gap ++ rest) := by
  cases gap with
  | nil => exact stops
  | cons c gap => exact stopsAt (.inr (.inr (.inr (blank c (by simp))))) _

theorem readBehindGap {gap : List Char} (blank : Gap gap) (fuel : Nat) (cs : List Char) :
    readValue fuel (gap ++ cs) = readValue fuel cs := by
  cases fuel with
  | zero => simp [readValue]
  | succ fuel => rw [readValue, skipBlank blank, readValue]

theorem startShown {c : Char} (start : c = '-' ∨ c.isDigit) : isGap c = false := by
  by_contra gap
  simp only [isGap, Bool.not_eq_false, Bool.or_eq_true, decide_eq_true_eq] at gap
  rcases gap with ((rfl | rfl) | rfl) | rfl <;> simp at start

theorem readAtDigit (fuel : Nat) {c : Char} (start : c = '-' ∨ c.isDigit) (cs : List Char) :
    readValue (fuel + 1) (c :: cs) = readNumber (c :: cs) := by
  rw [readValue, skipNone (startShown start)]
  split <;> simp_all

theorem numeralStart (n : Numeral) :
    ∃ c cs, n.write = c :: cs ∧ (c = '-' ∨ c.isDigit) := by
  obtain ⟨c, whole, cut⟩ := List.exists_cons_of_ne_nil n.wholeThere
  have digit : c.isDigit := n.wholeDigits c (by simp [cut])
  cases sign : n.negative
  · exact ⟨c, whole ++ n.point ++ Numeral.powerChars n.power, by simp [Numeral.write, sign, cut],
      .inr digit⟩
  · exact ⟨'-', n.whole ++ n.point ++ Numeral.powerChars n.power, by simp [Numeral.write, sign],
      .inl rfl⟩

theorem readValueNumeral (n : Numeral) (fuel : Nat) {rest : List Char} (stops : Stops rest) :
    readValue (fuel + 1) (n.write ++ rest) = some (n.value, rest) := by
  obtain ⟨c, cs, written, start⟩ := numeralStart n
  rw [← readNumeral n stops, written, List.cons_append, readAtDigit fuel start]

def Reads (l : Layout) (j : Json) : Prop :=
  ∀ depth fuel rest, Stops rest → (chars l depth j).length ≤ fuel →
    readValue (fuel + 1) (chars l depth j ++ rest) = some (j.reread, rest)

theorem readNull (fuel : Nat) (rest : List Char) :
    readValue (fuel + 1) ("null".toList ++ rest) = some (.null, rest) := by
  rw [readValue]
  rfl

theorem readsNull (l : Layout) : Reads l .null := by
  intro depth fuel rest stops enough
  rw [chars, reread]
  exact readNull fuel rest

theorem readsBoolean (l : Layout) (b : Bool) : Reads l (.boolean b) := by
  intro depth fuel rest stops enough
  cases b <;> rw [chars, reread, readValue] <;> rfl

theorem readsInteger (l : Layout) (n : Int) : Reads l (.integer n) := by
  intro depth fuel rest stops enough
  rw [chars, ← integerWrite, readValueNumeral _ fuel stops, integerValue, reread]

theorem restoredNone {x : Float} (given : Decimal.Binary.ofFloat? x = none) :
    restored x = .null := by
  rw [restored, floatChars, given]
  rfl

theorem restoredSome {x : Float} {b : Decimal.Binary} (given : Decimal.Binary.ofFloat? x = some b) :
    ∃ n : Numeral, n.IsFloat ∧ n.write = floatChars x ∧ restored x = n.value := by
  obtain ⟨n, float, written⟩ := writeNumeral b
  have whole : n.write = floatChars x := by rw [floatChars, given, written]
  have ends := @readNumeral n [] (by simp [Stops])
  rw [List.append_nil, whole] at ends
  exact ⟨n, float, whole, by rw [restored, ends]⟩

theorem readsFloat (l : Layout) (x : Float) : Reads l (.float x) := by
  intro depth fuel rest stops enough
  rw [chars, reread]
  cases given : Decimal.Binary.ofFloat? x with
  | none =>
    rw [restoredNone given, floatChars, given]
    exact readNull fuel rest
  | some b =>
    obtain ⟨n, -, written, value⟩ := restoredSome given
    rw [← written, readValueNumeral n fuel stops, value]

theorem quotedAppend (s : String) (rest : List Char) :
    quoted s ++ rest = '"' :: (s.toList.flatMap escapeChar ++ '"' :: rest) := by
  simp [quoted]

theorem readsText (l : Layout) (s : String) : Reads l (.text s) := by
  intro depth fuel rest stops enough
  rw [chars, quotedAppend, reread, readValue, skipNone (by decide)]
  simp [readQuoted]

structure Layout.Spaced (l : Layout) : Prop where
  gap : ∀ depth, Gap (l.gap depth)
  colon : ∃ blank, l.colon = ':' :: blank ∧ Gap blank

theorem compactSpaced : Layout.compact.Spaced where
  gap := by simp [Layout.compact, Gap]
  colon := ⟨[], rfl, by simp [Gap]⟩

theorem indentedSpaced : Layout.indented.Spaced where
  gap := by
    intro depth c inside
    rcases List.mem_cons.mp inside with rfl | blank
    · rfl
    · rw [List.eq_of_mem_replicate blank]
      rfl
  colon := ⟨[' '], rfl, by simp [Gap, isGap]⟩

theorem charsStart (l : Layout) (depth : Nat) (j : Json) :
    ∃ c cs, chars l depth j = c :: cs ∧ isGap c = false ∧ c ≠ ']' := by
  have numeral (n : Numeral) : ∃ c cs, n.write = c :: cs ∧ isGap c = false ∧ c ≠ ']' := by
    obtain ⟨c, cs, written, start⟩ := numeralStart n
    refine ⟨c, cs, written, startShown start, ?_⟩
    rintro rfl
    simp at start
  cases j with
  | null => exact ⟨'n', ['u', 'l', 'l'], by simp [chars], by decide⟩
  | boolean b =>
    cases b
    · exact ⟨'f', ['a', 'l', 's', 'e'], by simp [chars], by decide⟩
    · exact ⟨'t', ['r', 'u', 'e'], by simp [chars], by decide⟩
  | integer n => rw [chars, ← integerWrite]; exact numeral _
  | float x =>
    rw [chars]
    cases given : Decimal.Binary.ofFloat? x with
    | none => exact ⟨'n', ['u', 'l', 'l'], by simp [floatChars, given], by decide⟩
    | some b =>
      obtain ⟨n, -, written, -⟩ := restoredSome given
      rw [← written]
      exact numeral n
  | text s => exact ⟨'"', _, by rw [chars, quoted], by decide⟩
  | list items =>
    cases items with
    | nil => exact ⟨'[', [']'], by rw [chars], by decide⟩
    | cons j js =>
      rw [chars, List.cons_append, List.cons_append]
      exact ⟨'[', _, rfl, by decide⟩
  | object fields =>
    cases fields with
    | nil => exact ⟨'\x7b', ['\x7d'], by rw [chars], by decide⟩
    | cons field fields =>
      rw [chars, List.cons_append, List.cons_append]
      exact ⟨'\x7b', _, rfl, by decide⟩

theorem readAtBracket (fuel : Nat) {gap : List Char} (blank : Gap gap) {c : Char}
    (shown : isGap c = false) (other : c ≠ ']') (cs : List Char) :
    readValue (fuel + 1) ('[' :: (gap ++ c :: cs)) =
      (readItems fuel (c :: cs)).map fun (items, rest) => (.list items, rest) := by
  rw [readValue, skipNone (by decide)]
  simp only [skipTo blank shown]
  split
  · simp_all
  · rw [Option.map_eq_bind]
    rfl

theorem readAtBrace (fuel : Nat) {gap : List Char} (blank : Gap gap) (cs : List Char) :
    readValue (fuel + 1) ('\x7b' :: (gap ++ '"' :: cs)) =
      (readFields fuel ('"' :: cs)).map fun (fields, rest) => (.object fields, rest) := by
  have quote : skipGap (gap ++ '"' :: cs) = '"' :: cs := skipTo blank (by decide) cs
  rw [readValue, skipNone (by decide), Option.map_eq_bind]
  simp only [quote]
  rfl

section Parts
variable {l : Layout} (spaced : l.Spaced)
include spaced

theorem readsItems {j : Json} {js : List Json} (each : ∀ i ∈ j :: js, Reads l i) (depth : Nat)
    {opening closing : List Char} (before : Gap opening) (behind : Gap closing) {fuel : Nat}
    (rest : List Char) (enough : (chars l depth j ++ itemChars l depth js).length ≤ fuel) :
    readItems (fuel + 2) (opening ++ (chars l depth j ++ (itemChars l depth js ++
      (closing ++ ']' :: rest)))) = some (rereadItems (j :: js), rest) := by
  have first : Reads l j := each j (by simp)
  rw [List.length_append] at enough
  induction js generalizing j opening fuel with
  | nil =>
    have stops : Stops (closing ++ ']' :: rest) := stopsBehind behind (stopsAt (by simp) _)
    have close : skipGap (closing ++ ']' :: rest) = ']' :: rest := skipTo behind (by decide) rest
    have item := first depth fuel _ stops (by omega)
    rw [itemChars, List.nil_append, readItems, readBehindGap before, item]
    simp [close, rereadItems]
  | cons i js ih =>
    have split : itemChars l depth (i :: js) ++ (closing ++ ']' :: rest) =
        ',' :: (l.gap depth ++ (chars l depth i ++ (itemChars l depth js ++
          (closing ++ ']' :: rest)))) := by
      simp [itemChars]
    have stops : Stops (itemChars l depth (i :: js) ++ (closing ++ ']' :: rest)) := by
      rw [split]
      exact stopsAt (by simp) _
    have comma (cs : List Char) : skipGap (',' :: cs) = ',' :: cs := skipNone (by decide) cs
    have item := first depth fuel _ stops (by omega)
    simp only [itemChars, List.length_append, List.length_cons] at enough
    obtain ⟨fuel, rfl⟩ := Nat.exists_eq_succ_of_ne_zero (show fuel ≠ 0 by omega)
    have others := @ih i (fun k inside => each k (by simp_all)) (l.gap depth) (spaced.gap depth)
      fuel (by omega) (each i (by simp))
    rw [readItems, readBehindGap before, item, split]
    simp [comma, others, rereadItems]

theorem readsList {items : List Json} (each : ∀ i ∈ items, Reads l i) :
    Reads l (.list items) := by
  intro depth fuel rest stops enough
  cases items with
  | nil =>
    rw [chars, reread, readValue]
    rfl
  | cons j js =>
    obtain ⟨c, cs, start, shown, notClosing⟩ := charsStart l (depth + 1) j
    have split : chars l depth (.list (j :: js)) ++ rest =
        '[' :: (l.gap (depth + 1) ++ (chars l (depth + 1) j ++ (itemChars l (depth + 1) js ++
          (l.gap depth ++ ']' :: rest)))) := by
      simp [chars]
    simp only [chars, List.length_append, List.length_cons, List.length_nil] at enough
    obtain ⟨fuel, rfl⟩ := Nat.exists_eq_add_of_le (show 2 ≤ fuel by omega)
    have read := @readsItems l spaced j js each (depth + 1) [] (l.gap depth) (by simp [Gap])
      (spaced.gap depth) fuel rest (by rw [List.length_append]; omega)
    rw [List.nil_append, start, List.cons_append] at read
    rw [split, start, List.cons_append, Nat.add_comm 2,
      readAtBracket (fuel + 2) (spaced.gap _) shown notClosing, read]
    simp [reread]

theorem readsFields {field : String × Json} {fields : List (String × Json)}
    (each : ∀ f ∈ field :: fields, Reads l f.2) (depth : Nat) {opening closing : List Char}
    (before : Gap opening) (behind : Gap closing) {fuel : Nat} (rest : List Char)
    (enough : (chars l depth field.2 ++ fieldChars l depth fields).length ≤ fuel) :
    readFields (fuel + 2) (opening ++ (quoted field.1 ++ (l.colon ++ (chars l depth field.2 ++
      (fieldChars l depth fields ++ (closing ++ '\x7d' :: rest)))))) =
        some (rereadFields (field :: fields), rest) := by
  have first : Reads l field.2 := each field (by simp)
  obtain ⟨blank, colon, gap⟩ := spaced.colon
  rw [colon, List.cons_append]
  rw [List.length_append] at enough
  have marks (cs : List Char) : skipGap (':' :: cs) = ':' :: cs := skipNone (by decide) cs
  induction fields generalizing field opening fuel with
  | nil =>
    have stops : Stops (closing ++ '\x7d' :: rest) := stopsBehind behind (stopsAt (by simp) _)
    have close : skipGap (closing ++ '\x7d' :: rest) = '\x7d' :: rest :=
      skipTo behind (by decide) rest
    have value := first depth fuel _ stops (by omega)
    rw [fieldChars, List.nil_append, readFields, quotedAppend, skipTo before (by decide)]
    simp [readQuoted, marks, readBehindGap gap, value, close, rereadFields]
  | cons next fields ih =>
    have split : fieldChars l depth (next :: fields) ++ (closing ++ '\x7d' :: rest) =
        ',' :: (l.gap depth ++ (quoted next.1 ++ ':' :: (blank ++ (chars l depth next.2 ++
          (fieldChars l depth fields ++ (closing ++ '\x7d' :: rest)))))) := by
      simp [fieldChars, colon]
    have stops : Stops (fieldChars l depth (next :: fields) ++ (closing ++ '\x7d' :: rest)) := by
      rw [split]
      exact stopsAt (by simp) _
    have comma (cs : List Char) : skipGap (',' :: cs) = ',' :: cs := skipNone (by decide) cs
    have value := first depth fuel _ stops (by omega)
    rw [split] at value
    simp only [fieldChars, List.length_append, List.length_cons] at enough
    obtain ⟨fuel, rfl⟩ := Nat.exists_eq_succ_of_ne_zero (show fuel ≠ 0 by omega)
    have others := @ih next (fun f inside => each f (by simp_all)) (l.gap depth) (spaced.gap depth)
      fuel (by omega) (each next (by simp))
    rw [readFields, quotedAppend, skipTo before (by decide), split]
    simp [readQuoted, marks, readBehindGap gap, value, comma, others, rereadFields]

theorem readsObject {fields : List (String × Json)} (each : ∀ f ∈ fields, Reads l f.2) :
    Reads l (.object fields) := by
  intro depth fuel rest stops enough
  cases fields with
  | nil =>
    rw [chars, reread, readValue]
    rfl
  | cons field fields =>
    have split : chars l depth (.object (field :: fields)) ++ rest =
        '\x7b' :: (l.gap (depth + 1) ++ (quoted field.1 ++ (l.colon ++
          (chars l (depth + 1) field.2 ++ (fieldChars l (depth + 1) fields ++
            (l.gap depth ++ '\x7d' :: rest)))))) := by
      simp [chars]
    simp only [chars, List.length_append, List.length_cons, List.length_nil] at enough
    obtain ⟨fuel, rfl⟩ := Nat.exists_eq_add_of_le (show 2 ≤ fuel by omega)
    have read := @readsFields l spaced field fields each (depth + 1) [] (l.gap depth)
      (by simp [Gap]) (spaced.gap depth) fuel rest (by rw [List.length_append]; omega)
    rw [List.nil_append, quotedAppend] at read
    rw [split, quotedAppend, Nat.add_comm 2, readAtBrace (fuel + 2) (spaced.gap _), read]
    simp [reread]

end Parts

theorem readsAll {l : Layout} (spaced : l.Spaced) : ∀ j, Reads l j
  | .null => readsNull l
  | .boolean b => readsBoolean l b
  | .integer n => readsInteger l n
  | .float x => readsFloat l x
  | .text s => readsText l s
  | .list items => readsList spaced fun j _ => readsAll spaced j
  | .object fields => readsObject spaced fun field _ => readsAll spaced field.2
decreasing_by
  · have inside := List.sizeOf_lt_of_mem ‹j ∈ items›
    rw [Json.list.sizeOf_spec]
    omega
  · have inside := List.sizeOf_lt_of_mem ‹field ∈ fields›
    rw [Prod.mk.sizeOf_spec] at inside
    rw [Json.object.sizeOf_spec]
    omega

theorem readWritten {l : Layout} (spaced : l.Spaced) (j : Json) :
    read? (String.ofList (chars l 0 j)) = some j.reread := by
  have ends : Stops [] := fun _ first => nomatch first
  have read := readsAll spaced j 0 (chars l 0 j).length [] ends (Nat.le_refl _)
  rw [List.append_nil] at read
  simp only [read?, String.toList_ofList, read, Option.bind_eq_bind, Option.bind_some]
  rfl

theorem readBothLayouts (j : Json) :
    read? j.compact = some j.reread ∧ read? j.pretty = some j.reread :=
  ⟨readWritten compactSpaced j, readWritten indentedSpaced j⟩

end JavaAudit.Json
