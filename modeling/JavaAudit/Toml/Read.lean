import JavaAudit.Toml.Document
import JavaAudit.Toml.Scalar

/-! Reading a TOML document. A document that cannot be read is refused at an offset in bytes. -/
namespace JavaAudit.Toml

structure Cursor where
  rest : List Char
  offset : Nat
  deriving Inhabited

abbrev Reader := StateT Cursor (Except Nat)

namespace Reader

variable {α : Type}

def refuse : Reader α := fun c => .error c.offset

def offset : Reader Nat := fun c => .ok (c.offset, c)

def peek : Reader (List Char) := fun c => .ok (c.rest, c)

def skip (count : Nat) : Reader Unit := fun c =>
  .ok ((), ⟨c.rest.drop count, c.offset + ((c.rest.take count).map Char.utf8Size).foldr (· + ·) 0⟩)

def takeWhile (accepts : Char → Bool) : Reader (List Char) := do
  let taken := (← peek).takeWhile accepts
  skip taken.length
  pure taken

def literally (text : String) : Reader Unit := do
  if text.toList.isPrefixOf (← peek) then skip text.length else refuse

def ofOption : Option α → Reader α
  | some a => pure a
  | none => refuse

def require (h : Bool) : Reader Unit := if h then pure () else refuse

end Reader

open Reader

def isBlank (c : Char) : Bool := c = ' ' || c = '\t'

def isForbidden (c : Char) : Bool := (c.toNat < 32 && c ≠ '\t') || c.toNat = 127

def isNewline : List Char → Option Nat
  | '\n' :: _ => some 1
  | '\r' :: '\n' :: _ => some 2
  | _ => none

def blanks : Reader Unit := do
  let _ ← takeWhile isBlank

def comment : Reader Unit := do
  if (← peek).head? = some '#' then
    let _ ← takeWhile (!isForbidden ·)

def lineEnd : Reader Unit := do
  blanks
  comment
  let rest ← peek
  match rest, isNewline rest with
  | [], _ => pure ()
  | _, some n => skip n
  | _, none => refuse

def gap : Nat → Reader Unit
  | 0 => pure ()
  | fuel + 1 => do
      blanks
      comment
      match isNewline (← peek) with
      | some n => do
          skip n
          gap fuel
      | none => pure ()

def charOf? (digits : List Char) : Option Char :=
  let n := valueIn 16 digits
  if digits.all isHexDigit ∧ n.isValidChar then some (Char.ofNat n) else none

def escape? : List Char → Option (Char × Nat)
  | 'b' :: _ => some (Char.ofNat 8, 1)
  | 't' :: _ => some ('\t', 1)
  | 'n' :: _ => some ('\n', 1)
  | 'f' :: _ => some (Char.ofNat 12, 1)
  | 'r' :: _ => some ('\r', 1)
  | 'e' :: _ => some (Char.ofNat 27, 1)
  | '"' :: _ => some ('"', 1)
  | '\\' :: _ => some ('\\', 1)
  | 'x' :: rest => if 2 ≤ rest.length then (charOf? (rest.take 2)).map (·, 3) else none
  | 'u' :: rest => if 4 ≤ rest.length then (charOf? (rest.take 4)).map (·, 5) else none
  | 'U' :: rest => if 8 ≤ rest.length then (charOf? (rest.take 8)).map (·, 9) else none
  | _ => none

def basicText : Nat → Reader (List Char)
  | 0 => refuse
  | fuel + 1 => do
      let plain ← takeWhile fun c => !isForbidden c && c ≠ '"' && c ≠ '\\'
      match ← peek with
      | '"' :: _ => do
          skip 1
          pure plain
      | '\\' :: rest => do
          let (c, length) ← ofOption (escape? rest)
          skip (length + 1)
          let more ← basicText fuel
          pure (plain ++ c :: more)
      | _ => refuse

def literalText : Reader (List Char) := do
  let text ← takeWhile fun c => !isForbidden c && c ≠ '\''
  literally "'"
  pure text

/-- Quotes in a row: three of them close the text, and up to two more belong to it. -/
def closing (quote : Char) (cs : List Char) : Option (List Char) :=
  let run := (cs.takeWhile (· = quote)).length
  if 3 ≤ run ∧ run ≤ 5 then some (List.replicate (run - 3) quote) else none

def endsLine (cs : List Char) : Bool := (isNewline (cs.dropWhile isBlank)).isSome

def skipBlankLines : Nat → Reader Unit
  | 0 => pure ()
  | fuel + 1 => do
      blanks
      match isNewline (← peek) with
      | some n => do
          skip n
          skipBlankLines fuel
      | none => pure ()

def longBasicText : Nat → Reader (List Char)
  | 0 => refuse
  | fuel + 1 => do
      let plain ← takeWhile fun c => !isForbidden c && c ≠ '"' && c ≠ '\\'
      let rest ← peek
      match rest with
      | '"' :: behind => match closing '"' rest with
          | some quotes => do
              skip (quotes.length + 3)
              pure (plain ++ quotes)
          | none =>
              if behind.head? = some '"' ∧ behind.tail.head? = some '"' then refuse
              else do
                skip 1
                let more ← longBasicText fuel
                pure (plain ++ '"' :: more)
      | '\\' :: behind =>
          if endsLine behind then do
            skip 1
            skipBlankLines fuel
            let more ← longBasicText fuel
            pure (plain ++ more)
          else do
            let (c, length) ← ofOption (escape? behind)
            skip (length + 1)
            let more ← longBasicText fuel
            pure (plain ++ c :: more)
      | _ => do
          let length ← ofOption (isNewline rest)
          skip length
          let more ← longBasicText fuel
          pure (plain ++ '\n' :: more)

def longLiteralText : Nat → Reader (List Char)
  | 0 => refuse
  | fuel + 1 => do
      let plain ← takeWhile fun c => !isForbidden c && c ≠ '\''
      let rest ← peek
      match rest with
      | '\'' :: behind => match closing '\'' rest with
          | some quotes => do
              skip (quotes.length + 3)
              pure (plain ++ quotes)
          | none =>
              if behind.head? = some '\'' ∧ behind.tail.head? = some '\'' then refuse
              else do
                skip 1
                let more ← longLiteralText fuel
                pure (plain ++ '\'' :: more)
      | _ => do
          let length ← ofOption (isNewline rest)
          skip length
          let more ← longLiteralText fuel
          pure (plain ++ '\n' :: more)

def dropNewline : Reader Unit := do
  match isNewline (← peek) with
  | some n => skip n
  | none => pure ()

def isBareKeyChar (c : Char) : Bool := c.isAlphanum || c = '-' || c = '_'

def key (fuel : Nat) : Reader Key := do
  let start ← offset
  let name ← match ← peek with
    | '"' :: _ => do
        skip 1
        basicText fuel
    | '\'' :: _ => do
        skip 1
        literalText
    | _ => do
        let name ← takeWhile isBareKeyChar
        require !name.isEmpty
        pure name
  pure ⟨String.ofList name, start, ← offset⟩

def keys : Nat → Reader (List Key)
  | 0 => refuse
  | fuel + 1 => do
      let first ← key fuel
      blanks
      match ← peek with
      | '.' :: _ => do
          skip 1
          blanks
          let more ← keys fuel
          pure (first :: more)
      | _ => pure [first]

def isBareValueChar (c : Char) : Bool :=
  c.isAlphanum || c = '-' || c = '+' || c = '_' || c = '.' || c = ':'

def bareValue : Reader Value := do
  let first ← takeWhile isBareValueChar
  let more ← match ← peek with
    | ' ' :: c :: _ =>
        if date? first = some [] ∧ c.isDigit then do
          skip 1
          let time ← takeWhile isBareValueChar
          pure (' ' :: time)
        else pure []
    | _ => pure []
  ofOption (scalar? (first ++ more))

mutual

def value : Nat → Reader Node
  | 0 => refuse
  | fuel + 1 => do
      let start ← offset
      let found ← match ← peek with
        | '"' :: '"' :: '"' :: _ => do
            skip 3
            dropNewline
            let text ← longBasicText fuel
            pure (Value.text (String.ofList text))
        | '"' :: _ => do
            skip 1
            let text ← basicText fuel
            pure (Value.text (String.ofList text))
        | '\'' :: '\'' :: '\'' :: _ => do
            skip 3
            dropNewline
            let text ← longLiteralText fuel
            pure (Value.text (String.ofList text))
        | '\'' :: _ => do
            skip 1
            let text ← literalText
            pure (Value.text (String.ofList text))
        | '[' :: _ => do
            skip 1
            let items ← items fuel
            pure (Value.list items)
        | '\x7b' :: _ => do
            skip 1
            let fields ← fields fuel []
            pure (Value.table (closeFields fields))
        | _ => bareValue
      pure (.value ⟨start, ← offset⟩ found)

def items : Nat → Reader (List (Span × Value))
  | 0 => refuse
  | fuel + 1 => do
      gap fuel
      match ← peek with
      | ']' :: _ => do
          skip 1
          pure []
      | _ => do
          let item ← value fuel
          gap fuel
          match ← peek with
          | ',' :: _ => do
              skip 1
              let more ← items fuel
              pure (item.close :: more)
          | ']' :: _ => do
              skip 1
              pure [item.close]
          | _ => refuse

def fields : Nat → Fields → Reader Fields
  | 0, _ => refuse
  | fuel + 1, found => do
      gap fuel
      match ← peek with
      | '\x7d' :: _ => do
          skip 1
          pure found
      | _ => do
          let names ← keys fuel
          literally "="
          blanks
          let node ← value fuel
          let found ← ofOption (assign names node found)
          gap fuel
          match ← peek with
          | ',' :: _ => do
              skip 1
              fields fuel found
          | '\x7d' :: _ => do
              skip 1
              pure found
          | _ => refuse

end

def header (fuel : Nat) (double : Bool) : Reader Statement := do
  let start ← offset
  literally (if double then "[[" else "[")
  blanks
  let names ← keys fuel
  literally (if double then "]]" else "]")
  pure (.begins ⟨start, ← offset⟩ double names)

def assignment (fuel : Nat) : Reader Statement := do
  let names ← keys fuel
  literally "="
  blanks
  let node ← value fuel
  pure (.assigns names node)

def statements (fuel : Nat) : Nat → Draft → Reader Draft
  | 0, _ => refuse
  | lines + 1, draft => do
      gap fuel
      match ← peek with
      | [] => pure draft
      | rest => do
          let statement ← match rest with
            | '[' :: '[' :: _ => header fuel true
            | '[' :: _ => header fuel false
            | _ => assignment fuel
          lineEnd
          let draft ← ofOption (draft.add statement)
          statements fuel lines draft

def read (text : String) : Except Nat (List (String × Span × Value)) := do
  let cs := text.toList
  let fuel := cs.length + 2
  let cursor : Cursor := match cs with
    | c :: rest => if c.toNat = 0xFEFF then ⟨rest, 3⟩ else ⟨cs, 0⟩
    | [] => ⟨cs, 0⟩
  let (draft, _) ← statements fuel fuel {} cursor
  pure (closeFields draft.fields)

end JavaAudit.Toml
