/-! Text in parts, each of which may have a style on a terminal. -/
namespace JavaAudit

inductive Hue where
  | red | green | yellow | blue | cyan
  deriving DecidableEq, Repr, Inhabited

inductive Style where
  | plain (hue : Hue)
  | bold (hue : Hue)
  | dimmed
  deriving DecidableEq, Repr, Inhabited

def Hue.code : Hue → String
  | red => "31"
  | green => "32"
  | yellow => "33"
  | blue => "34"
  | cyan => "36"

def Style.code : Style → String
  | plain hue => hue.code
  | bold hue => "1;" ++ hue.code
  | dimmed => "2"

structure StyledPart where
  style : Option Style
  text : String
  deriving DecidableEq, Repr, Inhabited

abbrev StyledText := List StyledPart

namespace StyledText

def plain (text : String) : StyledText := [⟨none, text⟩]

def styled (style : Style) (text : String) : StyledText := [⟨some style, text⟩]

def escapeChar : Char := Char.ofNat 27

def control (code : String) : String := String.ofList [escapeChar, '['] ++ code ++ "m"

def renderPart (colors : Bool) (p : StyledPart) : String :=
  match p.style with
  | some style => if colors then control style.code ++ p.text ++ control "0" else p.text
  | none => p.text

def render (colors : Bool) (t : StyledText) : String := String.join (t.map (renderPart colors))

end StyledText

end JavaAudit
