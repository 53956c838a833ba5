import TikzChart.Text.Blank

/-!
The font sizes of TeX that labels, tics and legends can have, and the names they are chosen by. Case
matters: `large` and `Large` are different sizes.
-/

set_option autoImplicit false

namespace TikzChart

inductive FontSize where
  | tiny
  | scriptSize
  | footnoteSize
  | small
  | normalSize
  | large
  | larger
deriving DecidableEq, Repr

structure UnknownFontSize where
  text : String
deriving DecidableEq, Repr

def UnknownFontSize.message (error : UnknownFontSize) : String :=
  "unknown font size `" ++ error.text ++ "`"

namespace FontSize

def all : List FontSize := [tiny, scriptSize, footnoteSize, small, normalSize, large, larger]

/-- The name of the switch, without its backslash. -/
def name : FontSize → String
  | tiny => "tiny"
  | scriptSize => "scriptsize"
  | footnoteSize => "footnotesize"
  | small => "small"
  | normalSize => "normalsize"
  | large => "large"
  | larger => "Large"

def switch (size : FontSize) : String := "\\" ++ size.name

/-- Reads a name; blanks around it and backslashes before it are allowed. -/
def parse (text : String) : Except UnknownFontSize FontSize :=
  let bare := String.ofList ((Text.trimChars text.toList).dropWhile (· == '\\'))
  match all.find? (·.name == bare) with
  | some size => .ok size
  | none => .error ⟨text⟩

end FontSize

end TikzChart
