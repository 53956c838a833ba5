/-!
Blank characters and the ways a text is cut at them. A character is blank when it has the Unicode
property `White_Space`: the ASCII blanks from tab to carriage return, the space, and nineteen
characters beyond ASCII.
-/

set_option autoImplicit false

namespace TikzChart.Text

/-- The code points with the property `White_Space`, as closed ranges. -/
def blankRanges : List (Nat × Nat) :=
  [(0x9, 0xD), (0x20, 0x20), (0x85, 0x85), (0xA0, 0xA0), (0x1680, 0x1680), (0x2000, 0x200A),
    (0x2028, 0x2029), (0x202F, 0x202F), (0x205F, 0x205F), (0x3000, 0x3000)]

def isBlank (c : Char) : Bool :=
  blankRanges.any fun range => decide (range.1 ≤ c.toNat) && decide (c.toNat ≤ range.2)

/-- The pieces between the separators; there is always at least one piece. -/
def splitOn {α : Type} [DecidableEq α] (separator : α) : List α → List (List α)
  | [] => [[]]
  | c :: rest =>
    if c = separator then [] :: splitOn separator rest
    else match splitOn separator rest with
      | [] => [[c]]
      | piece :: pieces => (c :: piece) :: pieces

/-- The pieces under one separator between each two. -/
def joinWith {α : Type} (separator : List α) : List (List α) → List α
  | [] => []
  | [piece] => piece
  | piece :: pieces => piece ++ separator ++ joinWith separator pieces

/-- The part before the first separator and the part after it. -/
def splitFirst? (separator : Char) : List Char → Option (List Char × List Char)
  | [] => none
  | c :: rest =>
    if c = separator then some ([], rest)
    else (splitFirst? separator rest).map fun (before, after) => (c :: before, after)

/-- Drops the elements at the end that satisfy the test. -/
def dropTrailing {α : Type} (test : α → Bool) (text : List α) : List α :=
  (text.reverse.dropWhile test).reverse

/-- The text without the blanks at its two ends. -/
def trimChars (text : List Char) : List Char := dropTrailing isBlank (text.dropWhile isBlank)

def trim (text : String) : String := String.ofList (trimChars text.toList)

/-- The longest stretches without blanks. -/
def words : List Char → List (List Char)
  | [] => []
  | c :: rest =>
    if isBlank c then words rest
    else match rest with
      | [] => [[c]]
      | next :: _ =>
        if isBlank next then [c] :: words rest
        else match words rest with
          | [] => [[c]]
          | word :: others => (c :: word) :: others

/-- The lines of a text: each ends before a line feed, or before a carriage return and a line feed;
nothing is left after the last line feed. -/
def lines (text : List Char) : List (List Char) :=
  let pieces := splitOn '\n' text
  let ended := pieces.dropLast.map fun line =>
    if line.getLast? = some '\r' then line.dropLast else line
  match pieces.getLast? with
  | some [] => ended
  | some last => ended ++ [last]
  | none => ended

/-- A text in braces, as the argument of a command of TeX stands. -/
def braced (text : String) : String := "\x7b" ++ text ++ "\x7d"

end TikzChart.Text
