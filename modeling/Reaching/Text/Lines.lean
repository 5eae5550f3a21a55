/-
Splitting text into lines, and the breaks between them.
-/
namespace Reaching.Text

/-- Whether a character ends a line of text: line feed, carriage return, the
vertical controls, the separators of information, next line, and the two line
separators of Unicode. -/
def endsLine (c : Char) : Bool :=
  let n := c.toNat
  (0xa ≤ n && n ≤ 0xd) || (0x1c ≤ n && n ≤ 0x1e) || n = 0x85 || n = 0x2028 || n = 0x2029

/-- Line breaks of all sorts as line feeds: a carriage return stands for one,
with or without a line feed after it. -/
def unifyBreaks : List Char → List Char
  | '\r' :: '\n' :: rest => '\n' :: unifyBreaks rest
  | '\r' :: rest => '\n' :: unifyBreaks rest
  | c :: rest => c :: unifyBreaks rest
  | [] => []

/-- The lines of a text without their ends, the current one in reverse in
`read`. A carriage return takes a line feed after it with it. -/
def linesFrom : List Char → List Char → List (List Char)
  | [], [] => []
  | read, [] => [read.reverse]
  | read, '\r' :: '\n' :: rest => read.reverse :: linesFrom [] rest
  | read, c :: rest =>
    if endsLine c then read.reverse :: linesFrom [] rest else linesFrom (c :: read) rest

/-- The lines of a text without their ends. -/
def lines (text : String) : List String := (linesFrom [] text.toList).map String.ofList

/-- The first line of a text, empty if there is none. -/
def firstLine (text : String) : String := (lines text).headD ""

end Reaching.Text
