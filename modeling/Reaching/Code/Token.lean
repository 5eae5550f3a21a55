/-
Tokens of source text and the places they are found at.
-/
import Reaching.Span

namespace Reaching.Code

/-- A place in the source: a line from 1 and a column from 0 in UTF-8 bytes. -/
structure Place where
  line : Nat
  column : Nat
  deriving DecidableEq, Repr, Inhabited

/-- The place after some characters. -/
def Place.after (p : Place) (cs : List Char) : Place :=
  cs.foldl (fun p c => if c = '\n' then ⟨p.line + 1, 0⟩ else ⟨p.line, p.column + c.utf8Size⟩) p

/-- The span from one place to another. -/
def Place.spanTo (first last : Place) : Span := ⟨first.line, first.column, last.line, last.column⟩

/-- What a token is. Layout tokens mark the end of a logical line and the
change of indentation; they have no text. -/
inductive TokenKind where
  | name | keyword | number | string | symbol | newline | indent | dedent | endOfText
  deriving DecidableEq, Repr, Inhabited

structure Token where
  kind : TokenKind
  text : List Char
  first : Place
  last : Place
  deriving DecidableEq, Repr, Inhabited

/-- Whether a token is of a kind and has a text. -/
def Token.is (t : Token) (kind : TokenKind) (text : String) : Bool :=
  t.kind = kind && t.text = text.toList

/-- Whether a token marks layout and nothing that was written. -/
def TokenKind.isLayout : TokenKind → Bool
  | .newline | .indent | .dedent | .endOfText => true
  | _ => false

/-- The names with a fixed meaning. -/
def keywords : List String :=
  ["False", "None", "True", "and", "as", "assert", "async", "await", "break", "class",
    "continue", "def", "del", "elif", "else", "except", "finally", "for", "from", "global",
    "if", "import", "in", "is", "lambda", "nonlocal", "not", "or", "pass", "raise", "return",
    "try", "while", "with", "yield"]

/-- The symbols, longer ones in front of those they start with. -/
def symbols : List String :=
  ["**=", "//=", ">>=", "<<=", "...", "!=", "%=", "&=", "**", "*=", "+=", "-=", "->", "//",
    "/=", ":=", "<<", "<=", "==", ">=", ">>", "@=", "^=", "|=", "%", "&", "(", ")", "*", "+",
    ",", "-", ".", "/", ":", ";", "<", "=", ">", "@", "[", "]", "^", "\x7b", "|", "\x7d", "~"]

end Reaching.Code
