/-
Texts between separators.
-/
namespace Reaching.Text

/-- The texts between separators; without any, the whole text. -/
def fields (separator : Char) : List Char → List (List Char)
  | [] => [[]]
  | c :: rest =>
    if c = separator then [] :: fields separator rest
    else match fields separator rest with
      | [] => [[c]]
      | first :: more => (c :: first) :: more

end Reaching.Text
