/-!
# Separated pieces

Pieces written one after the other with a separator between them. A separator follows each
piece that is not empty, except the last one: a piece that writes nothing takes no separator
with it. Pieces are characters of a text, or the tokens of a statement.
-/

namespace RowMapper.Text

/-- The pieces in order, each non-empty piece but the last followed by the separator. -/
def separated (separator : List α) : List (List α) → List α
  | [] => []
  | [piece] => piece
  | piece :: next :: rest =>
    (if piece.isEmpty then [] else piece ++ separator) ++ separated separator (next :: rest)

@[simp] theorem separated_nil (separator : List α) : separated separator [] = [] := rfl

@[simp] theorem separated_singleton (separator piece : List α) :
    separated separator [piece] = piece := rfl

/-- The texts behind what is already written, separated. -/
def appendSeparated (written separator : String) (texts : List String) : String :=
  written ++ String.ofList (separated separator.toList (texts.map String.toList))

end RowMapper.Text
