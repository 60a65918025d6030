/-!
# Substitution in texts

Replaces the occurrences of a pattern in a text from left to right.
-/

namespace RowMapper.Text

/-- The characters with each occurrence of the pattern replaced, the leftmost first. -/
def substitute (pattern replacement : List Char) : List Char → List Char
  | [] => []
  | c :: rest =>
    if pattern.isPrefixOf (c :: rest) then
      replacement ++ substitute pattern replacement (rest.drop (pattern.length - 1))
    else c :: substitute pattern replacement rest
termination_by cs => cs.length
decreasing_by all_goals simp only [List.length_drop, List.length_cons]; omega

/-- The text with each occurrence of the pattern replaced, the leftmost first. -/
def replaced (s pattern replacement : String) : String :=
  String.ofList (substitute pattern.toList replacement.toList s.toList)

end RowMapper.Text
