import RowMapper.Text.Cased
import RowMapper.Text.Cluster
import RowMapper.Text.Digits
import RowMapper.Text.LetterCase

/-!
# Snake case

A name is split into words at underscores, hyphens and spaces, between a lower and an upper
case letter, between a letter and a digit, and before the last capital of an acronym. The
words are joined in lower case with underscores.
-/

namespace RowMapper.Text

/-- What a letter contributes to finding the borders of words. -/
inductive LetterClass where
  | lower
  | upper
  | digit
  | separator
  | other
  deriving Repr, DecidableEq

/-- The class of a cluster. It is of one case if it has another form in the other case and none
in its own; a digit or separator with marks is neither. -/
def Cluster.letterClass (cluster : Cluster) : LetterClass :=
  if [['_'], ['-'], [' ']].contains cluster then .separator
  else if cluster.all isDigit then .digit
  else
    match cluster.any isLowerable, cluster.any isRaisable with
    | true, false => .upper
    | false, true => .lower
    | _, _ => .other

/-- A border lies between clusters of these classes, the third being that of the one after. -/
def isBorder (left right : LetterClass) (after : Option LetterClass) : Bool :=
  match left, right with
  | .lower, .upper => true
  | .lower, .digit => true
  | .upper, .digit => true
  | .digit, .lower => true
  | .digit, .upper => true
  | .upper, .upper => after == some .lower
  | _, _ => false

/-- The words of a name: the clusters cut at separators and borders. Words may be empty. -/
def cutWords : List Cluster → List (List Cluster)
  | [] => [[]]
  | cluster :: rest =>
    if cluster.letterClass == .separator then [] :: cutWords rest
    else
      let cut := match rest with
        | [] => false
        | next :: others =>
          isBorder cluster.letterClass next.letterClass (others.head?.map Cluster.letterClass)
      match cutWords rest with
      | [] => [[cluster]]
      | word :: words => if cut then [cluster] :: word :: words else (cluster :: word) :: words

/-- The words of a name that are not empty. -/
def words (name : String) : List (List Char) :=
  ((cutWords (clusters name.toList)).map List.flatten).filter (!·.isEmpty)

/-- The word in lower case; a capital sigma takes its final form behind the last letter.
`before` holds the letters passed, the nearest first. -/
def loweredWord (before : List Char) : List Char → List Char
  | [] => []
  | c :: rest =>
    let form := if c == 'Σ' && startsCased before && !startsCased rest then ['ς'] else lowered c
    form ++ loweredWord (c :: before) rest

/-- The name in lower case, its words joined with underscores. -/
def snakeCase (name : String) : String :=
  String.ofList (['_'].intercalate ((words name).map (loweredWord [])))

end RowMapper.Text
