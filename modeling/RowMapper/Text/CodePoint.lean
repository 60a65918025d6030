import RowMapper.Text.Hex

/-!
# Tables of code points

What is known of the characters beyond ASCII is kept in tables. A table is written in rows of
words with numbers in hexadecimal. The word `41-5a` stands for a run of code points and
`100-12e/2` for every second one of them. Behind a colon stands what becomes of them: `41-5a:61`
moves the run, so that it starts at another code point, and `149:2bc+6e,73` gives the texts for
the code point and those that follow it. Other words stand for nothing.
-/

namespace RowMapper.Text

/-- The number that a word stands for. -/
def readNumber (word : String) : Option Nat :=
  if word.isEmpty then none else readHex word.toList

/-- The words of all rows. -/
def rowWords (rows : List String) : List String := rows.flatMap (·.splitOn " ")

/-! ## Sets -/

/-- The code points from `first` to `last`, every `stride` of them. -/
structure Run where
  first : Nat
  last : Nat
  stride : Nat := 1
  deriving Repr, DecidableEq

/-- The code point belongs to the run. -/
def Run.contains (run : Run) (n : Nat) : Bool :=
  run.first ≤ n && n ≤ run.last && (n - run.first) % run.stride == 0

/-- The run that a word stands for. -/
def Run.ofWord? (word : String) : Option Run := do
  let (span, stride) ← match word.splitOn "/" with
    | [span] => some (span, 1)
    | [span, stride] => (readNumber stride).map (span, ·)
    | _ => none
  match span.splitOn "-" with
  | [point] => (readNumber point).map fun n => ⟨n, n, stride⟩
  | [first, last] => return ⟨← readNumber first, ← readNumber last, stride⟩
  | _ => none

/-- A set of code points. -/
structure CodeSet where
  runs : List Run
  deriving Repr, DecidableEq

/-- The set written in rows. -/
def CodeSet.ofRows (rows : List String) : CodeSet := ⟨(rowWords rows).filterMap Run.ofWord?⟩

/-- The character belongs to the set. -/
def CodeSet.contains (set : CodeSet) (c : Char) : Bool := set.runs.any (·.contains c.toNat)

/-! ## Maps -/

/-- What becomes of some code points. -/
inductive Change where
  /-- The run moves to where its first code point goes. -/
  | move (run : Run) (target : Nat)
  /-- The code points from `first` on become these texts, one each. -/
  | each (first : Nat) (texts : List (List Nat))
  deriving Repr, DecidableEq

/-- What becomes of a code point. -/
def Change.target? : Change → Nat → Option (List Nat)
  | .move run target, n => if run.contains n then some [target + (n - run.first)] else none
  | .each first texts, n => if first ≤ n then texts[n - first]? else none

/-- The code point that becomes a text. -/
def Change.source? : Change → List Nat → Option Nat
  | .move run target, [n] =>
    let source := run.first + (n - target)
    if target ≤ n && run.contains source then some source else none
  | .move .., _ => none
  | .each first texts, text => (texts.findIdx? (· == text)).map (first + ·)

/-- The change that a word stands for. -/
def Change.ofWord? (word : String) : Option Change :=
  match word.splitOn ":" with
  | [source, targets] => do
    let run ← Run.ofWord? source
    let texts ← (targets.splitOn ",").mapM fun text => (text.splitOn "+").mapM readNumber
    match run.first == run.last, texts with
    | false, [[target]] => some (.move run target)
    | true, texts => some (.each run.first texts)
    | false, _ => none
  | _ => none

/-- A map from code points to texts. -/
structure CodeMap where
  changes : List Change
  deriving Repr, DecidableEq

/-- The map written in rows. -/
def CodeMap.ofRows (rows : List String) : CodeMap := ⟨(rowWords rows).filterMap Change.ofWord?⟩

/-- What becomes of the character, if the map tells. -/
def CodeMap.target? (map : CodeMap) (c : Char) : Option (List Char) :=
  (map.changes.findSome? (·.target? c.toNat)).map (·.map Char.ofNat)

/-- The character that becomes the text. -/
def CodeMap.source? (map : CodeMap) (text : List Char) : Option Char :=
  (map.changes.findSome? (·.source? (text.map Char.toNat))).map Char.ofNat

end RowMapper.Text
