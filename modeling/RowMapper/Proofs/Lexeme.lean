import RowMapper.Sql.Dialect

/-!
# Lexemes of SQL

The reader of SQL text that statements are checked against: it knows nothing of tokens or of how
a statement was built. A text is a row of quoted names, words and symbols. A quoted name ends at
the first closing quote that no other one follows, and a doubled closing quote stands for one; a
word is a longest run of letters, digits and underscores, behind a sign of variables or not; a
comparison is read as a whole.

`Dialect.lexemes` reads a text from the left and holds what it is in the middle of.
`scan_append` says where a text may be cut: what is pending behind the first part must not go on
with the first character of the second.

* `Lexeme.placeholder?` tells the placeholders of both kinds from all other words.
* `scan_quote` is the decoding of a quoted name, for names of any characters.
-/

namespace RowMapper

/-- A lexeme of SQL. -/
inductive Lexeme where
  /-- A quoted name, decoded. -/
  | name (text : String)
  | word (text : String)
  | symbol (text : String)
  deriving Repr, DecidableEq

namespace Lexeme

/-- Words run on with letters, digits and underscores. -/
def isWordChar (c : Char) : Bool := c.isAlphanum || c == '_'

/-- The sign of a variable, which only begins a word. -/
def isSigil (c : Char) : Bool := c == '@' || c == '$'

/-- Comparisons are made of these. -/
def isComparison (c : Char) : Bool := c == '=' || c == '<' || c == '>' || c == '!'

/-- The characters between lexemes. -/
def isBlank (c : Char) : Bool := c == ' ' || c == '\n'

/-- The number that the digits stand for. -/
def number? (digits : List Char) : Option Nat :=
  if digits.isEmpty || !digits.all Char.isDigit then none else some (Nat.ofDigitChars 10 digits 0)

/-- The position of the parameter that a placeholder stands for. -/
def placeholder? : Lexeme → Option Nat
  | .word text =>
    match text.toList with
    | '@' :: 'p' :: digits => number? digits
    | '$' :: digits => (number? digits).map (· - 1)
    | _ => none
  | _ => none

end Lexeme

/-- The positions in the placeholders, in the order of the text. -/
def placeholders (ls : List Lexeme) : List Nat := ls.filterMap Lexeme.placeholder?

/-- What a reader is in the middle of. -/
inductive Pending where
  | nothing
  | word (text : List Char)
  | comparison (text : List Char)
  | single (c : Char)
  /-- A name without its closing quote. -/
  | name (text : List Char)
  /-- A name behind a closing quote, which another one would double. -/
  | closed (text : List Char)
  deriving DecidableEq

namespace Pending

/-- What a character begins. -/
def start (q : Quoting) (c : Char) : Pending :=
  if c == q.left then .name []
  else if Lexeme.isWordChar c || Lexeme.isSigil c then .word [c]
  else if Lexeme.isComparison c then .comparison [c]
  else if Lexeme.isBlank c then .nothing
  else .single c

/-- What is pending with one more character, if it goes on with it. -/
def extend? (q : Quoting) (c : Char) : Pending → Option Pending
  | .word text => if Lexeme.isWordChar c then some (.word (text ++ [c])) else none
  | .comparison text =>
    if Lexeme.isComparison c then some (.comparison (text ++ [c])) else none
  | .name text => some (if c == q.right then .closed text else .name (text ++ [c]))
  | .closed text => if c == q.right then some (.name (text ++ [c])) else none
  | .nothing | .single _ => none

/-- The lexeme that is complete once nothing goes on with it. -/
def lexemes : Pending → List Lexeme
  | .nothing => []
  | .word text => [.word (String.ofList text)]
  | .comparison text => [.symbol (String.ofList text)]
  | .single c => [.symbol (String.singleton c)]
  | .name text | .closed text => [.name (String.ofList text)]

@[simp] theorem extend?_nothing (q : Quoting) (c : Char) : extend? q c .nothing = none := rfl

@[simp] theorem extend?_single (q : Quoting) (c x : Char) : extend? q c (.single x) = none := rfl

@[simp] theorem lexemes_nothing : lexemes .nothing = [] := rfl

/-- What is pending behind the characters. -/
def after (q : Quoting) : Pending → List Char → Pending
  | p, [] => p
  | p, c :: rest => after q ((p.extend? q c).getD (start q c)) rest

end Pending

/-- The lexemes of the characters behind what is pending. -/
def scan (q : Quoting) : Pending → List Char → List Lexeme
  | p, [] => p.lexemes
  | p, c :: rest =>
    match p.extend? q c with
    | some longer => scan q longer rest
    | none => p.lexemes ++ scan q (.start q c) rest

/-- The lexemes of a text. -/
def Dialect.lexemes (d : Dialect) (sql : String) : List Lexeme :=
  scan d.quoting .nothing sql.toList

/-! ## Cutting a text -/

section Scan

variable {q : Quoting} {p : Pending} {rest : List Char}

/-- What is pending is complete when the text does not go on with it. -/
theorem scan_of_stop (h : ∀ c ∈ rest.head?, p.extend? q c = none) :
    scan q p rest = p.lexemes ++ scan q .nothing rest := by
  cases rest with
  | nil => simp [scan]
  | cons c rest =>
    have hc : p.extend? q c = none := h c rfl
    simp [scan, hc]

/-- A text may be cut where what is pending does not go on. -/
theorem scan_append (text : List Char)
    (h : ∀ c ∈ rest.head?, (p.after q text).extend? q c = none) :
    scan q p (text ++ rest) = scan q p text ++ scan q .nothing rest := by
  -- by the first part, whatever is pending before it; the cut is behind its last character
  induction text generalizing p with
  | nil => exact scan_of_stop h
  | cons c text ih =>
    rw [Pending.after] at h
    cases hc : p.extend? q c with
    | some longer =>
      rw [hc] at h
      simp only [List.cons_append, scan, hc]
      exact ih h
    | none =>
      rw [hc] at h
      simp only [List.cons_append, scan, hc, List.append_assoc]
      rw [ih (by simpa using h)]

/-- A word takes all that it may run on with. -/
theorem scan_word_append {text more : List Char} (h : ∀ c ∈ more, Lexeme.isWordChar c = true) :
    scan q (.word text) (more ++ rest) = scan q (.word (text ++ more)) rest := by
  induction more generalizing text with
  | nil => simp
  | cons c more ih =>
    have hc : Lexeme.isWordChar c = true := h c (by simp)
    have hmore : ∀ c ∈ more, Lexeme.isWordChar c = true := fun c hm => h c (by simp [hm])
    simp only [List.cons_append, scan, Pending.extend?, hc, if_true]
    rw [ih hmore]
    simp

/-- Inside of quotes the characters of a name are read as they are, a closing quote once for
two. -/
theorem scan_name_append (text name : List Char) :
    scan q (.name text) ((name.flatMap fun c => if c = q.right then [q.right, q.right] else [c])
        ++ rest)
      = scan q (.name (text ++ name)) rest := by
  induction name generalizing text with
  | nil => simp
  | cons c name ih =>
    rw [List.flatMap_cons]
    -- a closing quote is read in two steps: it closes the name, and the second one opens it again
    by_cases hc : c = q.right
    · subst hc
      simp only [if_true, List.cons_append, List.nil_append, scan, Pending.extend?,
        beq_self_eq_true]
      rw [ih]
      simp
    · simp only [if_neg hc, List.cons_append, List.nil_append, scan, Pending.extend?,
        beq_eq_false_iff_ne.2 hc, Bool.false_eq_true, if_false]
      rw [ih]
      simp

/-- A quoted name is read as the name, however it is written. -/
theorem scan_quote (name : String) :
    scan q .nothing ((q.quote name).toList ++ rest) = scan q (.closed name.toList) rest := by
  simp only [Quoting.quote, Text.escaping, String.toList_append, String.toList_singleton,
    String.toList_ofList, List.append_assoc, List.cons_append, List.nil_append, scan,
    Pending.extend?, Pending.lexemes, Pending.start, beq_self_eq_true, if_true]
  rw [scan_name_append]
  simp [scan, Pending.extend?]

end Scan

end RowMapper
