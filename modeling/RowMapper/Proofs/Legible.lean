import Mathlib.Data.List.Forall2
import RowMapper.Proofs.Lexeme
import RowMapper.Text.Separated

/-!
# Legible pieces of SQL

A piece of SQL is *legible* in a dialect if its text is read token by token, whatever follows
it, and the placeholders that are read are its parameters in their order. Only the ends of a
piece matter for that: a piece is *closed* if nothing can go on with its last token, and it
*leads* if it cannot go on with any token before it.

* `Legible.append` puts legible pieces together where one of the two ends is safe.
* `legible_word`, `legible_parameter` and `legible_identifier` are the tokens; what is said of a
  fixed word is computed.
* `Legible.placeholders_text` is what is left of it for the text of a whole piece.
-/

namespace RowMapper

/-- The quotings of the given dialects. -/
def Quoting.usual : List Quoting := [⟨'"', '"'⟩, ⟨'[', ']'⟩]

/-- The given dialects. -/
def Dialect.shipped : List Dialect := [.generic, .postgres, .sqlServer]

/-- The quoting of a given dialect is one of the usual ones. -/
theorem Dialect.quoting_mem_usual {d : Dialect} (h : d ∈ Dialect.shipped) :
    d.quoting ∈ Quoting.usual := by
  simp only [Dialect.shipped, List.mem_cons, List.not_mem_nil, or_false] at h
  rcases h with rfl | rfl | rfl <;> decide

/-- The given dialects have the standard rules. -/
theorem Dialect.rules_of_shipped {d : Dialect} (h : d ∈ Dialect.shipped) :
    d.rules = RuleEntry.standard := by
  simp only [Dialect.shipped, List.mem_cons, List.not_mem_nil, or_false] at h
  rcases h with rfl | rfl | rfl <;> rfl

/-! ## Ends of texts -/

namespace Pending

/-- Nothing can go on with what is pending. -/
def isSettled : Pending → Bool
  | .nothing | .single _ => true
  | _ => false

/-- What is pending is not in the middle of a name. -/
def isWhole : Pending → Bool
  | .name _ => false
  | _ => true

end Pending

/-- The character goes on with nothing that is whole. -/
def Lexeme.detaches (c : Char) : Bool :=
  !isWordChar c && !isComparison c && c != '"' && c != ']'

/-- The text, if there is any, does not go on with what stands before it. -/
def Detached (cs : List Char) : Prop := ∀ c ∈ cs.head?, Lexeme.detaches c = true

theorem Detached.nil : Detached [] := by simp [Detached]

/-- What is settled goes on with no character. -/
theorem Pending.extend?_of_isSettled {p : Pending} (h : p.isSettled = true) (q : Quoting)
    (c : Char) : p.extend? q c = none := by
  cases p <;> simp_all [Pending.isSettled]

/-- A character that detaches goes on with nothing, unless a name is pending. -/
theorem Pending.extend?_of_detaches {p : Pending} {q : Quoting} (hq : q ∈ Quoting.usual)
    (h : p.isWhole = true) {c : Char} (hc : Lexeme.detaches c = true) :
    p.extend? q c = none := by
  simp only [Lexeme.detaches, Bool.and_eq_true, Bool.not_eq_true', bne_iff_ne] at hc
  obtain ⟨⟨⟨hword, hcomparison⟩, hdouble⟩, hbracket⟩ := hc
  have hright : c ≠ q.right := by
    simp only [Quoting.usual, List.mem_cons, List.not_mem_nil, or_false] at hq
    rcases hq with rfl | rfl
    · exact hdouble
    · exact hbracket
  cases p <;> simp_all [Pending.isWhole, Pending.extend?]

/-! ## Texts and lexemes of tokens -/

/-- The characters of a piece. -/
def Dialect.chars (d : Dialect) (ts : Tokens) : List Char := ts.flatMap fun t => (d.token t).toList

/-- The characters of a text are those of its tokens. -/
theorem Dialect.toList_text (d : Dialect) (ts : Tokens) : (d.text ts).toList = d.chars ts := by
  rw [Dialect.text, String.toList_join, Dialect.chars, List.flatMap_map]

/-- The lexemes of a token by itself. -/
def Token.lexemes (d : Dialect) (t : Token) : List Lexeme := d.lexemes (d.token t)

/-- The lexemes of the tokens, each by itself. -/
def Tokens.lexemes (d : Dialect) (ts : Tokens) : List Lexeme := ts.flatMap (Token.lexemes d)

section Pieces

variable {d : Dialect} {a b ts : Tokens}

@[simp] theorem Dialect.chars_nil : d.chars [] = [] := rfl

@[simp] theorem Dialect.chars_cons (t : Token) :
    d.chars (t :: ts) = (d.token t).toList ++ d.chars ts := rfl

@[simp] theorem Dialect.chars_append : d.chars (a ++ b) = d.chars a ++ d.chars b :=
  List.flatMap_append

@[simp] theorem Tokens.lexemes_nil : Tokens.lexemes d [] = [] := rfl

/-- The lexemes of a text are those of its tokens. -/
@[simp] theorem Tokens.lexemes_cons (t : Token) :
    Tokens.lexemes d (t :: ts) = t.lexemes d ++ Tokens.lexemes d ts := rfl

@[simp] theorem Tokens.lexemes_append :
    Tokens.lexemes d (a ++ b) = Tokens.lexemes d a ++ Tokens.lexemes d b :=
  List.flatMap_append

@[simp] theorem Tokens.parameters_nil : Tokens.parameters [] = [] := rfl

/-- A word has no placeholder. -/
@[simp] theorem Tokens.parameters_word (w : String) :
    Tokens.parameters (.word w :: ts) = Tokens.parameters ts := rfl

@[simp] theorem Tokens.parameters_identifier (qualifier name : String) :
    Tokens.parameters (.identifier qualifier name :: ts) = Tokens.parameters ts := rfl

@[simp] theorem Tokens.parameters_parameter (i : Nat) :
    Tokens.parameters (.parameter i :: ts) = i :: Tokens.parameters ts := rfl

/-- Placeholders stand in the order of the text. -/
@[simp] theorem Tokens.parameters_append :
    Tokens.parameters (a ++ b) = Tokens.parameters a ++ Tokens.parameters b :=
  List.filterMap_append

/-- The piece is read token by token, and its placeholders are its parameters. -/
structure Legible (d : Dialect) (ts : Tokens) : Prop where
  scanned : ∀ rest, Detached rest →
    scan d.quoting .nothing (d.chars ts ++ rest)
      = Tokens.lexemes d ts ++ scan d.quoting .nothing rest
  counted : placeholders (Tokens.lexemes d ts) = Tokens.parameters ts

/-- The piece is read token by token even if the text goes right on. -/
def Closed (d : Dialect) (ts : Tokens) : Prop :=
  ∀ rest, scan d.quoting .nothing (d.chars ts ++ rest)
    = Tokens.lexemes d ts ++ scan d.quoting .nothing rest

/-- The piece does not go on with what stands before it. -/
def Leads (d : Dialect) (ts : Tokens) : Prop :=
  ∀ rest, Detached rest → Detached (d.chars ts ++ rest)

/-! ## Composition -/

theorem Legible.nil : Legible d [] := ⟨fun _ _ => rfl, rfl⟩

theorem Leads.nil : Leads d [] := fun _ h => h

/-- Legible pieces follow each other where one of the ends is safe. -/
theorem Legible.append (ha : Legible d a) (hb : Legible d b) (h : Closed d a ∨ Leads d b) :
    Legible d (a ++ b) := by
  refine ⟨fun rest hrest => ?_, ?_⟩
  · rw [Dialect.chars_append, List.append_assoc, Tokens.lexemes_append, List.append_assoc,
      ← hb.scanned rest hrest]
    -- where the pieces meet, one of the two ends keeps the reader from going on
    rcases h with hclosed | hleads
    · exact hclosed _
    · exact ha.scanned _ (hleads rest hrest)
  · rw [Tokens.lexemes_append, placeholders, List.filterMap_append, Tokens.parameters_append,
      ← ha.counted, ← hb.counted, placeholders, placeholders]

theorem Closed.append (ha : Closed d a) (hb : Closed d b) : Closed d (a ++ b) := by
  intro rest
  rw [Dialect.chars_append, List.append_assoc, ha, hb, Tokens.lexemes_append, List.append_assoc]

theorem Closed.append_of_leads (ha : Legible d a) (hb : Closed d b)
    (h : ∀ rest, Detached (d.chars b ++ rest)) : Closed d (a ++ b) := by
  intro rest
  rw [Dialect.chars_append, List.append_assoc, ha.scanned _ (h rest), hb, Tokens.lexemes_append,
    List.append_assoc]

/-- What is read of the text of a legible piece. -/
theorem Legible.lexemes_text (h : Legible d ts) : d.lexemes (d.text ts) = Tokens.lexemes d ts := by
  have := h.scanned [] .nil
  simpa [Dialect.lexemes, Dialect.toList_text, scan] using this

/-- The placeholders in the text of a legible piece are its parameters, in order. -/
theorem Legible.placeholders_text (h : Legible d ts) :
    placeholders (d.lexemes (d.text ts)) = Tokens.parameters ts := by
  rw [h.lexemes_text, h.counted]

end Pieces

/-! ## Tokens -/

section Tokens

variable {d : Dialect} {ts : Tokens}

/-- A token is legible that ends outside of a name and has no other placeholders. -/
theorem legible_of_isWhole (hd : d.quoting ∈ Quoting.usual) (t : Token)
    (h : (Pending.after d.quoting .nothing (d.token t).toList).isWhole = true)
    (hcount : placeholders (t.lexemes d) = Tokens.parameters [t]) : Legible d [t] := by
  refine ⟨fun rest hrest => ?_, by simpa using hcount⟩
  simp only [Dialect.chars_cons, Dialect.chars_nil, List.append_nil]
  rw [scan_append]
  · simp [Token.lexemes, Dialect.lexemes]
  · intro c hc
    exact Pending.extend?_of_detaches hd h (hrest c hc)

/-- A token is closed that nothing can go on with. -/
theorem closed_of_isSettled (t : Token)
    (h : (Pending.after d.quoting .nothing (d.token t).toList).isSettled = true) :
    Closed d [t] := by
  intro rest
  simp only [Dialect.chars_cons, Dialect.chars_nil, List.append_nil]
  rw [scan_append]
  · simp [Token.lexemes, Dialect.lexemes]
  · intro c _
    exact Pending.extend?_of_isSettled h _ c

namespace Text

/-- The word has no names and no placeholders in it, in any of the usual quotings. -/
def isMute (w : String) : Bool :=
  Quoting.usual.all fun q =>
    (Pending.after q .nothing w.toList).isWhole && (placeholders (scan q .nothing w.toList)).isEmpty

/-- Nothing can go on with the word. -/
def isClosed (w : String) : Bool :=
  Quoting.usual.all fun q => (Pending.after q .nothing w.toList).isSettled

/-- The word goes on with nothing. -/
def leads (w : String) : Bool := w.toList.head?.any Lexeme.detaches

/-- The word may stand between any two pieces. -/
def isSpaced (w : String) : Bool := isMute w && isClosed w && leads w

end Text

/-- What is read of a fixed word. -/
theorem lexemes_word (hd : d.quoting ∈ Quoting.usual) {w : String} {ls : List Lexeme}
    (h : ∀ q ∈ Quoting.usual, scan q .nothing w.toList = ls) : (Token.word w).lexemes d = ls :=
  h d.quoting hd

/-- A mute word is legible: no quoting cuts it, and it is no placeholder. -/
theorem legible_word (hd : d.quoting ∈ Quoting.usual) {w : String} (h : Text.isMute w = true) :
    Legible d [.word w] := by
  have hw := List.all_eq_true.1 h d.quoting hd
  simp only [Bool.and_eq_true, List.isEmpty_iff] at hw
  exact legible_of_isWhole hd _ hw.1 hw.2

/-- A word with a closed end. -/
theorem closed_word (hd : d.quoting ∈ Quoting.usual) {w : String} (h : Text.isClosed w = true) :
    Closed d [.word w] :=
  closed_of_isSettled _ (List.all_eq_true.1 h d.quoting hd)

/-- Whatever follows the word, it leads. -/
theorem detached_word {w : String} (h : Text.leads w = true) (rest : List Char) :
    Detached (d.chars (.word w :: ts) ++ rest) := by
  intro c hc
  have htext : d.chars (.word w :: ts) = w.toList ++ d.chars ts := rfl
  rw [htext] at hc
  unfold Text.leads at h
  cases hw : w.toList with
  | nil => simp [hw] at h
  | cons x more =>
    simp only [hw, List.head?_cons, Option.any_some] at h
    simp only [hw, List.cons_append, List.head?_cons, Option.mem_def, Option.some.injEq] at hc
    exact hc ▸ h

/-- A text starts with its first word. -/
theorem leads_word {w : String} (h : Text.leads w = true) : Leads d (.word w :: ts) :=
  fun rest _ => detached_word h rest

/-- Legible pieces may stand on both sides of a spaced word. -/
theorem Legible.around {a b : Tokens} (ha : Legible d a) (hd : d.quoting ∈ Quoting.usual)
    {w : String} (hw : Text.isSpaced w = true) (hb : Legible d b) :
    Legible d (a ++ .word w :: b) := by
  simp only [Text.isSpaced, Bool.and_eq_true] at hw
  obtain ⟨⟨hmute, hclosed⟩, hleads⟩ := hw
  have hword : Legible d (.word w :: b) :=
    (legible_word hd hmute).append hb (.inl (closed_word hd hclosed))
  exact ha.append hword (.inr (leads_word hleads))

/-- A legible piece may stand behind a closed word. -/
theorem Legible.cons (hd : d.quoting ∈ Quoting.usual) {w : String} (hmute : Text.isMute w = true)
    (hclosed : Text.isClosed w = true) (h : Legible d ts) : Legible d (.word w :: ts) :=
  (legible_word hd hmute).append h (.inl (closed_word hd hclosed))

/-- The digits of a number are characters of words. -/
theorem isWordChar_of_mem_toString {n : Nat} {c : Char} (h : c ∈ (toString n).toList) :
    Lexeme.isWordChar c = true := by
  rw [Nat.toString_eq_repr, Nat.toList_repr] at h
  have hdigit : c.isDigit = true := Nat.isDigit_of_mem_toDigits (by omega) (by omega) h
  simp [Lexeme.isWordChar, Char.isAlphanum, hdigit]

/-- Digits are read back as the number. -/
theorem number?_toString (n : Nat) : Lexeme.number? (toString n).toList = some n := by
  rw [Nat.toString_eq_repr, Nat.toList_repr, Lexeme.number?]
  have hne : Nat.toDigits 10 n ≠ [] := Nat.toDigits_ne_nil
  have hdigits : (Nat.toDigits 10 n).all Char.isDigit = true :=
    List.all_eq_true.2 fun c hc => Nat.isDigit_of_mem_toDigits (by omega) (by omega) hc
  simp [hne, hdigits, Nat.ofDigitChars_ten_toDigits]

/-- A word goes on through the characters of words. -/
theorem Pending.after_word {q : Quoting} (text : List Char) {more : List Char}
    (h : ∀ c ∈ more, Lexeme.isWordChar c = true) :
    Pending.after q (.word text) more = .word (text ++ more) := by
  induction more generalizing text with
  | nil => simp [Pending.after]
  | cons c more ih =>
    have hc : Lexeme.isWordChar c = true := h c (by simp)
    have hmore : ∀ c ∈ more, Lexeme.isWordChar c = true := fun c hm => h c (by simp [hm])
    simp only [Pending.after, Pending.extend?, hc, if_true, Option.getD_some]
    rw [ih _ hmore]
    simp

/-- A text of one word is read as it. -/
theorem scan_word {q : Quoting} {w : String} {c : Char} {more : List Char}
    (hw : w.toList = c :: more) (hstart : Pending.start q c = .word [c])
    (h : ∀ x ∈ more, Lexeme.isWordChar x = true) :
    scan q .nothing w.toList = [.word w] ∧ Pending.after q .nothing w.toList = .word w.toList := by
  have hscan : scan q (.word [c]) (more ++ []) = [.word w] := by
    rw [scan_word_append h]
    simp [scan, Pending.lexemes, ← hw]
  refine ⟨?_, ?_⟩
  · simpa [hw, scan, hstart] using hscan
  · simp only [hw, Pending.after, Pending.extend?_nothing, Option.getD_none, hstart]
    exact Pending.after_word [c] h

/-- A token with the text of a legible piece is legible, and read as the piece. -/
theorem Legible.merge {t : Token} (h : Legible d ts) (htext : d.chars [t] = d.chars ts)
    (hparameters : Tokens.parameters [t] = Tokens.parameters ts) :
    Legible d [t] ∧ t.lexemes d = Tokens.lexemes d ts := by
  have hlexemes : t.lexemes d = Tokens.lexemes d ts := by
    have hread := h.scanned [] .nil
    rw [← htext] at hread
    simpa [Token.lexemes, Dialect.lexemes, scan] using hread
  refine ⟨⟨fun rest hrest => ?_, ?_⟩, hlexemes⟩
  · rw [htext, h.scanned rest hrest, Tokens.lexemes_cons, hlexemes, Tokens.lexemes_nil,
      List.append_nil]
  · rw [Tokens.lexemes_cons, hlexemes, Tokens.lexemes_nil, List.append_nil, h.counted,
      hparameters]

/-- Two legible words that may follow each other are legible as one. -/
theorem legible_word_append {a b : String} (h : Legible d [.word a, .word b]) :
    Legible d [.word (a ++ b)] :=
  (h.merge (by simp [Dialect.token]) rfl).1

/-- Two words that are written as one end where the second one does. -/
theorem closed_word_append {a b : String} (h : Legible d [.word a, .word b])
    (hclosed : Closed d [.word a, .word b]) : Closed d [.word (a ++ b)] := by
  have htext : d.chars [.word (a ++ b)] = d.chars [.word a, .word b] := by
    simp [Dialect.token]
  have hlexemes : Tokens.lexemes d [.word (a ++ b)] = Tokens.lexemes d [.word a, .word b] := by
    rw [Tokens.lexemes_cons, (h.merge htext rfl).2, Tokens.lexemes_nil, List.append_nil]
  intro rest
  rw [htext, hclosed rest, hlexemes]

/-- A word that reads as one lexeme and is no placeholder is legible. -/
theorem legible_of_scan (hd : d.quoting ∈ Quoting.usual) {w : String}
    (hscan : scan d.quoting .nothing w.toList = [.word w]
      ∧ Pending.after d.quoting .nothing w.toList = .word w.toList)
    (hnone : (Lexeme.word w).placeholder? = none) : Legible d [.word w] := by
  refine legible_of_isWhole hd _ ?_ ?_
  · have htext : (d.token (.word w)).toList = w.toList := rfl
    rw [htext, hscan.2]
    rfl
  · have hlexemes : (Token.word w).lexemes d = [.word w] := hscan.1
    rw [hlexemes]
    simp [placeholders, hnone]

/-- A word of letters and digits is no placeholder. -/
theorem placeholder?_of_isWordChar {w : String}
    (h : ∀ c ∈ w.toList, Lexeme.isWordChar c = true) : (Lexeme.word w).placeholder? = none := by
  simp only [Lexeme.placeholder?]
  split
  · rename_i heq
    exact absurd (h '@' (by rw [heq]; exact List.mem_cons_self)) (by decide)
  · rename_i heq
    exact absurd (h '$' (by rw [heq]; exact List.mem_cons_self)) (by decide)
  · rfl

/-- A number is a word of its own. -/
theorem scan_number (hd : d.quoting ∈ Quoting.usual) (n : Nat) :
    scan d.quoting .nothing (toString n).toList = [.word (toString n)]
      ∧ Pending.after d.quoting .nothing (toString n).toList = .word (toString n).toList := by
  have hword : ∀ c ∈ (toString n).toList, Lexeme.isWordChar c = true :=
    fun c hc => isWordChar_of_mem_toString hc
  have hne : (toString n).toList ≠ [] := by
    rw [Nat.toString_eq_repr, Nat.toList_repr]
    exact Nat.toDigits_ne_nil
  obtain ⟨c, more, hn⟩ := List.exists_cons_of_ne_nil hne
  -- the first digit begins a word, which the others go on with
  rw [hn] at hword
  have hc : Lexeme.isWordChar c = true := hword c List.mem_cons_self
  have hstart : Pending.start d.quoting c = .word [c] := by
    have hquote : c ≠ d.quoting.left := by
      rintro rfl
      simp only [Quoting.usual, List.mem_cons, List.not_mem_nil, or_false] at hd
      rcases hd with h | h <;> rw [h] at hc <;> exact absurd hc (by decide)
    simp [Pending.start, hquote, hc]
  exact scan_word hn hstart fun x hx => hword x (List.mem_cons_of_mem _ hx)

/-- A number is legible. -/
theorem legible_number (hd : d.quoting ∈ Quoting.usual) (n : Nat) :
    Legible d [.word (toString n)] :=
  legible_of_scan hd (scan_number hd n)
    (placeholder?_of_isWordChar fun _ hx => isWordChar_of_mem_toString hx)

/-- The variable of a key is a sign and the characters of a word. -/
theorem Dialect.toList_keyVariable (i : Nat) :
    (keyVariable i).toList = '@' :: 'k' :: (toString i).toList := by
  rw [keyVariable, String.toList_append]
  rfl

/-- The variable of a key is read as one word. -/
theorem scan_keyVariable (hd : d.quoting ∈ Quoting.usual) (i : Nat) :
    scan d.quoting .nothing (Dialect.keyVariable i).toList = [.word (Dialect.keyVariable i)]
      ∧ Pending.after d.quoting .nothing (Dialect.keyVariable i).toList
        = .word (Dialect.keyVariable i).toList := by
  have hstart : Pending.start d.quoting '@' = .word ['@'] := by
    simp only [Quoting.usual, List.mem_cons, List.not_mem_nil, or_false] at hd
    rcases hd with h | h <;> rw [h] <;> rfl
  refine scan_word (Dialect.toList_keyVariable i) hstart fun x hx => ?_
  rcases List.mem_cons.1 hx with rfl | hx
  · rfl
  · exact isWordChar_of_mem_toString hx

/-- The variable of a key is one lexeme. -/
theorem Token.lexemes_keyVariable (hd : d.quoting ∈ Quoting.usual) (i : Nat) :
    (Token.word (Dialect.keyVariable i)).lexemes d = [.word (Dialect.keyVariable i)] :=
  (scan_keyVariable hd i).1

/-- The variable of a key is a word of its own and no placeholder. -/
theorem legible_keyVariable (hd : d.quoting ∈ Quoting.usual) (i : Nat) :
    Legible d [.word (Dialect.keyVariable i)] :=
  legible_of_scan hd (scan_keyVariable hd i)
    (by simp [Lexeme.placeholder?, Dialect.toList_keyVariable])

/-! ### Placeholders -/

/-- A placeholder is a sign and the characters of a word. -/
theorem Dialect.toList_parameter (d : Dialect) (i : Nat) :
    (d.parameter i).toList = '@' :: 'p' :: (toString i).toList
      ∨ (d.parameter i).toList = '$' :: (toString (i + 1)).toList := by
  unfold Dialect.parameter
  cases d.placeholder with
  | named => exact .inl (by rw [String.toList_append]; rfl)
  | positional => exact .inr (by rw [String.toList_append]; rfl)

/-- The placeholder of a parameter stands for its position. -/
theorem placeholder?_parameter (d : Dialect) (i : Nat) :
    (Lexeme.word (d.parameter i)).placeholder? = some i := by
  rcases d.toList_parameter i with h | h
  · simp only [Lexeme.placeholder?, h]
    exact number?_toString i
  · simp only [Lexeme.placeholder?, h, number?_toString, Option.map_some, Nat.add_sub_cancel]

/-- A placeholder is read as one word. -/
theorem scan_parameter (hd : d.quoting ∈ Quoting.usual) (i : Nat) :
    scan d.quoting .nothing (d.parameter i).toList = [.word (d.parameter i)]
      ∧ Pending.after d.quoting .nothing (d.parameter i).toList
        = .word (d.parameter i).toList := by
  have hsign : ∀ c, c = '@' ∨ c = '$' → Pending.start d.quoting c = .word [c] := by
    simp only [Quoting.usual, List.mem_cons, List.not_mem_nil, or_false] at hd
    rintro c (rfl | rfl) <;> rcases hd with h | h <;> rw [h] <;> rfl
  rcases d.toList_parameter i with h | h
  · refine scan_word h (hsign _ (.inl rfl)) fun x hx => ?_
    rcases List.mem_cons.1 hx with rfl | hx
    · rfl
    · exact isWordChar_of_mem_toString hx
  · exact scan_word h (hsign _ (.inr rfl)) fun x hx => isWordChar_of_mem_toString hx

/-- A placeholder is one lexeme. -/
theorem Token.lexemes_parameter (hd : d.quoting ∈ Quoting.usual) (i : Nat) :
    (Token.parameter i).lexemes d = [.word (d.parameter i)] :=
  (scan_parameter hd i).1

/-- A placeholder is legible, and tells its number. -/
theorem legible_parameter (hd : d.quoting ∈ Quoting.usual) (i : Nat) :
    Legible d [.parameter i] := by
  refine legible_of_isWhole hd _ ?_ ?_
  · have : (d.token (.parameter i)).toList = (d.parameter i).toList := rfl
    rw [this, (scan_parameter hd i).2]
    rfl
  · rw [Token.lexemes_parameter hd, placeholders]
    simp [placeholder?_parameter]

/-! ### Names -/

/-- The aliases that a scope gives out. -/
def IsAlias (a : String) : Prop := ∃ n : Nat, a = "t" ++ toString n

/-- A name behind nothing or behind an alias. -/
def IsQualifier (a : String) : Prop := a = "" ∨ IsAlias a

/-- The root has the first alias. -/
theorem isAlias_root : IsAlias "t0" := ⟨0, rfl⟩

/-- The lexemes of a name, behind an alias or not. -/
def Lexeme.ofColumn (qualifier name : String) : List Lexeme :=
  (if qualifier.isEmpty then [] else [.word qualifier, .symbol "."]) ++ [.name name]

theorem IsAlias.toList {a : String} (h : IsAlias a) :
    ∃ n : Nat, a.toList = 't' :: (toString n).toList := by
  obtain ⟨n, rfl⟩ := h
  exact ⟨n, by rw [String.toList_append]; rfl⟩

theorem IsAlias.ne_empty {a : String} (h : IsAlias a) : a.isEmpty = false := by
  obtain ⟨n, hn⟩ := h.toList
  rw [← Bool.not_eq_true, String.isEmpty_iff]
  rintro rfl
  simp at hn

/-- An alias is a word of its own. -/
theorem IsAlias.scan {a : String} (h : IsAlias a) (hd : d.quoting ∈ Quoting.usual) :
    scan d.quoting .nothing a.toList = [.word a]
      ∧ Pending.after d.quoting .nothing a.toList = .word a.toList := by
  obtain ⟨n, hn⟩ := h.toList
  refine scan_word hn ?_ fun x hx => isWordChar_of_mem_toString hx
  simp only [Quoting.usual, List.mem_cons, List.not_mem_nil, or_false] at hd
  rcases hd with h | h <;> rw [h] <;> rfl

/-- An alias is legible. -/
theorem IsAlias.legible {a : String} (h : IsAlias a) (hd : d.quoting ∈ Quoting.usual) :
    Legible d [.word a] := by
  obtain ⟨n, hn⟩ := h.toList
  exact legible_of_scan hd (h.scan hd) (by simp [Lexeme.placeholder?, hn])

/-- A name by itself is read as it is, whatever its characters. -/
theorem legible_bare (hd : d.quoting ∈ Quoting.usual) (name : String) :
    Legible d [.bare name] ∧ (Token.bare name).lexemes d = [.name name] := by
  have htoken : d.token (.bare name) = d.quoting.quote name := by
    simp [Dialect.token, Token.bare, Dialect.identifier]
  have hscan (rest : List Char) :
      RowMapper.scan d.quoting .nothing ((d.quoting.quote name).toList ++ rest)
        = RowMapper.scan d.quoting (.closed name.toList) rest :=
    scan_quote name
  have hlexemes : (Token.bare name).lexemes d = [.name name] := by
    have := hscan []
    simpa [Token.lexemes, Dialect.lexemes, htoken, RowMapper.scan, Pending.lexemes] using this
  refine ⟨⟨fun rest hrest => ?_, ?_⟩, hlexemes⟩
  · simp only [Dialect.chars_cons, Dialect.chars_nil, List.append_nil, Tokens.lexemes_cons,
      Tokens.lexemes_nil, hlexemes, htoken]
    -- the name was closed, and what follows does not open it again
    rw [hscan rest, scan_of_stop]
    · simp [Pending.lexemes]
    · intro c hc
      exact Pending.extend?_of_detaches hd rfl (hrest c hc)
  · rw [Tokens.lexemes_cons, hlexemes]
    rfl

/-- A name behind a qualifier is read as the words of both. -/
theorem legible_identifier (hd : d.quoting ∈ Quoting.usual) {qualifier : String}
    (hq : IsQualifier qualifier) (name : String) :
    Legible d [.identifier qualifier name]
      ∧ (Token.identifier qualifier name).lexemes d = Lexeme.ofColumn qualifier name := by
  rcases hq with rfl | halias
  · exact legible_bare hd name
  · obtain ⟨hbare, hname⟩ := legible_bare hd name
    have hdot : Text.isSpaced "." = true := by decide
    have hlegible : Legible d [.word qualifier, .word ".", .bare name] :=
      (halias.legible hd).around hd hdot hbare
    -- the text of the name is that of three tokens: the alias, the dot and the bare name
    have htext : d.chars [.identifier qualifier name]
        = d.chars [.word qualifier, .word ".", .bare name] := by
      simp [Dialect.token, Token.bare, halias.ne_empty]
    have hpieces : Tokens.lexemes d [.word qualifier, .word ".", .bare name]
        = Lexeme.ofColumn qualifier name := by
      have hword : (Token.word qualifier).lexemes d = [.word qualifier] := (halias.scan hd).1
      have hsymbol : (Token.word ".").lexemes d = [.symbol "."] :=
        lexemes_word hd (by decide)
      simp [hword, hsymbol, hname, Lexeme.ofColumn, halias.ne_empty]
    obtain ⟨hone, hlexemes⟩ := hlegible.merge htext rfl
    exact ⟨hone, hlexemes.trans hpieces⟩

/-! ## Separated pieces -/

/-- Legible pieces are legible with a spaced separator between them. -/
theorem legible_separated (hd : d.quoting ∈ Quoting.usual) {w : String}
    (hw : Text.isSpaced w = true) {pieces : List Tokens} (h : ∀ p ∈ pieces, Legible d p) :
    Legible d (Text.separated [.word w] pieces) := by
  induction pieces with
  | nil => exact .nil
  | cons piece rest ih =>
    have hpiece : Legible d piece := h piece (by simp)
    have hrest : Legible d (Text.separated [.word w] rest) := ih fun p hp => h p (by simp [hp])
    cases rest with
    | nil => exact hpiece
    | cons next rest =>
      rw [Text.separated]
      -- an empty piece has no separator
      split
      · exact hrest
      · rw [List.append_assoc]
        exact hpiece.around hd hw hrest

/-- What is written is part of a piece or of a separator. -/
theorem Text.mem_of_mem_separated {α : Type} {separator : List α} {pieces : List (List α)} {x : α}
    (h : x ∈ Text.separated separator pieces) : x ∈ separator ∨ ∃ p ∈ pieces, x ∈ p := by
  induction pieces with
  | nil => exact absurd h List.not_mem_nil
  | cons piece rest ih =>
    have hlater (hrest : x ∈ Text.separated separator rest) :
        x ∈ separator ∨ ∃ p ∈ piece :: rest, x ∈ p :=
      (ih hrest).imp_right fun ⟨p, hp, hx⟩ => ⟨p, List.mem_cons_of_mem _ hp, hx⟩
    cases rest with
    | nil => exact .inr ⟨piece, List.mem_cons_self, h⟩
    | cons next rest =>
      rcases List.mem_append.1 h with h | h
      · split at h
        · exact absurd h List.not_mem_nil
        · exact (List.mem_append.1 h).symm.imp_right fun hx => ⟨piece, List.mem_cons_self, hx⟩
      · exact hlater h

/-- Related pieces with related separators between them are related. -/
theorem Text.rel_separated {α : Type} {R : α → α → Prop} {separator separator' : List α}
    (hseparator : List.Forall₂ R separator separator') {pieces pieces' : List (List α)}
    (h : List.Forall₂ (List.Forall₂ R) pieces pieces') :
    List.Forall₂ R (Text.separated separator pieces) (Text.separated separator' pieces') := by
  induction h with
  | nil => exact .nil
  | @cons first first' rest rest' hfirst hrest ih =>
    cases hrest with
    | nil => exact hfirst
    | cons _ _ =>
      refine List.rel_append ?_ ih
      -- both pieces are empty and have no separator, or neither is
      cases hfirst with
      | nil => exact .nil
      | cons hhead htail => exact List.rel_append (.cons hhead htail) hseparator

/-- What is read piece by piece, and nothing of a separator, is read of the separated pieces. -/
theorem Text.read_separated {α β : Type} {f : List α → List β}
    (happend : ∀ a b, f (a ++ b) = f a ++ f b) {separator : List α}
    (hseparator : f separator = []) (pieces : List (List α)) :
    f (Text.separated separator pieces) = pieces.flatMap f := by
  have hnil : f [] = [] := List.self_eq_append_right.1 (happend [] [])
  induction pieces with
  | nil => exact hnil
  | cons piece rest ih =>
    cases rest with
    | nil => simp
    | cons next rest =>
      rw [Text.separated, happend, ih]
      split
      · rename_i hempty
        simp [List.isEmpty_iff.1 hempty, hnil]
      · simp [happend, hseparator]

/-- The parameters of separated pieces are those of the pieces. -/
theorem Tokens.parameters_separated (w : String) (pieces : List Tokens) :
    Tokens.parameters (Text.separated [.word w] pieces) = pieces.flatMap Tokens.parameters :=
  Text.read_separated (fun _ _ => Tokens.parameters_append) rfl pieces

end Tokens

end RowMapper
