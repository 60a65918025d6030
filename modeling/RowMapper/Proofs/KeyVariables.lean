import Mathlib.Data.List.Induction
import RowMapper.Proofs.InsertedRow

/-!
# Variables of keys

In SQL Server every key that the server makes has a variable. The batch of an insert declares
the variables first, some of them with a value, which the insert may use. The others are set behind
the insert, and the row is read back by all of them.

* `sentences` and `Sentence` read a batch: what it declares, what it assigns, and which variables
  it mentions. Names between brackets are never variables.
* `KeyBatch` says of the sentences of an insert that they use the variables of the keys rightly.
* `Command.keyVariables_insert` is about all inserts of SQL Server.
-/

namespace RowMapper

/-! ## Sentences -/

/-- The variable of a key, if the lexeme is one. -/
def Lexeme.keyVariable? : Lexeme → Option String
  | .word text =>
    match text.toList with
    | '@' :: 'k' :: _ => some text
    | _ => none
  | _ => none

/-- The variables of keys, in the order of the text. -/
def keyVariables (ls : List Lexeme) : List String := ls.filterMap Lexeme.keyVariable?

/-- What stands before a semicolon. -/
abbrev Sentence := List Lexeme

namespace Sentence

/-- The end of a sentence. -/
def stop : Lexeme := .symbol ";"

/-- The variable that the sentence declares. -/
def declared? : Sentence → Option String
  | .word "DECLARE" :: .word v :: _ => some v
  | _ => none

/-- The variable that the sentence declares with a value. -/
def initialized? : Sentence → Option String
  | .word "DECLARE" :: .word v :: .word _ :: .symbol "=" :: _ => some v
  | _ => none

/-- The variable that the sentence assigns. -/
def assigned? : Sentence → Option String
  | .word "SET" :: .word v :: .symbol "=" :: _ => some v
  | _ => none

end Sentence

/-- The sentences of a text, and what is left behind the last one. -/
def sentences (ls : List Lexeme) : List Sentence := ls.splitOn Sentence.stop

/-- The sentences that all end are those of the text, and nothing is left. -/
theorem sentences_flatMap {ss : List Sentence} (h : ∀ s ∈ ss, Sentence.stop ∉ s) :
    sentences (ss.flatMap (· ++ [Sentence.stop])) = ss ++ [[]] := by
  unfold sentences
  induction ss with
  | nil => rfl
  | cons s rest ih =>
    have hrest := ih fun t ht => h t (List.mem_cons_of_mem _ ht)
    rw [List.flatMap_cons, List.append_assoc, List.singleton_append,
      List.splitOn_append_cons_self_of_not_mem (h s List.mem_cons_self), hrest, List.cons_append]

/-- The first variables. -/
def variablesBelow (n : Nat) : List String := (List.range n).map Dialect.keyVariable

/-- An insert in which the server makes the keys uses a variable for each of them. -/
structure KeyBatch (keys : List Contribution) (declarations : List Sentence) (insert : Sentence)
    (assignments : List Sentence) (read predicate : Sentence) : Prop where
  /-- All variables are declared, in the order of the keys. -/
  declared : declarations.map (·.declared?) = (variablesBelow keys.length).map some
  /-- A declaration mentions no other variable. -/
  declarations_mention : declarations.flatMap keyVariables = variablesBelow keys.length
  insert_head : insert.head? = some (.word "INSERT")
  /-- The insert uses the variables that were declared with a value. -/
  inserted : keyVariables insert = declarations.filterMap (·.initialized?)
  /-- All others are assigned. -/
  assigned : assignments.map (·.assigned?)
    = (declarations.filter (·.initialized?.isNone)).map (·.declared?)
  /-- An assignment mentions no other variable. -/
  assignments_mention : assignments.map keyVariables
    = (declarations.filter (·.initialized?.isNone)).map keyVariables
  read_head : read.head? = some (.word "SELECT")
  read_mentions : keyVariables read = []
  /-- The row is found by all variables. -/
  predicate_mentions : keyVariables predicate = variablesBelow keys.length
  /-- Each variable is compared with the column of its key. -/
  compared : ∀ i f, keys[i]? = some f →
    [.name f.name, .symbol "=", .word (Dialect.keyVariable i)] <:+: predicate

/-! ## What pieces mention -/

/-- Variables are found part by part. -/
@[simp] theorem keyVariables_append (a b : List Lexeme) :
    keyVariables (a ++ b) = keyVariables a ++ keyVariables b :=
  List.filterMap_append

/-- The variable of a key is found as itself. -/
theorem keyVariable?_keyVariable (i : Nat) :
    (Lexeme.word (Dialect.keyVariable i)).keyVariable? = some (Dialect.keyVariable i) := by
  simp [Lexeme.keyVariable?, Dialect.toList_keyVariable]

/-- A sentence about a variable, which mentions no other. -/
theorem keyVariables_about {w : String} (hw : (Lexeme.word w).keyVariable? = none) (i : Nat)
    {rest : Sentence} (hrest : keyVariables rest = []) :
    keyVariables (.word w :: .word (Dialect.keyVariable i) :: rest) = [Dialect.keyVariable i] := by
  rw [keyVariables, List.filterMap_cons_none hw,
    List.filterMap_cons_some (keyVariable?_keyVariable i)]
  exact congrArg _ hrest

/-- A placeholder is no variable of a key. -/
theorem keyVariable?_parameter (d : Dialect) (i : Nat) :
    (Lexeme.word (d.parameter i)).keyVariable? = none := by
  rcases d.toList_parameter i with h | h <;> simp [Lexeme.keyVariable?, h]

/-- The piece does not end a sentence and mentions exactly these variables. -/
structure Mentions (d : Dialect) (ts : Tokens) (vs : List String) : Prop where
  mentioned : keyVariables (Tokens.lexemes d ts) = vs
  unstopped : Sentence.stop ∉ Tokens.lexemes d ts

/-- The word is no variable and ends no sentence, in any of the usual quotings. -/
def Text.isPlain (w : String) : Bool :=
  Quoting.usual.all fun q =>
    (keyVariables (scan q .nothing w.toList)).isEmpty
      && !(scan q .nothing w.toList).contains Sentence.stop

section Mentions

variable {d : Dialect} {a b : Tokens} {vs ws : List String}

theorem Mentions.append (ha : Mentions d a vs) (hb : Mentions d b ws) :
    Mentions d (a ++ b) (vs ++ ws) := by
  refine ⟨by rw [Tokens.lexemes_append, keyVariables_append, ha.mentioned, hb.mentioned], ?_⟩
  rw [Tokens.lexemes_append, List.mem_append, not_or]
  exact ⟨ha.unstopped, hb.unstopped⟩

/-- A plain word mentions nothing. -/
theorem Mentions.word (hd : d.quoting ∈ Quoting.usual) {w : String} (h : Text.isPlain w = true) :
    Mentions d [.word w] [] := by
  have hw := List.all_eq_true.1 h d.quoting hd
  simp only [Bool.and_eq_true, List.isEmpty_iff, Bool.not_eq_true', List.contains_eq_mem,
    decide_eq_false_iff_not] at hw
  have hlexemes : Tokens.lexemes d [.word w] = scan d.quoting .nothing w.toList :=
    List.append_nil _
  exact ⟨hlexemes ▸ hw.1, hlexemes ▸ hw.2⟩

/-- A name mentions nothing, whatever its characters. -/
theorem Mentions.bare (hd : d.quoting ∈ Quoting.usual) (name : String) :
    Mentions d [.bare name] [] := by
  have hlexemes : Tokens.lexemes d [.bare name] = [.name name] := by
    simp [(legible_bare hd name).2]
  exact ⟨by rw [hlexemes]; rfl, by simp [hlexemes, Sentence.stop]⟩

/-- Pieces with a plain word between them mention what each of them mentions. -/
theorem Mentions.separated (hd : d.quoting ∈ Quoting.usual) {w : String}
    (hw : Text.isPlain w = true) {α : Type} {xs : List α} {f : α → Tokens}
    {g : α → List String} (h : ∀ x ∈ xs, Mentions d (f x) (g x)) :
    Mentions d (Text.separated [.word w] (xs.map f)) (xs.flatMap g) := by
  have hword : Mentions d [.word w] [] := .word hd hw
  refine ⟨?_, fun hstop => ?_⟩
  · have hpieces := Text.read_separated (f := fun ts => keyVariables (Tokens.lexemes d ts))
      (by simp) hword.mentioned (xs.map f)
    rw [hpieces, List.flatMap_map]
    exact List.flatMap_congr fun x hx => (h x hx).mentioned
  · obtain ⟨t, ht, hstop⟩ := List.mem_flatMap.1 hstop
    rcases Text.mem_of_mem_separated ht with ht | ⟨p, hp, ht⟩
    · exact hword.unstopped (List.mem_flatMap.2 ⟨t, ht, hstop⟩)
    · obtain ⟨x, hx, rfl⟩ := List.mem_map.1 hp
      exact (h x hx).unstopped (List.mem_flatMap.2 ⟨t, ht, hstop⟩)

end Mentions

/-! ## Slots -/

namespace Command

/-- A key that the server makes has a strategy of SQL Server, and its reference is its variable. -/
theorem Filled.reads {table : String} {supply : KeySupply} {parameters : List Value}
    {earlier : List Contribution} {f : Contribution} {slot : Slot}
    (h : Filled .sqlServer table supply parameters earlier f slot)
    (hgiven : InsertDraft.Given .sqlServer f)
    (hused : f.isInserted = true ∨ f.isValuedKey = true) :
    ∃ w, Tokens.lexemes .sqlServer slot.tokens = [.word w]
      ∧ (Lexeme.word w).keyVariable?
        = if f.isServed then some (Dialect.keyVariable (earlier.countP (·.isServed)))
          else none := by
  have hd : Dialect.sqlServer.quoting ∈ Quoting.usual := by decide
  -- a parameter or NULL is one word, and no variable
  have hbound {v : Value} (hbinds : slot.Binds parameters v) : ∃ w,
      Tokens.lexemes .sqlServer slot.tokens = [.word w] ∧ (Lexeme.word w).keyVariable? = none := by
    cases slot with
    | sql text => exact absurd hbinds.standsFor id
    | null => exact ⟨"NULL", by decide, by decide⟩
    | parameter index =>
      refine ⟨Dialect.sqlServer.parameter index, ?_, keyVariable?_parameter _ index⟩
      simp [Slot.tokens, Token.lexemes_parameter hd]
  cases h with
  | unused hinserted hkey => simp [hinserted, hkey] at hused
  | given hv hempty hbinds =>
    simpa [(Contribution.not_isMade_isServed hempty).2] using hbound hbinds
  | made hmade hbinds => simpa [Contribution.isServed_of_isMade hmade] using hbound hbinds
  | served hserved hk hslot =>
    rename_i k
    -- here the slot is a filled template, and it is nothing but the variable
    have hreference : ∀ k ∈ Dialect.sqlServer.strategies.entries,
        k.reference = "" ++ "\x7bkey\x7d" ++ "" := by
      decide
    have hnonempty : ∀ i, Dialect.keyVariable i ≠ "" := fun i hempty => by
      simpa [Dialect.toList_keyVariable] using congrArg String.toList hempty
    refine ⟨Dialect.keyVariable (earlier.countP (·.isServed)), ?_, ?_⟩
    · rw [hslot, hreference k (hgiven k hk),
        Dialect.keyTemplate_surrounding (p := ("", "")) (by decide)]
      simp [Slot.tokens, hnonempty, Token.lexemes_keyVariable hd]
    · simp [hserved, keyVariable?_keyVariable]

/-- The slot of every chosen contribution reads as one word: its variable if the server makes it, no
variable otherwise. -/
def Placed.Reads (placed : Placed) (choose : Contribution → Bool) : Prop :=
  ∀ earlier f slot later, placed = earlier ++ (f, slot) :: later → choose f = true →
    ∃ w, Tokens.lexemes .sqlServer slot.tokens = [.word w]
      ∧ (Lexeme.word w).keyVariable?
        = if f.isServed then
            some (Dialect.keyVariable ((Placed.fields earlier).countP (·.isServed)))
          else none

end Command

/-- The variables in the slot. -/
def ColumnSlot.mentioned (c : ColumnSlot) : List String :=
  keyVariables (Tokens.lexemes .sqlServer c.slot.tokens)

namespace Command

/-- The columns of the chosen contributions mention the variables of the chosen keys. -/
theorem Placed.Reads.mentioned {placed : Placed} {choose : Contribution → Bool}
    (h : placed.Reads choose) :
    (placed.columns choose).flatMap (·.mentioned)
      = ((placed.fields.filter (·.isServed)).zipIdx.filter fun x => choose x.1).map
          fun x => Dialect.keyVariable x.2 := by
  -- by the last contribution, which takes the variable behind all others
  induction placed using List.reverseRecOn with
  | nil => rfl
  | append_singleton placed x ih =>
    obtain ⟨f, slot⟩ := x
    have hearlier : Placed.Reads placed choose := fun earlier g other later hsplit hchosen =>
      h earlier g other (later ++ [(f, slot)]) (by simp [hsplit]) hchosen
    rw [Placed.columns_append, List.flatMap_append, ih hearlier, Placed.fields_append,
      List.filter_append, List.zipIdx_append, List.filter_append, List.map_append]
    congr 1
    by_cases hchosen : choose f = true
    · obtain ⟨w, hw, hvariable⟩ := h placed f slot [] rfl hchosen
      rw [List.countP_eq_length_filter] at hvariable
      by_cases hserved : f.isServed = true <;>
        simp_all [Placed.columns, Placed.fields, ColumnSlot.mentioned, keyVariables]
    · by_cases hserved : f.isServed = true <;>
        simp [Placed.columns, Placed.fields, hserved, hchosen]

/-- No slot ends a sentence. -/
theorem Placed.Reads.mentions {placed : Placed} {choose : Contribution → Bool}
    (h : placed.Reads choose) :
    ∀ c ∈ placed.columns choose, Mentions .sqlServer c.slot.tokens c.mentioned := by
  intro c hc
  obtain ⟨⟨f, slot⟩, hmem, rfl⟩ := List.mem_map.1 hc
  obtain ⟨hplaced, hchosen⟩ := List.mem_filter.1 hmem
  obtain ⟨earlier, later, hsplit⟩ := List.append_of_mem hplaced
  obtain ⟨w, hw, -⟩ := h earlier f slot later hsplit hchosen
  exact ⟨rfl, by simp [hw, Sentence.stop]⟩

end Command

/-! ## Lines -/

section Lines

theorem Dialect.quoting_sqlServer : sqlServer.quoting ∈ Quoting.usual := by decide

/-- Names are quoted, so that none of them is a variable. -/
theorem mentions_names (names : List String) :
    Mentions .sqlServer (commaSeparated (names.map fun n => [.bare n])) [] := by
  have hd := Dialect.quoting_sqlServer
  have hnames : Mentions .sqlServer (commaSeparated (names.map fun n => [.bare n]))
      (names.flatMap fun _ => []) :=
    .separated hd (by decide) fun n _ => .bare hd n
  rwa [List.flatMap_eq_nil_iff.2 fun _ _ => rfl] at hnames

/-- The insert without its end. -/
def InsertParts.body (i : InsertParts) : Tokens :=
  .word "INSERT " :: .bare i.table ::
    if i.values.isEmpty then [.word " DEFAULT VALUES"]
    else .word " (" :: commaSeparated (i.values.map fun v => [.bare v.column])
      ++ .word ") VALUES (" :: commaSeparated (i.values.map (·.slot.tokens)) ++ [.word ")"]

/-- The line of an insert ends in a semicolon. -/
theorem InsertParts.lexemes_insertLine (i : InsertParts) :
    Tokens.lexemes .sqlServer (i.insertLine .sqlServer)
      = Tokens.lexemes .sqlServer i.body ++ [Sentence.stop] := by
  have hdefaults : (Token.word " DEFAULT VALUES;").lexemes .sqlServer
      = (Token.word " DEFAULT VALUES").lexemes .sqlServer ++ [Sentence.stop] := by
    decide
  have hend : (Token.word ");").lexemes .sqlServer
      = (Token.word ")").lexemes .sqlServer ++ [Sentence.stop] := by
    decide
  have hverb : Dialect.sqlServer.insertWords = "INSERT " := rfl
  unfold insertLine body
  cases i.values.isEmpty <;> simp [hdefaults, hend, hverb]

/-- An insert starts with its verb, so that it is no declaration. -/
theorem InsertParts.head?_body (i : InsertParts) :
    (Tokens.lexemes .sqlServer i.body).head? = some (.word "INSERT") := by
  have hverb : (Token.word "INSERT ").lexemes .sqlServer = [.word "INSERT"] := by decide
  simp [body, hverb]

/-- An insert mentions the variables of its values. -/
theorem InsertParts.mentions_body {i : InsertParts}
    (h : ∀ v ∈ i.values, Mentions .sqlServer v.slot.tokens v.mentioned) :
    Mentions .sqlServer i.body (i.values.flatMap (·.mentioned)) := by
  have hd := Dialect.quoting_sqlServer
  have htable : Mentions .sqlServer [.word "INSERT ", .bare i.table] [] :=
    (Mentions.word hd (by decide)).append (.bare hd i.table)
  unfold body
  cases hvalues : i.values with
  | nil => exact htable.append (.word hd (by decide))
  | cons v rest =>
    rw [← hvalues]
    -- names mention no variable, so what is mentioned is in the slots
    have hnames : Mentions .sqlServer (commaSeparated (i.values.map fun v => [.bare v.column]))
        [] := by
      simpa [Function.comp_def] using mentions_names (i.values.map (·.column))
    have hslots : Mentions .sqlServer (commaSeparated (i.values.map (·.slot.tokens)))
        (i.values.flatMap (·.mentioned)) :=
      .separated hd (by decide) h
    have hopen : Mentions .sqlServer [.word " ("] [] := .word hd (by decide)
    have hbetween : Mentions .sqlServer [.word ") VALUES ("] [] := .word hd (by decide)
    have hclose : Mentions .sqlServer [.word ")"] [] := .word hd (by decide)
    have hall := htable.append (hopen.append (hnames.append (hbetween.append
      (hslots.append hclose))))
    simpa [hvalues] using hall

/-- The reading back without its condition. -/
def ReadBack.body (r : ReadBack) : Tokens :=
  .word "SELECT " :: commaSeparated (r.columns.map fun c => [.bare c])
    ++ [.word " FROM ", .bare r.table]

/-- The line that reads a row back is cut at its condition. -/
theorem ReadBack.lexemes_line {r : ReadBack} (h : r.key ≠ []) :
    Tokens.lexemes .sqlServer r.line
      = (Tokens.lexemes .sqlServer r.body
          ++ .word "WHERE" :: Tokens.lexemes .sqlServer (keyCondition r.key))
        ++ [Sentence.stop] := by
  have hwhere : (Token.word " WHERE ").lexemes .sqlServer = [.word "WHERE"] := by decide
  have hend : (Token.word ";").lexemes .sqlServer = [Sentence.stop] := by decide
  simp [line, body, whereKey, h, hwhere, hend]

/-- What reads a row back starts with its verb, so that it is no assignment. -/
theorem ReadBack.head?_body (r : ReadBack) :
    (Tokens.lexemes .sqlServer r.body).head? = some (.word "SELECT") := by
  have hverb : (Token.word "SELECT ").lexemes .sqlServer = [.word "SELECT"] := by decide
  simp [body, hverb]

/-- Before its condition, the line that reads a row back mentions no variable. -/
theorem ReadBack.mentions_body (r : ReadBack) : Mentions .sqlServer r.body [] := by
  have hd := Dialect.quoting_sqlServer
  have hselect : Mentions .sqlServer [.word "SELECT "] [] := .word hd (by decide)
  have hfrom : Mentions .sqlServer [.word " FROM "] [] := .word hd (by decide)
  exact hselect.append ((mentions_names r.columns).append (hfrom.append (.bare hd r.table)))

/-- A condition mentions the variable in its slot. -/
theorem ColumnSlot.mentions_condition {c : ColumnSlot}
    (h : Mentions .sqlServer c.slot.tokens c.mentioned) :
    Mentions .sqlServer c.condition c.mentioned := by
  have hd := Dialect.quoting_sqlServer
  have hname : Mentions .sqlServer [.bare c.column] [] := .bare hd c.column
  have hequal : Mentions .sqlServer [.word " = "] [] := .word hd (by decide)
  unfold condition
  cases hslot : c.slot with
  | null =>
    have hnone : c.mentioned = [] := by
      rw [mentioned, hslot]
      decide
    exact hnone ▸ hname.append (.word hd (by decide))
  | parameter index | sql text =>
    rw [hslot] at h
    exact hname.append (hequal.append h)

/-- The condition on a key mentions the variables of its parts. -/
theorem mentions_keyCondition {key : List ColumnSlot}
    (h : ∀ c ∈ key, Mentions .sqlServer c.slot.tokens c.mentioned) :
    Mentions .sqlServer (keyCondition key) (key.flatMap (·.mentioned)) :=
  .separated Dialect.quoting_sqlServer (by decide) fun c hc =>
    ColumnSlot.mentions_condition (h c hc)

end Lines

/-! ## Comparisons -/

/-- A piece is part of the separated pieces. -/
theorem Text.infix_separated {α : Type} {piece separator : List α} {pieces : List (List α)}
    (h : piece ∈ pieces) : piece <:+: Text.separated separator pieces := by
  induction pieces with
  | nil => exact absurd h List.not_mem_nil
  | cons first rest ih =>
    cases rest with
    | nil => exact List.mem_singleton.1 h ▸ List.infix_rfl
    | cons next rest =>
      rw [Text.separated]
      rcases List.mem_cons.1 h with rfl | h
      · split
        · rename_i hempty
          rw [List.isEmpty_iff.1 hempty]
          exact List.nil_infix
        · rw [List.append_assoc]
          exact (List.prefix_append _ _).isInfix
      · exact (ih h).trans (List.suffix_append _ _).isInfix

/-- A piece of a text is a piece of what is read of it. -/
theorem Tokens.infix_lexemes {d : Dialect} {a b : Tokens} (h : a <:+: b) :
    Tokens.lexemes d a <:+: Tokens.lexemes d b := by
  obtain ⟨before, after, rfl⟩ := h
  exact ⟨Tokens.lexemes d before, Tokens.lexemes d after, by simp⟩

/-- The word of a variable is its name. -/
theorem Lexeme.eq_of_keyVariable? {w v : String} (h : (Lexeme.word w).keyVariable? = some v) :
    w = v := by
  simp only [keyVariable?] at h
  split at h
  · exact Option.some.inj h
  · cases h

/-- A key is compared with its variable. -/
theorem ColumnSlot.lexemes_condition {c : ColumnSlot} {i : Nat}
    (h : Tokens.lexemes .sqlServer c.slot.tokens = [.word (Dialect.keyVariable i)]) :
    Tokens.lexemes .sqlServer c.condition
      = [.name c.column, .symbol "=", .word (Dialect.keyVariable i)] := by
  have hname := (legible_bare Dialect.quoting_sqlServer c.column).2
  have hequal : (Token.word " = ").lexemes .sqlServer = [.symbol "="] := by decide
  unfold condition
  cases hslot : c.slot with
  | null =>
    -- NULL is no variable
    rw [hslot] at h
    have hnull : Tokens.lexemes .sqlServer Slot.null.tokens = [.word "NULL"] := by decide
    have hvariable := keyVariable?_keyVariable i
    rw [← List.singleton_inj.1 (hnull.symm.trans h)] at hvariable
    exact absurd hvariable (by simp [Lexeme.keyVariable?])
  | parameter index | sql text =>
    rw [hslot] at h
    simp [hname, hequal, h]

/-! ## Declarations and assignments -/

namespace Contribution

/-- The key has a value before the insert, which the insert takes. -/
def isPreset (f : Contribution) : Bool := f.strategy.any (·.duringInsert)

/-- The declaration of the variable of a key. -/
def declaration (f : Contribution) (i : Nat) : Sentence :=
  .word "DECLARE" :: .word (Dialect.keyVariable i) ::
    if f.isPreset then
      [.word "UNIQUEIDENTIFIER", .symbol "=", .word "NEWID", .symbol "(", .symbol ")"]
    else [.word "BIGINT"]

/-- The assignment of the variable of a key that has no value before the insert. -/
def assignment? (f : Contribution) (i : Nat) : Option Sentence :=
  if f.isPreset then none
  else some [.word "SET", .word (Dialect.keyVariable i), .symbol "=", .word "SCOPE_IDENTITY",
    .symbol "(", .symbol ")"]

end Contribution

/-- A word around a variable is read as the words around it. -/
theorem lexemes_snippetLine {p : String × String} (hp : p ∈ KeyStrategy.surroundings) (i : Nat)
    (column table : String) :
    Tokens.lexemes .sqlServer
        (snippetLine (Dialect.sqlServer.keyTemplate (p.1 ++ "\x7bkey\x7d" ++ p.2) i column table))
      = (Token.word p.1).lexemes .sqlServer
        ++ .word (Dialect.keyVariable i) :: (Token.word p.2).lexemes .sqlServer
        ++ [Sentence.stop] := by
  have hd := Dialect.quoting_sqlServer
  have hend : (Token.word ";").lexemes .sqlServer = [Sentence.stop] := by decide
  rw [Dialect.keyTemplate_surrounding hp]
  simp [snippetLine, (legible_aroundVariable hd hp i).2, Token.lexemes_keyVariable hd, hend]

/-- The keys of SQL Server: identifiers are made before the insert, numbers by the insert. -/
theorem KeyStrategy.around_of_sqlServer {k : KeyStrategy}
    (hk : k ∈ Dialect.sqlServer.strategies.entries) :
    (k.duringInsert = true
        ∧ k.preInsert = some ("DECLARE " ++ "\x7bkey\x7d" ++ " UNIQUEIDENTIFIER = NEWID()")
        ∧ k.postInsert = none)
      ∨ k.duringInsert = false
        ∧ k.preInsert = some ("DECLARE " ++ "\x7bkey\x7d" ++ " BIGINT")
        ∧ k.postInsert = some ("SET " ++ "\x7bkey\x7d" ++ " = SCOPE_IDENTITY()") := by
  have hall : ∀ k ∈ Dialect.sqlServer.strategies.entries,
      (k.duringInsert = true
          ∧ k.preInsert = some ("DECLARE " ++ "\x7bkey\x7d" ++ " UNIQUEIDENTIFIER = NEWID()")
          ∧ k.postInsert = none)
        ∨ k.duringInsert = false
          ∧ k.preInsert = some ("DECLARE " ++ "\x7bkey\x7d" ++ " BIGINT")
          ∧ k.postInsert = some ("SET " ++ "\x7bkey\x7d" ++ " = SCOPE_IDENTITY()") := by
    decide
  exact hall k hk

namespace Command

variable {keys : List Contribution}

/-- The snippets before an insert are the declarations. -/
theorem lexemes_preInsert (table : String)
    (hkeys : ∀ f ∈ keys, ∃ k, f.strategy = some k ∧ k ∈ Dialect.sqlServer.strategies.entries) :
    (snippets .sqlServer table (·.preInsert) keys).flatMap
        (fun t => Tokens.lexemes .sqlServer (snippetLine t))
      = (keys.zipIdx.map fun x => x.1.declaration x.2).flatMap (· ++ [Sentence.stop]) := by
  have hdeclare : (Token.word "DECLARE ").lexemes .sqlServer = [.word "DECLARE"] := by decide
  have hnumber : (Token.word " BIGINT").lexemes .sqlServer = [.word "BIGINT"] := by decide
  have hidentifier : (Token.word " UNIQUEIDENTIFIER = NEWID()").lexemes .sqlServer
      = [.word "UNIQUEIDENTIFIER", .symbol "=", .word "NEWID", .symbol "(", .symbol ")"] := by
    decide
  rw [snippets, List.flatMap_assoc, List.flatMap_map]
  refine List.flatMap_congr fun x hx => ?_
  obtain ⟨k, hstrategy, hk⟩ := hkeys x.1 (List.fst_mem_of_mem_zipIdx hx)
  -- a key is declared with its value, or declared here and assigned behind the insert
  rcases KeyStrategy.around_of_sqlServer hk with ⟨hduring, hpre, -⟩ | ⟨hduring, hpre, -⟩
  · have hline := lexemes_snippetLine (p := ("DECLARE ", " UNIQUEIDENTIFIER = NEWID()"))
      (by decide) x.2 x.1.name table
    simp only [hstrategy, Option.bind_some, hpre, Option.map_some, Option.toList_some,
      List.flatMap_singleton, hline]
    simp [hdeclare, hidentifier, Contribution.declaration, Contribution.isPreset, hstrategy,
      hduring]
  · have hline := lexemes_snippetLine (p := ("DECLARE ", " BIGINT")) (by decide) x.2 x.1.name table
    simp only [hstrategy, Option.bind_some, hpre, Option.map_some, Option.toList_some,
      List.flatMap_singleton, hline]
    simp [hdeclare, hnumber, Contribution.declaration, Contribution.isPreset, hstrategy, hduring]

/-- The snippets behind an insert are the assignments. -/
theorem lexemes_postInsert (table : String)
    (hkeys : ∀ f ∈ keys, ∃ k, f.strategy = some k ∧ k ∈ Dialect.sqlServer.strategies.entries) :
    (snippets .sqlServer table (·.postInsert) keys).flatMap
        (fun t => Tokens.lexemes .sqlServer (snippetLine t))
      = (keys.zipIdx.filterMap fun x => x.1.assignment? x.2).flatMap (· ++ [Sentence.stop]) := by
  have hset : (Token.word "SET ").lexemes .sqlServer = [.word "SET"] := by decide
  have hidentity : (Token.word " = SCOPE_IDENTITY()").lexemes .sqlServer
      = [.symbol "=", .word "SCOPE_IDENTITY", .symbol "(", .symbol ")"] := by
    decide
  rw [snippets, List.flatMap_assoc, List.filterMap_eq_flatMap_toList, List.flatMap_assoc]
  refine List.flatMap_congr fun x hx => ?_
  obtain ⟨k, hstrategy, hk⟩ := hkeys x.1 (List.fst_mem_of_mem_zipIdx hx)
  rcases KeyStrategy.around_of_sqlServer hk with ⟨hduring, -, hpost⟩ | ⟨hduring, -, hpost⟩
  · simp [hpost, Contribution.assignment?, Contribution.isPreset, hstrategy, hduring]
  · have hline := lexemes_snippetLine (p := ("SET ", " = SCOPE_IDENTITY()")) (by decide) x.2
      x.1.name table
    simp only [hstrategy, Option.bind_some, hpost, Option.map_some, Option.toList_some,
      List.flatMap_singleton, hline]
    simp [hset, hidentity, Contribution.assignment?, Contribution.isPreset, hstrategy, hduring]

end Command

section Sentences

variable (f : Contribution) (i : Nat)

/-- A declaration declares the variable of its number. -/
theorem Contribution.declared?_declaration :
    (f.declaration i).declared? = some (Dialect.keyVariable i) := by
  unfold declaration
  cases f.isPreset <;> rfl

/-- A declaration gives a value to a preset key only. -/
theorem Contribution.initialized?_declaration :
    (f.declaration i).initialized? = if f.isPreset then some (Dialect.keyVariable i) else none := by
  unfold declaration
  cases f.isPreset <;> rfl

/-- A declaration mentions its variable once. -/
theorem Contribution.keyVariables_declaration :
    keyVariables (f.declaration i) = [Dialect.keyVariable i] := by
  unfold declaration
  cases f.isPreset <;> exact keyVariables_about (by decide) i (by decide)

theorem Contribution.stop_not_mem_declaration : Sentence.stop ∉ f.declaration i := by
  unfold declaration
  cases f.isPreset <;> simp [Sentence.stop]

theorem Contribution.stop_not_mem_assignment {s : Sentence} (h : f.assignment? i = some s) :
    Sentence.stop ∉ s := by
  unfold assignment? at h
  split at h
  · cases h
  · cases h
    simp [Sentence.stop]

/-- A key that is not preset is assigned once. -/
theorem Contribution.map_assigned?_assignment? :
    (f.assignment? i).map (·.assigned?)
      = if f.isPreset then none else some (some (Dialect.keyVariable i)) := by
  unfold assignment?
  cases f.isPreset <;> rfl

theorem Contribution.map_keyVariables_assignment? :
    (f.assignment? i).map keyVariables
      = if f.isPreset then none else some [Dialect.keyVariable i] := by
  unfold assignment?
  cases f.isPreset with
  | true => rfl
  | false => exact congrArg some (keyVariables_about (by decide) i (by decide))

end Sentences

/-! ## Whole inserts -/

/-- What a list is filtered to has its items in it, each behind so many that are kept. -/
theorem exists_split_of_getElem?_filter {α : Type} {keep : α → Bool} {xs : List α} {i : Nat} {x : α}
    (h : (xs.filter keep)[i]? = some x) :
    ∃ earlier later, xs = earlier ++ x :: later ∧ earlier.countP keep = i ∧ keep x = true := by
  induction xs generalizing i with
  | nil => simp at h
  | cons first rest ih =>
    by_cases hfirst : keep first = true
    · rw [List.filter_cons_of_pos hfirst] at h
      cases i with
      | zero =>
        cases h
        exact ⟨[], rest, rfl, rfl, hfirst⟩
      | succ i =>
        obtain ⟨earlier, later, rfl, hcount, hkeep⟩ := ih h
        exact ⟨first :: earlier, later, rfl, by simp [hfirst, hcount], hkeep⟩
    · rw [List.filter_cons_of_neg hfirst] at h
      obtain ⟨earlier, later, rfl, hcount, hkeep⟩ := ih h
      exact ⟨first :: earlier, later, rfl, by simp [hfirst, hcount], hkeep⟩

namespace Command

/-- The keys have the first variables, in order. -/
theorem map_zipIdx_keyVariable (keys : List Contribution) :
    (keys.zipIdx.map fun x => Dialect.keyVariable x.2) = variablesBelow keys.length := by
  have hindices : (keys.zipIdx.map fun x => Dialect.keyVariable x.2)
      = (keys.zipIdx.map Prod.snd).map Dialect.keyVariable := by
    rw [List.map_map]
    rfl
  rw [hindices, List.zipIdx_map_snd, variablesBelow, List.range_eq_range']

/-- Declarations and assignments divide the work as the keys need it. -/
theorem keyBatch_of_mentions {keys : List Contribution} {insert read predicate : Sentence}
    (hinsert : insert.head? = some (.word "INSERT"))
    (hinserted : keyVariables insert
      = (keys.zipIdx.filter (·.1.isPreset)).map fun x => Dialect.keyVariable x.2)
    (hread : read.head? = some (.word "SELECT")) (hreads : keyVariables read = [])
    (hpredicate : keyVariables predicate
      = keys.zipIdx.map fun x => Dialect.keyVariable x.2)
    (hcompared : ∀ i f, keys[i]? = some f →
      [.name f.name, .symbol "=", .word (Dialect.keyVariable i)] <:+: predicate) :
    KeyBatch keys (keys.zipIdx.map fun x => x.1.declaration x.2) insert
      (keys.zipIdx.filterMap fun x => x.1.assignment? x.2) read predicate where
  -- each field holds by itself, so it is a fact about the lists of fields position by position
  declared := by
    rw [← map_zipIdx_keyVariable, List.map_map, List.map_map]
    exact List.map_congr_left fun x _ => x.1.declared?_declaration x.2
  declarations_mention := by
    rw [← map_zipIdx_keyVariable, List.flatMap_map, List.map_eq_flatMap]
    exact List.flatMap_congr fun x _ => x.1.keyVariables_declaration x.2
  insert_head := hinsert
  inserted := by
    rw [hinserted, List.filterMap_map, ← List.filterMap_eq_map, List.filterMap_filter]
    exact List.filterMap_congr fun x _ => (x.1.initialized?_declaration x.2).symm
  assigned := by
    rw [List.map_filterMap, List.filter_map, List.map_map, ← List.filterMap_eq_map,
      List.filterMap_filter]
    refine List.filterMap_congr fun x _ => ?_
    simp only [Function.comp_apply, x.1.map_assigned?_assignment?,
      x.1.initialized?_declaration, x.1.declared?_declaration]
    cases x.1.isPreset <;> rfl
  assignments_mention := by
    rw [List.map_filterMap, List.filter_map, List.map_map, ← List.filterMap_eq_map,
      List.filterMap_filter]
    refine List.filterMap_congr fun x _ => ?_
    simp only [Function.comp_apply, x.1.map_keyVariables_assignment?,
      x.1.initialized?_declaration, x.1.keyVariables_declaration]
    cases x.1.isPreset <;> rfl
  read_head := hread
  read_mentions := hreads
  predicate_mentions := by rw [hpredicate, map_zipIdx_keyVariable]
  compared := hcompared

/-- Every chosen contribution of an insert has a slot that reads as one word. -/
theorem InsertDraft.Fills.reads {table : String} {supply : KeySupply} {placed : Placed}
    {draft : InsertDraft} (h : Fills .sqlServer table supply placed draft)
    (hgiven : ∀ f ∈ placed.fields, Given .sqlServer f) {choose : Contribution → Bool}
    (hchoose : ∀ f, choose f = true → f.isInserted = true ∨ f.isValuedKey = true) :
    placed.Reads choose := by
  intro earlier f slot later hsplit hchosen
  have hmem : f ∈ placed.fields := by simp [hsplit, Placed.fields]
  exact (h.filled earlier f slot later hsplit).reads (hgiven f hmem) (hchoose f hchosen)

/-- A key that the server makes is always read back by, and inserted if it has a value before. -/
theorem served_chosen {f : Contribution} (h : f.isServed = true) :
    f.isValuedKey = true ∧ f.isInserted = f.isPreset := by
  have hmade : f.isMade = false := by
    rw [← Bool.not_eq_true]
    intro hmade
    simp [Contribution.isServed_of_isMade hmade] at h
  have hempty : f.isEmptyKey = true := (Bool.and_eq_true_iff.1 h).1
  obtain ⟨hrole, hvalue⟩ := Bool.and_eq_true_iff.1 hempty
  have hsome : f.value.isSome = true := by
    cases hv : f.value <;> simp_all
  simp_all [Contribution.isValuedKey, Contribution.isInserted, Contribution.isPreset]

/-- Each key that the server makes is compared with its variable. -/
theorem Placed.Reads.compared {placed : Placed} (h : placed.Reads (·.isValuedKey)) {i : Nat}
    {f : Contribution} (hf : (placed.fields.filter (·.isServed))[i]? = some f) :
    [.name f.name, .symbol "=", .word (Dialect.keyVariable i)]
      <:+: Tokens.lexemes .sqlServer (keyCondition (placed.columns (·.isValuedKey))) := by
  rw [Placed.fields, List.filter_map, List.getElem?_map] at hf
  obtain ⟨⟨f, slot⟩, hget, rfl⟩ := Option.map_eq_some_iff.1 hf
  obtain ⟨earlier, later, hsplit, hcount, hserved⟩ := exists_split_of_getElem?_filter hget
  have hserved : f.isServed = true := hserved
  have hchosen : f.isValuedKey = true := (served_chosen hserved).1
  have hearlier : (Placed.fields earlier).countP (·.isServed) = i := by
    rw [← hcount, Placed.fields, List.countP_map]
  obtain ⟨w, hw, hvariable⟩ := h earlier f slot later hsplit hchosen
  rw [if_pos hserved, hearlier] at hvariable
  rw [Lexeme.eq_of_keyVariable? hvariable] at hw
  have hpiece := ColumnSlot.lexemes_condition (c := ⟨f.name, slot⟩) hw
  have hcolumn : (⟨f.name, slot⟩ : ColumnSlot) ∈ placed.columns (·.isValuedKey) := by
    simp [Placed.columns, hsplit, hchosen]
  show [Lexeme.name f.name, _, _] <:+: _
  rw [← hpiece]
  exact Tokens.infix_lexemes (Text.infix_separated (List.mem_map_of_mem hcolumn))

/-- The sentences of an insert for which the server makes the keys. -/
def keySentences (i : InsertParts) (keys : List Contribution) : List Sentence :=
  (keys.zipIdx.map fun x => x.1.declaration x.2)
    ++ Tokens.lexemes .sqlServer i.body :: (keys.zipIdx.filterMap fun x => x.1.assignment? x.2)
    ++ [Tokens.lexemes .sqlServer i.readBack.body
      ++ .word "WHERE" :: Tokens.lexemes .sqlServer (keyCondition i.readBack.key)]

/-- No sentence of a batch has a semicolon inside. -/
theorem stop_not_mem_keySentences {i : InsertParts} (keys : List Contribution)
    (hvalues : ∀ v ∈ i.values, Mentions .sqlServer v.slot.tokens v.mentioned)
    (hkey : ∀ c ∈ i.readBack.key, Mentions .sqlServer c.slot.tokens c.mentioned) :
    ∀ s ∈ keySentences i keys, Sentence.stop ∉ s := by
  intro s hs
  simp only [keySentences, List.mem_append, List.mem_cons, List.mem_map, List.mem_filterMap,
    List.not_mem_nil, or_false] at hs
  rcases hs with (⟨x, -, rfl⟩ | rfl | ⟨x, -, hs⟩) | rfl
  · exact x.1.stop_not_mem_declaration x.2
  · exact (InsertParts.mentions_body hvalues).unstopped
  · exact x.1.stop_not_mem_assignment x.2 hs
  · rw [List.mem_append, List.mem_cons, not_or, not_or]
    exact ⟨i.readBack.mentions_body.unstopped, by simp [Sentence.stop],
      (mentions_keyCondition hkey).unstopped⟩

/-- The lines of an insert are its sentences with their ends. -/
theorem lexemes_lines {i : InsertParts} {keys : List Contribution}
    (hkeys : ∀ f ∈ keys, ∃ k, f.strategy = some k ∧ k ∈ Dialect.sqlServer.strategies.entries)
    (hbefore : i.before = snippets .sqlServer i.table (·.preInsert) keys)
    (hafter : i.after = snippets .sqlServer i.table (·.postInsert) keys)
    (hsome : i.readBack.key ≠ []) :
    (i.lines .sqlServer).flatMap (Tokens.lexemes .sqlServer)
      = (keySentences i keys).flatMap (· ++ [Sentence.stop]) := by
  rw [InsertParts.lines, hbefore, hafter, keySentences]
  simp only [List.flatMap_append, List.flatMap_cons, List.flatMap_nil, List.append_nil]
  rw [List.flatMap_map, List.flatMap_map, lexemes_preInsert _ hkeys, lexemes_postInsert _ hkeys,
    InsertParts.lexemes_insertLine, ReadBack.lexemes_line hsome]
  simp only [List.append_assoc]

/-- The batch of an insert uses the variables of its keys rightly: it declares them first, inserts
those with a value, assigns the others behind the insert, and reads the row back by all of them,
each at the column of its key. -/
theorem keyVariables_insert (c : Command) (supply : KeySupply)
    (hfields : ∀ f ∈ c.fields, ∀ k, f.strategy = some k →
      k ∈ Dialect.sqlServer.strategies.entries)
    {built : Built} (h : (c.insert .sqlServer supply).1 = .ok built) :
    ∃ declarations insert assignments read predicate,
      sentences (Dialect.sqlServer.lexemes built.statement.sql)
          = declarations ++ insert :: assignments ++ [read ++ .word "WHERE" :: predicate] ++ [[]]
        ∧ KeyBatch (c.fields.filter (·.isServed)) declarations insert assignments read
          predicate := by
  have hd : Dialect.sqlServer ∈ Dialect.shipped := by decide
  have hshipped : ∀ f ∈ c.fields, f.Shipped := fun f hf k hk => ⟨_, hd, hfields f hf k hk⟩
  obtain ⟨draft, placed, hdraft, hplaced, hfills, -, hstatement⟩ := insert_eq_ok hshipped h
  -- the draft was filled field by field, which says what its values and its key are
  have hsound := (InsertDraft.Sound.new supply).addAll hd hfields hdraft
  have hinserted : placed.Reads (·.isInserted) :=
    hfills.reads (hplaced ▸ hfields) fun _ => .inl
  have hvalued : placed.Reads (·.isValuedKey) :=
    hfills.reads (hplaced ▸ hfields) fun _ => .inr
  have hkeys : ∀ f ∈ c.fields.filter (·.isServed), ∃ k, f.strategy = some k
      ∧ k ∈ Dialect.sqlServer.strategies.entries := by
    intro f hf
    obtain ⟨hmem, hserved⟩ := List.mem_filter.1 hf
    have hany := (Bool.and_eq_true_iff.1 hserved).2
    cases hk : f.strategy with
    | none => simp [hk] at hany
    | some k => exact ⟨k, rfl, hfields f hmem k hk⟩
  have hsome : draft.key ≠ [] := by
    obtain ⟨-, -, f, hf, hkey⟩ := (exists_insert_iff .sqlServer supply hshipped).1 ⟨built, h⟩
    rw [hfills.key, Ne, columns_eq_nil_iff, hplaced]
    exact fun hnone => by simp [hnone f hf] at hkey
  have hvalues : ∀ v ∈ draft.values, Mentions .sqlServer v.slot.tokens v.mentioned :=
    hfills.values ▸ hinserted.mentions
  have hkey : ∀ v ∈ draft.key, Mentions .sqlServer v.slot.tokens v.mentioned :=
    hfills.key ▸ hvalued.mentions
  have hlegible := InsertParts.legible_lines hd (p := c.insertParts draft) hsound.snippets
    hsound.values.legible hsound.key
  -- so the batch falls into one sentence for each of its lines
  have hbatch : sentences (Dialect.sqlServer.lexemes built.statement.sql)
      = keySentences (c.insertParts draft) (c.fields.filter (·.isServed)) ++ [[]] := by
    rw [hstatement]
    show sentences (Dialect.sqlServer.lexemes (Dialect.sqlServer.batch _)) = _
    rw [lexemes_batch Dialect.quoting_sqlServer hlegible,
      lexemes_lines hkeys (hplaced ▸ hfills.before) (hplaced ▸ hfills.after) hsome,
      sentences_flatMap (stop_not_mem_keySentences _ hvalues hkey)]
  refine ⟨_, _, _, _, _, hbatch, keyBatch_of_mentions (InsertParts.head?_body _) ?_
    (ReadBack.head?_body _) (ReadBack.mentions_body _).mentioned ?_ ?_⟩
  · -- what the insert mentions are the served fields that have a value
    rw [(InsertParts.mentions_body hvalues).mentioned]
    show draft.values.flatMap _ = _
    rw [hfills.values, hinserted.mentioned, hplaced]
    refine congrArg _ (List.filter_congr fun x hx => (served_chosen ?_).2)
    exact (List.mem_filter.1 (List.fst_mem_of_mem_zipIdx hx)).2
  · -- the condition mentions every served field, as each of them is in the key
    show keyVariables (Tokens.lexemes .sqlServer (keyCondition draft.key)) = _
    rw [(mentions_keyCondition hkey).mentioned, hfills.key, hvalued.mentioned, hplaced]
    refine congrArg _ (List.filter_eq_self.2 fun x hx => (served_chosen ?_).1)
    exact (List.mem_filter.1 (List.fst_mem_of_mem_zipIdx hx)).2
  · intro i f hf
    show _ <:+: Tokens.lexemes .sqlServer (keyCondition draft.key)
    rw [hfills.key]
    exact hvalued.compared (hplaced ▸ hf)

end Command

namespace Company

/-- A passport with a number and an identifier that the server makes, behind a key that is given,
and with a column that is named like a variable. -/
def newPassport : Command :=
  ⟨"passports", [
    { name := "region"
      value := some (.of (.int32 7))
      role := .keyField
      strategy := Dialect.sqlServer.strategies.find? (.of .int32) },
    { name := "number"
      value := some (.null (.of .int64))
      role := .keyField
      strategy := Dialect.sqlServer.strategies.find? (.of .int64) },
    { name := "@k0", value := some (.of (.varchar "Ada")), role := .writeable },
    { name := "token]"
      value := some (.null (.of .uuid))
      role := .keyField
      strategy := Dialect.sqlServer.strategies.find? (.of .uuid) }]⟩

end Company

/-- The number and the identifier of a passport are made by the server, behind a key that is given. -/
theorem keyVariables_insert_newPassport :
    let c := Company.newPassport
    let supply : KeySupply := { random := fun n => BitVec.ofNat 128 n }
    (∀ f ∈ c.fields, ∀ k, f.strategy = some k → k ∈ Dialect.sqlServer.strategies.entries)
      ∧ ∃ built, (c.insert .sqlServer supply).1 = .ok built
        ∧ (∃ declarations insert assignments read predicate,
          sentences (Dialect.sqlServer.lexemes built.statement.sql)
              = declarations ++ insert :: assignments ++ [read ++ .word "WHERE" :: predicate]
                ++ [[]]
            ∧ KeyBatch (c.fields.filter (·.isServed)) declarations insert assignments read
              predicate)
        ∧ (c.fields.filter (·.isServed)).map (·.name) = ["number", "token]"] := by
  intro c supply
  have hfields : ∀ f ∈ c.fields, ∀ k, f.strategy = some k →
      k ∈ Dialect.sqlServer.strategies.entries := by
    have hstrategies : ∀ f ∈ c.fields, ∀ k ∈ f.strategy,
        k ∈ Dialect.sqlServer.strategies.entries := by
      decide +kernel
    exact hstrategies
  have hshipped : ∀ f ∈ c.fields, f.Shipped := fun f hf k hk => ⟨_, by decide, hfields f hf k hk⟩
  obtain ⟨built, hbuilt⟩ := (Command.exists_insert_iff .sqlServer supply hshipped).2
    (by decide +kernel)
  exact ⟨hfields, built, hbuilt, Command.keyVariables_insert c supply hfields hbuilt,
    by decide +kernel⟩

end RowMapper
