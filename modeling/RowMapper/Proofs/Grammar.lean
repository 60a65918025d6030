import RowMapper.Expr.Basic
import RowMapper.Proofs.Legible

/-!
# The grammar of SQL expressions

Terms, how they are written with as few parentheses as the precedences ask for, and a precedence
parser that reads them back. The tables of operators are those of expressions: binary operators
associate to the left, NOT and the minus sign stand before their operand, IS NULL, IS NOT NULL
and IN behind it, as tight as the equality.

The parser takes one lexeme at a time. What it has not finished lies on a stack of frames, the
innermost first: open parentheses, operators that wait for their right operand, lists. An
operator first closes all that binds at least as tightly as itself. An operator before its
operand must bind more tightly than what it stands behind. Parentheses around nothing but
placeholders are a list, and those around NULL alone the empty list.

* `Term.lexemes` is the writing, `parse` the reading.
* `parse_lexemes` is the headline: every term is read back from its lexemes. It rests on
  `run_lexemes`, which is about any stack of frames that the term may stand on.
-/

namespace RowMapper

/-- A term of the grammar over the entries of its placeholders. -/
inductive Term (α : Type) where
  | column (tableAlias name : String)
  | placeholder (entry : α)
  | null
  | number (n : Nat)
  | list (items : List α)
  | unary (op : UnaryOp) (arg : Term α)
  | binary (op : BinaryOp) (lhs rhs : Term α)
  | isNull (negated : Bool) (arg : Term α)
  | isIn (arg : Term α) (items : List α)
  deriving Repr, DecidableEq

/-! ## Lexemes of operators -/

/-- The lexemes of the operator between its operands. -/
def BinaryOp.lexemes (op : BinaryOp) : List Lexeme := Dialect.generic.lexemes op.text

/-- The lexemes of the operator before its operand. -/
def UnaryOp.lexemes (op : UnaryOp) : List Lexeme := Dialect.generic.lexemes op.text

namespace Lexeme

/-- The operator between two operands that is this lexeme alone. -/
def binaryOp? (l : Lexeme) : Option BinaryOp := BinaryOp.all.find? (·.lexemes == [l])

/-- The operator before an operand that is this lexeme. -/
def unaryOp? (l : Lexeme) : Option UnaryOp := UnaryOp.all.find? (·.lexemes == [l])

/-- The operand that is this lexeme alone. -/
def operand? (l : Lexeme) : Option (Term Nat) :=
  match l with
  | .name text => some (.column "" text)
  | .word text =>
    match l.placeholder? with
    | some i => some (.placeholder i)
    | none => if text = "NULL" then some .null else (number? text.toList).map .number
  | .symbol _ => none

end Lexeme

/-! ## Writing -/

/-- The lexemes, between parentheses if that is needed. -/
def Lexeme.grouped (needed : Bool) (ls : List Lexeme) : List Lexeme :=
  if needed then .symbol "(" :: ls ++ [.symbol ")"] else ls

/-- The lexemes of placeholders with commas between them. -/
def Lexeme.items (d : Dialect) (items : List Nat) : List Lexeme :=
  Text.separated [.symbol ","] (items.map fun i => [.word (d.parameter i)])

/-- The lexemes of a list of placeholders. -/
def Lexeme.ofItems (d : Dialect) (items : List Nat) : List Lexeme :=
  .symbol "(" :: Lexeme.items d items ++ [.symbol ")"]

namespace Term

section

variable {α β : Type}

/-- The term with other entries. -/
def map (f : α → β) : Term α → Term β
  | .column tableAlias name => .column tableAlias name
  | .placeholder entry => .placeholder (f entry)
  | .null => .null
  | .number n => .number n
  | .list items => .list (items.map f)
  | .unary op arg => .unary op (arg.map f)
  | .binary op lhs rhs => .binary op (lhs.map f) (rhs.map f)
  | .isNull negated arg => .isNull negated (arg.map f)
  | .isIn arg items => .isIn (arg.map f) (items.map f)

/-- How tightly the term binds; none if it never needs parentheses. -/
def precedence? : Term α → Option Nat
  | .unary op _ => some op.precedence
  | .binary op _ _ => some op.precedence
  | .isNull _ _ | .isIn _ _ => some BinaryOp.equal.precedence
  | _ => none

/-- The term binds looser than the limit. -/
def bindsBelow (t : Term α) (limit : Nat) : Bool := t.precedence?.any (· < limit)

/-- The term binds at most as tightly as the limit. -/
def bindsUpTo (t : Term α) (limit : Nat) : Bool := t.precedence?.any (· ≤ limit)

/-- The term can be written: columns stand behind aliases, and no membership is in nothing. -/
def Writable : Term α → Prop
  | .column tableAlias _ => IsQualifier tableAlias
  | .unary _ arg => arg.Writable
  | .binary _ lhs rhs => lhs.Writable ∧ rhs.Writable
  | .isNull _ arg => arg.Writable
  | .isIn arg items => arg.Writable ∧ items ≠ []
  | _ => True

end

/-- The lexemes of the term. -/
def lexemes (d : Dialect) : Term Nat → List Lexeme
  | .column tableAlias name => Lexeme.ofColumn tableAlias name
  | .placeholder i => [.word (d.parameter i)]
  | .null => [.word "NULL"]
  | .number n => [.word (toString n)]
  | .list items =>
    if items.isEmpty then Lexeme.grouped true [.word "NULL"] else Lexeme.ofItems d items
  | .unary op arg => op.lexemes ++ Lexeme.grouped (arg.bindsUpTo op.precedence) (arg.lexemes d)
  | .binary op lhs rhs =>
    Lexeme.grouped (lhs.bindsBelow op.precedence) (lhs.lexemes d)
      ++ op.lexemes ++ Lexeme.grouped (rhs.bindsUpTo op.precedence) (rhs.lexemes d)
  | .isNull negated arg =>
    Lexeme.grouped (arg.bindsUpTo BinaryOp.equal.precedence) (arg.lexemes d)
      ++ if negated then [.word "IS", .word "NOT", .word "NULL"] else [.word "IS", .word "NULL"]
  | .isIn arg items =>
    Lexeme.grouped (arg.bindsUpTo BinaryOp.equal.precedence) (arg.lexemes d)
      ++ .word "IN" :: Lexeme.ofItems d items

end Term

/-! ## Reading -/

/-- What a parser has begun. -/
inductive Frame where
  /-- An open parenthesis. -/
  | group
  /-- An operator that waits for its operand. -/
  | before (op : UnaryOp)
  /-- An operator that waits for its right operand. -/
  | between (lhs : Term Nat) (op : BinaryOp)
  /-- A list of which some items were read, of a membership or by itself. -/
  | items (arg : Option (Term Nat)) (read : List Nat)
  deriving DecidableEq

/-- What a parser expects. -/
inductive Mode where
  | operand
  /-- Behind the alias of a column. -/
  | qualifier (tableAlias : String)
  /-- Behind the dot of a column. -/
  | dot (tableAlias : String)
  /-- Behind an operand. -/
  | operator (t : Term Nat)
  /-- Behind a NOT that LIKE must follow. -/
  | notLike (t : Term Nat)
  | is (t : Term Nat)
  | isNot (t : Term Nat)
  /-- Behind an IN that a list must follow. -/
  | isIn (t : Term Nat)
  deriving DecidableEq

/-- The state of a parser, the innermost frame first. -/
structure Parser where
  mode : Mode := .operand
  frames : List Frame := []
  deriving DecidableEq

namespace Parser

/-- The operator that waits in the frame, by its precedence. -/
def waiting? : Frame → Option Nat
  | .before op => some op.precedence
  | .between _ op => some op.precedence
  | _ => none

/-- What binds as tightly as the limit may begin on the frames. -/
def admits (fs : List Frame) (limit : Nat) : Prop := ∀ p ∈ fs.head?.bind waiting?, p < limit

instance (fs : List Frame) (limit : Nat) : Decidable (admits fs limit) :=
  inferInstanceAs (Decidable (∀ p ∈ fs.head?.bind waiting?, p < limit))

/-- The operand with the operators that wait for it and bind at least as tightly as the limit,
and the frames that are left. -/
def reduce (limit : Nat) : Term Nat → List Frame → Term Nat × List Frame
  | t, .before op :: fs =>
    if limit ≤ op.precedence then reduce limit (.unary op t) fs else (t, .before op :: fs)
  | t, .between lhs op :: fs =>
    if limit ≤ op.precedence then reduce limit (.binary op lhs t) fs
    else (t, .between lhs op :: fs)
  | t, fs => (t, fs)

/-- The term of a list that is complete. -/
def listed : Option (Term Nat) → List Nat → Term Nat
  | none, items => .list items
  | some arg, items => .isIn arg items

/-- Goes on to the right operand of an operator. -/
def shift (op : BinaryOp) (t : Term Nat) (fs : List Frame) : Parser :=
  let (lhs, fs) := reduce op.precedence t fs
  ⟨.operand, .between lhs op :: fs⟩

/-- Takes an operator behind its operand. -/
def attach (wrap : Term Nat → Term Nat) (t : Term Nat) (fs : List Frame) : Parser :=
  let (arg, fs) := reduce BinaryOp.equal.precedence t fs
  ⟨.operator (wrap arg), fs⟩

/-- Closes a parenthesis. -/
def close (t : Term Nat) (fs : List Frame) : Option Parser :=
  match reduce 0 t fs with
  | (.placeholder i, .items arg read :: fs) => some ⟨.operator (listed arg (read ++ [i])), fs⟩
  -- a single placeholder and NULL are not written in parentheses but as lists
  | (.placeholder i, .group :: fs) => some ⟨.operator (.list [i]), fs⟩
  | (.null, .group :: fs) => some ⟨.operator (.list []), fs⟩
  | (t, .group :: fs) => some ⟨.operator t, fs⟩
  | _ => none

/-- Goes on to the next item of a list. -/
def comma (t : Term Nat) (fs : List Frame) : Option Parser :=
  match t, fs with
  | .placeholder i, .items arg read :: fs => some ⟨.operand, .items arg (read ++ [i]) :: fs⟩
  | .placeholder i, .group :: fs => some ⟨.operand, .items none [i] :: fs⟩
  | _, _ => none

/-- A lexeme where an operand is expected. -/
def operandStep (fs : List Frame) (l : Lexeme) : Option Parser :=
  match l.operand?, l.unaryOp? with
  | some t, _ => some ⟨.operator t, fs⟩
  -- NOT may not stand behind what binds as tightly as itself
  | none, some op => if admits fs op.precedence then some ⟨.operand, .before op :: fs⟩ else none
  | none, none =>
    match l with
    | .symbol text => if text = "(" then some ⟨.operand, .group :: fs⟩ else none
    | .word text => some ⟨.qualifier text, fs⟩
    | .name _ => none

/-- A lexeme behind an operand. -/
def operatorStep (t : Term Nat) (fs : List Frame) (l : Lexeme) : Option Parser :=
  match l.binaryOp? with
  | some op => some (shift op t fs)
  | none =>
    if l = .word "NOT" then some ⟨.notLike t, fs⟩
    else if l = .word "IS" then some ⟨.is t, fs⟩
    else if l = .word "IN" then some ⟨.isIn t, fs⟩
    else if l = .symbol ")" then close t fs
    else if l = .symbol "," then comma t fs
    else none

/-- One lexeme. -/
def step (p : Parser) (l : Lexeme) : Option Parser :=
  match p.mode with
  | .operand => operandStep p.frames l
  | .qualifier a => if l = .symbol "." then some ⟨.dot a, p.frames⟩ else none
  | .dot a =>
    match l with
    | .name text => some ⟨.operator (.column a text), p.frames⟩
    | _ => none
  | .operator t => operatorStep t p.frames l
  | .notLike t => if l = .word "LIKE" then some (shift .notLike t p.frames) else none
  | .is t =>
    if l = .word "NULL" then some (attach (.isNull false) t p.frames)
    else if l = .word "NOT" then some ⟨.isNot t, p.frames⟩
    else none
  | .isNot t => if l = .word "NULL" then some (attach (.isNull true) t p.frames) else none
  | .isIn t =>
    if l = .symbol "(" then
      let (arg, fs) := reduce BinaryOp.equal.precedence t p.frames
      some ⟨.operand, .items (some arg) [] :: fs⟩
    else none

/-- The lexemes one after the other. -/
def run (p : Parser) (ls : List Lexeme) : Option Parser := ls.foldlM step p

/-- The term, once all is read. -/
def finish (p : Parser) : Option (Term Nat) :=
  match p.mode with
  | .operator t =>
    match reduce 0 t p.frames with
    | (t, []) => some t
    | _ => none
  | _ => none

end Parser

/-- The term that the lexemes write. -/
def parse (ls : List Lexeme) : Option (Term Nat) := (Parser.run {} ls).bind Parser.finish

/-! ## What is written is read back -/

namespace Parser

@[simp] theorem run_nil (p : Parser) : run p [] = some p := rfl

@[simp] theorem run_cons (p : Parser) (l : Lexeme) (ls : List Lexeme) :
    run p (l :: ls) = (step p l).bind (run · ls) := rfl

theorem run_append (p : Parser) (ls more : List Lexeme) :
    run p (ls ++ more) = (run p ls).bind (run · more) := by
  simp [run, List.foldlM_append]

/-! ### Frames -/

/-- Nothing is closed by what may begin on the frames. -/
theorem reduce_of_admits {fs : List Frame} {limit : Nat} (h : admits fs limit) (t : Term Nat) :
    reduce limit t fs = (t, fs) := by
  cases fs with
  | nil => rfl
  | cons f fs =>
    cases f with
    | before op =>
      have hlt : op.precedence < limit := h _ rfl
      simp [reduce, Nat.not_le.2 hlt]
    | between lhs op =>
      have hlt : op.precedence < limit := h _ rfl
      simp [reduce, Nat.not_le.2 hlt]
    | group => rfl
    | items arg read => rfl

/-- What binds more tightly may begin wherever the looser one may. -/
theorem admits.mono {fs : List Frame} {a b : Nat} (h : admits fs a) (hab : a ≤ b) :
    admits fs b := fun p hp => Nat.lt_of_lt_of_le (h p hp) hab

/-- Behind a parenthesis everything may begin. -/
theorem admits_group (fs : List Frame) (limit : Nat) : admits (.group :: fs) limit := by
  simp [admits, waiting?]

theorem admits_before {op : UnaryOp} {limit : Nat} (h : op.precedence < limit)
    (fs : List Frame) : admits (.before op :: fs) limit := by
  simpa [admits, waiting?] using h

/-- Behind an operator may begin what binds more tightly. -/
theorem admits_between {op : BinaryOp} {limit : Nat} (h : op.precedence < limit)
    (lhs : Term Nat) (fs : List Frame) : admits (.between lhs op :: fs) limit := by
  simpa [admits, waiting?] using h

/-- The frames that the term may begin on. -/
def Fits (fs : List Frame) (t : Term Nat) : Prop := ∀ p ∈ t.precedence?, admits fs p

/-- From the frames an operand is read that closes to the term: whatever binds at most as
tightly as the limit finds the term on the same frames. -/
def Reads (fs : List Frame) (ls : List Lexeme) (t : Term Nat) (limit : Nat → Prop) : Prop :=
  ∃ u above, run ⟨.operand, fs⟩ ls = some ⟨.operator u, above ++ fs⟩
    ∧ ∀ n, limit n → reduce n u (above ++ fs) = reduce n t fs

/-! ### Lexemes of operators -/

/-- All operators but one are one lexeme, and read as themselves. -/
theorem binaryOp?_lexemes {op : BinaryOp} (h : op ≠ .notLike) :
    ∃ l, op.lexemes = [l] ∧ l.binaryOp? = some op := by
  cases op <;> first | exact absurd rfl h | exact ⟨_, rfl, by decide⟩

/-- An operator behind an operand goes on to the right operand. -/
theorem run_binaryOp (op : BinaryOp) (t : Term Nat) (fs : List Frame) :
    run ⟨.operator t, fs⟩ op.lexemes = some (shift op t fs) := by
  -- NOT LIKE alone is two lexemes, and NOT is no operator between operands
  by_cases h : op = .notLike
  · subst h
    have hlexemes : BinaryOp.notLike.lexemes = [.word "NOT", .word "LIKE"] := by decide
    have hnot : (Lexeme.word "NOT").binaryOp? = none := by decide
    simp [hlexemes, step, operatorStep, hnot]
  · obtain ⟨l, hlexemes, hop⟩ := binaryOp?_lexemes h
    simp [hlexemes, step, operatorStep, hop]

/-- An operator before an operand waits for it. -/
theorem run_unaryOp (op : UnaryOp) {fs : List Frame} (h : admits fs op.precedence) :
    run ⟨.operand, fs⟩ op.lexemes = some ⟨.operand, .before op :: fs⟩ := by
  have hop : ∃ l, op.lexemes = [l] ∧ l.operand? = none ∧ l.unaryOp? = some op := by
    cases op <;> exact ⟨_, rfl, by decide, by decide⟩
  obtain ⟨l, hlexemes, hoperand, hunary⟩ := hop
  simp [hlexemes, step, operandStep, hoperand, hunary, h]

/-! ### Operands of one lexeme -/

/-- An operand of one lexeme is read at once. -/
theorem run_operand {l : Lexeme} {t : Term Nat} (h : l.operand? = some t) (fs : List Frame) :
    run ⟨.operand, fs⟩ [l] = some ⟨.operator t, fs⟩ := by
  simp [step, operandStep, h]

/-- A placeholder is read as an operand, with its number. -/
theorem operand?_parameter (d : Dialect) (i : Nat) :
    (Lexeme.word (d.parameter i)).operand? = some (.placeholder i) := by
  simp only [Lexeme.operand?, placeholder?_parameter]

/-- A number is read as an operand. -/
theorem operand?_number (n : Nat) : (Lexeme.word (toString n)).operand? = some (.number n) := by
  have hplaceholder : (Lexeme.word (toString n)).placeholder? = none :=
    placeholder?_of_isWordChar fun c hc => isWordChar_of_mem_toString hc
  have hne : toString n ≠ "NULL" := by
    intro h
    have hnull : Lexeme.number? "NULL".toList = none := by decide
    have hnumber := number?_toString n
    rw [h, hnull] at hnumber
    cases hnumber
  simp only [Lexeme.operand?, hplaceholder, if_neg hne, number?_toString, Option.map_some]

/-- The alias of a column is no operand by itself. -/
theorem operandStep_alias {a : String} (h : IsAlias a) (fs : List Frame) :
    operandStep fs (.word a) = some ⟨.qualifier a, fs⟩ := by
  obtain ⟨n, hn⟩ := h.toList
  have hplaceholder : (Lexeme.word a).placeholder? = none := by
    simp [Lexeme.placeholder?, hn]
  -- an alias is a small letter and a number, which no keyword, sign or digit begins with
  have hnull : a ≠ "NULL" := by
    rintro rfl
    exact absurd hn (by simp)
  have hnot : a ≠ "NOT" := by
    rintro rfl
    exact absurd hn (by simp)
  have hnumber : Lexeme.number? a.toList = none := by
    rw [hn]
    simp [Lexeme.number?, Char.isDigit]
  have hoperand : (Lexeme.word a).operand? = none := by
    simp [Lexeme.operand?, hplaceholder, hnull, hnumber]
  have hunary : (Lexeme.word a).unaryOp? = none := by
    have hnegative : UnaryOp.negative.lexemes = [.symbol "-"] := by decide
    have hnegation : UnaryOp.not.lexemes = [.word "NOT"] := by decide
    simp [Lexeme.unaryOp?, UnaryOp.all, hnegative, hnegation, Ne.symm hnot]
  simp [operandStep, hoperand, hunary]

/-- A column is read as it is. -/
theorem run_column {a : String} (h : IsQualifier a) (name : String) (fs : List Frame) :
    run ⟨.operand, fs⟩ (Lexeme.ofColumn a name) = some ⟨.operator (.column a name), fs⟩ := by
  rcases h with rfl | h
  · exact run_operand rfl fs
  · simp [Lexeme.ofColumn, h.ne_empty, step, operandStep_alias h]

/-! ### Parentheses and lists -/

theorem step_close (t : Term Nat) (fs : List Frame) :
    step ⟨.operator t, fs⟩ (.symbol ")") = close t fs := by
  have hnone : (Lexeme.symbol ")").binaryOp? = none := by decide
  simp [step, operatorStep, hnone]

theorem step_comma (t : Term Nat) (fs : List Frame) :
    step ⟨.operator t, fs⟩ (.symbol ",") = comma t fs := by
  have hnone : (Lexeme.symbol ",").binaryOp? = none := by decide
  simp [step, operatorStep, hnone]

theorem step_open (fs : List Frame) :
    step ⟨.operand, fs⟩ (.symbol "(") = some ⟨.operand, .group :: fs⟩ := by
  have hnone : (Lexeme.symbol "(").unaryOp? = none := by decide
  simp [step, operandStep, Lexeme.operand?, hnone]

theorem items_cons (d : Dialect) (i j : Nat) (items : List Nat) :
    Lexeme.items d (i :: j :: items)
      = .word (d.parameter i) :: .symbol "," :: Lexeme.items d (j :: items) := rfl

theorem run_parameter (d : Dialect) (i : Nat) (fs : List Frame) (ls : List Lexeme) :
    run ⟨.operand, fs⟩ (.word (d.parameter i) :: ls) = run ⟨.operator (.placeholder i), fs⟩ ls := by
  have hone := run_operand (operand?_parameter d i) fs
  rw [← List.singleton_append, run_append, hone]
  rfl

/-- The rest of a list that was begun. -/
theorem run_items (d : Dialect) (arg : Option (Term Nat)) (read : List Nat) (i : Nat)
    (items : List Nat) (fs : List Frame) :
    run ⟨.operand, .items arg read :: fs⟩ (Lexeme.items d (i :: items) ++ [.symbol ")"])
      = some ⟨.operator (listed arg (read ++ i :: items)), fs⟩ := by
  induction items generalizing i read with
  | nil =>
    show run _ [.word (d.parameter i), .symbol ")"] = _
    rw [run_parameter, run_cons, step_close]
    rfl
  | cons j items ih =>
    rw [items_cons, List.cons_append, run_parameter, List.cons_append, run_cons, step_comma]
    show run ⟨.operand, .items arg (read ++ [i]) :: fs⟩ _ = _
    rw [ih]
    simp

/-- A list by itself, behind its parenthesis. -/
theorem run_list (d : Dialect) (i : Nat) (items : List Nat) (fs : List Frame) :
    run ⟨.operand, .group :: fs⟩ (Lexeme.items d (i :: items) ++ [.symbol ")"])
      = some ⟨.operator (.list (i :: items)), fs⟩ := by
  cases items with
  | nil =>
    show run _ [.word (d.parameter i), .symbol ")"] = _
    rw [run_parameter, run_cons, step_close]
    rfl
  | cons j items =>
    rw [items_cons, List.cons_append, run_parameter, List.cons_append, run_cons, step_comma]
    exact run_items d none [i] j items fs

/-- A term between parentheses is complete. -/
theorem run_group {fs : List Frame} {ls : List Lexeme} {t : Term Nat} {ok : Nat → Prop}
    (h : Reads (.group :: fs) ls t ok) (hzero : ok 0) (ht : t.precedence? ≠ none) :
    run ⟨.operand, fs⟩ (.symbol "(" :: ls ++ [.symbol ")"]) = some ⟨.operator t, fs⟩ := by
  obtain ⟨u, above, hrun, hreduce⟩ := h
  have hclosed : reduce 0 u (above ++ .group :: fs) = (t, .group :: fs) := by
    rw [hreduce 0 hzero]
    rfl
  have hclose : close u (above ++ .group :: fs) = some ⟨.operator t, fs⟩ := by
    unfold close
    rw [hclosed]
    cases t <;> first | rfl | exact absurd rfl ht
  rw [List.cons_append, run_cons, step_open, Option.bind_some, run_append, hrun,
    Option.bind_some, run_cons, step_close, hclose]
  rfl

/-- An operand that is parenthesized where it binds looser than the limit. -/
theorem Reads.grouped {fs : List Frame} {ls : List Lexeme} {t : Term Nat} {limit : Nat}
    (hfs : admits fs limit)
    (h : ∀ fs, Fits fs t → Reads fs ls t fun n => ∀ p ∈ t.precedence?, n ≤ p) :
    Reads fs (Lexeme.grouped (t.bindsBelow limit) ls) t (· ≤ limit) := by
  cases hneeded : t.bindsBelow limit with
  | true =>
    -- behind a parenthesis anything may begin, and the other one closes all of it
    have hbinds : t.precedence? ≠ none := by
      intro hnone
      simp [Term.bindsBelow, hnone] at hneeded
    have hgroup := run_group (h (.group :: fs) fun p _ => admits_group fs p)
      (fun p _ => Nat.zero_le p) hbinds
    exact ⟨t, [], hgroup, fun _ _ => rfl⟩
  | false =>
    have htight : ∀ p ∈ t.precedence?, limit ≤ p := by
      intro p hp
      rw [Option.mem_def] at hp
      simpa [Term.bindsBelow, hp] using hneeded
    obtain ⟨u, above, hrun, hreduce⟩ := h fs fun p hp => hfs.mono (htight p hp)
    exact ⟨u, above, hrun, fun n hn => hreduce n fun p hp => Nat.le_trans hn (htight p hp)⟩

/-- An operand that is parenthesized where it binds at most as tightly as the limit. -/
theorem Reads.groupedUpTo {fs : List Frame} {ls : List Lexeme} {t : Term Nat} {limit : Nat}
    (hfs : admits fs (limit + 1))
    (h : ∀ fs, Fits fs t → Reads fs ls t fun n => ∀ p ∈ t.precedence?, n ≤ p) :
    Reads fs (Lexeme.grouped (t.bindsUpTo limit) ls) t (· ≤ limit + 1) := by
  have hlimit : t.bindsUpTo limit = t.bindsBelow (limit + 1) := by
    simp only [Term.bindsUpTo, Term.bindsBelow, Nat.lt_succ_iff]
  rw [hlimit]
  exact .grouped hfs h

/-- An operand and what stands behind it is read once the operand is closed. -/
theorem Reads.closed {fs : List Frame} {ls : List Lexeme} {t : Term Nat} {ok : Nat → Prop}
    (h : Reads fs ls t ok) (limit : Nat) (hok : ok limit) (hfs : admits fs limit) :
    ∃ u fs', run ⟨.operand, fs⟩ ls = some ⟨.operator u, fs'⟩ ∧ reduce limit u fs' = (t, fs) := by
  obtain ⟨u, above, hrun, hreduce⟩ := h
  exact ⟨u, above ++ fs, hrun, by rw [hreduce limit hok, reduce_of_admits hfs]⟩

/-! ### Terms -/

/-- What is read without a look at what follows may be followed by anything. -/
theorem reads_of_run {fs : List Frame} {ls : List Lexeme} {t : Term Nat} {ok : Nat → Prop}
    (h : run ⟨.operand, fs⟩ ls = some ⟨.operator t, fs⟩) : Reads fs ls t ok :=
  ⟨t, [], h, fun _ _ => rfl⟩

/-- On any frames that it may begin on, a term is read from its lexemes. -/
theorem run_lexemes (d : Dialect) {t : Term Nat} (ht : t.Writable) {fs : List Frame}
    (hfs : Fits fs t) : Reads fs (t.lexemes d) t fun n => ∀ p ∈ t.precedence?, n ≤ p := by
  -- by the term, on any frames: operands are read above the frame of their operator
  induction t generalizing fs with
  | column a name => exact reads_of_run (run_column ht name fs)
  | placeholder i => exact reads_of_run (run_operand (operand?_parameter d i) fs)
  | null => exact reads_of_run (run_operand rfl fs)
  | number n => exact reads_of_run (run_operand (operand?_number n) fs)
  | list items =>
    refine reads_of_run ?_
    cases items with
    | nil =>
      show run _ [.symbol "(", .word "NULL", .symbol ")"] = _
      rw [run_cons, step_open]
      rfl
    | cons i items =>
      show run _ (.symbol "(" :: (Lexeme.items d (i :: items) ++ [.symbol ")"])) = _
      rw [run_cons, step_open]
      exact run_list d i items fs
  | unary op arg ih =>
    have hop : admits fs op.precedence := hfs _ rfl
    obtain ⟨u, above, hrun, hreduce⟩ := Reads.groupedUpTo
      (admits_before (Nat.lt_succ_self _) fs) fun fs h => ih ht h
    refine ⟨u, above ++ [.before op], ?_, fun n hn => ?_⟩
    · rw [Term.lexemes, run_append, run_unaryOp op hop, Option.bind_some, hrun]
      simp
    · have hlimit : n ≤ op.precedence := hn _ rfl
      rw [List.append_assoc, List.singleton_append, hreduce n (Nat.le_succ_of_le hlimit), reduce,
        if_pos hlimit]
  | binary op lhs rhs ihl ihr =>
    have hop : admits fs op.precedence := hfs _ rfl
    -- the operator closes the left operand and waits on the same frames
    obtain ⟨u, fs', hleft, hclosed⟩ := Reads.closed
      (Reads.grouped hop fun fs h => ihl ht.1 h) _ (Nat.le_refl op.precedence) hop
    -- the right operand binds more tightly than the operator, which waits for it
    obtain ⟨v, above, hrun, hreduce⟩ := Reads.groupedUpTo
      (admits_between (Nat.lt_succ_self _) lhs fs) fun fs h => ihr ht.2 h
    refine ⟨v, above ++ [.between lhs op], ?_, fun n hn => ?_⟩
    · rw [Term.lexemes, List.append_assoc, run_append, hleft, Option.bind_some, run_append,
        run_binaryOp, Option.bind_some]
      unfold shift
      rw [hclosed]
      simpa using hrun
    · have hlimit : n ≤ op.precedence := hn _ rfl
      rw [List.append_assoc, List.singleton_append, hreduce n (Nat.le_succ_of_le hlimit), reduce,
        if_pos hlimit]
  | isNull negated arg ih =>
    have hequal : admits fs BinaryOp.equal.precedence := hfs _ rfl
    obtain ⟨u, fs', hrun, hclosed⟩ := Reads.closed
      (Reads.groupedUpTo (hequal.mono (Nat.le_succ _)) fun fs h => ih ht h) _ (Nat.le_succ _)
      hequal
    refine reads_of_run ?_
    rw [Term.lexemes, run_append, hrun, Option.bind_some]
    have his : (Lexeme.word "IS").binaryOp? = none := by decide
    cases negated <;> simp [step, operatorStep, his, attach, hclosed]
  | isIn arg items ih =>
    have hequal : admits fs BinaryOp.equal.precedence := hfs _ rfl
    obtain ⟨u, fs', hrun, hclosed⟩ := Reads.closed
      (Reads.groupedUpTo (hequal.mono (Nat.le_succ _)) fun fs h => ih ht.1 h) _ (Nat.le_succ _)
      hequal
    obtain ⟨i, more, rfl⟩ := List.exists_cons_of_ne_nil ht.2
    refine reads_of_run ?_
    have hin : (Lexeme.word "IN").binaryOp? = none := by decide
    rw [Term.lexemes, run_append, hrun, Option.bind_some]
    show run _ (.word "IN" :: .symbol "(" :: (Lexeme.items d (i :: more) ++ [.symbol ")"])) = _
    simp only [run_cons, step, operatorStep, hin, reduceCtorEq, if_false, if_true,
      Lexeme.word.injEq, String.reduceEq, Option.bind_some, hclosed]
    exact run_items d (some arg) [] i more fs

end Parser

/-- A term is read back from its lexemes. -/
theorem parse_lexemes (d : Dialect) {t : Term Nat} (ht : t.Writable) :
    parse (t.lexemes d) = some t := by
  have hfits : Parser.Fits [] t := fun p _ => by simp [Parser.admits]
  obtain ⟨u, fs, hrun, hclosed⟩ := (Parser.run_lexemes d ht hfits).closed 0
    (fun p _ => Nat.zero_le p) (by simp [Parser.admits])
  unfold parse
  rw [hrun]
  simp [Parser.finish, hclosed]

/-- Parentheses are read where the precedences ask for them. -/
example : parse (Dialect.generic.lexemes "NOT (\"a\" OR -(@p0 + 1) * 2 = \"b\")")
    = some (.unary .not (.binary .or (.column "" "a")
      (.binary .equal (.binary .multiplication
        (.unary .negative (.binary .addition (.placeholder 0) (.number 1))) (.number 2))
        (.column "" "b")))) := by decide

end RowMapper
