import RowMapper.Proofs.CompiledText
import RowMapper.Proofs.Reading
import RowMapper.Sample.Company

/-!
# Compiled text reads as its expression

The text an expression compiles to, read by the precedence parser of the grammar, is the term
that the expression stands for. Where the compiler writes parentheses is decided by precedences
of expressions, where the parser wants them by those of terms; the two differ for a boolean
member alone, which is written as a comparison but bears no precedence. It stands for a
condition only below operators that bind looser than a comparison, so that it never needs the
parentheses it does not get.

* `Compiles.term` is the induction over derivations: the tokens are the lexemes of a term, and
  its placeholders hold the values of the reading in every later scope.
* `parse_text_compileInto` is the headline. The reading asks some questions of the node itself
  that conversions may hide; the theorem says exactly when erasing them first makes a difference.
-/

namespace RowMapper

/-! ## Lexemes of pieces -/

section Lexemes

variable {d : Dialect}

theorem lexemes_parenthesizedIf (hd : d.quoting ∈ Quoting.usual) (needed : Bool) (ts : Tokens) :
    Tokens.lexemes d (Tokens.parenthesizedIf needed ts)
      = Lexeme.grouped needed (Tokens.lexemes d ts) := by
  have hopen : (Token.word "(").lexemes d = [.symbol "("] := lexemes_word hd (by decide)
  have hclose : (Token.word ")").lexemes d = [.symbol ")"] := lexemes_word hd (by decide)
  cases needed with
  | true =>
    simp [Tokens.parenthesizedIf, Tokens.parenthesized, Lexeme.grouped, hopen, hclose]
  | false => rfl

theorem lexemes_items (hd : d.quoting ∈ Quoting.usual) (items : List Nat) :
    Tokens.lexemes d (Text.separated [.word ", "] (items.map fun i => [.parameter i]))
      = Lexeme.items d items := by
  have hcomma : (Token.word ", ").lexemes d = [.symbol ","] := lexemes_word hd (by decide)
  induction items with
  | nil => rfl
  | cons i items ih =>
    cases items with
    | nil => simp [Lexeme.items, Token.lexemes_parameter hd]
    | cons j items =>
      rw [Parser.items_cons, ← ih]
      simp [Text.separated, hcomma, Token.lexemes_parameter hd]

/-- The list of a membership is read as its placeholders. -/
theorem lexemes_parameterList (hd : d.quoting ∈ Quoting.usual) (first count : Nat) :
    Tokens.lexemes d (Tokens.parameterList first count)
      = Lexeme.ofItems d (List.range' first count) := by
  show Tokens.lexemes d (Tokens.parenthesizedIf true _) = _
  rw [lexemes_parenthesizedIf hd, lexemes_items hd]
  rfl

/-- The text of an operator is read as its words or its symbol. -/
theorem BinaryOp.lexemes_text (hd : d.quoting ∈ Quoting.usual) (op : BinaryOp) :
    (Token.word op.text).lexemes d = op.lexemes := by
  cases op <;> exact lexemes_word hd (by decide)

theorem UnaryOp.lexemes_text (hd : d.quoting ∈ Quoting.usual) (op : UnaryOp) :
    (Token.word op.text).lexemes d = op.lexemes := by
  cases op <;> exact lexemes_word hd (by decide)

/-- A test is read as IS NULL or IS NOT NULL. -/
theorem lexemes_nullTest (hd : d.quoting ∈ Quoting.usual) (negated : Bool) :
    (nullTest negated).lexemes d
      = if negated then [.word "IS", .word "NOT", .word "NULL"]
        else [.word "IS", .word "NULL"] := by
  cases negated <;> exact lexemes_word hd (by decide)

theorem lexemes_null (hd : d.quoting ∈ Quoting.usual) : Token.null.lexemes d = [.word "NULL"] :=
  lexemes_word hd (by decide)

/-- A column is read as alias, dot and name. -/
theorem lexemes_column (hd : d.quoting ∈ Quoting.usual) (env : Environment) {a : String}
    (h : IsAlias a) (column : String) :
    Tokens.lexemes d [env.column a column] = (env.columnTerm a column : Term Nat).lexemes d := by
  rw [Tokens.lexemes_cons, Tokens.lexemes_nil, List.append_nil]
  exact (legible_identifier hd (env.isQualifier_column h) column).2

end Lexemes

/-! ## Columns of members -/

namespace Scope

/-- A join that was asked for is found. -/
theorem join?_requireJoin (s : Scope) (path table leftAlias leftColumn rightColumn : String) :
    ∃ j, (s.requireJoin path table leftAlias leftColumn rightColumn).2.join? path = some j
      ∧ j.tableAlias = (s.requireJoin path table leftAlias leftColumn rightColumn).1 := by
  cases h : s.join? path with
  | some j =>
    rw [requireJoin_of_join? h]
    exact ⟨j, h, rfl⟩
  | none =>
    rw [requireJoin_of_none h]
    unfold Scope.join? at h ⊢
    rw [List.find?_append, h]
    exact ⟨⟨path, .left, table, "t" ++ toString s.nextNumber, leftAlias, leftColumn, rightColumn⟩,
      by simp, rfl⟩

/-- A parameter that was added holds its value in every later scope. -/
theorem Extends.getElem?_parameters {s s' : Scope} {vs : List Value}
    (h : Extends (s.addParameters vs) s') {k : Nat} (hk : k < vs.length) :
    s'.parameters[s.parameters.length + k]? = vs[k]? := by
  obtain ⟨more, hmore⟩ := h.parameters
  rw [← hmore, parameters_addParameters, List.append_assoc,
    List.getElem?_append_right (Nat.le_add_right _ _), Nat.add_sub_cancel_left,
    List.getElem?_append_left hk]

/-- Consecutive parameters hold the values that were added. -/
theorem Extends.map_parameters {s s' : Scope} {vs : List Value}
    (h : Extends (s.addParameters vs) s') :
    (List.range' s.parameters.length vs.length).map (s'.parameters[·]?) = vs.map some := by
  refine List.ext_getElem? fun k => ?_
  rw [List.getElem?_map, List.getElem?_map]
  by_cases hk : k < vs.length
  · rw [List.getElem?_range' hk, Nat.one_mul, Option.map_some, h.getElem?_parameters hk,
      List.getElem?_eq_getElem hk]
    rfl
  · have hrange : (List.range' s.parameters.length vs.length).length ≤ k := by
      rw [List.length_range']
      omega
    rw [List.getElem?_eq_none hrange, List.getElem?_eq_none (Nat.not_lt.1 hk)]
    rfl

end Scope

/-- Where a walk ended is where its column is located in every later scope. -/
theorem Follows.locate {env : Environment} {s s' s'' : Scope} {rowAlias navigation : String}
    {entity : EntityType} {members : List String} {ref : ColumnReference}
    (h : Follows env s rowAlias navigation entity members ref s') (known : s.Knows rowAlias)
    (hext : Scope.Extends s' s'') :
    s''.locate env.mappings rowAlias navigation entity members
      = some (ref.tableAlias, ref.column) := by
  -- along the walk: the join it asked for is found in every later scope
  induction h with
  | column mapping found column =>
    simp [Scope.locate, mapping, found, column, Except.toOption]
  | key mapping found => simp [Scope.locate, mapping, found, Except.toOption]
  | @join s rowAlias navigation entity segment rest m c reference joined s₁ ref s' mapping found
      more notKey required tail ih =>
    have hknows := s.knows_requireJoin (navigation ++ "." ++ segment) reference.targetTable
      rowAlias c.column reference.targetKeyColumn
    obtain ⟨j, hj, halias⟩ := s.join?_requireJoin (navigation ++ "." ++ segment)
      reference.targetTable rowAlias c.column reference.targetKeyColumn
    rw [required] at hknows hj halias
    have hlater := (Scope.Steps.extends (tail.steps hknows).1).trans hext
    have hrest := ih hknows hext
    obtain ⟨next, rest, rfl⟩ := List.exists_cons_of_ne_nil more
    simp only at halias
    rw [Scope.locate]
    · simp only [mapping, found, if_neg notKey, hlater.join? hj, halias, hrest, Except.toOption,
        Option.bind_eq_bind, Option.bind_some]
    · simp

/-! ## Expressions without lambdas -/

namespace Expr

/-- No lambda occurs in the expression. -/
def lambdaFree : Expr → Bool
  | .lambda _ _ => false
  | .parameter _ _ | .constant _ => true
  | .member target _ => target.lambdaFree
  | .unary _ arg => arg.lambdaFree
  | .binary _ lhs rhs => lhs.lambdaFree && rhs.lambdaFree
  | .convert arg _ => arg.lambdaFree
  | .contains collection item => collection.lambdaFree && item.lambdaFree

/-- A lambda occurs at most as the outermost node, below conversions or not. -/
def lambdaOutermost : Expr → Bool
  | .lambda _ body => body.lambdaFree
  | .convert arg _ => arg.lambdaOutermost
  | e => e.lambdaFree

/-- The precedences of a node and its term agree, but for a condition. -/
def Agrees (parent : Option Expr) (e : Expr) (t : Term Nat) : Prop :=
  e.precedence? = t.precedence?
    ∨ ((∃ target name, e = .member target name) ∧ admitsCondition parent = true
      ∧ t.precedence? = some BinaryOp.equal.precedence)

/-- An operand gets parentheses where its term needs them. -/
theorem Agrees.binds {parent : Option Expr} {e : Expr} {t : Term Nat}
    (h : Agrees parent e t) (limit : Nat)
    (hlimit : admitsCondition parent = true → limit < BinaryOp.equal.precedence) :
    e.bindsBelow limit = t.bindsBelow limit ∧ e.bindsUpTo limit = t.bindsUpTo limit := by
  rcases h with h | ⟨⟨target, name, rfl⟩, hadmits, hterm⟩
  · simp only [Expr.bindsBelow, Term.bindsBelow, Expr.bindsUpTo, Term.bindsUpTo, h, and_self]
  · have hlt := hlimit hadmits
    simp only [Expr.bindsBelow, Term.bindsBelow, Expr.bindsUpTo, Term.bindsUpTo, hterm,
      Expr.precedence?, Option.any_none, Option.any_some]
    constructor
    · rw [eq_comm, decide_eq_false_iff_not]
      omega
    · rw [eq_comm, decide_eq_false_iff_not]
      omega

/-- Only an (in)equality is tested for NULL. -/
theorem op_of_nullTested? {op : BinaryOp} {lhs rhs operand : Expr}
    (h : nullTested? op lhs rhs = some operand) : op = .equal ∨ op = .notEqual := by
  have hop := (nullTested?_eq_some.1 h).1
  simpa using hop

/-- Only comparisons are tests for NULL. -/
theorem not_isLogical_of_nullTested? {op : BinaryOp} {lhs rhs operand : Expr}
    (h : nullTested? op lhs rhs = some operand) : op.isLogical = false := by
  rcases op_of_nullTested? h with rfl | rfl <;> rfl

end Expr

/-- Logical operators bind looser than a comparison. -/
theorem BinaryOp.precedence_of_isLogical (op : BinaryOp) (h : op.isLogical = true) :
    op.precedence < BinaryOp.equal.precedence := by
  revert h
  cases op <;> decide

/-- A term, and what its placeholders hold in a scope and in every later one. -/
structure Stands (env : Environment) (parent : Option Expr) (e : Expr) (s : Scope)
    (t : Term Nat) : Prop where
  writable : t.Writable
  agrees : Expr.Agrees parent e t
  reads : ∀ place, (∀ target name, e = .member target name → place = admitsCondition parent) →
    ∀ s', Scope.Extends s s' → ∃ u, e.reading env s' place = some u
      ∧ t.map (s'.parameters[·]?) = u.map some

/-- A member is located as its derivation resolved it. -/
theorem Resolves.memberTerm? {env : Environment} {s s' s'' : Scope} {node : Expr}
    {ref : ColumnReference} (h : Resolves env s node ref s') (wf : s.WellFormed)
    (hext : Scope.Extends s' s'') :
    s''.memberTerm? env node = some (env.columnTerm ref.tableAlias ref.column) := by
  obtain ⟨path, rowAlias, hpath, hrow, hwalk⟩ := h
  have hsteps := hwalk.steps (Scope.knows_rowAlias hrow)
  have halias : rowAlias = s''.tableAlias := by
    rw [((Scope.Steps.extends hsteps.1).trans hext).tableAlias]
    exact wf.rowAlias hrow
  have hlocate := hwalk.locate (Scope.knows_rowAlias hrow) hext
  rw [halias] at hlocate
  simp [Scope.memberTerm?, hpath, hlocate]

section

variable {env : Environment} {parent : Option Expr} {s : Scope} {t : Term Nat}

/-- A comparison with NULL stands for a test of the other side. -/
theorem Stands.nullTest {op : BinaryOp} {lhs rhs operand : Expr}
    (tested : Expr.nullTested? op lhs rhs = some operand)
    (h : Stands env (some (.binary op lhs rhs)) operand s t) :
    Stands env parent (.binary op lhs rhs) s (.isNull (op = .notEqual) t) := by
  refine ⟨h.writable, .inl ?_, fun place _ s' hext => ?_⟩
  · rcases Expr.op_of_nullTested? tested with rfl | rfl <;> rfl
  · obtain ⟨u, hu, hmap⟩ := h.reads op.isLogical (fun _ _ _ => rfl) s' hext
    refine ⟨.isNull (op = .notEqual) u, ?_, ?_⟩
    · rw [Expr.reading_binary_of_some tested, hu]
      rfl
    · rw [Term.map, hmap]
      rfl

/-- An operator stands for that operator between what its sides stand for. -/
theorem Stands.binary {op : BinaryOp} {lhs rhs : Expr} {s₁ : Scope} {left right : Term Nat}
    (untested : Expr.nullTested? op lhs rhs = none)
    (hleft : Stands env (some (.binary op lhs rhs)) lhs s₁ left)
    (hright : Stands env (some (.binary op lhs rhs)) rhs s right)
    (hlater : Scope.Extends s₁ s) :
    Stands env parent (.binary op lhs rhs) s (.binary op left right) := by
  refine ⟨⟨hleft.writable, hright.writable⟩, .inl rfl, fun place _ s' hext => ?_⟩
  obtain ⟨ul, hul, hmapl⟩ :=
    hleft.reads op.isLogical (fun _ _ _ => rfl) s' (hlater.trans hext)
  obtain ⟨ur, hur, hmapr⟩ := hright.reads op.isLogical (fun _ _ _ => rfl) s' hext
  refine ⟨.binary op ul ur, (Expr.reading_binary_of_none untested).2
    ⟨ul, ur, hul, hur, rfl⟩, ?_⟩
  rw [Term.map, hmapl, hmapr]
  rfl

/-- A negation stands for the negation of what it is about. -/
theorem Stands.unary {op : UnaryOp} {arg : Expr} (h : Stands env (some (.unary op arg)) arg s t) :
    Stands env parent (.unary op arg) s (.unary op t) := by
  refine ⟨h.writable, .inl rfl, fun place _ s' hext => ?_⟩
  obtain ⟨u, hu, hmap⟩ := h.reads (op == .not) (fun _ _ _ => rfl) s' hext
  refine ⟨.unary op u, ?_, ?_⟩
  · rw [Expr.reading, hu]
    rfl
  · rw [Term.map, hmap]
    rfl

/-- A conversion stands for what is converted. -/
theorem Stands.convert {arg : Expr} {type : ValueType}
    (h : Stands env (some (.convert arg type)) arg s t) :
    Stands env parent (.convert arg type) s t := by
  -- a conversion is no place for a condition
  have hplace : ∀ target name, arg = .member target name →
      false = admitsCondition (some (.convert arg type)) := by
    rintro target name rfl
    rfl
  refine ⟨h.writable, .inl ?_, fun _ _ s' hext => h.reads false hplace s' hext⟩
  rcases h.agrees with hsame | ⟨⟨target, name, harg⟩, hadmits, -⟩
  · exact hsame
  · rw [← hplace target name harg] at hadmits
    cases hadmits

/-- A membership stands for the placeholders of its list. -/
theorem Stands.membership {collection item : Expr} {vs : List Value}
    (list : collection.unwrapConvert = .constant (.list vs)) (filled : vs ≠ [])
    (h : Stands env (some (.contains collection item)) item s t) :
    Stands env parent (.contains collection item) (s.addParameters vs)
      (.isIn t (List.range' s.parameters.length vs.length)) := by
  obtain ⟨v, more, rfl⟩ := List.exists_cons_of_ne_nil filled
  refine ⟨⟨h.writable, by simp [List.range'_succ]⟩, .inl rfl, fun place _ s' hext => ?_⟩
  obtain ⟨u, hu, hmap⟩ := h.reads false (fun _ _ _ => rfl) s'
    ((Scope.Steps.extends (Scope.steps_addParameters s _)).trans hext)
  refine ⟨.isIn u (v :: more), ?_, ?_⟩
  · simp only [Expr.reading, list, hu, Option.map_some]
  · rw [Term.map, hmap, hext.map_parameters]
    rfl

theorem Stands.list {vs : List Value} :
    Stands env parent (.constant (.list vs)) (s.addParameters vs)
      (.list (List.range' s.parameters.length vs.length)) := by
  refine ⟨trivial, .inl rfl, fun _ _ s' hext => ⟨.list vs, rfl, ?_⟩⟩
  rw [Term.map, hext.map_parameters]
  rfl

/-- A parameter stands for what reads as its value. -/
theorem Stands.placeholder {e : Expr} {v : Value} (he : e.precedence? = none)
    (hread : ∀ s' place, e.reading env s' place = some (.placeholder v)) :
    Stands env parent e (s.addParameters [v]) (.placeholder s.parameters.length) := by
  refine ⟨trivial, .inl he, fun place _ s' hext => ⟨.placeholder v, hread s' place, ?_⟩⟩
  have hvalue := hext.getElem?_parameters (k := 0) (by simp)
  exact congrArg Term.placeholder hvalue

/-- A boolean member that is a condition is compared with a placeholder. -/
theorem Stands.condition {target : Expr} {name : String} {ref : ColumnReference} {s₁ : Scope}
    (wf : s.WellFormed) (resolved : Resolves env s (.member target name) ref s₁)
    (admitted : env.isCondition parent (.member target name) = true) :
    Stands env parent (.member target name) (s₁.addParameters [.of (.boolean true)])
      (.binary .equal (env.columnTerm ref.tableAlias ref.column)
        (.placeholder s₁.parameters.length)) := by
  have halias := (Scope.Steps.wellFormed resolved.steps.1 wf).isAlias resolved.steps.2
  simp only [Environment.isCondition, Rule.accepts, Bool.and_eq_true] at admitted
  obtain ⟨⟨hfilter, hadmits⟩, hboolean⟩ := admitted
  refine ⟨⟨env.isQualifier_column halias, trivial⟩, .inr ⟨⟨target, name, rfl⟩, hadmits, rfl⟩,
    fun place hplace s' hext => ?_⟩
  have hterm := resolved.memberTerm? wf
    ((Scope.Steps.extends (Scope.steps_addParameters s₁ _)).trans hext)
  refine ⟨.binary .equal (env.columnTerm ref.tableAlias ref.column)
    (.placeholder (.of (.boolean true))), ?_, ?_⟩
  · rw [Expr.reading, hterm, hplace target name rfl, hadmits, Environment.isBoolean, hfilter,
      hboolean]
    rfl
  · have hvalue := hext.getElem?_parameters (k := 0) (by simp)
    exact congrArg (Term.binary .equal _) (congrArg Term.placeholder hvalue)

/-- Any other access stands for its column. -/
theorem Stands.member {target : Expr} {name : String} {ref : ColumnReference} {s₁ : Scope}
    (wf : s.WellFormed) (resolved : Resolves env s (.member target name) ref s₁)
    (plain : env.isCondition parent (.member target name) = false) :
    Stands env parent (.member target name) s₁ (env.columnTerm ref.tableAlias ref.column) := by
  have halias := (Scope.Steps.wellFormed resolved.steps.1 wf).isAlias resolved.steps.2
  refine ⟨env.isQualifier_column halias, .inl rfl, fun place hplace s' hext =>
    ⟨env.columnTerm ref.tableAlias ref.column, ?_, rfl⟩⟩
  have hnot : (place && env.isBoolean (.member target name)) = false := by
    rw [hplace target name rfl, ← plain]
    simp only [Environment.isBoolean, Environment.isCondition, Rule.accepts, ← Bool.and_assoc,
      Bool.and_comm]
  rw [Expr.reading, resolved.memberTerm? wf hext, hnot]
  rfl

/-- Nothing is in an empty list: the test is written as one that never holds. -/
theorem Stands.nothing {collection item : Expr}
    (empty : collection.unwrapConvert = .constant (.list [])) :
    Stands env parent (.contains collection item) s (.binary .equal (.number 1) (.number 0)) := by
  refine ⟨⟨trivial, trivial⟩, .inl rfl, fun place _ s' _ =>
    ⟨.binary .equal (.number 1) (.number 0), ?_, rfl⟩⟩
  simp only [Expr.reading, empty]

theorem Stands.emptyList : Stands env parent (.constant (.list [])) s (.list []) :=
  ⟨trivial, .inl rfl, fun _ _ _ _ => ⟨.list [], rfl, rfl⟩⟩

theorem Stands.null {v : Value} (absent : v.isNull = true) :
    Stands env parent (.constant (.value v)) s .null := by
  refine ⟨trivial, .inl rfl, fun _ _ _ _ => ⟨.null, ?_, rfl⟩⟩
  rw [Expr.reading, if_pos absent]

/-- The row of the root entity stands for its only key column. -/
theorem Stands.row {name : String} {entity : EntityType} {m : TypeMapping} {key : ColumnMapping}
    (wf : s.WellFormed) (mapping : env.mappings entity = .ok m) (single : m.primaryKeys = [key]) :
    Stands env parent (.parameter name entity) s
      (env.columnTerm s.tableAlias key.column) := by
  refine ⟨env.isQualifier_column wf.root, .inl rfl, fun _ _ s' hext =>
    ⟨env.columnTerm s.tableAlias key.column, ?_, rfl⟩⟩
  simp [Expr.reading, mapping, single, hext.tableAlias, Except.toOption]

end

/-- What a derivation without lambdas writes are the lexemes of a term that stands for the
node. -/
theorem Compiles.term {d : Dialect} (hd : d.quoting ∈ Quoting.usual) {env : Environment}
    {parent : Option Expr} {e : Expr} {s s' : Scope} {ts : Tokens}
    (h : Compiles env parent e s ts s') (wf : s.WellFormed) (free : e.lambdaFree = true) :
    ∃ t : Term Nat, Tokens.lexemes d ts = t.lexemes d ∧ Stands env parent e s' t := by
  -- by the derivation: each rule writes the node of the term that it stands for, and its operands
  -- get parentheses where their terms need them
  induction h with
  | lambda inner ih => cases free
  | @nullTest parent op lhs rhs operand s ts s' tested inner ih =>
    rw [Expr.lambdaFree, Bool.and_eq_true] at free
    have hfree : operand.lambdaFree = true := by
      rcases Expr.eq_of_nullTested? tested with rfl | rfl
      · exact free.1
      · exact free.2
    obtain ⟨t, hlexemes, hstands⟩ := ih wf hfree
    have hbinds := hstands.agrees.binds BinaryOp.equal.precedence fun hadmits =>
      absurd hadmits (by
        rw [Bool.not_eq_true]
        exact Expr.not_isLogical_of_nullTested? tested)
    refine ⟨_, ?_, hstands.nullTest tested⟩
    rw [Tokens.lexemes_append, lexemes_parenthesizedIf hd, hlexemes, hbinds.2,
      Tokens.lexemes_cons, lexemes_nullTest hd, Tokens.lexemes_nil, List.append_nil, Term.lexemes]
  | @binary parent op lhs rhs s left s₁ right s' untested first second ihl ihr =>
    rw [Expr.lambdaFree, Bool.and_eq_true] at free
    obtain ⟨tl, hleft, hl⟩ := ihl wf free.1
    obtain ⟨tr, hright, hr⟩ := ihr (Scope.Steps.wellFormed first.steps wf) free.2
    have hlimit : admitsCondition (some (.binary op lhs rhs)) = true →
        op.precedence < BinaryOp.equal.precedence := op.precedence_of_isLogical
    refine ⟨_, ?_, hl.binary untested hr (Scope.Steps.extends second.steps)⟩
    rw [Tokens.lexemes_append, lexemes_parenthesizedIf hd, hleft, (hl.agrees.binds _ hlimit).1,
      Tokens.lexemes_cons, BinaryOp.lexemes_text hd, lexemes_parenthesizedIf hd, hright,
      (hr.agrees.binds _ hlimit).2, Term.lexemes, List.append_assoc]
  | @unary parent op arg s ts s' inner ih =>
    obtain ⟨t, hlexemes, hstands⟩ := ih wf free
    have hlimit : admitsCondition (some (.unary op arg)) = true →
        op.precedence < BinaryOp.equal.precedence := by
      cases op with
      | negative => exact fun h => absurd h Bool.false_ne_true
      | not => exact fun _ => by decide
    refine ⟨_, ?_, hstands.unary⟩
    rw [Tokens.lexemes_cons, UnaryOp.lexemes_text hd, lexemes_parenthesizedIf hd, hlexemes,
      (hstands.agrees.binds _ hlimit).2, Term.lexemes]
  | convert inner ih =>
    obtain ⟨t, hlexemes, hstands⟩ := ih wf free
    exact ⟨t, hlexemes, hstands.convert⟩
  | nothing empty =>
    have hword : (Token.word "1 = 0").lexemes d = [.word "1", .symbol "=", .word "0"] :=
      lexemes_word hd (by decide)
    refine ⟨_, ?_, .nothing empty⟩
    rw [Tokens.lexemes_cons, hword]
    rfl
  | @membership parent collection item s ts s₁ vs list filled inner ih =>
    rw [Expr.lambdaFree, Bool.and_eq_true] at free
    obtain ⟨t, hlexemes, hstands⟩ := ih wf free.2
    have hbinds := hstands.agrees.binds BinaryOp.equal.precedence fun hadmits =>
      absurd hadmits Bool.false_ne_true
    have hin : (Token.word " IN ").lexemes d = [.word "IN"] := lexemes_word hd (by decide)
    refine ⟨_, ?_, hstands.membership list filled⟩
    rw [Tokens.lexemes_append, lexemes_parenthesizedIf hd, hlexemes, hbinds.2,
      Tokens.lexemes_cons, hin, lexemes_parameterList hd, Term.lexemes]
    rfl
  | emptyList =>
    refine ⟨_, ?_, .emptyList⟩
    show Tokens.lexemes d (Tokens.parenthesizedIf true [.null]) = _
    rw [lexemes_parenthesizedIf hd, Tokens.lexemes_cons, lexemes_null hd]
    rfl
  | list filled =>
    obtain ⟨v, more, rfl⟩ := List.exists_cons_of_ne_nil filled
    refine ⟨_, ?_, .list⟩
    rw [lexemes_parameterList hd, Term.lexemes, if_neg (by simp [List.range'_succ])]
  | key given =>
    refine ⟨_, ?_, .placeholder rfl fun _ _ => rfl⟩
    rw [Tokens.lexemes_cons, Token.lexemes_parameter hd]
    rfl
  | null absent =>
    refine ⟨_, ?_, .null absent⟩
    rw [Tokens.lexemes_cons, lexemes_null hd]
    rfl
  | value present =>
    refine ⟨_, ?_, .placeholder rfl fun s' place => ?_⟩
    · rw [Tokens.lexemes_cons, Token.lexemes_parameter hd]
      rfl
    · rw [Expr.reading, present]
      rfl
  | @row parent name entity a m key s alias? mapping single =>
    have halias : a = s.tableAlias := wf.rowAlias alias?
    subst halias
    exact ⟨_, lexemes_column hd env wf.root _, .row wf mapping single⟩
  | condition admitted resolved =>
    have halias := (Scope.Steps.wellFormed resolved.steps.1 wf).isAlias resolved.steps.2
    have hcolumn := lexemes_column hd env halias
    have hequal : (Token.word " = ").lexemes d = BinaryOp.equal.lexemes :=
      BinaryOp.lexemes_text hd .equal
    refine ⟨_, ?_, .condition wf resolved admitted⟩
    simp only [Tokens.lexemes_cons, Tokens.lexemes_nil, List.append_nil] at hcolumn ⊢
    rw [hcolumn, hequal, Token.lexemes_parameter hd]
    exact (List.append_assoc _ _ _).symm
  | member plain resolved =>
    have halias := (Scope.Steps.wellFormed resolved.steps.1 wf).isAlias resolved.steps.2
    exact ⟨_, lexemes_column hd env halias _, .member wf resolved plain⟩

/-! ## Whole expressions -/

/-- The outermost lambda and the conversions above it do not show. -/
theorem Compiles.term_of_lambdaOutermost {d : Dialect} (hd : d.quoting ∈ Quoting.usual)
    {env : Environment} {parent : Option Expr} {e : Expr} {s s' : Scope} {ts : Tokens}
    (h : Compiles env parent e s ts s') (wf : s.WellFormed) (outer : e.lambdaOutermost = true)
    {place : Bool}
    (hplace : ∀ target name, e = .member target name → place = admitsCondition parent) :
    ∃ t : Term Nat, Tokens.lexemes d ts = t.lexemes d ∧ t.Writable
      ∧ ∃ u, e.reading env s' place = some u ∧ t.map (s'.parameters[·]?) = u.map some := by
  -- below the lambda there is none left, and its body is a place for a condition
  have hinner : ∀ {parent e s place}, Compiles env parent e s ts s' → s.WellFormed →
      e.lambdaFree = true →
      (∀ target name, e = .member target name → place = admitsCondition parent) →
      ∃ t : Term Nat, Tokens.lexemes d ts = t.lexemes d ∧ t.Writable
        ∧ ∃ u, e.reading env s' place = some u ∧ t.map (s'.parameters[·]?) = u.map some := by
    intro parent e s place h wf free hplace
    obtain ⟨t, hlexemes, hstands⟩ := h.term hd wf free
    exact ⟨t, hlexemes, hstands.writable, hstands.reads place hplace s' (.refl s')⟩
  induction e generalizing parent s place with
  | lambda row body _ _ =>
    cases h with
    | lambda inner =>
      have hfree : body.lambdaFree = true := outer
      obtain ⟨t, ht⟩ : ∃ t : Term Nat, Tokens.lexemes d ts = t.lexemes d ∧ t.Writable
          ∧ ∃ u, body.reading env s' true = some u ∧ t.map (s'.parameters[·]?) = u.map some :=
        hinner inner ((Scope.Step.bind _ _).wellFormed wf) hfree fun _ _ _ => rfl
      exact ⟨t, ht⟩
  | convert arg type ih =>
    cases h with
    | convert inner =>
      refine ih inner wf outer ?_
      rintro target name rfl
      rfl
  | _ => exact hinner h wf outer hplace

/-- The text of an expression whose only lambda is the outermost node, compiled into any scope of
a statement, reads as the term the expression stands for, with the values of the scope in its
placeholders. That term is the tree of the expression exactly if no conversion hides a NULL from
a comparison or a boolean member from the place of a condition. -/
theorem parse_text_compileInto {d : Dialect} (hd : d ∈ Dialect.shipped) (mappings : Mappings)
    (context : Context) {m : TypeMapping} {s : Scope} (hs : Scope.Reached m s) {e : Expr}
    (outer : e.lambdaOutermost = true) {ts : Tokens}
    (h : (e.compileInto (d.environment mappings context) s).outcome = .ok ts) :
    ∃ t u, parse (d.lexemes (d.text ts)) = some t
      ∧ t.map ((e.compileInto (d.environment mappings context) s).scope.parameters[·]?)
        = u.map some
      ∧ e.reading (d.environment mappings context)
          (e.compileInto (d.environment mappings context) s).scope true = some u
      ∧ (e.tree (d.environment mappings context)
          (e.compileInto (d.environment mappings context) s).scope = some u
        ↔ e.hides (d.environment mappings context) true = false) := by
  have hquoting := Dialect.quoting_mem_usual hd
  have hderivation := Compiles.of_compileInto (Dialect.environment_standard hd mappings context) h
  have wf := hs.wellFormed
  have hplace : ∀ target name, e = .member target name → true = admitsCondition none :=
    fun _ _ _ => rfl
  obtain ⟨t, hlexemes, hwritable, u, hreading, hmap⟩ :=
    hderivation.term_of_lambdaOutermost hquoting wf outer hplace
  refine ⟨t, u, ?_, hmap, hreading, Expr.reading_erased_iff hreading⟩
  rw [(hderivation.legible hquoting wf).lexemes_text, hlexemes]
  exact parse_lexemes d hwritable

namespace Company

/-- The row of an employee. -/
def someone : Expr := .parameter "x" employee

/-- A condition over employees, below a conversion that does not show. -/
def unledAndPaid : Expr :=
  let department := Expr.member (.member (.convert someone .untyped) "manager") "department"
  let raise := Expr.constant (.value (.of (.int32 3)))
  .convert
    (.lambda someone
      (.binary .and
        (.unary .not (.binary .or (.member someone "active")
          (.binary .notEqual (.member department "name") .null)))
        (.contains (.constant (.list [.of (.int32 1), .of (.int32 2)]))
          (.binary .multiplication (.member someone "salary")
            (.binary .addition (.member someone "salary") raise)))))
    (.of .boolean)

/-- The scope that a compilation left which failed behind its first join and parameter. -/
def used : Scope :=
  let named := Expr.binary .equal (.member (.member someone "manager") "name")
    (.constant (.value (.of (.varchar "a"))))
  ((Expr.binary .and named (.member someone "nothing")).compileInto
    (Dialect.generic.environment mappings {}) (.ofMapping (mapping employee))).scope

/-- The scope was used before. -/
theorem reached_used : Scope.Reached (mapping employee) used :=
  .compile .new (Dialect.environment_standard (by decide) mappings {}) _

end Company

/-- An expression with a test for NULL and a comparison, in a scope that was used before. -/
theorem parse_text_unledAndPaid :
    let env := Dialect.postgres.environment Company.mappings {}
    let compiled := Company.unledAndPaid.compileInto env Company.used
    let text := "NOT (t0.\"active\" = $2 OR t2.\"name\" IS NOT NULL) AND "
      ++ "t0.\"salary\" * (t0.\"salary\" + $3) IN ($4, $5)"
    compiled.outcome.toOption.map Dialect.postgres.text = some text
      ∧ Company.unledAndPaid.hides env true = false
      ∧ ∃ t u, parse (Dialect.postgres.lexemes text) = some t
        ∧ t.map (compiled.scope.parameters[·]?) = u.map some
        ∧ Company.unledAndPaid.tree env compiled.scope = some u := by
  intro env compiled text
  have htext : compiled.outcome.toOption.map Dialect.postgres.text = some text := by
    decide +kernel
  have hhides : Company.unledAndPaid.hides env true = false := by decide +kernel
  obtain ⟨ts, hts, htokens⟩ := Option.map_eq_some_iff.1 htext
  obtain ⟨t, u, hparse, hmap, -, htree⟩ := parse_text_compileInto (by decide) Company.mappings {}
    Company.reached_used (e := Company.unledAndPaid) (by decide) (Except.eq_ok_of_toOption hts)
  rw [htokens] at hparse
  exact ⟨htext, hhides, t, u, hparse, hmap, htree.2 hhides⟩

/-- A NULL below a conversion is compared and not tested for. -/
theorem hidden_null_is_compared :
    let env := Dialect.generic.environment Company.mappings {}
    let named := Expr.lambda Company.someone (.binary .equal (.member Company.someone "name")
      (.convert .null (.of .varchar)))
    let compiled := named.compileInto env (.ofMapping (Company.mapping Company.employee))
    compiled.outcome.toOption.map Dialect.generic.text = some "t0.\"name\" = NULL"
      ∧ named.tree env compiled.scope = some (.isNull false (.column "t0" "name"))
      ∧ parse (Dialect.generic.lexemes "t0.\"name\" = NULL")
        = some (.binary .equal (.column "t0" "name") .null) := by
  decide +kernel

end RowMapper
