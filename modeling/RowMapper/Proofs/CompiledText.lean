import RowMapper.Proofs.Outcome
import RowMapper.Proofs.ScopeSteps
import RowMapper.Statement.Selection

/-!
# The text of compiled expressions

Whatever an expression compiles to is legible in the usual quotings: names stand behind aliases
that a scope gives out, words are spaced, and the placeholders that are read are the parameters.
A compilation appends to the scope exactly the values of the expression, in the order in which
their placeholders are written.

* `Compiles.legible` and `Compiles.parameters` are inductions over derivations.
* `Expr.values` are the values of an expression in a place, found without compiling.
-/

namespace RowMapper

/-- The given dialects keep the standard table. -/
theorem Dialect.environment_standard {d : Dialect} (hd : d ∈ Dialect.shipped)
    (mappings : Mappings) (context : Context) : (d.environment mappings context).Standard :=
  Dialect.rules_of_shipped hd

section

variable {d : Dialect} {ts : Tokens}

/-! ## Pieces -/

theorem Legible.parenthesized (hd : d.quoting ∈ Quoting.usual) (h : Legible d ts) :
    Legible d ts.parenthesized := by
  have hopen : Legible d (.word "(" :: ts) := h.cons hd (by decide) (by decide)
  exact hopen.append (legible_word hd (by decide)) (.inr (leads_word (by decide)))

/-- Parentheses are all that is added. -/
theorem Tokens.mem_of_mem_parenthesizedIf {t : Token} {needed : Bool}
    (h : t ∈ Tokens.parenthesizedIf needed ts) : t ∈ ts ∨ ∃ w ∈ ["(", ")"], t = .word w := by
  cases needed with
  | false => exact .inl h
  | true =>
    rcases List.mem_append.1 h with h | h
    · exact (List.mem_cons.1 h).symm.imp_right fun hopen => ⟨"(", by decide, hopen⟩
    · exact .inr ⟨")", by decide, List.mem_singleton.1 h⟩

/-- A list of placeholders has no other words than these. -/
theorem Tokens.mem_of_mem_parameterList {t : Token} {first count : Nat}
    (h : t ∈ Tokens.parameterList first count) :
    (∃ w ∈ ["(", ", ", ")"], t = .word w)
      ∨ ∃ i ∈ List.range' first count, t = .parameter i := by
  have hlist : Tokens.parameterList first count = Tokens.parenthesizedIf true
    (Text.separated [.word ", "] ((List.range' first count).map fun i => [.parameter i])) := rfl
  rw [hlist] at h
  rcases mem_of_mem_parenthesizedIf h with h | ⟨w, hw, rfl⟩
  · rcases Text.mem_of_mem_separated h with h | ⟨p, hp, ht⟩
    · exact .inl ⟨", ", by decide, List.mem_singleton.1 h⟩
    · obtain ⟨i, hi, rfl⟩ := List.mem_map.1 hp
      exact .inr ⟨i, hi, List.mem_singleton.1 ht⟩
  · have hall : ∀ w ∈ ["(", ")"], w ∈ ["(", ", ", ")"] := by decide
    exact .inl ⟨w, hall w hw, rfl⟩

theorem Legible.parenthesizedIf (hd : d.quoting ∈ Quoting.usual) (needed : Bool)
    (h : Legible d ts) : Legible d (Tokens.parenthesizedIf needed ts) := by
  cases needed with
  | true => exact h.parenthesized hd
  | false => exact h

/-- NULL is legible. -/
theorem legible_null (hd : d.quoting ∈ Quoting.usual) : Legible d [.null] :=
  legible_word hd (by decide)

/-- A test behind a legible text is legible. -/
theorem legible_nullTest (hd : d.quoting ∈ Quoting.usual) (negated : Bool) (h : Legible d ts) :
    Legible d (ts ++ [nullTest negated]) := by
  cases negated with
  | true => exact h.append (legible_word hd (by decide)) (.inr (leads_word (by decide)))
  | false => exact h.append (legible_word hd (by decide)) (.inr (leads_word (by decide)))

/-- The list of a membership is legible. -/
theorem legible_parameterList (hd : d.quoting ∈ Quoting.usual) (first count : Nat) :
    Legible d (Tokens.parameterList first count) := by
  refine (legible_separated hd (by decide) fun p hp => ?_).parenthesized hd
  obtain ⟨i, -, rfl⟩ := List.mem_map.1 hp
  exact legible_parameter hd i

/-- An operator may stand between any two operands. -/
theorem BinaryOp.isSpaced_text (op : BinaryOp) : Text.isSpaced op.text = true := by
  cases op <;> decide

/-- An operator may stand before any operand. -/
theorem UnaryOp.isClosed_text (op : UnaryOp) :
    Text.isMute op.text = true ∧ Text.isClosed op.text = true := by
  cases op <;> decide

/-- An alias that a scope gives out qualifies a column, and so does its absence. -/
theorem Environment.isQualifier_column (env : Environment) {a : String} (h : IsAlias a) :
    IsQualifier (if env.context.qualified then a else "") := by
  cases env.context.qualified with
  | true => exact .inr h
  | false => exact .inl rfl

/-- A column behind an alias is legible. -/
theorem legible_column (hd : d.quoting ∈ Quoting.usual) (env : Environment) {a : String}
    (h : IsAlias a) (column : String) : Legible d [env.column a column] :=
  (legible_identifier hd (env.isQualifier_column h) column).1

/-! ## Derivations are legible -/

/-- What an expression compiles to is legible. -/
theorem Compiles.legible (hd : d.quoting ∈ Quoting.usual) {env : Environment}
    {parent : Option Expr} {e : Expr} {s s' : Scope} (h : Compiles env parent e s ts s')
    (wf : s.WellFormed) : Legible d ts := by
  -- the scope stays well formed on the way, so that every alias is one that a scope gives out
  induction h with
  | lambda inner ih => exact ih ((Scope.Step.bind _ _).wellFormed wf)
  | nullTest tested inner ih => exact legible_nullTest hd _ ((ih wf).parenthesizedIf hd _)
  | @binary _ op _ _ _ _ _ _ _ untested first second ihl ihr =>
    have wf₁ := Scope.Steps.wellFormed first.steps wf
    exact ((ihl wf).parenthesizedIf hd _).around hd op.isSpaced_text
      ((ihr wf₁).parenthesizedIf hd _)
  | @unary _ op _ _ _ _ inner ih =>
    exact ((ih wf).parenthesizedIf hd _).cons hd op.isClosed_text.1 op.isClosed_text.2
  | convert inner ih => exact ih wf
  | nothing empty => exact legible_word hd (by decide)
  | membership list filled inner ih =>
    exact ((ih wf).parenthesizedIf hd _).around hd (by decide) (legible_parameterList hd _ _)
  | emptyList => exact (legible_null hd).parenthesized hd
  | list filled => exact legible_parameterList hd _ _
  | key given => exact legible_parameter hd _
  | null absent => exact legible_null hd
  | value present => exact legible_parameter hd _
  | @row _ _ _ _ _ _ _ alias? mapping single =>
    exact legible_column hd env (wf.isAlias (Scope.knows_rowAlias alias?)) _
  | condition admitted resolved =>
    obtain ⟨hsteps, hknown⟩ := resolved.steps
    have halias := (Scope.Steps.wellFormed hsteps wf).isAlias hknown
    exact (legible_column hd env halias _).around hd (by decide) (legible_parameter hd _)
  | member plain resolved =>
    obtain ⟨hsteps, hknown⟩ := resolved.steps
    exact legible_column hd env ((Scope.Steps.wellFormed hsteps wf).isAlias hknown) _

end

/-! ## Values -/

/-- The values of the node below `parent` in the order in which they are written. -/
def Expr.values (env : Environment) (parent : Option Expr) : Expr → List Value
  | .lambda row body => body.values env (some (.lambda row body))
  | .parameter _ _ => []
  | .member target name =>
    if env.isCondition parent (.member target name) then [.of (.boolean true)] else []
  | .constant (.value v) => if v.isNull then [] else [v]
  | .constant (.list vs) => vs
  | .constant (.entity _ keys) => keys
  | .unary op arg => arg.values env (some (.unary op arg))
  | .binary op lhs rhs =>
    if (nullTested? op lhs rhs).isNone then
      lhs.values env (some (.binary op lhs rhs)) ++ rhs.values env (some (.binary op lhs rhs))
    else if lhs.isNullConstant then rhs.values env (some (.binary op lhs rhs))
    else lhs.values env (some (.binary op lhs rhs))
  | .convert arg type => arg.values env (some (.convert arg type))
  | .contains collection item =>
    match collection.unwrapConvert with
    | .constant (.list (v :: vs)) => item.values env (some (.contains collection item)) ++ v :: vs
    | _ => []

@[simp] theorem Tokens.parameters_parenthesizedIf (needed : Bool) (ts : Tokens) :
    Tokens.parameters (Tokens.parenthesizedIf needed ts) = Tokens.parameters ts := by
  cases needed with
  | true => exact (Tokens.parameters_append (a := ts) (b := [.word ")"])).trans (List.append_nil _)
  | false => rfl

/-- The list of a membership has its placeholders in order. -/
@[simp] theorem Tokens.parameters_parameterList (first count : Nat) :
    Tokens.parameters (Tokens.parameterList first count) = List.range' first count := by
  have hpieces : ∀ is : List Nat,
      (is.map fun i => [Token.parameter i]).flatMap Tokens.parameters = is := by
    intro is
    induction is with
    | nil => rfl
    | cons i is ih => exact congrArg (i :: ·) ih
  show Tokens.parameters (Tokens.parenthesizedIf true _) = _
  rw [Tokens.parameters_parenthesizedIf, Tokens.parameters_separated, hpieces]

@[simp] theorem Tokens.parameters_nullTest (negated : Bool) (ts : Tokens) :
    Tokens.parameters (nullTest negated :: ts) = Tokens.parameters ts := rfl

@[simp] theorem Scope.parameters_addParameters (s : Scope) (vs : List Value) :
    (s.addParameters vs).parameters = s.parameters ++ vs := rfl

/-- Joins add no parameters. -/
theorem Follows.parameters {env : Environment} {s s' : Scope} {rowAlias navigation : String}
    {entity : EntityType} {members : List String} {ref : ColumnReference}
    (h : Follows env s rowAlias navigation entity members ref s') :
    s'.parameters = s.parameters := by
  induction h with
  | column | key => rfl
  | @join s rowAlias navigation entity segment rest m c reference joined s₁ ref s' _ _ _ _
      required _ ih =>
    rw [ih]
    cases hj : s.join? (navigation ++ "." ++ segment) with
    | some j =>
      rw [Scope.requireJoin_of_join? hj] at required
      exact congrArg (·.2.parameters) required.symm
    | none =>
      rw [Scope.requireJoin_of_none hj] at required
      exact congrArg (·.2.parameters) required.symm

/-- Resolving a member adds no parameters. -/
theorem Resolves.parameters {env : Environment} {s s' : Scope} {node : Expr}
    {ref : ColumnReference} (h : Resolves env s node ref s') : s'.parameters = s.parameters := by
  obtain ⟨_, _, -, -, hwalk⟩ := h
  exact hwalk.parameters

/-- A compilation appends the values of the expression, and its placeholders are theirs. -/
theorem Compiles.parameters {env : Environment} {parent : Option Expr} {e : Expr} {s s' : Scope}
    {ts : Tokens} (h : Compiles env parent e s ts s') :
    s'.parameters = s.parameters ++ e.values env parent
      ∧ Tokens.parameters ts
        = List.range' s.parameters.length (e.values env parent).length := by
  induction h with
  | lambda inner ih =>
    rw [Scope.bind_parameters] at ih
    exact ih
  | @nullTest parent op lhs rhs operand s ts s' tested inner ih =>
    have hvalues : (Expr.binary op lhs rhs).values env parent
        = operand.values env (some (.binary op lhs rhs)) :=
      Expr.side_of_nullTested? tested (·.values env (some (.binary op lhs rhs))) _
    rw [hvalues]
    exact ⟨ih.1, by simpa using ih.2⟩
  | binary untested first second ihl ihr =>
    simp only [Expr.values, untested, Option.isNone_none, if_true]
    refine ⟨by rw [ihr.1, ihl.1, List.append_assoc], ?_⟩
    -- the positions of the right side go on where those of the left side end
    have hlength := congrArg List.length ihl.1
    rw [List.length_append] at hlength
    simp [ihl.2, ihr.2, hlength, List.range'_append_1]
  | unary inner ih => exact ⟨ih.1, by simpa [Expr.values] using ih.2⟩
  | convert inner ih => exact ih
  | nothing empty => simp [Expr.values, empty]
  | @membership parent collection item s ts s₁ vs list filled inner ih =>
    obtain ⟨v, more, rfl⟩ := List.exists_cons_of_ne_nil filled
    -- the items come behind the values of what is looked for in them
    have hlength := congrArg List.length ih.1
    rw [List.length_append] at hlength
    have hvalues : (Expr.contains collection item).values env parent
        = item.values env (some (.contains collection item)) ++ v :: more := by
      simp only [Expr.values, list]
    rw [hvalues]
    refine ⟨by rw [Scope.parameters_addParameters, ih.1, List.append_assoc], ?_⟩
    simp [ih.2, hlength, List.range'_append_1]
  | emptyList => exact ⟨(List.append_nil _).symm, rfl⟩
  | list filled => exact ⟨rfl, Tokens.parameters_parameterList _ _⟩
  | key given => exact ⟨rfl, rfl⟩
  | null absent => simp [Expr.values, absent, Token.null]
  | value present => simp [Expr.values, present]
  | row alias? mapping single => simp [Expr.values, Environment.column]
  | condition admitted resolved =>
    simp [Expr.values, admitted, resolved.parameters, Environment.column]
  | member plain resolved =>
    simp [Expr.values, plain, resolved.parameters, Environment.column]

end RowMapper
