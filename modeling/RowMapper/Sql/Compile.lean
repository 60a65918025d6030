import RowMapper.Mapping.Registry
import RowMapper.Sql.CompileError
import RowMapper.Sql.KeyStrategy
import RowMapper.Sql.Scope
import RowMapper.Sql.Token
import RowMapper.Text.Separated

/-!
# Compilation of expressions

An expression becomes tokens of SQL under a table of rules: the first entry that accepts a node
compiles it and visits its children. Parameters and joins go to the scope of the statement; what
a compilation added before it failed stays there. A node is parenthesized where it binds too
loosely for its place.

Rules know the node above the current one: a boolean member stands for a condition only under
a logical operator, a negation or a lambda, or at the root.
-/

namespace RowMapper

/-- The clause an expression is compiled for. -/
inductive Clause where
  | filter
  | ordering
  | other
  deriving Repr, DecidableEq

/-- Where an expression is written: the clause, and whether columns carry the alias of their
table. -/
structure Context where
  clause : Clause := .filter
  qualified : Bool := true
  deriving Repr, DecidableEq

/-- What a compilation depends on besides the scope. -/
structure Environment where
  rules : List RuleEntry := RuleEntry.standard
  strategies : KeyStrategies
  mappings : Mappings
  context : Context := {}

/-- A node a probe was asked about, and the node above it. -/
structure Question where
  node : Expr
  parent : Option Expr
  deriving DecidableEq

/-- What a compilation changes. -/
structure Compilation where
  scope : Scope
  /-- What probes were asked, in order. -/
  questions : List Question := []

/-- Steps of a compilation. Changes before a failure remain. -/
abbrev CompileM := ExceptT CompileError (StateM Compilation)

namespace CompileM

/-- The scope as it is now. -/
def scope : CompileM Scope := return (← get).scope

/-- Fails at a node. -/
def reject (defect : Defect) (node : Expr) : CompileM α := throw (.notCompilable defect node)

/-- Adds a parameter to the scope. -/
def addParameter (v : Value) : CompileM Token := do
  let (index, scope) := (← scope).addParameter v
  modify ({ · with scope })
  return .parameter index

/-- Asks the scope for a join. -/
def requireJoin (path table leftAlias leftColumn rightColumn : String) : CompileM String := do
  let (tableAlias, scope) := (← scope).requireJoin path table leftAlias leftColumn rightColumn
  modify ({ · with scope })
  return tableAlias

/-- Binds a name in the scope. -/
def bindName (name tableAlias : String) : CompileM Unit :=
  modify fun c => { c with scope := c.scope.bind name tableAlias }

end CompileM

namespace Environment

/-- The mapping of an entity type. -/
def mapping (env : Environment) (entity : EntityType) : CompileM TypeMapping :=
  match env.mappings entity with
  | .ok m => pure m
  | .error cause => throw (.mapping cause)

/-- A column, behind the alias of its table if the context asks for it. -/
def column (env : Environment) (tableAlias column : String) : Token :=
  .identifier (if env.context.qualified then tableAlias else "") column

end Environment

/-! ## Members -/

/-- The type of the member at the end of a chain; none if the chain breaks on the way. -/
def Mappings.typeAt? (mappings : Mappings) (entity : EntityType) : List String → Option ValueType
  | [] => none
  | [last] => do
    let mapping ← (mappings entity).toOption
    let member ← mapping.member? last
    let column ← member.column?
    return column.valueType
  | segment :: rest => do
    let mapping ← (mappings entity).toOption
    match mapping.member? segment with
    | some (.foreign _ reference) => mappings.typeAt? reference.target rest
    | _ => none

/-- The type of a member access, found without a join. -/
def Mappings.memberType? (mappings : Mappings) (node : Expr) : Option ValueType := do
  let path ← node.path?
  mappings.typeAt? path.entity path.members

/-- The column a member access reads. -/
structure ColumnReference where
  tableAlias : String
  column : String
  valueType : ValueType
  deriving Repr, DecidableEq

/-- The alias of the row that a parameter stands for. -/
def parameterAlias (name : String) (entity : EntityType) : CompileM String := do
  let scope ← CompileM.scope
  match scope.binding? name with
  | some tableAlias => return tableAlias
  | none =>
    if entity = scope.entity then return scope.tableAlias
    else CompileM.reject (.unbound name entity scope.entity) (.parameter name entity)

/-- Follows a chain of members from a row of the entity type. Each foreign object on the way is
joined, except the last one if the chain ends in the key it holds: that key is its own column.
The navigation is the text of the path so far. -/
def follow (env : Environment) (node : Expr) (tableAlias navigation : String)
    (entity : EntityType) : List String → CompileM ColumnReference
  | [] => CompileM.reject .noAccess node
  | [last] => do
    let mapping ← env.mapping entity
    match mapping.member? last with
    | some (.field c) | some (.foreign c _) => return ⟨tableAlias, c.column, c.valueType⟩
    | some (.list _) => CompileM.reject (.listColumn last entity) node
    | none => CompileM.reject (.unmapped last entity) node
  | segment :: rest => do
    let mapping ← env.mapping entity
    match mapping.member? segment with
    | some (.foreign c reference) =>
      if rest = [reference.targetKey] then return ⟨tableAlias, c.column, c.valueType⟩
      else
        let navigation := navigation ++ "." ++ segment
        let tableAlias ← CompileM.requireJoin navigation reference.targetTable tableAlias c.column
          reference.targetKeyColumn
        follow env node tableAlias navigation reference.target rest
    | _ => CompileM.reject (.notForeign segment entity) node

/-- The column of a member access. -/
def resolveAccess (env : Environment) (node : Expr) : CompileM ColumnReference := do
  match node.path? with
  | none => CompileM.reject .rootless node
  | some path =>
    if path.members.isEmpty then CompileM.reject .noAccess node
    else
      let tableAlias ← parameterAlias path.parameter path.entity
      follow env node tableAlias tableAlias path.entity path.members

/-- The column of a member access, as it is written. -/
def memberTokens (env : Environment) (node : Expr) : CompileM Tokens := do
  let reference ← resolveAccess env node
  return [env.column reference.tableAlias reference.column]

/-- The column of a boolean member, compared with true. -/
def conditionTokens (env : Environment) (node : Expr) : CompileM Tokens := do
  let reference ← resolveAccess env node
  let placeholder ← CompileM.addParameter (.of (.boolean true))
  return [env.column reference.tableAlias reference.column, .word " = ", placeholder]

/-- The key column of a row. -/
def rowTokens (env : Environment) (name : String) (entity : EntityType) : CompileM Tokens := do
  let tableAlias ← parameterAlias name entity
  let mapping ← env.mapping entity
  match mapping.primaryKeys with
  | [key] => return [env.column tableAlias key.column]
  | keys => CompileM.reject (.rowKeyCount entity keys.length) (.parameter name entity)

/-! ## Constants -/

/-- Adds the values as parameters. -/
def addParameters : List Value → CompileM (List Tokens)
  | [] => return []
  | v :: rest => do
    let placeholder ← CompileM.addParameter v
    let placeholders ← addParameters rest
    return [placeholder] :: placeholders

/-- A value: a parameter, or NULL. -/
def valueTokens (v : Value) : CompileM Tokens := do
  if v.isNull then return [.null] else return [← CompileM.addParameter v]

/-- A list between parentheses; the empty list holds NULL. -/
def listTokens (values : List Value) : CompileM Tokens := do
  if values.isEmpty then return Tokens.parenthesized [.null]
  else
    return Tokens.parenthesized (Text.separated [.word ", "] (← addParameters values))

/-- The single key of a referenced entity, which must not be empty. -/
def keyTokens (env : Environment) (node : Expr) (keys : List Value) : CompileM Tokens := do
  match keys with
  | [key] =>
    if env.strategies.isEmptyKey key then CompileM.reject .emptyKey node
    else return [← CompileM.addParameter key]
  | _ => CompileM.reject (.constantKeyCount keys.length) node

/-! ## Rules -/

/-- The node above admits a condition below it; conversions do not count. -/
def admitsCondition (parent : Option Expr) : Bool :=
  match parent.map Expr.unwrapConvert with
  | none | some (.lambda _ _) => true
  | some (.binary op _ _) => op.isLogical
  | some (.unary op _) => op == .not
  | _ => false

/-- The rule is made for the node. -/
def Rule.accepts (env : Environment) (parent : Option Expr) : Rule → Expr → Bool
  | .lambda, .lambda _ _ => true
  | .nullComparison, .binary op lhs rhs =>
    (op == .equal || op == .notEqual) && (lhs.isNullConstant || rhs.isNullConstant)
  | .membership, .contains collection _ =>
    match collection.unwrapConvert with
    | .constant (.list _) => true
    | _ => false
  | .collectionConstant, .constant (.list _) => true
  | .entityConstant, .constant (.entity _ _) => true
  | .booleanMember, .member target name =>
    env.context.clause == .filter && admitsCondition parent
      && env.mappings.memberType? (.member target name) == some (.of .boolean)
  | .constant, .constant (.value _) => true
  | .foreignMember, .member target _ =>
    match target.unwrapConvert with
    | .member _ _ => true
    | _ => false
  | .entityMember, .member target _ =>
    match target.unwrapConvert with
    | .parameter _ _ => true
    | _ => false
  | .parameter, .parameter _ _ => true
  | .convert, .convert _ _ => true
  | .unary, .unary _ _ => true
  | .binary, .binary _ _ _ => true
  | .lowerLike, .binary op _ _ => op == .like
  | _, _ => false

/-- The entry accepts the node. -/
def RuleEntry.accepts (env : Environment) (parent : Option Expr) (node : Expr) : RuleEntry → Bool
  | .rule r => r.accepts env parent node
  | .always _ => true
  | .probe => false

/-- The rule of the first entry that accepts the node. Probes before it note the question. -/
def chooseRule (env : Environment) (parent : Option Expr) (node : Expr) :
    CompileM (Option Rule) := do
  let passed := env.rules.takeWhile (!·.accepts env parent node)
  let asked := (passed.filter (· == .probe)).map fun _ => (⟨node, parent⟩ : Question)
  modify fun c => { c with questions := c.questions ++ asked }
  return (env.rules.find? (·.accepts env parent node)).bind (·.rule?)

/-- The tokens of a node under the node above it. -/
def compile (env : Environment) (parent : Option Expr) (node : Expr) : CompileM Tokens := do
  match ← chooseRule env parent node, node with
  | none, _ => CompileM.reject .noRule node
  | some .lambda, .lambda (.parameter name entity) body =>
    let scope ← CompileM.scope
    if entity = scope.entity then
      CompileM.bindName name scope.tableAlias
      compile env (some node) body
    else CompileM.reject (.lambdaEntity entity scope.entity) node
  | some .lambda, .lambda _ _ => CompileM.reject .lambdaParameter node
  | some .nullComparison, .binary op lhs rhs =>
    let test := Token.word (if op = .notEqual then " IS NOT NULL" else " IS NULL")
    if lhs.isNullConstant then
      let operand ← compile env (some node) rhs
      return Tokens.parenthesizedIf (rhs.bindsUpTo BinaryOp.equal.precedence) operand ++ [test]
    else
      let operand ← compile env (some node) lhs
      return Tokens.parenthesizedIf (lhs.bindsUpTo BinaryOp.equal.precedence) operand ++ [test]
  | some .membership, .contains collection item =>
    if collection.unwrapConvert = .constant (.list []) then return [.word "1 = 0"]
    else
      let member ← compile env (some node) item
      let items ← compile env (some node) collection
      return Tokens.parenthesizedIf (item.bindsUpTo BinaryOp.equal.precedence) member
        ++ .word " IN " :: items
  | some .collectionConstant, .constant (.list values) => listTokens values
  | some .entityConstant, .constant (.entity _ keys) => keyTokens env node keys
  | some .booleanMember, _ => conditionTokens env node
  | some .constant, .constant (.value v) => valueTokens v
  | some .foreignMember, _ => memberTokens env node
  | some .entityMember, _ => memberTokens env node
  | some .parameter, .parameter name entity => rowTokens env name entity
  | some .convert, .convert arg _ => compile env (some node) arg
  | some .unary, .unary op arg =>
    let operand ← compile env (some node) arg
    return .word op.text :: Tokens.parenthesizedIf (arg.bindsUpTo op.precedence) operand
  | some .binary, .binary op lhs rhs =>
    let left ← compile env (some node) lhs
    let right ← compile env (some node) rhs
    return Tokens.parenthesizedIf (lhs.bindsBelow op.precedence) left
      ++ .word op.text :: Tokens.parenthesizedIf (rhs.bindsUpTo op.precedence) right
  | some .lowerLike, .binary _ lhs rhs =>
    let left ← compile env (some node) lhs
    let right ← compile env (some node) rhs
    return .word "LOWER(" :: left ++ .word ") LIKE LOWER(" :: right ++ [.word ")"]
  | some rule, _ => CompileM.reject (.shape rule) node

/-- What became of a compilation: the tokens, or why there are none, and the scope and the
questions after it. -/
structure Compiled where
  outcome : Except CompileError Tokens
  scope : Scope
  questions : List Question

/-- Compiles an expression into a scope. -/
def Expr.compileInto (e : Expr) (env : Environment) (scope : Scope) : Compiled :=
  let (outcome, compilation) := (compile env none e).run.run ⟨scope, []⟩
  ⟨outcome, compilation.scope, compilation.questions⟩

end RowMapper
