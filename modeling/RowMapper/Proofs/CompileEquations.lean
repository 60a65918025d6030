import RowMapper.Sql.Compile
import RowMapper.Statement.Clause

/-!
# Equations of the compiler

One equation for each shape of a node, under the standard table of rules. The table decides by
the node, the node above it and the types of members alone, so that the choice of a rule goes
away: what is left of a compilation are the steps of the rule that was chosen.

* `compile_eq` opens the recursion once; nothing else unfolds the compiler.
* `chooseRule_standard` says that the standard table asks no probes and changes nothing.
* `compile_lambda` to `compile_contains` are the equations.
* `Environment.AnswersAlike.compile` compares the compilations under two environments, whatever
  their tables.
-/

namespace RowMapper

/-- One step of the recursion, under any table of rules. -/
theorem compile_eq (env : Environment) (parent : Option Expr) (node : Expr) :
    compile env parent node = (do
  match ← chooseRule env parent node, node with
  | none, _ => CompileM.reject .noRule node
  | some .lambda, .lambda (.parameter name entity) body =>
    let scope ← CompileM.scope
    if entity = scope.entity then
      CompileM.bindName name scope.tableAlias
      compile env (some node) body
    else CompileM.reject (.lambdaEntity entity scope.entity) node
  | some .lambda, .lambda _ _ => CompileM.reject .lambdaParameter node
  | some .nullComparison, .binary op lhs rhs =>
    let test := Token.word (if op = .notEqual then " IS NOT NULL" else " IS NULL")
    if lhs.isNullConstant then
      let operand ← compile env (some node) rhs
      return Tokens.parenthesizedIf (rhs.bindsUpTo BinaryOp.equal.precedence) operand ++ [test]
    else
      let operand ← compile env (some node) lhs
      return Tokens.parenthesizedIf (lhs.bindsUpTo BinaryOp.equal.precedence) operand ++ [test]
  | some .membership, .contains collection item =>
    if collection.unwrapConvert = .constant (.list []) then return [.word "1 = 0"]
    else
      let member ← compile env (some node) item
      let items ← compile env (some node) collection
      return Tokens.parenthesizedIf (item.bindsUpTo BinaryOp.equal.precedence) member
        ++ .word " IN " :: items
  | some .collectionConstant, .constant (.list values) => listTokens values
  | some .entityConstant, .constant (.entity _ keys) => keyTokens env node keys
  | some .booleanMember, _ => conditionTokens env node
  | some .constant, .constant (.value v) => valueTokens v
  | some .foreignMember, _ => memberTokens env node
  | some .entityMember, _ => memberTokens env node
  | some .parameter, .parameter name entity => rowTokens env name entity
  | some .convert, .convert arg _ => compile env (some node) arg
  | some .unary, .unary op arg =>
    let operand ← compile env (some node) arg
    return .word op.text :: Tokens.parenthesizedIf (arg.bindsUpTo op.precedence) operand
  | some .binary, .binary op lhs rhs =>
    let left ← compile env (some node) lhs
    let right ← compile env (some node) rhs
    return Tokens.parenthesizedIf (lhs.bindsBelow op.precedence) left
      ++ .word op.text :: Tokens.parenthesizedIf (rhs.bindsUpTo op.precedence) right
  | some .lowerLike, .binary _ lhs rhs =>
    let left ← compile env (some node) lhs
    let right ← compile env (some node) rhs
    return .word "LOWER(" :: left ++ .word ") LIKE LOWER(" :: right ++ [.word ")"]
  | some rule, _ => CompileM.reject (.shape rule) node) := by
  cases node <;> delta compile <;>
    refine congrArg (chooseRule env parent _ >>= ·) (funext fun r => ?_) <;>
    rcases r with _ | r <;> try rfl
  case lambda.some row body => cases r <;> cases row <;> rfl
  case constant.some c => cases r <;> cases c <;> rfl
  all_goals cases r <;> rfl

/-! ## The standard table -/

/-- The table of a compilation is the standard one. -/
def Environment.Standard (env : Environment) : Prop := env.rules = RuleEntry.standard

/-- In a table without probes, choosing a rule changes nothing. -/
theorem chooseRule_rules {env : Environment} {rules : List Rule} (hr : env.rules = rules.map .rule)
    (parent : Option Expr) (node : Expr) :
    chooseRule env parent node = pure (rules.find? (·.accepts env parent node)) := by
  have hprobe : ((rules.map RuleEntry.rule).takeWhile
      (!·.accepts env parent node)).filter (· == .probe) = [] := by
    rw [List.filter_eq_nil_iff]
    intro entry hentry
    obtain ⟨r, -, rfl⟩ := List.mem_map.1 ((List.takeWhile_sublist _).subset hentry)
    simp
  have hfind : ((rules.map RuleEntry.rule).find? (·.accepts env parent node)).bind (·.rule?)
      = rules.find? (·.accepts env parent node) := by
    rw [List.find?_map, Option.bind_map]
    show (rules.find? (·.accepts env parent node)).bind some = _
    simp
  have hsame : (modify fun c => { c with questions := c.questions ++ [] } : CompileM Unit)
      = pure () := by
    simp only [List.append_nil]
    rfl
  rw [chooseRule, hr, hprobe, hfind, List.map_nil, hsame, pure_bind]

/-- The standard table has no probes. -/
theorem chooseRule_standard {env : Environment} (hr : env.Standard) (parent : Option Expr)
    (node : Expr) :
    chooseRule env parent node = pure (Rule.standard.find? (·.accepts env parent node)) :=
  chooseRule_rules hr parent node

/-- The operand that a comparison tests against NULL, if one of its sides is that constant. -/
def Expr.nullTested? (op : BinaryOp) (lhs rhs : Expr) : Option Expr :=
  if op == .equal || op == .notEqual then
    if lhs.isNullConstant then some rhs else if rhs.isNullConstant then some lhs else none
  else none

/-- A comparison is tested for NULL exactly if it is an (in)equality with a NULL on a side. -/
theorem Expr.nullTested?_eq_none {op : BinaryOp} {lhs rhs : Expr} :
    Expr.nullTested? op lhs rhs = none ↔
      ((op == .equal || op == .notEqual) && (lhs.isNullConstant || rhs.isNullConstant))
        = false := by
  unfold Expr.nullTested?
  cases (op == .equal || op == .notEqual) <;> cases lhs.isNullConstant <;>
    cases rhs.isNullConstant <;> simp

/-- What is tested, and what is not visited. -/
theorem Expr.nullTested?_eq_some {op : BinaryOp} {lhs rhs operand : Expr} :
    Expr.nullTested? op lhs rhs = some operand ↔
      (op == .equal || op == .notEqual) = true
        ∧ ((lhs.isNullConstant = true ∧ operand = rhs)
          ∨ (lhs.isNullConstant = false ∧ rhs.isNullConstant = true ∧ operand = lhs)) := by
  unfold Expr.nullTested?
  cases (op == .equal || op == .notEqual) <;> cases lhs.isNullConstant <;>
    cases rhs.isNullConstant <;> simp [eq_comm]

/-- What is tested against NULL is a side of the comparison. -/
theorem Expr.eq_of_nullTested? {op : BinaryOp} {lhs rhs operand : Expr}
    (h : Expr.nullTested? op lhs rhs = some operand) : lhs = operand ∨ rhs = operand := by
  obtain ⟨-, ⟨-, rfl⟩ | ⟨-, -, rfl⟩⟩ := Expr.nullTested?_eq_some.1 h
  · exact .inr rfl
  · exact .inl rfl

/-- A question that goes down both sides of a comparison, or the one that is tested. -/
theorem Expr.side_of_nullTested? {α : Type} {op : BinaryOp} {lhs rhs operand : Expr}
    (h : Expr.nullTested? op lhs rhs = some operand) (f : Expr → α) (both : α) :
    (if (Expr.nullTested? op lhs rhs).isNone then both
      else if lhs.isNullConstant then f rhs else f lhs) = f operand := by
  rw [h]
  obtain ⟨-, ⟨hl, rfl⟩ | ⟨hl, -, rfl⟩⟩ := Expr.nullTested?_eq_some.1 h
  · exact if_pos hl
  · rw [hl]
    rfl

/-- The node stands for a condition: a boolean member in a filter, where one is admitted. -/
def Environment.isCondition (env : Environment) (parent : Option Expr) (node : Expr) : Bool :=
  Rule.booleanMember.accepts env parent node

/-- A lambda has a row, or something else in its place. -/
theorem Expr.parameter_or_ne (row : Expr) :
    (∃ name entity, row = .parameter name entity)
      ∨ ∀ name entity, row ≠ .parameter name entity := by
  cases row with
  | parameter name entity => exact .inl ⟨name, entity, rfl⟩
  | _ => exact .inr nofun

section Equations

variable {env : Environment} {parent : Option Expr}

/-- A lambda binds its row to the root, if the row is one of the root, and is its body then. -/
theorem compile_lambda (hr : env.Standard) (name : String) (entity : EntityType) (body : Expr) :
    compile env parent (.lambda (.parameter name entity) body) = (do
      let scope ← CompileM.scope
      if entity = scope.entity then
        CompileM.bindName name scope.tableAlias
        compile env (some (.lambda (.parameter name entity) body)) body
      else
        CompileM.reject (.lambdaEntity entity scope.entity)
          (.lambda (.parameter name entity) body)) := by
  rw [compile_eq, chooseRule_standard hr]
  rfl

/-- A lambda over anything but a row is rejected. -/
theorem compile_lambda_of_ne (hr : env.Standard) {row : Expr}
    (h : ∀ name entity, row ≠ .parameter name entity) (body : Expr) :
    compile env parent (.lambda row body)
      = CompileM.reject .lambdaParameter (.lambda row body) := by
  rw [compile_eq, chooseRule_standard hr]
  cases row <;> simp_all [Rule.standard, Rule.accepts]

/-- A comparison with NULL is a test; any other operator stands between its sides. -/
theorem compile_binary (hr : env.Standard) (op : BinaryOp) (lhs rhs : Expr) :
    compile env parent (.binary op lhs rhs) =
      match Expr.nullTested? op lhs rhs with
      | some operand => do
        let tested ← compile env (some (.binary op lhs rhs)) operand
        return Tokens.parenthesizedIf (operand.bindsUpTo BinaryOp.equal.precedence) tested
          ++ [nullTest (op = .notEqual)]
      | none => do
        let left ← compile env (some (.binary op lhs rhs)) lhs
        let right ← compile env (some (.binary op lhs rhs)) rhs
        return Tokens.parenthesizedIf (lhs.bindsBelow op.precedence) left
          ++ .word op.text :: Tokens.parenthesizedIf (rhs.bindsUpTo op.precedence) right := by
  rw [compile_eq, chooseRule_standard hr]
  by_cases hop : (op == .equal || op == .notEqual) = true
  · by_cases hl : lhs.isNullConstant = true
    · simp [Rule.standard, Rule.accepts, Expr.nullTested?, nullTest, hop, hl]
    · by_cases hr : rhs.isNullConstant = true
      · simp [Rule.standard, Rule.accepts, Expr.nullTested?, nullTest, hop, hl, hr]
      · simp [Rule.standard, Rule.accepts, Expr.nullTested?, hop, hl, hr]
  · simp [Rule.standard, Rule.accepts, Expr.nullTested?, hop]

/-- A negation stands before what it is about. -/
theorem compile_unary (hr : env.Standard) (op : UnaryOp) (arg : Expr) :
    compile env parent (.unary op arg) = (do
      let operand ← compile env (some (.unary op arg)) arg
      return .word op.text :: Tokens.parenthesizedIf (arg.bindsUpTo op.precedence) operand) := by
  rw [compile_eq, chooseRule_standard hr]
  rfl

/-- A conversion is not written. -/
theorem compile_convert (hr : env.Standard) (arg : Expr) (type : ValueType) :
    compile env parent (.convert arg type) = compile env (some (.convert arg type)) arg := by
  rw [compile_eq, chooseRule_standard hr]
  rfl

/-- A row is written as its key. -/
theorem compile_parameter (hr : env.Standard) (name : String) (entity : EntityType) :
    compile env parent (.parameter name entity) = rowTokens env name entity := by
  rw [compile_eq, chooseRule_standard hr]
  rfl

theorem compile_value (hr : env.Standard) (v : Value) :
    compile env parent (.constant (.value v)) = valueTokens v := by
  rw [compile_eq, chooseRule_standard hr]
  rfl

/-- A list is written as its values. -/
theorem compile_list (hr : env.Standard) (values : List Value) :
    compile env parent (.constant (.list values)) = listTokens values := by
  rw [compile_eq, chooseRule_standard hr]
  rfl

/-- An entity is written as its key. -/
theorem compile_entity (hr : env.Standard) (entity : EntityType) (keys : List Value) :
    compile env parent (.constant (.entity entity keys))
      = keyTokens env (.constant (.entity entity keys)) keys := by
  rw [compile_eq, chooseRule_standard hr]
  rfl

/-- A member is a condition, or its column if it is accessed through a row or a member. -/
theorem compile_member (hr : env.Standard) (target : Expr) (name : String) :
    compile env parent (.member target name) =
      if env.isCondition parent (.member target name) then
        conditionTokens env (.member target name)
      else
        match target.unwrapConvert with
        | .member _ _ | .parameter _ _ => memberTokens env (.member target name)
        | _ => CompileM.reject .noRule (.member target name) := by
  rw [compile_eq, chooseRule_standard hr]
  by_cases h : env.isCondition parent (.member target name) = true
  · rw [if_pos h]
    simp only [Environment.isCondition, Rule.accepts] at h
    simp only [Rule.standard, List.find?, Rule.accepts, h, pure_bind]
  · rw [if_neg h]
    simp only [Environment.isCondition, Rule.accepts] at h
    cases ht : target.unwrapConvert <;>
      simp only [Rule.standard, List.find?, Rule.accepts, h, ht, pure_bind]

/-- A membership in a list; the item is not visited if the list is empty. -/
theorem compile_contains (hr : env.Standard) (collection item : Expr) :
    compile env parent (.contains collection item) =
      match collection.unwrapConvert with
      | .constant (.list []) => return [.word "1 = 0"]
      | .constant (.list (_ :: _)) => do
        let member ← compile env (some (.contains collection item)) item
        let items ← compile env (some (.contains collection item)) collection
        return Tokens.parenthesizedIf (item.bindsUpTo BinaryOp.equal.precedence) member
          ++ .word " IN " :: items
      | _ => CompileM.reject .noRule (.contains collection item) := by
  rw [compile_eq, chooseRule_standard hr]
  cases hc : collection.unwrapConvert with
  | constant c =>
    cases c with
    | list values => cases values <;> simp [Rule.standard, List.find?, Rule.accepts, hc]
    | value v => simp [Rule.standard, List.find?, Rule.accepts, hc]
    | entity e keys => simp [Rule.standard, List.find?, Rule.accepts, hc]
  | _ => simp [Rule.standard, List.find?, Rule.accepts, hc]

/-- A collection below conversions is compiled as the collection. -/
theorem compile_of_unwrapConvert (hr : env.Standard) {collection : Expr} {values : List Value}
    (h : collection.unwrapConvert = .constant (.list values)) :
    compile env parent collection = listTokens values := by
  induction collection generalizing parent with
  | convert arg type ih => rw [compile_convert hr, ih h]
  | constant c =>
    change Expr.constant c = _ at h
    cases h
    exact compile_list hr values
  | _ => simp [Expr.unwrapConvert] at h

end Equations

/-! ## Environments that answer alike -/

/-- Environments that answer the compiler alike, whatever their tables of rules. -/
structure Environment.AnswersAlike (env env' : Environment) : Prop where
  mappings : env'.mappings = env.mappings
  context : env'.context = env.context
  isEmptyKey : ∀ v, env'.strategies.isEmptyKey v = env.strategies.isEmptyKey v

namespace Environment.AnswersAlike

variable {env env' : Environment} (h : env.AnswersAlike env')
include h

theorem mapping (entity : EntityType) : env'.mapping entity = env.mapping entity := by
  unfold Environment.mapping
  rw [h.mappings]

theorem column (tableAlias column : String) :
    env'.column tableAlias column = env.column tableAlias column := by
  unfold Environment.column
  rw [h.context]

/-- Rules accept the same nodes. -/
theorem accepts (parent : Option Expr) (r : Rule) (node : Expr) :
    r.accepts env' parent node = r.accepts env parent node := by
  unfold Rule.accepts
  rw [h.context, h.mappings]

/-- Chains of members lead to the same columns. -/
theorem follow (node : Expr) (tableAlias navigation : String) (entity : EntityType)
    (members : List String) :
    RowMapper.follow env' node tableAlias navigation entity members
      = RowMapper.follow env node tableAlias navigation entity members := by
  induction members generalizing tableAlias navigation entity with
  | nil => rfl
  | cons segment rest ih =>
    cases rest with
    | nil => simp only [RowMapper.follow, h.mapping]
    | cons next rest => simp only [RowMapper.follow, h.mapping, ih]

/-- Accesses are resolved alike. -/
theorem resolveAccess (node : Expr) :
    RowMapper.resolveAccess env' node = RowMapper.resolveAccess env node := by
  simp only [RowMapper.resolveAccess, h.follow]

/-- Accesses are written alike. -/
theorem memberTokens (node : Expr) :
    RowMapper.memberTokens env' node = RowMapper.memberTokens env node := by
  simp only [RowMapper.memberTokens, h.resolveAccess, h.column]

theorem conditionTokens (node : Expr) :
    RowMapper.conditionTokens env' node = RowMapper.conditionTokens env node := by
  simp only [RowMapper.conditionTokens, h.resolveAccess, h.column]

theorem rowTokens (name : String) (entity : EntityType) :
    RowMapper.rowTokens env' name entity = RowMapper.rowTokens env name entity := by
  simp only [RowMapper.rowTokens, h.mapping, h.column]

theorem keyTokens (node : Expr) (keys : List Value) :
    RowMapper.keyTokens env' node keys = RowMapper.keyTokens env node keys := by
  unfold RowMapper.keyTokens
  cases keys with
  | nil => rfl
  | cons key rest =>
    cases rest with
    | nil => simp only [h.isEmptyKey]
    | cons _ _ => rfl

/-- If moreover their tables choose the same rules, then every node is compiled alike. -/
theorem compile
    (hchoose : ∀ parent node, chooseRule env' parent node = chooseRule env parent node)
    (parent : Option Expr) (e : Expr) :
    RowMapper.compile env' parent e = RowMapper.compile env parent e := by
  -- whatever rule is chosen for a node, its steps are those of the other environment
  induction e generalizing parent <;>
    rw [compile_eq env', compile_eq env, hchoose] <;>
    refine congrArg (chooseRule env parent _ >>= ·) (funext fun r => ?_) <;>
    rcases r with _ | r <;> try rfl
  case lambda.some row body _ ih =>
    cases r <;> try simp only [h.conditionTokens, h.memberTokens]
    -- only a parameter stands for a row, and then the body is visited
    cases row <;> simp only [ih]
  case parameter.some name entity =>
    cases r <;> simp only [h.conditionTokens, h.memberTokens, h.rowTokens]
  case member.some target name _ => cases r <;> simp only [h.conditionTokens, h.memberTokens]
  case constant.some c =>
    cases r <;> try simp only [h.conditionTokens, h.memberTokens]
    case collectionConstant => cases c <;> rfl
    case entityConstant => cases c <;> simp only [h.keyTokens]
    case constant => cases c <;> rfl
  case unary.some op arg ih => cases r <;> simp only [h.conditionTokens, h.memberTokens, ih]
  case binary.some op lhs rhs ihl ihr =>
    cases r <;> simp only [h.conditionTokens, h.memberTokens, ihl, ihr]
  case convert.some arg type ih => cases r <;> simp only [h.conditionTokens, h.memberTokens, ih]
  case contains.some collection item ihc ihi =>
    cases r <;> simp only [h.conditionTokens, h.memberTokens, ihc, ihi]

end Environment.AnswersAlike

end RowMapper
