import RowMapper.Proofs.Grammar
import RowMapper.Proofs.ScopeSteps

/-!
# The term an expression stands for

`Expr.reading` says, without compiling, which term of the grammar an expression is in a scope
whose joins are made: lambdas and conversions do not show, an (in)equality with the NULL constant
is a test for it, a membership is IN over the items (or false, if there is none), a boolean
member in the place of a condition is compared with true, and a chain of members is a column
behind the alias of the last join on the way.

Two questions are asked of the node itself and not of what conversions cover: whether a side of
a comparison is the NULL constant, and whether a boolean member stands where a condition is
admitted. `Expr.erased` takes the conversions away first. `reading_erased_iff` tells exactly when
that makes a difference: `Expr.hides` finds the comparisons whose NULL is below a conversion, and
the boolean members whose place is seen only through one.
-/

namespace RowMapper

/-! ## Columns -/

/-- The alias and the column at the end of a chain of members, by the joins of the scope. -/
def Scope.locate (s : Scope) (mappings : Mappings) (rowAlias navigation : String)
    (entity : EntityType) : List String → Option (String × String)
  | [] => none
  | [last] => do
    let m ← (mappings entity).toOption
    let c ← (m.member? last).bind (·.column?)
    return (rowAlias, c.column)
  | segment :: rest => do
    let m ← (mappings entity).toOption
    match m.member? segment with
    | some (.foreign c reference) =>
      if rest = [reference.targetKey] then return (rowAlias, c.column)
      else
        let j ← s.join? (navigation ++ "." ++ segment)
        s.locate mappings j.tableAlias (navigation ++ "." ++ segment) reference.target rest
    | _ => none

/-- A column as the context has it written. -/
def Environment.columnTerm (env : Environment) (tableAlias column : String) : Term α :=
  .column (if env.context.qualified then tableAlias else "") column

/-- The column of a chain of members. -/
def Scope.memberTerm? (s : Scope) (env : Environment) (node : Expr) : Option (Term Value) := do
  let path ← node.path?
  let (a, column) ← s.locate env.mappings s.tableAlias s.tableAlias path.entity path.members
  return env.columnTerm a column

/-! ## Expressions -/

/-- The node is a boolean member in a filter: a condition, where one is admitted. -/
def Environment.isBoolean (env : Environment) (node : Expr) : Bool :=
  env.context.clause == .filter && env.mappings.memberType? node == some (.of .boolean)

namespace Expr

/-- The term that the expression is. The flag tells whether its place admits a condition. -/
def reading (env : Environment) (s : Scope) : Bool → Expr → Option (Term Value)
  | _, .lambda _ body => body.reading env s true
  | _, .convert arg _ => arg.reading env s false
  | _, .parameter _ entity => do
    let m ← (env.mappings entity).toOption
    match m.primaryKeys with
    | [key] => some (env.columnTerm s.tableAlias key.column)
    | _ => none
  | place, .member target name =>
    (s.memberTerm? env (.member target name)).map fun column =>
      if place && env.isBoolean (.member target name) then
        .binary .equal column (.placeholder (.of (.boolean true)))
      else column
  | _, .constant (.value v) => some (if v.isNull then .null else .placeholder v)
  | _, .constant (.list vs) => some (.list vs)
  | _, .constant (.entity _ keys) =>
    match keys with
    | [key] => some (.placeholder key)
    | _ => none
  | _, .unary op arg => (arg.reading env s (op == .not)).map (.unary op)
  | _, .binary op lhs rhs =>
    match nullTested? op lhs rhs with
    | some _ =>
      if lhs.isNullConstant then
        (rhs.reading env s op.isLogical).map (.isNull (op = .notEqual))
      else (lhs.reading env s op.isLogical).map (.isNull (op = .notEqual))
    | none => do
      let left ← lhs.reading env s op.isLogical
      let right ← rhs.reading env s op.isLogical
      return .binary op left right
  | _, .contains collection item =>
    match collection.unwrapConvert with
    | .constant (.list []) => some (.binary .equal (.number 1) (.number 0))
    | .constant (.list vs) => (item.reading env s false).map (.isIn · vs)
    | _ => none

/-- The expression without its conversions. -/
def erased : Expr → Expr
  | .convert arg _ => arg.erased
  | .lambda row body => .lambda row body.erased
  | .parameter name entity => .parameter name entity
  | .member target name => .member target.erased name
  | .constant c => .constant c
  | .unary op arg => .unary op arg.erased
  | .binary op lhs rhs => .binary op lhs.erased rhs.erased
  | .contains collection item => .contains collection.erased item.erased

/-- The term that the expression is once its conversions are erased. -/
def tree (env : Environment) (s : Scope) (e : Expr) : Option (Term Value) :=
  e.erased.reading env s true

/-- A conversion hides a NULL from its comparison, or a boolean member from a place that admits
a condition. Only what the reading visits counts. -/
def hides (env : Environment) : Bool → Expr → Bool
  | _, .lambda _ body => body.hides env true
  | place, .convert arg _ => (place && env.isBoolean arg.unwrapConvert) || arg.hides env false
  | _, .unary op arg => arg.hides env (op == .not)
  | _, .binary op lhs rhs =>
    match nullTested? op lhs rhs with
    | some _ =>
      if lhs.isNullConstant then rhs.hides env op.isLogical else lhs.hides env op.isLogical
    | none =>
      (nullTested? op lhs.unwrapConvert rhs.unwrapConvert).isSome
        || lhs.hides env op.isLogical || rhs.hides env op.isLogical
  | _, .contains collection item =>
    if collection.unwrapConvert = .constant (.list []) then false else item.hides env false
  | _, _ => false

/-! ## What conversions hide -/

@[simp] theorem path?_erased (e : Expr) : e.erased.path? = e.path? := by
  induction e with
  | member target name ih => simp only [erased, path?, ih]
  | convert arg type ih => exact ih
  | _ => rfl

/-- Conversions may be taken away before or after the ones outside. -/
theorem unwrapConvert_erased (e : Expr) : e.erased.unwrapConvert = e.unwrapConvert.erased := by
  induction e with
  | convert arg type ih => exact ih
  | _ => rfl

/-- Without conversions, a NULL is seen below them. -/
theorem isNullConstant_erased (e : Expr) :
    e.erased.isNullConstant = e.unwrapConvert.isNullConstant := by
  induction e with
  | convert arg type ih => exact ih
  | _ => rfl

/-- A NULL constant is one below no conversions, too. -/
theorem isNullConstant_unwrapConvert {e : Expr} (h : e.isNullConstant = true) :
    e.unwrapConvert.isNullConstant = true := by
  cases e <;> first | exact h | cases h

/-- A conversion does not change whether a member is boolean. -/
theorem isBoolean_erased (env : Environment) (e : Expr) :
    env.isBoolean e.erased = env.isBoolean e := by
  simp only [Environment.isBoolean, Mappings.memberType?, path?_erased]

/-- A member of an erased expression is found, typed and read as the member itself. -/
theorem path?_member_erased (target : Expr) (name : String) :
    (member target.erased name).path? = (member target name).path? :=
  path?_erased (member target name)

theorem isBoolean_member_erased (env : Environment) (target : Expr) (name : String) :
    env.isBoolean (member target.erased name) = env.isBoolean (member target name) :=
  isBoolean_erased env (member target name)

/-- A conversion does not change which column is read. -/
theorem memberTerm?_member_erased (env : Environment) (s : Scope) (target : Expr) (name : String) :
    s.memberTerm? env (member target.erased name) = s.memberTerm? env (member target name) := by
  simp only [Scope.memberTerm?, path?_member_erased]

theorem isBoolean_unwrapConvert (env : Environment) (e : Expr) :
    env.isBoolean e.unwrapConvert = env.isBoolean e := by
  induction e with
  | convert arg type ih =>
    rw [unwrapConvert_convert, ih]
    rfl
  | _ => rfl

/-! ## Nodes -/

section

variable (env : Environment) (s : Scope) (place : Bool)

/-- An access reads its column, or compares it with true where a condition stands. -/
theorem reading_member (target : Expr) (name : String) :
    (member target name).reading env s place
      = (s.memberTerm? env (.member target name)).map fun column =>
          if place && env.isBoolean (.member target name) then
            .binary .equal column (.placeholder (.of (.boolean true)))
          else column :=
  rfl

/-- A comparison with NULL reads as a test, any other operator as itself. -/
theorem reading_binary (op : BinaryOp) (lhs rhs : Expr) :
    (binary op lhs rhs).reading env s place =
      match nullTested? op lhs rhs with
      | some _ =>
        if lhs.isNullConstant then
          (rhs.reading env s op.isLogical).map (.isNull (op = .notEqual))
        else (lhs.reading env s op.isLogical).map (.isNull (op = .notEqual))
      | none => do
        let left ← lhs.reading env s op.isLogical
        let right ← rhs.reading env s op.isLogical
        return .binary op left right :=
  rfl

/-- A comparison hides a test if one of its sides is a converted NULL. -/
theorem hides_binary (op : BinaryOp) (lhs rhs : Expr) :
    (binary op lhs rhs).hides env place =
      match nullTested? op lhs rhs with
      | some _ =>
        if lhs.isNullConstant then rhs.hides env op.isLogical else lhs.hides env op.isLogical
      | none =>
        (nullTested? op lhs.unwrapConvert rhs.unwrapConvert).isSome
          || lhs.hides env op.isLogical || rhs.hides env op.isLogical :=
  rfl

end

/-- The place makes a difference to conditions only. -/
theorem reading_erased_of_not_isBoolean {env : Environment} (s : Scope) {e : Expr}
    (h : env.isBoolean e = false) (place : Bool) :
    e.erased.reading env s place = e.erased.reading env s false := by
  induction e with
  | convert arg type ih => exact ih h
  | member target name ih =>
    rw [erased, reading_member, reading_member, isBoolean_member_erased, h, Bool.and_false,
      Bool.and_false]
  | constant c => cases c <;> rfl
  | _ => rfl

/-- A boolean member is read as a condition where one is admitted. -/
theorem reading_erased_of_isBoolean {env : Environment} {s : Scope} {e : Expr} {u : Term Value}
    (h : env.isBoolean e = true) (hread : e.reading env s false = some u) :
    e.erased.reading env s true
      = some (.binary .equal u (.placeholder (.of (.boolean true)))) := by
  induction e generalizing u with
  | convert arg type ih => exact ih h hread
  | member target name ih =>
    simp only [reading_member, Bool.false_and, Bool.false_eq_true, if_false] at hread
    simp only [erased, reading_member, isBoolean_member_erased, memberTerm?_member_erased, h,
      Bool.and_self, if_true]
    cases hcolumn : s.memberTerm? env (.member target name) with
    | none => simp [hcolumn] at hread
    | some column =>
      simp only [hcolumn, Option.map_some, Option.some.injEq] at hread
      simp [hread]
  | _ => simp [Environment.isBoolean, Mappings.memberType?, path?, Mappings.typeAt?] at h

/-- NULL reads as NULL in every place. -/
theorem reading_of_isNullConstant {env : Environment} {s : Scope} {e : Expr} {place : Bool}
    (h : e.isNullConstant = true) : e.reading env s place = some .null := by
  cases e with
  | constant c =>
    cases c with
    | value v =>
      have hv : v.isNull = true := h
      show some (if v.isNull then Term.null else .placeholder v) = some .null
      rw [if_pos hv]
    | list vs => cases h
    | entity entity keys => cases h
  | _ => cases h

/-- Where a NULL is tested for, it still is when the conversions are erased, and the operand is
the same one. -/
theorem nullTested?_erased {op : BinaryOp} {lhs rhs operand : Expr}
    (h : nullTested? op lhs rhs = some operand) (env : Environment) (s : Scope) :
    ∃ tested, nullTested? op lhs.erased rhs.erased = some tested
      ∧ ∀ place, tested.reading env s place = operand.erased.reading env s place := by
  obtain ⟨hop, ⟨hl, rfl⟩ | ⟨-, hr, rfl⟩⟩ := nullTested?_eq_some.1 h
  · have hle : lhs.erased.isNullConstant = true := by
      rw [isNullConstant_erased]
      exact isNullConstant_unwrapConvert hl
    exact ⟨_, nullTested?_eq_some.2 ⟨hop, .inl ⟨hle, rfl⟩⟩, fun _ => rfl⟩
  · have hre : rhs.erased.isNullConstant = true := by
      rw [isNullConstant_erased]
      exact isNullConstant_unwrapConvert hr
    -- with a NULL on both sides, one of them is tested for the other
    cases hle : operand.erased.isNullConstant with
    | true =>
      refine ⟨_, nullTested?_eq_some.2 ⟨hop, .inl ⟨hle, rfl⟩⟩, fun place => ?_⟩
      rw [reading_of_isNullConstant hle, reading_of_isNullConstant hre]
    | false => exact ⟨_, nullTested?_eq_some.2 ⟨hop, .inr ⟨hle, hre, rfl⟩⟩, fun _ => rfl⟩

/-- A test reads as the test of its operand. -/
theorem reading_binary_of_some {env : Environment} {s : Scope} {op : BinaryOp}
    {lhs rhs operand : Expr} (h : nullTested? op lhs rhs = some operand) (place : Bool) :
    (binary op lhs rhs).reading env s place
      = (operand.reading env s op.isLogical).map (.isNull (op = .notEqual)) := by
  rw [reading_binary, h]
  dsimp only
  obtain ⟨-, ⟨hl, rfl⟩ | ⟨hl, -, rfl⟩⟩ := nullTested?_eq_some.1 h
  · rw [if_pos hl]
  · rw [hl]
    rfl

/-- Any other operator reads as itself, between what its sides read as. -/
theorem reading_binary_of_none {env : Environment} {s : Scope} {op : BinaryOp} {lhs rhs : Expr}
    (h : nullTested? op lhs rhs = none) {place : Bool} {u : Term Value} :
    (binary op lhs rhs).reading env s place = some u ↔
      ∃ left right, lhs.reading env s op.isLogical = some left
        ∧ rhs.reading env s op.isLogical = some right ∧ u = .binary op left right := by
  simp only [reading_binary, h, Option.bind_eq_bind, Option.bind_eq_some_iff, Option.pure_def,
    Option.some.injEq]
  constructor
  · rintro ⟨left, hleft, right, hright, rfl⟩
    exact ⟨left, right, hleft, hright, rfl⟩
  · rintro ⟨left, right, hleft, hright, rfl⟩
    exact ⟨left, hleft, right, hright, rfl⟩

theorem hides_binary_of_some {env : Environment} {op : BinaryOp} {lhs rhs operand : Expr}
    (h : nullTested? op lhs rhs = some operand) (place : Bool) :
    (binary op lhs rhs).hides env place = operand.hides env op.isLogical := by
  rw [hides_binary, h]
  dsimp only
  obtain ⟨-, ⟨hl, rfl⟩ | ⟨hl, -, rfl⟩⟩ := nullTested?_eq_some.1 h
  · rw [if_pos hl]
  · rw [hl]
    rfl

/-- A term does not hold itself. -/
theorem ne_condition (u v : Term Value) : u ≠ .binary .equal u v := by
  intro h
  have := congrArg sizeOf h
  simp at this
  omega

section

variable {env : Environment} {s : Scope} {place : Bool} {u : Term Value}

/-- A conversion that goes leaves the term as it is, or makes it a condition. -/
theorem reading_convert_erased_iff {arg : Expr} {type : ValueType}
    (h : arg.reading env s false = some u)
    (ih : arg.erased.reading env s false = some u ↔ arg.hides env false = false) :
    (convert arg type).erased.reading env s place = some u
      ↔ (convert arg type).hides env place = false := by
  simp only [erased, hides, isBoolean_unwrapConvert]
  by_cases hboolean : env.isBoolean arg = true
  · cases place with
    | false => simpa only [Bool.false_and, Bool.false_or] using ih
    | true =>
      rw [reading_erased_of_isBoolean hboolean h]
      simp only [hboolean, Bool.and_self, Bool.true_or, Bool.true_eq_false, iff_false,
        Option.some.injEq]
      exact (ne_condition u _).symm
  · rw [Bool.not_eq_true] at hboolean
    rw [reading_erased_of_not_isBoolean s hboolean, hboolean, Bool.and_false, Bool.false_or]
    exact ih

/-- A test for NULL stays one, so it changes exactly if its operand does. -/
theorem reading_nullTest_erased_iff {op : BinaryOp} {lhs rhs operand : Expr}
    (htested : nullTested? op lhs rhs = some operand)
    (h : (binary op lhs rhs).reading env s place = some u)
    (ih : ∀ {v}, operand.reading env s op.isLogical = some v →
      (operand.erased.reading env s op.isLogical = some v
        ↔ operand.hides env op.isLogical = false)) :
    (binary op lhs rhs).erased.reading env s place = some u
      ↔ (binary op lhs rhs).hides env place = false := by
  obtain ⟨tested, herased, hsame⟩ := nullTested?_erased htested env s
  rw [reading_binary_of_some htested] at h
  obtain ⟨v, hv, rfl⟩ := Option.map_eq_some_iff.1 h
  rw [erased, reading_binary_of_some herased, hides_binary_of_some htested, hsame, ← ih hv]
  simp only [Option.map_eq_some_iff, Term.isNull.injEq, true_and, exists_eq_right]

/-- A comparison changes if a conversion hid a NULL from it, or if one of its sides changes. -/
theorem reading_untested_erased_iff {op : BinaryOp} {lhs rhs : Expr}
    (untested : nullTested? op lhs rhs = none)
    (h : (binary op lhs rhs).reading env s place = some u)
    (ihl : ∀ {v}, lhs.reading env s op.isLogical = some v →
      (lhs.erased.reading env s op.isLogical = some v ↔ lhs.hides env op.isLogical = false))
    (ihr : ∀ {v}, rhs.reading env s op.isLogical = some v →
      (rhs.erased.reading env s op.isLogical = some v ↔ rhs.hides env op.isLogical = false)) :
    (binary op lhs rhs).erased.reading env s place = some u
      ↔ (binary op lhs rhs).hides env place = false := by
  obtain ⟨left, right, hleft, hright, rfl⟩ := (reading_binary_of_none untested).1 h
  have hhidden : (nullTested? op lhs.unwrapConvert rhs.unwrapConvert).isSome
      = (nullTested? op lhs.erased rhs.erased).isSome := by
    rw [Bool.eq_iff_iff]
    simp only [Option.isSome_iff_ne_none, ne_eq, nullTested?_eq_none, isNullConstant_erased]
  simp only [erased, hides, untested, hhidden, Bool.or_eq_false_iff, ← ihl hleft, ← ihr hright]
  cases herased : nullTested? op lhs.erased rhs.erased with
  | some tested =>
    -- a NULL that was compared is tested for, which is another term
    rw [reading_binary_of_some herased]
    simp
  | none =>
    rw [reading_binary_of_none herased]
    simp only [Term.binary.injEq, true_and]
    constructor
    · rintro ⟨left', right', hleft', hright', rfl, rfl⟩
      exact ⟨⟨rfl, hleft'⟩, hright'⟩
    · rintro ⟨⟨-, hleft'⟩, hright'⟩
      exact ⟨left, right, hleft', hright', rfl, rfl⟩

/-- A membership test changes exactly if its item does, and never if there is nothing to be a
member of. -/
theorem reading_contains_erased_iff {collection item : Expr}
    (h : (contains collection item).reading env s place = some u)
    (ih : ∀ {v}, item.reading env s false = some v →
      (item.erased.reading env s false = some v ↔ item.hides env false = false)) :
    (contains collection item).erased.reading env s place = some u
      ↔ (contains collection item).hides env place = false := by
  rw [reading] at h
  simp only [erased, reading, hides, unwrapConvert_erased]
  cases hc : collection.unwrapConvert with
  | constant c =>
    cases c with
    | list vs =>
      cases vs with
      | nil =>
        simp only [hc] at h
        simp [erased, h]
      | cons v vs =>
        simp only [hc] at h
        obtain ⟨w, hw, rfl⟩ := Option.map_eq_some_iff.1 h
        simp only [erased, Option.map_eq_some_iff, Term.isIn.injEq, and_true, exists_eq_right,
          constant.injEq, Constant.list.injEq, reduceCtorEq, if_false]
        exact ih hw
    | value v => simp [hc] at h
    | entity entity keys => simp [hc] at h
  | _ => simp [hc] at h

/-- What a node reads as changes when its conversions are erased exactly if one of them hides
something. -/
theorem reading_erased_iff {e : Expr} (h : e.reading env s place = some u) :
    e.erased.reading env s place = some u ↔ e.hides env place = false := by
  -- by the node; only conversions and what looks for a NULL can make a difference
  induction e generalizing place u with
  | lambda row body _ ih => exact ih h
  | parameter name entity => simp only [erased, hides, h]
  | constant c =>
    have herased : (constant c).erased = constant c := rfl
    simp only [herased, hides, h]
  | member target name _ =>
    have hsame : (member target name).erased.reading env s place
        = (member target name).reading env s place := by
      rw [erased, reading_member, reading_member, isBoolean_member_erased,
        memberTerm?_member_erased]
    simp only [hsame, hides, h]
  | convert arg type ih =>
    rw [reading] at h
    exact reading_convert_erased_iff h (ih h)
  | unary op arg ih =>
    rw [reading] at h
    obtain ⟨v, hv, rfl⟩ := Option.map_eq_some_iff.1 h
    simp only [erased, reading, hides, Option.map_eq_some_iff, Term.unary.injEq, true_and,
      exists_eq_right]
    exact ih hv
  | binary op lhs rhs ihl ihr =>
    cases htested : nullTested? op lhs rhs with
    | some operand =>
      refine reading_nullTest_erased_iff htested h fun hv => ?_
      rcases eq_of_nullTested? htested with rfl | rfl
      · exact ihl hv
      · exact ihr hv
    | none => exact reading_untested_erased_iff htested h ihl ihr
  | contains collection item _ ih => exact reading_contains_erased_iff h ih

end

end Expr

end RowMapper
