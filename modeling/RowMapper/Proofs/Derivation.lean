import RowMapper.Proofs.CompileEquations

/-!
# Derivations of compiled expressions

What a compilation that succeeds does, as a relation: `Compiles env parent e s ts s'` says that
under the standard table the node `e` below `parent` becomes the tokens `ts` and leads from the
scope `s` to the scope `s'`. It has one rule for each shape of a node, so that a property of
compiled expressions is an induction with one case for each of them, and no case has to open the
monad again.

* `CompileM.Returns` inverts the steps of a compilation, one lemma for each primitive.
* `Follows` and `Resolves` are the walk along a chain of members, with its joins.
* `Compiles.of_returns` is the headline: every successful run of the compiler has a derivation.
-/

namespace RowMapper

/-! ## Steps that succeed -/

namespace CompileM

/-- What the steps lead to from a state: their outcome and the state after them. -/
def runFrom (x : CompileM α) (c : Compilation) : Except CompileError α × Compilation :=
  x.run.run c

/-- The steps lead from one state to another and give the result. -/
def Returns (x : CompileM α) (c : Compilation) (a : α) (c' : Compilation) : Prop :=
  x.runFrom c = (.ok a, c')

/-- Steps run one after the other until one fails. -/
theorem runFrom_bind (x : CompileM α) (f : α → CompileM β) (c : Compilation) :
    (x >>= f).runFrom c = match x.runFrom c with
      | (.ok a, c₁) => (f a).runFrom c₁
      | (.error cause, c₁) => (.error cause, c₁) := by
  show (ExceptT.bindCont f (x.runFrom c).1).run (x.runFrom c).2 = _
  rcases x.runFrom c with ⟨_ | _, _⟩ <;> rfl

section Returns

variable {α β : Type} {c c' : Compilation}

theorem returns_pure {a b : α} : (pure a : CompileM α).Returns c b c' ↔ b = a ∧ c' = c := by
  show (Except.ok a, c) = (Except.ok b, c') ↔ _
  rw [Prod.mk.injEq, Except.ok.injEq, eq_comm, eq_comm (a := c)]

/-- A successful sequence of steps is one of successful steps. -/
theorem returns_bind {x : CompileM α} {f : α → CompileM β} {b : β} :
    (x >>= f).Returns c b c' ↔ ∃ a c₁, x.Returns c a c₁ ∧ (f a).Returns c₁ b c' := by
  unfold Returns
  rw [runFrom_bind]
  rcases x.runFrom c with ⟨_ | a, c₁⟩ <;> simp [and_assoc]

/-- What is rejected returns nothing. -/
@[simp] theorem not_returns_reject {defect : Defect} {node : Expr} {a : α} :
    ¬ (reject defect node : CompileM α).Returns c a c' := by
  rintro h
  cases h

theorem returns_scope {s : Scope} : scope.Returns c s c' ↔ s = c.scope ∧ c' = c :=
  returns_pure (a := c.scope)

/-- A value takes the next place, and its token is the placeholder of that place. -/
theorem returns_addParameter {v : Value} {t : Token} :
    (addParameter v).Returns c t c' ↔
      t = .parameter c.scope.parameters.length
        ∧ c' = { c with scope := { c.scope with parameters := c.scope.parameters ++ [v] } } :=
  returns_pure (c := { c with scope := (c.scope.addParameter v).2 })
    (a := Token.parameter c.scope.parameters.length)

/-- A join yields its alias. -/
theorem returns_requireJoin {path table leftAlias leftColumn rightColumn a : String} :
    (requireJoin path table leftAlias leftColumn rightColumn).Returns c a c' ↔
      a = (c.scope.requireJoin path table leftAlias leftColumn rightColumn).1
        ∧ c' = { c with
          scope := (c.scope.requireJoin path table leftAlias leftColumn rightColumn).2 } :=
  returns_pure (c := { c with
      scope := (c.scope.requireJoin path table leftAlias leftColumn rightColumn).2 })
    (a := (c.scope.requireJoin path table leftAlias leftColumn rightColumn).1)

/-- A name is bound, and nothing is returned. -/
theorem returns_bindName {name tableAlias : String} {u : Unit} :
    (bindName name tableAlias).Returns c u c' ↔
      c' = { c with scope := c.scope.bind name tableAlias } := by
  have hpure : (bindName name tableAlias).Returns c u c' ↔
      u = () ∧ c' = { c with scope := c.scope.bind name tableAlias } :=
    returns_pure (c := { c with scope := c.scope.bind name tableAlias }) (a := ())
  rw [hpure, and_iff_right rfl]

/-- A mapping is returned if there is one. -/
theorem returns_mapping {env : Environment} {entity : EntityType} {m : TypeMapping} :
    (env.mapping entity).Returns c m c' ↔ env.mappings entity = .ok m ∧ c' = c := by
  unfold Environment.mapping
  cases env.mappings entity with
  | error cause =>
    constructor
    · intro h
      cases h
    · rintro ⟨h, -⟩
      cases h
  | ok mapping =>
    rw [returns_pure, Except.ok.injEq, eq_comm]

end Returns

end CompileM

/-! ## Scopes -/

namespace Scope

/-- The scope with more parameters. -/
def addParameters (s : Scope) (vs : List Value) : Scope :=
  { s with parameters := s.parameters ++ vs }

/-- The alias of the row that a parameter stands for, if it stands for one. -/
def rowAlias? (s : Scope) (name : String) (entity : EntityType) : Option String :=
  match s.binding? name with
  | some tableAlias => some tableAlias
  | none => if entity = s.entity then some s.tableAlias else none

end Scope

/-- The placeholders of a list, between parentheses. -/
def Tokens.parameterList (first count : Nat) : Tokens :=
  Tokens.parenthesized
    (Text.separated [.word ", "] ((List.range' first count).map fun i => [.parameter i]))

/-! ## Members -/

/-- The walk from a row of the entity type along a chain of members, as `follow` takes it. -/
inductive Follows (env : Environment) :
    Scope → String → String → EntityType → List String → ColumnReference → Scope → Prop where
  | column {s rowAlias navigation entity last m member c}
      (mapping : env.mappings entity = .ok m) (found : m.member? last = some member)
      (column : member.column? = some c) :
      Follows env s rowAlias navigation entity [last] ⟨rowAlias, c.column, c.valueType⟩ s
  | key {s rowAlias navigation entity segment m c reference}
      (mapping : env.mappings entity = .ok m)
      (found : m.member? segment = some (.foreign c reference)) :
      Follows env s rowAlias navigation entity [segment, reference.targetKey]
        ⟨rowAlias, c.column, c.valueType⟩ s
  | join {s rowAlias navigation entity segment rest m c reference joined s₁ ref s'}
      (mapping : env.mappings entity = .ok m)
      (found : m.member? segment = some (.foreign c reference))
      (more : rest ≠ []) (notKey : rest ≠ [reference.targetKey])
      (required : s.requireJoin (navigation ++ "." ++ segment) reference.targetTable rowAlias
        c.column reference.targetKeyColumn = (joined, s₁))
      (tail : Follows env s₁ joined (navigation ++ "." ++ segment) reference.target rest ref s') :
      Follows env s rowAlias navigation entity (segment :: rest) ref s'

open CompileM in
/-- A chain that is followed to its end is followed in the scopes alone. -/
theorem Follows.of_returns {env : Environment} {node : Expr} {rowAlias navigation : String}
    {entity : EntityType} {members : List String} {ref : ColumnReference} {c c' : Compilation}
    (h : (follow env node rowAlias navigation entity members).Returns c ref c') :
    Follows env c.scope rowAlias navigation entity members ref c'.scope := by
  -- by the chain, from any row; whatever rejects returns nothing
  induction members generalizing rowAlias navigation entity c with
  | nil => exact absurd h not_returns_reject
  | cons segment rest ih =>
    cases rest with
    | nil =>
      rw [follow, returns_bind] at h
      obtain ⟨m, c₁, hm, h⟩ := h
      obtain ⟨hmapping, rfl⟩ := returns_mapping.1 hm
      cases hfound : m.member? segment with
      | none => rw [hfound] at h; exact absurd h not_returns_reject
      | some member =>
        rw [hfound] at h
        cases member with
        | field column | foreign column reference =>
          obtain ⟨rfl, rfl⟩ := returns_pure.1 h
          exact .column hmapping hfound rfl
        | list l => exact absurd h not_returns_reject
    | cons next rest =>
      rw [follow, returns_bind] at h
      · obtain ⟨m, c₁, hm, h⟩ := h
        obtain ⟨hmapping, rfl⟩ := returns_mapping.1 hm
        cases hfound : m.member? segment with
        | none => rw [hfound] at h; exact absurd h not_returns_reject
        | some member =>
          rw [hfound] at h
          cases member with
          | field column => exact absurd h not_returns_reject
          | list l => exact absurd h not_returns_reject
          | foreign column reference =>
            by_cases hkey : next :: rest = [reference.targetKey]
            · simp only [if_pos hkey] at h
              obtain ⟨rfl, rfl⟩ := returns_pure.1 h
              rw [hkey]
              exact .key hmapping hfound
            · simp only [if_neg hkey, returns_bind] at h
              obtain ⟨joined, c₁, hjoin, h⟩ := h
              obtain ⟨rfl, rfl⟩ := returns_requireJoin.1 hjoin
              exact .join hmapping hfound (by simp) hkey rfl (ih h)
      · simp

/-- The node is a member access that reads the column of the reference. -/
inductive Resolves (env : Environment) (s : Scope) (node : Expr) (ref : ColumnReference)
    (s' : Scope) : Prop where
  | intro (path : Expr.Path) (rowAlias : String) (chain : node.path? = some path)
      (row : s.rowAlias? path.parameter path.entity = some rowAlias)
      (walk : Follows env s rowAlias rowAlias path.entity path.members ref s')

namespace CompileM

/-- The alias of a row that is found, without a step. -/
theorem returns_parameterAlias {name : String} {entity : EntityType} {a : String}
    {c c' : Compilation} (h : (parameterAlias name entity).Returns c a c') :
    c.scope.rowAlias? name entity = some a ∧ c' = c := by
  rw [parameterAlias, returns_bind] at h
  obtain ⟨s, c₁, hs, h⟩ := h
  obtain ⟨rfl, rfl⟩ := returns_scope.1 hs
  unfold Scope.rowAlias?
  cases hb : c₁.scope.binding? name with
  | some bound =>
    rw [hb] at h
    obtain ⟨rfl, rfl⟩ := returns_pure.1 h
    exact ⟨rfl, rfl⟩
  | none =>
    simp only [hb] at h
    split at h
    · rename_i hentity
      obtain ⟨rfl, rfl⟩ := returns_pure.1 h
      exact ⟨if_pos hentity, rfl⟩
    · exact absurd h not_returns_reject

end CompileM

open CompileM in
/-- An access that is resolved is resolved in the scopes alone. -/
theorem Resolves.of_returns {env : Environment} {node : Expr} {ref : ColumnReference}
    {c c' : Compilation} (h : (resolveAccess env node).Returns c ref c') :
    Resolves env c.scope node ref c'.scope := by
  unfold resolveAccess at h
  cases hpath : node.path? with
  | none => rw [hpath] at h; exact absurd h not_returns_reject
  | some path =>
    simp only [hpath] at h
    split at h
    · exact absurd h not_returns_reject
    · rw [returns_bind] at h
      obtain ⟨a, c₁, ha, h⟩ := h
      obtain ⟨hrow, rfl⟩ := returns_parameterAlias ha
      exact ⟨path, a, hpath, hrow, .of_returns h⟩

/-! ## Nodes without children -/

namespace CompileM

/-- Values added one after the other get positions one after the other. -/
theorem returns_addParameters {vs : List Value} {ps : List Tokens} {c c' : Compilation}
    (h : (addParameters vs).Returns c ps c') :
    ps = (List.range' c.scope.parameters.length vs.length).map (fun i => [.parameter i])
      ∧ c'.scope = c.scope.addParameters vs := by
  induction vs generalizing c ps with
  | nil =>
    obtain ⟨rfl, rfl⟩ := returns_pure.1 h
    simp [Scope.addParameters]
  | cons v vs ih =>
    rw [RowMapper.addParameters, returns_bind] at h
    obtain ⟨t, c₁, ht, h⟩ := h
    obtain ⟨rfl, rfl⟩ := returns_addParameter.1 ht
    rw [returns_bind] at h
    obtain ⟨rest, c₂, hrest, h⟩ := h
    obtain ⟨rfl, rfl⟩ := returns_pure.1 h
    obtain ⟨rfl, hscope⟩ := ih hrest
    refine ⟨?_, ?_⟩
    · simp [List.range'_succ]
    · simp [hscope, Scope.addParameters]

/-- A value is written as NULL or takes the next place. -/
theorem returns_valueTokens {v : Value} {ts : Tokens} {c c' : Compilation}
    (h : (valueTokens v).Returns c ts c') :
    (v.isNull = true ∧ ts = [.null] ∧ c' = c)
      ∨ (v.isNull = false ∧ ts = [.parameter c.scope.parameters.length]
        ∧ c'.scope = c.scope.addParameters [v]) := by
  unfold valueTokens at h
  split at h
  · rename_i hnull
    exact .inl ⟨hnull, returns_pure.1 h⟩
  · rename_i hnull
    rw [returns_bind] at h
    obtain ⟨t, c₁, ht, h⟩ := h
    obtain ⟨rfl, rfl⟩ := returns_addParameter.1 ht
    obtain ⟨rfl, rfl⟩ := returns_pure.1 h
    exact .inr ⟨by simpa using hnull, rfl, rfl⟩

/-- A list is written as its placeholders, and the empty one as NULL in parentheses. -/
theorem returns_listTokens {vs : List Value} {ts : Tokens} {c c' : Compilation}
    (h : (listTokens vs).Returns c ts c') :
    (vs = [] ∧ ts = Tokens.parenthesized [.null] ∧ c' = c)
      ∨ (vs ≠ [] ∧ ts = Tokens.parameterList c.scope.parameters.length vs.length
        ∧ c'.scope = c.scope.addParameters vs) := by
  unfold listTokens at h
  split at h
  · rename_i hempty
    exact .inl ⟨List.isEmpty_iff.1 hempty, returns_pure.1 h⟩
  · rename_i hempty
    rw [returns_bind] at h
    obtain ⟨ps, c₁, hps, h⟩ := h
    obtain ⟨rfl, hscope⟩ := returns_addParameters hps
    obtain ⟨rfl, rfl⟩ := returns_pure.1 h
    exact .inr ⟨by simpa using hempty, rfl, hscope⟩

/-- An entity is written as its key, which is one value and not empty. -/
theorem returns_keyTokens {env : Environment} {node : Expr} {keys : List Value} {ts : Tokens}
    {c c' : Compilation} (h : (keyTokens env node keys).Returns c ts c') :
    ∃ key, keys = [key] ∧ env.strategies.isEmptyKey key = false
      ∧ ts = [.parameter c.scope.parameters.length] ∧ c'.scope = c.scope.addParameters [key] := by
  unfold keyTokens at h
  split at h
  · rename_i key
    split at h
    · exact absurd h not_returns_reject
    · rename_i hempty
      rw [returns_bind] at h
      obtain ⟨t, c₁, ht, h⟩ := h
      obtain ⟨rfl, rfl⟩ := returns_addParameter.1 ht
      obtain ⟨rfl, rfl⟩ := returns_pure.1 h
      exact ⟨key, rfl, by simpa using hempty, rfl, rfl⟩
  · exact absurd h not_returns_reject

/-- A row is written as the column of its key, of which there is one. -/
theorem returns_rowTokens {env : Environment} {name : String} {entity : EntityType}
    {ts : Tokens} {c c' : Compilation} (h : (rowTokens env name entity).Returns c ts c') :
    ∃ a m key, c.scope.rowAlias? name entity = some a ∧ env.mappings entity = .ok m
      ∧ m.primaryKeys = [key] ∧ ts = [env.column a key.column] ∧ c' = c := by
  rw [rowTokens, returns_bind] at h
  obtain ⟨a, c₁, ha, h⟩ := h
  obtain ⟨hrow, rfl⟩ := returns_parameterAlias ha
  rw [returns_bind] at h
  obtain ⟨m, c₂, hm, h⟩ := h
  obtain ⟨hmapping, rfl⟩ := returns_mapping.1 hm
  split at h
  · rename_i key hkey
    obtain ⟨rfl, rfl⟩ := returns_pure.1 h
    exact ⟨a, m, key, hrow, hmapping, hkey, rfl, rfl⟩
  · exact absurd h not_returns_reject

/-- An access is written as the column that it is resolved to. -/
theorem returns_memberTokens {env : Environment} {node : Expr} {ts : Tokens}
    {c c' : Compilation} (h : (memberTokens env node).Returns c ts c') :
    ∃ ref, Resolves env c.scope node ref c'.scope
      ∧ ts = [env.column ref.tableAlias ref.column] := by
  rw [memberTokens, returns_bind] at h
  obtain ⟨ref, c₁, href, h⟩ := h
  obtain ⟨rfl, rfl⟩ := returns_pure.1 h
  exact ⟨ref, .of_returns href, rfl⟩

/-- A boolean member is compared with true, in the next place. -/
theorem returns_conditionTokens {env : Environment} {node : Expr} {ts : Tokens}
    {c c' : Compilation} (h : (conditionTokens env node).Returns c ts c') :
    ∃ ref s₁, Resolves env c.scope node ref s₁
      ∧ ts = [env.column ref.tableAlias ref.column, .word " = ",
        .parameter s₁.parameters.length]
      ∧ c'.scope = s₁.addParameters [.of (.boolean true)] := by
  rw [conditionTokens, returns_bind] at h
  obtain ⟨ref, c₁, href, h⟩ := h
  rw [returns_bind] at h
  obtain ⟨t, c₂, ht, h⟩ := h
  obtain ⟨rfl, rfl⟩ := returns_addParameter.1 ht
  obtain ⟨rfl, rfl⟩ := returns_pure.1 h
  exact ⟨ref, c₁.scope, .of_returns href, rfl, rfl⟩

end CompileM

/-! ## Derivations -/

/-- The node below `parent` becomes the tokens and leads from one scope to the other. -/
inductive Compiles (env : Environment) :
    Option Expr → Expr → Scope → Tokens → Scope → Prop where
  | lambda {parent name body s ts s'}
      (inner : Compiles env (some (.lambda (.parameter name s.entity) body)) body
        (s.bind name s.tableAlias) ts s') :
      Compiles env parent (.lambda (.parameter name s.entity) body) s ts s'
  | nullTest {parent op lhs rhs operand s ts s'}
      (tested : Expr.nullTested? op lhs rhs = some operand)
      (inner : Compiles env (some (.binary op lhs rhs)) operand s ts s') :
      Compiles env parent (.binary op lhs rhs) s
        (Tokens.parenthesizedIf (operand.bindsUpTo BinaryOp.equal.precedence) ts
          ++ [nullTest (op = .notEqual)]) s'
  | binary {parent op lhs rhs s left s₁ right s'}
      (untested : Expr.nullTested? op lhs rhs = none)
      (first : Compiles env (some (.binary op lhs rhs)) lhs s left s₁)
      (second : Compiles env (some (.binary op lhs rhs)) rhs s₁ right s') :
      Compiles env parent (.binary op lhs rhs) s
        (Tokens.parenthesizedIf (lhs.bindsBelow op.precedence) left
          ++ .word op.text :: Tokens.parenthesizedIf (rhs.bindsUpTo op.precedence) right) s'
  | unary {parent op arg s ts s'}
      (inner : Compiles env (some (.unary op arg)) arg s ts s') :
      Compiles env parent (.unary op arg) s
        (.word op.text :: Tokens.parenthesizedIf (arg.bindsUpTo op.precedence) ts) s'
  | convert {parent arg type s ts s'}
      (inner : Compiles env (some (.convert arg type)) arg s ts s') :
      Compiles env parent (.convert arg type) s ts s'
  | nothing {parent collection item s}
      (empty : collection.unwrapConvert = .constant (.list [])) :
      Compiles env parent (.contains collection item) s [.word "1 = 0"] s
  | membership {parent collection item s ts s₁ vs}
      (list : collection.unwrapConvert = .constant (.list vs)) (filled : vs ≠ [])
      (inner : Compiles env (some (.contains collection item)) item s ts s₁) :
      Compiles env parent (.contains collection item) s
        (Tokens.parenthesizedIf (item.bindsUpTo BinaryOp.equal.precedence) ts
          ++ .word " IN " :: Tokens.parameterList s₁.parameters.length vs.length)
        (s₁.addParameters vs)
  | emptyList {parent s} :
      Compiles env parent (.constant (.list [])) s (Tokens.parenthesized [.null]) s
  | list {parent vs s} (filled : vs ≠ []) :
      Compiles env parent (.constant (.list vs)) s
        (Tokens.parameterList s.parameters.length vs.length) (s.addParameters vs)
  | key {parent entity key s} (given : env.strategies.isEmptyKey key = false) :
      Compiles env parent (.constant (.entity entity [key])) s [.parameter s.parameters.length]
        (s.addParameters [key])
  | null {parent v s} (absent : v.isNull = true) :
      Compiles env parent (.constant (.value v)) s [.null] s
  | value {parent v s} (present : v.isNull = false) :
      Compiles env parent (.constant (.value v)) s [.parameter s.parameters.length]
        (s.addParameters [v])
  | row {parent name entity a m key s} (alias? : s.rowAlias? name entity = some a)
      (mapping : env.mappings entity = .ok m) (single : m.primaryKeys = [key]) :
      Compiles env parent (.parameter name entity) s [env.column a key.column] s
  | condition {parent target name ref s s₁}
      (admitted : env.isCondition parent (.member target name) = true)
      (resolved : Resolves env s (.member target name) ref s₁) :
      Compiles env parent (.member target name) s
        [env.column ref.tableAlias ref.column, .word " = ", .parameter s₁.parameters.length]
        (s₁.addParameters [.of (.boolean true)])
  | member {parent target name ref s s'}
      (plain : env.isCondition parent (.member target name) = false)
      (resolved : Resolves env s (.member target name) ref s') :
      Compiles env parent (.member target name) s [env.column ref.tableAlias ref.column] s'

open CompileM in
/-- A member that compiles is a condition or a column. -/
theorem Compiles.of_returns_member {env : Environment} (hr : env.Standard) {parent : Option Expr}
    {target : Expr} {name : String} {ts : Tokens} {c c' : Compilation}
    (h : (compile env parent (.member target name)).Returns c ts c') :
    Compiles env parent (.member target name) c.scope ts c'.scope := by
  rw [compile_member hr] at h
  split at h
  · rename_i hcondition
    obtain ⟨ref, s₁, hresolved, rfl, hscope⟩ := returns_conditionTokens h
    rw [hscope]
    exact .condition hcondition hresolved
  · rename_i hcondition
    have hplain : env.isCondition parent (.member target name) = false := by
      simpa using hcondition
    have hmember : (memberTokens env (.member target name)).Returns c ts c' := by
      split at h
      · exact h
      · exact h
      · exact absurd h not_returns_reject
    obtain ⟨ref, hresolved, rfl⟩ := returns_memberTokens hmember
    exact .member hplain hresolved

open CompileM in
/-- A constant that compiles is a NULL or parameters, one for each value. -/
theorem Compiles.of_returns_constant {env : Environment} (hr : env.Standard)
    {parent : Option Expr} {k : Constant} {ts : Tokens} {c c' : Compilation}
    (h : (compile env parent (.constant k)).Returns c ts c') :
    Compiles env parent (.constant k) c.scope ts c'.scope := by
  cases k with
  | value v =>
    rw [compile_value hr] at h
    rcases returns_valueTokens h with ⟨hnull, rfl, rfl⟩ | ⟨hnull, rfl, hscope⟩
    · exact .null hnull
    · rw [hscope]
      exact .value hnull
  | list vs =>
    rw [compile_list hr] at h
    rcases returns_listTokens h with ⟨rfl, rfl, rfl⟩ | ⟨hfilled, rfl, hscope⟩
    · exact .emptyList
    · rw [hscope]
      exact .list hfilled
  | entity entity keys =>
    rw [compile_entity hr] at h
    obtain ⟨key, rfl, hgiven, rfl, hscope⟩ := returns_keyTokens h
    rw [hscope]
    exact .key hgiven

open CompileM in
/-- Every successful run of the compiler under the standard table has a derivation. -/
theorem Compiles.of_returns {env : Environment} (hr : env.Standard) {parent : Option Expr}
    {e : Expr} {ts : Tokens} {c c' : Compilation}
    (h : (compile env parent e).Returns c ts c') : Compiles env parent e c.scope ts c'.scope := by
  -- by the expression, below any node: what a rule visits is always a child of the node
  induction e generalizing parent c ts c' with
  | lambda row body _ ih =>
    rcases row.parameter_or_ne with ⟨name, entity, rfl⟩ | hrow
    · rw [compile_lambda hr, returns_bind] at h
      obtain ⟨s, c₁, hs, h⟩ := h
      obtain ⟨rfl, rfl⟩ := returns_scope.1 hs
      split at h
      · rename_i hentity
        subst hentity
        rw [returns_bind] at h
        obtain ⟨u, c₂, hbind, h⟩ := h
        obtain rfl := returns_bindName.1 hbind
        exact .lambda (ih h)
      · exact absurd h not_returns_reject
    · rw [compile_lambda_of_ne hr hrow] at h
      exact absurd h not_returns_reject
  | parameter name entity =>
    rw [compile_parameter hr] at h
    obtain ⟨a, m, key, ha, hm, hkey, rfl, rfl⟩ := returns_rowTokens h
    exact .row ha hm hkey
  | member target name _ => exact .of_returns_member hr h
  | constant k => exact .of_returns_constant hr h
  | unary op arg ih =>
    rw [compile_unary hr, returns_bind] at h
    obtain ⟨operand, c₁, hoperand, h⟩ := h
    obtain ⟨rfl, rfl⟩ := returns_pure.1 h
    exact .unary (ih hoperand)
  | binary op lhs rhs ihl ihr =>
    rw [compile_binary hr] at h
    cases htested : Expr.nullTested? op lhs rhs with
    | some operand =>
      simp only [htested, returns_bind] at h
      obtain ⟨tested, c₁, hoperand, h⟩ := h
      obtain ⟨rfl, rfl⟩ := returns_pure.1 h
      -- the side that is the NULL is not visited
      refine .nullTest htested ?_
      rcases Expr.eq_of_nullTested? htested with rfl | rfl
      · exact ihl hoperand
      · exact ihr hoperand
    | none =>
      simp only [htested, returns_bind] at h
      obtain ⟨left, c₁, hleft, right, c₂, hright, h⟩ := h
      obtain ⟨rfl, rfl⟩ := returns_pure.1 h
      exact .binary htested (ihl hleft) (ihr hright)
  | convert arg type ih =>
    rw [compile_convert hr] at h
    exact .convert (ih h)
  | contains collection item _ ih =>
    rw [compile_contains hr] at h
    split at h
    · rename_i hempty
      obtain ⟨rfl, rfl⟩ := returns_pure.1 h
      exact .nothing hempty
    · rename_i v vs hlist
      -- the list is visited behind the item, and its conversions do not show
      rw [compile_of_unwrapConvert hr hlist] at h
      simp only [returns_bind] at h
      obtain ⟨member, c₁, hmember, items, c₂, hitems, h⟩ := h
      obtain ⟨rfl, rfl⟩ := returns_pure.1 h
      rcases returns_listTokens hitems with ⟨hnil, -⟩ | ⟨hfilled, rfl, hscope⟩
      · exact absurd hnil (by simp)
      · rw [hscope]
        exact .membership hlist hfilled (ih hmember)
    · exact absurd h not_returns_reject

/-- A successful compilation into a scope has a derivation to the scope it leaves. -/
theorem Compiles.of_compileInto {env : Environment} (hr : env.Standard) {e : Expr} {s : Scope}
    {ts : Tokens} (h : (e.compileInto env s).outcome = .ok ts) :
    Compiles env none e s ts (e.compileInto env s).scope := by
  have hrun : (compile env none e).Returns ⟨s, []⟩ ts
      ((compile env none e).runFrom ⟨s, []⟩).2 := Prod.ext h rfl
  exact .of_returns hr hrun

end RowMapper
