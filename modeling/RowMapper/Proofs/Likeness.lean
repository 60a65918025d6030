import Mathlib.Data.List.Forall2
import RowMapper.Proofs.ScopeSteps

/-!
# Compilations of like expressions

Two expressions are alike if they differ in the payloads of their values alone: the values in
the same places are related by some `R` under which NULL is like NULL only. Compiled into scopes
that are alike, they either both fail or become the same tokens, and the scopes after them are
alike again. Nothing else is asked of `R`: the parameters of the two scopes are related by
whatever relates the values of the expressions.

* `CompileM.Lockstep` relates two compilations whose scopes differ in their parameters alone, by
  any relation of these, with one lemma for each step that does not look at parameters.
* `CompileM.Matches` is that relation for like parameters, with the steps that do.
* `Expr.Alike` relates the expressions; every question of the compiler about a node has the same
  answer on both sides.
* `compile_matches` is the induction over the pair of expressions.
-/

namespace RowMapper

/-- Two outcomes that are both failures, or both results that are related. -/
inductive Outcomes (Q : α → β → Prop) : Except ε α → Except ε β → Prop where
  | failed (cause cause' : ε) : Outcomes Q (.error cause) (.error cause')
  | returned {a : α} {b : β} (related : Q a b) : Outcomes Q (.ok a) (.ok b)

/-- Outcomes stay alike under functions that keep results alike. -/
theorem Outcomes.map {Q : α → β → Prop} {P : γ → δ → Prop} {x : Except ε α} {y : Except ε β}
    (h : Outcomes Q x y) {f : α → γ} {g : β → δ} (hfg : ∀ a b, Q a b → P (f a) (g b)) :
    Outcomes P (x.map f) (y.map g) := by
  cases h with
  | failed cause cause' => exact .failed cause cause'
  | returned related => exact .returned (hfg _ _ related)

/-- What comes out of both is alike, or nothing comes out of either. -/
theorem Outcomes.toOption {Q : α → β → Prop} {x : Except ε α} {y : Except ε β}
    (h : Outcomes Q x y) : Option.Rel Q x.toOption y.toOption := by
  cases h with
  | failed _ _ => exact .none
  | returned related => exact .some related

/-! ## Runs in lockstep -/

/-- The relation is one of the parameters of scopes that are the same apart from them. -/
structure Scope.OfParameters (S : Scope → Scope → Prop) : Prop where
  apart : ∀ {s s'}, S s s' → s' = { s with parameters := s'.parameters }
  frame : ∀ {s s'}, S s s' → ∀ t : Scope,
    S { t with parameters := s.parameters } { t with parameters := s'.parameters }

namespace CompileM

/-- From related scopes the compilations have related outcomes and lead to related scopes,
whether they succeed or fail. -/
def Lockstep (S : Scope → Scope → Prop) (Q : α → β → Prop) (x : CompileM α) (y : CompileM β) :
    Prop :=
  ∀ c c' : Compilation, S c.scope c'.scope →
    Outcomes Q (x.runFrom c).1 (y.runFrom c').1
      ∧ S (x.runFrom c).2.scope (y.runFrom c').2.scope

section Steps

variable {α β γ δ : Type} {S : Scope → Scope → Prop} {Q : α → β → Prop} {P : γ → δ → Prop}

theorem Lockstep.pure {a : α} {b : β} (h : Q a b) :
    Lockstep S Q (Pure.pure a) (Pure.pure b) :=
  fun _ _ hscope => ⟨.returned h, hscope⟩

theorem Lockstep.reject (defect defect' : Defect) (node node' : Expr) :
    Lockstep S Q (CompileM.reject defect node) (CompileM.reject defect' node') :=
  fun _ _ hscope => ⟨.failed _ _, hscope⟩

theorem Lockstep.bind {x : CompileM α} {y : CompileM β} {f : α → CompileM γ} {g : β → CompileM δ}
    (hxy : Lockstep S Q x y) (hfg : ∀ a b, Q a b → Lockstep S P (f a) (g b)) :
    Lockstep S P (x >>= f) (y >>= g) := by
  intro c c' hscope
  obtain ⟨houtcomes, hafter⟩ := hxy c c' hscope
  rw [runFrom_bind, runFrom_bind]
  generalize x.runFrom c = first at houtcomes hafter ⊢
  generalize y.runFrom c' = second at houtcomes hafter ⊢
  obtain ⟨outcome, c₁⟩ := first
  obtain ⟨outcome', c₁'⟩ := second
  cases houtcomes with
  | failed cause cause' => exact ⟨.failed cause cause', hafter⟩
  | returned related => exact hfg _ _ related c₁ c₁' hafter

/-- Two results that are the same are passed on as one. -/
theorem Lockstep.bindSame {x y : CompileM α} {f : α → CompileM γ} {g : α → CompileM δ}
    (hxy : Lockstep S Eq x y) (hfg : ∀ a, Lockstep S P (f a) (g a)) :
    Lockstep S P (x >>= f) (y >>= g) := by
  refine hxy.bind ?_
  rintro a _ rfl
  exact hfg a

theorem Lockstep.scope : Lockstep S S CompileM.scope CompileM.scope :=
  fun _ _ hscope => ⟨.returned hscope, hscope⟩

/-- The mapping of a type does not depend on the scope. -/
theorem Lockstep.mapping (env : Environment) (entity : EntityType) :
    Lockstep S Eq (env.mapping entity) (env.mapping entity) := by
  unfold Environment.mapping
  cases env.mappings entity with
  | ok m => exact .pure rfl
  | error cause => exact fun _ _ hscope => ⟨.failed _ _, hscope⟩

variable (hS : Scope.OfParameters S)
include hS

/-- Joins are found and made without a look at parameters. -/
theorem Lockstep.requireJoin (path table leftAlias leftColumn rightColumn : String) :
    Lockstep S Eq (CompileM.requireJoin path table leftAlias leftColumn rightColumn)
      (CompileM.requireJoin path table leftAlias leftColumn rightColumn) := by
  intro c c' hscope
  have hrun (c : Compilation) :
      (CompileM.requireJoin path table leftAlias leftColumn rightColumn).runFrom c
        = (.ok (c.scope.requireJoin path table leftAlias leftColumn rightColumn).1,
          { c with scope :=
            (c.scope.requireJoin path table leftAlias leftColumn rightColumn).2 }) := rfl
  rw [hrun, hrun, hS.apart hscope]
  -- joins are looked up by their path, which no parameter is part of
  cases hjoin : c.scope.join? path with
  | some j =>
    have hjoin' : ({ c.scope with parameters := c'.scope.parameters } : Scope).join? path
        = some j := hjoin
    rw [Scope.requireJoin_of_join? hjoin, Scope.requireJoin_of_join? hjoin']
    exact ⟨.returned rfl, hS.frame hscope c.scope⟩
  | none =>
    have hjoin' : ({ c.scope with parameters := c'.scope.parameters } : Scope).join? path
        = none := hjoin
    rw [Scope.requireJoin_of_none hjoin, Scope.requireJoin_of_none hjoin']
    exact ⟨.returned rfl, hS.frame hscope (c.scope.addJoin ⟨path, .left, table,
      "t" ++ toString c.scope.nextNumber, leftAlias, leftColumn, rightColumn⟩)⟩

/-- Names are bound without a look at parameters. -/
theorem Lockstep.bindName (name tableAlias : String) :
    Lockstep S Eq (CompileM.bindName name tableAlias) (CompileM.bindName name tableAlias) := by
  intro c c' hscope
  have hbind (ps : List Value) : ({ c.scope with parameters := ps } : Scope).bind name tableAlias
      = { c.scope.bind name tableAlias with parameters := ps } := by
    unfold Scope.bind
    show (if (c.scope.binding? name).isSome then _ else _) = _
    split <;> rfl
  have hrun (c : Compilation) : (CompileM.bindName name tableAlias).runFrom c
      = (.ok (), { c with scope := c.scope.bind name tableAlias }) := rfl
  have hsame : c.scope.bind name tableAlias
      = { c.scope.bind name tableAlias with parameters := c.scope.parameters } :=
    hbind c.scope.parameters
  have hother : c'.scope.bind name tableAlias
      = { c.scope.bind name tableAlias with parameters := c'.scope.parameters } := by
    rw [← hbind c'.scope.parameters, ← hS.apart hscope]
  rw [hrun, hrun, hsame, hother]
  exact ⟨.returned rfl, hS.frame hscope _⟩

/-! ### Members and rows -/

/-- The row of a name is found without a look at parameters. -/
theorem Lockstep.parameterAlias (name : String) (entity : EntityType) :
    Lockstep S Eq (parameterAlias name entity) (parameterAlias name entity) := by
  unfold RowMapper.parameterAlias
  refine .bind .scope fun s s' hscope => ?_
  rw [hS.apart hscope]
  have hbinding : ({ s with parameters := s'.parameters } : Scope).binding? name
      = s.binding? name := rfl
  rw [hbinding]
  cases s.binding? name with
  | some a => exact .pure rfl
  | none =>
    dsimp only
    split
    · exact .pure rfl
    · exact .reject _ _ _ _

/-- A chain of members is followed without a look at parameters, whatever node would be blamed. -/
theorem Lockstep.follow (env : Environment) (node node' : Expr) (rowAlias navigation : String)
    (entity : EntityType) (members : List String) :
    Lockstep S Eq (follow env node rowAlias navigation entity members)
      (follow env node' rowAlias navigation entity members) := by
  induction members generalizing rowAlias navigation entity with
  | nil => exact .reject _ _ _ _
  | cons segment rest ih =>
    cases rest with
    | nil =>
      -- the last member of the chain has to be a column
      rw [RowMapper.follow, RowMapper.follow]
      refine .bindSame (.mapping env entity) fun m => ?_
      cases m.member? segment with
      | none => exact .reject _ _ _ _
      | some member =>
        cases member with
        | field c => exact .pure rfl
        | foreign c reference => exact .pure rfl
        | list l => exact .reject _ _ _ _
    | cons next rest =>
      rw [RowMapper.follow, RowMapper.follow]
      · refine .bindSame (.mapping env entity) fun m => ?_
        cases m.member? segment with
        | none => exact .reject _ _ _ _
        | some member =>
          cases member with
          | field c => exact .reject _ _ _ _
          | list l => exact .reject _ _ _ _
          | foreign c reference =>
            dsimp only
            split
            · exact .pure rfl
            -- the rest is followed from the joined row, whose alias is the same
            · exact .bindSame (.requireJoin hS _ _ _ _ _) fun joined =>
                ih joined _ reference.target
      · simp
      · simp

/-- Two nodes with the same chain of members are resolved alike. -/
theorem Lockstep.resolveAccess (env : Environment) {node node' : Expr}
    (hpath : node'.path? = node.path?) :
    Lockstep S Eq (resolveAccess env node) (resolveAccess env node') := by
  unfold RowMapper.resolveAccess
  rw [hpath]
  cases node.path? with
  | none => exact .reject _ _ _ _
  | some path =>
    dsimp only
    split
    · exact .reject _ _ _ _
    · exact .bindSame (.parameterAlias hS _ _) fun rowAlias =>
        .follow hS env node node' rowAlias rowAlias path.entity path.members

/-- An access is written by its path alone. -/
theorem Lockstep.memberTokens (env : Environment) {node node' : Expr}
    (hpath : node'.path? = node.path?) :
    Lockstep S Eq (memberTokens env node) (memberTokens env node') :=
  .bindSame (.resolveAccess hS env hpath) fun _ => .pure rfl

/-- A row is written by its key. -/
theorem Lockstep.rowTokens (env : Environment) (name : String) (entity : EntityType) :
    Lockstep S Eq (rowTokens env name entity) (rowTokens env name entity) := by
  refine .bindSame (.parameterAlias hS name entity) fun rowAlias =>
    .bindSame (.mapping env entity) fun m => ?_
  split
  · exact .pure rfl
  · exact .reject _ _ _ _

end Steps

end CompileM

variable {R : Value → Value → Prop}

/-! ## Steps of compilations -/

/-- The scopes differ in the values of their parameters alone. -/
inductive Scope.Alike (R : Value → Value → Prop) (s : Scope) : Scope → Prop where
  | of {values : List Value} (related : List.Forall₂ R s.parameters values) :
    Alike R s { s with parameters := values }

/-- Scopes that are alike differ in parameters only. -/
theorem Scope.ofParameters_alike : Scope.OfParameters (Scope.Alike R) where
  apart := by
    rintro s _ ⟨related⟩
    rfl
  frame := by
    rintro s _ ⟨related⟩ t
    exact .of related

namespace CompileM

/-- From like scopes the compilations have matching outcomes and lead to like scopes, whether
they succeed or fail. -/
def Matches (R : Value → Value → Prop) (Q : α → β → Prop) (x : CompileM α) (y : CompileM β) :
    Prop :=
  ∀ c c' : Compilation, c.scope.Alike R c'.scope →
    Outcomes Q (x.runFrom c).1 (y.runFrom c').1
      ∧ (x.runFrom c).2.scope.Alike R (y.runFrom c').2.scope

section Steps

variable {α β γ δ : Type} {Q : α → β → Prop} {P : γ → δ → Prop}

theorem Matches.pure {a : α} {b : β} (h : Q a b) :
    Matches R Q (Pure.pure a) (Pure.pure b) :=
  Lockstep.pure h

theorem Matches.reject (defect defect' : Defect) (node node' : Expr) :
    Matches R Q (CompileM.reject defect node) (CompileM.reject defect' node') :=
  Lockstep.reject defect defect' node node'

/-- Two results that are the same are passed on as one. -/
theorem Matches.bindSame {x y : CompileM α} {f : α → CompileM γ} {g : α → CompileM δ}
    (hxy : Matches R Eq x y) (hfg : ∀ a, Matches R P (f a) (g a)) :
    Matches R P (x >>= f) (y >>= g) :=
  Lockstep.bindSame hxy hfg

/-- Like values take the same place. -/
theorem Matches.addParameter {v w : Value} (h : R v w) :
    Matches R Eq (CompileM.addParameter v) (CompileM.addParameter w) := by
  rintro ⟨s, questions⟩ ⟨_, questions'⟩ ⟨related⟩
  refine ⟨.returned ?_, .of ?_⟩
  · exact congrArg Token.parameter related.length_eq
  · exact List.rel_append related (.cons h .nil)

/-- A condition on a boolean member takes the same value on both sides. -/
theorem Matches.conditionTokens (env : Environment) {node node' : Expr}
    (hpath : node'.path? = node.path?) (htrue : R (.of (.boolean true)) (.of (.boolean true))) :
    Matches R Eq (conditionTokens env node) (conditionTokens env node') :=
  .bindSame (Lockstep.resolveAccess Scope.ofParameters_alike env hpath) fun _ =>
    .bindSame (.addParameter htrue) fun _ => .pure rfl

/-! ### Values -/

/-- Like values take the same places, in order. -/
theorem Matches.addParameters {vs ws : List Value} (h : List.Forall₂ R vs ws) :
    Matches R Eq (addParameters vs) (addParameters ws) := by
  induction h with
  | nil => exact .pure rfl
  | cons hv _ ih =>
    exact .bindSame (.addParameter hv) fun _ => .bindSame ih fun _ => .pure rfl

/-- Lists of like values have the same text. -/
theorem Matches.listTokens {vs ws : List Value} (h : List.Forall₂ R vs ws) :
    Matches R Eq (listTokens vs) (listTokens ws) := by
  cases h with
  | nil => exact .pure rfl
  | cons hv hrest => exact .bindSame (.addParameters (.cons hv hrest)) fun _ => .pure rfl

/-- Like values have the same text: NULL is written out, any other value takes a place. -/
theorem Matches.valueTokens {v w : Value} (h : R v w) (hnull : v.isNull = w.isNull) :
    Matches R Eq (valueTokens v) (valueTokens w) := by
  unfold RowMapper.valueTokens
  rw [← hnull]
  split
  · exact .pure rfl
  · exact .bindSame (.addParameter h) fun _ => .pure rfl

/-- The keys of two entities, each empty if its partner is. -/
theorem Matches.keyTokens (env : Environment) (node node' : Expr) {keys keys' : List Value}
    (h : List.Forall₂
      (fun v w => R v w ∧ env.strategies.isEmptyKey v = env.strategies.isEmptyKey w) keys keys') :
    Matches R Eq (keyTokens env node keys) (keyTokens env node' keys') := by
  unfold RowMapper.keyTokens
  cases h with
  | nil => exact .reject _ _ _ _
  | cons hkey hrest =>
    cases hrest with
    | nil =>
      dsimp only
      rw [← hkey.2]
      split
      · exact .reject _ _ _ _
      · exact .bindSame (.addParameter hkey.1) fun _ => .pure rfl
    | cons _ _ => exact .reject _ _ _ _

end Steps

end CompileM

/-! ## Like expressions -/

/-- The constants differ in the payloads of their values alone; a key of an entity is empty under
the strategies on both sides or on neither. -/
inductive Constant.Alike (R : Value → Value → Prop) (strategies : KeyStrategies) :
    Constant → Constant → Prop where
  | value {v w : Value} (related : R v w) : Alike R strategies (.value v) (.value w)
  | list {vs ws : List Value} (related : List.Forall₂ R vs ws) :
    Alike R strategies (.list vs) (.list ws)
  | entity (entity : EntityType) {keys keys' : List Value}
    (related : List.Forall₂
      (fun v w => R v w ∧ strategies.isEmptyKey v = strategies.isEmptyKey w) keys keys') :
    Alike R strategies (.entity entity keys) (.entity entity keys')

/-- The expressions differ in the payloads of their values alone. -/
inductive Expr.Alike (R : Value → Value → Prop) (strategies : KeyStrategies) :
    Expr → Expr → Prop where
  | lambda {row row' body body' : Expr} (rows : Alike R strategies row row')
    (bodies : Alike R strategies body body') : Alike R strategies (.lambda row body)
      (.lambda row' body')
  | parameter (name : String) (entity : EntityType) :
    Alike R strategies (.parameter name entity) (.parameter name entity)
  | member {target target' : Expr} (targets : Alike R strategies target target')
    (name : String) : Alike R strategies (.member target name) (.member target' name)
  | constant {k k' : Constant} (constants : k.Alike R strategies k') :
    Alike R strategies (.constant k) (.constant k')
  | unary (op : UnaryOp) {arg arg' : Expr} (args : Alike R strategies arg arg') :
    Alike R strategies (.unary op arg) (.unary op arg')
  | binary (op : BinaryOp) {lhs lhs' rhs rhs' : Expr} (left : Alike R strategies lhs lhs')
    (right : Alike R strategies rhs rhs') :
    Alike R strategies (.binary op lhs rhs) (.binary op lhs' rhs')
  | convert {arg arg' : Expr} (args : Alike R strategies arg arg') (type : ValueType) :
    Alike R strategies (.convert arg type) (.convert arg' type)
  | contains {collection collection' item item' : Expr}
    (collections : Alike R strategies collection collection')
    (items : Alike R strategies item item') :
    Alike R strategies (.contains collection item) (.contains collection' item')

namespace Expr.Alike

variable {strategies : KeyStrategies} {e e' : Expr}

/-- Without their conversions, expressions are still alike. -/
theorem unwrapConvert (h : e.Alike R strategies e') :
    e.unwrapConvert.Alike R strategies e'.unwrapConvert := by
  -- only a conversion is unwrapped
  induction h with
  | convert _ _ ih => exact ih
  | lambda rows bodies => exact .lambda rows bodies
  | parameter name entity => exact .parameter name entity
  | member targets name => exact .member targets name
  | constant constants => exact .constant constants
  | unary op args => exact .unary op args
  | binary op left right => exact .binary op left right
  | contains collections items => exact .contains collections items

/-- Parentheses are set alike. -/
theorem precedence?_eq (h : e.Alike R strategies e') : e'.precedence? = e.precedence? := by
  induction h with
  | convert _ _ ih => exact ih
  | lambda _ _ _ ih => exact ih
  | _ => rfl

/-- Like accesses go the same way. -/
theorem path?_eq (h : e.Alike R strategies e') : e'.path? = e.path? := by
  induction h with
  | convert _ _ ih => exact ih
  | member _ name ih => rw [Expr.path?, Expr.path?, ih]
  | _ => rfl

/-- NULL is alike to nothing but NULL. -/
theorem isNullConstant_eq (hnull : ∀ v w, R v w → v.isNull = w.isNull)
    (h : e.Alike R strategies e') : e'.isNullConstant = e.isNullConstant := by
  cases h with
  | constant constants =>
    cases constants with
    | value related => exact (hnull _ _ related).symm
    | _ => rfl
  | _ => rfl

/-- Conditions stand below the same parents. -/
theorem admitsCondition_eq (h : e.Alike R strategies e') :
    admitsCondition (some e') = admitsCondition (some e) := by
  have hunwrapped := h.unwrapConvert
  simp only [admitsCondition, Option.map_some]
  generalize e.unwrapConvert = u at hunwrapped ⊢
  generalize e'.unwrapConvert = u' at hunwrapped ⊢
  cases hunwrapped <;> rfl

end Expr.Alike

/-! ## The induction -/

/-- What is tested for NULL on one side is tested on the other. -/
theorem Expr.Alike.nullTested? {strategies : KeyStrategies} {lhs lhs' rhs rhs' : Expr}
    (hnull : ∀ v w, R v w → v.isNull = w.isNull) (op : BinaryOp)
    (left : lhs.Alike R strategies lhs') (right : rhs.Alike R strategies rhs') :
    (Expr.nullTested? op lhs rhs = none ∧ Expr.nullTested? op lhs' rhs' = none)
      ∨ (Expr.nullTested? op lhs rhs = some lhs ∧ Expr.nullTested? op lhs' rhs' = some lhs')
      ∨ (Expr.nullTested? op lhs rhs = some rhs ∧ Expr.nullTested? op lhs' rhs' = some rhs') := by
  unfold Expr.nullTested?
  rw [left.isNullConstant_eq hnull, right.isNullConstant_eq hnull]
  cases (op == .equal || op == .notEqual) <;> cases lhs.isNullConstant <;>
    cases rhs.isNullConstant <;> simp

/-- Like expressions under the standard table match, below nodes that both admit a condition or
both do not. -/
theorem compile_matches {env : Environment} (hr : env.Standard)
    (hnull : ∀ v w, R v w → v.isNull = w.isNull)
    (htrue : R (.of (.boolean true)) (.of (.boolean true))) {e e' : Expr}
    (h : e.Alike R env.strategies e') {parent parent' : Option Expr}
    (hparent : admitsCondition parent' = admitsCondition parent) :
    CompileM.Matches R Eq (compile env parent e) (compile env parent' e') := by
  -- on the derivation that they are alike; the parents are all that a node knows from above
  induction h generalizing parent parent' with
  | @lambda row row' body body' rows bodies _ ih =>
    cases rows with
    | parameter name entity =>
      rw [compile_lambda hr, compile_lambda hr]
      refine CompileM.Lockstep.bind .scope ?_
      rintro s _ ⟨_⟩
      dsimp only
      split
      · refine .bindSame (.bindName Scope.ofParameters_alike _ _) fun _ => ih ?_
        exact (Expr.Alike.lambda (.parameter name entity) bodies).admitsCondition_eq
      · exact .reject _ _ _ _
    | _ =>
      rw [compile_lambda_of_ne hr (by simp), compile_lambda_of_ne hr (by simp)]
      exact .reject _ _ _ _
  | parameter name entity =>
    rw [compile_parameter hr, compile_parameter hr]
    exact CompileM.Lockstep.rowTokens Scope.ofParameters_alike env name entity
  | @member target target' targets name _ =>
    have hpath := (targets.member name).path?_eq
    have hcondition : env.isCondition parent' (.member target' name)
        = env.isCondition parent (.member target name) := by
      simp only [Environment.isCondition, Rule.accepts, hparent, Mappings.memberType?, hpath]
    rw [compile_member hr, compile_member hr, hcondition]
    split
    · exact .conditionTokens env hpath htrue
    · have hunwrapped := targets.unwrapConvert
      generalize target.unwrapConvert = u at hunwrapped ⊢
      generalize target'.unwrapConvert = u' at hunwrapped ⊢
      -- a member is one of a row or of another member
      cases hunwrapped with
      | member _ _ | parameter _ _ =>
        exact CompileM.Lockstep.memberTokens Scope.ofParameters_alike env hpath
      | _ => exact .reject _ _ _ _
  | constant constants =>
    cases constants with
    | value related =>
      rw [compile_value hr, compile_value hr]
      exact .valueTokens related (hnull _ _ related)
    | list related =>
      rw [compile_list hr, compile_list hr]
      exact .listTokens related
    | entity entity related =>
      rw [compile_entity hr, compile_entity hr]
      exact .keyTokens env _ _ related
  | @unary op arg arg' args ih =>
    rw [compile_unary hr, compile_unary hr]
    refine .bindSame (ih (args.unary op).admitsCondition_eq) fun operand => .pure ?_
    simp only [Expr.bindsUpTo, args.precedence?_eq]
  | @binary op lhs lhs' rhs rhs' left right ihl ihr =>
    have hbelow : admitsCondition (some (.binary op lhs' rhs'))
        = admitsCondition (some (.binary op lhs rhs)) :=
      (Expr.Alike.binary op left right).admitsCondition_eq
    rw [compile_binary hr, compile_binary hr]
    -- both compare, or both test the same side for NULL
    rcases Expr.Alike.nullTested? hnull op left right with ⟨h, h'⟩ | ⟨h, h'⟩ | ⟨h, h'⟩
    · rw [h, h']
      refine .bindSame (ihl hbelow) fun first => .bindSame (ihr hbelow) fun second => .pure ?_
      simp only [Expr.bindsUpTo, Expr.bindsBelow, left.precedence?_eq, right.precedence?_eq]
    · rw [h, h']
      refine .bindSame (ihl hbelow) fun tested => .pure ?_
      simp only [Expr.bindsUpTo, left.precedence?_eq]
    · rw [h, h']
      refine .bindSame (ihr hbelow) fun tested => .pure ?_
      simp only [Expr.bindsUpTo, right.precedence?_eq]
  | @convert arg arg' args type ih =>
    rw [compile_convert hr, compile_convert hr]
    exact ih (args.convert type).admitsCondition_eq
  | @contains collection collection' item item' collections items ihc ihi =>
    have hbelow : admitsCondition (some (.contains collection' item'))
        = admitsCondition (some (.contains collection item)) :=
      (Expr.Alike.contains collections items).admitsCondition_eq
    rw [compile_contains hr, compile_contains hr]
    have hunwrapped := collections.unwrapConvert
    generalize collection.unwrapConvert = u at hunwrapped ⊢
    generalize collection'.unwrapConvert = u' at hunwrapped ⊢
    cases hunwrapped with
    | constant constants =>
      cases constants with
      | list related =>
        -- lists in the same place have the same length, so both are empty or neither is
        cases related with
        | nil => exact .pure rfl
        | cons _ _ =>
          refine .bindSame (ihi hbelow) fun member => .bindSame (ihc hbelow) fun list => .pure ?_
          simp only [Expr.bindsUpTo, items.precedence?_eq]
      | _ => exact .reject _ _ _ _
    | _ => exact .reject _ _ _ _

end RowMapper
