import RowMapper.Proofs.ColumnReferences
import RowMapper.Proofs.Likeness
import RowMapper.Proofs.Rendering
import RowMapper.Proofs.Vocabulary

/-!
# Conversions and compiled text

A conversion writes nothing, and nearly all rules look through it. An expression and the same
expression without its conversions compile in lockstep: both fail or neither does, and they ask
for the same joins. The two rules that ask a question of the node itself make the difference
there is: a NULL below a conversion is compared and not tested for, and a boolean member below
one is not taken for a condition.

* `compile_erased` compares the two runs.
* `Tokens.weight` counts the tests and the parameters in a text; `Compiles.weight_erased` says that
  one of them is missing for each question that a conversion hides.
* `compileInto_erased` is the result: the texts are the same exactly if nothing is hidden.
-/

namespace RowMapper

/-! ## Erased expressions -/

namespace Expr

@[simp] theorem precedence?_erased (e : Expr) : e.erased.precedence? = e.precedence? := by
  induction e with
  | convert arg type ih => exact ih
  | lambda row body _ ih => exact ih
  | _ => rfl

/-- Where a NULL is tested for, it still is when the conversions are erased. The operand is the
same one, unless both sides are NULL. -/
theorem nullTested?_erased_cases {op : BinaryOp} {lhs rhs operand : Expr}
    (h : nullTested? op lhs rhs = some operand) :
    nullTested? op lhs.erased rhs.erased = some operand.erased
      ∨ operand.unwrapConvert.isNullConstant = true
        ∧ ∃ tested, nullTested? op lhs.erased rhs.erased = some tested
          ∧ tested.unwrapConvert.isNullConstant = true := by
  obtain ⟨hop, ⟨hl, rfl⟩ | ⟨-, hr, rfl⟩⟩ := nullTested?_eq_some.1 h
  · have hle : lhs.erased.isNullConstant = true := by
      rw [isNullConstant_erased]
      exact isNullConstant_unwrapConvert hl
    exact .inl (nullTested?_eq_some.2 ⟨hop, .inl ⟨hle, rfl⟩⟩)
  · have hre : rhs.erased.isNullConstant = true := by
      rw [isNullConstant_erased]
      exact isNullConstant_unwrapConvert hr
    cases hle : operand.erased.isNullConstant with
    | true =>
      have hnull := hle
      rw [isNullConstant_erased] at hnull
      exact .inr ⟨hnull, rhs.erased, nullTested?_eq_some.2 ⟨hop, .inl ⟨hle, rfl⟩⟩,
        isNullConstant_unwrapConvert hre⟩
    | false => exact .inl (nullTested?_eq_some.2 ⟨hop, .inr ⟨hle, hre, rfl⟩⟩)

/-- A NULL that is found when the conversions are erased is found below them. -/
theorem nullTested?_of_erased {op : BinaryOp} {lhs rhs tested : Expr}
    (herased : nullTested? op lhs.erased rhs.erased = some tested) :
    (nullTested? op lhs.unwrapConvert rhs.unwrapConvert).isSome = true
      ∧ (lhs.unwrapConvert.isNullConstant = true ∧ tested = rhs.erased
        ∨ rhs.unwrapConvert.isNullConstant = true ∧ tested = lhs.erased) := by
  obtain ⟨hop, hsides⟩ := nullTested?_eq_some.1 herased
  rw [isNullConstant_erased, isNullConstant_erased] at hsides
  refine ⟨?_, ?_⟩
  · rw [Option.isSome_iff_ne_none, ne_eq, nullTested?_eq_none, hop]
    rcases hsides with ⟨hl, -⟩ | ⟨-, hr, -⟩
    · simp [hl]
    · simp [hr]
  · exact hsides.imp id fun hr => hr.2

/-- The place does not matter where no condition is below conversions. -/
theorem hides_of_not_isBoolean {env : Environment} {e : Expr} (place : Bool)
    (h : env.isBoolean e.unwrapConvert = false) : e.hides env place = e.hides env false := by
  cases e with
  | convert arg type =>
    rw [unwrapConvert_convert] at h
    rw [hides, hides, h, Bool.and_false, Bool.and_false]
  | _ => rfl

/-- What is hidden in a place that admits no condition is hidden in every place. -/
theorem hides_of_false {env : Environment} {e : Expr} (place : Bool)
    (h : e.hides env false = true) : e.hides env place = true := by
  cases e with
  | convert arg type =>
    rw [hides, Bool.false_and, Bool.false_or] at h
    rw [hides, h, Bool.or_true]
  | _ => exact h

/-- All conversions are unwrapped at once. -/
theorem unwrapConvert_ne_convert (e arg : Expr) (type : ValueType) :
    e.unwrapConvert ≠ .convert arg type := by
  induction e with
  | convert inner _ ih => exact ih
  | _ => exact nofun

/-- A chain of members is an access below its conversions, or a row. -/
theorem path?_unwrapConvert (e : Expr) : e.unwrapConvert.path? = e.path? := by
  induction e with
  | convert arg type ih => exact ih
  | _ => rfl

/-- Only an access can be a boolean member. -/
theorem isBoolean_of_path? (env : Environment) {e : Expr} (h : e.path? = none) :
    env.isBoolean e = false := by
  simp [Environment.isBoolean, Mappings.memberType?, h]

/-- A NULL is no chain of members, binds as tightly as can be, and hides nothing. -/
theorem of_isNullConstant {e : Expr} (h : e.unwrapConvert.isNullConstant = true) :
    e.path? = none ∧ e.precedence? = none
      ∧ ∀ env place, e.hides env place = false := by
  induction e with
  | convert arg type ih =>
    obtain ⟨hpath, hprecedence, hhides⟩ := ih h
    refine ⟨hpath, hprecedence, fun env place => ?_⟩
    rw [hides, isBoolean_unwrapConvert, isBoolean_of_path? env hpath, Bool.and_false, hhides]
    rfl
  | constant c => exact ⟨rfl, rfl, fun _ _ => rfl⟩
  | _ => cases h

end Expr

/-! ## Two runs -/

/-- The scopes differ in their parameters at most, and not even in these if they are to be the
same. -/
inductive Scope.Mirrors (same : Prop) (s : Scope) : Scope → Prop where
  | of {values : List Value} (equal : same → values = s.parameters) :
    Mirrors same s { s with parameters := values }

/-- The results are the same if they are to be. -/
def SameIf (same : Prop) (a b : α) : Prop := same → a = b

section

variable {same : Prop}

theorem Scope.Mirrors.refl (s : Scope) : s.Mirrors same s := .of fun _ => rfl

/-- Scopes that mirror each other differ in parameters only. -/
theorem Scope.ofParameters_mirrors : Scope.OfParameters (Scope.Mirrors same) where
  apart := by
    rintro s _ ⟨equal⟩
    rfl
  frame := by
    rintro s _ ⟨equal⟩ t
    exact .of equal

namespace CompileM

open Scope (Mirrors ofParameters_mirrors)

theorem Lockstep.weaken {S : Scope → Scope → Prop} {x y : CompileM α} (h : Lockstep S Eq x y) :
    Lockstep S (SameIf same) x y := by
  intro c c' hscope
  obtain ⟨houtcomes, hafter⟩ := h c c' hscope
  refine ⟨?_, hafter⟩
  generalize (x.runFrom c).1 = first at houtcomes ⊢
  generalize (y.runFrom c').1 = second at houtcomes ⊢
  cases houtcomes with
  | failed cause cause' => exact .failed cause cause'
  | returned related => exact .returned fun _ => related

/-- A value takes the next place, the same one if the places before are the same. -/
theorem Lockstep.addParameter (v : Value) :
    Lockstep (Mirrors same) (SameIf same) (CompileM.addParameter v) (CompileM.addParameter v) := by
  rintro ⟨s, questions⟩ ⟨_, questions'⟩ ⟨equal⟩
  refine ⟨.returned fun h => ?_, .of fun h => ?_⟩
  · exact congrArg (fun ps => Token.parameter (List.length ps)) (equal h).symm
  · exact congrArg (· ++ [v]) (equal h)

theorem Lockstep.addParameters (vs : List Value) :
    Lockstep (Mirrors same) (SameIf same) (addParameters vs) (addParameters vs) := by
  induction vs with
  | nil => exact .pure fun _ => rfl
  | cons v vs ih =>
    refine .bind (.addParameter v) fun t t' ht => .bind ih fun ts ts' hts => .pure fun h => ?_
    rw [ht h, hts h]

/-- The values of a list take the next places. -/
theorem Lockstep.listTokens (vs : List Value) :
    Lockstep (Mirrors same) (SameIf same) (listTokens vs) (listTokens vs) := by
  unfold RowMapper.listTokens
  split
  · exact .pure fun _ => rfl
  · exact .bind (.addParameters vs) fun ts ts' hts => .pure fun h => by rw [hts h]

/-- NULL is written out, any other value takes the next place. -/
theorem Lockstep.valueTokens (v : Value) :
    Lockstep (Mirrors same) (SameIf same) (valueTokens v) (valueTokens v) := by
  unfold RowMapper.valueTokens
  split
  · exact .pure fun _ => rfl
  · exact .bind (.addParameter v) fun t t' ht => .pure fun h => by rw [ht h]

theorem Lockstep.keyTokens (env : Environment) (node : Expr) (keys : List Value) :
    Lockstep (Mirrors same) (SameIf same) (keyTokens env node keys)
      (keyTokens env node keys) := by
  unfold RowMapper.keyTokens
  split
  · split
    · exact .reject _ _ _ _
    · exact .bind (.addParameter _) fun t t' ht => .pure fun h => by rw [ht h]
  · exact .reject _ _ _ _

/-- An access is compared with a value that takes the next place. -/
theorem Lockstep.conditionTokens (env : Environment) {node node' : Expr}
    (hpath : node'.path? = node.path?) :
    Lockstep (Mirrors same) (SameIf same) (RowMapper.conditionTokens env node)
      (RowMapper.conditionTokens env node') :=
  .bindSame (.resolveAccess ofParameters_mirrors env hpath) fun _ =>
    .bind (.addParameter _) fun _ _ ht => .pure fun h => by rw [ht h]

/-- A column and a condition over it differ in a parameter. -/
theorem Lockstep.memberTokens_conditionTokens (hsame : ¬same) (env : Environment)
    {node node' : Expr} (hpath : node'.path? = node.path?) :
    Lockstep (Mirrors same) (SameIf same) (RowMapper.memberTokens env node)
      (RowMapper.conditionTokens env node') := by
  refine .bindSame (.resolveAccess ofParameters_mirrors env hpath) fun ref => ?_
  rintro ⟨s, questions⟩ ⟨_, questions'⟩ ⟨equal⟩
  exact ⟨.returned fun h => absurd h hsame, .of fun h => absurd h hsame⟩

end CompileM

end

section

variable {env : Environment} {parent : Option Expr}

/-- NULL is written out, however often it is converted. -/
theorem compile_of_isNullConstant (hr : env.Standard) {e : Expr}
    (h : e.unwrapConvert.isNullConstant = true) : compile env parent e = pure [.null] := by
  induction e generalizing parent with
  | convert arg type ih => rw [compile_convert hr, ih h]
  | constant c =>
    cases c with
    | value v =>
      have hv : v.isNull = true := h
      rw [compile_value hr, valueTokens, if_pos hv]
    | list vs => cases h
    | entity entity keys => cases h
  | _ => cases h

/-- An access is a condition if it is boolean and its parent admits conditions. -/
theorem isCondition_eq (target : Expr) (name : String) :
    env.isCondition parent (.member target name)
      = (admitsCondition parent && env.isBoolean (.member target name)) := by
  simp only [Environment.isCondition, Environment.isBoolean, Rule.accepts, ← Bool.and_assoc,
    Bool.and_comm]

/-- A chain of members that is no condition is its column. -/
theorem compile_member_of_path? (hr : env.Standard) {target : Expr} {name : String}
    {p : Expr.Path} (hpath : (Expr.member target name).path? = some p)
    (hplain : env.isCondition parent (.member target name) = false) :
    compile env parent (.member target name) = memberTokens env (.member target name) := by
  obtain ⟨q, hq, -⟩ := Option.map_eq_some_iff.1 hpath
  rw [← Expr.path?_unwrapConvert] at hq
  rw [compile_member hr, hplain]
  cases hu : target.unwrapConvert with
  | member | parameter => rfl
  | convert arg type => exact absurd hu (target.unwrapConvert_ne_convert arg type)
  | _ =>
    rw [hu] at hq
    cases hq

/-- An access that is no condition on either side is the same without conversions. -/
theorem compile_plainMember_erased (hr : env.Standard) {same : Prop} {parent' : Option Expr}
    {target : Expr} {name : String} (hplain : env.isCondition parent (.member target name) = false)
    (hplain' : env.isCondition parent' (.member target.erased name) = false) :
    CompileM.Lockstep (Scope.Mirrors same) (SameIf same) (compile env parent (.member target name))
      (compile env parent' (.member target.erased name)) := by
  have hpath := Expr.path?_member_erased target name
  rw [compile_member hr, compile_member hr, hplain, hplain', Expr.unwrapConvert_erased]
  cases hu : target.unwrapConvert with
  | member | parameter =>
    exact (CompileM.Lockstep.memberTokens Scope.ofParameters_mirrors env hpath).weaken
  | convert arg type => exact absurd hu (target.unwrapConvert_ne_convert arg type)
  | _ => exact .reject _ _ _ _

/-- A member may gain a place for a condition when a conversion goes, and never loses one. If it is
boolean and gains one, the texts differ. -/
theorem compile_member_erased (hr : env.Standard) {same : Prop} {parent' : Option Expr}
    {target : Expr} {name : String}
    (hgrows : admitsCondition parent = true → admitsCondition parent' = true)
    (hsame : same → env.isBoolean (.member target name) = true →
      admitsCondition parent = admitsCondition parent') :
    CompileM.Lockstep (Scope.Mirrors same) (SameIf same) (compile env parent (.member target name))
      (compile env parent' (.member target.erased name)) := by
  have hpath := Expr.path?_member_erased target name
  have hcondition : env.isCondition parent (.member target name)
      = (admitsCondition parent && env.isBoolean (.member target name)) :=
    isCondition_eq target name
  have hcondition' : env.isCondition parent' (.member target.erased name)
      = (admitsCondition parent' && env.isBoolean (.member target name)) := by
    rw [isCondition_eq, Expr.isBoolean_member_erased]
  cases hb : env.isBoolean (.member target name) with
  | false =>
    rw [hb, Bool.and_false] at hcondition hcondition'
    exact compile_plainMember_erased hr hcondition hcondition'
  | true =>
    rw [hb, Bool.and_true] at hcondition hcondition'
    cases ha : admitsCondition parent with
    | true =>
      rw [ha] at hcondition
      rw [hgrows ha] at hcondition'
      rw [compile_member hr, compile_member hr, if_pos hcondition, if_pos hcondition']
      exact .conditionTokens env hpath
    | false =>
      rw [ha] at hcondition hsame
      cases ha' : admitsCondition parent' with
      | false =>
        rw [ha'] at hcondition'
        exact compile_plainMember_erased hr hcondition hcondition'
      | true =>
        -- the place of the member is seen without the conversion only
        rw [ha'] at hcondition' hsame
        have hne : ¬same := fun h => Bool.false_ne_true (hsame h hb)
        obtain ⟨p, hp⟩ : ∃ p, (Expr.member target name).path? = some p := by
          rw [← Option.ne_none_iff_exists']
          intro hnone
          rw [Expr.isBoolean_of_path? env hnone] at hb
          cases hb
        rw [compile_member_of_path? hr hp hcondition, compile_member hr, if_pos hcondition']
        exact .memberTokens_conditionTokens hne env hpath

/-- A test for NULL stays one. -/
theorem compile_nullTest_erased (hr : env.Standard) {same : Prop} {parent' : Option Expr}
    {op : BinaryOp} {lhs rhs operand : Expr}
    (htested : Expr.nullTested? op lhs rhs = some operand)
    (inner : CompileM.Lockstep (Scope.Mirrors same) (SameIf same)
      (compile env (some (.binary op lhs rhs)) operand)
      (compile env (some (.binary op lhs.erased rhs.erased)) operand.erased)) :
    CompileM.Lockstep (Scope.Mirrors same) (SameIf same) (compile env parent (.binary op lhs rhs))
      (compile env parent' (.binary op lhs.erased rhs.erased)) := by
  rw [compile_binary hr, compile_binary hr, htested]
  rcases Expr.nullTested?_erased_cases htested with herased | ⟨hnull, tested, herased, hnull'⟩
  · rw [herased]
    refine .bind inner fun ts ts' hts => .pure fun h => ?_
    rw [hts h, Expr.bindsUpTo, Expr.bindsUpTo, Expr.precedence?_erased]
  · -- one NULL is tested for the other in both runs
    rw [herased]
    dsimp only
    rw [compile_of_isNullConstant hr hnull, compile_of_isNullConstant hr hnull', pure_bind,
      pure_bind, Expr.bindsUpTo, Expr.bindsUpTo, (Expr.of_isNullConstant hnull).2.1,
      (Expr.of_isNullConstant hnull').2.1]
    exact .pure fun _ => rfl

/-- A comparison becomes a test for NULL if a conversion hid the NULL, and the texts then differ. -/
theorem compile_untested_erased (hr : env.Standard) {same : Prop} {parent' : Option Expr}
    {op : BinaryOp} {lhs rhs : Expr} (untested : Expr.nullTested? op lhs rhs = none)
    (hhides : same →
      (Expr.nullTested? op lhs.unwrapConvert rhs.unwrapConvert).isSome = false)
    (first : CompileM.Lockstep (Scope.Mirrors same) (SameIf same)
      (compile env (some (.binary op lhs rhs)) lhs)
      (compile env (some (.binary op lhs.erased rhs.erased)) lhs.erased))
    (second : CompileM.Lockstep (Scope.Mirrors same) (SameIf same)
      (compile env (some (.binary op lhs rhs)) rhs)
      (compile env (some (.binary op lhs.erased rhs.erased)) rhs.erased)) :
    CompileM.Lockstep (Scope.Mirrors same) (SameIf same) (compile env parent (.binary op lhs rhs))
      (compile env parent' (.binary op lhs.erased rhs.erased)) := by
  rw [compile_binary hr, compile_binary hr, untested]
  cases herased : Expr.nullTested? op lhs.erased rhs.erased with
  | some tested =>
    obtain ⟨hhidden, hsides⟩ := Expr.nullTested?_of_erased herased
    have hne : ¬same := fun h => by
      rw [hhides h] at hhidden
      cases hhidden
    -- the NULL is written where it is not tested for, which changes nothing else
    rcases hsides with ⟨hnull, rfl⟩ | ⟨hnull, rfl⟩
    · dsimp only
      rw [compile_of_isNullConstant hr hnull, pure_bind]
      exact .bind second fun ts ts' _ => .pure fun h => absurd h hne
    · dsimp only
      refine .bind first fun ts ts' _ => ?_
      rw [compile_of_isNullConstant hr hnull, pure_bind]
      exact .pure fun h => absurd h hne
  | none =>
    refine .bind first fun left left' hleft => .bind second fun right right' hright =>
      .pure fun h => ?_
    rw [hleft h, hright h]
    simp only [Expr.bindsBelow, Expr.bindsUpTo, Expr.precedence?_erased]

/-- The item of an empty collection is not compiled, so nothing is asked of it there. -/
theorem compile_contains_erased (hr : env.Standard) {same : Prop} {parent' : Option Expr}
    {collection item : Expr}
    (inner : collection.unwrapConvert ≠ .constant (.list []) →
      CompileM.Lockstep (Scope.Mirrors same) (SameIf same)
        (compile env (some (.contains collection item)) item)
        (compile env (some (.contains collection.erased item.erased)) item.erased)) :
    CompileM.Lockstep (Scope.Mirrors same) (SameIf same)
      (compile env parent (.contains collection item))
      (compile env parent' (.contains collection.erased item.erased)) := by
  rw [compile_contains hr, compile_contains hr, Expr.unwrapConvert_erased]
  cases hc : collection.unwrapConvert with
  | constant c =>
    cases c with
    | list vs =>
      cases vs with
      -- nothing is a member of an empty list, and the item is not compiled in either run
      | nil => exact .pure fun _ => rfl
      | cons v vs =>
        have hlist : collection.erased.unwrapConvert = .constant (.list (v :: vs)) := by
          rw [Expr.unwrapConvert_erased, hc]
          rfl
        rw [Expr.erased]
        dsimp only
        rw [compile_of_unwrapConvert hr hc, compile_of_unwrapConvert hr hlist]
        refine .bind (inner (by simp [hc])) fun ts ts' hts =>
          .bind (.listTokens _) fun items items' hitems => .pure fun h => ?_
        rw [hts h, hitems h, Expr.bindsUpTo, Expr.bindsUpTo, Expr.precedence?_erased]
    | _ => exact .reject _ _ _ _
  | convert arg type => exact absurd hc (collection.unwrapConvert_ne_convert arg type)
  | _ => exact .reject _ _ _ _

/-- Under the standard table an expression and the same one without its conversions compile in
lockstep. The places may differ in that a member stands below a conversion in the one run only. -/
theorem compile_erased (hr : env.Standard) {same : Prop} (e : Expr) {parent parent' : Option Expr}
    (hhides : same → e.hides env (admitsCondition parent') = false)
    (hplace : ∀ target name, e = .member target name →
      (admitsCondition parent = true → admitsCondition parent' = true)
        ∧ (same → env.isBoolean e = true → admitsCondition parent = admitsCondition parent')) :
    CompileM.Lockstep (Scope.Mirrors same) (SameIf same) (compile env parent e)
      (compile env parent' e.erased) := by
  -- the places change on the way down, so the hypotheses about them go into the induction
  induction e generalizing parent parent' with
  | lambda row body _ ih =>
    rw [Expr.erased]
    rcases row.parameter_or_ne with ⟨name, entity, rfl⟩ | hrow
    · rw [compile_lambda hr, compile_lambda hr]
      refine .bind .scope ?_
      rintro s _ ⟨_⟩
      dsimp only
      split
      · refine .bindSame (.bindName Scope.ofParameters_mirrors _ _) fun _ => ih hhides ?_
        exact fun _ _ _ => ⟨id, fun _ _ => rfl⟩
      · exact .reject _ _ _ _
    · rw [compile_lambda_of_ne hr hrow, compile_lambda_of_ne hr hrow]
      exact .reject _ _ _ _
  | parameter name entity =>
    rw [Expr.erased, compile_parameter hr, compile_parameter hr]
    exact (CompileM.Lockstep.rowTokens Scope.ofParameters_mirrors env name entity).weaken
  | constant c =>
    rw [Expr.erased]
    cases c with
    | value v =>
      rw [compile_value hr, compile_value hr]
      exact .valueTokens v
    | list vs =>
      rw [compile_list hr, compile_list hr]
      exact .listTokens vs
    | entity entity keys =>
      rw [compile_entity hr, compile_entity hr]
      exact .keyTokens env _ keys
  | member target name _ =>
    obtain ⟨hgrows, hsame⟩ := hplace target name rfl
    rw [Expr.erased]
    exact compile_member_erased hr hgrows hsame
  | unary op arg ih =>
    rw [Expr.erased, compile_unary hr, compile_unary hr]
    refine .bind (ih hhides fun _ _ _ => ⟨id, fun _ _ => rfl⟩) fun ts ts' hts => .pure fun h => ?_
    rw [hts h, Expr.bindsUpTo, Expr.bindsUpTo, Expr.precedence?_erased]
  | binary op lhs rhs ihl ihr =>
    have hop : admitsCondition (some (.binary op lhs.erased rhs.erased)) = op.isLogical := rfl
    have hplaces : ∀ side target name, side = Expr.member target name →
        (admitsCondition (some (.binary op lhs rhs)) = true →
            admitsCondition (some (.binary op lhs.erased rhs.erased)) = true)
          ∧ (same → env.isBoolean side = true → admitsCondition (some (.binary op lhs rhs))
            = admitsCondition (some (.binary op lhs.erased rhs.erased))) :=
      fun _ _ _ _ => ⟨id, fun _ _ => rfl⟩
    rw [Expr.erased]
    cases htested : Expr.nullTested? op lhs rhs with
    | some operand =>
      rw [Expr.hides_binary_of_some htested] at hhides
      refine compile_nullTest_erased hr htested ?_
      rcases Expr.eq_of_nullTested? htested with rfl | rfl
      · exact ihl (hop ▸ hhides) (hplaces _)
      · exact ihr (hop ▸ hhides) (hplaces _)
    | none =>
      rw [Expr.hides_binary, htested] at hhides
      simp only [Bool.or_eq_false_iff] at hhides
      exact compile_untested_erased hr htested (fun h => (hhides h).1.1)
        (ihl (fun h => hop ▸ (hhides h).1.2) (hplaces _))
        (ihr (fun h => hop ▸ (hhides h).2) (hplaces _))
  | convert arg type ih =>
    rw [Expr.erased, compile_convert hr]
    simp only [Expr.hides, Bool.or_eq_false_iff, Expr.isBoolean_unwrapConvert] at hhides
    refine ih (fun h => ?_) ?_
    · cases ha : admitsCondition parent' with
      | false => exact (hhides h).2
      | true =>
        have hboolean := (hhides h).1
        rw [ha, Bool.true_and] at hboolean
        rw [Expr.hides_of_not_isBoolean true (by rwa [Expr.isBoolean_unwrapConvert])]
        exact (hhides h).2
    · -- a conversion is no place for a condition
      rintro target name rfl
      refine ⟨fun h => absurd h Bool.false_ne_true, fun h hb => ?_⟩
      have hboolean := (hhides h).1
      rw [hb, Bool.and_true] at hboolean
      rw [hboolean]
      rfl
  | contains collection item _ ih =>
    rw [Expr.erased]
    refine compile_contains_erased hr fun filled => ih ?_ fun _ _ _ => ⟨id, fun _ _ => rfl⟩
    rw [Expr.hides, if_neg filled] at hhides
    exact hhides

end

/-! ## Tests and parameters in a text -/

/-- The token is a test for NULL or a parameter. -/
def Token.weighs : Token → Bool
  | .word w => w == " IS NULL" || w == " IS NOT NULL"
  | .parameter _ => true
  | .identifier _ _ => false

/-- The number of tests and parameters. -/
def Tokens.weight (ts : Tokens) : Nat := ts.countP Token.weighs

/-- The lexeme stands for a test or a parameter. -/
def Lexeme.weighs (l : Lexeme) : Bool := l == .word "IS" || l.placeholder?.isSome

section

variable {d : Dialect} {env : Environment} {s : Scope} {ts us : Tokens}

/-- Tests and parameters are counted text by text. -/
@[simp] theorem Tokens.weight_append : Tokens.weight (ts ++ us) = ts.weight + us.weight :=
  List.countP_append

theorem Tokens.weight_cons (t : Token) :
    Tokens.weight (t :: ts) = ts.weight + if t.weighs then 1 else 0 := by
  rw [Tokens.weight, List.countP_cons]
  rfl

/-- Parentheses do not count. -/
@[simp] theorem Tokens.weight_parenthesizedIf (needed : Bool) :
    Tokens.weight (Tokens.parenthesizedIf needed ts) = ts.weight := by
  cases needed with
  | true =>
    show Tokens.weight (ts ++ [.word ")"]) = _
    exact weight_append
  | false => rfl

@[simp] theorem Tokens.weight_nullTest (negated : Bool) :
    Tokens.weight (ts ++ [nullTest negated]) = ts.weight + 1 := by
  rw [weight_append]
  cases negated <;> rfl

/-- Operators do not count. -/
theorem BinaryOp.weight_text (op : BinaryOp) :
    Tokens.weight (.word op.text :: ts) = ts.weight := by
  rw [Tokens.weight_cons]
  cases op <;> rfl

theorem UnaryOp.weight_text (op : UnaryOp) :
    Tokens.weight (.word op.text :: ts) = ts.weight := by
  rw [Tokens.weight_cons]
  cases op <;> rfl

/-- What counts of a token is found in what is read of it. -/
theorem Token.Written.countP_lexemes (hd : d.quoting ∈ Quoting.usual) (wf : s.WellFormed)
    {t : Token} (h : t.Written env s) :
    (t.lexemes d).countP Lexeme.weighs = if t.weighs then 1 else 0 := by
  cases h with
  | word h =>
    have hall : ∀ w ∈ Tokens.vocabulary, ∀ q ∈ Quoting.usual,
        (scan q .nothing w.toList).countP Lexeme.weighs
          = if (Token.word w).weighs then 1 else 0 := by
      decide +kernel
    exact hall _ h d.quoting hd
  | @column a owned column =>
    obtain ⟨n, hn⟩ := (wf.isAlias_of_owns owned).toList
    have hword : Lexeme.weighs (.word a) = false := by
      -- an alias begins with a small letter
      have hne : a ≠ "IS" := by
        rintro rfl
        exact absurd (List.cons.inj hn).1 (by decide)
      simp [Lexeme.weighs, Lexeme.placeholder?, hn, hne]
    rw [Environment.lexemes_column hd env (wf.isAlias_of_owns owned)]
    cases env.context.qualified with
    | true =>
      show List.countP Lexeme.weighs [.word a, .symbol ".", .name column] = 0
      rw [List.countP_cons, hword]
      rfl
    | false => rfl
  | @parameter i bound =>
    rw [Token.lexemes_parameter hd]
    simp [Lexeme.weighs, placeholder?_parameter, Token.weighs]

/-- The weight of a compiled expression can be read in its text. -/
theorem Tokens.Written.countP_lexemes (hd : d.quoting ∈ Quoting.usual) (wf : s.WellFormed)
    (h : Tokens.Written env s ts) : (Tokens.lexemes d ts).countP Lexeme.weighs = ts.weight := by
  induction ts with
  | nil => rfl
  | cons t ts ih =>
    obtain ⟨ht, hts⟩ := List.forall_mem_cons.1 h
    rw [Tokens.lexemes_cons, List.countP_append, ht.countP_lexemes hd wf, ih hts,
      Tokens.weight_cons, Nat.add_comm]

end

section

variable {env : Environment} {parent parent' : Option Expr} {e : Expr} {s s' r r' : Scope}
  {ts us : Tokens}

@[simp] theorem Tokens.weight_parameterList (first count : Nat) :
    Tokens.weight (Tokens.parameterList first count) = count := by
  have hlength := congrArg List.length (Tokens.parameters_parameterList first count)
  rw [Tokens.parameters, List.length_filterMap_eq_countP, List.length_range'] at hlength
  -- no word of the list is a test
  have hwords : ∀ w ∈ ["(", ", ", ")"], Token.weighs (.word w) = false := by decide
  refine (List.countP_congr fun t ht => ?_).trans hlength
  rcases mem_of_mem_parameterList ht with ⟨w, hw, rfl⟩ | ⟨i, -, rfl⟩
  · rw [hwords w hw]
    exact Iff.rfl
  · exact Iff.rfl

/-- A NULL weighs nothing, below conversions or not. -/
theorem Compiles.weight_of_isNullConstant (h : Compiles env parent e s ts s')
    (hnull : e.unwrapConvert.isNullConstant = true) : ts.weight = 0 := by
  induction h with
  | convert inner ih => exact ih hnull
  | null absent => rfl
  | @value parent v s present =>
    have habsent : v.isNull = true := hnull
    rw [present] at habsent
    cases habsent
  | _ => cases hnull

/-- A boolean member below a conversion is its column. -/
theorem Compiles.weight_of_isBoolean {type : ValueType}
    (h : Compiles env (some (.convert e type)) e s ts s') (hb : env.isBoolean e = true) :
    ts.weight = 0 := by
  induction e generalizing type with
  | convert arg _ ih =>
    cases h with
    | convert inner => exact ih inner hb
  | member target name _ =>
    cases h with
    | condition admitted resolved =>
      rw [isCondition_eq] at admitted
      cases admitted
    | member plain resolved => rfl
  | _ => simp [Environment.isBoolean, Mappings.memberType?, Expr.path?, Mappings.typeAt?] at hb

/-- Without its conversions it is a condition where one is admitted. -/
theorem Compiles.weight_of_isBoolean_erased (h : Compiles env parent e.erased s ts s')
    (hadmits : admitsCondition parent = true) (hb : env.isBoolean e = true) : ts.weight = 1 := by
  induction e with
  | convert arg type ih => exact ih h hb
  | member target name _ =>
    rw [← Expr.isBoolean_erased] at hb
    rw [Expr.erased] at h hb
    cases h with
    | condition admitted resolved => rfl
    | member plain resolved =>
      rw [isCondition_eq, hadmits, hb] at plain
      cases plain
  | _ => simp [Environment.isBoolean, Mappings.memberType?, Expr.path?, Mappings.typeAt?] at hb

/-- The text of an expression weighs no less without conversions, and more if one of them hid
something. -/
structure Expr.Reveals (env : Environment) (place : Bool) (e : Expr) (ts us : Tokens) : Prop where
  le : ts.weight ≤ us.weight
  lt : e.hides env place = true → ts.weight < us.weight

/-- Where nothing is hidden, the text need not weigh more. -/
theorem Expr.Reveals.of_not_hides {place : Bool} (h : ts.weight ≤ us.weight)
    (hhides : e.hides env place = false) : e.Reveals env place ts us where
  le := h
  lt hidden := by
    rw [hhides] at hidden
    cases hidden

/-- A test for NULL is one in both texts, of the same operand or of another NULL. -/
theorem Compiles.reveals_nullTest {place needed negated : Bool} {op : BinaryOp}
    {lhs rhs operand : Expr} (tested : Expr.nullTested? op lhs rhs = some operand)
    (inner : Compiles env parent operand s ts s')
    (h' : Compiles env parent' (.binary op lhs.erased rhs.erased) r us r')
    (ih : ∀ {us},
      Compiles env (some (.binary op lhs.erased rhs.erased)) operand.erased r us r' →
        operand.Reveals env op.isLogical ts us) :
    (Expr.binary op lhs rhs).Reveals env place
      (Tokens.parenthesizedIf needed ts ++ [RowMapper.nullTest negated]) us := by
  have herased := Expr.nullTested?_erased_cases tested
  cases h' with
  | @nullTest _ _ _ _ operand' _ us _ tested' inner' =>
    rcases herased with herased | ⟨hnull, other, herased, hnull'⟩
    · obtain rfl := Option.some.inj (herased.symm.trans tested')
      have hreveals := ih inner'
      refine ⟨?_, fun hhides => ?_⟩
      · simp only [Tokens.weight_nullTest, Tokens.weight_parenthesizedIf]
        exact Nat.succ_le_succ hreveals.le
      · rw [Expr.hides_binary_of_some tested] at hhides
        simp only [Tokens.weight_nullTest, Tokens.weight_parenthesizedIf]
        exact Nat.succ_lt_succ (hreveals.lt hhides)
    · -- one NULL is tested for the other in both texts
      obtain rfl := Option.some.inj (herased.symm.trans tested')
      refine .of_not_hides ?_ ?_
      · simp only [Tokens.weight_nullTest, Tokens.weight_parenthesizedIf,
          inner.weight_of_isNullConstant hnull, inner'.weight_of_isNullConstant hnull',
          Nat.le_refl]
      · rw [Expr.hides_binary_of_some tested, (Expr.of_isNullConstant hnull).2.2]
  | binary untested first second =>
    rw [untested] at herased
    rcases herased with herased | ⟨-, other, herased, -⟩
    · cases herased
    · cases herased

/-- A comparison with a NULL that a conversion hid is a test without it. Any other stays as it is
around its operands. -/
theorem Compiles.reveals_binary {place below upTo : Bool} {op : BinaryOp} {lhs rhs : Expr}
    {s₁ : Scope} {left right : Tokens} (untested : Expr.nullTested? op lhs rhs = none)
    (first : Compiles env parent lhs s left s₁) (second : Compiles env parent rhs s₁ right s')
    (h' : Compiles env parent' (.binary op lhs.erased rhs.erased) r us r')
    (ihl : ∀ {r us r'}, Compiles env (some (.binary op lhs.erased rhs.erased)) lhs.erased r us r' →
      lhs.Reveals env op.isLogical left us)
    (ihr : ∀ {r us r'}, Compiles env (some (.binary op lhs.erased rhs.erased)) rhs.erased r us r' →
      rhs.Reveals env op.isLogical right us) :
    (Expr.binary op lhs rhs).Reveals env place
      (Tokens.parenthesizedIf below left ++ .word op.text :: Tokens.parenthesizedIf upTo right)
      us := by
  cases h' with
  | @nullTest _ _ _ _ operand' _ us _ tested' inner' =>
    -- the NULL weighs nothing and the test does, so the text without conversions weighs more
    have hlt : left.weight + right.weight < us.weight + 1 := by
      obtain ⟨-, ⟨hnull, rfl⟩ | ⟨hnull, rfl⟩⟩ := Expr.nullTested?_of_erased tested'
      · rw [first.weight_of_isNullConstant hnull, Nat.zero_add]
        exact Nat.lt_succ_of_le (ihr inner').le
      · rw [second.weight_of_isNullConstant hnull, Nat.add_zero]
        exact Nat.lt_succ_of_le (ihl inner').le
    refine ⟨?_, fun _ => ?_⟩ <;>
      rw [Tokens.weight_append, BinaryOp.weight_text, Tokens.weight_parenthesizedIf,
        Tokens.weight_parenthesizedIf, Tokens.weight_nullTest, Tokens.weight_parenthesizedIf]
    · exact Nat.le_of_lt hlt
    · exact hlt
  | binary untested' first' second' =>
    have hleft := ihl first'
    have hright := ihr second'
    refine ⟨?_, fun hhides => ?_⟩ <;>
      rw [Tokens.weight_append, BinaryOp.weight_text, Tokens.weight_parenthesizedIf,
        Tokens.weight_parenthesizedIf, Tokens.weight_append, BinaryOp.weight_text,
        Tokens.weight_parenthesizedIf, Tokens.weight_parenthesizedIf]
    · exact Nat.add_le_add hleft.le hright.le
    · have hnone : Expr.nullTested? op lhs.unwrapConvert rhs.unwrapConvert = none := by
        rw [Expr.nullTested?_eq_none] at untested' ⊢
        rwa [Expr.isNullConstant_erased, Expr.isNullConstant_erased] at untested'
      rw [Expr.hides_binary, untested, hnone] at hhides
      rcases Bool.or_eq_true_iff.1 hhides with hhides | hhides
      · exact Nat.add_lt_add_of_lt_of_le (hleft.lt hhides) hright.le
      · exact Nat.add_lt_add_of_le_of_lt hleft.le (hright.lt hhides)

/-- A membership test weighs what its item does and a parameter for each value. -/
theorem Compiles.reveals_membership {place needed : Bool} {collection item : Expr}
    {vs : List Value} {first : Nat} (list : collection.unwrapConvert = .constant (.list vs))
    (filled : vs ≠ []) (h' : Compiles env parent' (.contains collection.erased item.erased) r us r')
    (ih : ∀ {r us r'},
      Compiles env (some (.contains collection.erased item.erased)) item.erased r us r' →
        item.Reveals env false ts us) :
    (Expr.contains collection item).Reveals env place
      (Tokens.parenthesizedIf needed ts ++ .word " IN " :: Tokens.parameterList first vs.length)
      us := by
  have hlist : collection.erased.unwrapConvert = .constant (.list vs) := by
    rw [Expr.unwrapConvert_erased, list]
    rfl
  cases h' with
  | nothing empty =>
    rw [hlist] at empty
    cases empty
    exact absurd rfl filled
  | @membership _ _ _ _ us r₁ ws list' _ inner' =>
    rw [hlist] at list'
    cases list'
    have hitem := ih inner'
    have hne : Expr.constant (.list vs) ≠ .constant (.list []) := by
      rintro heq
      cases heq
      exact filled rfl
    refine ⟨?_, fun hhides => ?_⟩ <;>
      simp only [Tokens.weight_append, Tokens.weight_parenthesizedIf, Tokens.weight_cons,
        Tokens.weight_parameterList]
    · exact Nat.add_le_add_right hitem.le _
    · rw [Expr.hides, list, if_neg hne] at hhides
      exact Nat.add_lt_add_right (hitem.lt hhides) _

/-- A conversion hides what its operand hides, and a boolean member from a place for conditions:
the member is its column below the conversion and a condition without it. -/
theorem Compiles.reveals_convert {arg : Expr} {type : ValueType}
    (inner : Compiles env (some (.convert arg type)) arg s ts s')
    (h' : Compiles env parent' arg.erased r us r')
    (ih : arg.Reveals env (admitsCondition parent') ts us) :
    (Expr.convert arg type).Reveals env (admitsCondition parent') ts us := by
  refine ⟨ih.le, fun hhides => ?_⟩
  rw [Expr.hides, Expr.isBoolean_unwrapConvert, Bool.or_eq_true_iff, Bool.and_eq_true] at hhides
  rcases hhides with ⟨hadmits, hb⟩ | hhides
  · rw [inner.weight_of_isBoolean hb, h'.weight_of_isBoolean_erased hadmits hb]
    exact Nat.one_pos
  · exact ih.lt (Expr.hides_of_false _ hhides)

/-- Every compiled expression reveals what its conversions hide. -/
theorem Compiles.weight_erased (h : Compiles env parent e s ts s')
    (h' : Compiles env parent' e.erased r us r')
    (hplace : ∀ target name, e = .member target name →
      admitsCondition parent = true → admitsCondition parent' = true) :
    e.Reveals env (admitsCondition parent') ts us := by
  -- along the derivation with the conversions: it has one more step for each of them
  induction h generalizing parent' r us r' with
  | @lambda parent name body s ts s' inner ih =>
    rw [Expr.erased] at h'
    generalize s.entity = entity at h'
    cases h' with
    | lambda inner' =>
      obtain ⟨hle, hlt⟩ := ih inner' fun _ _ _ _ => rfl
      exact ⟨hle, hlt⟩
  | nullTest tested inner ih =>
    rw [Expr.erased] at h'
    exact inner.reveals_nullTest tested h' fun inner' => ih inner' fun _ _ _ h => h
  | binary untested first second ihl ihr =>
    rw [Expr.erased] at h'
    exact first.reveals_binary untested second h' (fun first' => ihl first' fun _ _ _ h => h)
      fun second' => ihr second' fun _ _ _ h => h
  | unary inner ih =>
    rw [Expr.erased] at h'
    cases h' with
    | unary inner' =>
      obtain ⟨hle, hlt⟩ := ih inner' fun _ _ _ h => h
      refine ⟨?_, fun hhides => ?_⟩ <;>
        rw [UnaryOp.weight_text, UnaryOp.weight_text, Tokens.weight_parenthesizedIf,
          Tokens.weight_parenthesizedIf]
      · exact hle
      · exact hlt hhides
  | convert inner ih =>
    refine inner.reveals_convert h' (ih h' ?_)
    rintro target name rfl hadmits
    cases hadmits
  | nothing empty => exact .of_not_hides (Nat.zero_le _) (by rw [Expr.hides, empty, if_pos rfl])
  | membership list filled inner ih =>
    rw [Expr.erased] at h'
    exact Compiles.reveals_membership list filled h' fun inner' => ih inner' fun _ _ _ h => h
  | emptyList | null | row => exact .of_not_hides (Nat.zero_le _) rfl
  | list filled =>
    rw [Expr.erased] at h'
    cases h' with
    | emptyList => exact absurd rfl filled
    | list _ =>
      refine .of_not_hides (Nat.le_of_eq ?_) rfl
      rw [Tokens.weight_parameterList, Tokens.weight_parameterList]
  | key given =>
    rw [Expr.erased] at h'
    cases h' with
    | key _ => exact .of_not_hides (Nat.le_refl 1) rfl
  | value present =>
    rw [Expr.erased] at h'
    cases h' with
    | null absent =>
      rw [present] at absent
      cases absent
    | value _ => exact .of_not_hides (Nat.le_refl 1) rfl
  | @condition parent target name ref s s₁ admitted resolved =>
    rw [isCondition_eq, Bool.and_eq_true] at admitted
    refine .of_not_hides (Nat.le_of_eq ?_) rfl
    rw [h'.weight_of_isBoolean_erased (hplace target name rfl admitted.1) admitted.2]
    rfl
  | member plain resolved => exact .of_not_hides (Nat.zero_le _) rfl

end

/-! ## Whole expressions -/

/-- What conversions change in a compilation into a scope of a statement. An expression compiles
exactly if it does without its conversions, and leads to the same scope but for parameters. If no
conversion hides a NULL from a comparison or a boolean member from the place of a condition, then
all is the same; else the texts differ. -/
theorem compileInto_erased {d : Dialect} (hd : d ∈ Dialect.shipped) (mappings : Mappings)
    (context : Context) {m : TypeMapping} {s : Scope} (hs : Scope.Reached m s) (e : Expr) :
    let env := d.environment mappings context
    let compiled := e.compileInto env s
    let erased := e.erased.compileInto env s
    ((∃ ts, compiled.outcome = .ok ts) ↔ ∃ us, erased.outcome = .ok us)
      ∧ erased.scope = { compiled.scope with parameters := erased.scope.parameters }
      ∧ (e.hides env true = false →
        compiled.outcome.toOption = erased.outcome.toOption ∧ compiled.scope = erased.scope)
      ∧ ∀ ts us, compiled.outcome = .ok ts → erased.outcome = .ok us →
        (d.text ts = d.text us ↔ e.hides env true = false) := by
  intro env compiled erased
  have hr : env.Standard := Dialect.environment_standard hd mappings context
  have hquoting := Dialect.quoting_mem_usual hd
  have wf := hs.wellFormed
  -- both runs start from the same scope, so they mirror each other from the start
  have hruns : CompileM.Lockstep (Scope.Mirrors (e.hides env true = false))
      (SameIf (e.hides env true = false)) (compile env none e) (compile env none e.erased) :=
    compile_erased hr e id fun _ _ _ => ⟨id, fun _ _ => rfl⟩
  obtain ⟨houtcomes, hscopes⟩ : Outcomes (SameIf (e.hides env true = false)) compiled.outcome
        erased.outcome
      ∧ compiled.scope.Mirrors (e.hides env true = false) erased.scope :=
    hruns ⟨s, []⟩ ⟨s, []⟩ (.refl s)
  have hsame : e.hides env true = false →
      compiled.outcome.toOption = erased.outcome.toOption ∧ compiled.scope = erased.scope := by
    intro hhides
    refine ⟨?_, ?_⟩
    · generalize compiled.outcome = first at houtcomes ⊢
      generalize erased.outcome = second at houtcomes ⊢
      cases houtcomes with
      | failed cause cause' => rfl
      | returned related => rw [related hhides]
    · generalize erased.scope = last at hscopes
      obtain ⟨equal⟩ := hscopes
      rw [equal hhides]
  refine ⟨?_, Scope.ofParameters_mirrors.apart hscopes, hsame, fun ts us hts hus => ?_⟩
  · generalize compiled.outcome = first at houtcomes ⊢
    generalize erased.outcome = second at houtcomes ⊢
    cases houtcomes with
    | failed cause cause' => exact ⟨nofun, nofun⟩
    | returned related => exact ⟨fun _ => ⟨_, rfl⟩, fun _ => ⟨_, rfl⟩⟩
  · have hcompiles : Compiles env none e s ts compiled.scope := .of_compileInto hr hts
    have hcompiles' : Compiles env none e.erased s us erased.scope := .of_compileInto hr hus
    constructor
    · -- what weighs in the tokens can be read in the texts
      intro htext
      have hlexemes : Tokens.lexemes d ts = Tokens.lexemes d us := by
        rw [← (hcompiles.legible hquoting wf).lexemes_text,
          ← (hcompiles'.legible hquoting wf).lexemes_text, htext]
      have hweight : ts.weight = us.weight := by
        rw [← (hcompiles.written wf).countP_lexemes hquoting
            (Scope.Steps.wellFormed hcompiles.steps wf),
          ← (hcompiles'.written wf).countP_lexemes hquoting
            (Scope.Steps.wellFormed hcompiles'.steps wf), hlexemes]
      by_contra hhides
      have hlt := (hcompiles.weight_erased hcompiles' fun _ _ _ h => h).lt
        ((Bool.not_eq_false _).mp hhides)
      omega
    · intro hhides
      have houtcome := (hsame hhides).1
      rw [hts, hus] at houtcome
      rw [Option.some.inj houtcome]

/-- The conversions around a condition, a row and a whole predicate hide nothing. -/
theorem compileInto_erased_unledAndPaid :
    let env := Dialect.postgres.environment Company.mappings {}
    let compiled := Company.unledAndPaid.compileInto env Company.used
    let erased := Company.unledAndPaid.erased.compileInto env Company.used
    let text := "NOT (t0.\"active\" = $2 OR t2.\"name\" IS NOT NULL) AND "
      ++ "t0.\"salary\" * (t0.\"salary\" + $3) IN ($4, $5)"
    Company.unledAndPaid.erased ≠ Company.unledAndPaid
      ∧ Company.unledAndPaid.hides env true = false
      ∧ compiled.outcome.toOption.map Dialect.postgres.text = some text
      ∧ erased.outcome.toOption.map Dialect.postgres.text = some text
      ∧ compiled.scope = erased.scope := by
  intro env compiled erased text
  have hhides : Company.unledAndPaid.hides env true = false := by decide +kernel
  have htext : compiled.outcome.toOption.map Dialect.postgres.text = some text := by
    decide +kernel
  obtain ⟨-, -, hsame, -⟩ := compileInto_erased (d := .postgres) (by decide) Company.mappings {}
    Company.reached_used Company.unledAndPaid
  obtain ⟨houtcome, hscope⟩ := hsame hhides
  exact ⟨by decide +kernel, hhides, htext, houtcome ▸ htext, hscope⟩

/-- A boolean member below a conversion is no condition. -/
theorem converted_member_is_no_condition :
    let env := Dialect.generic.environment Company.mappings {}
    let new := Scope.ofMapping (Company.mapping Company.employee)
    let active := Expr.lambda Company.someone
      (.convert (.member Company.someone "active") (.of .boolean))
    let compiled := active.compileInto env new
    let erased := active.erased.compileInto env new
    compiled.outcome.toOption.map Dialect.generic.text = some "t0.\"active\""
      ∧ compiled.scope.parameters = []
      ∧ erased.outcome.toOption.map Dialect.generic.text = some "t0.\"active\" = @p0"
      ∧ erased.scope.parameters = [.of (.boolean true)] := by
  decide +kernel

end RowMapper
