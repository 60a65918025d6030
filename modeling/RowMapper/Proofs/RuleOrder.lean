import Mathlib.Data.List.Basic
import RowMapper.Proofs.CompileEquations
import RowMapper.Sample.Company

/-!
# The order of the rules

The first rule of a table that accepts a node compiles it, so that the order of two rules matters
where both accept a node, and nowhere else. A comparison with NULL is also a binary node, and a
boolean member that stands for a condition is also a member of the row or of a foreign object;
no other node has two rules. A table of the standard rules in any order that puts the rule for
the special case first compiles every expression as the standard one does, and no other order of
them does.

* `Rule.eq_or_overrides` is the overlap of the rules, from one case for each shape of a node.
* `find?_reordered` takes it to the rule that is chosen.
* `ordered_iff_same_compilations` is the result, over all expressions, mappings and scopes.
-/

namespace RowMapper

/-! ## First matches -/

/-- What is found first is what stands first among all that could be found. -/
theorem find?_eq_some_iff_idxOf {α : Type} [DecidableEq α] {p : α → Bool} {xs : List α}
    {a : α} :
    xs.find? p = some a ↔
      a ∈ xs ∧ p a = true ∧ ∀ b ∈ xs, p b = true → xs.idxOf a ≤ xs.idxOf b := by
  induction xs with
  | nil => simp
  | cons x xs ih =>
    by_cases hx : p x = true
    · rw [List.find?_cons_of_pos hx]
      constructor
      · rintro ⟨⟩
        refine ⟨List.mem_cons_self, hx, fun b _ _ => ?_⟩
        rw [List.idxOf_cons_self]
        exact Nat.zero_le _
      · rintro ⟨-, -, hfirst⟩
        have hzero := hfirst x List.mem_cons_self hx
        rw [List.idxOf_cons_self, Nat.le_zero] at hzero
        by_cases hax : x = a
        · rw [hax]
        · rw [List.idxOf_cons_ne _ hax] at hzero
          omega
    · rw [List.find?_cons_of_neg hx, ih]
      -- the head is not found, so that it shifts every position by one
      have hne {b : α} (hb : p b = true) : x ≠ b := fun h => hx (h ▸ hb)
      constructor
      · rintro ⟨ha, hpa, hfirst⟩
        refine ⟨List.mem_cons_of_mem x ha, hpa, fun b hb hpb => ?_⟩
        rw [List.idxOf_cons_ne _ (hne hpa), List.idxOf_cons_ne _ (hne hpb)]
        exact Nat.succ_le_succ (hfirst b ((List.mem_cons.1 hb).resolve_left (hne hpb).symm) hpb)
      · rintro ⟨ha, hpa, hfirst⟩
        refine ⟨(List.mem_cons.1 ha).resolve_left (hne hpa).symm, hpa, fun b hb hpb => ?_⟩
        have hle := hfirst b (List.mem_cons_of_mem x hb) hpb
        rw [List.idxOf_cons_ne _ (hne hpa), List.idxOf_cons_ne _ (hne hpb)] at hle
        exact Nat.le_of_succ_le_succ hle

/-! ## Rules that accept the same node -/

namespace Rule

/-- The first rule is made for special cases of the second. -/
def overrides : Rule → Rule → Bool
  | .nullComparison, .binary | .booleanMember, .foreignMember | .booleanMember, .entityMember
  | .lowerLike, .binary => true
  | _, _ => false

/-- The rules whose shape a node has, the most special first. -/
def shaped : Expr → List Rule
  | .lambda _ _ => [.lambda]
  | .parameter _ _ => [.parameter]
  | .member target _ =>
    match target.unwrapConvert with
    | .member _ _ => [.booleanMember, .foreignMember]
    | .parameter _ _ => [.booleanMember, .entityMember]
    | _ => [.booleanMember]
  | .constant (.value _) => [.constant]
  | .constant (.list _) => [.collectionConstant]
  | .constant (.entity _ _) => [.entityConstant]
  | .unary _ _ => [.unary]
  | .binary op _ _ => if op = .like then [.lowerLike, .binary] else [.nullComparison, .binary]
  | .convert _ _ => [.convert]
  | .contains _ _ => [.membership]

/-- A rule accepts only nodes of its shape. -/
theorem mem_shaped {env : Environment} {parent : Option Expr} {node : Expr} {r : Rule}
    (hr : r.accepts env parent node = true) : r ∈ shaped node := by
  cases node with
  | lambda | parameter | unary | convert | contains =>
    cases r <;> first | exact List.mem_singleton.2 rfl | exact absurd hr Bool.false_ne_true
  | constant c =>
    cases c <;> cases r <;>
      first | exact List.mem_singleton.2 rfl | exact absurd hr Bool.false_ne_true
  | member target name =>
    cases r <;> try exact absurd hr Bool.false_ne_true
    -- the rules for members tell them apart by what their target converts
    all_goals cases ht : target.unwrapConvert <;> simp_all [shaped, accepts]
  | binary op lhs rhs =>
    cases r <;> try exact absurd hr Bool.false_ne_true
    all_goals cases op <;> simp_all [shaped, accepts]

/-- Of two rules of one shape, one is made for special cases of the other. -/
theorem eq_or_overrides_of_shaped {node : Expr} {r s : Rule} (hr : r ∈ shaped node)
    (hs : s ∈ shaped node) : r = s ∨ r.overrides s = true ∨ s.overrides r = true := by
  have hpairs : ∀ rules ∈ [[lambda], [parameter], [booleanMember, foreignMember],
      [booleanMember, entityMember], [booleanMember], [constant], [collectionConstant],
      [entityConstant], [unary], [lowerLike, binary], [nullComparison, binary], [convert],
      [membership]], ∀ r ∈ rules, ∀ s ∈ rules,
        r = s ∨ r.overrides s = true ∨ s.overrides r = true := by
    decide
  refine hpairs (shaped node) ?_ r hr s hs
  unfold shaped
  split <;> (try split) <;> decide

/-- Two rules that accept a node are the same, or one is made for special cases of the other. -/
theorem eq_or_overrides {env : Environment} {parent : Option Expr} {node : Expr} {r s : Rule}
    (hr : r.accepts env parent node = true) (hs : s.accepts env parent node = true) :
    r = s ∨ r.overrides s = true ∨ s.overrides r = true :=
  eq_or_overrides_of_shaped (mem_shaped hr) (mem_shaped hs)

/-- A table in which the rules for special cases stand before those they override. -/
structure Ordered (rules : List Rule) : Prop where
  nullComparison_binary : rules.idxOf .nullComparison < rules.idxOf .binary
  booleanMember_foreignMember : rules.idxOf .booleanMember < rules.idxOf .foreignMember
  booleanMember_entityMember : rules.idxOf .booleanMember < rules.idxOf .entityMember

/-- Among the standard rules these are all that override another. -/
theorem Ordered.lt_of_overrides {rules : List Rule} (h : Ordered rules) {r s : Rule}
    (hr : r ∈ standard) (hrs : r.overrides s = true) : rules.idxOf r < rules.idxOf s := by
  cases r <;> cases s <;> try exact absurd hrs Bool.false_ne_true
  case nullComparison.binary => exact h.nullComparison_binary
  case booleanMember.foreignMember => exact h.booleanMember_foreignMember
  case booleanMember.entityMember => exact h.booleanMember_entityMember
  case lowerLike.binary => exact absurd hr (by decide)

theorem ordered_standard : Ordered standard := ⟨by decide, by decide, by decide⟩

section Reordered

variable {env : Environment} {parent : Option Expr} {node : Expr} {rules : List Rule}

/-- Ordered tables of the same rules find the same rule for a node. -/
theorem find?_reordered (hperm : rules.Perm standard) (h : Ordered rules) :
    rules.find? (·.accepts env parent node) = standard.find? (·.accepts env parent node) := by
  cases hfound : standard.find? (·.accepts env parent node) with
  | none =>
    rw [List.find?_eq_none] at hfound ⊢
    exact fun r hr => hfound r (hperm.mem_iff.1 hr)
  | some r =>
    obtain ⟨hr, haccepts, hfirst⟩ := find?_eq_some_iff_idxOf.1 hfound
    refine find?_eq_some_iff_idxOf.2 ⟨hperm.mem_iff.2 hr, haccepts, fun s hs hs' => ?_⟩
    rcases eq_or_overrides haccepts hs' with rfl | hrs | hsr
    · exact Nat.le_refl _
    · exact Nat.le_of_lt (h.lt_of_overrides hr hrs)
    · -- what overrides the rule stands before it in the standard table, and was not found
      have hstandard := hperm.mem_iff.1 hs
      have hlt := ordered_standard.lt_of_overrides hstandard hsr
      exact absurd (hfirst s hstandard hs') (Nat.not_le_of_lt hlt)

/-- A rule that accepts a node is found if it stands before the others of the node's shape. -/
theorem find?_of_first (hperm : rules.Perm standard) {r : Rule} (hr : r ∈ standard)
    (haccepts : r.accepts env parent node = true)
    (hfirst : ∀ s ∈ shaped node, s ∈ standard → rules.idxOf r ≤ rules.idxOf s) :
    rules.find? (·.accepts env parent node) = some r :=
  find?_eq_some_iff_idxOf.2 ⟨hperm.mem_iff.2 hr, haccepts, fun s hs hs' =>
    hfirst s (mem_shaped hs') (hperm.mem_iff.1 hs)⟩

end Reordered

end Rule

/-! ## Compilations -/

/-- The environment with a table of rules, without probes. -/
def Environment.withRules (env : Environment) (rules : List Rule) : Environment :=
  { env with rules := rules.map .rule }

theorem Environment.withRules_answersAlike (env : Environment) (rules rules' : List Rule) :
    (env.withRules rules).AnswersAlike (env.withRules rules') := ⟨rfl, rfl, fun _ => rfl⟩

/-- Ordered tables of the standard rules compile every node alike. -/
theorem compile_reordered {rules : List Rule} (hperm : rules.Perm Rule.standard)
    (h : Rule.Ordered rules) (env : Environment) (parent : Option Expr) (e : Expr) :
    compile (env.withRules rules) parent e = compile (env.withRules Rule.standard) parent e := by
  have halike := env.withRules_answersAlike Rule.standard rules
  refine halike.compile (fun parent node => ?_) parent e
  rw [chooseRule_rules rfl, chooseRule_rules rfl]
  simp only [halike.accepts]
  rw [Rule.find?_reordered hperm h]

/-- The tables compile every expression alike: the tokens or the failure, and the scope with its
parameters, joins and bindings are the same, whatever the mappings, the strategies for keys and the
context are. -/
def Rule.SameCompilations (rules rules' : List Rule) : Prop :=
  ∀ (e : Expr) (env : Environment) (scope : Scope),
    e.compileInto (env.withRules rules) scope = e.compileInto (env.withRules rules') scope

/-! ## Orders that show -/

namespace Company

/-- A filter over the company, without strategies for keys. -/
def filtering : Environment := { strategies := {}, mappings }

/-- The scope of a statement over employees. -/
def employeeScope : Scope := .ofMapping (mapping employee)

end Company

section Needed

variable {rules : List Rule} (hperm : rules.Perm Rule.standard)
  (hsame : Rule.SameCompilations rules Rule.standard)
include hperm

/-- Under any order a NULL is written as it is. -/
theorem compile_null (env : Environment) (parent : Option Expr) :
    compile (env.withRules rules) parent (.constant (.value .untyped)) = pure [.null] := by
  have hfound : rules.find? (·.accepts (env.withRules rules) parent
      (.constant (.value .untyped))) = some .constant := by
    refine Rule.find?_of_first hperm (by decide) rfl ?_
    intro s hs _
    have hs : s = .constant := List.mem_singleton.1 hs
    exact hs ▸ Nat.le_refl _
  rw [compile_eq, chooseRule_rules rfl, hfound]
  rfl

include hsame

/-- NULL = NULL shows whether a comparison with NULL is compiled as other operations are. -/
theorem nullComparison_lt_binary : rules.idxOf .nullComparison < rules.idxOf .binary := by
  by_contra hlt
  let null : Expr := .constant (.value .untyped)
  let env := Company.filtering
  have hfound : rules.find? (·.accepts (env.withRules rules) none (.binary .equal null null))
      = some .binary := by
    refine Rule.find?_of_first hperm (by decide) rfl ?_
    intro s hs _
    rcases List.mem_pair.1 hs with rfl | rfl
    · exact Nat.le_of_not_lt hlt
    · exact Nat.le_refl _
  have hoperation : (Expr.binary .equal null null).compileInto (env.withRules rules)
      Company.employeeScope = ⟨.ok [.null, .word " = ", .null], Company.employeeScope, []⟩ := by
    unfold Expr.compileInto
    rw [compile_eq, chooseRule_rules rfl, hfound]
    simp only [pure_bind, null, compile_null hperm]
    rfl
  have htest : (Expr.binary .equal null null).compileInto (env.withRules Rule.standard)
      Company.employeeScope = ⟨.ok [.null, .word " IS NULL"], Company.employeeScope, []⟩ := by
    have htested : Expr.nullTested? .equal null null = some null := rfl
    unfold Expr.compileInto
    rw [compile_binary (show (env.withRules Rule.standard).Standard from rfl), htested]
    simp only [pure_bind, null, compile_null (List.Perm.refl _)]
    rfl
  rw [hsame, htest] at hoperation
  have hlength : some 2 = some 3 :=
    congrArg (·.outcome.toOption.map List.length) hoperation
  exact absurd hlength (by decide)

/-- A boolean member shows whether it is compiled as other members are, to a column without a
comparison. -/
theorem booleanMember_lt {s : Rule} (target : Expr) (name : String)
    (hs : s = .foreignMember ∨ s = .entityMember)
    (hshape : Rule.shaped (.member target name) = [.booleanMember, s])
    (haccepts : s.accepts Company.filtering none (.member target name) = true)
    (hcolumn : ((memberTokens Company.filtering (.member target name)).run.run
      ⟨Company.employeeScope, []⟩).1.toOption.map List.length = some 1)
    (hcondition : ((Expr.member target name).compileInto (Company.filtering.withRules Rule.standard)
      Company.employeeScope).outcome.toOption.map List.length = some 3) :
    rules.idxOf .booleanMember < rules.idxOf s := by
  by_contra hlt
  let env := Company.filtering
  have halike : env.AnswersAlike (env.withRules rules) := ⟨rfl, rfl, fun _ => rfl⟩
  -- only these two rules accept the member, so the other one would be the first
  have hfound : rules.find? (·.accepts (env.withRules rules) none (.member target name))
      = some s := by
    refine Rule.find?_of_first hperm (by rcases hs with rfl | rfl <;> decide)
      ((halike.accepts ..).trans haccepts) ?_
    intro q hq _
    rw [hshape] at hq
    rcases List.mem_pair.1 hq with rfl | rfl
    · exact Nat.le_of_not_lt hlt
    · exact Nat.le_refl _
  have hcompile : compile (env.withRules rules) none (.member target name)
      = memberTokens env (.member target name) := by
    rw [compile_eq, chooseRule_rules rfl, hfound]
    rcases hs with rfl | rfl <;> exact halike.memberTokens _
  -- then a column is compiled, where the standard table compiles a condition
  rw [← hsame] at hcondition
  unfold Expr.compileInto at hcondition
  rw [hcompile] at hcondition
  have hlength : some 1 = some 3 := hcolumn.symm.trans hcondition
  exact absurd hlength (by decide)

end Needed

/-- A table of the standard rules, in whatever order, compiles every expression as the standard
table does if and only if it is ordered: the null comparison before the binary operation, and the
boolean member before the member of a foreign object and the member of the row. -/
theorem ordered_iff_same_compilations {rules : List Rule} (hperm : rules.Perm Rule.standard) :
    Rule.Ordered rules ↔ Rule.SameCompilations rules Rule.standard := by
  constructor
  · intro h e env scope
    unfold Expr.compileInto
    rw [compile_reordered hperm h]
  · intro hsame
    let row : Expr := .parameter "x" Company.employee
    have hforeign : rules.idxOf .booleanMember < rules.idxOf .foreignMember :=
      booleanMember_lt hperm hsame (.member row "mentor") "active" (.inl rfl) rfl rfl
        (by decide +kernel) (by decide +kernel)
    have hentity : rules.idxOf .booleanMember < rules.idxOf .entityMember :=
      booleanMember_lt hperm hsame row "active" (.inr rfl) rfl rfl
        (by decide +kernel) (by decide +kernel)
    exact ⟨nullComparison_lt_binary hperm hsame, hforeign, hentity⟩

/-- The standard table backwards but for the three pairs, and the standard table backwards. -/
theorem ordered_iff_same_compilations_backwards :
    let kept : List Rule := [.nullComparison, .binary, .unary, .convert, .parameter,
      .booleanMember, .entityMember, .foreignMember, .constant, .entityConstant,
      .collectionConstant, .membership, .lambda]
    kept.Perm Rule.standard ∧ Rule.SameCompilations kept Rule.standard
      ∧ Rule.standard.reverse.Perm Rule.standard
      ∧ ¬Rule.SameCompilations Rule.standard.reverse Rule.standard := by
  intro kept
  have hkept : kept.Perm Rule.standard := by decide
  have hreverse : Rule.standard.reverse.Perm Rule.standard := by decide
  have hordered : Rule.Ordered kept := ⟨by decide, by decide, by decide⟩
  have hlast : ¬Rule.Ordered Rule.standard.reverse := fun h =>
    absurd h.nullComparison_binary (by decide)
  exact ⟨hkept, (ordered_iff_same_compilations hkept).1 hordered, hreverse,
    fun hsame => hlast ((ordered_iff_same_compilations hreverse).2 hsame)⟩

end RowMapper
