import RowMapper.Proofs.Derivation

/-!
# Routines of rules

A rule that was chosen for a node takes steps of its own and has children of the node visited in
between. Said as data, that is a routine: the recursion of the compiler is then in one place, the
visit, and what a rule does can be stopped at each visit and gone on with afterwards. What all
rules have in common is said of their routines, once, and no proof about a table has to follow the
rules again.

* `Expr.children` are the nodes directly below a node, with the induction along them.
* `CompileM.Quiet` is said of steps that have nothing to do with what probes note, and
  `CompileM.Coincide` compares compilations apart from it.
* `Rule.routine` is what each rule does with a node of whatever shape, and `Rule.routine_proper`
  what they have in common: they visit children only, and their own steps are quiet.
* `compile_eq_run` says that the compiler runs the routine of the rule that it chooses.
* `compileInto_insert` follows from both: an entry that accepts nothing changes no outcome.
-/

namespace RowMapper

/-! ## Children -/

/-- The nodes directly below a node. -/
def Expr.children : Expr → List Expr
  | .lambda row body => [row, body]
  | .parameter _ _ | .constant _ => []
  | .member target _ => [target]
  | .unary _ arg | .convert arg _ => [arg]
  | .binary _ lhs rhs => [lhs, rhs]
  | .contains collection item => [collection, item]

/-- What holds of a node if it holds of its children holds of every node. -/
theorem Expr.forall_of_children {P : Expr → Prop}
    (h : ∀ node, (∀ child ∈ node.children, P child) → P node) (e : Expr) : P e := by
  induction e with
  | parameter | constant => exact h _ fun _ hchild => absurd hchild List.not_mem_nil
  | member _ _ ih | unary _ _ ih | convert _ _ ih => exact h _ (List.forall_mem_singleton.2 ih)
  | lambda _ _ ihl ihr | binary _ _ _ ihl ihr | contains _ _ ihl ihr =>
    exact h _ (List.forall_mem_cons.2 ⟨ihl, List.forall_mem_singleton.2 ihr⟩)

/-! ## Compilations apart from questions -/

namespace CompileM

/-- The steps neither look at what probes noted nor add to it. -/
def Quiet (x : CompileM α) : Prop :=
  ∀ (s : Scope) (questions : List Question), x.runFrom ⟨s, questions⟩
    = ((x.runFrom ⟨s, []⟩).1, ⟨(x.runFrom ⟨s, []⟩).2.scope, questions⟩)

/-- From the same scope the compilations have the same outcome and lead to the same scope, whatever
probes noted before. -/
def Coincide (x y : CompileM α) : Prop :=
  ∀ c c' : Compilation, c.scope = c'.scope →
    (x.runFrom c).1 = (y.runFrom c').1 ∧ (x.runFrom c).2.scope = (y.runFrom c').2.scope

section Steps

variable {α β : Type}

theorem Coincide.reject (defect : Defect) (node : Expr) :
    Coincide (reject defect node : CompileM α) (reject defect node) :=
  fun _ _ hscope => ⟨rfl, hscope⟩

theorem Coincide.bind {x y : CompileM α} {f g : α → CompileM β} (hxy : Coincide x y)
    (hfg : ∀ a, Coincide (f a) (g a)) : Coincide (x >>= f) (y >>= g) := by
  intro c c' hscope
  obtain ⟨houtcome, hafter⟩ := hxy c c' hscope
  rw [runFrom_bind, runFrom_bind]
  generalize x.runFrom c = first at houtcome hafter ⊢
  generalize y.runFrom c' = second at houtcome hafter ⊢
  obtain ⟨outcome, c₁⟩ := first
  obtain ⟨_, c₁'⟩ := second
  cases houtcome
  -- what comes next starts from the same scope
  cases outcome with
  | error cause => exact ⟨rfl, hafter⟩
  | ok a => exact hfg a c₁ c₁' hafter

/-- A compilation that asks nothing coincides with itself, whatever was asked before. -/
theorem Quiet.coincide {x : CompileM α} (h : x.Quiet) : Coincide x x := by
  rintro ⟨s, questions⟩ ⟨_, questions'⟩ ⟨rfl⟩
  rw [h s questions, h s questions']
  exact ⟨rfl, rfl⟩

/-- No question is added. -/
theorem Quiet.questions {x : CompileM α} (h : x.Quiet) (c : Compilation) :
    (x.runFrom c).2.questions = c.questions := by
  rw [h c.scope c.questions]

/-! ### Steps that are quiet -/

theorem Quiet.pure (a : α) : (Pure.pure a : CompileM α).Quiet := fun _ _ => rfl

theorem Quiet.reject (defect : Defect) (node : Expr) :
    (CompileM.reject defect node : CompileM α).Quiet := fun _ _ => rfl

theorem Quiet.bind {x : CompileM α} {f : α → CompileM β} (hx : x.Quiet) (hf : ∀ a, (f a).Quiet) :
    (x >>= f).Quiet := by
  intro s questions
  rw [runFrom_bind, runFrom_bind, hx s questions]
  obtain ⟨outcome, s₁, questions₁⟩ := x.runFrom ⟨s, []⟩
  cases outcome with
  | error cause => rfl
  | ok a =>
    dsimp only
    rw [hf a s₁ questions, hf a s₁ questions₁]

theorem Quiet.scope : CompileM.scope.Quiet := fun _ _ => rfl

/-- The mapping of a type is no question to a rule. -/
theorem Quiet.mapping (env : Environment) (entity : EntityType) : (env.mapping entity).Quiet := by
  unfold Environment.mapping
  cases env.mappings entity with
  | ok m => exact .pure m
  | error cause => exact fun _ _ => rfl

theorem Quiet.addParameter (v : Value) : (CompileM.addParameter v).Quiet := fun _ _ => rfl

/-- Joins are made without a question to a rule. -/
theorem Quiet.requireJoin (path table leftAlias leftColumn rightColumn : String) :
    (CompileM.requireJoin path table leftAlias leftColumn rightColumn).Quiet := fun _ _ => rfl

theorem Quiet.bindName (name tableAlias : String) : (CompileM.bindName name tableAlias).Quiet :=
  fun _ _ => rfl

/-! ### Members and rows -/

/-- Rows are found by their names alone. -/
theorem Quiet.parameterAlias (name : String) (entity : EntityType) :
    (RowMapper.parameterAlias name entity).Quiet := by
  refine .bind .scope fun s => ?_
  split
  · exact .pure _
  · split
    · exact .pure _
    · exact .reject _ _

variable (env : Environment) (node : Expr)

/-- So are members, along any chain. -/
theorem Quiet.follow (tableAlias navigation : String) (entity : EntityType)
    (members : List String) :
    (RowMapper.follow env node tableAlias navigation entity members).Quiet := by
  induction members generalizing tableAlias navigation entity with
  | nil => exact .reject _ _
  | cons segment rest ih =>
    -- the equations of the walk tell its last member from the others
    cases rest with
    | nil =>
      rw [RowMapper.follow]
      refine .bind (.mapping env entity) fun m => ?_
      split
      · exact .pure _
      · exact .pure _
      · exact .reject _ _
      · exact .reject _ _
    | cons next rest =>
      rw [RowMapper.follow]
      · refine .bind (.mapping env entity) fun m => ?_
        split
        · split
          · exact .pure _
          · exact .bind (.requireJoin _ _ _ _ _) fun joined => ih _ _ _
        · exact .reject _ _
      · simp

/-- An access asks nothing. -/
theorem Quiet.resolveAccess : (RowMapper.resolveAccess env node).Quiet := by
  unfold RowMapper.resolveAccess
  split
  · exact .reject _ _
  · split
    · exact .reject _ _
    · exact .bind (.parameterAlias _ _) fun rowAlias => .follow env node _ _ _ _

/-- A member is written by one rule, which asks no other. -/
theorem Quiet.memberTokens : (RowMapper.memberTokens env node).Quiet :=
  .bind (.resolveAccess env node) fun _ => .pure _

/-- So is a boolean member. -/
theorem Quiet.conditionTokens : (RowMapper.conditionTokens env node).Quiet :=
  .bind (.resolveAccess env node) fun _ => .bind (.addParameter _) fun _ => .pure _

theorem Quiet.rowTokens (name : String) (entity : EntityType) :
    (RowMapper.rowTokens env name entity).Quiet := by
  refine .bind (.parameterAlias name entity) fun rowAlias => .bind (.mapping env entity) fun m => ?_
  split
  · exact .pure _
  · exact .reject _ _

/-! ### Values -/

theorem Quiet.addParameters (vs : List Value) : (RowMapper.addParameters vs).Quiet := by
  induction vs with
  | nil => exact .pure _
  | cons v vs ih => exact .bind (.addParameter v) fun _ => .bind ih fun _ => .pure _

theorem Quiet.listTokens (vs : List Value) : (RowMapper.listTokens vs).Quiet := by
  unfold RowMapper.listTokens
  split
  · exact .pure _
  · exact .bind (.addParameters vs) fun _ => .pure _

/-- Constants ask nothing. -/
theorem Quiet.valueTokens (v : Value) : (RowMapper.valueTokens v).Quiet := by
  unfold RowMapper.valueTokens
  split
  · exact .pure _
  · exact .bind (.addParameter v) fun _ => .pure _

theorem Quiet.keyTokens (keys : List Value) :
    (RowMapper.keyTokens env node keys).Quiet := by
  unfold RowMapper.keyTokens
  split
  · split
    · exact .reject _ _
    · exact .bind (.addParameter _) fun _ => .pure _
  · exact .reject _ _

end Steps

end CompileM

/-! ## Routines -/

/-- What is to be done about a node. -/
inductive Routine where
  /-- Steps of its own are all. -/
  | finish (steps : CompileM Tokens)
  /-- A node is visited after steps of its own; its tokens decide how to go on. -/
  | visit (before : CompileM Unit) (child : Expr) (next : Tokens → Routine)

namespace Routine

/-- A node is visited at once. -/
def visiting (child : Expr) (next : Tokens → Routine) : Routine := .visit (pure ()) child next

/-- Does it, with the given way to visit a node. -/
def run (visit : Expr → CompileM Tokens) : Routine → CompileM Tokens
  | .finish steps => steps
  | .visit before child next => do
    before
    let tokens ← visit child
    (next tokens).run visit

/-- A routine that visits a child compiles it and goes on with its tokens. -/
theorem run_visiting (visit : Expr → CompileM Tokens) (child : Expr) (next : Tokens → Routine) :
    (visiting child next).run visit = (do
      let tokens ← visit child
      (next tokens).run visit) :=
  pure_bind _ _

/-- The routine visits what is directly below the node and nothing else, and its own steps have
nothing to do with what probes note. -/
inductive Proper (node : Expr) : Routine → Prop where
  | finish {steps : CompileM Tokens} (own : steps.Quiet) : Proper node (.finish steps)
  | visit {before : CompileM Unit} {child : Expr} {next : Tokens → Routine}
      (below : child ∈ node.children) (own : before.Quiet)
      (onward : ∀ tokens, Proper node (next tokens)) : Proper node (.visit before child next)

/-- A routine may visit children of its node. -/
theorem Proper.visiting {node child : Expr} {next : Tokens → Routine}
    (below : child ∈ node.children) (onward : ∀ tokens, Proper node (next tokens)) :
    Proper node (Routine.visiting child next) :=
  .visit below (.pure ()) onward

/-- Visits of the children that coincide make runs that coincide. -/
theorem Proper.run {node : Expr} {visit visit' : Expr → CompileM Tokens} {r : Routine}
    (h : r.Proper node) (hvisit : ∀ child ∈ node.children, (visit' child).Coincide (visit child)) :
    (r.run visit').Coincide (r.run visit) := by
  induction h with
  | finish own => exact own.coincide
  | visit below own _ ih =>
    exact own.coincide.bind fun _ => .bind (hvisit _ below) fun tokens => ih tokens

end Routine

/-- Lets a name stand for the rows of the statement. -/
def bindRow (node : Expr) (name : String) (entity : EntityType) : CompileM Unit := do
  let scope ← CompileM.scope
  if entity = scope.entity then CompileM.bindName name scope.tableAlias
  else CompileM.reject (.lambdaEntity entity scope.entity) node

/-- The row of a lambda is bound without a question. -/
theorem CompileM.Quiet.bindRow (node : Expr) (name : String) (entity : EntityType) :
    (RowMapper.bindRow node name entity).Quiet := by
  refine .bind .scope fun s => ?_
  split
  · exact .bindName _ _
  · exact .reject _ _

/-- What the rule does with a node. -/
def Rule.routine (env : Environment) (node : Expr) (rule : Rule) : Routine :=
  match rule, node with
  | .lambda, .lambda (.parameter name entity) body =>
    .visit (bindRow node name entity) body fun tokens => .finish (pure tokens)
  | .lambda, .lambda _ _ => .finish (CompileM.reject .lambdaParameter node)
  | .nullComparison, .binary op lhs rhs =>
    let tested := if lhs.isNullConstant then rhs else lhs
    .visiting tested fun operand => .finish <| pure <|
      Tokens.parenthesizedIf (tested.bindsUpTo BinaryOp.equal.precedence) operand
        ++ [.word (if op = .notEqual then " IS NOT NULL" else " IS NULL")]
  | .membership, .contains collection item =>
    if collection.unwrapConvert = .constant (.list []) then .finish (pure [.word "1 = 0"])
    else
      .visiting item fun member => .visiting collection fun items => .finish <| pure <|
        Tokens.parenthesizedIf (item.bindsUpTo BinaryOp.equal.precedence) member
          ++ .word " IN " :: items
  | .collectionConstant, .constant (.list values) => .finish (listTokens values)
  | .entityConstant, .constant (.entity _ keys) => .finish (keyTokens env node keys)
  | .booleanMember, _ => .finish (conditionTokens env node)
  | .constant, .constant (.value v) => .finish (valueTokens v)
  | .foreignMember, _ | .entityMember, _ => .finish (memberTokens env node)
  | .parameter, .parameter name entity => .finish (rowTokens env name entity)
  | .convert, .convert arg _ => .visiting arg fun tokens => .finish (pure tokens)
  | .unary, .unary op arg =>
    .visiting arg fun operand => .finish <| pure <|
      .word op.text :: Tokens.parenthesizedIf (arg.bindsUpTo op.precedence) operand
  | .binary, .binary op lhs rhs =>
    .visiting lhs fun left => .visiting rhs fun right => .finish <| pure <|
      Tokens.parenthesizedIf (lhs.bindsBelow op.precedence) left
        ++ .word op.text :: Tokens.parenthesizedIf (rhs.bindsUpTo op.precedence) right
  | .lowerLike, .binary _ lhs rhs =>
    .visiting lhs fun left => .visiting rhs fun right => .finish <| pure <|
      .word "LOWER(" :: left ++ .word ") LIKE LOWER(" :: right ++ [.word ")"]
  | _, _ => .finish (CompileM.reject (.shape rule) node)

/-- What the choice of a rule makes of a node. -/
def Expr.routine (env : Environment) (node : Expr) : Option Rule → Routine
  | some rule => rule.routine env node
  | none => .finish (CompileM.reject .noRule node)

/-- Every rule is proper, whatever the shape of the node. -/
theorem Rule.routine_proper (env : Environment) (node : Expr) (rule : Rule) :
    (rule.routine env node).Proper node := by
  fun_cases Rule.routine env node rule with
  | case1 name entity body =>
    exact .visit (by simp [Expr.children]) (.bindRow _ name entity) fun _ => .finish (.pure _)
  | case3 op lhs rhs tested =>
    have htested : tested ∈ (Expr.binary op lhs rhs).children := by
      unfold tested
      split <;> simp [Expr.children]
    exact .visiting htested fun _ => .finish (.pure _)
  -- a membership visits both of its sides, unless the list is empty
  | case4 => exact .finish (.pure _)
  | case5 | case15 | case16 =>
    exact .visiting (by simp [Expr.children]) fun _ =>
      .visiting (by simp [Expr.children]) fun _ => .finish (.pure _)
  | case13 | case14 => exact .visiting (by simp [Expr.children]) fun _ => .finish (.pure _)
  -- the others take steps of their own only
  | case6 values => exact .finish (.listTokens values)
  | case7 entity keys => exact .finish (.keyTokens env _ keys)
  | case8 => exact .finish (.conditionTokens env node)
  | case9 v => exact .finish (.valueTokens v)
  | case10 | case11 => exact .finish (.memberTokens env node)
  | case12 name entity => exact .finish (.rowTokens env name entity)
  | case2 | case17 => exact .finish (.reject _ _)

/-- The compiler runs the routine of the rule that it chooses, and visits by compiling below the
node. -/
theorem compile_eq_run (env : Environment) (parent : Option Expr) (node : Expr) :
    compile env parent node = (do
      let chosen ← chooseRule env parent node
      (node.routine env chosen).run (compile env (some node))) := by
  rw [compile_eq]
  refine congrArg (chooseRule env parent _ >>= ·) (funext fun chosen => ?_)
  rcases chosen with _ | rule
  · rfl
  cases rule
  case lambda =>
    cases node with
    | lambda row body =>
      cases row with
      | parameter name entity =>
        show _ = bindRow _ name entity >>= fun _ => (compile env _ body >>= pure)
        rw [bind_pure, bindRow, bind_assoc]
        refine congrArg (CompileM.scope >>= ·) (funext fun scope => ?_)
        -- a row of another type ends the visit before it begins
        split <;> rfl
      | _ => rfl
    | _ => rfl
  case nullComparison =>
    cases node with
    | binary op lhs rhs =>
      show _ = (Routine.visiting _ _).run _
      rw [Routine.run_visiting]
      dsimp only
      split <;> rfl
    | _ => rfl
  case membership =>
    cases node with
    | contains collection item =>
      show _ = (ite (collection.unwrapConvert = _) _ _ : Routine).run _
      dsimp only
      split <;> rfl
    | _ => rfl
  case convert =>
    cases node with
    | convert arg type => exact (bind_pure _).symm
    | _ => rfl
  case collectionConstant | entityConstant | constant =>
    cases node with
    | constant c => cases c <;> rfl
    | _ => rfl
  case booleanMember | foreignMember | entityMember => rfl
  all_goals cases node <;> rfl

/-! ## The choice of a rule -/

namespace RuleEntry

/-- The rule with which the entry answers for a node. -/
def answer? (env : Environment) (parent : Option Expr) (node : Expr) (entry : RuleEntry) :
    Option Rule :=
  if entry.accepts env parent node then entry.rule? else none

/-- The rule of the first of the entries that accepts the node. -/
def chosen? (env : Environment) (parent : Option Expr) (node : Expr) (entries : List RuleEntry) :
    Option Rule :=
  (entries.find? (·.accepts env parent node)).bind (·.rule?)

/-- What the probes before that entry note. -/
def asked (env : Environment) (parent : Option Expr) (node : Expr) (entries : List RuleEntry) :
    List Question :=
  ((entries.takeWhile (!·.accepts env parent node)).filter (· == .probe)).map fun _ =>
    ⟨node, parent⟩

/-- A probe that is asked notes the question. -/
def notes (question : Question) : RuleEntry → List Question
  | .probe => [question]
  | .rule _ | .always _ => []

/-- A probe notes the question that it is asked. -/
theorem eq_of_mem_notes {entry : RuleEntry} {q question : Question} (h : q ∈ entry.notes question) :
    q = question := by
  cases entry with
  | probe => exact List.mem_singleton.1 h
  | rule | always => exact absurd h List.not_mem_nil

section

variable {env : Environment} {parent : Option Expr} {node : Expr} {entry : RuleEntry}

/-- The first entry answers, or the others are asked. -/
theorem chosen?_cons (entries : List RuleEntry) :
    chosen? env parent node (entry :: entries)
      = (entry.answer? env parent node).or (chosen? env parent node entries) := by
  by_cases h : entry.accepts env parent node = true
  · cases entry with
    | rule r | always r => simp [chosen?, answer?, h, rule?]
    | probe => cases h
  · simp [chosen?, answer?, h]

/-- The entries are asked in order, up to the one that answers. -/
theorem asked_cons (entries : List RuleEntry) :
    asked env parent node (entry :: entries)
      = entry.notes ⟨node, parent⟩
        ++ if (entry.answer? env parent node).isSome then []
          else asked env parent node entries := by
  by_cases h : entry.accepts env parent node = true
  · cases entry with
    | rule r | always r => simp [asked, answer?, h, rule?, notes]
    | probe => cases h
  · cases entry <;> simp [asked, answer?, h, notes]

end

end RuleEntry

/-- The compilation with more questions. -/
def Compilation.asking (c : Compilation) (asked : List Question) : Compilation :=
  { c with questions := c.questions ++ asked }

@[simp] theorem Compilation.asking_nil (c : Compilation) : c.asking [] = c := by
  simp [asking]

/-- Questions are noted one behind the other. -/
@[simp] theorem Compilation.asking_asking (c : Compilation) (xs ys : List Question) :
    (c.asking xs).asking ys = c.asking (xs ++ ys) := by
  simp [asking]

/-- A choice notes the questions that it asks, and changes nothing else. -/
theorem runFrom_chooseRule (env : Environment) (parent : Option Expr) (node : Expr)
    (c : Compilation) :
    (chooseRule env parent node).runFrom c
      = (.ok (RuleEntry.chosen? env parent node env.rules),
        c.asking (RuleEntry.asked env parent node env.rules)) := rfl

/-! ## Entries that accept nothing -/

section Silent

variable {env env' : Environment}

/-- An entry gives the same answer in environments that answer alike. -/
theorem RuleEntry.accepts_alike (h : env.AnswersAlike env') (parent : Option Expr) (node : Expr)
    (entry : RuleEntry) : entry.accepts env' parent node = entry.accepts env parent node := by
  cases entry with
  | rule r => exact h.accepts parent r node
  | always r | probe => rfl

/-- Environments that answer alike make the same of a choice. -/
theorem Environment.AnswersAlike.routine (h : env.AnswersAlike env') (node : Expr)
    (chosen : Option Rule) : node.routine env' chosen = node.routine env chosen := by
  cases chosen with
  | none => rfl
  | some rule =>
    unfold Expr.routine Rule.routine
    simp only [h.conditionTokens, h.memberTokens, h.rowTokens, h.keyTokens]

/-- Environments that answer alike, and whose tables choose the same rules, compile alike, apart
from what the probes of their tables note. -/
theorem Environment.AnswersAlike.compile_coincide (h : env.AnswersAlike env')
    (hchosen : ∀ parent node, RuleEntry.chosen? env' parent node env'.rules
      = RuleEntry.chosen? env parent node env.rules) (parent : Option Expr) (e : Expr) :
    (RowMapper.compile env' parent e).Coincide (RowMapper.compile env parent e) := by
  induction e using Expr.forall_of_children generalizing parent with
  | h node ih =>
  rw [compile_eq_run, compile_eq_run]
  have hchoice : (chooseRule env' parent node).Coincide (chooseRule env parent node) := by
    intro c c' hscope
    rw [runFrom_chooseRule, runFrom_chooseRule, hchosen]
    exact ⟨rfl, hscope⟩
  -- the same rule is chosen, and it does the same apart from its visits
  refine hchoice.bind fun chosen => ?_
  rw [h.routine]
  cases chosen with
  | none => exact .reject _ _
  | some rule =>
    exact (rule.routine_proper env node).run fun child hchild => ih child hchild (some node)

/-- An entry that accepts nothing leaves the choice to the others. -/
theorem RuleEntry.chosen?_insert {parent : Option Expr} {node : Expr} {entry : RuleEntry}
    (hsilent : entry.accepts env parent node = false) (before after : List RuleEntry) :
    chosen? env parent node (before ++ entry :: after)
      = chosen? env parent node (before ++ after) := by
  simp [chosen?, List.find?_append, hsilent]

end Silent

/-- An entry that accepts nothing changes the outcome of no compilation, nor the scope after it,
wherever it stands in the table. -/
theorem compileInto_insert {env : Environment} {before after : List RuleEntry} {entry : RuleEntry}
    (hrules : env.rules = before ++ after)
    (hsilent : ∀ parent node, entry.accepts env parent node = false) (e : Expr) (scope : Scope) :
    let inserted : Environment := { env with rules := before ++ entry :: after }
    (e.compileInto inserted scope).outcome = (e.compileInto env scope).outcome
      ∧ (e.compileInto inserted scope).scope = (e.compileInto env scope).scope := by
  intro inserted
  have halike : env.AnswersAlike inserted := ⟨rfl, rfl, fun _ => rfl⟩
  refine halike.compile_coincide (fun parent node => ?_) none e ⟨scope, []⟩ ⟨scope, []⟩ rfl
  have hentries (entries : List RuleEntry) : RuleEntry.chosen? inserted parent node entries
      = RuleEntry.chosen? env parent node entries := by
    unfold RuleEntry.chosen?
    simp only [RuleEntry.accepts_alike halike]
  rw [hentries, hrules]
  exact RuleEntry.chosen?_insert (hsilent parent node) before after

end RowMapper
