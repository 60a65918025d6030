import Mathlib.Logic.Relation
import RowMapper.Proofs.Routines
import RowMapper.Sample.Company

/-!
# The stack of nodes

A compilation can find out for itself which node stands above the one that it is about, if it keeps
the nodes being compiled on a stack: a visit pushes its node, asks the entries of the table about
it, runs the routine of the rule that accepts it, and pops the node however that ended. What the
rules are told is then read off the stack, which every visit changes, and nothing but discipline
keeps it true. It is kept: at every moment of every traversal the stack holds the way from the
current node up to the root, and a traversal ends as the compilation does that is handed the node
above by hand.

* `Traversal.step` is the machine: one visit, question, rule or return at a time.
* `Traversal.Exact` is the invariant, kept by each step, and `Exact.sees` what a rule is told by it.
* `Traversal.stepsAbove_visit` follows a visit from its first question to its end, by induction
  along the children of nodes: it ends as `compile` does, and what was below on the stack stays.
* `rules_see_current_and_parent` puts them together for all expressions, tables and scopes, and says
  it of the compilation itself: what it tells the probes of its table is true.
-/

namespace RowMapper

/-! ## Traversals -/

/-- A rule that waits for a visit to end. -/
structure Visitor where
  rule : Rule
  /-- The node that the rule compiles. -/
  node : Expr
  /-- How the rule goes on with the tokens. -/
  next : Tokens → Routine

/-- What a traversal is about to do. -/
inductive Control where
  /-- To visit the node. -/
  | call (node : Expr)
  /-- To ask the entries, which are left of the table, about the node. -/
  | ask (node : Expr) (entries : List RuleEntry)
  /-- To compile the node by what is left of the routine of the rule. -/
  | work (rule : Rule) (node : Expr) (left : Routine)
  /-- To end the visit of the node. -/
  | leave (node : Expr) (outcome : Except CompileError Tokens)
  /-- To hand over what became of a visit that has ended. -/
  | back (outcome : Except CompileError Tokens)

/-- A compilation that keeps the nodes being compiled on a stack, the last one on top. The rules
that wait for visits are what remains to be done; nothing is looked up in them. -/
structure Traversal where
  control : Control
  visitors : List Visitor := []
  stack : List Expr := []
  compilation : Compilation

namespace Traversal

/-- The node being compiled, as the stack has it. -/
def current (t : Traversal) : Option Expr := t.stack.head?

/-- The node above the current one, as the stack has it. -/
def parent (t : Traversal) : Option Expr := t.stack.tail.head?

/-- What an entry that is asked notes: a probe, what the stack tells it. -/
def noted (t : Traversal) (entry : RuleEntry) : List Question :=
  match t.current with
  | some node => entry.notes ⟨node, t.parent⟩
  | none => []

/-- The next thing that a traversal does. Nothing is left to do once the first visit has ended. -/
def step (env : Environment) (t : Traversal) : Option Traversal :=
  match t.control with
  | .call node => some { t with control := .ask node env.rules, stack := node :: t.stack }
  | .ask node [] => some { t with control := .leave node (.error (.notCompilable .noRule node)) }
  | .ask node (entry :: entries) =>
    let compilation := t.compilation.asking (t.noted entry)
    match entry.answer? env t.parent node with
    | some rule => some { t with control := .work rule node (rule.routine env node), compilation }
    | none => some { t with control := .ask node entries, compilation }
  | .work _ node (.finish steps) =>
    let (outcome, compilation) := steps.runFrom t.compilation
    some { t with control := .leave node outcome, compilation }
  | .work rule node (.visit before child next) =>
    match before.runFrom t.compilation with
    | (.ok _, compilation) =>
      some { t with
        control := .call child, visitors := ⟨rule, node, next⟩ :: t.visitors, compilation }
    | (.error cause, compilation) =>
      some { t with control := .leave node (.error cause), compilation }
  | .leave _ outcome => some { t with control := .back outcome, stack := t.stack.tail }
  | .back outcome =>
    match t.visitors, outcome with
    | [], _ => none
    | visitor :: visitors, .ok tokens =>
      some { t with
        control := .work visitor.rule visitor.node (visitor.next tokens), visitors }
    -- a rule does not go on after a visit that failed
    | visitor :: visitors, .error cause =>
      some { t with control := .leave visitor.node (.error cause), visitors }

/-- What a traversal does in all. -/
abbrev Steps (env : Environment) : Traversal → Traversal → Prop :=
  Relation.ReflTransGen fun t t' => t.step env = some t'

/-- The traversal of an expression, which begins with its visit. -/
def start (e : Expr) (scope : Scope) : Traversal :=
  { control := .call e, compilation := ⟨scope, []⟩ }

/-- The end of a traversal. -/
def ended (r : Compiled) : Traversal :=
  { control := .back r.outcome, compilation := ⟨r.scope, r.questions⟩ }

end Traversal

/-! ## What the stack holds -/

/-- Nodes that lead upwards to the root of an expression, each directly below the next. -/
inductive Expr.Lineage (root : Expr) : List Expr → Prop where
  | nil : Lineage root []
  | root : Lineage root [root]
  | child {node parent : Expr} {above : List Expr} (below : node ∈ parent.children)
      (upward : Lineage root (parent :: above)) : Lineage root (node :: parent :: above)

theorem Expr.Lineage.tail {root node : Expr} {above : List Expr}
    (h : root.Lineage (node :: above)) : root.Lineage above := by
  cases h with
  | root => exact .nil
  | child _ upward => exact upward

theorem Expr.Lineage.eq_root {root node : Expr} (h : root.Lineage [node]) : node = root := by
  cases h
  rfl

/-- The question is about a node of the expression, and tells the node directly above it; at the
root there is none. -/
def Question.TrueIn (e : Expr) (q : Question) : Prop :=
  ∃ above, e.Lineage (q.node :: above) ∧ q.parent = above.head?

namespace Control

/-- The node of a visit that is about to begin or has begun. -/
def node? : Control → Option Expr
  | .call node | .ask node _ | .work _ node _ | .leave node _ => some node
  | .back _ => none

/-- The node of a visit that has begun: rules are asked about it, or one of them compiles it. -/
def entered? : Control → Option Expr
  | .ask node _ | .work _ node _ | .leave node _ => some node
  | .call _ | .back _ => none

theorem node?_of_entered? {control : Control} {node : Expr} (h : control.entered? = some node) :
    control.node? = some node := by
  cases control with
  | ask | work | leave => exact h
  | call | back => cases h

/-- What is left of a routine is proper. -/
def Proper : Control → Prop
  | .work _ node left => left.Proper node
  | _ => True

/-- How a visit goes on after the choice of a rule. -/
def afterChoice (env : Environment) (node : Expr) : Option Rule → Control
  | some rule => .work rule node (rule.routine env node)
  | none => .leave node (.error (.notCompilable .noRule node))

end Control

namespace Traversal

/-- The stack holds the nodes of the visits that have begun and not ended: the latest one, and
those of the rules that wait. Each is directly below the next, and what probes noted is true. -/
structure Exact (e : Expr) (t : Traversal) : Prop where
  stack : t.stack = t.control.entered?.toList ++ t.visitors.map (·.node)
  lineage : e.Lineage (t.control.node?.toList ++ t.visitors.map (·.node))
  working : t.control.Proper
  waiting : ∀ v ∈ t.visitors, ∀ tokens, (v.next tokens).Proper v.node
  noted : ∀ q ∈ t.compilation.questions, q.TrueIn e

/-- What the stack tells a rule about the node of a visit. -/
structure Sees (e : Expr) (t : Traversal) (node : Expr) : Prop where
  current : t.current = some node
  /-- The node above is the one whose rule is visiting this one. -/
  parent : t.parent = t.visitors.head?.map (·.node)
  /-- There is none exactly at the root, which no rule visits. -/
  root : t.parent = none ↔ t.visitors = [] ∧ node = e
  /-- In the expression, too, each node is directly below the next. -/
  lineage : e.Lineage t.stack

variable {env : Environment} {e : Expr} {t t' : Traversal}

theorem exact_start (e : Expr) (scope : Scope) : (start e scope).Exact e where
  stack := rfl
  lineage := .root
  working := trivial
  waiting _ hv := absurd hv List.not_mem_nil
  noted _ hq := absurd hq List.not_mem_nil

/-- An exact stack tells rules the truth. -/
theorem Exact.sees (h : t.Exact e) {node : Expr} (hnode : t.control.entered? = some node) :
    t.Sees e node := by
  have hstack : t.stack = node :: t.visitors.map (·.node) := by
    rw [h.stack, hnode]
    rfl
  have hlineage : e.Lineage (node :: t.visitors.map (·.node)) := by
    have := h.lineage
    rwa [Control.node?_of_entered? hnode] at this
  have hparent : t.parent = t.visitors.head?.map (·.node) := by
    rw [parent, hstack, List.tail_cons, List.head?_map]
  refine ⟨by rw [current, hstack, List.head?_cons], hparent, ?_, hstack ▸ hlineage⟩
  cases hvisitors : t.visitors with
  | nil =>
    rw [hvisitors] at hlineage hparent
    exact ⟨fun _ => ⟨rfl, hlineage.eq_root⟩, fun _ => hparent⟩
  | cons visitor visitors => simp [hparent, hvisitors]

/-- What probes are told is true. -/
theorem Sees.noted {node : Expr} (h : t.Sees e node) (entry : RuleEntry) :
    ∀ q ∈ t.noted entry, q.TrueIn e := by
  intro q hq
  have hcurrent := h.current
  have hlineage := h.lineage
  simp only [Traversal.noted, hcurrent] at hq
  rw [RuleEntry.eq_of_mem_notes hq]
  obtain ⟨control, visitors, stack, c⟩ := t
  cases stack with
  | nil => cases hcurrent
  | cons top above =>
    cases hcurrent
    exact ⟨above, hlineage, rfl⟩

/-- Each step keeps the stack exact. -/
theorem Exact.step (h : t.Exact e) (hstep : t.step env = some t') : t'.Exact e := by
  obtain ⟨control, visitors, stack, compilation⟩ := t
  have hsees {node : Expr} (hnode : control.entered? = some node) := h.sees hnode
  obtain ⟨hstack, hlineage, hworking, hwaiting, hnoted⟩ := h
  -- one case for each thing to do; only the beginning and the end of a visit change the stack
  cases control with
  | call node =>
    cases hstep
    exact ⟨congrArg (node :: ·) hstack, hlineage, trivial, hwaiting, hnoted⟩
  | ask node entries =>
    cases entries with
    | nil =>
      cases hstep
      exact ⟨hstack, hlineage, trivial, hwaiting, hnoted⟩
    | cons entry entries =>
      have hasked := List.forall_mem_append.2 ⟨hnoted, (hsees rfl).noted entry⟩
      simp only [Traversal.step] at hstep
      split at hstep
      · rename_i rule _
        cases hstep
        exact ⟨hstack, hlineage, rule.routine_proper env node, hwaiting, hasked⟩
      · cases hstep
        exact ⟨hstack, hlineage, trivial, hwaiting, hasked⟩
  | work rule node left =>
    cases hworking with
    | finish own =>
      cases hstep
      exact ⟨hstack, hlineage, trivial, hwaiting, (own.questions compilation).symm ▸ hnoted⟩
    | @visit before child next hchild own honward =>
      have hquiet := own.questions compilation
      simp only [Traversal.step] at hstep
      split at hstep
      · -- the rule waits, and what it visits is below its node
        rename_i hbefore
        cases hstep
        refine ⟨hstack, .child hchild hlineage, trivial, ?_, ?_⟩
        · exact List.forall_mem_cons.2 ⟨honward, hwaiting⟩
        · rw [hbefore] at hquiet
          exact hquiet.symm ▸ hnoted
      · rename_i hbefore
        cases hstep
        rw [hbefore] at hquiet
        exact ⟨hstack, hlineage, trivial, hwaiting, hquiet.symm ▸ hnoted⟩
  | leave node outcome =>
    cases hstep
    exact ⟨congrArg List.tail hstack, hlineage.tail, trivial, hwaiting, hnoted⟩
  | back outcome =>
    cases visitors with
    | nil => cases hstep
    | cons visitor visitors =>
      -- the rule that waited is the one whose node is on top again
      obtain ⟨hnext, hrest⟩ := List.forall_mem_cons.1 hwaiting
      cases outcome with
      | ok tokens =>
        cases hstep
        exact ⟨hstack, hlineage, hnext tokens, hrest, hnoted⟩
      | error cause =>
        cases hstep
        exact ⟨hstack, hlineage, trivial, hrest, hnoted⟩

/-- So it is at every moment of a traversal. -/
theorem Exact.steps (h : t.Exact e) (hsteps : Steps env t t') : t'.Exact e := by
  induction hsteps with
  | refl => exact h
  | tail _ hstep ih => exact ih.step hstep

/-! ## What a visit leaves -/

/-- Steps of a traversal while what is below on the stack stays there. -/
abbrev StepsAbove (env : Environment) (below : List Expr) : Traversal → Traversal → Prop :=
  Relation.ReflTransGen fun t t' =>
    t.step env = some t' ∧ below <:+ t.stack ∧ below <:+ t'.stack

/-- The traversal visits the node: it is pushed, stays on the stack as long as the visit lasts, and
is popped. -/
def Visit (env : Environment) (node : Expr) (t t' : Traversal) : Prop :=
  ∃ first last, t.step env = some first ∧ StepsAbove env (node :: t.stack) first last
    ∧ last.step env = some t'

theorem StepsAbove.steps {below : List Expr} (h : StepsAbove env below t t') : Steps env t t' :=
  Relation.ReflTransGen.mono (fun _ _ hstep => hstep.1) _ _ h

/-- Where much stays, less stays. -/
theorem StepsAbove.mono {below less : List Expr} (hless : less <:+ below)
    (h : StepsAbove env below t t') : StepsAbove env less t t' :=
  Relation.ReflTransGen.mono
    (fun _ _ hstep => ⟨hstep.1, hless.trans hstep.2.1, hless.trans hstep.2.2⟩) _ _ h

section

variable {control control' : Control} {visitors visitors' : List Visitor} {node : Expr}
  {stack above : List Expr} {outcome : Except CompileError Tokens} {c c' : Compilation}

/-- A step that leaves the stack as it is. -/
theorem StepsAbove.of_step
    (hstep : step env ⟨control, visitors, stack, c⟩ = some ⟨control', visitors', stack, c'⟩) :
    StepsAbove env stack ⟨control, visitors, stack, c⟩ ⟨control', visitors', stack, c'⟩ :=
  .single ⟨hstep, List.suffix_rfl, List.suffix_rfl⟩

/-- To push a node and to pop it again leaves the stack as it is. -/
theorem StepsAbove.of_entered
    (h : StepsAbove env (node :: above) ⟨.ask node env.rules, visitors, node :: above, c⟩
      ⟨.leave node outcome, visitors, node :: above, c'⟩) :
    StepsAbove env above ⟨.call node, visitors, above, c⟩ ⟨.back outcome, visitors, above, c'⟩ := by
  have hpushed := List.suffix_cons node above
  refine .head ⟨rfl, List.suffix_rfl, hpushed⟩ ?_
  exact (h.mono hpushed).tail ⟨rfl, hpushed, List.suffix_rfl⟩

/-- Entries are asked one after the other until one accepts the node. -/
theorem stepsAbove_ask (entries : List RuleEntry) :
    StepsAbove env (node :: above) ⟨.ask node entries, visitors, node :: above, c⟩
      ⟨.afterChoice env node (RuleEntry.chosen? env above.head? node entries), visitors,
        node :: above, c.asking (RuleEntry.asked env above.head? node entries)⟩ := by
  induction entries generalizing c with
  | nil =>
    show StepsAbove env (node :: above) _ ⟨_, visitors, node :: above, c.asking []⟩
    rw [Compilation.asking_nil]
    exact .of_step rfl
  | cons entry entries ih =>
    rw [RuleEntry.chosen?_cons, RuleEntry.asked_cons]
    cases hanswer : entry.answer? env above.head? node with
    | some rule =>
      -- no other entry is asked, and no probe notes anything
      refine .of_step ?_
      simp [step, parent, noted, current, hanswer, Control.afterChoice]
    | none =>
      have hstep : step env ⟨.ask node (entry :: entries), visitors, node :: above, c⟩
          = some ⟨.ask node entries, visitors, node :: above,
            c.asking (entry.notes ⟨node, above.head?⟩)⟩ := by
        simp [step, parent, noted, current, hanswer]
      have hrest := ih (c := c.asking (entry.notes ⟨node, above.head?⟩))
      rw [Compilation.asking_asking] at hrest
      exact (StepsAbove.of_step hstep).trans hrest

/-- A rule does as its routine does with compilations for visits, if each visit of a child ends as
the compilation of the child below the node. -/
theorem stepsAbove_work {rule : Rule} {left : Routine} (hproper : left.Proper node)
    (hvisits : ∀ child ∈ node.children, ∀ (visitors : List Visitor) (c : Compilation),
      StepsAbove env (node :: above) ⟨.call child, visitors, node :: above, c⟩
        ⟨.back ((compile env (some node) child).runFrom c).1, visitors, node :: above,
          ((compile env (some node) child).runFrom c).2⟩) :
    StepsAbove env (node :: above) ⟨.work rule node left, visitors, node :: above, c⟩
      ⟨.leave node ((left.run (compile env (some node))).runFrom c).1, visitors, node :: above,
        ((left.run (compile env (some node))).runFrom c).2⟩ := by
  induction hproper generalizing c with
  | finish _ => exact .of_step rfl
  | @visit before child next hchild _ _ ih =>
    rw [Routine.run, CompileM.runFrom_bind]
    cases hbefore : before.runFrom c with
    | mk first c₁ =>
      cases first with
      | error cause =>
        -- the rule fails before the visit
        refine .of_step ?_
        simp [step, hbefore]
      | ok u =>
        have hcall : step env ⟨.work rule node (.visit before child next), visitors,
            node :: above, c⟩
            = some ⟨.call child, ⟨rule, node, next⟩ :: visitors, node :: above, c₁⟩ := by
          simp [step, hbefore]
        refine (StepsAbove.of_step hcall).trans ((hvisits child hchild _ c₁).trans ?_)
        -- the rule fails as the visit did, or goes on with its tokens
        dsimp only
        rw [CompileM.runFrom_bind]
        cases (compile env (some node) child).runFrom c₁ with
        | mk second c₂ =>
          cases second with
          | error cause => exact StepsAbove.of_step rfl
          | ok tokens => exact (StepsAbove.of_step rfl).trans (ih tokens)

end

/-- From the first question about a node to the end of its visit: it ends as the compilation below
the node that was on top of the stack before. -/
theorem stepsAbove_visit (node : Expr) (visitors : List Visitor) (above : List Expr)
    (c : Compilation) :
    StepsAbove env (node :: above) ⟨.ask node env.rules, visitors, node :: above, c⟩
      ⟨.leave node ((compile env above.head? node).runFrom c).1, visitors, node :: above,
        ((compile env above.head? node).runFrom c).2⟩ := by
  induction node using Expr.forall_of_children generalizing visitors above c with
  | h node ih =>
  rw [compile_eq_run, CompileM.runFrom_bind, runFrom_chooseRule]
  -- the node on top is the one above this one, for the entries as for the compilation
  refine (stepsAbove_ask env.rules).trans ?_
  cases RuleEntry.chosen? env above.head? node env.rules with
  | none => exact .refl
  | some rule =>
    refine stepsAbove_work (rule.routine_proper env node) fun child hchild visitors c => ?_
    exact (ih child hchild visitors (node :: above) c).of_entered

/-- Whatever state a traversal is in when it is about to visit a node: the visit comes to an end,
the same as that of the compilation, and leaves the stack and the rules that wait as they were. -/
theorem exists_visit {node : Expr} (h : t.control = .call node) :
    ∃ t' outcome, t.Visit env node t' ∧ t'.stack = t.stack ∧ t'.visitors = t.visitors
      ∧ t'.control = .back outcome
      ∧ (compile env t.current node).runFrom t.compilation = (outcome, t'.compilation) := by
  obtain ⟨control, visitors, stack, c⟩ := t
  cases h
  exact ⟨⟨.back _, visitors, stack, _⟩, _,
    ⟨_, _, rfl, stepsAbove_visit node visitors stack c, rfl⟩, rfl, rfl, rfl, rfl⟩

/-- A traversal comes to an end, and what became of it is what becomes of the compilation. -/
theorem steps_ended (env : Environment) (e : Expr) (scope : Scope) :
    Steps env (start e scope) (ended (e.compileInto env scope)) :=
  (stepsAbove_visit e [] [] ⟨scope, []⟩).of_entered.steps

end Traversal

/-- What the probes of a table are told in the course of a compilation is true. -/
theorem trueIn_of_mem_questions (env : Environment) (e : Expr) (scope : Scope) {q : Question}
    (hq : q ∈ (e.compileInto env scope).questions) : q.TrueIn e :=
  ((Traversal.exact_start e scope).steps (Traversal.steps_ended env e scope)).noted q hq

/-- Rules see the true current node and the true node above it, whatever the expression, the table
and the scope are. As long as rules are asked about a node or one of them compiles it, the stack has
this node as the current one and the node whose rule visits it above, none exactly at the root.
Every visit ends, whether it succeeds or fails, with the stack that it began with; the node stays
there all the while. The traversal as a whole ends as the compilation does, to which the nodes above
are handed, and so what this tells its probes is true as well. An entry that accepts nothing leaves
outcome and scope of the compilation as they are, at any place of the table. -/
theorem rules_see_current_and_parent (env : Environment) (e : Expr) (scope : Scope) :
    (∀ t node, Traversal.Steps env (.start e scope) t → t.control.entered? = some node →
        t.Sees e node)
      ∧ (∀ (t : Traversal) node, t.control = .call node → ∃ t' outcome, t.Visit env node t'
        ∧ t'.stack = t.stack ∧ t'.visitors = t.visitors ∧ t'.control = .back outcome
        ∧ (compile env t.current node).runFrom t.compilation = (outcome, t'.compilation))
      ∧ Traversal.Steps env (.start e scope) (.ended (e.compileInto env scope))
      ∧ (∀ q ∈ (e.compileInto env scope).questions, q.TrueIn e)
      ∧ ∀ before after entry, env.rules = before ++ after →
        (∀ parent node, RuleEntry.accepts env parent node entry = false) →
        let inserted : Environment := { env with rules := before ++ entry :: after }
        (e.compileInto inserted scope).outcome = (e.compileInto env scope).outcome
          ∧ (e.compileInto inserted scope).scope = (e.compileInto env scope).scope := by
  refine ⟨fun t node hsteps hnode => ?_, fun t node hcall => Traversal.exists_visit hcall,
    Traversal.steps_ended env e scope, fun q hq => trueIn_of_mem_questions env e scope hq,
    fun before after entry hrules hsilent => compileInto_insert hrules hsilent e scope⟩
  have hexact : t.Exact e := (Traversal.exact_start e scope).steps hsteps
  exact hexact.sees hnode

/-- A table with a probe in front, and a rule for conversions that takes whatever the others leave:
it fails three nodes below the root. The probe saw each node below the one that visits it. -/
theorem rules_see_current_and_parent_misfit :
    let rules : List RuleEntry :=
      [.probe, .rule .lambda, .rule .booleanMember, .rule .binary, .always .convert]
    let env : Environment := { strategies := {}, mappings := Company.mappings, rules }
    let row : Expr := .parameter "x" Company.employee
    let active : Expr := .member row "active"
    let name : Expr := .member row "name"
    let named : Expr := .binary .equal name .null
    let both : Expr := .binary .and active named
    let filter : Expr := .lambda row both
    let scope : Scope := .ofMapping (Company.mapping Company.employee)
    let compiled := filter.compileInto env scope
    Traversal.Steps env (.start filter scope) (.ended compiled)
      ∧ compiled.outcome.toOption = none
      ∧ compiled.questions = [⟨filter, none⟩, ⟨both, some filter⟩, ⟨active, some both⟩,
        ⟨named, some both⟩, ⟨name, some named⟩] := by
  intro rules env row active name named both filter scope compiled
  refine ⟨(rules_see_current_and_parent env filter scope).2.2.1, ?_, ?_⟩
  · decide +kernel
  · decide +kernel

end RowMapper
