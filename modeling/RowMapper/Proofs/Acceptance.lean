import RowMapper.Proofs.KeptScopes
import RowMapper.Proofs.Rendering
import RowMapper.Proofs.ScopeSteps
import RowMapper.Proofs.Transparency

/-!
# The language of the compiler

Under the standard table the compiler visits the nodes of an expression in a fixed order and stops
at the first one that is not well formed in its place. Whether a node is well formed is a matter of
the mappings, of the key strategies and of the names that are bound when it is visited: those of the
scope, and those of the lambdas visited before.

* `Expr.visited` are the nodes in the order in which they are visited.
* `Expr.WellFormed` says what is asked of a node, `Mappings.Leads` what is asked of a chain.
* `compile_judges` is the induction: all visited nodes are well formed, or the failure blames the
  first one that is not, by itself or by the row that its chain starts at.
-/

namespace RowMapper

/-! ## Chains of members -/

/-- The chain of members leads from a row of the entity type to a column: all members before the
last one are foreign objects, and the last one has a column or is the key of the foreign object
before it. -/
inductive Mappings.Leads (mappings : Mappings) : EntityType → List String → Prop where
  | column {entity m last member} (mapping : mappings entity = .ok m)
      (found : m.member? last = some member) (column : member.column?.isSome) :
      Leads mappings entity [last]
  | key {entity m segment c reference} (mapping : mappings entity = .ok m)
      (found : m.member? segment = some (.foreign c reference)) :
      Leads mappings entity [segment, reference.targetKey]
  | through {entity m segment c reference rest} (mapping : mappings entity = .ok m)
      (found : m.member? segment = some (.foreign c reference))
      (onward : Leads mappings reference.target rest) :
      Leads mappings entity (segment :: rest)

/-- The mapping of the second type is needed on the way along the chain from the first one. -/
inductive Mappings.Needs (mappings : Mappings) : EntityType → List String → EntityType → Prop where
  | here {entity members} : Needs mappings entity members entity
  | through {entity m segment c reference rest needed} (mapping : mappings entity = .ok m)
      (found : m.member? segment = some (.foreign c reference)) (more : rest ≠ [])
      (noKey : rest ≠ [reference.targetKey])
      (onward : Needs mappings reference.target rest needed) :
      Needs mappings entity (segment :: rest) needed

/-! ## Nodes -/

/-- The nodes that a compilation visits, in order. It visits neither the row that a lambda names,
nor the NULL that a comparison tests for, nor the parts of a membership in the empty list. -/
def Expr.visited : Expr → List Expr
  | .lambda row body => .lambda row body :: body.visited
  | .binary op lhs rhs =>
    .binary op lhs rhs ::
      (if (Expr.nullTested? op lhs rhs).isNone then lhs.visited ++ rhs.visited
        else if lhs.isNullConstant then rhs.visited else lhs.visited)
  | .unary op arg => .unary op arg :: arg.visited
  | .convert arg type => .convert arg type :: arg.visited
  | .contains collection item =>
    .contains collection item ::
      (if collection.unwrapConvert = .constant (.list []) then []
        else item.visited ++ collection.visited)
  | e => [e]

/-- The name that a lambda binds. -/
def Expr.binds? : Expr → Option String
  | .lambda (.parameter name _) _ => some name
  | _ => none

/-- The name is bound by the scope, or by a lambda among the nodes. -/
def Scope.Names (s : Scope) (before : List Expr) (name : String) : Prop :=
  (s.binding? name).isSome ∨ name ∈ before.filterMap Expr.binds?

/-- The node is well formed behind the nodes that are visited before it. -/
def Expr.WellFormed (env : Environment) (s : Scope) (before : List Expr) : Expr → Prop
  | .lambda row _ => ∃ name, row = .parameter name s.entity
  | .member target name => ∃ p, (Expr.member target name).path? = some p
      ∧ (s.Names before p.parameter ∨ p.entity = s.entity) ∧ env.mappings.Leads p.entity p.members
  | .parameter name entity => (s.Names before name ∨ entity = s.entity)
      ∧ ∃ m key, env.mappings entity = .ok m ∧ m.primaryKeys = [key]
  | .constant (.entity _ keys) => ∃ key, keys = [key] ∧ env.strategies.isEmptyKey key = false
  | .contains collection _ => ∃ values, collection.unwrapConvert = .constant (.list values)
  | _ => True

/-- Behind the nodes visited before, each of the nodes is well formed in its place. -/
def Environment.Accepts (env : Environment) (s : Scope) (before nodes : List Expr) : Prop :=
  ∀ more node rest, nodes = more ++ node :: rest → node.WellFormed env s (before ++ more)

/-- The failure blames the node: by itself, by the row that its chain starts at if that is not
bound, or by a type on the way that has no mapping. -/
inductive Expr.Faulty (env : Environment) (s : Scope) (before : List Expr) (node : Expr) :
    CompileError → Prop where
  | node {defect} (bad : ¬node.WellFormed env s before) :
      Faulty env s before node (.notCompilable defect node)
  | row {defect p} (bad : ¬node.WellFormed env s before) (path : node.path? = some p)
      (unbound : ¬(s.Names before p.parameter ∨ p.entity = s.entity)) :
      Faulty env s before node (.notCompilable defect p.root)
  | mapping {p entity cause} (path : node.path? = some p)
      (needs : env.mappings.Needs p.entity p.members entity)
      (unmapped : env.mappings entity = .error cause) :
      Faulty env s before node (.mapping cause)

/-- The failure blames the first of the nodes that is not accepted. -/
def Environment.Blames (env : Environment) (s : Scope) (before nodes : List Expr)
    (cause : CompileError) : Prop :=
  ∃ more node rest, nodes = more ++ node :: rest ∧ env.Accepts s before more
    ∧ node.Faulty env s (before ++ more) cause

section

variable {env : Environment} {s : Scope} {before nodes more : List Expr} {cause : CompileError}

theorem Environment.Accepts.nil : env.Accepts s before [] := by
  intro more node rest h
  exact absurd h.symm (by simp)

/-- What is accepted before is seen by what comes behind. -/
theorem Environment.Accepts.append (h : env.Accepts s before nodes)
    (h' : env.Accepts s (before ++ nodes) more) : env.Accepts s before (nodes ++ more) := by
  intro first node rest hsplit
  -- the node stands in the one part or in the other
  rcases List.append_eq_append_iff.1 hsplit with ⟨middle, rfl, hmore⟩ | ⟨middle, hnodes, hmore⟩
  · rw [← List.append_assoc]
    exact h' middle node rest hmore
  · cases middle with
    | nil =>
      rw [List.append_nil] at hnodes
      subst hnodes
      simpa using h' [] node rest (by simpa using hmore.symm)
    | cons head middle =>
      obtain ⟨rfl, rfl⟩ := List.cons.inj hmore
      exact h first node middle hnodes

theorem Environment.Accepts.single {node : Expr} (h : node.WellFormed env s before) :
    env.Accepts s before [node] := by
  intro more other rest hsplit
  cases more with
  | nil =>
    obtain ⟨rfl, -⟩ := List.cons.inj hsplit
    simpa using h
  | cons head more => simp at hsplit

/-- The first defect is blamed, whatever comes behind it. -/
theorem Environment.Blames.append (h : env.Blames s before nodes cause) (more : List Expr) :
    env.Blames s before (nodes ++ more) cause := by
  obtain ⟨first, node, rest, rfl, haccepted, hfaulty⟩ := h
  exact ⟨first, node, rest ++ more, by simp, haccepted, hfaulty⟩

/-- A defect behind accepted nodes is the first one. -/
theorem Environment.Blames.behind (h : env.Accepts s before nodes)
    (h' : env.Blames s (before ++ nodes) more cause) :
    env.Blames s before (nodes ++ more) cause := by
  obtain ⟨first, node, rest, rfl, haccepted, hfaulty⟩ := h'
  refine ⟨nodes ++ first, node, rest, by simp, h.append haccepted, ?_⟩
  rwa [← List.append_assoc]

theorem Environment.Blames.single {node : Expr} (h : node.Faulty env s before cause) :
    env.Blames s before [node] cause :=
  ⟨[], node, [], rfl, .nil, by simpa using h⟩

end

/-! ## Steps -/

namespace CompileM

/-- From the state, the steps succeed with a result and a state that are related so, or they fail
with such a cause. -/
def Ends (x : CompileM α) (c : Compilation) (Q : α → Compilation → Prop)
    (E : CompileError → Prop) : Prop :=
  match x.runFrom c with
  | (.ok a, c') => Q a c'
  | (.error cause, _) => E cause

section

variable {α β : Type} {c : Compilation} {Q : α → Compilation → Prop} {E : CompileError → Prop}

theorem Ends.pure {a : α} (h : Q a c) : (Pure.pure a : CompileM α).Ends c Q E := h

theorem Ends.reject {defect : Defect} {node : Expr} (h : E (.notCompilable defect node)) :
    (reject defect node : CompileM α).Ends c Q E := h

/-- Steps end one behind the other; a failure of the first one is the end. -/
theorem Ends.bind {R : β → Compilation → Prop} {x : CompileM α} {f : α → CompileM β}
    (hx : x.Ends c Q E) (hf : ∀ a c', Q a c' → (f a).Ends c' R E) : (x >>= f).Ends c R E := by
  unfold Ends at hx ⊢
  rw [runFrom_bind]
  rcases hrun : x.runFrom c with ⟨cause | a, c'⟩ <;> rw [hrun] at hx
  · exact hx
  · exact hf a c' hx

theorem Ends.mono {Q' : α → Compilation → Prop} {E' : CompileError → Prop} {x : CompileM α}
    (h : x.Ends c Q E) (hQ : ∀ a c', Q a c' → Q' a c') (hE : ∀ cause, E cause → E' cause) :
    x.Ends c Q' E' := by
  unfold Ends at h ⊢
  rcases hrun : x.runFrom c with ⟨cause | a, c'⟩ <;> rw [hrun] at h
  · exact hE cause h
  · exact hQ a c' h

/-- A mapping ends as the registry does. -/
theorem Ends.mapping {Q : TypeMapping → Compilation → Prop} {env : Environment}
    {entity : EntityType} (hok : ∀ m, env.mappings entity = .ok m → Q m c)
    (herror : ∀ cause, env.mappings entity = .error cause → E (.mapping cause)) :
    (env.mapping entity).Ends c Q E := by
  unfold Environment.mapping
  cases h : env.mappings entity with
  | ok m => exact .pure (hok m h)
  | error cause => exact herror cause h

end

end CompileM

/-! ## Places -/

namespace Scope

variable {s now : Scope} {before : List Expr} {name : String}

/-- A name is bound if it is among the bindings. -/
theorem isSome_binding? (s : Scope) (name : String) :
    (s.binding? name).isSome ↔ name ∈ s.bindings.map (·.1) := by
  simp [binding?]

/-- A name that is bound is added to those that were. -/
theorem isSome_binding?_bind (s : Scope) (name tableAlias other : String) :
    ((s.bind name tableAlias).binding? other).isSome
      ↔ (s.binding? other).isSome ∨ other = name := by
  unfold bind
  split
  · rename_i hbound
    -- a name that is bound is bound anew, which adds no name
    have hkeys : (s.bindings.map fun b => if b.1 == name then (name, tableAlias) else b).map (·.1)
        = s.bindings.map (·.1) := by
      rw [List.map_map]
      apply List.map_congr_left
      intro b _
      by_cases hb : b.1 = name <;> simp [hb]
    rw [isSome_binding?, isSome_binding?, hkeys]
    rw [isSome_binding?] at hbound
    constructor
    · exact .inl
    · rintro (hmem | rfl)
      · exact hmem
      · exact hbound
  · rw [isSome_binding?, isSome_binding?]
    simp

/-- The scope is what the first one has become behind the nodes, as far as rows are concerned. -/
structure Behind (s : Scope) (before : List Expr) (now : Scope) : Prop where
  entity : now.entity = s.entity
  bound : ∀ name, (now.binding? name).isSome ↔ s.Names before name

theorem behind_nil (s : Scope) : s.Behind [] s := ⟨rfl, fun name => by simp [Names]⟩

/-- A node that is no lambda binds nothing. -/
theorem Behind.visit (h : s.Behind before now) {node : Expr} (hnode : node.binds? = none) :
    s.Behind (before ++ [node]) now :=
  ⟨h.entity, fun name => by rw [h.bound]; simp [Names, hnode]⟩

/-- A change of parameters and joins changes no rows. -/
theorem Behind.same (h : s.Behind before now) {now' : Scope} (hentity : now'.entity = now.entity)
    (hbindings : now'.bindings = now.bindings) : s.Behind before now' := by
  refine ⟨hentity.trans h.entity, fun name => ?_⟩
  rw [← h.bound]
  unfold binding?
  rw [hbindings]

/-- A lambda over the root binds its name. -/
theorem Behind.bind (h : s.Behind before now) (name tableAlias : String) (entity : EntityType)
    (body : Expr) :
    s.Behind (before ++ [.lambda (.parameter name entity) body]) (now.bind name tableAlias) := by
  refine ⟨(bind_entity now name tableAlias).trans h.entity, fun other => ?_⟩
  rw [isSome_binding?_bind, h.bound]
  simp [Names, Expr.binds?, or_assoc]

end Scope

/-! ## Chains -/

section

variable {mappings : Mappings} {entity : EntityType} {m : TypeMapping} {segment : String}
  {rest : List String}

/-- No members lead nowhere. -/
theorem Mappings.not_leads_nil (mappings : Mappings) (entity : EntityType) :
    ¬mappings.Leads entity [] := by
  intro h
  cases h

/-- The last member of a chain is one with a column. -/
theorem Mappings.leads_last (mapping : mappings entity = .ok m) :
    mappings.Leads entity [segment]
      ↔ ∃ member, m.member? segment = some member ∧ member.column?.isSome := by
  constructor
  · intro h
    cases h with
    | column mapping' found column =>
      cases mapping.symm.trans mapping'
      exact ⟨_, found, column⟩
    | through _ _ onward => exact absurd onward (mappings.not_leads_nil _)
  · rintro ⟨member, found, column⟩
    exact .column mapping found column

/-- Every other member is a foreign object. The key that it holds may be last, whether the other
type maps it or not. -/
theorem Mappings.leads_cons (mapping : mappings entity = .ok m) (more : rest ≠ []) :
    mappings.Leads entity (segment :: rest) ↔ ∃ c reference,
      m.member? segment = some (.foreign c reference)
        ∧ (rest = [reference.targetKey] ∨ mappings.Leads reference.target rest) := by
  constructor
  · intro h
    cases h with
    | column => exact absurd rfl more
    | key mapping' found =>
      cases mapping.symm.trans mapping'
      exact ⟨_, _, found, .inl rfl⟩
    | through mapping' found onward =>
      cases mapping.symm.trans mapping'
      exact ⟨_, _, found, .inr onward⟩
  · rintro ⟨c, reference, found, rfl | onward⟩
    · exact .key mapping found
    · exact .through mapping found onward

end

namespace CompileM

variable {env : Environment} {s : Scope} {before : List Expr} {c : Compilation}

/-- The state has the rows of the former one. -/
def SameRows (c c' : Compilation) : Prop :=
  c'.scope.entity = c.scope.entity ∧ c'.scope.bindings = c.scope.bindings

/-- A join changes no names of rows. -/
theorem Ends.requireJoin {E : CompileError → Prop}
    {path table leftAlias leftColumn rightColumn : String} :
    (requireJoin path table leftAlias leftColumn rightColumn).Ends c (fun _ c' => SameRows c c')
      E := by
  show SameRows c { c with
    scope := (c.scope.requireJoin path table leftAlias leftColumn rightColumn).2 }
  unfold SameRows Scope.requireJoin
  cases c.scope.join? path <;> exact ⟨rfl, rfl⟩

/-- Why a walk from a type may stop: the chain leads nowhere, for which the node is blamed, or a type
that is needed on the way has no mapping. -/
def Stops (env : Environment) (node : Expr) (entity : EntityType) (members : List String)
    (cause : CompileError) : Prop :=
  (¬env.mappings.Leads entity members ∧ ∃ defect, cause = .notCompilable defect node)
    ∨ ∃ needed cause', cause = .mapping cause' ∧ env.mappings.Needs entity members needed
      ∧ env.mappings needed = .error cause'

/-- A walk that goes on from a joined table stops for the same reasons as the rest of it. -/
theorem Stops.through {node : Expr} {entity : EntityType} {m : TypeMapping} {segment : String}
    {rest : List String} {column : ColumnMapping} {reference : Reference} {cause : CompileError}
    (mapping : env.mappings entity = .ok m)
    (found : m.member? segment = some (.foreign column reference)) (more : rest ≠ [])
    (noKey : rest ≠ [reference.targetKey]) (h : Stops env node reference.target rest cause) :
    Stops env node entity (segment :: rest) cause := by
  rcases h with ⟨hbroken, hcause⟩ | ⟨needed, cause', hcause, hneeds, hunmapped⟩
  · refine .inl ⟨fun h => ?_, hcause⟩
    obtain ⟨column', reference', found', hlast⟩ := (Mappings.leads_cons mapping more).1 h
    cases found.symm.trans found'
    rcases hlast with hkey | onward
    · exact noKey hkey
    · exact hbroken onward
  · exact .inr ⟨needed, cause', hcause, .through mapping found more noKey hneeds, hunmapped⟩

/-- A walk that comes to its end found a column. -/
theorem Ends.follow (env : Environment) (node : Expr) (a navigation : String) (entity : EntityType)
    (members : List String) (c : Compilation) :
    (follow env node a navigation entity members).Ends c
      (fun _ c' => SameRows c c' ∧ env.mappings.Leads entity members)
      (Stops env node entity members) := by
  -- along the chain; what `follow` does at a segment depends on whether it is the last one
  induction members generalizing a navigation entity c with
  | nil => exact .reject (.inl ⟨env.mappings.not_leads_nil entity, _, rfl⟩)
  | cons segment rest ih =>
    have hmapping : (env.mapping entity).Ends c (fun m c' => c' = c ∧ env.mappings entity = .ok m)
        (Stops env node entity (segment :: rest)) :=
      .mapping (fun m hm => ⟨rfl, hm⟩) fun cause hcause =>
        .inr ⟨entity, cause, rfl, .here, hcause⟩
    cases rest with
    | nil =>
      rw [RowMapper.follow]
      refine .bind hmapping ?_
      rintro m c' ⟨rfl, mapping⟩
      have hleads : env.mappings.Leads entity [segment] ↔ _ := Mappings.leads_last mapping
      split
      · rename_i found
        exact .pure ⟨⟨rfl, rfl⟩, hleads.2 ⟨_, found, rfl⟩⟩
      · rename_i found
        exact .pure ⟨⟨rfl, rfl⟩, hleads.2 ⟨_, found, rfl⟩⟩
      · rename_i l found
        refine .reject (.inl ⟨fun h => ?_, _, rfl⟩)
        obtain ⟨member, hmember, column⟩ := hleads.1 h
        cases found.symm.trans hmember
        cases column
      · rename_i found
        refine .reject (.inl ⟨fun h => ?_, _, rfl⟩)
        obtain ⟨member, hmember, -⟩ := hleads.1 h
        cases found.symm.trans hmember
    | cons next rest =>
      have more : next :: rest ≠ [] := List.cons_ne_nil next rest
      rw [RowMapper.follow]
      · refine .bind hmapping ?_
        rintro m c' ⟨rfl, mapping⟩
        have hleads : env.mappings.Leads entity (segment :: next :: rest) ↔ _ :=
          Mappings.leads_cons mapping more
        split
        · rename_i column reference found
          split
          · rename_i hkey
            -- the chain ends with the key that the reference holds, so nothing is joined
            exact .pure ⟨⟨rfl, rfl⟩, hleads.2 ⟨column, reference, found, .inl hkey⟩⟩
          · -- the walk goes on from the joined table
            rename_i noKey
            refine .bind .requireJoin fun joined c₁ hjoined => ?_
            refine (ih joined _ reference.target c₁).mono ?_ ?_
            · rintro ref c₂ ⟨hsame, onward⟩
              refine ⟨⟨hsame.1.trans hjoined.1, hsame.2.trans hjoined.2⟩, ?_⟩
              exact .through mapping found onward
            · exact fun cause hcause => hcause.through mapping found more noKey
        · rename_i hother
          refine .reject (.inl ⟨fun h => ?_, _, rfl⟩)
          obtain ⟨column, reference, found, -⟩ := hleads.1 h
          exact hother column reference found
      · simp

/-! ## Judgements -/

/-- From a state behind the nodes that were visited before, the steps visit the nodes: if they
succeed, all of them are accepted, and the state is behind them too. Otherwise the first one that is
not accepted is blamed. -/
def Judges (env : Environment) (s : Scope) (before nodes : List Expr) (x : CompileM α)
    (c : Compilation) : Prop :=
  s.Behind before c.scope → x.Ends c
    (fun _ c' => s.Behind (before ++ nodes) c'.scope ∧ env.Accepts s before nodes)
    (env.Blames s before nodes)

variable {α β : Type} {nodes more : List Expr} {x : CompileM α}

/-- Nothing is visited, and nothing blamed. -/
theorem Judges.pure (a : α) : (Pure.pure a : CompileM α).Judges env s before [] c := by
  intro h
  refine .pure ⟨?_, .nil⟩
  rwa [List.append_nil]

/-- Steps that change no rows and do not fail visit no nodes. -/
theorem Judges.quiet (h : x.Ends c (fun _ c' => SameRows c c') fun _ => False) :
    x.Judges env s before [] c := by
  intro hbehind
  refine h.mono (fun a c' hsame => ⟨?_, .nil⟩) fun _ hfalse => hfalse.elim
  rw [List.append_nil]
  exact hbehind.same hsame.1 hsame.2

theorem Judges.bind {f : α → CompileM β} (hx : x.Judges env s before nodes c)
    (hf : ∀ a c', (f a).Judges env s (before ++ nodes) more c') :
    (x >>= f).Judges env s before (nodes ++ more) c := by
  intro h
  refine .bind ((hx h).mono (fun _ _ => id) fun cause => ?_) fun a c' hfirst => ?_
  · exact fun hblames => hblames.append more
  · refine (hf a c' hfirst.1).mono (fun b c'' hsecond => ?_) fun cause hblames => ?_
    · rw [← List.append_assoc]
      exact ⟨hsecond.1, hfirst.2.append hsecond.2⟩
    · exact .behind hfirst.2 hblames

/-- What is made of the result. -/
theorem Judges.map (hx : x.Judges env s before nodes c) (f : α → β) :
    (x >>= fun a => Pure.pure (f a)).Judges env s before nodes c := by
  have h : (x >>= fun a => Pure.pure (f a)).Judges env s before (nodes ++ []) c :=
    hx.bind fun a c' => .pure (f a)
  rwa [List.append_nil] at h

/-- Quiet steps behind the others. -/
theorem Judges.quietly {f : α → CompileM β} (hx : x.Judges env s before nodes c)
    (hf : ∀ a c', (f a).Ends c' (fun _ c'' => SameRows c' c'') fun _ => False) :
    (x >>= f).Judges env s before nodes c := by
  have h : (x >>= f).Judges env s before (nodes ++ []) c := hx.bind fun a c' => .quiet (hf a c')
  rwa [List.append_nil] at h

/-- What is judged behind a well-formed node is judged with it. -/
theorem Ends.behind {node : Expr} (hnode : node.WellFormed env s before)
    (h : x.Ends c
      (fun _ c' => s.Behind (before ++ [node] ++ more) c'.scope
        ∧ env.Accepts s (before ++ [node]) more)
      (env.Blames s (before ++ [node]) more)) :
    x.Ends c
      (fun _ c' => s.Behind (before ++ node :: more) c'.scope
        ∧ env.Accepts s before (node :: more))
      (env.Blames s before (node :: more)) := by
  have haccepts : env.Accepts s before [node] := .single hnode
  refine h.mono (fun a c' hrest => ?_) fun cause hblames => ?_
  · rw [← List.singleton_append, ← List.append_assoc]
    exact ⟨hrest.1, haccepts.append hrest.2⟩
  · exact .behind haccepts hblames

/-- A well-formed node that binds nothing, and the nodes behind it. -/
theorem Judges.visit {node : Expr} (hbinds : node.binds? = none)
    (hnode : node.WellFormed env s before) (h : x.Judges env s (before ++ [node]) more c) :
    x.Judges env s before (node :: more) c :=
  fun hbehind => .behind hnode (h (hbehind.visit hbinds))

/-- A lambda binds its name for the nodes behind it, if it is one over the root. -/
theorem Judges.lambda {name : String} {entity : EntityType} {body : Expr}
    (h : ∀ c', x.Judges env s (before ++ [.lambda (.parameter name entity) body]) more c') :
    (do
      let scope ← CompileM.scope
      if entity = scope.entity then
        CompileM.bindName name scope.tableAlias
        x
      else
        CompileM.reject (.lambdaEntity entity scope.entity)
          (.lambda (.parameter name entity) body)).Judges env s before
      (.lambda (.parameter name entity) body :: more) c := by
  intro hbehind
  refine .bind (Q := fun now c' => now = c.scope ∧ c' = c) ⟨rfl, rfl⟩ ?_
  rintro now c' ⟨rfl, rfl⟩
  rw [hbehind.entity]
  split
  · rename_i hroot
    have hnode : (Expr.lambda (.parameter name entity) body).WellFormed env s before :=
      ⟨name, by rw [hroot]⟩
    refine .behind hnode (.bind
      (Q := fun _ c'' => c''.scope = c'.scope.bind name c'.scope.tableAlias)
      rfl fun _ c'' hbound => ?_)
    -- the body is judged in the scope that the row is bound in
    apply h
    rw [hbound]
    exact hbehind.bind name _ entity body
  · rename_i hother
    refine .reject ((Environment.Blames.single (.node ?_)).append more)
    rintro ⟨name', hrow⟩
    cases hrow
    exact hother rfl

/-- A node that is not well formed. -/
theorem Judges.reject {node : Expr} (hnode : ¬node.WellFormed env s before) (defect : Defect)
    (more : List Expr) :
    (CompileM.reject defect node : CompileM α).Judges env s before (node :: more) c := by
  intro _
  exact .reject ((Environment.Blames.single (.node hnode)).append more)

/-! ### Rows and members -/

/-- A row is that of a bound name or of the root. -/
theorem Ends.parameterAlias (h : s.Behind before c.scope) (name : String) (entity : EntityType) :
    (parameterAlias name entity).Ends c
      (fun _ c' => c' = c ∧ (s.Names before name ∨ entity = s.entity))
      (fun cause => ¬(s.Names before name ∨ entity = s.entity)
        ∧ ∃ defect, cause = .notCompilable defect (.parameter name entity)) := by
  refine .bind (Q := fun now c' => now = c.scope ∧ c' = c) ⟨rfl, rfl⟩ ?_
  rintro now c' ⟨rfl, rfl⟩
  have hnames := h.bound name
  -- a name that is bound comes before the type of the row
  split
  · rename_i tableAlias hbound
    rw [hbound] at hnames
    exact .pure ⟨rfl, .inl (hnames.1 rfl)⟩
  · rename_i hunbound
    rw [hunbound] at hnames
    rw [h.entity]
    split
    · rename_i hroot
      exact .pure ⟨rfl, .inr hroot⟩
    · rename_i hother
      refine .reject ⟨?_, _, rfl⟩
      rintro (hname | hroot)
      · exact absurd (hnames.2 hname) (by simp)
      · exact hother hroot

/-- An access is well-formed if its row is known and its members lead to a column. -/
theorem wellFormed_member {target : Expr} {name : String} {p : Expr.Path}
    (hpath : (Expr.member target name).path? = some p) :
    (Expr.member target name).WellFormed env s before
      ↔ (s.Names before p.parameter ∨ p.entity = s.entity)
        ∧ env.mappings.Leads p.entity p.members := by
  unfold Expr.WellFormed
  constructor
  · rintro ⟨q, hq, hrow, hleads⟩
    cases hpath.symm.trans hq
    exact ⟨hrow, hleads⟩
  · rintro ⟨hrow, hleads⟩
    exact ⟨p, hpath, hrow, hleads⟩

/-- An access is resolved if it is well-formed, and blamed otherwise. -/
theorem Judges.resolveAccess (target : Expr) (name : String) :
    (resolveAccess env (.member target name)).Judges env s before [.member target name] c := by
  unfold RowMapper.resolveAccess
  cases hpath : (Expr.member target name).path? with
  | none =>
    refine .reject ?_ _ []
    rintro ⟨p, hp, -⟩
    rw [hpath] at hp
    cases hp
  | some p =>
    have hwellFormed : (Expr.member target name).WellFormed env s before ↔ _ :=
      wellFormed_member hpath
    dsimp only
    split
    · rename_i hempty
      refine .reject (fun h => ?_) _ []
      have hleads := (hwellFormed.1 h).2
      rw [List.isEmpty_iff.1 hempty] at hleads
      exact env.mappings.not_leads_nil p.entity hleads
    · intro hbehind
      refine .bind ((Ends.parameterAlias hbehind p.parameter p.entity).mono (fun _ _ => id) ?_) ?_
      · rintro cause ⟨hunbound, defect, rfl⟩
        refine .single (.row (fun h => hunbound (hwellFormed.1 h).1) hpath hunbound)
      · rintro tableAlias c' ⟨rfl, hrow⟩
        -- the row is known, so the access is judged by where the walk along its members ends
        refine (Ends.follow env _ tableAlias tableAlias p.entity p.members c').mono ?_ ?_
        · rintro reference c'' ⟨hsame, hleads⟩
          refine ⟨(hbehind.visit rfl).same hsame.1 hsame.2, .single ?_⟩
          exact hwellFormed.2 ⟨hrow, hleads⟩
        · rintro cause (⟨hbroken, defect, rfl⟩ | ⟨needed, cause', rfl, hneeds, hunmapped⟩)
          · exact .single (.node fun h => hbroken (hwellFormed.1 h).2)
          · exact .single (.mapping hpath hneeds hunmapped)

/-- A member is written if its access is well-formed. -/
theorem Judges.memberTokens (target : Expr) (name : String) :
    (memberTokens env (.member target name)).Judges env s before [.member target name] c :=
  (Judges.resolveAccess target name).map _

theorem Ends.addParameter (v : Value) (c : Compilation) :
    (addParameter v).Ends c (fun _ c' => SameRows c c') fun _ => False := ⟨rfl, rfl⟩

/-- A boolean member is a condition if its access is well-formed. -/
theorem Judges.conditionTokens (target : Expr) (name : String) :
    (conditionTokens env (.member target name)).Judges env s before [.member target name] c := by
  refine (Judges.resolveAccess target name).quietly fun reference c' => ?_
  exact .bind (Ends.addParameter _ c') fun placeholder c'' hsame => .pure hsame

/-- A row is written if it is known and has a key of one column. -/
theorem Judges.rowTokens (name : String) (entity : EntityType) :
    (rowTokens env name entity).Judges env s before [.parameter name entity] c := by
  intro hbehind
  refine .bind ((Ends.parameterAlias hbehind name entity).mono (fun _ _ => id) ?_) ?_
  · rintro cause ⟨hunbound, defect, rfl⟩
    exact .single (.node fun h => hunbound h.1)
  · rintro tableAlias c' ⟨rfl, hrow⟩
    refine .bind (Q := fun m c'' => c'' = c' ∧ env.mappings entity = .ok m) ?_ ?_
    · refine .mapping (fun m hm => ⟨rfl, hm⟩) fun cause hcause => ?_
      exact .single (.mapping (p := ⟨name, entity, []⟩) rfl .here hcause)
    · rintro m c' ⟨rfl, mapping⟩
      split
      · rename_i key hkey
        refine .pure ⟨hbehind.visit rfl, .single ⟨hrow, m, key, mapping, hkey⟩⟩
      · rename_i hkeys
        refine .reject (.single (.node ?_))
        rintro ⟨-, m', key, mapping', hkey⟩
        cases mapping.symm.trans mapping'
        exact hkeys key hkey

/-! ### Constants -/

/-- Values are added without a failure. -/
theorem Ends.addParameters (values : List Value) (c : Compilation) :
    (addParameters values).Ends c (fun _ c' => SameRows c c') fun _ => False := by
  induction values generalizing c with
  | nil => exact .pure ⟨rfl, rfl⟩
  | cons v rest ih =>
    refine .bind (Ends.addParameter v c) fun placeholder c₁ hfirst => ?_
    refine .bind (ih c₁) fun placeholders c₂ hrest => .pure ?_
    exact ⟨hrest.1.trans hfirst.1, hrest.2.trans hfirst.2⟩

theorem Judges.valueTokens (v : Value) :
    (valueTokens v).Judges env s before [.constant (.value v)] c := by
  refine .visit rfl trivial (.quiet ?_)
  unfold RowMapper.valueTokens
  split
  · exact .pure ⟨rfl, rfl⟩
  · exact .bind (Ends.addParameter v c) fun _ _ hsame => .pure hsame

theorem Judges.listTokens (values : List Value) :
    (listTokens values).Judges env s before [.constant (.list values)] c := by
  refine .visit rfl trivial (.quiet ?_)
  unfold RowMapper.listTokens
  split
  · exact .pure ⟨rfl, rfl⟩
  · exact .bind (Ends.addParameters values c) fun _ _ hsame => .pure hsame

/-- An entity is written if its key is one value that is not empty. -/
theorem Judges.keyTokens (entity : EntityType) (keys : List Value) :
    (keyTokens env (.constant (.entity entity keys)) keys).Judges env s before
      [.constant (.entity entity keys)] c := by
  unfold RowMapper.keyTokens
  split
  · rename_i key
    split
    · rename_i hempty
      refine .reject ?_ _ []
      rintro ⟨key', hkey, hkept⟩
      cases hkey
      rw [hempty] at hkept
      cases hkept
    · rename_i hkept
      refine .visit rfl ⟨key, rfl, by simpa using hkept⟩ (.quiet ?_)
      exact .bind (Ends.addParameter key c) fun _ _ hsame => .pure hsame
  · rename_i hkeys
    refine .reject ?_ _ []
    rintro ⟨key, rfl, -⟩
    exact hkeys key rfl

end CompileM

/-! ## Expressions -/

open CompileM in
/-- The compiler visits the nodes of an expression, in their order, under any node. The induction is
on the expression, for all nodes visited before. -/
theorem compile_judges {env : Environment} (hr : env.Standard) {s : Scope} (e : Expr)
    (parent : Option Expr) (before : List Expr) (c : Compilation) :
    (compile env parent e).Judges env s before e.visited c := by
  induction e generalizing parent before c with
  | lambda row body _ ih =>
    cases row with
    | parameter name entity =>
      rw [compile_lambda hr]
      exact .lambda fun c' => ih _ _ c'
    | _ =>
      rw [compile_lambda_of_ne hr fun name entity h => by cases h]
      refine .reject ?_ _ _
      rintro ⟨name, h⟩
      cases h
  | parameter name entity =>
    rw [compile_parameter hr]
    exact .rowTokens name entity
  | member target name _ =>
    rw [compile_member hr]
    split
    · exact .conditionTokens target name
    · cases hplain : target.unwrapConvert with
      | member | parameter => exact .memberTokens target name
      | convert arg type => exact absurd hplain (target.unwrapConvert_ne_convert arg type)
      | _ =>
        -- no chain of members starts there
        refine .reject ?_ _ []
        rintro ⟨p, hp, -⟩
        obtain ⟨q, hq, -⟩ := Option.map_eq_some_iff.1 hp
        rw [← Expr.path?_unwrapConvert, hplain] at hq
        cases hq
  | constant constant =>
    cases constant with
    | value v =>
      rw [compile_value hr]
      exact .valueTokens v
    | list values =>
      rw [compile_list hr]
      exact .listTokens values
    | entity entity keys =>
      rw [compile_entity hr]
      exact .keyTokens entity keys
  | unary op arg ih =>
    rw [compile_unary hr]
    exact .visit rfl trivial ((ih _ _ c).map _)
  | binary op lhs rhs ihl ihr =>
    rw [compile_binary hr, Expr.visited]
    refine .visit rfl trivial ?_
    cases htested : Expr.nullTested? op lhs rhs with
    | some operand =>
      have hvisited := Expr.side_of_nullTested? htested Expr.visited (lhs.visited ++ rhs.visited)
      rw [htested] at hvisited
      rw [hvisited]
      have ih : (compile env (some (.binary op lhs rhs)) operand).Judges env s
          (before ++ [.binary op lhs rhs]) operand.visited c := by
        rcases Expr.eq_of_nullTested? htested with rfl | rfl
        · exact ihl _ _ c
        · exact ihr _ _ c
      exact ih.map _
    | none => exact (ihl _ _ c).bind fun left c' => (ihr _ _ c').map _
  | convert arg type ih =>
    rw [compile_convert hr]
    exact .visit rfl trivial (ih _ _ c)
  | contains collection item ihc ihi =>
    rw [compile_contains hr, Expr.visited]
    cases hcollection : collection.unwrapConvert with
    | constant constant =>
      cases constant with
      | list values =>
        refine .visit rfl ⟨values, hcollection⟩ ?_
        cases values with
        | nil => exact .pure _
        | cons v rest => exact (ihi _ _ c).bind fun member c' => (ihc _ _ c').map _
      | _ =>
        refine .reject ?_ _ _
        rintro ⟨values, hvalues⟩
        simp [hcollection] at hvalues
    | _ =>
      refine .reject ?_ _ _
      rintro ⟨values, hvalues⟩
      simp [hcollection] at hvalues

/-! ### Subexpressions -/

/-- An expression is one of its nodes. -/
theorem Expr.mem_nodes_self (e : Expr) : e ∈ e.nodes := by
  cases e <;> exact List.mem_cons_self

/-- The nodes of a visited node are nodes of the expression. -/
theorem Expr.nodes_subset_of_mem_visited {e node : Expr} (h : node ∈ e.visited) :
    node.nodes ⊆ e.nodes := by
  induction e with
  | lambda row body _ ih =>
    rcases List.mem_cons.1 h with rfl | h
    · exact List.Subset.refl _
    · exact List.Subset.trans (ih h) (List.subset_cons_self _ _)
  | unary op arg ih =>
    rcases List.mem_cons.1 h with rfl | h
    · exact List.Subset.refl _
    · exact List.Subset.trans (ih h) (List.subset_cons_self _ _)
  | convert arg type ih =>
    rcases List.mem_cons.1 h with rfl | h
    · exact List.Subset.refl _
    · exact List.Subset.trans (ih h) (List.subset_cons_self _ _)
  | binary op lhs rhs ihl ihr =>
    -- a node with two sides may visit one of them only
    have hl (h : node ∈ lhs.visited) : node.nodes ⊆ (binary op lhs rhs).nodes :=
      fun x hx => List.mem_cons_of_mem _ (List.mem_append_left _ (ihl h hx))
    have hr (h : node ∈ rhs.visited) : node.nodes ⊆ (binary op lhs rhs).nodes :=
      fun x hx => List.mem_cons_of_mem _ (List.mem_append_right _ (ihr h hx))
    rw [visited] at h
    rcases List.mem_cons.1 h with rfl | h
    · exact List.Subset.refl _
    · split at h
      · exact (List.mem_append.1 h).elim hl hr
      · split at h
        · exact hr h
        · exact hl h
  | contains collection item ihc ihi =>
    rw [visited] at h
    rcases List.mem_cons.1 h with rfl | h
    · exact List.Subset.refl _
    · split at h
      · exact absurd h List.not_mem_nil
      · intro x hx
        apply List.mem_cons_of_mem
        rcases List.mem_append.1 h with h | h
        · exact List.mem_append_right _ (ihi h hx)
        · exact List.mem_append_left _ (ihc h hx)
  | parameter | member | constant =>
    rw [List.mem_singleton.1 h]
    exact List.Subset.refl _

/-- If all types on the way have a mapping, an expression compiles exactly if all nodes that are
visited are well formed. Otherwise the failure blames the first one that is not: the node itself,
or the row that its chain of members starts at if nothing is bound to it. -/
theorem Expr.compiles_iff_well_formed {env : Environment} (hr : env.Standard) (e : Expr) (s : Scope)
    (hmapped : ∀ node ∈ e.visited, ∀ p, node.path? = some p →
      ∀ entity, env.mappings.Needs p.entity p.members entity →
        ∃ m, env.mappings entity = .ok m) :
    ((∃ ts, (e.compileInto env s).outcome = .ok ts) ↔ env.Accepts s [] e.visited)
      ∧ (¬env.Accepts s [] e.visited → ∃ before node after defect blamed,
        e.visited = before ++ node :: after ∧ env.Accepts s [] before
          ∧ ¬node.WellFormed env s before
          ∧ (e.compileInto env s).outcome = .error (.notCompilable defect blamed)
          ∧ blamed ∈ e.nodes
          ∧ (blamed = node ∨ ∃ p, node.path? = some p ∧ blamed = p.root
            ∧ ¬(s.Names before p.parameter ∨ p.entity = s.entity))) := by
  have hjudged := compile_judges hr e none [] ⟨s, []⟩ s.behind_nil
  unfold CompileM.Ends at hjudged
  have houtcome : (e.compileInto env s).outcome
      = ((compile env none e).runFrom ⟨s, []⟩).1 := rfl
  rw [houtcome]
  rcases hrun : (compile env none e).runFrom ⟨s, []⟩ with ⟨cause | ts, c⟩ <;> rw [hrun] at hjudged
  · obtain ⟨before, node, after, hvisited, hbefore, hfaulty⟩ := hjudged
    rw [List.nil_append] at hfaulty
    have hmem : node ∈ e.visited := by simp [hvisited]
    have hnodes : node.nodes ⊆ e.nodes := nodes_subset_of_mem_visited hmem
    have hrefused (bad : ¬node.WellFormed env s before) : ¬env.Accepts s [] e.visited :=
      fun haccepted => bad (haccepted before node after hvisited)
    cases hfaulty with
    | node bad =>
      refine ⟨⟨nofun, fun h => absurd h (hrefused bad)⟩, fun _ => ?_⟩
      exact ⟨before, node, after, _, node, hvisited, hbefore, bad, rfl,
        hnodes node.mem_nodes_self, .inl rfl⟩
    | row bad path unbound =>
      refine ⟨⟨nofun, fun h => absurd h (hrefused bad)⟩, fun _ => ?_⟩
      exact ⟨before, node, after, _, _, hvisited, hbefore, bad, rfl,
        hnodes (root_mem_nodes path), .inr ⟨_, path, rfl, unbound⟩⟩
    | mapping path needs unmapped =>
      -- all mappings that are asked for exist, so no failure is one of a mapping
      obtain ⟨m, hm⟩ := hmapped node hmem _ path _ needs
      cases hm.symm.trans unmapped
  · obtain ⟨-, haccepted⟩ := hjudged
    exact ⟨⟨fun _ => haccepted, fun _ => ⟨ts, rfl⟩⟩, fun hnot => absurd haccepted hnot⟩

namespace Company

/-- A condition over employees that names a row which is not bound. -/
def strange : Expr :=
  .lambda someone (.binary .and (.member someone "active")
    (.binary .equal (.member (.parameter "y" department) "name")
      (.constant (.value (.of (.varchar "a"))))))

end Company

/-- A row that is not bound is blamed, behind an access that is well-formed. -/
theorem Expr.compiles_iff_well_formed_strange :
    let env := Dialect.generic.environment Company.mappings {}
    let s := Scope.ofMapping (Company.mapping Company.employee)
    let y := Expr.parameter "y" Company.department
    (∃ before after, Company.strange.visited = before ++ .member y "name" :: after
        ∧ env.Accepts s [] before ∧ ¬(Expr.member y "name").WellFormed env s before)
      ∧ ((Company.strange.compileInto env s).outcome = .error (.notCompilable
        (.unbound "y" Company.department Company.employee) y)) := by
  intro env s y
  have houtcome : (Company.strange.compileInto env s).outcome = .error (.notCompilable
      (.unbound "y" Company.department Company.employee) y) := by
    decide +kernel
  refine ⟨?_, houtcome⟩
  -- no chain of the expression needs more than the type that it starts at
  have hmapped : ∀ node ∈ Company.strange.visited, ∀ p, node.path? = some p →
      ∀ entity, env.mappings.Needs p.entity p.members entity →
        ∃ m, env.mappings entity = .ok m := by
    have hplaces : ∀ node ∈ Company.strange.visited, ∀ p ∈ node.path?,
        p.members.tail = [] ∧ (env.mappings p.entity).toOption.isSome = true := by
      decide +kernel
    intro node hnode p hp entity hneeds
    obtain ⟨hlast, hresolved⟩ := hplaces node hnode p hp
    generalize p.members = members at hlast hneeds
    cases hneeds with
    | here =>
      obtain ⟨m, hm⟩ := Option.isSome_iff_exists.1 hresolved
      exact ⟨m, Except.eq_ok_of_toOption hm⟩
    | through mapping found more => exact absurd hlast more
  have hvisited : ∀ node ∈ Company.strange.visited,
      node.path?.map Path.root = some y → node = .member y "name" := by
    decide
  obtain ⟨hiff, hblamed⟩ :=
    Expr.compiles_iff_well_formed (show env.Standard from rfl) Company.strange s hmapped
  have hrefused : ¬env.Accepts s [] Company.strange.visited := by
    rw [← hiff, houtcome]
    rintro ⟨ts, hts⟩
    cases hts
  obtain ⟨before, node, after, defect, blamed, hsplit, hbefore, hbad, hcause, -, hnode⟩ :=
    hblamed hrefused
  have hmem : node ∈ Company.strange.visited := by simp [hsplit]
  rw [houtcome] at hcause
  cases hcause
  have hroot : node.path?.map Path.root = some y := by
    rcases hnode with rfl | ⟨p, hp, hroot, -⟩
    · rfl
    · rw [hp, hroot]
      rfl
  obtain rfl := hvisited node hmem hroot
  exact ⟨before, after, hsplit, hbefore, hbad⟩

end RowMapper
