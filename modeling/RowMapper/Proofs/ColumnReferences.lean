import RowMapper.Proofs.CompiledText
import RowMapper.Proofs.Navigation
import RowMapper.Sample.Company

/-!
# Column references in texts

The columns that the text of an expression names behind aliases, and the two sides of the joins
that the expression asks for, are columns that the types map which the aliases stand for.

* `Lexeme.ReadsColumn` finds a column in what is read of a text; `reads_column` says that only the
  columns of a compilation are found there.
* `Mappings.joinPaths` and `Expr.joinPaths` are the navigations that are joined.
* `Compiles.scoped` is the induction over derivations, `columns_of_calls` the result for the
  statements of a registry.
-/

namespace RowMapper

/-! ## Columns in a text -/

/-- A column behind an alias is read somewhere. -/
def Lexeme.ReadsColumn (ls : List Lexeme) (a column : String) : Prop :=
  [.word a, .symbol ".", .name column] <:+: ls

namespace Text

/-- The word has no dot of its own in it. -/
def isDotless (w : String) : Bool :=
  Quoting.usual.all fun q => (scan q .nothing w.toList).all (· != .symbol ".")

end Text

/-- The token is no name and has no dot of its own in it. -/
def Token.IsPlain : Token → Prop
  | .word w => Text.isDotless w = true
  | .identifier _ _ => False
  | .parameter _ => True

/-- The tokens are plain, or columns of which something holds. -/
def Tokens.Columned (env : Environment) (R : String → String → Prop) (ts : Tokens) : Prop :=
  ∀ t ∈ ts, t.IsPlain ∨ ∃ a column, t = env.column a column ∧ R a column

section

variable {d : Dialect} {env : Environment} {R R' : String → String → Prop} {ts : Tokens}

/-- No dot is read of a plain token, so that it names no column. -/
theorem Token.IsPlain.dotless (hd : d.quoting ∈ Quoting.usual) {t : Token} (h : t.IsPlain) :
    ∀ l ∈ t.lexemes d, l ≠ .symbol "." := by
  cases t with
  | word w =>
    have hall := List.all_eq_true.1 h d.quoting hd
    intro l hl
    simpa using List.all_eq_true.1 hall l hl
  | identifier => exact absurd h id
  | parameter i =>
    intro l hl
    rw [Token.lexemes_parameter hd, List.mem_singleton] at hl
    rw [hl]
    exact nofun

/-- A column is read as its name, behind the alias if the context asks for it. -/
theorem Environment.lexemes_column (hd : d.quoting ∈ Quoting.usual) (env : Environment) {a : String}
    (h : IsAlias a) (column : String) : (env.column a column).lexemes d =
      if env.context.qualified then [.word a, .symbol ".", .name column] else [.name column] := by
  have hlexemes := (legible_identifier hd (env.isQualifier_column h) column).2
  rw [Environment.column, hlexemes, Lexeme.ofColumn]
  cases env.context.qualified with
  | true => simp [h.ne_empty]
  | false => simp

/-- What is read of tokens does not begin with a dot. -/
theorem Tokens.Columned.head (hd : d.quoting ∈ Quoting.usual) (h : Tokens.Columned env R ts)
    (hR : ∀ a column, R a column → IsAlias a) :
    ∀ l ∈ (Tokens.lexemes d ts).head?, l ≠ .symbol "." := by
  induction ts with
  | nil => exact nofun
  | cons t ts ih =>
    intro l hl
    rw [Tokens.lexemes_cons] at hl
    rcases h t List.mem_cons_self with hplain | ⟨a, column, rfl, hcolumn⟩
    · cases hlexemes : t.lexemes d with
      | nil =>
        rw [hlexemes] at hl
        exact ih (fun t ht => h t (List.mem_cons_of_mem _ ht)) l hl
      | cons first more =>
        rw [hlexemes] at hl
        obtain rfl := Option.some.inj hl
        exact hplain.dotless hd first (hlexemes ▸ List.mem_cons_self)
    · rw [Environment.lexemes_column hd env (hR a column hcolumn)] at hl
      cases hqualified : env.context.qualified <;> rw [hqualified] at hl <;>
        obtain rfl := Option.some.inj hl <;> exact nofun

/-- Lexemes without dots do not take part in what stands around a dot. -/
theorem Lexeme.dotted_of_append {ls rest more : List Lexeme} {x : Lexeme}
    (hls : ∀ l ∈ ls, l ≠ .symbol ".") (hrest : ∀ l ∈ rest.head?, l ≠ .symbol ".")
    (h : x :: .symbol "." :: more <:+: ls ++ rest) : x :: .symbol "." :: more <:+: rest := by
  induction ls with
  | nil => exact h
  | cons l ls ih =>
    rcases List.infix_cons_iff.1 h with hprefix | hmore
    · -- the dot would be the next one
      have hdot : Lexeme.symbol "." ∈ (ls ++ rest).head? := by
        obtain ⟨behind, hbehind⟩ := hprefix
        have htail : .symbol "." :: (more ++ behind) = ls ++ rest := (List.cons.inj hbehind).2
        rw [← htail]
        rfl
      cases ls with
      | nil => exact absurd rfl (hrest _ hdot)
      | cons next ls =>
        obtain rfl := Option.some.inj hdot
        exact absurd rfl (hls _ (List.mem_cons_of_mem _ List.mem_cons_self))
    · exact ih (fun l hl => hls l (List.mem_cons_of_mem _ hl)) hmore

/-- What is read around a dot is a column of the tokens. -/
theorem Tokens.Columned.dotted (hd : d.quoting ∈ Quoting.usual) (h : Tokens.Columned env R ts)
    (hR : ∀ a column, R a column → IsAlias a) {x : Lexeme} {more : List Lexeme}
    (hread : x :: .symbol "." :: more <:+: Tokens.lexemes d ts) :
    ∃ a column rest, R a column ∧ x = .word a ∧ more <+: .name column :: rest := by
  induction ts with
  | nil => exact absurd (List.eq_nil_of_infix_nil hread) (by simp)
  | cons t ts ih =>
    have hrest : Tokens.Columned env R ts := fun t ht => h t (List.mem_cons_of_mem _ ht)
    have hhead := hrest.head hd hR
    rw [Tokens.lexemes_cons] at hread
    rcases h t List.mem_cons_self with hplain | ⟨b, name, rfl, hcolumn⟩
    · exact ih hrest (Lexeme.dotted_of_append (hplain.dotless hd) hhead hread)
    · have hname : ∀ l ∈ [Lexeme.name name], l ≠ .symbol "." := by simp
      rw [Environment.lexemes_column hd env (hR b name hcolumn)] at hread
      cases hqualified : env.context.qualified with
      | false =>
        rw [hqualified] at hread
        exact ih hrest (Lexeme.dotted_of_append hname hhead hread)
      | true =>
        rw [hqualified] at hread
        rcases List.infix_cons_iff.1 hread with hprefix | hmore
        · -- the column is the one that stands here
          obtain ⟨hword, hprefix⟩ := List.cons_prefix_cons.1 hprefix
          exact ⟨b, name, Tokens.lexemes d ts, hcolumn, hword,
            (List.cons_prefix_cons.1 hprefix).2⟩
        · rcases List.infix_cons_iff.1 hmore with hprefix | hmore
          · obtain ⟨behind, hbehind⟩ := hprefix
            cases hbehind
          · exact ih hrest (Lexeme.dotted_of_append hname hhead hmore)

/-- What is read as a column is a column of the tokens. -/
theorem Tokens.Columned.reads (hd : d.quoting ∈ Quoting.usual) (h : Tokens.Columned env R ts)
    (hR : ∀ a column, R a column → IsAlias a) {a column : String}
    (hread : Lexeme.ReadsColumn (Tokens.lexemes d ts) a column) : R a column := by
  obtain ⟨b, name, rest, hcolumn, hword, hname⟩ := h.dotted hd hR hread
  obtain rfl := Lexeme.word.inj hword
  obtain rfl := Lexeme.name.inj (List.cons_prefix_cons.1 hname).1
  exact hcolumn

/-! ### Pieces with columns -/

theorem Tokens.Columned.mono (h : Tokens.Columned env R ts)
    (hR : ∀ a column, R a column → R' a column) : Tokens.Columned env R' ts := by
  intro t ht
  rcases h t ht with hplain | ⟨a, column, rfl, hcolumn⟩
  · exact .inl hplain
  · exact .inr ⟨a, column, rfl, hR a column hcolumn⟩

theorem Tokens.Columned.append {us : Tokens} (h : Tokens.Columned env R ts)
    (h' : Tokens.Columned env R us) : Tokens.Columned env R (ts ++ us) :=
  List.forall_mem_append.2 ⟨h, h'⟩

theorem Tokens.Columned.cons {t : Token} (ht : t.IsPlain) (h : Tokens.Columned env R ts) :
    Tokens.Columned env R (t :: ts) :=
  List.forall_mem_cons.2 ⟨.inl ht, h⟩

theorem Tokens.columned_nil : Tokens.Columned env R [] := fun _ ht => absurd ht List.not_mem_nil

/-- A column is the one that it names. -/
theorem Tokens.columned_column {a column : String} (h : R a column) :
    Tokens.Columned env R [env.column a column] :=
  fun _ ht => .inr ⟨a, column, List.mem_singleton.1 ht, h⟩

theorem Tokens.Columned.parenthesizedIf (h : Tokens.Columned env R ts) (needed : Bool) :
    Tokens.Columned env R (Tokens.parenthesizedIf needed ts) := by
  have hdotless : ∀ w ∈ ["(", ")"], Text.isDotless w = true := by decide
  intro t ht
  rcases mem_of_mem_parenthesizedIf ht with ht | ⟨w, hw, rfl⟩
  · exact h t ht
  · exact .inl (hdotless w hw)

/-- Placeholders name no column. -/
theorem Tokens.columned_parameterList (first count : Nat) :
    Tokens.Columned env R (Tokens.parameterList first count) := by
  have hdotless : ∀ w ∈ ["(", ", ", ")"], Text.isDotless w = true := by decide
  intro t ht
  rcases mem_of_mem_parameterList ht with ⟨w, hw, rfl⟩ | ⟨i, -, rfl⟩
  · exact .inl (hdotless w hw)
  · exact .inl trivial

end

/-! ## Requested joins -/

/-- The navigations that a walk along members joins, in order. -/
def Mappings.joinPaths (mappings : Mappings) (navigation : String) (entity : EntityType) :
    List String → List String
  | [] | [_] => []
  | segment :: rest =>
    match (mappings entity).toOption.bind (·.member? segment) with
    | some (.foreign _ reference) =>
      if rest = [reference.targetKey] then []
      else
        let navigation := navigation ++ "." ++ segment
        navigation :: mappings.joinPaths navigation reference.target rest
    | _ => []

/-- A walk through a foreign object joins it, unless the walk ends in the key that it holds. -/
theorem Mappings.joinPaths_foreign {mappings : Mappings} {navigation segment : String}
    {entity : EntityType} {rest : List String} {m : TypeMapping} {c : ColumnMapping}
    {reference : Reference} (mapping : mappings entity = .ok m)
    (found : m.member? segment = some (.foreign c reference)) (more : rest ≠ []) :
    mappings.joinPaths navigation entity (segment :: rest) =
      if rest = [reference.targetKey] then []
      else (navigation ++ "." ++ segment)
        :: mappings.joinPaths (navigation ++ "." ++ segment) reference.target rest := by
  have hmember : (mappings entity).toOption.bind (·.member? segment)
      = some (.foreign c reference) := by
    rw [mapping]
    exact found
  cases rest with
  | nil => exact absurd rfl more
  | cons next rest =>
    rw [Mappings.joinPaths, hmember]
    simp

/-- The navigations that the expression joins, from the alias of the root. -/
def Expr.joinPaths (mappings : Mappings) : Expr → List String
  | .lambda _ body => body.joinPaths mappings
  | .parameter _ _ | .constant _ => []
  | .member target name =>
    match (Expr.member target name).path? with
    | some path => mappings.joinPaths "t0" path.entity path.members
    | none => []
  | .unary _ arg => arg.joinPaths mappings
  | .binary op lhs rhs =>
    if (nullTested? op lhs rhs).isNone then lhs.joinPaths mappings ++ rhs.joinPaths mappings
    else if lhs.isNullConstant then rhs.joinPaths mappings
    else lhs.joinPaths mappings
  | .convert arg _ => arg.joinPaths mappings
  | .contains collection item =>
    match collection.unwrapConvert with
    | .constant (.list (_ :: _)) => item.joinPaths mappings
    | _ => []

/-- A join for the navigation is there, and both of its sides are columns of their aliases. -/
def Scope.HasJoin (mappings : Mappings) (s : Scope) (path : String) : Prop :=
  ∃ j ∈ s.joins, j.path = path ∧ s.HasColumn mappings j.leftAlias j.leftColumn
    ∧ s.HasColumn mappings j.tableAlias j.rightColumn

section

variable {env : Environment} {root : TypeMapping} {names : String → Prop} {s s' : Scope}

/-- A later scope has the joins of an earlier one. -/
theorem Scope.Navigable.hasJoin_mono (h : s.Navigable env.mappings root names)
    (h' : s'.Navigable env.mappings root names) (hm : env.mappings.Navigable)
    (hroot : env.mappings root.entity = .ok root) (hext : s.Extends s') {path : String}
    (hjoin : s.HasJoin env.mappings path) : s'.HasJoin env.mappings path := by
  obtain ⟨j, hj, hpath, hleft, hright⟩ := hjoin
  exact ⟨j, hext.joins.subset hj, hpath, h.hasColumn_mono h' hm hroot hext hleft,
    h.hasColumn_mono h' hm hroot hext hright⟩

/-- A chain is followed in the mapping of the type that it starts at. -/
theorem Follows.mapping {a navigation : String} {entity : EntityType} {members : List String}
    {ref : ColumnReference} (h : Follows env s a navigation entity members ref s') :
    ∃ m, env.mappings entity = .ok m := by
  cases h with
  | column mapping | key mapping | join mapping => exact ⟨_, mapping⟩

/-- What a walk leads to: the column is one of its alias, the joins on the way are there, and no
others were made. -/
theorem Follows.scoped (hm : env.mappings.Navigable) (hroot : env.mappings root.entity = .ok root)
    {a navigation : String} {entity : EntityType} {members : List String} {ref : ColumnReference}
    (h : Follows env s a navigation entity members ref s')
    (hs : s.Navigable env.mappings root names)
    (hstands : s.StandsFor env.mappings a navigation entity) :
    s'.Navigable env.mappings root names
      ∧ (IsAlias ref.tableAlias ∧ s'.HasColumn env.mappings ref.tableAlias ref.column)
      ∧ (∀ path ∈ env.mappings.joinPaths navigation entity members, s'.HasJoin env.mappings path)
      ∧ ∀ j ∈ s'.joins, j ∈ s.joins
        ∨ j.path ∈ env.mappings.joinPaths navigation entity members := by
  induction h with
  | column mapping found column =>
    have hk := TypeMapping.mem_columns_of_member? found column
    exact ⟨hs, ⟨hs.isAlias hstands, hs.hasColumn hm hroot hstands mapping hk⟩,
      fun _ hpath => absurd hpath List.not_mem_nil, fun _ hj => .inl hj⟩
  | key mapping found =>
    have hk := TypeMapping.mem_columns_of_member? found rfl
    refine ⟨hs, ⟨hs.isAlias hstands, hs.hasColumn hm hroot hstands mapping hk⟩, ?_,
      fun _ hj => .inl hj⟩
    rw [Mappings.joinPaths_foreign mapping found (by simp), if_pos rfl]
    exact fun _ hpath => absurd hpath List.not_mem_nil
  | @join s a navigation entity segment rest m c reference joined s₁ ref s' mapping found more
      notKey required tail ih =>
    obtain ⟨hs₁, j, hj, rfl, hthrough, hnew⟩ := hs.requireJoin hm hstands mapping found required
    have hstands₁ : s₁.StandsFor env.mappings j.tableAlias (navigation ++ "." ++ segment)
        reference.target := hthrough.path ▸ hthrough.standsFor hj
    obtain ⟨hs', hcolumn, hjoins, hmade⟩ := ih hs₁ hstands₁
    -- the target has a mapping, for the walk goes on there
    obtain ⟨target, htarget⟩ := tail.mapping
    obtain ⟨-, k, hk, hkcolumn⟩ := hm.coherent _ _ _ _ _ _ mapping found htarget
    have hleft : s₁.HasColumn env.mappings j.leftAlias j.leftColumn := by
      have hc := TypeMapping.mem_columns_of_member? found rfl
      rw [hthrough.leftColumn]
      exact hs₁.hasColumn hm hroot hthrough.left mapping hc
    have hright : s₁.HasColumn env.mappings j.tableAlias j.rightColumn := by
      rw [hthrough.rightColumn, ← hkcolumn]
      exact hs₁.hasColumn hm hroot hstands₁ htarget hk
    have hext : s₁.Extends s' := (tail.steps hstands₁.knows).1.extends
    rw [Mappings.joinPaths_foreign mapping found more, if_neg notKey]
    refine ⟨hs', hcolumn, fun path hpath => ?_, fun i hi => ?_⟩
    · rcases List.mem_cons.1 hpath with rfl | hpath
      · exact hs₁.hasJoin_mono hs' hm hroot hext ⟨j, hj, hthrough.path, hleft, hright⟩
      · exact hjoins path hpath
    · rcases hmade i hi with hi | hi
      · rcases List.mem_cons.1 (hnew hi) with rfl | hi
        · exact .inr (hthrough.path ▸ List.mem_cons_self)
        · exact .inl hi
      · exact .inr (List.mem_cons_of_mem _ hi)

end

/-! ## Derivations -/

/-- What a compilation leads to that began in a scope of the root: the columns in its tokens are
columns of their aliases, its joins are there, and it made no others. -/
structure Scoped (env : Environment) (root : TypeMapping) (names : String → Prop) (e : Expr)
    (s : Scope) (ts : Tokens) (s' : Scope) : Prop where
  navigable : s'.Navigable env.mappings root names
  columns : Tokens.Columned env
    (fun a column => IsAlias a ∧ s'.HasColumn env.mappings a column) ts
  joined : ∀ path ∈ e.joinPaths env.mappings, s'.HasJoin env.mappings path
  made : ∀ j ∈ s'.joins, j ∈ s.joins ∨ j.path ∈ e.joinPaths env.mappings

section

variable {env : Environment} {root : TypeMapping} {names : String → Prop} {s s₁ s' : Scope}

/-- Nodes without joins. -/
theorem Scoped.of_no_joins {e : Expr} {ts : Tokens}
    (hs' : s'.Navigable env.mappings root names) (hjoins : s'.joins = s.joins)
    (hcolumns : Tokens.Columned env
      (fun a column => IsAlias a ∧ s'.HasColumn env.mappings a column) ts)
    (hpaths : e.joinPaths env.mappings = []) : Scoped env root names e s ts s' where
  navigable := hs'
  columns := hcolumns
  joined := fun path hpath => by
    rw [hpaths] at hpath
    exact absurd hpath List.not_mem_nil
  made := fun _ hj => .inl (hjoins ▸ hj)

/-- What a compilation led to is still there in a later scope. -/
theorem Scoped.kept (hm : env.mappings.Navigable) (hroot : env.mappings root.entity = .ok root)
    {e : Expr} {ts : Tokens} (h : Scoped env root names e s ts s₁)
    (hs' : s'.Navigable env.mappings root names) (hext : s₁.Extends s') :
    Tokens.Columned env (fun a column => IsAlias a ∧ s'.HasColumn env.mappings a column) ts
      ∧ ∀ path ∈ e.joinPaths env.mappings, s'.HasJoin env.mappings path := by
  refine ⟨h.columns.mono fun a column hcolumn => ⟨hcolumn.1, ?_⟩, fun path hpath => ?_⟩
  · exact h.navigable.hasColumn_mono hs' hm hroot hext hcolumn.2
  · exact h.navigable.hasJoin_mono hs' hm hroot hext (h.joined path hpath)

/-- A member access leads to its column. -/
theorem Resolves.scoped (hm : env.mappings.Navigable)
    (hroot : env.mappings root.entity = .ok root) {target : Expr} {name : String}
    {ref : ColumnReference} (h : Resolves env s (.member target name) ref s')
    (hrow : ∀ row entity, .parameter row entity ∈ (Expr.member target name).nodes →
      entity = root.entity ∨ ¬ names row)
    (hs : s.Navigable env.mappings root names) :
    Scoped env root names (.member target name) s [env.column ref.tableAlias ref.column] s' := by
  obtain ⟨path, rowAlias, hpath, halias, hwalk⟩ := h
  have hstands := hs.standsFor_rowAlias (hrow _ _ (Expr.root_mem_nodes hpath)) halias
  have hzero : rowAlias = "t0" := by
    rcases Scope.rowAlias?_eq_some halias with hroot | ⟨b, hb, rfl⟩
    · exact hroot.trans hs.tableAlias
    · exact (hs.bound b hb).2.trans hs.tableAlias
  have hpaths : (Expr.member target name).joinPaths env.mappings
      = env.mappings.joinPaths rowAlias path.entity path.members := by
    rw [Expr.joinPaths, hpath, hzero]
  obtain ⟨hs', hcolumn, hjoined, hmade⟩ := hwalk.scoped hm hroot hs hstands
  refine ⟨hs', Tokens.columned_column hcolumn, ?_, ?_⟩
  · rwa [hpaths]
  · rwa [hpaths]

/-- An operator has no dot of its own. -/
theorem BinaryOp.isPlain_text (op : BinaryOp) : (Token.word op.text).IsPlain := by
  show Text.isDotless op.text = true
  cases op <;> decide

theorem UnaryOp.isPlain_text (op : UnaryOp) : (Token.word op.text).IsPlain := by
  show Text.isDotless op.text = true
  cases op <;> decide

theorem isPlain_nullTest (negated : Bool) : (nullTest negated).IsPlain := by
  show Text.isDotless _ = true
  cases negated <;> decide

theorem isPlain_null : Token.null.IsPlain := by
  show Text.isDotless _ = true
  decide

/-- The sides of a node with two are nodes below it. -/
theorem Expr.sides_subset {e lhs rhs : Expr} {all : List Expr}
    (h : e :: (lhs.nodes ++ rhs.nodes) ⊆ all) : lhs.nodes ⊆ all ∧ rhs.nodes ⊆ all :=
  List.append_subset.1 (List.cons_subset.1 h).2

/-- Every derivation that begins in a scope of the root leads to columns of their aliases. -/
theorem Compiles.scoped {all : List Expr} (hm : env.mappings.Navigable)
    (hroot : env.mappings root.entity = .ok root) (hrows : Scope.Agreeing root.entity all)
    {parent : Option Expr} {e : Expr} {ts : Tokens} (h : Compiles env parent e s ts s')
    (hsub : e.nodes ⊆ all)
    (hs : s.Navigable env.mappings root (Scope.Binds root.entity all)) :
    Scoped env root (Scope.Binds root.entity all) e s ts s' := by
  induction h with
  | @lambda parent name body s ts s' inner ih =>
    have hname : Scope.Binds root.entity all name := by
      refine ⟨_, hsub List.mem_cons_self, ?_⟩
      rw [← hs.entity]
      rfl
    obtain ⟨hs', hcolumns, hjoined, hmade⟩ :=
      ih (List.cons_subset.1 hsub).2 (hs.bind hname)
    rw [Scope.bind_joins] at hmade
    exact ⟨hs', hcolumns, hjoined, hmade⟩
  | @nullTest parent op lhs rhs operand s ts s' tested inner ih =>
    have hpaths : (Expr.binary op lhs rhs).joinPaths env.mappings
        = operand.joinPaths env.mappings :=
      Expr.side_of_nullTested? tested (·.joinPaths env.mappings) _
    have hnodes : operand.nodes ⊆ all := by
      obtain ⟨hlhs, hrhs⟩ := Expr.sides_subset hsub
      rcases Expr.eq_of_nullTested? tested with rfl | rfl
      · exact hlhs
      · exact hrhs
    obtain ⟨hs', hcolumns, hjoined, hmade⟩ := ih hnodes hs
    refine ⟨hs', (hcolumns.parenthesizedIf _).append ?_, ?_, ?_⟩
    · exact Tokens.columned_nil.cons (isPlain_nullTest _)
    · rwa [hpaths]
    · rwa [hpaths]
  | @binary parent op lhs rhs s left s₁ right s' untested first second ihl ihr =>
    obtain ⟨hlhs, hrhs⟩ := Expr.sides_subset hsub
    have hfirst := ihl hlhs hs
    obtain ⟨hs', hright, hjoined', hmade'⟩ := ihr hrhs hfirst.navigable
    have hpaths : (Expr.binary op lhs rhs).joinPaths env.mappings
        = lhs.joinPaths env.mappings ++ rhs.joinPaths env.mappings := by
      simp only [Expr.joinPaths, untested, Option.isNone_none, if_true]
    -- what the left side led to is still there behind the right side
    obtain ⟨hleft, hjoined⟩ := hfirst.kept hm hroot hs' second.steps.extends
    refine ⟨hs', ?_, ?_, ?_⟩
    · exact (hleft.parenthesizedIf _).append ((hright.parenthesizedIf _).cons op.isPlain_text)
    · rw [hpaths]
      exact List.forall_mem_append.2 ⟨hjoined, hjoined'⟩
    · rw [hpaths]
      intro j hj
      rcases hmade' j hj with hj | hj
      · exact (hfirst.made j hj).imp_right (List.mem_append_left _)
      · exact .inr (List.mem_append_right _ hj)
  | @unary parent op arg s ts s' inner ih =>
    obtain ⟨hs', hcolumns, hjoined, hmade⟩ := ih (List.cons_subset.1 hsub).2 hs
    exact ⟨hs', (hcolumns.parenthesizedIf _).cons op.isPlain_text, hjoined, hmade⟩
  | convert inner ih =>
    obtain ⟨hs', hcolumns, hjoined, hmade⟩ := ih (List.cons_subset.1 hsub).2 hs
    exact ⟨hs', hcolumns, hjoined, hmade⟩
  | nothing empty =>
    have hplain : Token.IsPlain (.word "1 = 0") := by
      show Text.isDotless _ = true
      decide
    exact .of_no_joins hs rfl (Tokens.columned_nil.cons hplain) (by rw [Expr.joinPaths, empty])
  | @membership parent collection item s ts s₁ vs list filled inner ih =>
    have hinner := ih (Expr.sides_subset hsub).2 hs
    obtain ⟨v, more, rfl⟩ := List.exists_cons_of_ne_nil filled
    have hpaths : (Expr.contains collection item).joinPaths env.mappings
        = item.joinPaths env.mappings := by
      rw [Expr.joinPaths, list]
    have hs' := hinner.navigable.addParameters (v :: more)
    obtain ⟨hcolumns, hjoined⟩ :=
      hinner.kept hm hroot hs' (Scope.steps_addParameters _ _).extends
    have hin : Token.IsPlain (.word " IN ") := by
      show Text.isDotless _ = true
      decide
    refine ⟨hs', ?_, ?_, ?_⟩
    · exact (hcolumns.parenthesizedIf _).append
        ((Tokens.columned_parameterList _ _).cons hin)
    · rwa [hpaths]
    · rw [hpaths]
      exact hinner.made
  | emptyList =>
    refine .of_no_joins hs rfl (Tokens.Columned.parenthesizedIf ?_ true) rfl
    exact Tokens.columned_nil.cons isPlain_null
  | list filled =>
    exact .of_no_joins (hs.addParameters _) rfl (Tokens.columned_parameterList _ _) rfl
  | key given =>
    exact .of_no_joins (hs.addParameters _) rfl (Tokens.columned_nil.cons trivial) rfl
  | null absent => exact .of_no_joins hs rfl (Tokens.columned_nil.cons isPlain_null) rfl
  | value present =>
    exact .of_no_joins (hs.addParameters _) rfl (Tokens.columned_nil.cons trivial) rfl
  | @row parent name entity a m key s alias? mapping single =>
    have hstands := hs.standsFor_rowAlias (hrows.row (hsub List.mem_cons_self)) alias?
    have hkey : key ∈ m.primaryKeys := single ▸ List.mem_cons_self
    have hcolumn := hs.hasColumn hm hroot hstands mapping (List.mem_of_mem_filter hkey)
    exact .of_no_joins hs rfl (Tokens.columned_column ⟨hs.isAlias hstands, hcolumn⟩) rfl
  | @condition parent target name ref s s₁ admitted resolved =>
    have hmember := resolved.scoped hm hroot (fun row entity h => hrows.row (hsub h)) hs
    have hs' := hmember.navigable.addParameters [.of (.boolean true)]
    obtain ⟨hcolumn, hjoined⟩ :=
      hmember.kept hm hroot hs' (Scope.steps_addParameters _ _).extends
    have hequals : Token.IsPlain (.word " = ") := by
      show Text.isDotless _ = true
      decide
    have hplaceholder : Token.IsPlain (.parameter s₁.parameters.length) := trivial
    refine ⟨hs', ?_, hjoined, hmember.made⟩
    exact hcolumn.append ((Tokens.columned_nil.cons hplaceholder).cons hequals)
  | member plain resolved =>
    exact resolved.scoped hm hroot (fun row entity h => hrows.row (hsub h)) hs

end

/-! ## Statements -/

/-- The scope after the expressions, each in its context, whether they compile or not. -/
def Scope.compileAll (d : Dialect) (mappings : Mappings) (s : Scope)
    (calls : List (Context × Expr)) : Scope :=
  calls.foldl (fun s call => (call.2.compileInto (d.environment mappings call.1) s).scope) s

/-- The nodes of the expressions. -/
def Scope.nodesOf (calls : List (Context × Expr)) : List Expr := calls.flatMap (·.2.nodes)

section

variable {d : Dialect} {mappings : Mappings} {root : TypeMapping} {s : Scope}

/-- Any calls take steps of the scope, failed ones included. -/
theorem Scope.steps_compileAll (hd : d ∈ Dialect.shipped) (calls : List (Context × Expr)) :
    Steps s (s.compileAll d mappings calls) := by
  have hcalls : s.compileAll d mappings calls
      = s.compileEach (calls.map fun call => (d.environment mappings call.1, call.2)) := by
    rw [compileAll, compileEach, List.foldl_map]
  rw [hcalls]
  apply steps_compileEach
  intro call hcall
  obtain ⟨inner, -, rfl⟩ := List.mem_map.1 hcall
  exact Dialect.environment_standard hd mappings inner.1

/-- Any calls leave a scope whose joins follow the declared foreign objects. -/
theorem Scope.Navigable.compileAll (hd : d ∈ Dialect.shipped) (hm : mappings.Navigable)
    {all : List Expr} (hrows : Agreeing root.entity all) {calls : List (Context × Expr)}
    (hsub : nodesOf calls ⊆ all)
    (h : s.Navigable mappings root (Binds root.entity all)) :
    (s.compileAll d mappings calls).Navigable mappings root (Binds root.entity all) := by
  induction calls generalizing s with
  | nil => exact h
  | cons call calls ih =>
    obtain ⟨hcall, hcalls⟩ := List.append_subset.1 hsub
    exact ih hcalls (h.compileInto (Dialect.environment_standard hd mappings call.1) hm hcall hrows)

end

/-- Columns are well scoped in a statement over a mapping of a registry, whatever is compiled into
it in the contexts of a given dialect: what the text of an expression names behind an alias is a
column of the type which the alias stands for at the end, the joins that it asks for are there
with such columns on both sides, it makes no others, and no alias stands for two types. The names
of foreign objects have no dot in them, and a row whose name is bound is one of the root. -/
theorem columns_of_calls {schema : Schema} {r : Registry} (hr : Registry.Reached schema r)
    (hdots : schema.Undotted) {d : Dialect} (hd : d ∈ Dialect.shipped) {entity : EntityType}
    {m : TypeMapping} (hm : r.lookup schema entity = .ok m)
    {before after : List (Context × Expr)} {context : Context} {e : Expr}
    (hrows : Scope.Agreeing entity (Scope.nodesOf (before ++ (context, e) :: after)))
    {ts : Tokens} (h : (e.compileInto (d.environment (r.lookup schema) context)
      ((Scope.ofMapping m).compileAll d (r.lookup schema) before)).outcome = .ok ts) :
    let s := (Scope.ofMapping m).compileAll d (r.lookup schema) before
    let s' := (e.compileInto (d.environment (r.lookup schema) context) s).scope
    let last := s'.compileAll d (r.lookup schema) after
    (∀ a column, Lexeme.ReadsColumn (d.lexemes (d.text ts)) a column →
        last.HasColumn (r.lookup schema) a column)
      ∧ (∀ path ∈ e.joinPaths (r.lookup schema), last.HasJoin (r.lookup schema) path)
      ∧ (∀ j ∈ s'.joins, j ∈ s.joins ∨ j.path ∈ e.joinPaths (r.lookup schema))
      ∧ ∀ a navigation navigation' entity entity',
        last.StandsFor (r.lookup schema) a navigation entity →
        last.StandsFor (r.lookup schema) a navigation' entity' → entity = entity' := by
  intro s s' last
  have hnavigable := hr.sound.navigable hdots
  have hentity : m.entity = entity := by
    obtain ⟨x, hx, rfl⟩ := Except.map_eq_ok.1 hm
    exact (resolve_sound (hr.sound.resolve_of_request hx)).1
  subst hentity
  have hall : Scope.nodesOf (before ++ (context, e) :: after)
      = Scope.nodesOf before ++ (e.nodes ++ Scope.nodesOf after) := by
    simp [Scope.nodesOf]
  rw [hall] at hrows
  have hbefore := List.subset_append_left (Scope.nodesOf before) (e.nodes ++ Scope.nodesOf after)
  have hrest := List.subset_append_right (Scope.nodesOf before) (e.nodes ++ Scope.nodesOf after)
  obtain ⟨hnodes, hafter⟩ := List.append_subset.1 hrest
  -- the invariant holds before the call, behind it and at the end
  have hs := (Scope.navigable_ofMapping (r.lookup schema) m _).compileAll hd hnavigable hrows
    hbefore
  have hcompiles : Compiles (d.environment (r.lookup schema) context) none e s ts s' :=
    Compiles.of_compileInto (Dialect.environment_standard hd (r.lookup schema) context) h
  have hscoped := hcompiles.scoped hnavigable hm hrows hnodes hs
  have hlast := hscoped.navigable.compileAll hd hnavigable hrows hafter
  obtain ⟨hcolumns, hjoined⟩ :=
    hscoped.kept hnavigable hm hlast (Scope.steps_compileAll hd after).extends
  refine ⟨fun a column hread => ?_, hjoined, hscoped.made, ?_⟩
  · have hquoting := Dialect.quoting_mem_usual hd
    have hsteps : Scope.Steps (Scope.ofMapping m) s := Scope.steps_compileAll hd before
    have wf := hsteps.wellFormed (Scope.wellFormed_ofMapping m)
    rw [(hcompiles.legible hquoting wf).lexemes_text] at hread
    exact (hcolumns.reads hquoting (fun _ _ hcolumn => hcolumn.1) hread).2
  · intro a navigation navigation' entity entity' hstands hstands'
    exact (hlast.unique hstands hstands').2

namespace Company

/-- The manager of an employee. -/
def leader : Expr := .member (.parameter "x" employee) "manager"

/-- A comparison that fails behind its join, for no name stands for the row of a document. -/
def misled : Expr :=
  .binary .equal (.member leader "name") (.member (.parameter "y" document) "title")

/-- Who leads a department of another name. -/
def leading : Expr :=
  .lambda (.parameter "x" employee) (.binary .notEqual (.member leader "name")
    (.member (.member leader "department") "name"))

/-- An order of employees. -/
def earning : Expr := .member (.parameter "z" employee) "salary"

end Company

/-- An expression that navigates twice, between one that fails behind its join and an order. -/
theorem columns_of_calls_leading :
    let d := Dialect.generic
    let failed := (Scope.ofMapping (Company.mapping Company.employee)).compileAll d
      Company.mappings [({}, Company.misled)]
    let compiled := Company.leading.compileInto (d.environment Company.mappings {}) failed
    let last := compiled.scope.compileAll d Company.mappings
      [({ clause := .ordering }, Company.earning)]
    failed.joins.map (·.path) = ["t0.manager"]
      ∧ compiled.outcome.toOption.map d.text = some "t1.\"name\" != t2.\"name\""
      ∧ (last.HasColumn Company.mappings "t1" "name"
        ∧ last.HasColumn Company.mappings "t2" "name")
      ∧ last.HasJoin Company.mappings "t0.manager"
      ∧ last.HasJoin Company.mappings "t0.manager.department" := by
  intro d failed compiled last
  have hfailed : failed.joins.map (·.path) = ["t0.manager"] := by decide +kernel
  have htext : compiled.outcome.toOption.map d.text = some "t1.\"name\" != t2.\"name\"" := by
    decide +kernel
  have hm : (Registry.lookup {} Company.schema Company.employee).toOption
      = some (Company.mapping Company.employee) := by
    decide +kernel
  have hdots : Company.schema.Undotted := by
    unfold Schema.Undotted
    decide +kernel
  have hrows : Scope.Agreeing Company.employee (Scope.nodesOf ([(({} : Context), Company.misled)]
      ++ (({} : Context), Company.leading) :: [({ clause := .ordering }, Company.earning)])) := by
    unfold Scope.Agreeing
    decide +kernel
  obtain ⟨ts, hts, htokens⟩ := Option.map_eq_some_iff.1 htext
  obtain ⟨hcolumns, hjoins, -, -⟩ := columns_of_calls .new hdots (d := d) (by decide)
    (Except.eq_ok_of_toOption hm) hrows (Except.eq_ok_of_toOption hts)
  rw [htokens] at hcolumns
  refine ⟨hfailed, htext, ⟨hcolumns _ _ ?_, hcolumns _ _ ?_⟩, hjoins _ ?_, hjoins _ ?_⟩
  · unfold Lexeme.ReadsColumn
    decide +kernel
  · unfold Lexeme.ReadsColumn
    decide +kernel
  · decide +kernel
  · decide +kernel

/-- The name of a row stands for the root, whatever the type of the row is. -/
theorem misnamed_row_reads_no_column :
    let d := Dialect.generic
    let titled := Expr.lambda (.parameter "x" Company.employee)
      (.binary .equal (.member (.parameter "x" Company.document) "title")
        (.constant (.value (.of (.varchar "a")))))
    let compiled := titled.compileInto (d.environment Company.mappings {})
      (.ofMapping (Company.mapping Company.employee))
    compiled.outcome.toOption.map d.text = some "t0.\"title\" = @p0"
      ∧ Lexeme.ReadsColumn (d.lexemes "t0.\"title\" = @p0") "t0" "title"
      ∧ ¬compiled.scope.HasColumn Company.mappings "t0" "title" := by
  intro d titled compiled
  have hjoins : compiled.scope.joins = [] := by decide +kernel
  have hentity : compiled.scope.entity = Company.employee := by decide +kernel
  have hcolumns : ((Company.mappings Company.employee).toOption.any fun m =>
      m.columns.any (·.column = "title")) = false := by
    decide +kernel
  refine ⟨by decide +kernel, by unfold Lexeme.ReadsColumn; decide +kernel, ?_⟩
  rintro ⟨navigation, entity, m, hstands, hm, -, c, hc, hcolumn⟩
  -- there are no joins, so that the alias stands for an employee
  have hemployee : ∀ {a n e}, compiled.scope.StandsFor Company.mappings a n e →
      e = Company.employee := by
    intro a n e h
    cases h with
    | root => exact hentity
    | join _ _ _ joined _ =>
      rw [hjoins] at joined
      exact absurd joined List.not_mem_nil
  rw [hemployee hstands] at hm
  rw [hm] at hcolumns
  have hnone : m.columns.any (·.column = "title") = false := hcolumns
  rw [List.any_eq_false] at hnone
  exact hnone c hc (decide_eq_true hcolumn)

end RowMapper
