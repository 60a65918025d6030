import RowMapper.Proofs.CompiledText
import RowMapper.Proofs.Likeness

/-!
# Other names of tables and columns

Two mappings that differ in the names of their tables and columns alone are the same to the
compiler: it finds members by their own names and joins by the members on the way, and takes a
column for whatever it is called. What the names are related by is left open. Where a relation `R`
holds of the names in each place of the inputs, it holds of the names in each place of the text.

* `Token.Renamed` relates tokens, `Lexeme.Renamed` what is read of them. Nothing but a name
  changes, for the other tokens have no quotes in them and a name is read as it was given.
* `CompileM.Renames` relates two compilations, with one lemma for each of their steps;
  `compile_renames` is the induction over the expression.
-/

namespace RowMapper

variable {R : String → String → Prop}

/-! ## Lexemes -/

/-- The lexemes are the same, or names that are related. -/
inductive Lexeme.Renamed (R : String → String → Prop) : Lexeme → Lexeme → Prop where
  | name {n n' : String} (related : R n n') : Renamed R (.name n) (.name n')
  | word (text : String) : Renamed R (.word text) (.word text)
  | symbol (text : String) : Renamed R (.symbol text) (.symbol text)

/-- The text opens no name, in any of the usual quotings. -/
def Text.isUnquoted (w : String) : Bool :=
  w.toList.all fun c => Quoting.usual.all fun q => c != q.left

theorem Text.isUnquoted_append {a b : String} (ha : isUnquoted a = true)
    (hb : isUnquoted b = true) : isUnquoted (a ++ b) = true := by
  unfold isUnquoted at *
  rw [String.toList_append, List.all_append, ha, hb]
  rfl

/-- A word has no quotes in it. -/
theorem Text.isUnquoted_of_isWordChar {w : String}
    (h : ∀ c ∈ w.toList, Lexeme.isWordChar c = true) : isUnquoted w = true := by
  refine List.all_eq_true.2 fun c hc => List.all_eq_true.2 fun q hq => ?_
  have hleft : ∀ q ∈ Quoting.usual, Lexeme.isWordChar q.left = false := by decide
  have hword := h c hc
  rw [bne_iff_ne]
  rintro rfl
  rw [hleft q hq] at hword
  cases hword

/-- A number has no quotes in it. -/
theorem Text.isUnquoted_toString (n : Nat) : isUnquoted (toString n) = true :=
  isUnquoted_of_isWordChar fun _ hc => isWordChar_of_mem_toString hc

/-- Aliases are never quoted. -/
theorem IsAlias.isUnquoted {a : String} (h : IsAlias a) : Text.isUnquoted a = true := by
  obtain ⟨n, rfl⟩ := h
  exact Text.isUnquoted_append (by decide) (Text.isUnquoted_toString n)

namespace Pending

/-- What is pending is no name. -/
def isNameless : Pending → Bool
  | .name _ | .closed _ => false
  | _ => true

/-- Only a quote starts a name. -/
theorem isNameless_start {q : Quoting} {c : Char} (h : c ≠ q.left) :
    (start q c).isNameless = true := by
  have hleft : (c == q.left) = false := beq_eq_false_iff_ne.2 h
  simp only [start, hleft]
  grind [isNameless]

/-- What is no name does not become one. -/
theorem isNameless_of_extend? {q : Quoting} {c : Char} {p longer : Pending}
    (hp : p.isNameless = true) (h : p.extend? q c = some longer) : longer.isNameless = true := by
  cases p with
  | nothing | single _ => cases h
  | name _ | closed _ => cases hp
  | word _ | comparison _ =>
    simp only [extend?] at h
    split at h
    · cases h
      rfl
    · cases h

/-- What is no name is read as it is. -/
theorem renamed_lexemes {p : Pending} (h : p.isNameless = true) :
    ∀ l ∈ p.lexemes, l.Renamed R l := by
  cases p with
  | nothing => exact nofun
  | word _ => exact List.forall_mem_singleton.2 (.word _)
  | comparison _ | single _ => exact List.forall_mem_singleton.2 (.symbol _)
  | name _ | closed _ => cases h

end Pending

/-- Where no name is opened nothing that is read is one. -/
theorem scan_unquoted {q : Quoting} {cs : List Char} (h : q.left ∉ cs) {p : Pending}
    (hp : p.isNameless = true) : ∀ l ∈ scan q p cs, l.Renamed R l := by
  -- by the characters, with whatever is pending before them
  induction cs generalizing p with
  | nil => exact p.renamed_lexemes hp
  | cons c cs ih =>
    rw [List.mem_cons, not_or] at h
    rw [scan]
    split
    · rename_i longer hlonger
      exact ih h.2 (Pending.isNameless_of_extend? hp hlonger)
    · have hstart : (Pending.start q c).isNameless = true := Pending.isNameless_start (Ne.symm h.1)
      exact List.forall_mem_append.2 ⟨p.renamed_lexemes hp, ih h.2 hstart⟩

/-! ## Tokens -/

/-- The tokens are the same, or names that are related behind one qualifier. -/
inductive Token.Renamed (R : String → String → Prop) : Token → Token → Prop where
  | word {w : String} (unquoted : Text.isUnquoted w = true) : Renamed R (.word w) (.word w)
  | identifier {qualifier n n' : String} (qualifies : IsQualifier qualifier) (related : R n n') :
    Renamed R (.identifier qualifier n) (.identifier qualifier n')
  | parameter (index : Nat) : Renamed R (.parameter index) (.parameter index)

/-- The pieces are the same but for names that are related. -/
abbrev Tokens.Renamed (R : String → String → Prop) : Tokens → Tokens → Prop :=
  List.Forall₂ (Token.Renamed R)

/-- A name is read from its quotes, whatever it is, so that tokens that differ in names are read as
the same but for the names. -/
theorem Token.Renamed.lexemes {d : Dialect} (hd : d.quoting ∈ Quoting.usual) {t t' : Token}
    (h : t.Renamed R t') :
    List.Forall₂ (Lexeme.Renamed R) (t.lexemes d) (t'.lexemes d) := by
  cases h with
  | @word w unquoted =>
    have hleft : d.quoting.left ∉ w.toList := by
      intro hmem
      have hq := List.all_eq_true.1 (List.all_eq_true.1 unquoted _ hmem) _ hd
      simp at hq
    exact List.forall₂_same.2 (scan_unquoted hleft rfl)
  | @identifier qualifier n n' qualifies related =>
    rw [(legible_identifier hd qualifies n).2, (legible_identifier hd qualifies n').2]
    refine List.rel_append (List.forall₂_same.2 ?_) (.cons (.name related) .nil)
    split
    · exact nofun
    · exact List.forall_mem_cons.2 ⟨.word _, List.forall_mem_singleton.2 (.symbol _)⟩
  | parameter index =>
    rw [Token.lexemes_parameter hd]
    exact .cons (.word _) .nil

namespace Tokens.Renamed

variable {ts ts' us us' : Tokens}

/-- What is read of the pieces is the same but for the names, which are read as they were
given. -/
theorem lexemes {d : Dialect} (hd : d.quoting ∈ Quoting.usual) (h : Tokens.Renamed R ts ts') :
    List.Forall₂ (Lexeme.Renamed R) (Tokens.lexemes d ts) (Tokens.lexemes d ts') :=
  List.rel_flatMap h fun _ _ ht => ht.lexemes hd

theorem append (h : Tokens.Renamed R ts ts') (h' : Tokens.Renamed R us us') :
    Tokens.Renamed R (ts ++ us) (ts' ++ us') :=
  List.rel_append h h'

/-- A word without quotes is kept. -/
theorem word {w : String} (hw : Text.isUnquoted w = true) (h : Tokens.Renamed R ts ts') :
    Tokens.Renamed R (.word w :: ts) (.word w :: ts') :=
  .cons (.word hw) h

theorem single {w : String} (hw : Text.isUnquoted w = true) :
    Tokens.Renamed R [.word w] [.word w] :=
  .cons (.word hw) .nil

/-- A name is renamed. -/
theorem bare {n n' : String} (related : R n n') (h : Tokens.Renamed R ts ts') :
    Tokens.Renamed R (.bare n :: ts) (.bare n' :: ts') :=
  .cons (.identifier (.inl rfl) related) h

theorem parenthesizedIf (needed : Bool) (h : Tokens.Renamed R ts ts') :
    Tokens.Renamed R (ts.parenthesizedIf needed) (ts'.parenthesizedIf needed) := by
  cases needed with
  | true => exact (h.append (single (w := ")") (by decide))).word (by decide)
  | false => exact h

/-- Pieces with a word between them. -/
theorem separated {w : String} (hw : Text.isUnquoted w = true) {pieces pieces' : List Tokens}
    (h : List.Forall₂ (Tokens.Renamed R) pieces pieces') :
    Tokens.Renamed R (Text.separated [.word w] pieces) (Text.separated [.word w] pieces') :=
  Text.rel_separated (single hw) h

end Tokens.Renamed

/-! ## Mappings

Names of tables and columns are related wherever they stand, and nothing else differs. Members
keep their names, by which expressions access them.
-/

/-- An empty name says that there is no table, on both sides or on neither. -/
def TableRenamed (R : String → String → Prop) (table table' : String) : Prop :=
  R table table' ∧ table'.isEmpty = table.isEmpty

inductive ColumnMapping.Renamed (R : String → String → Prop) (c : ColumnMapping) :
    ColumnMapping → Prop where
  | of {column : String} (related : R c.column column) : Renamed R c { c with column }

inductive Reference.Renamed (R : String → String → Prop) (r : Reference) : Reference → Prop where
  | of {targetTable targetKeyColumn : String} (table : R r.targetTable targetTable)
    (key : R r.targetKeyColumn targetKeyColumn) :
    Renamed R r { r with targetTable, targetKeyColumn }

inductive ListMapping.Renamed (R : String → String → Prop) (l : ListMapping) :
    ListMapping → Prop where
  | of {targetTable targetColumn : String} (table : R l.targetTable targetTable)
    (column : R l.targetColumn targetColumn) :
    Renamed R l { l with targetTable, targetColumn }

inductive MemberMapping.Renamed (R : String → String → Prop) :
    MemberMapping → MemberMapping → Prop where
  | field {c c' : ColumnMapping} (columns : c.Renamed R c') : Renamed R (.field c) (.field c')
  | foreign {c c' : ColumnMapping} {r r' : Reference} (columns : c.Renamed R c')
    (references : r.Renamed R r') : Renamed R (.foreign c r) (.foreign c' r')
  | list {l l' : ListMapping} (lists : l.Renamed R l') : Renamed R (.list l) (.list l')

inductive TypeMapping.Renamed (R : String → String → Prop) (m : TypeMapping) :
    TypeMapping → Prop where
  | of {table : String} {members : List MemberMapping} (tables : TableRenamed R m.table table)
    (related : List.Forall₂ (MemberMapping.Renamed R) m.members members) :
    Renamed R m { m with table, members }

def Mappings.Renamed (R : String → String → Prop) (mappings mappings' : Mappings) : Prop :=
  ∀ entity, Outcomes (TypeMapping.Renamed R) (mappings entity) (mappings' entity)

inductive Environment.Renamed (R : String → String → Prop) (env : Environment) :
    Environment → Prop where
  | of {mappings : Mappings} (related : env.mappings.Renamed R mappings) :
    Renamed R env { env with mappings }

section

variable {m m' : TypeMapping} {mappings mappings' : Mappings}

/-- Members keep their names; only those of tables and columns change. -/
theorem MemberMapping.Renamed.name_eq {k k' : MemberMapping} (h : k.Renamed R k') :
    k'.name = k.name := by
  cases h with
  | field columns => cases columns; rfl
  | foreign columns => cases columns; rfl
  | list lists => cases lists; rfl

/-- A member has a column under both namings, or under none. -/
theorem MemberMapping.Renamed.column? {k k' : MemberMapping} (h : k.Renamed R k') :
    Option.Rel (ColumnMapping.Renamed R) k.column? k'.column? := by
  cases h with
  | field columns => exact .some columns
  | foreign columns => exact .some columns
  | list => exact .none

/-- The same members are found. -/
theorem TypeMapping.Renamed.member? (h : m.Renamed R m') (name : String) :
    Option.Rel (MemberMapping.Renamed R) (m.member? name) (m'.member? name) := by
  obtain ⟨tables, related⟩ := h
  refine rel_find? (fun k k' hk => ?_) related
  show (k'.name == name) = (k.name == name)
  rw [hk.name_eq]

/-- Keys have as many parts, in the same order. -/
theorem TypeMapping.Renamed.primaryKeys (h : m.Renamed R m') :
    List.Forall₂ (ColumnMapping.Renamed R) m.primaryKeys m'.primaryKeys := by
  obtain ⟨tables, related⟩ := h
  refine List.rel_filter ?_ (List.rel_filterMap (fun k k' hk => hk.column?) related)
  rintro c _ ⟨-⟩
  exact Iff.rfl

/-- Types are not renamed. -/
theorem MemberMapping.Renamed.valueType? {k k' : MemberMapping} (h : k.Renamed R k') :
    (k'.column?.bind fun c => some c.valueType) = k.column?.bind fun c => some c.valueType := by
  have hcolumn := h.column?
  generalize k.column? = c at hcolumn ⊢
  generalize k'.column? = c' at hcolumn ⊢
  rcases hcolumn with ⟨⟨-⟩⟩ | _ <;> rfl

/-- The type at the end of a chain of members is found without a name of a column. -/
theorem Mappings.Renamed.typeAt? (h : mappings.Renamed R mappings') (entity : EntityType)
    (members : List String) :
    mappings'.typeAt? entity members = mappings.typeAt? entity members := by
  -- along the chain: members are found by their own names, and the renaming is of columns
  induction members generalizing entity with
  | nil => rfl
  | cons segment rest ih =>
    have hmapping := (h entity).toOption
    cases rest with
    | nil =>
      rw [Mappings.typeAt?, Mappings.typeAt?]
      generalize (mappings entity).toOption = x at hmapping ⊢
      generalize (mappings' entity).toOption = y at hmapping ⊢
      rcases hmapping with @⟨m, m', hm⟩ | _
      · have hmember := hm.member? segment
        simp only [Option.bind_eq_bind, Option.bind_some]
        generalize m.member? segment = k at hmember ⊢
        generalize m'.member? segment = k' at hmember ⊢
        rcases hmember with @⟨k, k', hk⟩ | _
        · exact hk.valueType?
        · rfl
      · rfl
    | cons next rest =>
      rw [Mappings.typeAt?, Mappings.typeAt?]
      · generalize (mappings entity).toOption = x at hmapping ⊢
        generalize (mappings' entity).toOption = y at hmapping ⊢
        rcases hmapping with @⟨m, m', hm⟩ | _
        · have hmember := hm.member? segment
          simp only [Option.bind_eq_bind, Option.bind_some]
          generalize m.member? segment = k at hmember ⊢
          generalize m'.member? segment = k' at hmember ⊢
          rcases hmember with @⟨k, k', hk⟩ | _
          · cases hk with
            | field | list => rfl
            | foreign _ references =>
              cases references
              exact ih _
          · rfl
        · rfl
      · simp
      · simp

end

/-! ## Scopes -/

inductive Join.Renamed (R : String → String → Prop) (j : Join) : Join → Prop where
  | of {table leftColumn rightColumn : String}
    (aliased : IsAlias j.tableAlias ∧ IsAlias j.leftAlias) (tables : R j.table table)
    (left : R j.leftColumn leftColumn) (right : R j.rightColumn rightColumn) :
    Renamed R j { j with table, leftColumn, rightColumn }

/-- Whatever the scopes know is an alias, so that a name behind it is read on its own. -/
inductive Scope.Renamed (R : String → String → Prop) (s : Scope) : Scope → Prop where
  | of {table : String} {joins : List Join} (aliased : ∀ a, s.Knows a → IsAlias a)
    (tables : R s.table table) (joined : List.Forall₂ (Join.Renamed R) s.joins joins) :
    Renamed R s { s with table, joins }

inductive ColumnReference.Renamed (R : String → String → Prop) (ref : ColumnReference) :
    ColumnReference → Prop where
  | of {column : String} (aliased : IsAlias ref.tableAlias) (related : R ref.column column) :
    Renamed R ref { ref with column }

/-! ## Steps of compilations -/

namespace CompileM

/-- From scopes that differ in names the compilations both fail or have related results, and lead
to scopes that differ in names. -/
def Renames (R : String → String → Prop) (Q : α → β → Prop) (x : CompileM α) (y : CompileM β) :
    Prop :=
  Lockstep (Scope.Renamed R) Q x y

/-- The two aliases are one. -/
inductive SameAlias : String → String → Prop where
  | of {a : String} (aliased : IsAlias a) : SameAlias a a

section Steps

variable {α β γ δ : Type} {Q : α → β → Prop} {P : γ → δ → Prop}

theorem Renames.pure {a : α} {b : β} (h : Q a b) : Renames R Q (Pure.pure a) (Pure.pure b) :=
  Lockstep.pure h

theorem Renames.reject (defect defect' : Defect) (node node' : Expr) :
    Renames R Q (CompileM.reject defect node) (CompileM.reject defect' node') :=
  Lockstep.reject defect defect' node node'

theorem Renames.bind {x : CompileM α} {y : CompileM β} {f : α → CompileM γ} {g : β → CompileM δ}
    (hxy : Renames R Q x y) (hfg : ∀ a b, Q a b → Renames R P (f a) (g b)) :
    Renames R P (x >>= f) (y >>= g) :=
  Lockstep.bind hxy hfg

/-- The mapping that is asked for is the renamed one. -/
theorem Renames.mapping {env env' : Environment} (h : env.Renamed R env') (entity : EntityType) :
    Renames R (TypeMapping.Renamed R) (env.mapping entity) (env'.mapping entity) := by
  obtain @⟨mappings, related⟩ := h
  have hentity := related entity
  unfold Environment.mapping
  dsimp only
  generalize env.mappings entity = x at hentity ⊢
  generalize mappings entity = y at hentity ⊢
  cases hentity with
  | failed => exact fun _ _ hscope => ⟨.failed _ _, hscope⟩
  | returned related => exact .pure related

/-- Values are not renamed. -/
theorem Renames.addParameter (v : Value) :
    Renames R (Token.Renamed R) (CompileM.addParameter v) (CompileM.addParameter v) := by
  rintro ⟨s, questions⟩ ⟨_, questions'⟩ ⟨aliased, tables, joined⟩
  exact ⟨.returned (.parameter _), .of aliased tables joined⟩

/-- The names of rows are not those of tables. -/
theorem Renames.bindName (name : String) {a : String} (bound : IsAlias a) :
    Renames R Eq (CompileM.bindName name a) (CompileM.bindName name a) := by
  rintro ⟨s, questions⟩ ⟨_, questions'⟩ @⟨root, joins, aliased, tables, joined⟩
  -- names are bound without a look at the table or the joins
  have hbind : ({ s with table := root, joins } : Scope).bind name a
      = { s.bind name a with table := root, joins } := by
    unfold Scope.bind
    show (if (s.binding? name).isSome then _ else _) = _
    split <;> rfl
  have htable : (s.bind name a).table = s.table := by
    unfold Scope.bind
    split <;> rfl
  have hrun (c : Compilation) : (CompileM.bindName name a).runFrom c
      = (.ok (), { c with scope := c.scope.bind name a }) := rfl
  rw [hrun, hrun]
  dsimp only
  rw [hbind]
  refine ⟨.returned rfl, .of ?_ (htable ▸ tables) (s.bind_joins name a ▸ joined)⟩
  rintro b (rfl | hjoin | ⟨x, hx, rfl⟩)
  · exact aliased _ (.inl (s.bind_tableAlias name a))
  · exact aliased _ (.inr (.inl (s.bind_joins name a ▸ hjoin)))
  · rcases Scope.mem_bind hx with hx | rfl
    · exact aliased _ (.inr (.inr ⟨x, hx, rfl⟩))
    · exact bound

/-- A join is found by the members that lead to it. -/
theorem Renames.requireJoin {a : String} (left : IsAlias a) (path : String)
    {table table' leftColumn leftColumn' rightColumn rightColumn' : String}
    (tables : R table table') (leftColumns : R leftColumn leftColumn')
    (rightColumns : R rightColumn rightColumn') :
    Renames R SameAlias (CompileM.requireJoin path table a leftColumn rightColumn)
      (CompileM.requireJoin path table' a leftColumn' rightColumn') := by
  rintro ⟨s, questions⟩ ⟨_, questions'⟩ @⟨root, joins, aliased, roots, joined⟩
  have hrun (c : Compilation) (table leftColumn rightColumn : String) :
      (CompileM.requireJoin path table a leftColumn rightColumn).runFrom c
        = (.ok (c.scope.requireJoin path table a leftColumn rightColumn).1,
          { c with scope :=
            (c.scope.requireJoin path table a leftColumn rightColumn).2 }) := rfl
  have hfound : Option.Rel (Join.Renamed R) (s.join? path)
      (({ s with table := root, joins } : Scope).join? path) := by
    refine rel_find? ?_ joined
    rintro j _ ⟨-⟩
    rfl
  rw [hrun, hrun]
  dsimp only
  generalize hjoin : s.join? path = found at hfound
  generalize hjoin' : ({ s with table := root, joins } : Scope).join? path = found' at hfound
  -- both scopes have a join for the path, or both make one with the same number
  cases hfound with
  | some related =>
    obtain ⟨haliased⟩ := related
    rw [Scope.requireJoin_of_join? hjoin, Scope.requireJoin_of_join? hjoin']
    exact ⟨.returned (.of haliased.1), .of aliased roots joined⟩
  | none =>
    rw [Scope.requireJoin_of_none hjoin, Scope.requireJoin_of_none hjoin']
    have hnext : IsAlias ("t" ++ toString s.nextNumber) := ⟨_, rfl⟩
    refine ⟨.returned (.of hnext), .of ?_ roots ?_⟩
    · rintro b (hroot | ⟨j, hj, rfl⟩ | hbound)
      · exact aliased b (.inl hroot)
      · rcases List.mem_append.1 hj with hj | hj
        · exact aliased _ (.inr (.inl ⟨j, hj, rfl⟩))
        · rw [List.mem_singleton.1 hj]
          exact hnext
      · exact aliased b (.inr (.inr hbound))
    · exact List.rel_append joined (.cons (.of ⟨hnext, left⟩ tables leftColumns rightColumns) .nil)

/-! ### Members and rows -/

/-- A row stands for the same alias. -/
theorem Renames.parameterAlias (name : String) (entity : EntityType) :
    Renames R SameAlias (parameterAlias name entity) (parameterAlias name entity) := by
  unfold RowMapper.parameterAlias
  refine .bind Lockstep.scope ?_
  rintro s _ @⟨root, joins, aliased, tables, joined⟩
  have hsame : ({ s with table := root, joins } : Scope).binding? name = s.binding? name := rfl
  rw [hsame]
  cases hbinding : s.binding? name with
  | some a =>
    have hrow : s.rowAlias? name entity = some a := by
      rw [Scope.rowAlias?, hbinding]
    exact .pure (.of (aliased a (Scope.knows_rowAlias hrow)))
  | none =>
    dsimp only
    split
    · exact .pure (.of (aliased _ s.knows_tableAlias))
    · exact .reject _ _ _ _

variable {env env' : Environment} (h : env.Renamed R env')
include h

/-- A chain of members leads through renamed tables to a renamed column. -/
theorem Renames.follow (node : Expr) {rowAlias : String} (aliased : IsAlias rowAlias)
    (navigation : String) (entity : EntityType) (members : List String) :
    Renames R (ColumnReference.Renamed R) (follow env node rowAlias navigation entity members)
      (follow env' node rowAlias navigation entity members) := by
  induction members generalizing rowAlias navigation entity with
  | nil => exact .reject _ _ _ _
  | cons segment rest ih =>
    have hmapping := Renames.mapping h entity
    cases rest with
    | nil =>
      rw [RowMapper.follow, RowMapper.follow]
      refine hmapping.bind fun m m' hm => ?_
      have hmember := hm.member? segment
      generalize m.member? segment = k at hmember ⊢
      generalize m'.member? segment = k' at hmember ⊢
      rcases hmember with ⟨related⟩ | _
      · cases related with
        | field columns =>
          obtain ⟨related⟩ := columns
          exact .pure (.of aliased related)
        | foreign columns =>
          obtain ⟨related⟩ := columns
          exact .pure (.of aliased related)
        | list => exact .reject _ _ _ _
      · exact .reject _ _ _ _
    | cons next rest =>
      rw [RowMapper.follow, RowMapper.follow]
      · refine hmapping.bind fun m m' hm => ?_
        have hmember := hm.member? segment
        generalize m.member? segment = k at hmember ⊢
        generalize m'.member? segment = k' at hmember ⊢
        rcases hmember with ⟨related⟩ | _
        · cases related with
          | field => exact .reject _ _ _ _
          | list => exact .reject _ _ _ _
          | foreign columns references =>
            obtain ⟨related⟩ := columns
            obtain ⟨table, key⟩ := references
            dsimp only
            split
            · exact .pure (.of aliased related)
            -- the rest is followed from the joined row, whose alias is the same
            · refine (Renames.requireJoin aliased _ table related key).bind ?_
              rintro joined _ ⟨aliased⟩
              exact ih aliased _ _
        · exact .reject _ _ _ _
      · simp
      · simp

/-- An access reads the renamed column. -/
theorem Renames.resolveAccess (node : Expr) :
    Renames R (ColumnReference.Renamed R) (resolveAccess env node) (resolveAccess env' node) := by
  unfold RowMapper.resolveAccess
  cases node.path? with
  | none => exact .reject _ _ _ _
  | some path =>
    dsimp only
    split
    · exact .reject _ _ _ _
    · refine (Renames.parameterAlias path.parameter path.entity).bind ?_
      rintro rowAlias _ ⟨aliased⟩
      exact .follow h node aliased rowAlias path.entity path.members

/-- One column is written for the other, behind the same alias or none. -/
theorem column_renamed {a : String} (aliased : IsAlias a) {column column' : String}
    (related : R column column') :
    Token.Renamed R (env.column a column) (env'.column a column') := by
  obtain ⟨-⟩ := h
  exact .identifier (env.isQualifier_column aliased) related

theorem Renames.memberTokens (node : Expr) :
    Renames R (Tokens.Renamed R) (memberTokens env node) (memberTokens env' node) := by
  refine (Renames.resolveAccess h node).bind ?_
  rintro ref _ ⟨aliased, related⟩
  exact .pure (.cons (column_renamed h aliased related) .nil)

/-- A boolean member is compared under its new name. -/
theorem Renames.conditionTokens (node : Expr) :
    Renames R (Tokens.Renamed R) (conditionTokens env node) (conditionTokens env' node) := by
  refine (Renames.resolveAccess h node).bind ?_
  rintro ref _ ⟨aliased, related⟩
  refine (Renames.addParameter _).bind fun t t' ht => .pure ?_
  exact .cons (column_renamed h aliased related)
    (Tokens.Renamed.word (by decide) (.cons ht .nil))

theorem Renames.rowTokens (name : String) (entity : EntityType) :
    Renames R (Tokens.Renamed R) (rowTokens env name entity) (rowTokens env' name entity) := by
  refine (Renames.parameterAlias name entity).bind ?_
  rintro rowAlias _ ⟨aliased⟩
  refine (Renames.mapping h entity).bind fun m m' hm => ?_
  have hkeys := hm.primaryKeys
  generalize m.primaryKeys = keys at hkeys ⊢
  generalize m'.primaryKeys = keys' at hkeys ⊢
  cases hkeys with
  | nil => exact .reject _ _ _ _
  | cons hkey hrest =>
    cases hrest with
    | nil =>
      obtain ⟨related⟩ := hkey
      exact .pure (.cons (column_renamed h aliased related) .nil)
    | cons _ _ => exact .reject _ _ _ _

omit h

/-! ### Constants -/

theorem Renames.addParameters (vs : List Value) :
    Renames R (List.Forall₂ (Tokens.Renamed R)) (addParameters vs) (addParameters vs) := by
  induction vs with
  | nil => exact .pure .nil
  | cons v rest ih =>
    exact (Renames.addParameter v).bind fun t t' ht => ih.bind fun ts ts' hts =>
      .pure (.cons (.cons ht .nil) hts)

/-- The values of a list are not renamed. -/
theorem Renames.listTokens (vs : List Value) :
    Renames R (Tokens.Renamed R) (listTokens vs) (listTokens vs) := by
  unfold RowMapper.listTokens
  split
  · exact .pure ((Tokens.Renamed.single (w := "NULL") (by decide)).parenthesizedIf true)
  · exact (Renames.addParameters vs).bind fun ts ts' hts =>
      .pure ((Tokens.Renamed.separated (by decide) hts).parenthesizedIf true)

theorem Renames.valueTokens (v : Value) :
    Renames R (Tokens.Renamed R) (valueTokens v) (valueTokens v) := by
  unfold RowMapper.valueTokens
  split
  · exact .pure (.single (w := "NULL") (by decide))
  · exact (Renames.addParameter v).bind fun t t' ht => .pure (.cons ht .nil)

include h in
/-- Nor is the key of an entity. -/
theorem Renames.keyTokens (node : Expr) (keys : List Value) :
    Renames R (Tokens.Renamed R) (keyTokens env node keys) (keyTokens env' node keys) := by
  obtain ⟨-⟩ := h
  unfold RowMapper.keyTokens
  split
  · split
    · exact .reject _ _ _ _
    · exact (Renames.addParameter _).bind fun t t' ht => .pure (.cons ht .nil)
  · exact .reject _ _ _ _

end Steps

end CompileM

/-! ## The induction -/

section

variable {env env' : Environment} (hr : env.Standard) (h : env.Renamed R env')
include hr h

/-- An expression is compiled alike under the standard table, whatever the columns are called. -/
theorem compile_renames (parent : Option Expr) (e : Expr) :
    CompileM.Renames R (Tokens.Renamed R) (compile env parent e) (compile env' parent e) := by
  have hr' : env'.Standard := by
    obtain ⟨-⟩ := h
    exact hr
  have hcondition (parent : Option Expr) (node : Expr) :
      env'.isCondition parent node = env.isCondition parent node := by
    obtain ⟨related⟩ := h
    cases node with
    | member target name =>
      simp only [Environment.isCondition, Rule.accepts, Mappings.memberType?, related.typeAt?]
    | _ => rfl
  induction e generalizing parent with
  | lambda row body _ ih =>
    rcases row.parameter_or_ne with ⟨name, entity, rfl⟩ | hrow
    · rw [compile_lambda hr, compile_lambda hr']
      refine .bind CompileM.Lockstep.scope ?_
      rintro s _ ⟨aliased, tables, joined⟩
      dsimp only
      split
      · exact (CompileM.Renames.bindName name (aliased _ s.knows_tableAlias)).bind
          fun _ _ _ => ih _
      · exact .reject _ _ _ _
    · rw [compile_lambda_of_ne hr hrow, compile_lambda_of_ne hr' hrow]
      exact .reject _ _ _ _
  | parameter name entity =>
    rw [compile_parameter hr, compile_parameter hr']
    exact .rowTokens h name entity
  | member target name _ =>
    rw [compile_member hr, compile_member hr', hcondition]
    split
    · exact .conditionTokens h _
    · split
      · exact .memberTokens h _
      · exact .memberTokens h _
      · exact .reject _ _ _ _
  | constant k =>
    cases k with
    | value v =>
      rw [compile_value hr, compile_value hr']
      exact .valueTokens v
    | list vs =>
      rw [compile_list hr, compile_list hr']
      exact .listTokens vs
    | entity entity keys =>
      rw [compile_entity hr, compile_entity hr']
      exact .keyTokens h _ keys
  | unary op arg ih =>
    have hop : Text.isUnquoted op.text = true := by
      cases op <;> decide
    rw [compile_unary hr, compile_unary hr']
    exact (ih _).bind fun ts ts' hts => .pure ((hts.parenthesizedIf _).word hop)
  | binary op lhs rhs ihl ihr =>
    have hop : Text.isUnquoted op.text = true := by
      cases op <;> decide
    rw [compile_binary hr, compile_binary hr']
    cases hoperand : Expr.nullTested? op lhs rhs with
    | none =>
      exact (ihl _).bind fun ts ts' hts => (ihr _).bind fun us us' hus =>
        .pure ((hts.parenthesizedIf _).append ((hus.parenthesizedIf _).word hop))
    | some operand =>
      -- one side is tested for NULL and compiled alone
      have htest : Text.isUnquoted (if decide (op = .notEqual) then " IS NOT NULL" else " IS NULL")
          = true := by
        split <;> decide
      have hside : CompileM.Renames R (Tokens.Renamed R)
          (compile env (some (.binary op lhs rhs)) operand)
          (compile env' (some (.binary op lhs rhs)) operand) := by
        rcases Expr.eq_of_nullTested? hoperand with rfl | rfl
        · exact ihl _
        · exact ihr _
      exact hside.bind fun ts ts' hts => .pure ((hts.parenthesizedIf _).append (.single htest))
  | convert arg type ih =>
    rw [compile_convert hr, compile_convert hr']
    exact ih _
  | contains collection item ihc ihi =>
    rw [compile_contains hr, compile_contains hr']
    split
    · exact .pure (.single (by decide))
    · exact (ihi _).bind fun ts ts' hts => (ihc _).bind fun us us' hus =>
        .pure ((hts.parenthesizedIf _).append (hus.word (by decide)))
    · exact .reject _ _ _ _

end

end RowMapper
