import RowMapper.Proofs.Acceptance
import RowMapper.Proofs.Legality

/-!
# Types of members

The type of a member access is asked for before it is resolved: a boolean member becomes a
condition because of it. The question is answered by a walk of its own, from mapping to mapping
along the chain, without joins. The walk that resolves the access stops one member early if the
chain ends in a referenced key, and takes the type from the foreign object before it, where it was
derived from the declarations. Both say the same, because the mappings of a registry agree about
referenced keys.

- `Mappings.Peeks` is the walk that the question takes.
- `Registry.Reached.keysAgree` is what a foreign object and the mapping of its target have in
  common.
- `Follows.valueType_eq` is the agreement of the two walks, by induction on the one with joins.
- `resolveAccess_valueType` puts them together for all chains and scopes.
-/

namespace RowMapper

/-! ## The walk without joins -/

/-- The chain of members leads from a row of the entity type through foreign objects to the
column. -/
inductive Mappings.Peeks (mappings : Mappings) :
    EntityType → List String → ColumnMapping → Prop where
  | column {entity m last member c} (mapping : mappings entity = .ok m)
      (found : m.member? last = some member) (column : member.column? = some c) :
      Peeks mappings entity [last] c
  | through {entity m segment k reference rest c} (mapping : mappings entity = .ok m)
      (found : m.member? segment = some (.foreign k reference))
      (onward : Peeks mappings reference.target rest c) :
      Peeks mappings entity (segment :: rest) c

section

variable {mappings : Mappings} {entity needed : EntityType} {members : List String}
  {c : ColumnMapping} {t : ValueType}

/-- A type that is found is that of the column at the end of the chain. -/
theorem Mappings.peeks_of_typeAt? (h : mappings.typeAt? entity members = some t) :
    ∃ c, mappings.Peeks entity members c ∧ c.valueType = t := by
  -- along the chain: the type is that of the last segment, all others are foreign objects
  induction members generalizing entity with
  | nil => cases h
  | cons segment rest ih =>
    cases hmapping : mappings entity with
    | error cause => cases rest <;> simp [typeAt?, hmapping, Except.toOption] at h
    | ok m =>
      cases rest with
      | nil =>
        simp only [typeAt?, hmapping, Except.toOption, Option.bind_eq_bind, Option.bind_some,
          Option.bind_eq_some_iff, Option.pure_def, Option.some.injEq] at h
        obtain ⟨member, found, c, column, htype⟩ := h
        exact ⟨c, .column hmapping found column, htype⟩
      | cons next rest =>
        simp only [typeAt?, hmapping, Except.toOption, Option.bind_eq_bind, Option.bind_some] at h
        split at h
        · rename_i k reference found
          obtain ⟨c, hpeeks, htype⟩ := ih h
          exact ⟨c, .through hmapping found hpeeks, htype⟩
        · cases h

theorem Mappings.Peeks.leads (h : mappings.Peeks entity members c) :
    mappings.Leads entity members := by
  induction h with
  | column mapping found column => exact .column mapping found (by rw [column]; rfl)
  | through mapping found _ ih => exact .through mapping found ih

/-- Whatever is needed on the way has a mapping. -/
theorem Mappings.Peeks.mapped (h : mappings.Peeks entity members c)
    (hneeds : mappings.Needs entity members needed) : ∃ m, mappings needed = .ok m := by
  induction h with
  | column mapping _ _ =>
    cases hneeds with
    | here => exact ⟨_, mapping⟩
    | through _ _ more => exact absurd rfl more
  | through mapping found _ ih =>
    cases hneeds with
    | here => exact ⟨_, mapping⟩
    | through mapping' found' _ _ onward =>
      cases mapping.symm.trans mapping'
      cases found.symm.trans found'
      exact ih onward

end

/-! ## Referenced keys -/

/-- A foreign object has the type of the key it refers to, and the target has a member for it. -/
def Mappings.KeysAgree (mappings : Mappings) : Prop :=
  ∀ {entity m target c reference}, mappings entity = .ok m → .foreign c reference ∈ m.members →
    mappings reference.target = .ok target → ∃ member k, target.member? reference.targetKey
      = some member ∧ member.column? = some k ∧ k.valueType = c.valueType

/-- The mappings of a registry agree about keys, whatever it was asked before: all of them are
resolutions under the same rules. -/
theorem Registry.Reached.keysAgree {schema : Schema} {r : Registry} (hr : Reached schema r) :
    Mappings.KeysAgree (r.lookup schema) := by
  intro entity m target c reference hm hc htarget
  have hresolve {e : EntityType} {x : TypeMapping} (h : r.lookup schema e = .ok x) :
      resolve schema r.rules e = .ok x := (hr.sound.outcome_request e).symm.trans h
  obtain ⟨-, k, hkeys, hname, -, htype⟩ := resolve_reference (hresolve hm) hc (hresolve htarget)
  have hcolumn : k ∈ target.columns := by
    have hkey : k ∈ target.primaryKeys := hkeys ▸ List.mem_singleton_self k
    exact List.mem_of_mem_filter hkey
  obtain ⟨member, hmember, hk⟩ :=
    TypeMapping.member?_of_mem_columns (hr.accepted htarget).2 hcolumn
  exact ⟨member, k, hname ▸ hmember, hk, htype⟩

/-! ## The two walks -/

section

variable {env : Environment} {s s' : Scope} {rowAlias navigation : String} {entity : EntityType}
  {members : List String} {ref : ColumnReference} {column : ColumnMapping}

/-- Where both walks come to a column, it has the same type. -/
theorem Follows.valueType_eq (hkeys : env.mappings.KeysAgree)
    (h : Follows env s rowAlias navigation entity members ref s')
    (hpeeks : env.mappings.Peeks entity members column) : ref.valueType = column.valueType := by
  induction h with
  | column mapping found hcolumn =>
    cases hpeeks with
    | column mapping' found' hcolumn' =>
      cases mapping.symm.trans mapping'
      cases found.symm.trans found'
      cases hcolumn.symm.trans hcolumn'
      rfl
    | through _ _ onward => cases onward
  | key mapping found =>
    -- the one walk reads the foreign object, the other one the key in the mapping of the target
    cases hpeeks with
    | through mapping' found' onward =>
      cases mapping.symm.trans mapping'
      cases found.symm.trans found'
      cases onward with
      | column htarget hmember hcolumn =>
        obtain ⟨member, k, hmember', hcolumn', htype⟩ :=
          hkeys mapping (List.mem_of_find?_eq_some found) htarget
        cases hmember.symm.trans hmember'
        cases hcolumn.symm.trans hcolumn'
        exact htype.symm
      | through _ _ onward => cases onward
  | join mapping found more _ _ _ ih =>
    cases hpeeks with
    | column => exact absurd rfl more
    | through mapping' found' onward =>
      cases mapping.symm.trans mapping'
      cases found.symm.trans found'
      exact ih onward

end

section

open CompileM

variable {env : Environment} {node : Expr} {path : Expr.Path} {c c' : Compilation}
  {ref : ColumnReference} {column : ColumnMapping} {t : ValueType}

/-- Steps that cannot fail return something. -/
theorem CompileM.Ends.returns {α : Type} {x : CompileM α} {Q : α → Compilation → Prop}
    (h : x.Ends c Q fun _ => False) : ∃ a c', x.Returns c a c' ∧ Q a c' := by
  unfold Ends at h
  rcases hrun : x.runFrom c with ⟨cause | a, c'⟩ <;> rw [hrun] at h
  · exact h.elim
  · exact ⟨a, c', hrun, h⟩

theorem Mappings.memberType?_eq_some (h : env.mappings.memberType? node = some t) :
    ∃ path column, node.path? = some path ∧ env.mappings.Peeks path.entity path.members column
      ∧ column.valueType = t := by
  obtain ⟨path, hpath, htype⟩ := Option.bind_eq_some_iff.1 h
  obtain ⟨column, hpeeks, hcolumn⟩ := peeks_of_typeAt? htype
  exact ⟨path, column, hpath, hpeeks, hcolumn⟩

/-- A member access whose type is found is resolved if its row is known. -/
theorem Mappings.Peeks.returns (hpath : node.path? = some path)
    (hpeeks : env.mappings.Peeks path.entity path.members column)
    (hrow : (c.scope.binding? path.parameter).isSome ∨ path.entity = c.scope.entity) :
    ∃ ref c', (resolveAccess env node).Returns c ref c' := by
  have hnames : c.scope.Names [] path.parameter ∨ path.entity = c.scope.entity :=
    hrow.imp_left .inl
  have hends : (resolveAccess env node).Ends c (fun _ _ => True) fun _ => False := by
    unfold resolveAccess
    rw [hpath]
    dsimp only
    split
    · rename_i hempty
      rw [List.isEmpty_iff.1 hempty] at hpeeks
      cases hpeeks
    · refine .bind ((Ends.parameterAlias (Scope.behind_nil c.scope) path.parameter path.entity).mono
        (fun _ _ => id) fun cause hunbound => hunbound.1 hnames) ?_
      rintro tableAlias c₁ ⟨rfl, -⟩
      refine (Ends.follow env node tableAlias tableAlias path.entity path.members c₁).mono
        (fun _ _ _ => trivial) ?_
      -- neither reason to stop is there: the chain leads on, and all its types have mappings
      rintro cause (⟨hbroken, -⟩ | ⟨needed, cause', -, hneeds, hunmapped⟩)
      · exact hbroken hpeeks.leads
      · obtain ⟨m, hm⟩ := hpeeks.mapped hneeds
        rw [hm] at hunmapped
        cases hunmapped
  obtain ⟨ref, c', hreturns, -⟩ := hends.returns
  exact ⟨ref, c', hreturns⟩

/-- A member access that is resolved has the type that is found. -/
theorem returns_resolveAccess_valueType (hkeys : env.mappings.KeysAgree)
    (hreturns : (resolveAccess env node).Returns c ref c') (hpath : node.path? = some path)
    (hpeeks : env.mappings.Peeks path.entity path.members column) :
    ref.valueType = column.valueType := by
  obtain ⟨path', rowAlias, hpath', -, hwalk⟩ := Resolves.of_returns hreturns
  cases hpath.symm.trans hpath'
  exact hwalk.valueType_eq hkeys hpeeks

/-- If a type is found for a member access of any chain, with conversions in it or without, then in
every scope where its row is known the access is resolved, with that type. Where it is resolved, it
has no other type, be it read from a joined table or from the foreign object before it. -/
theorem resolveAccess_valueType {schema : Schema} {r : Registry}
    (hr : Registry.Reached schema r) (henv : env.mappings = r.lookup schema)
    (ht : env.mappings.memberType? node = some t) (c : Compilation) :
    (∀ path, node.path? = some path →
        (c.scope.binding? path.parameter).isSome ∨ path.entity = c.scope.entity →
        ∃ ref c', (resolveAccess env node).Returns c ref c' ∧ ref.valueType = t)
      ∧ ∀ ref c', (resolveAccess env node).Returns c ref c' → ref.valueType = t := by
  have hkeys : env.mappings.KeysAgree := henv ▸ hr.keysAgree
  obtain ⟨path, column, hpath, hpeeks, rfl⟩ := Mappings.memberType?_eq_some ht
  have hsame (ref : ColumnReference) (c' : Compilation)
      (h : (resolveAccess env node).Returns c ref c') : ref.valueType = column.valueType :=
    returns_resolveAccess_valueType hkeys h hpath hpeeks
  refine ⟨fun path' hpath' hrow => ?_, hsame⟩
  cases hpath.symm.trans hpath'
  obtain ⟨ref, c', hreturns⟩ := hpeeks.returns hpath hrow
  exact ⟨ref, c', hreturns, hsame ref c' hreturns⟩

/-- A badge has the key of its holder, and a visit is by badge. The key of the holder of the badge,
with a conversion on the way to it, is found and read as the key of employees, in the column of the
badge: only badges are joined. -/
theorem resolveAccess_valueType_badge :
    let badge : EntityType := ⟨"Badge"⟩
    let visit : EntityType := ⟨"Visit"⟩
    let holder : MemberDeclaration :=
      .foreign { name := "holder", target := Company.employee, primaryKey := true }
    let byBadge : MemberDeclaration := .foreign { name := "byBadge", target := badge }
    let schema : Schema :=
      (Company.schema.declare badge { table := "badges", members := [holder] }).declare visit
        { table := "visits", members := [Company.key .uuid, byBadge] }
    let env : Environment :=
      { strategies := Dialect.generic.strategies, mappings := ({} : Registry).lookup schema }
    let held : Expr := .member (.member (.parameter "x" visit) "byBadge") "holder"
    let node : Expr := .member (.convert held (.of .int64)) "id"
    let c : Compilation := ⟨{ entity := visit, table := "visits" }, []⟩
    env.mappings.memberType? node = some (.of .int64)
      ∧ (∃ ref c', (resolveAccess env node).Returns c ref c' ∧ ref.valueType = .of .int64)
      ∧ ((resolveAccess env node).runFrom c).1.toOption
        = some ⟨"t1", "holder", .of .int64⟩
      ∧ ((resolveAccess env node).runFrom c).2.scope.joins.map (·.table) = ["badges"] := by
  intro badge visit holder byBadge schema env held node c
  have hr : Registry.Reached schema {} := .new
  have htype : env.mappings.memberType? node = some (.of .int64) := by decide +kernel
  have hrow : visit = c.scope.entity := rfl
  have hresolved := (resolveAccess_valueType hr rfl htype c).1 _ rfl (.inr hrow)
  exact ⟨htype, hresolved, by decide +kernel, by decide +kernel⟩

end

end RowMapper
