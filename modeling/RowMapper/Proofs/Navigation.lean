import RowMapper.Proofs.Resolution
import RowMapper.Proofs.ScopeSteps

/-!
# What aliases stand for

An alias of a scope stands for rows of an entity type: that of the root for rows of the root type,
that of a join for rows of the type that the joined member leads to. Nothing in a scope says so.
A join is found again by the text of its navigation, and a row by a name that was bound before,
so it takes an invariant of the scope and two conditions on what is compiled: the names of foreign
objects have no dot in them, and a row whose name is bound is a row of the root.

* `Scope.StandsFor` relates an alias to the navigation to it and to the type of its rows.
* `Scope.Navigable` is the invariant, `Scope.Navigable.kept` says that compilations keep it.
* `Scope.Navigable.unique` says that an alias stands for one type only.
-/

namespace RowMapper

/-! ## Mappings -/

/-- The foreign object that the member is. -/
def MemberDeclaration.foreign? : MemberDeclaration → Option ForeignDeclaration
  | .foreign f => some f
  | _ => none

/-- No foreign object of the declarations has a dot in its name. -/
def Schema.Undotted (schema : Schema) : Prop :=
  ∀ entry ∈ schema.entries, ∀ member ∈ entry.2.members, ∀ f ∈ member.foreign?,
    '.' ∉ f.name.toList

/-- What walks along members rely on: the names of foreign objects have no dot in them, and where
a foreign object leads there is the table and the key column of its reference. -/
structure Mappings.Navigable (mappings : Mappings) : Prop where
  undotted : ∀ entity m segment c reference, mappings entity = .ok m →
    m.member? segment = some (.foreign c reference) → '.' ∉ segment.toList
  coherent : ∀ entity m segment c reference target, mappings entity = .ok m →
    m.member? segment = some (.foreign c reference) → mappings reference.target = .ok target →
    target.table = reference.targetTable
      ∧ ∃ k ∈ target.columns, k.column = reference.targetKeyColumn

/-- A declared type has its declaration among the entries. -/
theorem Schema.mem_entries_of_mem_members {schema : Schema} {entity : EntityType}
    {member : MemberDeclaration} (h : member ∈ (schema.declaration entity).members) :
    ∃ entry ∈ schema.entries, member ∈ entry.2.members := by
  unfold Schema.declaration Schema.find? at h
  cases hfind : schema.entries.find? (·.1 == entity) with
  | none =>
    rw [hfind] at h
    exact absurd h List.not_mem_nil
  | some entry =>
    rw [hfind] at h
    exact ⟨entry, List.mem_of_find?_eq_some hfind, h⟩

/-- A registry of declarations without dots answers mappings that walks can rely on. -/
theorem Registry.Sound.navigable {schema : Schema} {r : Registry} (h : Registry.Sound schema r)
    (hdots : schema.Undotted) : Mappings.Navigable (r.lookup schema) := by
  have hresolved : ∀ {entity m}, r.lookup schema entity = .ok m →
      resolve schema r.rules entity = .ok m := by
    intro entity m hm
    obtain ⟨x, hx, rfl⟩ := Except.map_eq_ok.1 hm
    exact h.resolve_of_request hx
  refine ⟨fun entity m segment c reference hm hmember => ?_,
    fun entity m segment c reference target hm hmember htarget => ?_⟩
  · -- the segment is the name of a declared member, and these have no dots
    have hmem := List.mem_of_find?_eq_some hmember
    have hname : (MemberMapping.foreign c reference).name = segment := by
      simpa using List.find?_some hmember
    obtain ⟨member, hdeclared, hmember⟩ :=
      exists_of_forall₂ (resolve_members (hresolved hm)).2 hmem
    have hsame : member.name = segment :=
      (resolveMember_declared hmember).1.symm.trans hname
    obtain ⟨entry, hentry, hmember'⟩ := Schema.mem_entries_of_mem_members hdeclared
    cases member with
    | foreign f => exact hsame ▸ hdots entry hentry _ hmember' f rfl
    | field f => cases hmember
    | list l =>
      simp only [resolveMember, resolveList] at hmember
      split at hmember
      · split at hmember <;> cases hmember
      · cases hmember
  · obtain ⟨htable, k, hkeys, -, hcolumn, -⟩ := resolve_reference (hresolved hm)
      (List.mem_of_find?_eq_some hmember) (hresolved htarget)
    have hk : k ∈ target.primaryKeys := hkeys ▸ List.mem_cons_self
    exact ⟨htable, k, List.mem_of_mem_filter hk, hcolumn⟩

/-! ## Aliases -/

namespace Scope

/-- The alias stands for rows of the entity type, to which the navigation leads. -/
inductive StandsFor (mappings : Mappings) (s : Scope) : String → String → EntityType → Prop where
  | root : StandsFor mappings s s.tableAlias s.tableAlias s.entity
  | join {navigation segment : String} {entity : EntityType} {m : TypeMapping}
      {c : ColumnMapping} {reference : Reference} {j : Join}
      (left : StandsFor mappings s j.leftAlias navigation entity)
      (mapping : mappings entity = .ok m)
      (member : m.member? segment = some (.foreign c reference))
      (joined : j ∈ s.joins) (path : j.path = navigation ++ "." ++ segment) :
      StandsFor mappings s j.tableAlias j.path reference.target

/-- The table that stands under the alias. -/
def table? (s : Scope) (a : String) : Option String :=
  if a = s.tableAlias then some s.table
  else (s.joins.find? (·.tableAlias == a)).map (·.table)

/-- The column is one that the type maps which the alias stands for, and the table under the alias
is the table of that type. -/
def HasColumn (mappings : Mappings) (s : Scope) (a column : String) : Prop :=
  ∃ navigation entity m, s.StandsFor mappings a navigation entity ∧ mappings entity = .ok m
    ∧ s.table? a = some m.table ∧ ∃ c ∈ m.columns, c.column = column

/-- The join goes through a foreign object of the type that its left alias stands for. -/
structure Through (mappings : Mappings) (s : Scope) (j : Join) (navigation segment : String)
    (entity : EntityType) (m : TypeMapping) (c : ColumnMapping) (reference : Reference) :
    Prop where
  left : s.StandsFor mappings j.leftAlias navigation entity
  mapping : mappings entity = .ok m
  member : m.member? segment = some (.foreign c reference)
  path : j.path = navigation ++ "." ++ segment
  table : j.table = reference.targetTable
  leftColumn : j.leftColumn = c.column
  rightColumn : j.rightColumn = reference.targetKeyColumn

section

variable {mappings : Mappings} {s s' : Scope}

/-- More joins leave an alias to what it stands for. -/
theorem StandsFor.mono (htable : s'.tableAlias = s.tableAlias) (hentity : s'.entity = s.entity)
    (hjoins : s.joins ⊆ s'.joins) {a navigation : String} {entity : EntityType}
    (h : s.StandsFor mappings a navigation entity) :
    s'.StandsFor mappings a navigation entity := by
  induction h with
  | root =>
    rw [← htable, ← hentity]
    exact .root
  | join _ mapping member joined path ih => exact .join ih mapping member (hjoins joined) path

/-- An alias that stands for something is known. -/
theorem StandsFor.knows {a navigation : String} {entity : EntityType}
    (h : s.StandsFor mappings a navigation entity) : s.Knows a := by
  cases h with
  | root => exact s.knows_tableAlias
  | join _ _ _ joined _ => exact .inr (.inl ⟨_, joined, rfl⟩)

theorem Through.mono (htable : s'.tableAlias = s.tableAlias) (hentity : s'.entity = s.entity)
    (hjoins : s.joins ⊆ s'.joins) {j : Join} {navigation segment : String} {entity : EntityType}
    {m : TypeMapping} {c : ColumnMapping} {reference : Reference}
    (h : s.Through mappings j navigation segment entity m c reference) :
    s'.Through mappings j navigation segment entity m c reference :=
  { h with left := h.left.mono htable hentity hjoins }

/-- The alias of a join stands for the type that the member leads to. -/
theorem Through.standsFor {j : Join} {navigation segment : String} {entity : EntityType}
    {m : TypeMapping} {c : ColumnMapping} {reference : Reference}
    (h : s.Through mappings j navigation segment entity m c reference) (hj : j ∈ s.joins) :
    s.StandsFor mappings j.tableAlias j.path reference.target :=
  .join h.left h.mapping h.member hj h.path

/-! ### Texts of navigations -/

/-- A navigation is cut at its last dot. -/
theorem navigation_inj {n n' segment segment' : String} (hdot : '.' ∉ segment.toList)
    (hdot' : '.' ∉ segment'.toList) (h : n ++ "." ++ segment = n' ++ "." ++ segment') :
    n = n' ∧ segment = segment' := by
  -- were one navigation longer than the other, the dot behind the other one would be in a segment
  have hchars : n.toList ++ '.' :: segment.toList = n'.toList ++ '.' :: segment'.toList := by
    simpa using congrArg String.toList h
  rcases List.append_eq_append_iff.1 hchars with ⟨more, hn, hrest⟩ | ⟨more, hn, hrest⟩
  · cases more with
    | nil =>
      refine ⟨String.toList_inj.1 (by simpa using hn.symm), String.toList_inj.1 ?_⟩
      simpa using hrest
    | cons c more =>
      have htail : segment.toList = more ++ '.' :: segment'.toList := by
        simpa using (List.cons.inj hrest).2
      exact absurd (htail ▸ List.mem_append_right _ List.mem_cons_self) hdot
  · cases more with
    | nil =>
      refine ⟨String.toList_inj.1 (by simpa using hn), String.toList_inj.1 ?_⟩
      simpa using hrest.symm
    | cons c more =>
      have htail : segment'.toList = more ++ '.' :: segment.toList := by
        simpa using (List.cons.inj hrest).2
      exact absurd (htail ▸ List.mem_append_right _ List.mem_cons_self) hdot'

/-- A longer navigation has the shorter one as a prefix and is cut where it ends. -/
theorem segment_inj {n segment segment' : String}
    (h : n ++ "." ++ segment = n ++ "." ++ segment') : segment = segment' := by
  have hchars : (n ++ ".").toList ++ segment.toList = (n ++ ".").toList ++ segment'.toList := by
    simpa using congrArg String.toList h
  exact String.toList_inj.1 (List.append_cancel_left hchars)

/-- The alias of the root is no navigation to a join. -/
theorem root_ne_navigation (n segment : String) : "t0" ≠ n ++ "." ++ segment := by
  intro h
  have hdot : '.' ∈ "t0".toList := by
    rw [h]
    simp
  exact absurd hdot (by decide)

end

/-! ## The invariant -/

/-- The invariant of the scopes of statements over the root: the joins are numbered as they come,
no navigation is joined twice, each join goes through a foreign object, and the bound names are
among the given ones. -/
structure Navigable (mappings : Mappings) (root : TypeMapping) (names : String → Prop)
    (s : Scope) : Prop where
  entity : s.entity = root.entity
  table : s.table = root.table
  tableAlias : s.tableAlias = "t0"
  next : s.nextNumber = s.joins.length + 1
  numbered : s.joins.map (·.tableAlias)
    = (List.range s.joins.length).map fun i => "t" ++ toString (i + 1)
  paths : (s.joins.map (·.path)).Nodup
  joined : ∀ j ∈ s.joins, ∃ navigation segment entity m c reference,
    s.Through mappings j navigation segment entity m c reference
  bound : ∀ b ∈ s.bindings, names b.1 ∧ b.2 = s.tableAlias

theorem navigable_ofMapping (mappings : Mappings) (m : TypeMapping) (names : String → Prop) :
    (ofMapping m).Navigable mappings m names where
  entity := rfl
  table := rfl
  tableAlias := rfl
  next := rfl
  numbered := rfl
  paths := .nil
  joined := fun _ h => absurd h List.not_mem_nil
  bound := fun _ h => absurd h List.not_mem_nil

namespace Navigable

variable {mappings : Mappings} {root : TypeMapping} {names : String → Prop} {s s' : Scope}

theorem numbering (h : s.Navigable mappings root names) : s.Numbered :=
  ⟨h.tableAlias, h.next, h.numbered, h.paths⟩

/-- An alias stands for one type only, and one navigation leads to it. -/
theorem unique (h : s.Navigable mappings root names) {a n n' : String} {e e' : EntityType}
    (hs : s.StandsFor mappings a n e) (hs' : s.StandsFor mappings a n' e') :
    n = n' ∧ e = e' := by
  -- by the way to the alias: the join under it is the same, and so is its left alias
  induction hs generalizing n' e' with
  | root =>
    generalize ha : s.tableAlias = a at hs'
    cases hs' with
    | root => exact ⟨ha ▸ rfl, rfl⟩
    | join _ _ _ joined _ => exact absurd ha.symm (h.numbering.tableAlias_ne joined)
  | @join navigation segment entity m c reference j left mapping member joined path ih =>
    generalize ha : j.tableAlias = a at hs'
    cases hs' with
    | root => exact absurd ha (h.numbering.tableAlias_ne joined)
    | join left' mapping' member' joined' path' =>
      obtain rfl := h.numbering.join_ext joined joined' ha
      obtain ⟨rfl, rfl⟩ := ih left'
      obtain rfl := Except.ok.inj (mapping.symm.trans mapping')
      obtain rfl := segment_inj (path.symm.trans path')
      obtain ⟨-, rfl⟩ := MemberMapping.foreign.inj
        (Option.some.inj (member.symm.trans member'))
      exact ⟨rfl, rfl⟩

/-- A navigation leads to one alias only. -/
theorem unique_of_navigation (h : s.Navigable mappings root names) {a a' n : String}
    {e e' : EntityType} (hs : s.StandsFor mappings a n e) (hs' : s.StandsFor mappings a' n e') :
    a = a' ∧ e = e' := by
  have halias : a = a' := by
    generalize hn : n = n' at hs'
    cases hs with
    | root =>
      cases hs' with
      | root => rfl
      | join _ _ _ _ path =>
        -- the root is no navigation, so it has no other alias
        have heq := h.tableAlias.symm.trans (hn.trans path)
        exact absurd heq (root_ne_navigation _ _)
    | join _ _ _ joined path =>
      cases hs' with
      | root =>
        have heq := h.tableAlias.symm.trans (hn.symm.trans path)
        exact absurd heq (root_ne_navigation _ _)
      | join _ _ _ joined' _ =>
        exact congrArg Join.tableAlias (List.inj_on_of_nodup_map h.paths joined joined' hn)
  subst halias
  exact ⟨rfl, (h.unique hs hs').2⟩

/-- The table under an alias is that of the type that it stands for. -/
theorem table?_eq (h : s.Navigable mappings root names) (hm : mappings.Navigable)
    (hroot : mappings root.entity = .ok root) {a n : String} {e : EntityType} {m : TypeMapping}
    (hs : s.StandsFor mappings a n e) (hmapping : mappings e = .ok m) :
    s.table? a = some m.table := by
  unfold table?
  cases hs with
  | root =>
    rw [h.entity, hroot] at hmapping
    rw [if_pos rfl, h.table, Except.ok.inj hmapping]
  | @join navigation segment entity m' c reference j left mapping member joined path =>
    rw [if_neg (h.numbering.tableAlias_ne joined), find?_of_nodup h.numbering.nodup_aliases joined]
    obtain ⟨navigation', segment', entity', m'', c', reference', hj⟩ := h.joined j joined
    -- what the join goes through is what its alias was reached through
    obtain ⟨rfl, rfl⟩ := h.unique left hj.left
    obtain rfl := Except.ok.inj (mapping.symm.trans hj.mapping)
    obtain rfl := segment_inj (path.symm.trans hj.path)
    obtain ⟨rfl, rfl⟩ := MemberMapping.foreign.inj
      (Option.some.inj (member.symm.trans hj.member))
    obtain ⟨htable, -⟩ := hm.coherent _ _ _ _ _ _ mapping member hmapping
    rw [Option.map_some, hj.table, htable]

/-- What stands for a type is an alias that the scope gave out. -/
theorem isAlias (h : s.Navigable mappings root names) {a n : String} {e : EntityType}
    (hs : s.StandsFor mappings a n e) : IsAlias a := by
  cases hs with
  | root =>
    rw [h.tableAlias]
    exact isAlias_root
  | @join _ _ _ _ _ _ j _ _ _ joined _ =>
    have hmem : j.tableAlias ∈ s.joins.map (·.tableAlias) := List.mem_map_of_mem joined
    rw [h.numbered] at hmem
    obtain ⟨i, -, hi⟩ := List.mem_map.1 hmem
    exact ⟨i + 1, hi.symm⟩

/-- A column of the type that an alias stands for is a column of the alias. -/
theorem hasColumn (h : s.Navigable mappings root names) (hm : mappings.Navigable)
    (hroot : mappings root.entity = .ok root) {a n : String} {e : EntityType} {m : TypeMapping}
    (hs : s.StandsFor mappings a n e) (hmapping : mappings e = .ok m) {k : ColumnMapping}
    (hk : k ∈ m.columns) : s.HasColumn mappings a k.column :=
  ⟨n, e, m, hs, hmapping, h.table?_eq hm hroot hs hmapping, k, hk, rfl⟩

/-- A later scope has the columns of an earlier one. -/
theorem hasColumn_mono (h : s.Navigable mappings root names)
    (h' : s'.Navigable mappings root names) (hm : mappings.Navigable)
    (hroot : mappings root.entity = .ok root) (hext : s.Extends s') {a column : String}
    (hcolumn : s.HasColumn mappings a column) : s'.HasColumn mappings a column := by
  obtain ⟨n, e, m, hs, hmapping, -, k, hk, rfl⟩ := hcolumn
  have hentity : s'.entity = s.entity := h'.entity.trans h.entity.symm
  exact h'.hasColumn hm hroot (hs.mono hext.tableAlias hentity hext.joins.subset) hmapping hk

/-! ### Steps -/

/-- More bindings to the alias of the root and more parameters keep the joins. -/
theorem joined_mono (h : s.Navigable mappings root names) (htable : s'.tableAlias = s.tableAlias)
    (hentity : s'.entity = s.entity) (hjoins : s.joins ⊆ s'.joins) : ∀ j ∈ s.joins,
    ∃ navigation segment entity m c reference,
      s'.Through mappings j navigation segment entity m c reference := by
  intro j hj
  obtain ⟨n, segment, e, m, c, reference, hthrough⟩ := h.joined j hj
  exact ⟨n, segment, e, m, c, reference, hthrough.mono htable hentity hjoins⟩

theorem addParameters (h : s.Navigable mappings root names) (vs : List Value) :
    (s.addParameters vs).Navigable mappings root names :=
  { h with joined := h.joined_mono rfl rfl (List.Subset.refl _) }

theorem bind (h : s.Navigable mappings root names) {name : String} (hname : names name) :
    (s.bind name s.tableAlias).Navigable mappings root names := by
  have hjoins := bind_joins s name s.tableAlias
  have htable := bind_tableAlias s name s.tableAlias
  obtain ⟨hentity, hname', hnext⟩ : (s.bind name s.tableAlias).entity = s.entity
      ∧ (s.bind name s.tableAlias).table = s.table
      ∧ (s.bind name s.tableAlias).nextNumber = s.nextNumber := by
    unfold Scope.bind
    split <;> exact ⟨rfl, rfl, rfl⟩
  constructor
  · rw [hentity, h.entity]
  · rw [hname', h.table]
  · rw [htable, h.tableAlias]
  · rw [hnext, hjoins, h.next]
  · rw [hjoins, h.numbered]
  · rw [hjoins]
    exact h.paths
  · rw [hjoins]
    exact h.joined_mono htable hentity (hjoins ▸ List.Subset.refl _)
  · intro b hb
    rw [htable]
    rcases mem_bind hb with hb | rfl
    · exact h.bound b hb
    · exact ⟨hname, rfl⟩

/-- One more join, under the next number and for a navigation that was not joined yet. -/
theorem addJoin (h : s.Navigable mappings root names) {j : Join} {navigation segment : String}
    {entity : EntityType} {m : TypeMapping} {c : ColumnMapping} {reference : Reference}
    (hj : s.Through mappings j navigation segment entity m c reference)
    (hnumber : j.tableAlias = "t" ++ toString s.nextNumber)
    (hfresh : j.path ∉ s.joins.map (·.path)) : (s.addJoin j).Navigable mappings root names := by
  have hsub : s.joins ⊆ (s.addJoin j).joins := List.subset_append_left _ _
  have htable : (s.addJoin j).tableAlias = s.tableAlias := rfl
  have hentity : (s.addJoin j).entity = s.entity := rfl
  have hnumbering := h.numbering.addJoin hnumber hfresh
  refine ⟨h.entity, h.table, h.tableAlias, hnumbering.next, hnumbering.numbered,
    hnumbering.paths, fun i hi => ?_, h.bound⟩
  rcases List.mem_append.1 hi with hi | hi
  · exact h.joined_mono htable hentity hsub i hi
  · rw [List.mem_singleton.1 hi]
    exact ⟨_, _, _, _, _, _, hj.mono htable hentity hsub⟩

/-- A join that is found from an alias goes through the member. -/
theorem through_of_join? (h : s.Navigable mappings root names) (hm : mappings.Navigable)
    {a navigation segment : String} {entity : EntityType} {m : TypeMapping} {c : ColumnMapping}
    {reference : Reference} (hs : s.StandsFor mappings a navigation entity)
    (mapping : mappings entity = .ok m) (member : m.member? segment = some (.foreign c reference))
    {j : Join} (hj : s.join? (navigation ++ "." ++ segment) = some j) :
    j ∈ s.joins ∧ j.leftAlias = a
      ∧ s.Through mappings j navigation segment entity m c reference := by
  have hmem : j ∈ s.joins := List.mem_of_find?_eq_some hj
  have hpath : j.path = navigation ++ "." ++ segment := by simpa using List.find?_some hj
  obtain ⟨navigation', segment', entity', m', c', reference', hthrough⟩ := h.joined j hmem
  -- the text of the navigation is cut in one way only, and leads to one alias
  obtain ⟨rfl, rfl⟩ := navigation_inj (hm.undotted _ _ _ _ _ mapping member)
    (hm.undotted _ _ _ _ _ hthrough.mapping hthrough.member) (hpath.symm.trans hthrough.path)
  obtain ⟨rfl, rfl⟩ := h.unique_of_navigation hs hthrough.left
  obtain rfl := Except.ok.inj (mapping.symm.trans hthrough.mapping)
  obtain ⟨rfl, rfl⟩ := MemberMapping.foreign.inj
    (Option.some.inj (member.symm.trans hthrough.member))
  exact ⟨hmem, rfl, hthrough⟩

/-- A join that is asked for from an alias is there afterwards and goes through the member, also
if it was there before. -/
theorem requireJoin (h : s.Navigable mappings root names) (hm : mappings.Navigable)
    {a navigation segment : String} {entity : EntityType} {m : TypeMapping} {c : ColumnMapping}
    {reference : Reference} (hs : s.StandsFor mappings a navigation entity)
    (mapping : mappings entity = .ok m) (member : m.member? segment = some (.foreign c reference))
    {joined : String} (required : s.requireJoin (navigation ++ "." ++ segment)
      reference.targetTable a c.column reference.targetKeyColumn = (joined, s')) :
    s'.Navigable mappings root names ∧ ∃ j ∈ s'.joins, j.tableAlias = joined
      ∧ s'.Through mappings j navigation segment entity m c reference
      ∧ s'.joins ⊆ j :: s.joins := by
  cases hj : s.join? (navigation ++ "." ++ segment) with
  | some j =>
    rw [requireJoin_of_join? hj] at required
    obtain ⟨rfl, rfl⟩ := Prod.mk.inj required
    obtain ⟨hmem, -, hthrough⟩ := h.through_of_join? hm hs mapping member hj
    exact ⟨h, j, hmem, rfl, hthrough, List.subset_cons_self _ _⟩
  | none =>
    rw [requireJoin_of_none hj] at required
    obtain ⟨rfl, rfl⟩ := Prod.mk.inj required
    -- the path is not taken, so the new join does not hide an old one
    have hfresh : ∀ j ∈ s.joins, j.path ≠ navigation ++ "." ++ segment := by
      simpa [Scope.join?] using hj
    let j : Join :=
      { path := navigation ++ "." ++ segment
        table := reference.targetTable
        tableAlias := "t" ++ toString s.nextNumber
        leftAlias := a
        leftColumn := c.column
        rightColumn := reference.targetKeyColumn }
    have hthrough : s.Through mappings j navigation segment entity m c reference :=
      ⟨hs, mapping, member, rfl, rfl, rfl, rfl⟩
    refine ⟨h.addJoin hthrough rfl fun hmem => ?_, j,
      List.mem_append_right _ List.mem_cons_self, rfl, ?_, fun i hi => ?_⟩
    · obtain ⟨i, hi, hpath⟩ := List.mem_map.1 hmem
      exact hfresh i hi hpath
    · have htable : (s.addJoin j).tableAlias = s.tableAlias := rfl
      exact hthrough.mono htable rfl (List.subset_append_left _ _)
    · rcases List.mem_append.1 hi with hi | hi
      · exact List.mem_cons_of_mem _ hi
      · exact List.mem_cons.2 (.inl (List.mem_singleton.1 hi))

/-- A row of the root, or one whose name is not bound, is the row of the root. -/
theorem standsFor_rowAlias (h : s.Navigable mappings root names) {name : String}
    {entity : EntityType} (hrow : entity = root.entity ∨ ¬ names name) {a : String}
    (ha : s.rowAlias? name entity = some a) : s.StandsFor mappings a a entity := by
  have hstands : a = s.tableAlias ∧ entity = s.entity := by
    unfold rowAlias? at ha
    cases hb : s.binding? name with
    | none =>
      simp only [hb] at ha
      split at ha
      · rename_i hentity
        exact ⟨(Option.some.inj ha).symm, hentity⟩
      · cases ha
    | some bound =>
      simp only [hb, Option.some.injEq] at ha
      obtain ⟨before, after, happend, -⟩ := List.lookup_eq_some_iff.1 hb
      obtain ⟨hname, hbound⟩ := h.bound (name, bound) (by simp [happend])
      exact ⟨ha.symm.trans hbound, (hrow.resolve_right (not_not_intro hname)).trans h.entity.symm⟩
  obtain ⟨rfl, rfl⟩ := hstands
  exact .root

end Navigable

/-! ## Compilations -/

end Scope

/-- The row that the node is. -/
def Expr.row? : Expr → Option (String × EntityType)
  | .parameter name entity => some (name, entity)
  | _ => none

/-- The row that the node binds. -/
def Expr.bound? : Expr → Option (String × EntityType)
  | .lambda row _ => row.row?
  | _ => none

namespace Scope

/-- A row whose name is bound to the root somewhere among the nodes is a row of the root. -/
def Agreeing (root : EntityType) (nodes : List Expr) : Prop :=
  ∀ node ∈ nodes, ∀ row ∈ node.row?, row.2 = root
    ∨ ∀ binder ∈ nodes, binder.bound? ≠ some (row.1, root)

/-- The nodes bind the name to the root. -/
def Binds (root : EntityType) (nodes : List Expr) (name : String) : Prop :=
  ∃ binder ∈ nodes, binder.bound? = some (name, root)

/-- Among agreeing nodes, a row is one of the root or its name is not bound. -/
theorem Agreeing.row {root : EntityType} {nodes : List Expr} (h : Agreeing root nodes)
    {name : String} {entity : EntityType} (hnode : .parameter name entity ∈ nodes) :
    entity = root ∨ ¬Binds root nodes name := by
  rcases h _ hnode (name, entity) rfl with hroot | hfree
  · exact .inl hroot
  · exact .inr fun ⟨binder, hbinder, hbound⟩ => hfree binder hbinder hbound

/-- A compilation of some of the nodes keeps the invariant of scopes, and walks come to aliases
that stand for what they look for. -/
theorem Navigable.kept {env : Environment} {root : TypeMapping} {nodes all : List Expr}
    (hm : env.mappings.Navigable) (hsub : nodes ⊆ all) (hrows : Agreeing root.entity all) :
    Kept env nodes (Navigable env.mappings root (Binds root.entity all))
      fun s a navigation entity => s.Navigable env.mappings root (Binds root.entity all)
        ∧ s.StandsFor env.mappings a navigation entity where
  parameter := fun s v h => h.addParameters [v]
  row := fun name entity body hnode s hentity h => by
    rw [hentity, h.entity] at hnode
    exact h.bind ⟨_, hsub hnode, rfl⟩
  start := fun name entity hnode s a h hrow =>
    ⟨h, h.standsFor_rowAlias (hrows.row (hsub hnode)) hrow⟩
  join := by
    intro s a navigation entity m segment c reference h hs mapping member joined s' required
    obtain ⟨h', j, hj, rfl, hthrough, -⟩ := h.requireJoin hm hs.2 mapping member required
    refine ⟨h', h', ?_⟩
    rw [← hthrough.path]
    exact hthrough.standsFor hj

/-- An expression over agreeing rows leaves a scope of the root, whether it compiles or not. -/
theorem Navigable.compileInto {env : Environment} (hr : env.Standard) {root : TypeMapping}
    {all : List Expr} {s : Scope} {e : Expr} (hm : env.mappings.Navigable) (hsub : e.nodes ⊆ all)
    (hrows : Agreeing root.entity all)
    (h : s.Navigable env.mappings root (Binds root.entity all)) :
    (e.compileInto env s).scope.Navigable env.mappings root (Binds root.entity all) :=
  compile_keeps hr e (Navigable.kept hm hsub hrows) none ⟨s, []⟩ h

end Scope

end RowMapper
