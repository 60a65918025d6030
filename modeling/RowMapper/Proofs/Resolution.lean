import RowMapper.Mapping.Registry
import RowMapper.Proofs.Outcome

/-!
# Resolved mappings

What a registry answers is a resolution of the declaration: it is of the requested type, its table
has a name, and each of its members has a name of its own, so that a column is found again by the
name of its member.

* `resolve_sound` says so of one resolution, by induction on the declared members.
* `resolve_reference` says where a foreign object leads: what its reference names is what the
  resolution of the target has.
* `Registry.Reached` are the registries of a schema; `Registry.Reached.sound` is their invariant.
* `Registry.Requested` is what a request does; `Registry.Sound.lookup_request` says that it is
  answered alike from then on.
-/

namespace RowMapper

/-! ## One resolution -/

section

variable {schema : Schema} {rules : List NamingRule} {entity : EntityType}

/-- A resolved member keeps its name, and belongs to the primary key if the declared one does. -/
theorem resolveMember_declared {member : MemberDeclaration} {resolved : MemberMapping}
    (h : resolveMember schema rules entity member = .ok resolved) :
    resolved.name = member.name ∧ resolved.isPrimaryKey = member.isPrimaryKey := by
  cases member with
  | field f =>
    cases h
    exact ⟨rfl, rfl⟩
  | foreign f =>
    simp only [resolveMember, resolveForeign] at h
    obtain ⟨key, -, h⟩ := Except.bind_eq_ok.1 h
    cases h
    exact ⟨rfl, rfl⟩
  | list l =>
    simp only [resolveMember, resolveList] at h
    split at h
    · split at h
      · cases h
        exact ⟨rfl, rfl⟩
      · cases h
    · cases h

/-- The first member has a name and a column that were not taken, and the others are resolved with
these taken, too. -/
theorem resolveMembers_cons {names columns : List String} {member : MemberDeclaration}
    {rest : List MemberDeclaration} {resolved : List MemberMapping}
    (h : resolveMembers schema rules entity names columns (member :: rest) = .ok resolved) :
    member.name ∉ names ∧ ∃ first others, resolved = first :: others
      ∧ resolveMember schema rules entity member = .ok first
      ∧ (∀ c ∈ first.column?, c.column ∉ columns)
      ∧ resolveMembers schema rules entity (member.name :: names)
        ((first.column?.map (·.column)).toList ++ columns) rest = .ok others := by
  rw [resolveMembers] at h
  split at h
  · cases h
  rename_i hfresh
  refine ⟨hfresh, ?_⟩
  obtain ⟨first, hfirst, h⟩ := Except.bind_eq_ok.1 h
  -- a list has no column that could be taken already
  split at h
  · rename_i c hcolumn
    split at h
    · cases h
    rename_i hnew
    obtain ⟨others, hothers, h⟩ := Except.bind_eq_ok.1 h
    cases h
    refine ⟨first, others, rfl, hfirst, fun k hk => ?_, ?_⟩
    · obtain rfl := Option.some.inj (hcolumn.symm.trans hk)
      exact hnew
    · rw [hcolumn]
      exact hothers
  · rename_i hcolumn
    obtain ⟨others, hothers, h⟩ := Except.bind_eq_ok.1 h
    cases h
    refine ⟨first, others, rfl, hfirst, fun k hk => ?_, ?_⟩
    · cases hcolumn.symm.trans hk
    · rw [hcolumn]
      exact hothers

/-- The members have names of their own, none of them taken before. -/
theorem resolveMembers_names {names columns : List String} {members : List MemberDeclaration}
    {resolved : List MemberMapping}
    (h : resolveMembers schema rules entity names columns members = .ok resolved) :
    (resolved.map (·.name)).Nodup ∧ ∀ x ∈ resolved, x.name ∉ names := by
  -- the names taken so far are general: the others avoid that of the first one
  induction members generalizing names columns resolved with
  | nil =>
    cases h
    exact ⟨.nil, fun x hx => absurd hx List.not_mem_nil⟩
  | cons member rest ih =>
    obtain ⟨hfresh, first, others, rfl, hfirst, -, hothers⟩ := resolveMembers_cons h
    have hname : first.name = member.name := (resolveMember_declared hfirst).1
    obtain ⟨hnodup, havoid⟩ := ih hothers
    refine ⟨List.nodup_cons.2 ⟨fun hmem => ?_, hnodup⟩, fun x hx => ?_⟩
    · obtain ⟨x, hx, hxname⟩ := List.mem_map.1 hmem
      have htaken : x.name = member.name := hxname.trans hname
      exact havoid x hx (htaken ▸ List.mem_cons_self)
    · rcases List.mem_cons.1 hx with rfl | hx
      · rw [hname]
        exact hfresh
      · exact fun hmem => havoid x hx (List.mem_cons_of_mem _ hmem)

/-- The columns are distinct, and none of them was taken before. -/
theorem resolveMembers_columns {names columns : List String} {members : List MemberDeclaration}
    {resolved : List MemberMapping}
    (h : resolveMembers schema rules entity names columns members = .ok resolved) :
    ((resolved.filterMap (·.column?)).map (·.column)).Nodup
      ∧ ∀ c ∈ resolved.filterMap (·.column?), c.column ∉ columns := by
  -- the columns taken so far are general: the others avoid that of the first one
  induction members generalizing names columns resolved with
  | nil =>
    cases h
    exact ⟨.nil, fun c hc => absurd hc List.not_mem_nil⟩
  | cons member rest ih =>
    obtain ⟨-, first, others, rfl, -, hnew, hothers⟩ := resolveMembers_cons h
    obtain ⟨hnodup, havoid⟩ := ih hothers
    cases hcolumn : first.column? with
    | none =>
      rw [List.filterMap_cons_none hcolumn]
      rw [hcolumn] at havoid
      exact ⟨hnodup, havoid⟩
    | some c =>
      rw [List.filterMap_cons_some hcolumn]
      rw [hcolumn] at havoid
      refine ⟨List.nodup_cons.2 ⟨fun hmem => ?_, hnodup⟩, List.forall_mem_cons.2 ⟨?_, ?_⟩⟩
      · obtain ⟨k, hk, hkcolumn⟩ := List.mem_map.1 hmem
        exact havoid k hk (hkcolumn ▸ List.mem_cons_self)
      · exact hnew c hcolumn
      · exact fun k hk hmem => havoid k hk (List.mem_cons_of_mem _ hmem)

/-- A resolution is of its type, has a table, and has members with names of their own. -/
theorem resolve_sound {m : TypeMapping} (h : resolve schema rules entity = .ok m) :
    m.entity = entity ∧ m.table.isEmpty = false ∧ (m.members.map (·.name)).Nodup := by
  unfold resolve at h
  simp only at h
  split at h
  · cases h
  rename_i htable
  obtain ⟨members, hmembers, h⟩ := Except.bind_eq_ok.1 h
  cases h
  exact ⟨rfl, by simpa using htable, (resolveMembers_names hmembers).1⟩

/-- A resolution has no column twice. -/
theorem resolve_columns {m : TypeMapping} (h : resolve schema rules entity = .ok m) :
    (m.columns.map (·.column)).Nodup := by
  unfold resolve at h
  simp only at h
  split at h
  · cases h
  obtain ⟨members, hmembers, h⟩ := Except.bind_eq_ok.1 h
  cases h
  exact (resolveMembers_columns hmembers).1

/-- Each declared member has its resolution, in order. -/
theorem resolveMembers_forall₂ {names columns : List String} {members : List MemberDeclaration}
    {resolved : List MemberMapping}
    (h : resolveMembers schema rules entity names columns members = .ok resolved) :
    List.Forall₂ (fun member x => resolveMember schema rules entity member = .ok x)
      members resolved := by
  induction members generalizing names columns resolved with
  | nil =>
    cases h
    exact .nil
  | cons member rest ih =>
    obtain ⟨-, first, others, rfl, hfirst, -, hothers⟩ := resolveMembers_cons h
    exact .cons hfirst (ih hothers)

/-- A resolution has the table and the members of the declaration. -/
theorem resolve_members {m : TypeMapping} (h : resolve schema rules entity = .ok m) :
    m.table = tableName rules entity (schema.declaration entity).table
      ∧ List.Forall₂ (fun member x => resolveMember schema rules entity member = .ok x)
        (schema.declaration entity).members m.members := by
  unfold resolve at h
  simp only at h
  split at h
  · cases h
  obtain ⟨members, hmembers, h⟩ := Except.bind_eq_ok.1 h
  cases h
  exact ⟨rfl, resolveMembers_forall₂ hmembers⟩

/-- The members of the primary key are the resolutions of the declared ones. -/
theorem resolve_keys {m : TypeMapping} (h : resolve schema rules entity = .ok m) :
    List.Forall₂ (fun member x => resolveMember schema rules entity member = .ok x)
      (schema.declaration entity).keys (m.members.filter (·.isPrimaryKey)) := by
  refine List.rel_filter (fun member x hx => ?_) (resolve_members h).2
  show member.isPrimaryKey = true ↔ x.isPrimaryKey = true
  rw [(resolveMember_declared hx).2]

/-- The single key of a type: its own name and column, and the value type at the end of the chain.
Through which types it was come by does not matter. -/
inductive KeyOf (schema : Schema) (rules : List NamingRule) : EntityType → ResolvedKey → Prop where
  | field {e : EntityType} {f : FieldDeclaration}
    (keys : (schema.declaration e).keys = [.field f]) :
    KeyOf schema rules e ⟨f.name, columnName rules e f.name f.column, f.valueType⟩
  | foreign {e : EntityType} {f : ForeignDeclaration} {inner : ResolvedKey}
    (keys : (schema.declaration e).keys = [.foreign f])
    (chain : KeyOf schema rules f.target inner) :
    KeyOf schema rules e ⟨f.name, columnName rules e f.name f.column, inner.valueType⟩

theorem KeyOf.unique {key key' : ResolvedKey} (h : KeyOf schema rules entity key)
    (h' : KeyOf schema rules entity key') : key = key' := by
  induction h generalizing key' with
  | field keys =>
    cases h' with
    | field keys' =>
      cases keys.symm.trans keys'
      rfl
    | foreign keys' _ => cases keys.symm.trans keys'
  | foreign keys chain ih =>
    cases h' with
    | field keys' => cases keys.symm.trans keys'
    | foreign keys' chain' =>
      cases keys.symm.trans keys'
      rw [ih chain']

theorem keyOf_of_resolveKey {visited : List EntityType} {key : ResolvedKey}
    (h : resolveKey schema rules visited entity = .ok key) : KeyOf schema rules entity key := by
  -- along the recursion: the visited types only decide whether there is a key
  fun_induction resolveKey schema rules visited entity generalizing key with
  | case1 visited target _ => cases h
  | case2 visited target _ _ => cases h
  | case3 visited target _ declaration declared field hkeys =>
    cases h
    exact .field (by rw [Schema.declaration, declared]; exact hkeys)
  | case4 visited target _ declaration declared foreign hkeys ih =>
    obtain ⟨inner, hinner, h⟩ := Except.bind_eq_ok.1 h
    cases h
    exact .foreign (by rw [Schema.declaration, declared]; exact hkeys) (ih hinner)
  | case5 visited target _ declaration declared _ _ => cases h

/-- Where a resolved foreign object leads: to the table of its target, and to the key that was
found for it. -/
theorem resolveMember_foreign {member : MemberDeclaration} {c : ColumnMapping}
    {reference : Reference}
    (h : resolveMember schema rules entity member = .ok (.foreign c reference)) :
    ∃ key, KeyOf schema rules reference.target key
      ∧ reference.targetTable
        = tableName rules reference.target (schema.declaration reference.target).table
      ∧ reference.targetKey = key.name ∧ reference.targetKeyColumn = key.column
      ∧ c.valueType = key.valueType := by
  cases member with
  | field f => cases h
  | foreign f =>
    simp only [resolveMember, resolveForeign] at h
    obtain ⟨key, hkey, h⟩ := Except.bind_eq_ok.1 h
    cases h
    exact ⟨key, keyOf_of_resolveKey hkey, rfl, rfl, rfl, rfl⟩
  | list l =>
    simp only [resolveMember, resolveList] at h
    split at h
    · split at h <;> cases h
    · cases h

/-- The key that a foreign object is followed to is the single key of its target. -/
theorem KeyOf.declared {key : ResolvedKey} (h : KeyOf schema rules entity key) :
    ∃ member, (schema.declaration entity).keys = [member]
      ∧ ∀ x, resolveMember schema rules entity member = .ok x →
        ∃ k, x.column? = some k ∧ k.name = key.name ∧ k.column = key.column
          ∧ k.valueType = key.valueType := by
  cases h with
  | field keys =>
    refine ⟨_, keys, fun x hx => ?_⟩
    cases hx
    exact ⟨_, rfl, rfl, rfl, rfl⟩
  | foreign keys chain =>
    refine ⟨_, keys, fun x hx => ?_⟩
    simp only [resolveMember, resolveForeign] at hx
    obtain ⟨key, hkey, hx⟩ := Except.bind_eq_ok.1 hx
    cases hx
    exact ⟨_, rfl, rfl, rfl, by rw [(keyOf_of_resolveKey hkey).unique chain]⟩

/-- The columns of the primary key are those of the members that belong to it. -/
theorem TypeMapping.primaryKeys_eq (m : TypeMapping) :
    m.primaryKeys = (m.members.filter (·.isPrimaryKey)).filterMap (·.column?) := by
  rw [primaryKeys, columns, List.filter_filterMap, List.filterMap_filter]
  congr 1
  funext member
  cases hcolumn : member.column? with
  | none => simp [MemberMapping.isPrimaryKey, hcolumn]
  | some c => cases hkey : c.primaryKey <;> simp [MemberMapping.isPrimaryKey, hcolumn, hkey]

/-- A foreign object leads to the table of its target, and to the single key there. -/
theorem resolve_reference {m target : TypeMapping} {c : ColumnMapping} {reference : Reference}
    (h : resolve schema rules entity = .ok m) (hc : .foreign c reference ∈ m.members)
    (htarget : resolve schema rules reference.target = .ok target) :
    target.table = reference.targetTable
      ∧ ∃ k, target.primaryKeys = [k] ∧ k.name = reference.targetKey
        ∧ k.column = reference.targetKeyColumn ∧ k.valueType = c.valueType := by
  obtain ⟨-, hmembers⟩ := resolve_members h
  obtain ⟨htable, -⟩ := resolve_members htarget
  obtain ⟨member, -, hmember⟩ := exists_of_forall₂ hmembers hc
  obtain ⟨key, hkey, hreferenced, hname, hcolumn, htype⟩ := resolveMember_foreign hmember
  obtain ⟨declared, hkeys, hresolved⟩ := hkey.declared
  refine ⟨htable.trans hreferenced.symm, ?_⟩
  -- the declared key is the only one, and so is its resolution
  have hfiltered := resolve_keys htarget
  rw [hkeys] at hfiltered
  obtain ⟨x, rest, hx, hrest, hlist⟩ := List.forall₂_cons_left_iff.1 hfiltered
  rw [List.forall₂_nil_left_iff.1 hrest] at hlist
  obtain ⟨k, hk, hkname, hkcolumn, hktype⟩ := hresolved x hx
  refine ⟨k, ?_, hkname.trans hname.symm, hkcolumn.trans hcolumn.symm, hktype.trans htype.symm⟩
  rw [TypeMapping.primaryKeys_eq, hlist]
  simp [hk]

end

/-! ## Members by name -/

/-- The column of a member has its name. -/
theorem MemberMapping.name_of_column? {member : MemberMapping} {c : ColumnMapping}
    (h : member.column? = some c) : member.name = c.name := by
  cases member with
  | field _ | foreign _ _ =>
    cases h
    rfl
  | list _ => cases h

namespace TypeMapping

variable {m : TypeMapping}

/-- A column belongs to a member of its name. -/
theorem exists_of_mem_columns {c : ColumnMapping} (h : c ∈ m.columns) :
    ∃ member ∈ m.members, member.column? = some c ∧ member.name = c.name := by
  obtain ⟨member, hmember, hcolumn⟩ := List.mem_filterMap.1 h
  exact ⟨member, hmember, hcolumn, member.name_of_column? hcolumn⟩

/-- The column of a member that is found is one of the columns. -/
theorem mem_columns_of_member? {name : String} {member : MemberMapping} {c : ColumnMapping}
    (found : m.member? name = some member) (hc : member.column? = some c) : c ∈ m.columns :=
  List.mem_filterMap.2 ⟨member, List.mem_of_find?_eq_some found, hc⟩

/-- Among members with names of their own, a column is found by the name of its member. -/
theorem member?_of_mem_columns (hnames : (m.members.map (·.name)).Nodup) {c : ColumnMapping}
    (h : c ∈ m.columns) : ∃ member, m.member? c.name = some member ∧ member.column? = some c := by
  obtain ⟨member, hmember, hcolumn, hname⟩ := exists_of_mem_columns h
  refine ⟨member, ?_, hcolumn⟩
  rw [member?, ← hname]
  exact find?_of_nodup hnames hmember

end TypeMapping

/-! ## Registries -/

namespace Registry

variable {schema : Schema} {r : Registry}

/-- The registries of a schema: an empty one, and what rules and requests make of one. -/
inductive Reached (schema : Schema) : Registry → Prop where
  | new : Reached schema {}
  | register {r r' : Registry} (before : Reached schema r) {rule : NamingRule}
    (registered : r.register rule = .ok r') : Reached schema r'
  | request {r : Registry} (before : Reached schema r) (e : EntityType) :
    Reached schema (r.request schema e).registry

/-- What a request does: it answers with what is kept; else the rules are fixed, and the answer is
a resolution, which is kept from then on, or the defect of the declaration. -/
inductive Requested (schema : Schema) (r : Registry) (e : EntityType) : Answer → Prop where
  | kept {x : Resolution} (found : r.kept? e = some x) : Requested schema r e ⟨.ok x, r, []⟩
  | resolved {m : TypeMapping} (absent : r.kept? e = none)
    (resolved : resolve schema r.rules e = .ok m) :
    Requested schema r e ⟨.ok ⟨r.kept.length, m⟩,
      { r.freeze with kept := ⟨r.kept.length, m⟩ :: r.kept }, r.freezeLog⟩
  | failed {cause : MappingError} (absent : r.kept? e = none)
    (failed : resolve schema r.rules e = .error cause) :
    Requested schema r e ⟨.error cause, r.freeze, r.freezeLog⟩

theorem requested (schema : Schema) (r : Registry) (e : EntityType) :
    Requested schema r e (r.request schema e) := by
  unfold Registry.request
  split
  · rename_i x found
    exact .kept found
  · rename_i absent
    split
    · rename_i cause failed
      exact .failed absent failed
    · rename_i m resolved
      exact .resolved absent resolved

/-- The invariant of registries: nothing is kept before the rules are fixed, and everything kept
is a resolution under them. -/
structure Sound (schema : Schema) (r : Registry) : Prop where
  fresh : r.frozen = false → r.kept = []
  resolved : ∀ x ∈ r.kept, resolve schema r.rules x.mapping.entity = .ok x.mapping

theorem Sound.request (h : Sound schema r) (e : EntityType) :
    Sound schema (r.request schema e).registry := by
  have hstep := requested schema r e
  generalize r.request schema e = answer at hstep ⊢
  cases hstep with
  | kept found => exact h
  | failed absent failed => exact ⟨nofun, h.resolved⟩
  | @resolved m absent resolved =>
    refine ⟨nofun, fun x hx => ?_⟩
    rcases List.mem_cons.1 hx with rfl | hx
    · show resolve schema r.rules m.entity = .ok m
      rw [(resolve_sound resolved).1, resolved]
    · exact h.resolved x hx

theorem Reached.sound (h : Reached schema r) : Sound schema r := by
  induction h with
  | new => exact ⟨fun _ => rfl, fun x hx => absurd hx List.not_mem_nil⟩
  | register _ registered ih =>
    unfold Registry.register at registered
    split at registered
    · cases registered
    · rename_i hopen
      cases registered
      have hnone := ih.fresh (by simpa using hopen)
      refine ⟨fun _ => hnone, fun x hx => ?_⟩
      have hx : x ∈ ([] : List Resolution) := hnone ▸ hx
      exact absurd hx List.not_mem_nil
  | request _ e ih => exact ih.request e

/-- A request is answered by a resolution. -/
theorem Sound.resolve_of_request (h : Sound schema r) {e : EntityType} {x : Resolution}
    (hx : (r.request schema e).outcome = .ok x) : resolve schema r.rules e = .ok x.mapping := by
  have hstep := requested schema r e
  generalize r.request schema e = answer at hstep hx
  cases hstep with
  | kept found =>
    cases hx
    have hentity : x.mapping.entity = e := by simpa using List.find?_some found
    rw [← hentity]
    exact h.resolved x (List.mem_of_find?_eq_some found)
  | resolved absent resolved =>
    cases hx
    exact resolved
  | failed absent failed => cases hx

/-- What was answered is kept from then on. -/
theorem Sound.kept?_request (h : Sound schema r) {e : EntityType} {x : Resolution}
    (hx : (r.request schema e).outcome = .ok x) :
    (r.request schema e).registry.kept? e = some x := by
  have hresolved := h.resolve_of_request hx
  have hstep := requested schema r e
  generalize r.request schema e = answer at hstep hx ⊢
  cases hstep with
  | kept found =>
    cases hx
    exact found
  | @resolved m absent resolved =>
    cases hx
    have hentity : m.entity = e := (resolve_sound hresolved).1
    simp [kept?, hentity]
  | failed absent failed => cases hx

/-- Once a request was answered, the registry has the mapping at hand. -/
theorem Sound.lookup_request (h : Sound schema r) {e : EntityType} {x : Resolution}
    (hx : (r.request schema e).outcome = .ok x) :
    (r.request schema e).registry.lookup schema e = .ok x.mapping := by
  rw [Registry.lookup, Registry.request, h.kept?_request hx]
  rfl

/-- A mapping that was looked up is still answered after the request, and its members have names
of their own. -/
theorem Sound.answers (h : Sound schema r) {e : EntityType} {m : TypeMapping}
    (hm : r.lookup schema e = .ok m) :
    (r.request schema e).registry.lookup schema e = .ok m ∧ (m.members.map (·.name)).Nodup := by
  obtain ⟨x, hx, rfl⟩ := Except.map_eq_ok.1 hm
  exact ⟨h.lookup_request hx, (resolve_sound (h.resolve_of_request hx)).2.2⟩

end Registry

end RowMapper
