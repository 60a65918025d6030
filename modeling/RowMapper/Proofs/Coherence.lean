import RowMapper.Proofs.Memoization

/-!
# Mappings agree

What a mapping says of another type is read from the declaration of that type, never from its
mapping, which may be resolved later or not at all. That both say the same is a matter of the rules,
which are fixed before anything is resolved, and of the declarations, which do not change.

* `resolve_reference` and `resolve_list` compare two resolutions of one schema under one list of
  rules.
* `Registry.Answered` are the mappings that a run of calls was answered with; they are resolutions
  under the rules of the run.
* `Registry.mappings_coherent` says what holds of each of them, and of any two.
-/

namespace RowMapper

section

variable {schema : Schema} {rules : List NamingRule} {entity : EntityType}

/-! ## Where reference lists lead -/

/-- A resolved list is paired with a foreign object of its target. -/
theorem resolveMember_list {member : MemberDeclaration} {l : ListMapping}
    (h : resolveMember schema rules entity member = .ok (.list l)) :
    l.targetTable = tableName rules l.target (schema.declaration l.target).table
      ∧ ∃ f, (schema.declaration l.target).member? l.targetField = some (.foreign f)
        ∧ f.target = entity ∧ l.targetColumn = columnName rules l.target f.name f.column := by
  cases member with
  | field f => cases h
  | foreign f =>
    simp only [resolveMember, resolveForeign] at h
    obtain ⟨key, -, h⟩ := Except.bind_eq_ok.1 h
    cases h
  | list declared =>
    simp only [resolveMember, resolveList] at h
    split at h
    · rename_i f hf
      split at h
      · rename_i hpaired
        cases h
        exact ⟨rfl, f, hf, hpaired, rfl⟩
      · cases h
    · cases h

/-- A foreign object resolves to the column of its name, and to a reference to its target. -/
theorem resolveMember_of_foreign {f : ForeignDeclaration} {x : MemberMapping}
    (h : resolveMember schema rules entity (.foreign f) = .ok x) :
    ∃ c reference, x = .foreign c reference ∧ reference.target = f.target
      ∧ c.column = columnName rules entity f.name f.column := by
  simp only [resolveMember, resolveForeign] at h
  obtain ⟨key, -, h⟩ := Except.bind_eq_ok.1 h
  cases h
  exact ⟨_, _, rfl, rfl, rfl⟩

/-- The member that is declared by a name is resolved by that name. -/
theorem resolve_member? {m : TypeMapping} (h : resolve schema rules entity = .ok m) {name : String}
    {member : MemberDeclaration} (found : (schema.declaration entity).member? name = some member) :
    ∃ x, m.member? name = some x ∧ resolveMember schema rules entity member = .ok x := by
  refine find?_of_forall₂ (fun declared x hx => ?_) (resolve_members h).2 found
  rw [(resolveMember_declared hx).1]

/-- A list leads to the table of its target, and to the foreign object there that points back. -/
theorem resolve_list {m target : TypeMapping} {l : ListMapping}
    (h : resolve schema rules entity = .ok m) (hl : .list l ∈ m.members)
    (htarget : resolve schema rules l.target = .ok target) :
    target.table = l.targetTable
      ∧ ∃ c reference, target.member? l.targetField = some (.foreign c reference)
        ∧ reference.target = entity ∧ c.column = l.targetColumn := by
  obtain ⟨member, -, hmember⟩ := exists_of_forall₂ (resolve_members h).2 hl
  obtain ⟨htable, f, hfound, hpaired, hcolumn⟩ := resolveMember_list hmember
  obtain ⟨x, hx, hresolved⟩ := resolve_member? htarget hfound
  obtain ⟨c, reference, rfl, hleads, hc⟩ := resolveMember_of_foreign hresolved
  exact ⟨(resolve_members htarget).1.trans htable.symm, c, reference, hx, hleads.trans hpaired,
    hc.trans hcolumn.symm⟩

end

/-! ## Members by column -/

namespace TypeMapping

variable {m : TypeMapping}

/-- Among columns of their own, a member is found by its column. -/
theorem byColumn?_of_nodup (hcolumns : (m.columns.map (·.column)).Nodup) {member : MemberMapping}
    (h : member ∈ m.members) {c : ColumnMapping} (hc : member.column? = some c) :
    m.byColumn? c.column = some c :=
  find?_of_nodup hcolumns (List.mem_filterMap.2 ⟨member, h, hc⟩)

/-- A column is found by way of the member that has it. -/
theorem byColumn?_eq (m : TypeMapping) (column : String) :
    m.byColumn? column = (m.members.find? (·.hasColumn column)).bind (·.column?) :=
  List.find?_filterMap

theorem find?_hasColumn (hnames : (m.members.map (·.name)).Nodup)
    (hcolumns : (m.columns.map (·.column)).Nodup) {member : MemberMapping}
    (h : member ∈ m.members) {c : ColumnMapping} (hc : member.column? = some c) :
    m.members.find? (·.hasColumn c.column) = some member := by
  -- the member that is found has the same column, which bears the name of the member
  have hfound := byColumn?_of_nodup hcolumns h hc
  rw [byColumn?_eq] at hfound
  obtain ⟨x, hx, hxc⟩ := Option.bind_eq_some_iff.1 hfound
  have hname : x.name = member.name :=
    (x.name_of_column? hxc).trans (member.name_of_column? hc).symm
  rw [hx, List.inj_on_of_nodup_map hnames (List.mem_of_find?_eq_some hx) h hname]

end TypeMapping

namespace Registry

/-! ## Mappings of a run -/

/-- Nothing is declared anew during the run. -/
def Under (schema : Schema) (calls : List Call) : Prop :=
  ∀ call ∈ calls, ∀ asked ∈ call.asked?, asked.1 = schema

def Answered (schema : Schema) (calls : List Call) (e : EntityType) (m : TypeMapping) : Prop :=
  ∃ before call rest x, calls = before ++ call :: rest ∧ call.asked? = some (schema, e)
    ∧ ((after before).request schema e).outcome = .ok x ∧ x.mapping = m

/-- What a mapping says by itself: it is of the requested type, its table has a name, and its
members are found by their names and by their columns. -/
structure WellFormed (e : EntityType) (m : TypeMapping) : Prop where
  entity : m.entity = e
  table : m.table ≠ ""
  names : (m.members.map (·.name)).Nodup
  columns : (m.columns.map (·.column)).Nodup
  named : ∀ member ∈ m.members, m.member? member.name = some member
  backed : ∀ member ∈ m.members, ∀ c ∈ member.column?,
    m.members.find? (·.hasColumn c.column) = some member ∧ m.byColumn? c.column = some c

variable {schema : Schema} {calls : List Call} {e : EntityType} {m : TypeMapping}

theorem wellFormed_of_resolve {rules : List NamingRule} (h : resolve schema rules e = .ok m) :
    WellFormed e m := by
  obtain ⟨hentity, htable, hnames⟩ := resolve_sound h
  have hcolumns := resolve_columns h
  refine ⟨hentity, fun hempty => ?_, hnames, hcolumns, fun member hmember => ?_,
    fun member hmember c hc => ⟨?_, ?_⟩⟩
  · rw [hempty] at htable
    cases htable
  · exact find?_of_nodup hnames hmember
  · exact TypeMapping.find?_hasColumn hnames hcolumns hmember hc
  · exact TypeMapping.byColumn?_of_nodup hcolumns hmember hc

/-- Under one schema, the registry after a run is one of that schema. -/
theorem Under.reached (h : Under schema calls) : Reached schema (after calls) := by
  -- from the right: the registry after a call is the one before it, asked once more
  induction calls using List.reverseRecOn with
  | nil => exact .new
  | append_singleton calls call ih =>
    have hbefore := ih fun c hc => h c (List.mem_append_left _ hc)
    rw [after_append]
    cases hasked : call.asked? with
    | none =>
      cases call with
      | register rule =>
        cases hregister : (after calls).register rule with
        | ok registered =>
          have hserve : ((after calls).serve (.register rule)).2 = registered := by
            simp only [serve, hregister]
          rw [hserve]
          exact .register hbefore hregister
        | error cause =>
          have hserve : ((after calls).serve (.register rule)).2 = after calls := by
            simp only [serve, hregister]
          rw [hserve]
          exact hbefore
      | request s t => cases hasked
      | member s t name => cases hasked
    | some asked =>
      obtain ⟨s, t⟩ := asked
      have hs : s = schema := h call (List.mem_append_right _ List.mem_cons_self) _ hasked
      rw [serve_of_asked hasked, hs]
      exact .request hbefore t

/-- Every answer is a resolution under the rules of the whole run. -/
theorem Answered.resolve (h : Answered schema calls e m) (hunder : Under schema calls) :
    resolve schema (rulesOf calls) e = .ok m := by
  obtain ⟨before, call, rest, x, rfl, hasked, hx, rfl⟩ := h
  -- the rules were fixed when the mapping was asked for, whatever comes after
  have hbefore : Under schema before := fun c hc => hunder c (List.mem_append_left _ hc)
  have hsome : call.asked? ≠ none := by
    rw [hasked]
    exact Option.some_ne_none _
  rw [rulesOf_append_asking hsome, ← (served_after before).rules]
  exact hbefore.reached.sound.resolve_of_request hx

/-- A run under unchanging declarations, with whatever rules. Each mapping that is answered is well
formed, and what it says of the mapping of another type, the latter says of itself: a foreign object
leads to the table and to the one key of its target, and a reference list to the foreign object of
its target that points back. -/
theorem mappings_coherent (hunder : Under schema calls) (h : Answered schema calls e m) :
    WellFormed e m
      ∧ (∀ c reference target, .foreign c reference ∈ m.members →
        Answered schema calls reference.target target →
        reference.targetTable = target.table
          ∧ ∃ k, target.primaryKeys = [k] ∧ reference.targetKey = k.name
            ∧ reference.targetKeyColumn = k.column ∧ c.valueType = k.valueType)
      ∧ ∀ l target, .list l ∈ m.members → Answered schema calls l.target target →
        l.targetTable = target.table
          ∧ ∃ c reference, target.member? l.targetField = some (.foreign c reference)
            ∧ reference.target = e ∧ c.column = l.targetColumn := by
  have hm := h.resolve hunder
  refine ⟨wellFormed_of_resolve hm, fun c reference target hc htarget => ?_,
    fun l target hl htarget => ?_⟩
  · obtain ⟨htable, k, hkeys, hname, hcolumn, htype⟩ :=
      resolve_reference hm hc (htarget.resolve hunder)
    exact ⟨htable.symm, k, hkeys, hname.symm, hcolumn.symm, htype.symm⟩
  · obtain ⟨htable, hback⟩ := resolve_list hm hl (htarget.resolve hunder)
    exact ⟨htable.symm, hback⟩

/-- The badge of an employee has the key of the employee, and a visit is by badge. The visit says
of the badge what the badge says of itself, down to the value type, which is that of the key of
employees. -/
theorem mappings_coherent_badge :
    let badge : EntityType := ⟨"Badge"⟩
    let visit : EntityType := ⟨"Visit"⟩
    let holder : MemberDeclaration :=
      .foreign { name := "holderId", target := Company.employee, primaryKey := true }
    let byBadge : MemberDeclaration := .foreign { name := "byBadge", target := badge }
    let schema : Schema :=
      (Company.schema.declare badge { table := "badges", members := [holder] }).declare visit
        { table := "visits", members := [Company.key .uuid, byBadge] }
    let calls : List Call := [.register .snakeCase, .request schema visit, .request schema badge]
    let c : ColumnMapping := ⟨"byBadge", "by_badge", .of .int64, false, .full⟩
    let reference : Reference := ⟨badge, "badges", "holderId", "holder_id"⟩
    ∃ v b, Answered schema calls visit v ∧ Answered schema calls badge b
      ∧ .foreign c reference ∈ v.members
      ∧ reference.targetTable = b.table ∧ ∃ k, b.primaryKeys = [k]
        ∧ reference.targetKeyColumn = k.column ∧ c.valueType = k.valueType := by
  intro badge visit holder byBadge schema calls c reference
  have hunder : Under schema calls := by
    intro call hcall asked hasked
    simp only [calls, List.mem_cons, List.not_mem_nil, or_false] at hcall
    obtain rfl | rfl | rfl := hcall
    · cases hasked
    · cases hasked
      rfl
    · cases hasked
      rfl
  have hvisit : ((after (calls.take 1)).request schema visit).outcome.toOption.any
      (fun x => .foreign c reference ∈ x.mapping.members) := by decide +kernel
  obtain ⟨x, hx, hc⟩ := (Option.any_eq_true _ _).1 hvisit
  have hbadge : ((after (calls.take 2)).request schema badge).outcome.toOption.isSome := by
    decide +kernel
  obtain ⟨y, hy⟩ := Option.isSome_iff_exists.1 hbadge
  have hv : Answered schema calls visit x.mapping :=
    ⟨calls.take 1, _, _, x, rfl, rfl, Except.eq_ok_of_toOption hx, rfl⟩
  have hb : Answered schema calls badge y.mapping :=
    ⟨calls.take 2, _, _, y, rfl, rfl, Except.eq_ok_of_toOption hy, rfl⟩
  obtain ⟨-, hforeign, -⟩ := mappings_coherent hunder hv
  obtain ⟨htable, k, hkeys, -, hcolumn, htype⟩ :=
    hforeign c reference y.mapping (of_decide_eq_true hc) hb
  exact ⟨_, _, hv, hb, of_decide_eq_true hc, htable, k, hkeys, hcolumn, htype⟩

end Registry

end RowMapper
