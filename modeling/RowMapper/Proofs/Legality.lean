import Mathlib.Data.List.Induction
import RowMapper.Error
import RowMapper.Proofs.Resolution
import RowMapper.Sample.Company

/-!
# Legal declarations

Whether a declaration has a mapping can be said without resolving it. Its table has a name under
the naming rules, its members have names and columns of their own, every reference list is pointed
back at, and every foreign object is followed to a key: through types with a single primary key
each, from one foreign key to the next, until the key is a plain field.

References may go round in circles. The resolver remembers the types that it came by, so it stops
at the first one that it meets again; what it accepts are the chains that end before.

* `KeyChain` are the types that a foreign object is followed through, and `Legal` is what a
  declaration has to satisfy.
* `exists_resolveKey_iff` compares the two ways to follow a chain, by induction along the resolver.
* `Registry.accepts_exactly_legal` is about every request for a mapping.
-/

namespace RowMapper

/-! ## What is legal -/

/-- The types that a foreign object to the first one is followed through. Each of them has a single
primary key. A foreign key goes on with its own target, a plain field is the end. -/
inductive KeyChain (schema : Schema) : EntityType → List EntityType → Prop where
  | field {e : EntityType} {f : FieldDeclaration}
    (keys : (schema.declaration e).keys = [.field f]) : KeyChain schema e [e]
  | foreign {e : EntityType} {f : ForeignDeclaration} {types : List EntityType}
    (keys : (schema.declaration e).keys = [.foreign f])
    (rest : KeyChain schema f.target types) : KeyChain schema e (e :: types)

/-- The foreign object is followed to a key without meeting a type twice; one that is a key itself
is not led back to its own type. -/
def ForeignDeclaration.IsKeyed (f : ForeignDeclaration) (schema : Schema) (e : EntityType) :
    Prop :=
  ∃ types, KeyChain schema f.target types ∧ types.Nodup ∧ (f.primaryKey = true → e ∉ types)

/-- The member that the list relies on is a foreign object that points back. -/
def ListDeclaration.IsPaired (l : ListDeclaration) (schema : Schema) (e : EntityType) : Prop :=
  ∃ f, (schema.declaration l.target).member? l.targetField = some (.foreign f) ∧ f.target = e

/-- The column that a member gets under the naming rules; a reference list gets none. -/
def MemberDeclaration.column? (rules : List NamingRule) (e : EntityType) :
    MemberDeclaration → Option String
  | .field f => some (columnName rules e f.name f.column)
  | .foreign f => some (columnName rules e f.name f.column)
  | .list _ => none

/-- What is declared of the type has a mapping. -/
structure Legal (schema : Schema) (rules : List NamingRule) (e : EntityType) : Prop where
  table : tableName rules e (schema.declaration e).table ≠ ""
  names : ((schema.declaration e).members.map (·.name)).Nodup
  keyed : ∀ f, .foreign f ∈ (schema.declaration e).members → f.IsKeyed schema e
  paired : ∀ l, .list l ∈ (schema.declaration e).members → l.IsPaired schema e
  columns : ((schema.declaration e).members.filterMap (·.column? rules e)).Nodup

section

variable {schema : Schema} {rules : List NamingRule} {e : EntityType}

/-! ## Chains of keys -/

/-- A chain begins with its type. -/
theorem KeyChain.mem_self {types : List EntityType} (h : KeyChain schema e types) : e ∈ types := by
  cases h <;> exact List.mem_cons_self

/-- A type has a chain only if it has a single key. -/
theorem KeyChain.length_keys {types : List EntityType} (h : KeyChain schema e types) :
    (schema.declaration e).keys.length = 1 := by
  cases h with
  | field keys => rw [keys, List.length_singleton]
  | foreign keys _ => rw [keys, List.length_singleton]

/-- The chain of a type with a foreign key goes on with the target of the key. -/
theorem exists_keyChain_iff {f : ForeignDeclaration}
    (keys : (schema.declaration e).keys = [.foreign f]) {visited : List EntityType}
    (fresh : e ∉ visited) :
    (∃ types, KeyChain schema e types ∧ types.Nodup ∧ ∀ t ∈ types, t ∉ visited)
      ↔ ∃ types, KeyChain schema f.target types ∧ types.Nodup ∧ ∀ t ∈ types, t ∉ e :: visited := by
  constructor
  · rintro ⟨types, chain, nodup, unvisited⟩
    cases chain with
    | field keys' => cases keys.symm.trans keys'
    | @foreign _ _ types keys' rest =>
      cases keys.symm.trans keys'
      obtain ⟨hne, nodup⟩ := List.nodup_cons.1 nodup
      refine ⟨types, rest, nodup, fun t ht => ?_⟩
      rw [List.mem_cons, not_or]
      exact ⟨fun h => hne (h ▸ ht), unvisited t (List.mem_cons_of_mem _ ht)⟩
  · rintro ⟨types, chain, nodup, unvisited⟩
    have hne : e ∉ types := fun h => unvisited e h List.mem_cons_self
    refine ⟨e :: types, .foreign keys chain, List.nodup_cons.2 ⟨hne, nodup⟩, ?_⟩
    refine List.forall_mem_cons.2 ⟨fresh, fun t ht hvisited => ?_⟩
    exact unvisited t ht (List.mem_cons_of_mem _ hvisited)

/-- A key is found exactly if a chain ends that comes by no type twice, nor by one of those that
were visited before. -/
theorem exists_resolveKey_iff (visited : List EntityType) :
    (∃ key, resolveKey schema rules visited e = .ok key)
      ↔ ∃ types, KeyChain schema e types ∧ types.Nodup ∧ ∀ t ∈ types, t ∉ visited := by
  -- along the recursion: the types visited so far are general, each step adds its own
  fun_induction resolveKey schema rules visited e with
  | case1 visited target seen =>
    refine iff_of_false Except.not_exists_ok ?_
    rintro ⟨types, chain, -, unvisited⟩
    exact unvisited target chain.mem_self seen
  | case2 visited target _ undeclared =>
    refine iff_of_false Except.not_exists_ok ?_
    rintro ⟨types, chain, -⟩
    have hone := chain.length_keys
    rw [Schema.declaration, undeclared] at hone
    cases hone
  | case3 visited target fresh declaration declared field hkeys =>
    have keys : (schema.declaration target).keys = [.field field] := by
      rw [Schema.declaration, declared]
      exact hkeys
    refine iff_of_true ⟨_, rfl⟩ ⟨[target], .field keys, by simp, fun t ht => ?_⟩
    rw [List.mem_singleton.1 ht]
    exact fresh
  | case4 visited target fresh declaration declared foreign hkeys ih =>
    have keys : (schema.declaration target).keys = [.foreign foreign] := by
      rw [Schema.declaration, declared]
      exact hkeys
    rw [exists_keyChain_iff keys fresh, ← ih]
    constructor
    · rintro ⟨key, hkey⟩
      obtain ⟨inner, hinner, -⟩ := Except.bind_eq_ok.1 hkey
      exact ⟨inner, hinner⟩
    · rintro ⟨inner, hinner⟩
      exact ⟨_, Except.bind_eq_ok.2 ⟨inner, hinner, rfl⟩⟩
  | case5 visited target _ declaration declared hfield hforeign =>
    -- no key, several keys, or a key that is a list: no chain begins here
    refine iff_of_false Except.not_exists_ok ?_
    rintro ⟨types, chain, -⟩
    have hkeys : (schema.declaration target).keys = declaration.keys := by
      rw [Schema.declaration, declared]
      rfl
    cases chain with
    | field keys => exact hfield _ (hkeys.symm.trans keys)
    | foreign keys _ => exact hforeign _ (hkeys.symm.trans keys)

/-! ## Members -/

theorem exists_resolveForeign_iff (f : ForeignDeclaration) :
    (∃ x, resolveForeign schema rules e f = .ok x) ↔ f.IsKeyed schema e := by
  have hstart : (∃ x, resolveForeign schema rules e f = .ok x)
      ↔ ∃ key, resolveKey schema rules (if f.primaryKey then [e] else []) f.target = .ok key := by
    constructor
    · rintro ⟨x, hx⟩
      obtain ⟨key, hkey, -⟩ := Except.bind_eq_ok.1 hx
      exact ⟨key, hkey⟩
    · rintro ⟨key, hkey⟩
      exact ⟨_, Except.bind_eq_ok.2 ⟨key, hkey, rfl⟩⟩
  rw [hstart, exists_resolveKey_iff]
  refine exists_congr fun types => and_congr_right fun _ => and_congr_right fun _ => ?_
  -- a key begins with its own type as visited, other members with none
  cases f.primaryKey with
  | false => simp
  | true =>
    have havoid : (∀ t ∈ types, t ∉ [e]) ↔ e ∉ types := by
      constructor
      · exact fun h he => h e he List.mem_cons_self
      · exact fun h t ht hte => h (List.mem_singleton.1 hte ▸ ht)
    rw [if_pos rfl, havoid]
    exact ⟨fun h _ => h, fun h => h rfl⟩

theorem exists_resolveList_iff (l : ListDeclaration) :
    (∃ x, resolveList schema rules e l = .ok x) ↔ l.IsPaired schema e := by
  unfold resolveList ListDeclaration.IsPaired
  dsimp only
  split
  · rename_i f hf
    rw [hf]
    split
    · rename_i hback
      exact iff_of_true ⟨_, rfl⟩ ⟨f, rfl, hback⟩
    · rename_i hother
      refine iff_of_false Except.not_exists_ok ?_
      rintro ⟨f', hf', hback⟩
      cases hf'
      exact hother hback
  · rename_i hnone
    refine iff_of_false Except.not_exists_ok ?_
    rintro ⟨f, hf, -⟩
    exact hnone f hf

/-- A resolved member has the column that the naming rules give it. -/
theorem resolveMember_column? {member : MemberDeclaration} {x : MemberMapping}
    (h : resolveMember schema rules e member = .ok x) :
    x.column?.map (·.column) = member.column? rules e := by
  cases member with
  | field f =>
    cases h
    rfl
  | foreign f =>
    obtain ⟨key, -, hx⟩ := Except.bind_eq_ok.1 h
    cases hx
    rfl
  | list l =>
    simp only [resolveMember, resolveList] at h
    split at h
    · split at h
      · cases h
        rfl
      · cases h
    · cases h

/-- A member whose name and column are not taken goes in front of the others. -/
theorem resolveMembers_of_cons {names columns : List String} {member : MemberDeclaration}
    {rest : List MemberDeclaration} {first : MemberMapping} {others : List MemberMapping}
    (hname : member.name ∉ names) (hfirst : resolveMember schema rules e member = .ok first)
    (hcolumn : ∀ c ∈ member.column? rules e, c ∉ columns)
    (hothers : resolveMembers schema rules e (member.name :: names)
      ((member.column? rules e).toList ++ columns) rest = .ok others) :
    resolveMembers schema rules e names columns (member :: rest) = .ok (first :: others) := by
  rw [← resolveMember_column? hfirst] at hcolumn hothers
  rw [resolveMembers, if_neg hname, hfirst]
  cases hc : first.column? with
  | none =>
    rw [hc] at hothers
    simp only [bind, Except.bind, hc]
    rw [show resolveMembers schema rules e (member.name :: names) columns rest = .ok others
      from hothers]
  | some c =>
    rw [hc] at hcolumn hothers
    simp only [bind, Except.bind, hc]
    rw [if_neg (hcolumn c.column rfl), show resolveMembers schema rules e (member.name :: names)
      (c.column :: columns) rest = .ok others from hothers]

/-- The members are resolved if each of them is, and if their names and columns are their own, none
of them taken before. -/
theorem exists_resolveMembers {names columns : List String} {members : List MemberDeclaration}
    (hmembers : ∀ member ∈ members, ∃ x, resolveMember schema rules e member = .ok x)
    (hnames : (members.map (·.name)).Nodup) (hfresh : ∀ member ∈ members, member.name ∉ names)
    (hcolumns : (members.filterMap (·.column? rules e)).Nodup)
    (hfree : ∀ c ∈ members.filterMap (·.column? rules e), c ∉ columns) :
    ∃ resolved, resolveMembers schema rules e names columns members = .ok resolved := by
  -- the names and columns taken so far are general: the first member adds its own to them
  induction members generalizing names columns with
  | nil => exact ⟨[], rfl⟩
  | cons member rest ih =>
    obtain ⟨first, hfirst⟩ := hmembers member List.mem_cons_self
    obtain ⟨hname, hnames⟩ := List.nodup_cons.1 hnames
    have hsplit : (member :: rest).filterMap (·.column? rules e)
        = (member.column? rules e).toList ++ rest.filterMap (·.column? rules e) := by
      rw [List.filterMap_cons]
      cases member.column? rules e <;> rfl
    rw [hsplit] at hcolumns hfree
    obtain ⟨-, hcolumns, hapart⟩ := List.nodup_append.1 hcolumns
    have hrest : ∃ others, resolveMembers schema rules e (member.name :: names)
        ((member.column? rules e).toList ++ columns) rest = .ok others := by
      refine ih (fun x hx => hmembers x (List.mem_cons_of_mem _ hx)) hnames ?_ hcolumns ?_
      · intro x hx htaken
        rcases List.mem_cons.1 htaken with heq | htaken
        · exact hname (List.mem_map.2 ⟨x, hx, heq⟩)
        · exact hfresh x (List.mem_cons_of_mem _ hx) htaken
      · intro c hc htaken
        rcases List.mem_append.1 htaken with hown | htaken
        · exact hapart c hown c hc rfl
        · exact hfree c (List.mem_append_right _ hc) htaken
    obtain ⟨others, hothers⟩ := hrest
    exact ⟨first :: others, resolveMembers_of_cons (hfresh member List.mem_cons_self) hfirst
      (fun c hc => hfree c (List.mem_append_left _ (Option.mem_toList.2 hc))) hothers⟩

/-! ## Declarations -/

/-- What resolves has the names and the columns that are declared. -/
theorem map_eq_of_resolveMembers {names columns : List String}
    {members : List MemberDeclaration} {resolved : List MemberMapping}
    (h : resolveMembers schema rules e names columns members = .ok resolved) :
    resolved.map (·.name) = members.map (·.name)
      ∧ (resolved.filterMap (·.column?)).map (·.column)
        = members.filterMap (·.column? rules e) := by
  have hall := resolveMembers_forall₂ h
  constructor
  · rw [← List.forall₂_eq_eq_eq, List.forall₂_map_left_iff, List.forall₂_map_right_iff]
    exact hall.flip.imp fun x member hx => (resolveMember_declared hx).1
  · have hcolumns : resolved.map (fun x => x.column?.map (·.column))
        = members.map (·.column? rules e) := by
      rw [← List.forall₂_eq_eq_eq, List.forall₂_map_left_iff, List.forall₂_map_right_iff]
      exact hall.flip.imp fun x member hx => resolveMember_column? hx
    have hsome := congrArg (List.filterMap id) hcolumns
    rw [List.filterMap_map, List.filterMap_map] at hsome
    rw [List.map_filterMap]
    exact hsome

/-- A declaration has a mapping exactly if it is legal. -/
theorem exists_resolve_iff_legal :
    (∃ m, resolve schema rules e = .ok m) ↔ Legal schema rules e := by
  constructor
  · rintro ⟨m, hm⟩
    obtain ⟨-, hall⟩ := resolve_members hm
    have hdeclared (member : MemberDeclaration)
        (hmember : member ∈ (schema.declaration e).members) :
        ∃ x, resolveMember schema rules e member = .ok x := by
      obtain ⟨x, -, hx⟩ := exists_of_forall₂ hall.flip hmember
      exact ⟨x, hx⟩
    unfold resolve at hm
    dsimp only at hm
    split at hm
    · cases hm
    rename_i htable
    -- the names and columns of the result are those declared, in the same order
    obtain ⟨members, hmembers, hm⟩ := Except.bind_eq_ok.1 hm
    obtain ⟨hnames, hcolumns⟩ := map_eq_of_resolveMembers hmembers
    refine ⟨by simpa using htable, ?_, fun f hf => ?_, fun l hl => ?_, ?_⟩
    · rw [← hnames]
      exact (resolveMembers_names hmembers).1
    · exact (exists_resolveForeign_iff f).1 (hdeclared _ hf)
    · exact (exists_resolveList_iff l).1 (hdeclared _ hl)
    · rw [← hcolumns]
      exact (resolveMembers_columns hmembers).1
  · intro legal
    -- each member can be resolved, and then no two of them clash
    have hmembers : ∀ member ∈ (schema.declaration e).members,
        ∃ x, resolveMember schema rules e member = .ok x := by
      intro member hmember
      cases member with
      | field f => exact ⟨_, rfl⟩
      | foreign f => exact (exists_resolveForeign_iff f).2 (legal.keyed f hmember)
      | list l => exact (exists_resolveList_iff l).2 (legal.paired l hmember)
    obtain ⟨members, hresolved⟩ := exists_resolveMembers hmembers
      legal.names (fun _ _ => List.not_mem_nil) legal.columns (fun _ _ => List.not_mem_nil)
    unfold resolve
    dsimp only
    rw [if_neg (by simpa using legal.table), hresolved]
    exact ⟨_, rfl⟩

end

/-! ## Requests -/

namespace Registry

variable {schema : Schema} {r : Registry}

/-- A new registry takes any list of rules. -/
theorem reached_rules (schema : Schema) (rules : List NamingRule) : Reached schema { rules } := by
  induction rules using List.reverseRecOn with
  | nil => exact .new
  | append_singleton rules rule ih => exact .register ih rfl

/-- A request adds no rule. -/
theorem rules_request (r : Registry) (schema : Schema) (e : EntityType) :
    (r.request schema e).registry.rules = r.rules := by
  have hstep := requested schema r e
  generalize r.request schema e = answer at hstep ⊢
  cases hstep <;> rfl

/-- A request is answered by what a resolution under the rules of the registry gives, be it kept or
made now. -/
theorem Sound.outcome_request (h : Sound schema r) (e : EntityType) :
    (r.request schema e).outcome.map (·.mapping) = resolve schema r.rules e := by
  have hstep := requested schema r e
  cases houtcome : (r.request schema e).outcome with
  | ok x => rw [h.resolve_of_request houtcome]; rfl
  | error cause =>
    generalize r.request schema e = answer at hstep houtcome
    cases hstep with
    | kept found => cases houtcome
    | resolved absent resolved => cases houtcome
    | failed absent failed =>
      cases houtcome
      exact failed.symm

/-- The answers to look-ups are the same before and after a request. -/
theorem Sound.lookup_after (h : Sound schema r) (e other : EntityType) :
    (r.request schema e).registry.lookup schema other = r.lookup schema other := by
  have hafter := (h.request e).outcome_request other
  rw [rules_request] at hafter
  exact hafter.trans (h.outcome_request other).symm

/-- A mapping that a look-up finds has a table, and its members have names of their own. -/
theorem Reached.accepted (hr : Reached schema r) {e : EntityType} {m : TypeMapping}
    (hm : r.lookup schema e = .ok m) : m.table ≠ "" ∧ (m.members.map (·.name)).Nodup := by
  obtain ⟨-, htable, hnames⟩ := resolve_sound ((hr.sound.outcome_request e).symm.trans hm)
  exact ⟨by simpa using htable, hnames⟩

/-- Whatever is declared, with references in circles or not, and whatever the rules are: a request
for a mapping is answered, be it the first one or a later one. It is answered with a mapping exactly
if the declaration is legal, and else with an error of configuration. -/
theorem accepts_exactly_legal (schema : Schema) (rules : List NamingRule) (e : EntityType) :
    Reached schema { rules } ∧ ∀ r, Reached schema r → r.rules = rules →
      ((∃ x, (r.request schema e).outcome = .ok x) ↔ Legal schema rules e)
        ∧ (¬Legal schema rules e → ∃ cause, (r.request schema e).outcome = .error cause
          ∧ (Error.mapping cause).kind = .configuration) := by
  refine ⟨reached_rules schema rules, fun r hr hrules => ?_⟩
  have hresolve := hr.sound.outcome_request e
  rw [hrules] at hresolve
  have hlegal : (∃ x, (r.request schema e).outcome = .ok x) ↔ Legal schema rules e := by
    rw [← exists_resolve_iff_legal, ← hresolve]
    constructor
    · rintro ⟨x, hx⟩
      exact ⟨x.mapping, by rw [hx]; rfl⟩
    · rintro ⟨m, hm⟩
      obtain ⟨x, hx, -⟩ := Except.map_eq_ok.1 hm
      exact ⟨x, hx⟩
  refine ⟨hlegal, fun hillegal => ?_⟩
  cases houtcome : (r.request schema e).outcome with
  | ok x => exact absurd (hlegal.1 ⟨x, houtcome⟩) hillegal
  | error cause => exact ⟨cause, rfl, rfl⟩

/-- A passport is known by its holder and a citizen by the passport, so neither has a key. Employees
have one, though they refer to each other. -/
theorem accepts_exactly_legal_circles :
    let passport : EntityType := ⟨"Passport"⟩
    let citizen : EntityType := ⟨"Citizen"⟩
    let keyedBy (target : EntityType) : MemberDeclaration :=
      .foreign { name := "of", target, primaryKey := true }
    let schema : Schema :=
      (Company.schema.declare passport { table := "passports", members := [keyedBy citizen] }).declare
        citizen { table := "citizens", members := [keyedBy passport] }
    let rules : List NamingRule := [.snakeCase]
    let r := (({ rules } : Registry).request schema passport).registry
    Legal schema rules Company.employee
      ∧ (∃ x, (r.request schema Company.employee).outcome = .ok x)
      ∧ ¬Legal schema rules citizen
      ∧ ∃ cause, (r.request schema citizen).outcome = .error cause
        ∧ (Error.mapping cause).kind = .configuration := by
  intro passport citizen keyedBy schema rules r
  obtain ⟨hnew, hemployee⟩ := accepts_exactly_legal schema rules Company.employee
  obtain ⟨-, hcitizen⟩ := accepts_exactly_legal schema rules citizen
  have hr : Reached schema r := .request hnew passport
  have hrules : r.rules = rules := rules_request _ schema passport
  have hresolved : (r.request schema Company.employee).outcome.toOption.isSome := by
    decide +kernel
  have hrefused : (r.request schema citizen).outcome.toOption = none := by decide +kernel
  obtain ⟨x, hx⟩ := Option.isSome_iff_exists.1 hresolved
  have hok := Except.eq_ok_of_toOption hx
  have hillegal : ¬Legal schema rules citizen := by
    intro legal
    obtain ⟨y, hy⟩ := (hcitizen r hr hrules).1.2 legal
    rw [hy] at hrefused
    cases hrefused
  exact ⟨(hemployee r hr hrules).1.1 ⟨x, hok⟩, ⟨x, hok⟩, hillegal,
    (hcitizen r hr hrules).2 hillegal⟩

end Registry

end RowMapper
