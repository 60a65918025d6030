import RowMapper.Proofs.Placeholders
import RowMapper.Proofs.WrittenCommands

/-!
# Inserts

What an insert makes of its contributions, said without the order in which it is put together.
Every contribution has a slot: that of its own value, of a value made in process, or of a key that
the server makes. The inserted columns and the key that the row is read back by are chosen from
the contributions, in their order, with the same slots.

* `Contribution.isInserted` and `Contribution.isValuedKey` choose the columns,
  `Command.Filled` says what stands in a slot.
* `Command.InsertDraft.Fills` is the invariant of an insert as far as it is known;
  `Fills.place` adds a contribution to it.
* `insert_written` is about all inserts.
-/

namespace RowMapper

namespace Contribution

/-! ## Kinds of contributions -/

/-- The values that count as empty: those of the strategy, or NULL. -/
def emptiness (f : Contribution) : Emptiness := (f.strategy.map KeyStrategy.emptiness).getD .null

/-- A key whose value is empty. -/
def isEmptyKey (f : Contribution) : Bool := f.role == .keyField && f.value.any f.emptiness.test

/-- An empty key that a generator makes. -/
def isMade (f : Contribution) : Bool := f.isEmptyKey && f.strategy.any (·.generator.isSome)

/-- An empty key that the server makes. -/
def isServed (f : Contribution) : Bool := f.isEmptyKey && f.strategy.any (·.generator.isNone)

/-- A key that is not empty is not made. -/
theorem not_isMade_isServed {f : Contribution} (h : f.isEmptyKey = false) :
    f.isMade = false ∧ f.isServed = false := by
  simp [isMade, isServed, h]

/-- A key is made in one place only. -/
theorem isServed_of_isMade {f : Contribution} (h : f.isMade = true) : f.isServed = false := by
  simp only [isMade, Bool.and_eq_true, Option.any_eq_true] at h
  obtain ⟨-, k, hk, hgenerator⟩ := h
  have hclient : k.generator.isNone = false := by
    cases hg : k.generator <;> simp_all
  simp [isServed, hk, hclient]

/-- The contribution has a column in the insert. -/
def isInserted (f : Contribution) : Bool :=
  ((f.role == .writeable || f.role == .insertable) && f.value.isSome)
    || (f.isValuedKey && !f.isEmptyKey)
    || f.isMade
    || (f.isServed && f.strategy.any (·.duringInsert))

/-- An empty key that nothing makes. -/
def isStranded (f : Contribution) : Bool := f.isEmptyKey && f.strategy.isNone

/-- The strategy is one that a given dialect has for some type. -/
def Shipped (f : Contribution) : Prop :=
  ∀ k, f.strategy = some k → ∃ d ∈ Dialect.shipped, k ∈ d.strategies.entries

end Contribution

/-- The given dialects make keys of random bits only. -/
theorem generator_of_shipped {d : Dialect} (hd : d ∈ Dialect.shipped) {k : KeyStrategy}
    (hk : k ∈ d.strategies.entries) : k.generator = none ∨ k.generator = some .random := by
  have hall : ∀ d ∈ Dialect.shipped, ∀ k ∈ d.strategies.entries,
      k.generator = none ∨ k.generator = some .random := by
    decide
  exact hall d hd k hk

/-- The reference to a key that the server makes is never empty, in whatever dialect it is
written. -/
theorem keyTemplate_reference_ne_empty {d' : Dialect} (hd : d' ∈ Dialect.shipped)
    {k : KeyStrategy} (hk : k ∈ d'.strategies.entries) (hserver : k.generator = none) (d : Dialect)
    (i : Nat) (column table : String) : d.keyTemplate k.reference i column table ≠ "" := by
  have hreference : k.reference ∈ k.templates := by simp [KeyStrategy.templates]
  rcases Dialect.templates_of_shipped hd hk hserver _ hreference with hcall | ⟨p, hp, htemplate⟩
  · have hplain : ∀ t ∈ ["last_insert_rowid()", "lastval()"],
        Text.brace ∉ t.toList ∧ t ≠ "" := by
      decide
    rw [Dialect.keyTemplate_of_not_mem (hplain _ hcall).1]
    exact (hplain _ hcall).2
  · rw [htemplate, Dialect.keyTemplate_surrounding hp]
    intro hempty
    have hchars := congrArg String.toList hempty
    simp [Dialect.keyVariable] at hchars

namespace Command

/-! ## Slots of an insert -/

/-- The key that the generator makes next but so many. -/
def nextKey (supply : KeySupply) (earlier : Nat) : Value :=
  .of (.uuid (Uuid.random (supply.random (supply.drawn + earlier))))

/-- What stands in the slot of a contribution behind the earlier ones. -/
inductive Filled (d : Dialect) (table : String) (supply : KeySupply) (parameters : List Value)
    (earlier : List Contribution) (f : Contribution) (slot : Slot) : Prop where
  /-- It has no column, neither to insert nor to find the row by. -/
  | unused : f.isInserted = false → f.isValuedKey = false →
      Filled d table supply parameters earlier f slot
  /-- The value itself. -/
  | given {v : Value} : f.value = some v → f.isEmptyKey = false → slot.Binds parameters v →
      Filled d table supply parameters earlier f slot
  /-- A key made in process, the next one behind the keys made for earlier contributions. -/
  | made : f.isMade = true → slot.Binds parameters (nextKey supply (earlier.countP (·.isMade))) →
      Filled d table supply parameters earlier f slot
  /-- The reference of the strategy, with the next key variable behind the earlier ones. -/
  | served {k : KeyStrategy} : f.isServed = true → f.strategy = some k →
      slot = .sql (d.keyTemplate k.reference (earlier.countP (·.isServed)) f.name table) →
      Filled d table supply parameters earlier f slot

/-- Parameters are only added, so that what is filled stays filled. -/
theorem Filled.mono {d : Dialect} {table : String} {supply : KeySupply} {ps qs : List Value}
    {earlier : List Contribution} {f : Contribution} {slot : Slot}
    (h : Filled d table supply ps earlier f slot) (hadded : ps <+: qs) :
    Filled d table supply qs earlier f slot := by
  obtain ⟨more, rfl⟩ := hadded
  cases h with
  | unused hinserted hkey => exact .unused hinserted hkey
  | given hvalue hempty hbinds => exact .given hvalue hempty (hbinds.append more)
  | made hmade hbinds => exact .made hmade (hbinds.append more)
  | served hserved hstrategy hslot => exact .served hserved hstrategy hslot

/-- Contributions with their slots, in order. -/
abbrev Placed := List (Contribution × Slot)

/-- The contributions. -/
def Placed.fields (placed : Placed) : List Contribution := placed.map (·.1)

/-- The columns of some of the contributions, with their slots. -/
def Placed.columns (placed : Placed) (choose : Contribution → Bool) : List ColumnSlot :=
  (placed.filter fun x => choose x.1).map fun x => ⟨x.1.name, x.2⟩

/-- What the strategies have the server do around an insert: a template of each, filled with its
key variable. -/
def snippets (d : Dialect) (table : String) (template : KeyStrategy → Option String)
    (served : List Contribution) : List String :=
  served.zipIdx.flatMap fun x =>
    ((x.1.strategy.bind template).map fun t => d.keyTemplate t x.2 x.1.name table).toList

theorem Placed.fields_append (placed more : Placed) :
    Placed.fields (placed ++ more) = placed.fields ++ Placed.fields more :=
  List.map_append

theorem Placed.columns_append (placed more : Placed) (choose : Contribution → Bool) :
    Placed.columns (placed ++ more) choose
      = placed.columns choose ++ Placed.columns more choose := by
  simp [Placed.columns]

/-- The snippet of one contribution, whose key variable comes behind so many. -/
def snippet (d : Dialect) (table : String) (template : KeyStrategy → Option String) (earlier : Nat)
    (f : Contribution) : List String :=
  if f.isServed then
    ((f.strategy.bind template).map fun t => d.keyTemplate t earlier f.name table).toList
  else []

theorem snippets_append (d : Dialect) (table : String) (template : KeyStrategy → Option String)
    (fields : List Contribution) (f : Contribution) :
    snippets d table template ((fields ++ [f]).filter (·.isServed))
      = snippets d table template (fields.filter (·.isServed))
        ++ snippet d table template (fields.countP (·.isServed)) f := by
  unfold snippet
  rw [List.filter_append, List.countP_eq_length_filter]
  by_cases hserved : f.isServed = true
  · simp [snippets, hserved, List.zipIdx_append]
  · simp [hserved]

namespace InsertDraft

/-- The invariant of an insert as far as it is known: all contributions so far have their slots. -/
structure Fills (d : Dialect) (table : String) (supply : KeySupply) (placed : Placed)
    (draft : InsertDraft) : Prop where
  filled : ∀ earlier f slot later, placed = earlier ++ (f, slot) :: later →
    Filled d table supply draft.parameters (Placed.fields earlier) f slot
  values : draft.values = placed.columns (·.isInserted)
  key : draft.key = placed.columns (·.isValuedKey)
  supply : draft.supply
    = { supply with drawn := supply.drawn + placed.fields.countP (·.isMade) }
  variableCount : draft.variableCount = placed.fields.countP (·.isServed)
  before : draft.before
    = snippets d table (·.preInsert) (placed.fields.filter (·.isServed))
  after : draft.after
    = snippets d table (·.postInsert) (placed.fields.filter (·.isServed))

variable {d : Dialect} {table : String} {supply : KeySupply} {placed : Placed}
  {draft draft' : InsertDraft}

theorem Fills.new (d : Dialect) (table : String) (supply : KeySupply) :
    Fills d table supply [] { supply } where
  filled earlier f slot later h := by simp at h
  values := rfl
  key := rfl
  supply := rfl
  variableCount := rfl
  before := rfl
  after := rfl

/-- A contribution goes behind those before. What the draft grows by is given by its kind. -/
theorem Fills.place (h : Fills d table supply placed draft) {f : Contribution} {slot : Slot}
    (hfilled : Filled d table supply draft'.parameters placed.fields f slot)
    (hparameters : draft.parameters <+: draft'.parameters)
    (hvalues : draft'.values = draft.values ++ Placed.columns [(f, slot)] (·.isInserted))
    (hkey : draft'.key = draft.key ++ Placed.columns [(f, slot)] (·.isValuedKey))
    (hsupply : draft'.supply
      = { draft.supply with drawn := draft.supply.drawn + [f].countP (·.isMade) })
    (hcount : draft'.variableCount = draft.variableCount + [f].countP (·.isServed))
    (hbefore : draft'.before
      = draft.before ++ snippet d table (·.preInsert) draft.variableCount f)
    (hafter : draft'.after
      = draft.after ++ snippet d table (·.postInsert) draft.variableCount f) :
    Fills d table supply (placed ++ [(f, slot)]) draft' where
  filled earlier g other later hsplit := by
    rcases List.eq_nil_or_concat later with rfl | ⟨rest, last, rfl⟩
    · -- the one that was added
      obtain ⟨rfl, hlast⟩ := List.append_inj' hsplit rfl
      cases hlast
      exact hfilled
    · rw [List.concat_eq_append, ← List.cons_append, ← List.append_assoc] at hsplit
      obtain ⟨rfl, -⟩ := List.append_inj' hsplit rfl
      exact (h.filled earlier g other rest rfl).mono hparameters
  values := by rw [hvalues, h.values, Placed.columns_append]
  key := by rw [hkey, h.key, Placed.columns_append]
  supply := by
    rw [hsupply, h.supply, Placed.fields_append, List.countP_append, ← Nat.add_assoc]
    rfl
  variableCount := by
    rw [hcount, h.variableCount, Placed.fields_append, List.countP_append]
    rfl
  before := by
    rw [hbefore, h.before, h.variableCount, Placed.fields_append]
    exact (snippets_append d table _ _ f).symm
  after := by
    rw [hafter, h.after, h.variableCount, Placed.fields_append]
    exact (snippets_append d table _ _ f).symm

/-- A contribution that has no column changes nothing. -/
theorem Fills.unused (h : Fills d table supply placed draft) {f : Contribution}
    (hinserted : f.isInserted = false) (hkey : f.isValuedKey = false) :
    Fills d table supply (placed ++ [(f, .null)]) draft := by
  have hempty : f.isEmptyKey = false := by
    cases hv : f.value <;> simp_all [Contribution.isValuedKey, Contribution.isEmptyKey]
  obtain ⟨hmade, hserved⟩ := Contribution.not_isMade_isServed hempty
  apply h.place (.unused hinserted hkey) List.prefix_rfl <;>
    simp [Placed.columns, snippet, hinserted, hkey, hmade, hserved]

/-- A value that is no key. -/
theorem Fills.insertValue (h : Fills d table supply placed draft) {f : Contribution} {v : Value}
    (hv : f.value = some v) (hrole : f.role = .writeable ∨ f.role = .insertable) :
    Fills d table supply (placed ++ [(f, (slotOf draft.parameters v).1)])
      (draft.insertValue f.name v) := by
  have hnokey : (f.role == .keyField) = false := by rcases hrole with hr | hr <;> simp [hr]
  have hempty : f.isEmptyKey = false := by simp [Contribution.isEmptyKey, hnokey]
  have hkey : f.isValuedKey = false := by simp [Contribution.isValuedKey, hnokey]
  have hinserted : f.isInserted = true := by
    rcases hrole with hr | hr <;> simp [Contribution.isInserted, hr, hv]
  obtain ⟨hmade, hserved⟩ := Contribution.not_isMade_isServed hempty
  apply h.place (.given hv hempty (binds_slotOf _ v)) (prefix_slotOf _ v) <;>
    simp [InsertDraft.insertValue, Placed.columns, snippet, hinserted, hkey, hmade, hserved]

/-- A key that is not empty. -/
theorem Fills.insertKey (h : Fills d table supply placed draft) {f : Contribution} {v : Value}
    (hv : f.value = some v) (hrole : f.role = .keyField) (hempty : f.isEmptyKey = false) :
    Fills d table supply (placed ++ [(f, (slotOf draft.parameters v).1)])
      (draft.insertKey f.name v) := by
  have hkey : f.isValuedKey = true := by simp [Contribution.isValuedKey, hrole, hv]
  have hinserted : f.isInserted = true := by simp [Contribution.isInserted, hkey, hempty]
  obtain ⟨hmade, hserved⟩ := Contribution.not_isMade_isServed hempty
  apply h.place (.given hv hempty (binds_slotOf _ v)) (prefix_slotOf _ v) <;>
    simp [InsertDraft.insertKey, Placed.columns, snippet, hinserted, hkey, hmade, hserved]

/-- A key that is made in process uses up the next one. -/
theorem Fills.makeKey (h : Fills d table supply placed draft) {f : Contribution}
    (hkey : f.isValuedKey = true) (hmade : f.isMade = true) :
    let made := draft.supply.generate .random
    Fills d table supply (placed ++ [(f, (slotOf draft.parameters made.1).1)])
      ({ draft with supply := made.2 }.insertKey f.name made.1) := by
  intro made
  have hnext : made.1 = nextKey supply (placed.fields.countP (·.isMade)) := by
    show Value.of (.uuid (Uuid.random (draft.supply.random draft.supply.drawn))) = _
    rw [h.supply]
    rfl
  have hinserted : f.isInserted = true := by simp [Contribution.isInserted, hmade]
  have hserved : f.isServed = false := Contribution.isServed_of_isMade hmade
  have hbinds : (slotOf draft.parameters made.1).1.Binds (slotOf draft.parameters made.1).2
      (nextKey supply (placed.fields.countP (·.isMade))) :=
    hnext ▸ binds_slotOf draft.parameters made.1
  apply h.place (.made hmade hbinds) (prefix_slotOf draft.parameters made.1) <;>
    simp [InsertDraft.insertKey, Placed.columns, snippet, hinserted, hkey, hmade, hserved, made,
      KeySupply.generate]

/-- A key that the server makes takes the next variable. -/
theorem Fills.serverKey (h : Fills d table supply placed draft) {f : Contribution}
    {k : KeyStrategy} (hkey : f.isValuedKey = true) (hempty : f.isEmptyKey = true)
    (hk : f.strategy = some k) (hserver : k.generator = none) :
    Fills d table supply
      (placed ++ [(f, .sql (d.keyTemplate k.reference draft.variableCount f.name table))])
      (draft.serverKey d table f.name k) := by
  have hserved : f.isServed = true := by simp [Contribution.isServed, hempty, hk, hserver]
  have hmade : f.isMade = false := by simp [Contribution.isMade, hk, hserver]
  have hinserted : f.isInserted = k.duringInsert := by
    have hrole : f.role = .keyField := by
      simp only [Contribution.isValuedKey, Bool.and_eq_true, beq_iff_eq] at hkey
      exact hkey.1
    simp [Contribution.isInserted, hrole, hempty, hmade, hserved, hk]
  refine h.place (.served hserved hk (by rw [h.variableCount])) List.prefix_rfl ?_ ?_ ?_ ?_ ?_ ?_
  · cases hduring : k.duringInsert <;>
      simp [InsertDraft.serverKey, Placed.columns, hinserted, hduring]
  all_goals simp [InsertDraft.serverKey, Placed.columns, snippet, hkey, hmade, hserved, hk]

/-- Every key is placed, unless it is empty and nothing makes it. -/
theorem Fills.addKey (h : Fills d table supply placed draft) {f : Contribution} (hf : f.Shipped)
    {v : Value} (hv : f.value = some v) (hrole : f.role = .keyField)
    (hadd : draft.addKey d table f v = .ok draft') :
    ∃ slot, Fills d table supply (placed ++ [(f, slot)]) draft' := by
  have hkey : f.isValuedKey = true := by simp [Contribution.isValuedKey, hrole, hv]
  have hempty : f.isEmptyKey = f.emptiness.test v := by
    simp [Contribution.isEmptyKey, hrole, hv]
  unfold InsertDraft.addKey at hadd
  split at hadd
  · -- without a strategy only NULL is empty
    rename_i hk
    split at hadd
    · cases hadd
    · rename_i hnull
      cases hadd
      refine ⟨_, h.insertKey hv hrole ?_⟩
      rw [hempty, Contribution.emptiness, hk]
      exact Bool.eq_false_iff.2 hnull
  · rename_i k hk
    have htest : f.isEmptyKey = k.emptiness.test v := by
      rw [hempty, Contribution.emptiness, hk]
      rfl
    split at hadd
    · rename_i hgiven
      cases hadd
      exact ⟨_, h.insertKey hv hrole (by simpa [htest] using hgiven)⟩
    · rename_i hgiven
      have hmissing : f.isEmptyKey = true := by simpa [htest] using hgiven
      obtain ⟨d', hd', hentry⟩ := hf k hk
      split at hadd
      · rename_i generator hgenerator
        cases hadd
        rcases generator_of_shipped hd' hentry with hnone | hrandom
        · rw [hgenerator] at hnone
          cases hnone
        · cases hgenerator.symm.trans hrandom
          exact ⟨_, h.makeKey hkey (by simp [Contribution.isMade, hmissing, hk, hgenerator])⟩
      · rename_i hserver
        cases hadd
        exact ⟨_, h.serverKey hkey hmissing hk hserver⟩

/-- Every contribution is placed, unless it is an empty key that nothing makes. -/
theorem Fills.add (h : Fills d table supply placed draft) {f : Contribution} (hf : f.Shipped)
    (hadd : draft.add d table f = .ok draft') :
    ∃ slot, Fills d table supply (placed ++ [(f, slot)]) draft' := by
  unfold InsertDraft.add at hadd
  split at hadd
  · rename_i hv
    cases hadd
    exact ⟨_, h.unused (by simp [Contribution.isInserted, Contribution.isValuedKey,
      Contribution.isMade, Contribution.isServed, Contribution.isEmptyKey, hv])
      (by simp [Contribution.isValuedKey, hv])⟩
  · rename_i v hv hrole
    exact h.addKey hf hv hrole hadd
  · rename_i v hv hrole
    cases hadd
    exact ⟨_, h.insertValue hv (.inl hrole)⟩
  · rename_i v hv hrole
    cases hadd
    exact ⟨_, h.insertValue hv (.inr hrole)⟩
  all_goals
    rename_i v hv hrole
    cases hadd
    exact ⟨_, h.unused (by simp [Contribution.isInserted, Contribution.isValuedKey,
      Contribution.isMade, Contribution.isServed, Contribution.isEmptyKey, hrole])
      (by simp [Contribution.isValuedKey, hrole])⟩

/-- A contribution fails exactly if it is an empty key that nothing makes. -/
theorem exists_add_iff (draft : InsertDraft) (d : Dialect) (table : String) (f : Contribution) :
    (∃ next, draft.add d table f = .ok next) ↔ f.isStranded = false := by
  unfold InsertDraft.add
  cases hv : f.value with
  | none => simp [Contribution.isStranded, Contribution.isEmptyKey, hv]
  | some v =>
    cases hrole : f.role with
    | keyField =>
      cases hk : f.strategy with
      | none =>
        -- without a strategy nothing makes the key, so it must not be NULL
        have hstranded : f.isStranded = v.isNull := by
          simp only [Contribution.isStranded, Contribution.isEmptyKey, Contribution.emptiness,
            hrole, hv, hk, beq_self_eq_true, Option.any_some, Option.isNone_none, Bool.and_true,
            Bool.true_and]
          rfl
        rw [hstranded]
        cases hnull : v.isNull <;> simp [addKey, hk, hnull]
      | some k =>
        have hmade : f.isStranded = false := by simp [Contribution.isStranded, hk]
        simp only [addKey, hk, hmade, iff_true]
        split
        · exact ⟨_, rfl⟩
        · split <;> exact ⟨_, rfl⟩
    | writeable | insertable | updateable | readOnly =>
      simp [Contribution.isStranded, Contribution.isEmptyKey, hrole]

theorem exists_addAll_iff (draft : InsertDraft) (d : Dialect) (table : String)
    (fields : List Contribution) :
    (∃ next, (draft.addAll d table fields).1 = .ok next)
      ↔ ∀ f ∈ fields, f.isStranded = false := by
  induction fields generalizing draft with
  | nil => simp [addAll]
  | cons f rest ih =>
    have hfirst := exists_add_iff draft d table f
    rw [addAll]
    cases hadd : draft.add d table f with
    | error cause =>
      rw [hadd] at hfirst
      simp only [List.forall_mem_cons, ← hfirst, reduceCtorEq, exists_false, false_and]
    | ok next =>
      rw [hadd] at hfirst
      have hunstranded := hfirst.1 ⟨next, rfl⟩
      simp only [List.forall_mem_cons, hunstranded, true_and]
      exact ih next

/-- All contributions are placed in order, and the supply is what the draft leaves. -/
theorem Fills.addAll (h : Fills d table supply placed draft) {fields : List Contribution}
    (hfields : ∀ f ∈ fields, f.Shipped)
    (hadd : (draft.addAll d table fields).1 = .ok draft') :
    ∃ more : Placed, more.fields = fields ∧ Fills d table supply (placed ++ more) draft'
      ∧ (draft.addAll d table fields).2 = draft'.supply := by
  -- along the fields: each is placed behind those before it
  induction fields generalizing placed draft with
  | nil =>
    cases hadd
    exact ⟨[], rfl, by simpa using h, rfl⟩
  | cons f rest ih =>
    rw [InsertDraft.addAll] at hadd ⊢
    cases hfirst : draft.add d table f with
    | error cause =>
      rw [hfirst] at hadd
      cases hadd
    | ok next =>
      rw [hfirst] at hadd
      obtain ⟨slot, hnext⟩ := h.add (hfields f List.mem_cons_self) hfirst
      obtain ⟨more, hmore, hfills, hleft⟩ :=
        ih hnext (fun g hg => hfields g (List.mem_cons_of_mem _ hg)) hadd
      refine ⟨(f, slot) :: more, ?_, by simpa using hfills, hleft⟩
      show f :: more.map _ = _
      rw [← hmore]
      rfl

/-- No value is left out of the text. -/
theorem Fills.tokens_ne_nil (h : Fills d table supply placed draft)
    (hfields : ∀ f ∈ placed.fields, f.Shipped) : ∀ v ∈ draft.values, v.slot.tokens ≠ [] := by
  intro v hv
  rw [h.values] at hv
  obtain ⟨⟨f, slot⟩, hmem, rfl⟩ := List.mem_map.1 hv
  obtain ⟨hplaced, hinserted⟩ := List.mem_filter.1 hmem
  obtain ⟨earlier, later, hsplit⟩ := List.append_of_mem hplaced
  have hbound {v : Value} (hbinds : slot.Binds draft.parameters v) : slot.tokens ≠ [] := by
    cases slot with
    | sql text => exact absurd hbinds.standsFor id
    | null | parameter index => simp [Slot.tokens]
  cases h.filled earlier f slot later hsplit with
  | unused hnone => exact absurd (hnone.symm.trans hinserted) (by simp)
  | given hv hempty hbinds => exact hbound hbinds
  | made hmade hbinds => exact hbound hbinds
  | served hserved hk hslot =>
    rename_i k
    -- the template of a key of the server is never empty
    have hserver : k.generator = none := by
      simpa [Contribution.isServed, hk] using (Bool.and_eq_true_iff.1 hserved).2
    obtain ⟨d', hd', hentry⟩ := hfields f (List.mem_map_of_mem hplaced) k hk
    have hnonempty := keyTemplate_reference_ne_empty hd' hentry hserver d
      ((Placed.fields earlier).countP (·.isServed)) f.name table
    rw [hslot]
    simp [Slot.tokens, hnonempty]

end InsertDraft

/-! ## Whole inserts -/

/-- The statement is the insert of the contributions, each in its slot. The key of the row is
inserted and read back by the same slots, and every key made in process uses up one of the
supply. -/
structure Inserts (c : Command) (d : Dialect) (supply : KeySupply) (placed : Placed)
    (st : Statement) (left : KeySupply) : Prop where
  fields : placed.fields = c.fields
  filled : ∀ earlier f slot later, placed = earlier ++ (f, slot) :: later →
    Filled d c.table supply st.parameters (Placed.fields earlier) f slot
  sql : st.sql = "\n".intercalate
    ((snippets d c.table (·.preInsert) (c.fields.filter (·.isServed))).map (· ++ ";")
      ++ [d.insertion c.table (placed.columns (·.isInserted))]
      ++ (snippets d c.table (·.postInsert) (c.fields.filter (·.isServed))).map (· ++ ";")
      ++ [d.reading c.table (c.fields.map (·.name)) (placed.columns (·.isValuedKey))])
  left : left = { supply with drawn := supply.drawn + c.fields.countP (·.isMade) }

variable {c : Command} {d : Dialect} {supply : KeySupply} {built : Built}

/-- The parts of an insert that is built. -/
def insertParts (c : Command) (draft : InsertDraft) : InsertParts :=
  { table := c.table
    before := draft.before
    values := draft.values
    after := draft.after
    readBack := ⟨c.table, c.fields.map (·.name), draft.key⟩ }

/-- An insert that is built places all contributions, of which one at least is a key. -/
theorem insert_eq_ok (hfields : ∀ f ∈ c.fields, f.Shipped)
    (h : (c.insert d supply).1 = .ok built) :
    ∃ draft placed, (InsertDraft.addAll d c.table { supply } c.fields).1 = .ok draft
      ∧ Placed.fields placed = c.fields
      ∧ InsertDraft.Fills d c.table supply placed draft
      ∧ (c.insert d supply).2 = draft.supply
      ∧ built.statement = ⟨d.batch ((c.insertParts draft).lines d), draft.parameters⟩ := by
  unfold insert at h ⊢
  split at h
  · cases h
  rename_i htable
  rw [if_neg htable]
  obtain ⟨draft, hdraft, h⟩ := Except.bind_eq_ok.1 h
  obtain ⟨placed, hplaced, hfills, hleft⟩ := (InsertDraft.Fills.new d c.table supply).addAll
    hfields hdraft
  split at h
  · cases h
  cases h
  exact ⟨draft, placed, hdraft, hplaced, hfills, hleft, rfl⟩

theorem columns_eq_nil_iff (placed : Placed) (choose : Contribution → Bool) :
    placed.columns choose = [] ↔ ∀ f ∈ placed.fields, choose f = false := by
  simp [Placed.columns, Placed.fields, List.filter_eq_nil_iff]

/-- An insert is built unless there is no table, an empty key that nothing makes, or no key. -/
theorem exists_insert_iff (d : Dialect) (supply : KeySupply)
    (hfields : ∀ f ∈ c.fields, f.Shipped) :
    (∃ built, (c.insert d supply).1 = .ok built)
      ↔ c.table ≠ "" ∧ (∀ f ∈ c.fields, f.isStranded = false)
        ∧ ∃ f ∈ c.fields, f.isValuedKey = true := by
  have hadded := InsertDraft.exists_addAll_iff { supply } d c.table c.fields
  unfold insert
  by_cases htable : c.table = ""
  · simp [htable]
  simp only [String.isEmpty_iff, htable, if_false, ne_eq, not_false_eq_true, true_and]
  rw [← hadded]
  cases hall : (InsertDraft.addAll d c.table { supply } c.fields).1 with
  | error cause =>
    simp [Except.bind]
  | ok draft =>
    obtain ⟨placed, hplaced, hfills, -⟩ := (InsertDraft.Fills.new d c.table supply).addAll
      hfields hall
    -- the draft has no key exactly if no field with a value is one
    have hkey : draft.key = [] ↔ ∀ f ∈ c.fields, f.isValuedKey = false := by
      rw [hfills.key, columns_eq_nil_iff, ← hplaced]
      rfl
    show (∃ built, ite _ _ _ = _) ↔ _
    by_cases hnone : draft.key = []
    · simpa [hnone] using hkey.1 hnone
    · have hsome : ∃ f ∈ c.fields, f.isValuedKey = true := by
        simpa using fun h => hnone (hkey.2 h)
      simp [hnone, hsome]

/-- An insert is built unless there is no table, an empty key that nothing makes, or no key with a
value. What is built inserts exactly the writeable and insertable values and the keys that are
given, made in process, or set by the server during the insert, each in its own slot, and reads all
columns back by the keys. -/
theorem insert_written (d : Dialect) (c : Command) (supply : KeySupply)
    (hfields : ∀ f ∈ c.fields, f.Shipped) :
    ((∃ built, (c.insert d supply).1 = .ok built)
        ↔ c.table ≠ "" ∧ (∀ f ∈ c.fields, f.isStranded = false)
          ∧ ∃ f ∈ c.fields, f.isValuedKey = true)
      ∧ ∀ built, (c.insert d supply).1 = .ok built →
        ∃ placed, c.Inserts d supply placed built.statement (c.insert d supply).2 := by
  refine ⟨exists_insert_iff d supply hfields, fun built h => ?_⟩
  obtain ⟨draft, placed, -, hplaced, hfills, hleft, hstatement⟩ := insert_eq_ok hfields h
  rw [hstatement, hleft]
  refine ⟨placed, hplaced, hfills.filled, ?_, ?_⟩
  · have hline := InsertParts.text_insertLine (d := d) (c.insertParts draft)
      (hfills.tokens_ne_nil (hplaced ▸ hfields))
    show d.batch _ = _
    rw [Dialect.batch, InsertParts.lines]
    simp only [List.map_append, List.map_map, List.map_cons, List.map_nil, hline,
      ReadBack.text_line]
    rw [← hplaced, ← hfills.before, ← hfills.after, ← hfills.values, ← hfills.key, hplaced]
    simp [insertParts, snippetLine, Function.comp_def]
  · rw [hfills.supply, hplaced]

end Command

namespace Company

/-- A badge with a key that the server makes, one that is made in process, and one that is
given. -/
def newBadge : Command :=
  ⟨"badges", [
    { name := "id"
      value := some (.of (.int64 0))
      role := .keyField
      strategy := Dialect.generic.strategies.find? (.of .int64) },
    { name := "holder", value := some (.of (.varchar "Ada")), role := .writeable },
    { name := "token"
      value := some (.null (.of .uuid))
      role := .keyField
      strategy := Dialect.generic.strategies.find? (.of .uuid) },
    { name := "color", value := some (.null (.of .varchar)), role := .insertable },
    { name := "region", value := some (.of (.varchar "north")), role := .keyField },
    { name := "lost", value := some (.of (.boolean true)), role := .updateable },
    { name := "printed", role := .readOnly }]⟩

end Company

theorem insert_written_newBadge :
    let c := Company.newBadge
    let supply : KeySupply := { random := fun n => BitVec.ofNat 128 n, drawn := 4 }
    (∀ f ∈ c.fields, f.Shipped)
      ∧ ∃ built placed, (c.insert .generic supply).1 = .ok built
        ∧ c.Inserts .generic supply placed built.statement (c.insert .generic supply).2
        ∧ (c.insert .generic supply).2.drawn = 5
        ∧ built.statement.sql
          = "INSERT INTO \"badges\" (\"holder\", \"token\", \"color\", \"region\")"
            ++ " VALUES (@p0, @p1, NULL, @p2);\n"
            ++ "SELECT \"id\", \"holder\", \"token\", \"color\", \"region\", \"lost\", \"printed\""
            ++ " FROM \"badges\""
            ++ " WHERE \"id\" = last_insert_rowid() AND \"token\" = @p1 AND \"region\" = @p2;" := by
  intro c supply
  have hfields : ∀ f ∈ c.fields, f.Shipped := by
    have hstrategies : ∀ f ∈ c.fields, ∀ k ∈ f.strategy,
        k ∈ Dialect.generic.strategies.entries := by
      decide +kernel
    exact fun f hf k hk => ⟨.generic, by decide, hstrategies f hf k hk⟩
  obtain ⟨hbuilds, hinserts⟩ := Command.insert_written .generic c supply hfields
  obtain ⟨built, hbuilt⟩ := hbuilds.2 (by decide +kernel)
  obtain ⟨placed, hwritten⟩ := hinserts built hbuilt
  have hsql : (c.insert .generic supply).1.toOption.map (·.statement.sql)
      = some ("INSERT INTO \"badges\" (\"holder\", \"token\", \"color\", \"region\")"
        ++ " VALUES (@p0, @p1, NULL, @p2);\n"
        ++ "SELECT \"id\", \"holder\", \"token\", \"color\", \"region\", \"lost\", \"printed\""
        ++ " FROM \"badges\""
        ++ " WHERE \"id\" = last_insert_rowid() AND \"token\" = @p1 AND \"region\" = @p2;") := by
    decide +kernel
  rw [hbuilt] at hsql
  exact ⟨hfields, built, placed, hbuilt, hwritten, by decide +kernel, Option.some.inj hsql⟩

end RowMapper
