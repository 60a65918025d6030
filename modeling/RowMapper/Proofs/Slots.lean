import Mathlib.Data.List.Forall2
import RowMapper.Proofs.Attempts
import RowMapper.Proofs.StatementText

/-!
# Slots of commands

The slots that a command makes of its contributions use the positions of its parameters in
order, and each stands for the contributed value.

* `Numbered` is the invariant of the positions, `Slot.StandsFor` the meaning of a slot, and
  `ColumnSlot.Holds` ties a slot to its contribution.
* `Command.update_eq_ok` and `Command.delete_eq_ok` are the statements made of the slots,
  `Selection.addFilter_eq_ok` and `Selection.addOrder_eq_ok` what a selection grows by.
-/

namespace RowMapper

/-! ## Positions -/

/-- The slots stand for the parameters behind those before, in order. -/
structure Numbered (d : Dialect) (before : List Value) (slots : List ColumnSlot)
    (after : List Value) : Prop where
  legible : ∀ c ∈ slots, c.slot.Legible d
  positions : List.range before.length ++ slotParameters slots = List.range after.length

section

variable {d : Dialect} {before after : List Value} {slots : List ColumnSlot}

theorem Numbered.nil : Numbered d before [] before :=
  ⟨fun _ h => absurd h List.not_mem_nil, List.append_nil _⟩

theorem Numbered.append {middle : List Value} {more : List ColumnSlot}
    (h : Numbered d before slots middle) (hmore : Numbered d middle more after) :
    Numbered d before (slots ++ more) after := by
  refine ⟨fun c hc => ?_, ?_⟩
  · rcases List.mem_append.1 hc with hc | hc
    · exact h.legible c hc
    · exact hmore.legible c hc
  · rw [slotParameters_append, ← List.append_assoc, h.positions, hmore.positions]

/-- A value takes the next place, or none if it is NULL. -/
theorem Numbered.slotOf (column : String) (v : Value) :
    Numbered d before [⟨column, (slotOf before v).1⟩] (slotOf before v).2 := by
  unfold RowMapper.slotOf
  split
  -- NULL is written into the text and uses no position
  · exact ⟨fun c hc => List.mem_singleton.1 hc ▸ trivial, List.append_nil _⟩
  · refine ⟨fun c hc => List.mem_singleton.1 hc ▸ trivial, ?_⟩
    rw [List.length_append, List.length_singleton, List.range_succ]
    rfl

/-- Contributions take the next places, one behind the other. -/
theorem Numbered.slotsOf (fields : List Contribution) :
    Numbered d before (slotsOf before fields).1 (slotsOf before fields).2 := by
  induction fields generalizing before with
  | nil => exact .nil
  | cons field rest ih =>
    simp only [RowMapper.slotsOf]
    split
    · exact ih
    · rename_i v _
      exact (Numbered.slotOf field.name v).append ih

/-- From the start, the slots have all places in order. -/
theorem Numbered.parameters (h : Numbered d [] slots after) :
    slotParameters slots = List.range after.length := h.positions

end

/-! ## Values of slots -/

/-- The slot stands for the value: NULL for a NULL, else the parameter that is the value. -/
def Slot.StandsFor (parameters : List Value) (v : Value) : Slot → Prop
  | .null => v.isNull = true
  | .parameter index => parameters[index]? = some v
  | .sql _ => False

theorem Slot.StandsFor.append {parameters : List Value} {v : Value} {slot : Slot}
    (h : slot.StandsFor parameters v) (more : List Value) :
    slot.StandsFor (parameters ++ more) v := by
  cases slot with
  | null => exact h
  | parameter index =>
    have hindex : parameters[index]? = some v := h
    have hlt := (List.getElem?_eq_some_iff.1 hindex).1
    show (parameters ++ more)[index]? = some v
    rw [List.getElem?_append_left hlt, hindex]
  | sql text => exact h

/-- What stands for a value is legible. -/
theorem Slot.StandsFor.legible {parameters : List Value} {v : Value} {slot : Slot}
    (h : slot.StandsFor parameters v) (d : Dialect) : slot.Legible d := by
  cases slot with
  | null | parameter index => trivial
  | sql text => exact absurd h id

/-- The slot of a value stands for it. -/
theorem standsFor_slotOf (before : List Value) (v : Value) :
    (slotOf before v).1.StandsFor (slotOf before v).2 v := by
  unfold slotOf
  split
  · rename_i hnull
    exact hnull
  · exact List.getElem?_concat_length

theorem prefix_slotOf (before : List Value) (v : Value) : before <+: (slotOf before v).2 := by
  unfold slotOf
  split
  · exact List.prefix_rfl
  · exact List.prefix_append _ _

/-- Parameters that are there stay in their places. -/
theorem prefix_slotsOf (before : List Value) (fields : List Contribution) :
    before <+: (slotsOf before fields).2 := by
  induction fields generalizing before with
  | nil => exact List.prefix_rfl
  | cons field rest ih =>
    simp only [slotsOf]
    split
    · exact ih before
    · exact (prefix_slotOf _ _).trans (ih _)

/-- The slot stands for the value, and is NULL exactly if the value is. -/
structure Slot.Binds (parameters : List Value) (v : Value) (slot : Slot) : Prop where
  standsFor : slot.StandsFor parameters v
  null_iff : slot = .null ↔ v.isNull = true

theorem Slot.Binds.append {parameters : List Value} {v : Value} {slot : Slot}
    (h : slot.Binds parameters v) (more : List Value) : slot.Binds (parameters ++ more) v :=
  ⟨h.standsFor.append more, h.null_iff⟩

/-- A slot binds the value that it was made for. -/
theorem binds_slotOf (before : List Value) (v : Value) :
    (slotOf before v).1.Binds (slotOf before v).2 v := by
  refine ⟨standsFor_slotOf before v, ?_⟩
  unfold slotOf
  cases v <;> simp

/-- The slot is that of the contribution: it has its column and binds its value. -/
structure ColumnSlot.Holds (parameters : List Value) (c : ColumnSlot) (f : Contribution) : Prop
    where
  column : c.column = f.name
  value : ∃ v, f.value = some v ∧ c.slot.Binds parameters v

/-- Contributions that all have a value get a slot each, which holds the value. -/
theorem holds_slotsOf (before : List Value) {fields : List Contribution}
    (hvalues : ∀ f ∈ fields, f.value.isSome) :
    List.Forall₂ (ColumnSlot.Holds (slotsOf before fields).2) (slotsOf before fields).1
      fields := by
  induction fields generalizing before with
  | nil => exact .nil
  | cons field rest ih =>
    obtain ⟨v, hv⟩ := Option.isSome_iff_exists.1 (hvalues field List.mem_cons_self)
    simp only [slotsOf, hv]
    refine .cons ⟨rfl, v, hv, ?_⟩
      (ih _ fun f hf => hvalues f (List.mem_cons_of_mem _ hf))
    -- parameters are only added behind it, so its slot keeps its meaning
    obtain ⟨more, hmore⟩ := prefix_slotsOf (slotOf before v).2 rest
    rw [← hmore]
    exact (binds_slotOf before v).append more

/-- Contributions that all have a value get a slot each, which stands for the value. -/
theorem standsFor_slotsOf (before : List Value) {fields : List Contribution}
    (hvalues : ∀ f ∈ fields, f.value.isSome) :
    List.Forall₂ (fun slot f => slot.column = f.name
        ∧ ∃ v, f.value = some v ∧ slot.slot.StandsFor (slotsOf before fields).2 v)
      (slotsOf before fields).1 fields :=
  (holds_slotsOf before hvalues).imp fun _ _ h =>
    ⟨h.column, h.value.imp fun _ hv => ⟨hv.1, hv.2.standsFor⟩⟩

/-- Contributions without a value get no slot. -/
theorem slotsOf_filter (before : List Value) (fields : List Contribution) :
    slotsOf before (fields.filter (·.value.isSome)) = slotsOf before fields := by
  induction fields generalizing before with
  | nil => rfl
  | cons field rest ih =>
    cases hv : field.value with
    | none => simp [slotsOf, hv, ih]
    | some v => simp [slotsOf, hv, ih]

/-- The parameters are the values in order, without the NULLs. -/
theorem parameters_slotsOf (before : List Value) (fields : List Contribution) :
    (slotsOf before fields).2
      = before ++ (fields.filterMap (·.value)).filter (!·.isNull) := by
  induction fields generalizing before with
  | nil => simp [slotsOf]
  | cons field rest ih =>
    cases hv : field.value with
    | none => simp [slotsOf, hv, ih]
    | some v => cases v <;> simp [slotsOf, slotOf, hv, ih]

/-! ## What the builders build -/

section

variable {d : Dialect} {built : Built}

/-- An update that is built assigns the changed columns and has a key. -/
theorem Command.update_eq_ok {c : Command} (h : c.update d = .ok built) :
    let assigned := slotsOf [] c.assigned
    let keyed := slotsOf assigned.2 c.keys
    keyed.1 ≠ [] ∧ built.statement = ⟨d.batch (UpdateParts.lines ⟨c.table, assigned.1, keyed.1,
      ⟨c.table, c.fields.map (·.name), keyed.1⟩⟩), keyed.2⟩ := by
  unfold Command.update at h
  split at h
  · cases h
  · dsimp only at h
    split at h
    · cases h
    · rename_i hkey
      cases h
      exact ⟨by simpa using hkey, rfl⟩

/-- A deletion that is built has the key there is. -/
theorem Command.delete_eq_ok {c : Command} (h : c.delete d = .ok built) :
    built.statement = ⟨d.batch [DeleteParts.line d ⟨c.table, (slotsOf [] c.keys).1⟩],
      (slotsOf [] c.keys).2⟩ := by
  unfold Command.delete at h
  split at h
  · cases h
  · cases h
    rfl

section

variable {mappings : Mappings} {s s' : Selection}

/-- A filter that compiles goes behind the others. -/
theorem Selection.addFilter_eq_ok (hr : d.rules = RuleEntry.standard) {e : Expr}
    (h : s.addFilter d mappings e = .ok s') :
    ∃ ts scope, s' = { s with scope, filters := s.filters ++ [ts] }
      ∧ Compiles (d.environment mappings ⟨.filter, true⟩) none e s.scope ts scope := by
  have hstandard : (d.environment mappings ⟨.filter, true⟩).Standard := hr
  rw [Selection.addFilter_eq] at h
  obtain ⟨ts, houtcome, rfl⟩ := Except.map_eq_ok.1 h
  exact ⟨ts, _, rfl, Compiles.of_compileInto hstandard houtcome⟩

/-- An ordering that compiles goes behind the others. -/
theorem Selection.addOrder_eq_ok (hr : d.rules = RuleEntry.standard) {e : Expr} {order : Order}
    (h : s.addOrder d mappings e order = .ok s') :
    ∃ ts scope, s' = { s with scope, orders := s.orders ++ [(ts, order)] }
      ∧ Compiles (d.environment mappings ⟨.ordering, true⟩) none e s.scope ts scope := by
  have hstandard : (d.environment mappings ⟨.ordering, true⟩).Standard := hr
  rw [Selection.addOrder_eq] at h
  obtain ⟨ts, houtcome, rfl⟩ := Except.map_eq_ok.1 h
  exact ⟨ts, _, rfl, Compiles.of_compileInto hstandard houtcome⟩

end

/-- The statement of a selection is its line, with the parameters of its scope. -/
theorem Selection.build_eq_ok {s : Selection} (h : s.build d = .ok built) :
    built.statement = ⟨d.batch [s.parts.line d], s.scope.parameters⟩ := by
  unfold Selection.build at h
  split at h
  · cases h
  · split at h
    · cases h
    · cases h
      rfl

end

end RowMapper
