import RowMapper.Proofs.Attempts
import RowMapper.Proofs.CompiledText
import RowMapper.Proofs.Likeness
import RowMapper.Sample.Company

/-!
# Values do not reach the text

Two runs of a builder whose inputs differ in the payloads of values alone either both fail or
build statements of one text. Their parameters are related by whatever relates the values of the
inputs: an entry differs only where the inputs did.

* `Contribution.Alike`, `KeySupply.Alike` and `Selection.Call.Alike` say which inputs are alike.
* The drafts of an insert and the selections stay alike from step to step.
* `statements_alike` puts the four builders together.
-/

namespace RowMapper

variable {R : Value → Value → Prop}

/-- The statements have one text, and parameters that are related. -/
structure Built.Alike (R : Value → Value → Prop) (b b' : Built) : Prop where
  sql : b'.statement.sql = b.statement.sql
  parameters : List.Forall₂ R b.statement.parameters b'.statement.parameters
  log : b'.log = b.log

/-! ## Contributions -/

/-- The contributions differ in the payload of their value alone; a key is empty under its
strategy on both sides or on neither. -/
inductive Contribution.Alike (R : Value → Value → Prop) (f : Contribution) :
    Contribution → Prop where
  | absent (without : f.value = none) : Alike R f f
  | given {v w : Value} (with_ : f.value = some v) (related : R v w)
    (emptiness : f.role = .keyField → ∀ k, f.strategy = some k →
      k.emptiness.test v = k.emptiness.test w) : Alike R f { f with value := some w }

/-- Like contributions go to the same column. -/
theorem Contribution.Alike.name_eq {f f' : Contribution} (h : f.Alike R f') :
    f'.name = f.name := by
  cases h <;> rfl

/-- Like contributions have the same part in a command. -/
theorem Contribution.Alike.role_eq {f f' : Contribution} (h : f.Alike R f') :
    f'.role = f.role := by
  cases h <;> rfl

/-- Like rows have the same columns. -/
theorem names_alike {fields fields' : List Contribution}
    (h : List.Forall₂ (Contribution.Alike R) fields fields') :
    fields'.map (·.name) = fields.map (·.name) := by
  induction h with
  | nil => rfl
  | cons hfield _ ih => rw [List.map_cons, List.map_cons, hfield.name_eq, ih]

/-- Like values get the same slot: NULL is written out on both sides, or both take the next place.
-/
theorem slotOf_alike (hnull : ∀ v w, R v w → v.isNull = w.isNull) {ps qs : List Value}
    (h : List.Forall₂ R ps qs) {v w : Value} (hvw : R v w) :
    (slotOf qs w).1 = (slotOf ps v).1 ∧ List.Forall₂ R (slotOf ps v).2 (slotOf qs w).2 := by
  unfold slotOf
  rw [← hnull v w hvw]
  split
  · exact ⟨rfl, h⟩
  · exact ⟨congrArg Slot.parameter h.length_eq.symm, List.rel_append h (.cons hvw .nil)⟩

/-- Like contributions get the same slots, one behind the other. -/
theorem slotsOf_alike (hnull : ∀ v w, R v w → v.isNull = w.isNull) {ps qs : List Value}
    (h : List.Forall₂ R ps qs) {fields fields' : List Contribution}
    (hfields : List.Forall₂ (Contribution.Alike R) fields fields') :
    (slotsOf qs fields').1 = (slotsOf ps fields).1
      ∧ List.Forall₂ R (slotsOf ps fields).2 (slotsOf qs fields').2 := by
  induction hfields generalizing ps qs with
  | nil => exact ⟨rfl, h⟩
  | @cons f f' rest rest' hfield _ ih =>
    cases hfield with
    | absent without =>
      simp only [slotsOf, without]
      exact ih h
    | @given v w given related _ =>
      obtain ⟨hslot, hparameters⟩ := slotOf_alike hnull h related
      obtain ⟨hslots, hrest⟩ := ih hparameters
      simp only [slotsOf, given]
      exact ⟨by rw [hslot, hslots], hrest⟩

namespace Command

/-- The commands differ in the payloads of the contributed values alone. -/
structure Alike (R : Value → Value → Prop) (c c' : Command) : Prop where
  table : c'.table = c.table
  fields : List.Forall₂ (Contribution.Alike R) c.fields c'.fields

variable {c c' : Command}

/-- Like commands have the same keys, with like values. -/
theorem Alike.keys (h : c.Alike R c') : List.Forall₂ (Contribution.Alike R) c.keys c'.keys := by
  refine List.rel_filter (fun f f' hf => ?_) h.fields
  simp only [hf.role_eq]

/-- Like commands assign the same columns. -/
theorem Alike.assigned (h : c.Alike R c') :
    List.Forall₂ (Contribution.Alike R) c.assigned c'.assigned := by
  refine List.rel_filter (fun f f' hf => ?_) h.fields
  cases hf with
  | absent without => exact Iff.rfl
  | given given _ _ => simp [given]

/-! ## Deletions and updates -/

/-- Deletions of like rows have one text, or both fail. -/
theorem delete_alike (hnull : ∀ v w, R v w → v.isNull = w.isNull) (h : c.Alike R c')
    (d : Dialect) : Outcomes (Built.Alike R) (c.delete d) (c'.delete d) := by
  obtain ⟨hslots, hparameters⟩ := slotsOf_alike hnull .nil h.keys
  unfold delete
  rw [h.table]
  split
  · exact .failed _ _
  · refine .returned ⟨?_, hparameters, ?_⟩
    · show d.batch [DeleteParts.line d ⟨c.table, (slotsOf [] c'.keys).1⟩] = _
      rw [hslots]
      rfl
    · dsimp only
      rw [hslots]
      rfl

/-- Updates of like rows have one text, or both fail. -/
theorem update_alike (hnull : ∀ v w, R v w → v.isNull = w.isNull) (h : c.Alike R c')
    (d : Dialect) : Outcomes (Built.Alike R) (c.update d) (c'.update d) := by
  obtain ⟨hassigned, hfirst⟩ := slotsOf_alike hnull .nil h.assigned
  obtain ⟨hkeys, hparameters⟩ := slotsOf_alike hnull hfirst h.keys
  unfold update
  dsimp only
  rw [h.table, hassigned, hkeys, names_alike h.fields]
  split
  · exact .failed _ _
  · split
    · exact .failed _ _
    · exact .returned ⟨rfl, hparameters, rfl⟩

end Command

/-! ## Inserts -/

/-- The keys that the supplies have left are related in their order. -/
structure KeySupply.Alike (R : Value → Value → Prop) (s s' : KeySupply) : Prop where
  random : ∀ n, R (.of (.uuid (Uuid.random (s.random (s.drawn + n)))))
    (.of (.uuid (Uuid.random (s'.random (s'.drawn + n)))))
  queued : List.Forall₂ R s.queued s'.queued

/-- Like generators make like keys, and stay alike. -/
theorem KeySupply.Alike.generate (hrefl : ∀ v, R v v) {s s' : KeySupply} (h : s.Alike R s')
    (g : KeyGenerator) :
    R (s.generate g).1 (s'.generate g).1 ∧ (s.generate g).2.Alike R (s'.generate g).2 := by
  cases g with
  | random =>
    -- the keys still to come are those behind the one that was drawn
    refine ⟨h.random 0, fun n => ?_, h.queued⟩
    have hnext := h.random (n + 1)
    rwa [← Nat.add_assoc, ← Nat.add_assoc, Nat.add_right_comm s.drawn,
      Nat.add_right_comm s'.drawn] at hnext
  | queued =>
    have hqueued := h.queued
    unfold KeySupply.generate
    generalize s.queued = q at hqueued ⊢
    generalize s'.queued = q' at hqueued ⊢
    cases hqueued with
    -- both supplies are used up, and make the same key
    | nil => exact ⟨hrefl _, h⟩
    | cons hkey hrest => exact ⟨hkey, h.random, hrest⟩

namespace Command.InsertDraft

/-- The drafts differ in the values of their parameters and in their supplies alone. -/
inductive Alike (R : Value → Value → Prop) (draft : InsertDraft) : InsertDraft → Prop where
  | of {supply : KeySupply} {parameters : List Value} (supplies : draft.supply.Alike R supply)
    (related : List.Forall₂ R draft.parameters parameters) :
    Alike R draft { draft with supply, parameters }

variable {draft draft' : InsertDraft}

/-- A like value is drafted in the same place. -/
theorem Alike.insertValue (hnull : ∀ v w, R v w → v.isNull = w.isNull) (h : draft.Alike R draft')
    (column : String) {v w : Value} (hvw : R v w) :
    (draft.insertValue column v).Alike R (draft'.insertValue column w) := by
  obtain @⟨supply, parameters, supplies, related⟩ := h
  obtain ⟨hslot, hparameters⟩ := slotOf_alike hnull related hvw
  unfold InsertDraft.insertValue
  dsimp only
  rw [hslot]
  exact .of supplies hparameters

/-- The row is read back by the same key, with a like value. -/
theorem Alike.insertKey (hnull : ∀ v w, R v w → v.isNull = w.isNull) (h : draft.Alike R draft')
    (column : String) {v w : Value} (hvw : R v w) :
    (draft.insertKey column v).Alike R (draft'.insertKey column w) := by
  obtain @⟨supply, parameters, supplies, related⟩ := h
  obtain ⟨hslot, hparameters⟩ := slotOf_alike hnull related hvw
  unfold InsertDraft.insertKey
  dsimp only
  rw [hslot]
  exact .of supplies hparameters

/-- A key that the server makes has no value, so that its snippets are the same. -/
theorem Alike.serverKey (h : draft.Alike R draft') (d : Dialect) (table column : String)
    (strategy : KeyStrategy) : (draft.serverKey d table column strategy).Alike R
      (draft'.serverKey d table column strategy) := by
  obtain ⟨supplies, related⟩ := h
  exact .of supplies related

/-- A key that is given on one side is given on the other one; a key that is missing is missing on
both. -/
theorem Alike.addKey (hnull : ∀ v w, R v w → v.isNull = w.isNull) (hrefl : ∀ v, R v v)
    (h : draft.Alike R draft') (d : Dialect) (table : String) {f : Contribution} {v w : Value}
    (hvw : R v w) (emptiness : ∀ k, f.strategy = some k →
      k.emptiness.test v = k.emptiness.test w) (value : Option Value) :
    Outcomes (InsertDraft.Alike R) (draft.addKey d table f v)
      (draft'.addKey d table { f with value } w) := by
  unfold InsertDraft.addKey
  dsimp only
  cases hstrategy : f.strategy with
  | none =>
    dsimp only
    rw [← hnull v w hvw]
    split
    · exact .failed _ _
    · exact .returned (h.insertKey hnull f.name hvw)
  | some k =>
    dsimp only
    -- the strategy finds both keys empty or neither
    rw [← emptiness k hstrategy]
    split
    · exact .returned (h.insertKey hnull f.name hvw)
    · cases k.generator with
      | none => exact .returned (h.serverKey d table f.name k)
      | some g =>
        obtain @⟨supply, parameters, supplies, related⟩ := h
        obtain ⟨hmade, hsupply⟩ := supplies.generate hrefl g
        have hdraft : InsertDraft.Alike R { draft with supply := (draft.supply.generate g).2 }
          { draft with supply := (supply.generate g).2, parameters } := .of hsupply related
        exact .returned (hdraft.insertKey hnull f.name hmade)

/-- Like contributions are drafted alike, or refused on both sides. -/
theorem Alike.add (hnull : ∀ v w, R v w → v.isNull = w.isNull) (hrefl : ∀ v, R v v)
    (h : draft.Alike R draft') (d : Dialect) (table : String) {f f' : Contribution}
    (hf : f.Alike R f') :
    Outcomes (InsertDraft.Alike R) (draft.add d table f) (draft'.add d table f') := by
  unfold InsertDraft.add
  cases hf with
  | absent without =>
    rw [without]
    exact .returned h
  | @given v w given related emptiness =>
    dsimp only
    rw [given]
    cases hrole : f.role with
    | keyField => exact h.addKey hnull hrefl d table related (emptiness hrole) (some w)
    | writeable => exact .returned (h.insertValue hnull f.name related)
    | insertable => exact .returned (h.insertValue hnull f.name related)
    | updateable => exact .returned h
    | readOnly => exact .returned h

/-- So are all contributions of a row, in order. -/
theorem Alike.addAll (hnull : ∀ v w, R v w → v.isNull = w.isNull) (hrefl : ∀ v, R v v)
    (h : draft.Alike R draft') (d : Dialect) (table : String)
    {fields fields' : List Contribution}
    (hfields : List.Forall₂ (Contribution.Alike R) fields fields') :
    Outcomes (InsertDraft.Alike R) (draft.addAll d table fields).1
      (draft'.addAll d table fields').1 := by
  induction hfields generalizing draft draft' with
  | nil => exact .returned h
  | @cons f f' rest rest' hf _ ih =>
    have hadd := h.add hnull hrefl d table hf
    rw [InsertDraft.addAll, InsertDraft.addAll]
    generalize draft.add d table f = x at hadd ⊢
    generalize draft'.add d table f' = y at hadd ⊢
    cases hadd with
    | failed cause cause' => exact .failed cause cause'
    | returned related => exact ih related

end Command.InsertDraft

/-- Inserts of like rows have one text, or both fail. -/
theorem Command.insert_alike (hnull : ∀ v w, R v w → v.isNull = w.isNull) (hrefl : ∀ v, R v v)
    {c c' : Command} (h : c.Alike R c') (d : Dialect) {supply supply' : KeySupply}
    (hsupply : supply.Alike R supply') :
    Outcomes (Built.Alike R) (c.insert d supply).1 (c'.insert d supply').1 := by
  have hnew : InsertDraft.Alike R { supply } { supply := supply' } := .of hsupply .nil
  have hadded := hnew.addAll hnull hrefl d c.table h.fields
  unfold Command.insert
  rw [h.table, names_alike h.fields]
  split
  · exact .failed _ _
  · dsimp only
    generalize (InsertDraft.addAll d c.table { supply } c.fields).1 = x at hadded ⊢
    generalize (InsertDraft.addAll d c.table { supply := supply' } c'.fields).1 = y at hadded ⊢
    cases hadded with
    | failed cause cause' => exact .failed cause cause'
    | returned related =>
      obtain ⟨supplies, related⟩ := related
      simp only [Except.bind]
      split
      · exact .failed _ _
      · exact .returned ⟨rfl, related, rfl⟩

/-! ## Selections -/

namespace Selection

/-- The selections differ in the values of their parameters alone. -/
inductive Alike (R : Value → Value → Prop) (s : Selection) : Selection → Prop where
  | of {scope : Scope} (scopes : s.scope.Alike R scope) : Alike R s { s with scope }

/-- The calls differ in the payloads of the values of their expressions alone. -/
inductive Call.Alike (R : Value → Value → Prop) (strategies : KeyStrategies) :
    Call → Call → Prop where
  | setTable (table : String) : Alike R strategies (.setTable table) (.setTable table)
  | addColumn (column : String) : Alike R strategies (.addColumn column) (.addColumn column)
  | addFilter {e e' : Expr} (expressions : e.Alike R strategies e') :
    Alike R strategies (.addFilter e) (.addFilter e')
  | addOrder {e e' : Expr} (expressions : e.Alike R strategies e') (order : Order) :
    Alike R strategies (.addOrder e order) (.addOrder e' order)
  | setLimit (limit : Option Nat) : Alike R strategies (.setLimit limit) (.setLimit limit)

variable {s s' : Selection} {d : Dialect} (mappings : Mappings)

/-- Like expressions compiled for like selections give the same tokens, and leave like scopes. -/
theorem Alike.compile (hd : d.rules = RuleEntry.standard)
    (hnull : ∀ v w, R v w → v.isNull = w.isNull) (hrefl : ∀ v, R v v) (h : s.Alike R s')
    (clause : Clause) {e e' : Expr} (he : e.Alike R d.strategies e') :
    let compiled := e.compileInto (d.environment mappings ⟨clause, true⟩) s.scope
    let compiled' := e'.compileInto (d.environment mappings ⟨clause, true⟩) s'.scope
    Outcomes Eq compiled.outcome compiled'.outcome
      ∧ compiled.scope.Alike R compiled'.scope := by
  obtain @⟨scope, scopes⟩ := h
  have hr : (d.environment mappings ⟨clause, true⟩).Standard := hd
  exact compile_matches hr hnull (hrefl _) he
    (rfl : admitsCondition none = admitsCondition none) ⟨s.scope, []⟩ ⟨scope, []⟩ scopes

/-- Like calls both succeed or both fail. -/
theorem Alike.attempt (hd : d.rules = RuleEntry.standard)
    (hnull : ∀ v w, R v w → v.isNull = w.isNull) (hrefl : ∀ v, R v v) (h : s.Alike R s')
    {call call' : Call} (hcall : call.Alike R d.strategies call') :
    Outcomes (Selection.Alike R) (s.attempt d mappings call).result
      (s'.attempt d mappings call').result := by
  cases hcall with
  | setTable table =>
    obtain ⟨⟨related⟩⟩ := h
    exact .returned (.of (.of related))
  | addColumn column =>
    obtain ⟨scopes⟩ := h
    exact .returned (.of scopes)
  | setLimit limit =>
    obtain ⟨scopes⟩ := h
    exact .returned (.of scopes)
  | @addFilter e e' expressions =>
    -- only expressions can fail, and they compile alike on both sides
    obtain ⟨houtcome, hafter⟩ := h.compile mappings hd hnull hrefl .filter expressions
    show Outcomes _ (s.addFilter d mappings e) (s'.addFilter d mappings e')
    rw [addFilter_eq, addFilter_eq]
    refine houtcome.map ?_
    rintro ts _ rfl
    obtain ⟨-⟩ := h
    exact .of hafter
  | @addOrder e e' expressions order =>
    obtain ⟨houtcome, hafter⟩ := h.compile mappings hd hnull hrefl .ordering expressions
    show Outcomes _ (s.addOrder d mappings e order) (s'.addOrder d mappings e' order)
    rw [addOrder_eq, addOrder_eq]
    refine houtcome.map ?_
    rintro ts _ rfl
    obtain ⟨-⟩ := h
    exact .of hafter

theorem Alike.perform (hd : d.rules = RuleEntry.standard)
    (hnull : ∀ v w, R v w → v.isNull = w.isNull) (hrefl : ∀ v, R v v) (h : s.Alike R s')
    {call call' : Call} (hcall : call.Alike R d.strategies call') :
    (s.perform d mappings call).Alike R (s'.perform d mappings call') := by
  have hattempt := h.attempt mappings hd hnull hrefl hcall
  rw [Selection.perform_eq, Selection.perform_eq]
  generalize (s.attempt d mappings call).result = x at hattempt ⊢
  generalize (s'.attempt d mappings call').result = y at hattempt ⊢
  cases hattempt with
  -- a call that fails leaves the selection as it was
  | failed cause cause' => exact h
  | returned related => exact related

/-- Like calls, some of which fail, lead to like selections. -/
theorem Alike.performAll (hd : d.rules = RuleEntry.standard)
    (hnull : ∀ v w, R v w → v.isNull = w.isNull) (hrefl : ∀ v, R v v) (h : s.Alike R s')
    {calls calls' : List Call} (hcalls : List.Forall₂ (Call.Alike R d.strategies) calls calls') :
    (s.performAll d mappings calls).Alike R (s'.performAll d mappings calls') := by
  induction hcalls generalizing s s' with
  | nil => exact h
  | cons hcall _ ih => exact ih (h.perform mappings hd hnull hrefl hcall)

/-- Like selections have one text, or both fail. -/
theorem Alike.build (h : s.Alike R s') (d : Dialect) :
    Outcomes (Built.Alike R) (s.build d) (s'.build d) := by
  obtain ⟨⟨related⟩⟩ := h
  unfold Selection.build
  dsimp only
  split
  · exact .failed _ _
  · split
    · exact .failed _ _
    · exact .returned ⟨rfl, related, rfl⟩

end Selection

/-! ## All statements -/

/-- Runs of the builders under the standard table whose inputs differ in the payloads of values
alone: related by an `R` that keeps NULL apart, which is also asked of the keys that are made.
Of a selection every single call succeeds in both runs or in neither, and so does every statement;
the statements have one text, and their parameters are related by `R`. -/
theorem statements_alike {d : Dialect} (hd : d.rules = RuleEntry.standard)
    (hnull : ∀ v w, R v w → v.isNull = w.isNull) (hrefl : ∀ v, R v v) :
    (∀ (mappings : Mappings) (m : TypeMapping) (calls calls' : List Selection.Call),
        List.Forall₂ (Selection.Call.Alike R d.strategies) calls calls' →
        let s := (Selection.ofMapping m).performAll d mappings calls
        let s' := (Selection.ofMapping m).performAll d mappings calls'
        (∀ call call', Selection.Call.Alike R d.strategies call call' →
          Outcomes (Selection.Alike R) (s.attempt d mappings call).result
            (s'.attempt d mappings call').result)
        ∧ Outcomes (Built.Alike R) (s.build d) (s'.build d))
      ∧ (∀ (c c' : Command) (supply supply' : KeySupply), c.Alike R c' → supply.Alike R supply' →
        Outcomes (Built.Alike R) (c.insert d supply).1 (c'.insert d supply').1)
      ∧ ∀ c c' : Command, c.Alike R c' →
        Outcomes (Built.Alike R) (c.update d) (c'.update d)
          ∧ Outcomes (Built.Alike R) (c.delete d) (c'.delete d) := by
  refine ⟨fun mappings m calls calls' hcalls => ?_, fun c c' supply supply' h hsupply => ?_,
    fun c c' h => ⟨?_, ?_⟩⟩
  · have hnew : (Selection.ofMapping m).Alike R (.ofMapping m) := .of (.of .nil)
    have hafter := hnew.performAll mappings hd hnull hrefl hcalls
    exact ⟨fun call call' hcall => hafter.attempt mappings hd hnull hrefl hcall, hafter.build d⟩
  · exact Command.insert_alike hnull hrefl h d hsupply
  · exact Command.update_alike hnull h d
  · exact Command.delete_alike hnull h d

namespace Company

/-- The employees of a name whose manager is one of two. -/
def namesakes (name : String) (manager₁ manager₂ : Int64) : List Selection.Call :=
  let x := Expr.parameter "x" employee
  let managers := Expr.constant (.list [.of (.int64 manager₁), .of (.int64 manager₂)])
  [.addColumn "id",
    .addFilter (.binary .equal (.member x "name") (.constant (.value (.of (.varchar name))))),
    .addFilter (.contains managers (.member x "manager"))]

end Company

theorem statements_alike_namesakes :
    let R (v w : Value) := v = w ∨ v.type = w.type ∧ v.isNull = false ∧ w.isNull = false
    let namesakes (name : String) (manager₁ manager₂ : Int64) :=
      ((Selection.ofMapping (Company.mapping Company.employee)).performAll .generic
        Company.mappings (Company.namesakes name manager₁ manager₂)).build .generic
    Outcomes (Built.Alike R) (namesakes "Ann" 1 2) (namesakes "' OR 1 = 1 --" 3 2)
      ∧ (namesakes "' OR 1 = 1 --" 3 2).toOption.map (·.statement.sql)
        = some ("SELECT t0.\"id\"\nFROM \"employees\" t0\n"
          ++ "WHERE (t0.\"name\" = @p0) AND (t0.\"manager_id\" IN (@p1, @p2));")
      ∧ (namesakes "' OR 1 = 1 --" 3 2).toOption.map (·.statement.parameters)
        = some [.of (.varchar "' OR 1 = 1 --"), .of (.int64 3), .of (.int64 2)] := by
  intro R namesakes
  have hnull : ∀ v w, R v w → v.isNull = w.isNull := by
    rintro v w (rfl | ⟨-, hv, hw⟩)
    · rfl
    · rw [hv, hw]
  have hcalls : List.Forall₂ (Selection.Call.Alike R Dialect.generic.strategies)
      (Company.namesakes "Ann" 1 2) (Company.namesakes "' OR 1 = 1 --" 3 2) := by
    have hrow : (Expr.parameter "x" Company.employee).Alike R Dialect.generic.strategies
      (.parameter "x" Company.employee) := .parameter _ _
    have hname : R (.of (.varchar "Ann")) (.of (.varchar "' OR 1 = 1 --")) := .inr ⟨rfl, rfl, rfl⟩
    have hmanagers : List.Forall₂ R [.of (.int64 1), .of (.int64 2)]
      [.of (.int64 3), .of (.int64 2)] := .cons (.inr ⟨rfl, rfl, rfl⟩) (.cons (.inl rfl) .nil)
    refine .cons (.addColumn _) (.cons (.addFilter ?_) (.cons (.addFilter ?_) .nil))
    · exact .binary .equal (hrow.member _) (.constant (.value hname))
    · exact .contains (.constant (.list hmanagers)) (hrow.member _)
  obtain ⟨hselect, -⟩ := statements_alike (d := .generic) rfl hnull fun v => .inl rfl
  obtain ⟨-, hbuilt⟩ := hselect Company.mappings (Company.mapping Company.employee) _ _ hcalls
  exact ⟨hbuilt, by decide +kernel, by decide +kernel⟩

end RowMapper
