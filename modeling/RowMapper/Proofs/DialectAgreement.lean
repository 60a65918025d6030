import RowMapper.Proofs.Decoding
import RowMapper.Proofs.Placeholders
import RowMapper.Proofs.Rendering

/-!
# Agreement of the dialects

The given dialects have one table of rules, and their key strategies take the same keys for empty
even where they make new ones differently. A compilation asks a dialect for nothing else: it is
the same run in all of them, down to the failure and the scope that it leaves. So are the calls
that a selection grows by. The texts differ as names are quoted and placeholders and limits are
written, and agree once they are decoded.

* `Environment.Agrees` is what a compilation depends on.
* `Selection.performAll_agrees` goes from one call to all of them.
* `dialects_agree` is the result for expressions, selections and updates.
-/

namespace RowMapper

/-! ## Empty keys -/

/-- The types that have a strategy, with what counts as an empty key of each. -/
def KeyStrategies.emptied (s : KeyStrategies) : List (ValueType × Emptiness) :=
  s.entries.map fun strategy => (strategy.valueType, strategy.emptiness)

/-- Nothing else of the strategies tells whether a key is empty. -/
theorem KeyStrategies.isEmptyKey_eq (s : KeyStrategies) (v : Value) :
    s.isEmptyKey v = match s.emptied.find? (·.1 == v.type) with
      | some (_, emptiness) => emptiness.test v
      | none => v.isEmptyDefault := by
  have hfind : s.emptied.find? (·.1 == v.type)
      = (s.find? v.type).map fun strategy => (strategy.valueType, strategy.emptiness) :=
    List.find?_map
  unfold isEmptyKey
  rw [hfind]
  cases s.find? v.type <;> rfl

/-- The given dialects make keys differently, but take the same ones for empty. -/
theorem Dialect.isEmptyKey_of_shipped {d d' : Dialect} (hd : d ∈ Dialect.shipped)
    (hd' : d' ∈ Dialect.shipped) (v : Value) :
    d'.strategies.isEmptyKey v = d.strategies.isEmptyKey v := by
  have hall : ∀ d ∈ Dialect.shipped,
      d.strategies.emptied = Dialect.generic.strategies.emptied := by
    decide
  rw [KeyStrategies.isEmptyKey_eq, KeyStrategies.isEmptyKey_eq, hall d hd, hall d' hd']

/-! ## Compilations -/

/-- Environments with the standard table that answer the compiler alike. -/
structure Environment.Agrees (env env' : Environment) : Prop where
  standard : env.Standard
  standard' : env'.Standard
  mappings : env'.mappings = env.mappings
  context : env'.context = env.context
  isEmptyKey : ∀ v, env'.strategies.isEmptyKey v = env.strategies.isEmptyKey v

/-- Shipped dialects have the same rules, and take the same keys for empty. -/
theorem Dialect.environment_agrees {d d' : Dialect} (hd : d ∈ Dialect.shipped)
    (hd' : d' ∈ Dialect.shipped) (mappings : Mappings) (context : Context) :
    (d.environment mappings context).Agrees (d'.environment mappings context) where
  standard := Dialect.environment_standard hd mappings context
  standard' := Dialect.environment_standard hd' mappings context
  mappings := rfl
  context := rfl
  isEmptyKey := Dialect.isEmptyKey_of_shipped hd hd'

namespace Environment.Agrees

variable {env env' : Environment} (h : env.Agrees env')
include h

theorem answersAlike : env.AnswersAlike env' := ⟨h.mappings, h.context, h.isEmptyKey⟩

/-- Environments that agree choose the same rules. -/
theorem chooseRule (parent : Option Expr) (node : Expr) :
    RowMapper.chooseRule env' parent node = RowMapper.chooseRule env parent node := by
  rw [chooseRule_standard h.standard', chooseRule_standard h.standard]
  simp only [h.answersAlike.accepts]

/-- Environments that agree compile every expression to the same tokens, or fail alike. -/
theorem compile (parent : Option Expr) (e : Expr) :
    RowMapper.compile env' parent e = RowMapper.compile env parent e :=
  h.answersAlike.compile h.chooseRule parent e

theorem compileInto (e : Expr) (s : Scope) : e.compileInto env' s = e.compileInto env s := by
  unfold Expr.compileInto
  rw [h.compile]

end Environment.Agrees

/-- What is read of a statement: its text, decoded, and its parameters. -/
def Statement.decoded (d : Dialect) (s : Statement) : DecodedText × List Value :=
  (d.decoded s.sql, s.parameters)

/-! ## Selections -/

namespace Selection

variable {d d' : Dialect} {mappings : Mappings} {s s' : Selection}

/-- A call to a selection does not depend on the dialect. -/
theorem attempt_agrees (hd : d ∈ Dialect.shipped) (hd' : d' ∈ Dialect.shipped) (s : Selection)
    (mappings : Mappings) (call : Call) :
    s.attempt d' mappings call = s.attempt d mappings call := by
  have hcompile (clause : Clause) (e : Expr) :
      SelectionM.compile d' mappings clause e = SelectionM.compile d mappings clause e := by
    unfold SelectionM.compile
    simp only [(Dialect.environment_agrees hd hd' mappings ⟨clause, true⟩).compileInto]
  have hsteps : call.steps d' mappings = call.steps d mappings := by
    cases call with
    | setTable | addColumn | setLimit => rfl
    | addFilter condition => simp only [Call.steps, SelectionM.addFilter, hcompile]
    | addOrder e order => simp only [Call.steps, SelectionM.addOrder, hcompile]
  unfold attempt
  rw [hsteps]

/-- So do any calls, some of which fail. -/
theorem performAll_agrees (hd : d ∈ Dialect.shipped) (hd' : d' ∈ Dialect.shipped) (s : Selection)
    (mappings : Mappings) (calls : List Call) :
    s.performAll d' mappings calls = s.performAll d mappings calls := by
  induction calls generalizing s with
  | nil =>
    show s = s
    rfl
  | cons call rest ih =>
    have hperform : s.perform d' mappings call = s.perform d mappings call := by
      unfold perform
      rw [attempt_agrees hd hd']
    have hcons (d : Dialect) : s.performAll d mappings (call :: rest)
        = (s.perform d mappings call).performAll d mappings rest := List.foldl_cons
    rw [hcons, hcons, hperform, ih]

/-- The invariant of a selection: its clauses are read alike. -/
structure Common (s : Selection) : Prop where
  filters : ∀ p ∈ s.filters, Tokens.Common p
  orders : ∀ o ∈ s.orders, Tokens.Common o.1

/-- A call that succeeds adds what all dialects read alike. -/
theorem Common.attempt (hd : d ∈ Dialect.shipped) (h : s.Common) (wf : s.scope.WellFormed)
    {call : Call} (hcall : (s.attempt d mappings call).result = .ok s') : s'.Common := by
  cases call with
  | setTable | addColumn | setLimit =>
    cases hcall
    exact ⟨h.filters, h.orders⟩
  | addFilter condition =>
    obtain ⟨ts, scope, rfl, hcompiles⟩ :=
      Selection.addFilter_eq_ok (Dialect.rules_of_shipped hd) hcall
    have hlast : ∀ p ∈ [ts], Tokens.Common p :=
      List.forall_mem_singleton.2 (hcompiles.common wf)
    exact ⟨List.forall_mem_append.2 ⟨h.filters, hlast⟩, h.orders⟩
  | addOrder e order =>
    obtain ⟨ts, scope, rfl, hcompiles⟩ :=
      Selection.addOrder_eq_ok (Dialect.rules_of_shipped hd) hcall
    have hlast : ∀ o ∈ [(ts, order)], Tokens.Common o.1 :=
      List.forall_mem_singleton.2 (hcompiles.common wf)
    exact ⟨h.filters, List.forall_mem_append.2 ⟨h.orders, hlast⟩⟩

theorem Common.performAll (hd : d ∈ Dialect.shipped) (h : s.Common) (hs : Sound d s)
    (calls : List Call) : (s.performAll d mappings calls).Common := by
  induction calls generalizing s with
  | nil => exact h
  | cons call rest ih =>
    have hnext : (s.perform d mappings call).Common := by
      rw [Selection.perform_eq]
      cases hcall : (s.attempt d mappings call).result with
      | error cause => exact h
      | ok next => exact h.attempt hd hs.scope hcall
    exact ih hnext (hs.perform hd call)

/-- What is read of a selection between its first and its last word, without a limit. -/
def reading (s : Selection) : Except StatementError (DecodedText × List Value) :=
  (s.build .generic).map fun built =>
    (Tokens.decoded .generic s.parts.body, built.statement.parameters)

/-- What is built is read alike but for the place of the limit. -/
theorem Common.decoded_build (hd : d ∈ Dialect.shipped) (h : s.Common) (hs : Sound d s) :
    (s.build d).map (·.statement.decoded d)
      = s.reading.map (Prod.map (d.limitStyle.around s.limit) id) := by
  have hquoting := Dialect.quoting_mem_usual hd
  have hgeneric : Dialect.generic ∈ Dialect.shipped := by decide
  have hlines := SelectParts.legible_lines hquoting (s := s.parts) hs.scope.root hs.scope.joined
    hs.filters hs.orders
  have hbody : Tokens.Common s.parts.body :=
    SelectParts.common_body hs.scope.root hs.scope.joined h.filters h.orders
  have hread : d.decoded (d.batch [s.parts.line d])
      = d.limitStyle.around s.limit (Tokens.decoded .generic s.parts.body) := by
    rw [decoded_batch hquoting hlines, List.flatMap_singleton, SelectParts.decoded_line hquoting,
      hbody.decoded hd hgeneric]
    rfl
  -- that a selection has no table or no columns is found out without the dialect
  unfold reading build
  split
  · rfl
  · split
    · rfl
    · exact congrArg (fun text => Except.ok (text, s.scope.parameters)) hread

end Selection

/-! ## Updates -/

namespace Command

variable {d d' : Dialect}

/-- The command without the strategies for empty keys. -/
def withoutStrategies (c : Command) : Command :=
  { c with fields := c.fields.map ({ · with strategy := none }) }

theorem slotsOf_withoutStrategies (before : List Value) (fields : List Contribution) :
    slotsOf before (fields.map ({ · with strategy := none })) = slotsOf before fields := by
  induction fields generalizing before with
  | nil => rfl
  | cons field rest ih => simp only [List.map_cons, slotsOf, ih]

/-- An update makes no keys. -/
theorem update_withoutStrategies (c : Command) (d : Dialect) :
    c.withoutStrategies.update d = c.update d := by
  have hassigned : c.withoutStrategies.assigned
      = c.assigned.map ({ · with strategy := none }) := List.filter_map
  have hkeys : c.withoutStrategies.keys = c.keys.map ({ · with strategy := none }) :=
    List.filter_map
  have hnames : c.withoutStrategies.fields.map (·.name) = c.fields.map (·.name) := by
    simp [withoutStrategies]
  unfold update
  rw [hassigned, hkeys, hnames]
  simp only [slotsOf_withoutStrategies]
  rfl

/-- The parts of an update. -/
def updateParts (c : Command) : UpdateParts :=
  let assigned := slotsOf [] c.assigned
  let keyed := slotsOf assigned.2 c.keys
  ⟨c.table, assigned.1, keyed.1, ⟨c.table, c.fields.map (·.name), keyed.1⟩⟩

/-- An update is decoded to the same in every shipped dialect. -/
theorem decoded_updateParts (hd : d ∈ Dialect.shipped) (c : Command) :
    d.decoded (d.batch c.updateParts.lines)
      = c.updateParts.lines.flatMap (Tokens.decoded .generic) := by
  have hquoting := Dialect.quoting_mem_usual hd
  have hgeneric : Dialect.generic ∈ Dialect.shipped := by decide
  have hassigned : Numbered d [] c.updateParts.assignments (slotsOf [] c.assigned).2 := .slotsOf _
  have hkey : Numbered d (slotsOf [] c.assigned).2 c.updateParts.key _ := .slotsOf _
  have hcommon : ∀ l ∈ c.updateParts.lines, Tokens.Common l :=
    UpdateParts.common_lines (common_slotsOf _ _) (common_slotsOf _ _) rfl
  rw [decoded_batch hquoting
    (UpdateParts.legible_lines hquoting hassigned.legible hkey.legible rfl)]
  exact List.flatMap_congr fun l hl => (hcommon l hl).decoded hd hgeneric

/-- What is built is read alike. -/
theorem decoded_update (hd : d ∈ Dialect.shipped) (c : Command) :
    (c.update d).map (·.statement.decoded d)
      = (c.update .generic).map (·.statement.decoded .generic) := by
  have hgeneric : Dialect.generic ∈ Dialect.shipped := by decide
  have hread : d.decoded (d.batch c.updateParts.lines)
      = Dialect.generic.decoded (Dialect.generic.batch c.updateParts.lines) := by
    rw [decoded_updateParts hd, decoded_updateParts hgeneric]
  unfold update
  split
  · rfl
  · dsimp only
    split
    · rfl
    · exact congrArg (fun text => Except.ok (text, (slotsOf (slotsOf [] c.assigned).2 c.keys).2))
        hread

end Command

/-! ## All of them -/

/-- The given dialects agree. An expression has one outcome in all of them, with the same scope
after it, and what it compiles to is read alike. A selection grows by the same calls in the same
way, and its statement is read alike but for the place of the limit. Commands that differ in
nothing but their strategies for keys have updates that are read alike. -/
theorem dialects_agree :
    (∀ (mappings : Mappings) (context : Context) (m : TypeMapping) (s : Scope) (e : Expr),
        Scope.Reached m s → ∃ compiled reading, ∀ d ∈ Dialect.shipped,
          e.compileInto (d.environment mappings context) s = compiled
            ∧ compiled.outcome.map (fun ts => d.decoded (d.text ts)) = reading)
      ∧ (∀ (mappings : Mappings) (m : TypeMapping) (calls : List Selection.Call)
        (call : Selection.Call), ∃ (selection : Selection) (attempt : Selection.Attempt)
        (reading : Except StatementError (DecodedText × List Value)), ∀ d ∈ Dialect.shipped,
          (Selection.ofMapping m).performAll d mappings calls = selection
            ∧ selection.attempt d mappings call = attempt
            ∧ (selection.build d).map (·.statement.decoded d)
              = reading.map (Prod.map (d.limitStyle.around selection.limit) id))
      ∧ ∀ c : Command, ∃ reading, ∀ d ∈ Dialect.shipped, ∀ c' : Command,
        c'.withoutStrategies = c.withoutStrategies →
          (c'.update d).map (·.statement.decoded d) = reading := by
  have hgeneric : Dialect.generic ∈ Dialect.shipped := by decide
  refine ⟨fun mappings context m s e hs => ?_, fun mappings m calls call => ?_, fun c => ?_⟩
  · have wf := hs.wellFormed
    -- every dialect compiles as the generic one does, and its text is read back as the same tokens
    let compiled := e.compileInto (Dialect.generic.environment mappings context) s
    refine ⟨compiled, compiled.outcome.map (Tokens.decoded .generic), fun d hd => ⟨?_, ?_⟩⟩
    · exact (Dialect.environment_agrees hgeneric hd mappings context).compileInto e s
    · cases houtcome : compiled.outcome with
      | error cause => rfl
      | ok ts =>
        have hcompiles := Compiles.of_compileInto
          (Dialect.environment_standard hgeneric mappings context) houtcome
        have hlegible := hcompiles.legible (Dialect.quoting_mem_usual hd) wf
        exact congrArg Except.ok
          (hlegible.decoded_text.trans ((hcompiles.common wf).decoded hd hgeneric))
  · -- the generic dialect makes the selection, and every other one makes the same
    let selection := (Selection.ofMapping m).performAll .generic mappings calls
    have hcommon : (Selection.ofMapping m).Common :=
      ⟨fun _ hp => absurd hp List.not_mem_nil, fun _ ho => absurd ho List.not_mem_nil⟩
    refine ⟨selection, selection.attempt .generic mappings call, selection.reading,
      fun d hd => ⟨?_, ?_, ?_⟩⟩
    · exact Selection.performAll_agrees hgeneric hd _ mappings calls
    · exact Selection.attempt_agrees hgeneric hd selection mappings call
    · have hsound : Selection.Sound d ((Selection.ofMapping m).performAll d mappings calls) :=
        (Selection.Sound.ofMapping m).performAll hd calls
      have hread : ((Selection.ofMapping m).performAll d mappings calls).Common :=
        hcommon.performAll hd (.ofMapping m) calls
      rw [Selection.performAll_agrees hgeneric hd (.ofMapping m) mappings calls] at hsound hread
      exact hread.decoded_build hd hsound
  · refine ⟨(c.update .generic).map (·.statement.decoded .generic), fun d hd c' hc' => ?_⟩
    rw [← c'.update_withoutStrategies, hc', c.update_withoutStrategies, Command.decoded_update hd]

namespace Company

/-- The first few employees of the listing. -/
def firstListed (d : Dialect) : Selection :=
  (Selection.ofMapping (mapping employee)).performAll d mappings
    (listing ++ [.setLimit (some 5)])

/-- A document with a new title. Its key would be made differently in each dialect. -/
def retitled (d : Dialect) : Command :=
  ⟨"docs]\"@p5", [
    { name := "id"
      value := some (.of (.uuid .nil))
      role := .keyField
      strategy := d.strategies.find? (.of .uuid) },
    { name := "title", value := some (.of (.varchar "@p7")), role := .writeable, changed := true }]⟩

end Company

/-- A selection of one row and an update of a title. -/
theorem dialects_agree_firstListed_retitled :
    let p := Dialect.postgres
    let q := Dialect.sqlServer
    let compiled (d : Dialect) :=
      Company.unledAndPaid.compileInto (d.environment Company.mappings {}) Company.used
    let listed (d : Dialect) := (Company.firstListed d).build d
    let updated (d : Dialect) := (Company.retitled d).update d
    ((compiled q).outcome.toOption.map q.text
          = some ("NOT (t0.[active] = @p1 OR t2.[name] IS NOT NULL) AND "
            ++ "t0.[salary] * (t0.[salary] + @p2) IN (@p3, @p4)")
        ∧ compiled p = compiled q
        ∧ (compiled p).outcome.map (fun ts => p.decoded (p.text ts))
          = (compiled q).outcome.map fun ts => q.decoded (q.text ts))
      ∧ ((listed q).toOption.map (·.statement.sql)
          = some ("SELECT TOP 5 t0.[id]\nFROM [employees] t0\n"
            ++ "LEFT OUTER JOIN [managers] t1 ON t0.[manager_id] = t1.[id]\n"
            ++ "WHERE (t1.[name] = @p1) AND (t0.[id] IN (@p2, @p3))\n"
            ++ "ORDER BY t0.[salary] + @p0 ASC;")
        ∧ ∃ reading : Except StatementError (DecodedText × List Value),
          (listed p).map (·.statement.decoded p)
              = reading.map (Prod.map (LimitStyle.trailing.around (some 5)) id)
            ∧ (listed q).map (·.statement.decoded q)
              = reading.map (Prod.map (LimitStyle.leading.around (some 5)) id))
      ∧ (updated q).toOption.map (·.statement.sql)
          = some ("UPDATE [docs]]\"@p5] SET [title] = @p0 WHERE [id] = @p1;\n"
            ++ "SELECT [id], [title] FROM [docs]]\"@p5] WHERE [id] = @p1;")
        ∧ (updated p).map (·.statement.decoded p) = (updated q).map (·.statement.decoded q) := by
  intro p q compiled listed updated
  have hp : p ∈ Dialect.shipped := by decide
  have hq : q ∈ Dialect.shipped := by decide
  obtain ⟨hexpressions, hselections, hupdates⟩ := dialects_agree
  obtain ⟨_, _, hsame⟩ := hexpressions Company.mappings {} _ Company.used Company.unledAndPaid
    Company.reached_used
  obtain ⟨hcompiled, hread⟩ := hsame p hp
  obtain ⟨hcompiled', hread'⟩ := hsame q hq
  obtain ⟨selection, _, reading, hselection⟩ := hselections Company.mappings
    (Company.mapping Company.employee) (Company.listing ++ [.setLimit (some 5)]) (.setLimit none)
  obtain ⟨hlisted, -, htrailing⟩ := hselection p hp
  obtain ⟨hlisted', -, hleading⟩ := hselection q hq
  obtain ⟨_, hupdated⟩ := hupdates (Company.retitled .generic)
  have hlimit : selection.limit = some 5 := by
    rw [← hlisted]
    decide +kernel
  rw [hlimit] at htrailing hleading
  refine ⟨⟨by decide +kernel, hcompiled.trans hcompiled'.symm, ?_⟩,
    ⟨by decide +kernel, reading, ?_, ?_⟩, by decide +kernel, ?_⟩
  · show (compiled p).outcome.map _ = (compiled q).outcome.map _
    rw [show compiled p = _ from hcompiled, show compiled q = _ from hcompiled', hread, hread']
  · show ((Company.firstListed p).build p).map _ = _
    rw [show Company.firstListed p = _ from hlisted, htrailing]
    rfl
  · show ((Company.firstListed q).build q).map _ = _
    rw [show Company.firstListed q = _ from hlisted', hleading]
    rfl
  · exact (hupdated p hp (Company.retitled p) rfl).trans
      (hupdated q hq (Company.retitled q) rfl).symm

end RowMapper
