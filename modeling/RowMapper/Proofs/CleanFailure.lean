import RowMapper.Proofs.LeaseReturned

/-!
# Failures before anything is sent

An insertion, an update and a deletion check all that can be checked before they need the database.
What can go wrong later is of no class: the server fails, it does not give the row back, or a value
of that row does not convert. So a failure of a class means that no statement was sent and that the
instance is as it was.

A row that was read back is loaded into the members of its columns. None of them lacks a cell, since
all columns of the mapping contributed to the statement.

* `Network.Silent` relates two networks whose servers ran the same statements.
* `Work.Clean` says of a task that its failures of a class send nothing.
* `Collection.classed_failures_send_nothing` is about the three operations.
-/

namespace RowMapper

/-! ## Nothing is sent -/

/-- No server was sent a statement in between. -/
def Network.Silent (n n' : Network) : Prop :=
  ∀ name, (n'.find? name).map (·.statements) = (n.find? name).map (·.statements)

/-- If nothing was sent, no server was. -/
theorem Network.Sent.silent {n n' : Network} (h : n.Sent (fun _ => False) n') : n.Silent n' := by
  intro name
  have hname := h name
  generalize n.find? name = x at hname ⊢
  generalize n'.find? name = y at hname ⊢
  cases hname with
  | none => rfl
  | some ran =>
    obtain ⟨-, more, hmore, hnothing⟩ := ran
    have hempty : more = [] := List.eq_nil_iff_forall_not_mem.2 hnothing
    show some (Server.statements _) = some (Server.statements _)
    rw [hmore, hempty, List.append_nil]

/-! ## Tasks -/

namespace Work

variable {α β : Type} {s : Session} {url : ConnectionString}

/-- The failures of the task are of no class, in any session. -/
def FailsLate (t : Work α) : Prop := ∀ s e, (t s).outcome = .error e → e.kind = .other

/-- If the task fails in the session with an error of a class, it sends nothing. -/
def Clean (t : Work α) (s : Session) : Prop :=
  ∀ e, (t s).outcome = .error e → e.kind ≠ .other → t.Sends (fun _ => False) s

theorem FailsLate.pure (a : α) : (Pure.pure a : Work α).FailsLate := fun _ _ h => by cases h

theorem FailsLate.fail {e : Error} (h : e.kind = .other) : (Work.fail e : Work α).FailsLate := by
  intro s e' he
  cases he
  exact h

theorem FailsLate.told (a : α) (log : Log) : (Work.told (.ok a) log).FailsLate :=
  fun _ _ h => by cases h

/-- Over a lease, a statement fails in the server only. -/
theorem FailsLate.run (lease : Lease) (st : Statement) : (Work.run lease st).FailsLate :=
  fun _ _ h => by cases h

theorem FailsLate.bind {t : Work α} {f : α → Work β} (ht : t.FailsLate)
    (hf : ∀ a, (f a).FailsLate) : (t >>= f).FailsLate := by
  intro s e he
  rcases hreply : t s with ⟨cause | a, s', log⟩
  · rw [bind_of_error hreply] at he
    cases he
    exact ht s e (by rw [hreply])
  · rw [bind_of_ok hreply] at he
    exact hf a s' e he

/-- What a statement yields is a failure of the server, or counts. -/
theorem FailsLate.execute (lease : Lease) (st : Statement) : (Work.execute lease st).FailsLate := by
  refine .bind (.run lease st) fun results s e he => ?_
  change results.execute.mapError Error.server = .error e at he
  cases hexecuted : results.execute with
  | error message =>
    rw [hexecuted] at he
    cases he
    rfl
  | ok affected =>
    rw [hexecuted] at he
    cases he

/-- Work that sends nothing is clean. -/
theorem Clean.of_sends {t : Work α} (h : t.Sends (fun _ => False) s) : t.Clean s := fun _ _ _ => h

/-- A first step that sends nothing. -/
theorem Clean.bind {t : Work α} {f : α → Work β} (ht : t.Sends (fun _ => False) s)
    (hf : ∀ a s' log, t s = ⟨.ok a, s', log⟩ → (f a).Clean s') : (t >>= f).Clean s := by
  intro e he hkind
  refine .bind ht fun a s' log hreply => ?_
  rw [bind_of_ok hreply] at he
  exact hf a s' log hreply e he hkind

/-- A last step whose failures are of no class. -/
theorem Clean.before {t : Work α} {f : α → Work β} (ht : t.Clean s) (hf : ∀ a, (f a).FailsLate) :
    (t >>= f).Clean s := by
  intro e he hkind
  rcases hreply : t s with ⟨cause | a, s', log⟩
  · rw [bind_of_error hreply] at he
    have hsent := ht e (by rw [hreply]; cases he; rfl) hkind
    unfold Sends at hsent ⊢
    rw [bind_of_error hreply]
    rw [hreply] at hsent
    exact hsent
  · rw [bind_of_ok hreply] at he
    exact absurd (hf a s' e he) hkind

/-- A lease that is refused sends nothing, and work with one fails late. -/
theorem Clean.leased {work : Lease → Work α} (hwork : ∀ lease, (work lease).FailsLate) :
    (Work.leased url work).Clean s := by
  intro e he hkind
  have hacquired : s.pool.network.Sent (fun _ => False)
      (s.pool.acquire s.thread url).pool.network :=
    Pool.sent_acquire s.pool s.thread url
  unfold Sends
  unfold Work.leased at he ⊢
  split
  · rename_i failure pool log hfailed
    rw [hfailed] at hacquired
    exact hacquired
  · rename_i lease pool log hlease
    rw [hlease] at he
    exact absurd (hwork lease _ e he) hkind

/-- A row is read back with a statement that was built before. -/
theorem Clean.readBack (st : Statement) : (Work.readBack url st).Clean s := by
  refine .leased fun lease => .bind (.run lease st) fun results => ?_
  split
  · exact .fail rfl
  · exact .pure _

/-- What is reported of a failure sends nothing. -/
theorem Clean.reporting {t : Work α} (h : t.Clean s) : (Work.reporting t).Clean s := by
  intro e he hkind
  refine .reporting (h e ?_ hkind)
  unfold Work.reporting at he
  rcases hreply : t s with ⟨cause | a, s', log⟩ <;> rw [hreply] at he <;> exact he

end Work

/-! ## Members of the columns -/

namespace Instance

variable {i : Instance} {m : TypeMapping} {d : Dialect}

/-- Every column of the mapping has a tracked member. -/
def Covers (i : Instance) (m : TypeMapping) : Prop :=
  ∀ column ∈ m.columns, (i.member? column.name).isSome

instance (i : Instance) (m : TypeMapping) : Decidable (i.Covers m) :=
  inferInstanceAs (Decidable (∀ column ∈ m.columns, (i.member? column.name).isSome))

/-- A member is tracked if the instance has it. -/
theorem tracked_eq_ok {column : ColumnMapping} {x : TrackedMember} :
    i.tracked m column = .ok x ↔ i.member? column.name = some x := by
  unfold tracked
  cases i.member? column.name <;> simp

/-- A member that the instance does not have is named. -/
theorem tracked_eq_error {column : ColumnMapping} {cause : CollectionError} :
    i.tracked m column = .error cause
      ↔ i.member? column.name = none ∧ cause = .untracked column.name m.entity := by
  unfold tracked
  cases i.member? column.name with
  | none => simp [eq_comm]
  | some x => simp

/-- All columns contribute, or one of them lacks its member. -/
theorem contributions_cases (i : Instance) (m : TypeMapping) (strategies : KeyStrategies)
    (stored : Bool) :
    match i.contributions m strategies stored with
    | .ok _ => i.Covers m
    | .error cause => ∃ column ∈ m.columns, i.member? column.name = none
        ∧ cause = .untracked column.name m.entity := by
  cases h : i.contributions m strategies stored with
  | ok fields =>
    intro column hcolumn
    obtain ⟨f, -, hf⟩ := exists_of_forall₂ (List.Forall₂.flip (forall₂_of_mapM h)) hcolumn
    obtain ⟨x, hx, -⟩ := Except.map_eq_ok.1 hf
    rw [tracked_eq_ok.1 hx]
    rfl
  | error cause =>
    obtain ⟨column, hcolumn, hfails⟩ := exists_of_mapM_eq_error h
    exact ⟨column, hcolumn, tracked_eq_error.1 (Except.map_eq_error.1 hfails)⟩

/-- The values that an instance with all members refuses are those that do not convert. -/
theorem Covers.kind_refusal (h : i.Covers m) {entry : String × Value} {e : Error}
    (he : i.refusal? m entry = some e) : e.kind = .other := by
  unfold refusal? at he
  obtain ⟨column, hcolumn, he⟩ := Option.bind_eq_some_iff.1 he
  have htracked := h column (List.mem_of_find?_eq_some hcolumn)
  obtain ⟨x, hx⟩ := Option.isSome_iff_exists.1 htracked
  rw [typeOf?_of_member? hx] at he
  dsimp only at he
  split at he
  · cases he
  · cases he
    rfl

/-- An insert that is built has asked for every column. -/
theorem Covers.of_insertion {supply : KeySupply} {built : Built}
    (h : (i.insertion m d supply).1 = .ok built) : i.Covers m := by
  have hcases := i.contributions_cases m d.strategies false
  unfold insertion at h
  split at h
  · cases h
  · rename_i fields hfields
    rw [hfields] at hcases
    exact hcases

/-- So has an update. -/
theorem Covers.of_modification {built : Built} (h : i.modification m d = .ok (some built)) :
    i.Covers m := by
  have hcases := i.contributions_cases m d.strategies true
  unfold modification at h
  split at h
  · cases h
  · obtain ⟨fields, hfields, -⟩ := Except.bind_eq_ok.1 h
    rw [Except.mapError_eq_ok.1 hfields] at hcases
    exact hcases

/-- An instance that lacks a member of a column has no insertion. -/
theorem insertion_untracked (h : ¬i.Covers m) (d : Dialect) (supply : KeySupply) :
    ∃ column ∈ m.columns, i.member? column.name = none
      ∧ (i.insertion m d supply).1 = .error (.collection (.untracked column.name m.entity)) := by
  have hcases := i.contributions_cases m d.strategies false
  unfold insertion
  split at hcases
  · exact absurd hcases h
  · rename_i cause hcause
    obtain ⟨column, hcolumn, hnone, rfl⟩ := hcases
    rw [hcause]
    exact ⟨column, hcolumn, hnone, rfl⟩

/-- An instance that lacks a member of a column has no update either, which is found out unless its
key was modified. -/
theorem modification_untracked (h : ¬i.Covers m) (hkey : i.modifiedKey? m = none) (d : Dialect) :
    ∃ column ∈ m.columns, i.member? column.name = none
      ∧ i.modification m d = .error (.collection (.untracked column.name m.entity)) := by
  have hcases := i.contributions_cases m d.strategies true
  unfold modification
  rw [hkey]
  split at hcases
  · exact absurd hcases h
  · rename_i cause hcause
    obtain ⟨column, hcolumn, hnone, rfl⟩ := hcases
    dsimp only
    rw [hcause]
    exact ⟨column, hcolumn, hnone, rfl⟩

/-- A key without a cell, or another one without a value, is found out by a deletion. -/
theorem removal_untracked {column : ColumnMapping} (hcolumn : column ∈ m.primaryKeys)
    (hnone : i.member? column.name = none) (d : Dialect) :
    ∃ e, (i.removal m d).1 = .error e ∧ e.kind ≠ .other := by
  unfold removal
  cases hkeys : i.storedKeys m with
  | error cause =>
    refine ⟨.collection cause, rfl, ?_⟩
    obtain ⟨key, -, hkey⟩ := exists_of_mapM_eq_error hkeys
    unfold storedKey at hkey
    cases htracked : i.tracked m key with
    | error untracked =>
      rw [htracked] at hkey
      cases hkey
      obtain ⟨-, rfl⟩ := tracked_eq_error.1 htracked
      show ErrorKind.configuration ≠ .other
      decide
    | ok x =>
      rw [htracked] at hkey
      change (if x.cell.committedValue.isNull then _ else _) = _ at hkey
      split at hkey
      · cases hkey
        show ErrorKind.statementState ≠ .other
        decide
      · cases hkey
  | ok keys =>
    -- every key has a value, so it has a cell
    obtain ⟨v, -, hv⟩ := exists_of_forall₂ (List.Forall₂.flip (forall₂_of_mapM hkeys)) hcolumn
    obtain ⟨x, hx, -⟩ := Except.bind_eq_ok.1 hv
    rw [tracked_eq_ok.1 hx] at hnone
    cases hnone

end Instance

/-! ## Operations of collections -/

namespace Collection

open Work (Clean)

variable {c : Collection} {i : Instance} {s : Session}

/-- To plan an insert sends nothing. -/
theorem sends_insertion {P : Statement → Prop} (i : Instance) (m : TypeMapping) (s : Session) :
    Work.Sends P (insertRow.insertion i m) s :=
  .of_same (congrArg Pool.network (rests_insertion i m s).1)

/-- An insert that fails to be planned sends nothing. -/
theorem clean_insertRow (c : Collection) (i : Instance) (s : Session) :
    (c.insertRow i).Clean s := by
  refine .bind (.mapping _) fun m s' log _ => ?_
  refine .bind (sends_insertion i m s') fun st s' log _ => ?_
  refine .before (.readBack st) fun row => ?_
  cases row with
  | none => exact .fail rfl
  | some row => exact .pure _

/-- An update that fails to be planned sends nothing. -/
theorem clean_updateRow (c : Collection) (i : Instance) (s : Session) :
    (c.updateRow i).Clean s := by
  refine .bind (.mapping _) fun m s' log _ => ?_
  refine .bind (.of_same rfl) fun modification s' log _ => ?_
  rcases modification with e | _ | built
  · exact .of_sends (.fail e)
  · exact .of_sends (.told _ _)
  · refine .bind (.told _ _) fun st s' log _ => ?_
    refine .before (.readBack st) fun row => ?_
    cases row with
    | none => exact .fail rfl
    | some row => exact .pure _

/-- Cascades fail in the server only: they were built before. -/
theorem deleteLists_failsLate (lease : Lease) (deletions : List Instance.ListDeletion) :
    (deleteLists lease deletions).FailsLate := by
  induction deletions with
  | nil => exact .pure ()
  | cons l rest ih =>
    exact .bind (.execute lease l.statement) fun _ => .bind (.told _ _) fun _ => ih

/-- A deletion that fails to be planned sends nothing, no cascade either. -/
theorem clean_delete (c : Collection) (i : Instance) (s : Session) : (c.delete i).Clean s := by
  refine .reporting (.bind (.mapping _) fun m s' log _ => ?_)
  refine .bind (.of_same rfl) fun removal s' log _ => ?_
  refine .bind (.told _ _) fun removal s' log _ => .leased fun lease => ?_
  exact .bind (deleteLists_failsLate lease removal.cascades) fun _ => .execute lease removal.own

/-- The row of an insertion is loaded into members that are all there. -/
theorem covers_of_insertRow {fetched : Fetched} (h : (c.insertRow i s).outcome = .ok fetched) :
    i.Covers fetched.mapping := by
  obtain ⟨m, s₁, log, -, h⟩ := Work.exists_of_bind_ok h
  obtain ⟨st, s₂, log, hinsertion, h⟩ := Work.exists_of_bind_ok h
  obtain ⟨row, s₃, log, -, h⟩ := Work.exists_of_bind_ok h
  have hcovers : i.Covers m := by
    cases hbuilt : (i.insertion m s₁.dialect s₁.supply).1 with
    | ok built => exact .of_insertion hbuilt
    | error e =>
      unfold insertRow.insertion at hinsertion
      dsimp only at hinsertion
      rw [hbuilt] at hinsertion
      cases hinsertion
  cases row with
  | none => cases h
  | some row =>
    cases h
    exact hcovers

/-- An update that yields a row has asked for every column. -/
theorem covers_of_updateRow {fetched : Fetched}
    (h : (c.updateRow i s).outcome = .ok (some fetched)) : i.Covers fetched.mapping := by
  obtain ⟨m, s₁, log, -, h⟩ := Work.exists_of_bind_ok h
  rw [Work.bind_ask] at h
  rcases hmodified : i.modification m s₁.dialect with e | _ | built <;> rw [hmodified] at h
  · cases h
  · cases h
  · obtain ⟨st, s₂, log, -, h⟩ := Work.exists_of_bind_ok h
    obtain ⟨row, s₃, log, -, h⟩ := Work.exists_of_bind_ok h
    cases row with
    | none => cases h
    | some row =>
      cases h
      exact .of_modification hmodified

/-- An instance that takes over a row with all its members fails as cleanly as the fetch. -/
theorem clean_taking {fetch : Work (Option Fetched)} (hclean : fetch.Clean s)
    (hcovers : ∀ fetched, (fetch s).outcome = .ok (some fetched) → i.Covers fetched.mapping)
    {e : Error} (he : (taking fetch true i s).outcome = .error e) (hkind : e.kind ≠ .other) :
    s.pool.network.Silent (taking fetch true i s).session.pool.network
      ∧ (taking fetch true i s).target = i ∧ (taking fetch true i s).notified = [] := by
  rcases taking_eq_error he with ⟨hfetch, hkept⟩ | ⟨fetched, hfetch, hrefused, -⟩
  · rw [session_taking]
    exact ⟨(hclean e hfetch hkind).silent, hkept⟩
  · -- the row is refused because of a value
    have hfirst := hrefused.first
    rw [if_pos rfl, Instance.refusal?_commitAll] at hfirst
    obtain ⟨entry, -, hentry⟩ := List.exists_of_findSome?_eq_some hfirst
    exact absurd ((hcovers fetched hfetch).kind_refusal hentry) hkind

/-- A deletion sends statements that were all built before. -/
theorem sends_delete_prepared (c : Collection) (i : Instance) (s : Session) :
    (c.delete i).Sends (fun st => ∃ statements,
      (c.prepare (.delete i) s).outcome = .ok statements ∧ st ∈ statements) s := by
  refine .reporting (.bind (.mapping _) fun m s' log hmapping => ?_)
  refine .bindAsk ?_
  dsimp only
  refine .bindTold fun removal hremoval => .leased fun lease pool => ?_
  -- the same steps prepare the statements, which are then sent over a lease
  have hprepared : (c.prepare (.delete i) s).outcome
      = .ok (removal.cascades.map (·.statement) ++ [removal.own]) := by
    show ((c.mapping >>= _) s).outcome = _
    rw [Work.bind_of_ok hmapping, Work.bind_ask]
    dsimp only
    rw [hremoval]
    rfl
  have hsend (st : Statement) (h : st ∈ removal.cascades.map (·.statement) ++ [removal.own]) :
      ∃ statements, (c.prepare (.delete i) s).outcome = .ok statements ∧ st ∈ statements :=
    ⟨_, hprepared, h⟩
  refine .bind (sends_deleteLists lease fun x hx => ?_) fun _ s' log _ => ?_
  · apply hsend
    simp only [List.mem_append, List.mem_map]
    exact .inl ⟨x, hx, rfl⟩
  · apply Work.Sends.execute lease
    apply hsend
    simp

/-! ### Members without a cell -/

/-- An operation fails as its preparation does. -/
theorem outcome_of_prepare (op : Operation) {e : Error}
    (h : (c.prepare op s).outcome = .error e) :
    (c.perform op s).outcome = .error e ∧ (c.perform op s).session.pool = s.pool := by
  have hcarries := carries_perform c op s
  unfold Work.Carries at hcarries
  rw [h] at hcarries
  exact hcarries

/-- A preparation goes on with the mapping of the type. -/
theorem prepare_of_lookup {m : TypeMapping}
    (hm : s.registry.lookup s.model.schema c.entity = .ok m) {p : Work (List Statement)}
    {next : TypeMapping → Work (List Statement)} (hp : p = c.mapping >>= next) :
    ∃ s', s'.dialect = s.dialect ∧ (p s).outcome = (next m s').outcome := by
  subst hp
  have hanswer : (c.mapping s).outcome = .ok m := by
    show (s.registry.lookup s.model.schema c.entity).mapError Error.mapping = _
    rw [hm]
    rfl
  rcases hmapping : c.mapping s with ⟨e | m', s', log⟩
  · rw [hmapping] at hanswer
    cases hanswer
  · obtain ⟨-, rfl⟩ := Work.mapping_eq_ok hmapping
    rw [hmapping] at hanswer
    cases hanswer
    rw [Work.bind_of_ok hmapping]
    exact ⟨{ s with registry := (s.registry.request s.model.schema c.entity).registry }, rfl, rfl⟩

section

variable {m : TypeMapping} (hm : s.registry.lookup s.model.schema c.entity = .ok m)

include hm

/-- An insert names a member that the instance does not have. -/
theorem insert_untracked (h : ¬i.Covers m) :
    ∃ column ∈ m.columns, i.member? column.name = none
      ∧ (c.insert i s).outcome = .error (.collection (.untracked column.name m.entity)) := by
  obtain ⟨s', -, hprepare⟩ := prepare_of_lookup hm (p := c.prepare (.insert i)) rfl
  obtain ⟨column, hcolumn, hnone, hfails⟩ := Instance.insertion_untracked h s'.dialect s'.supply
  refine ⟨column, hcolumn, hnone, ?_⟩
  have hinsertion : insertRow.insertion i m s'
      = ⟨.error (.collection (.untracked column.name m.entity)),
        { s' with supply := (i.insertion m s'.dialect s'.supply).2 }, []⟩ := by
    unfold insertRow.insertion
    dsimp only
    rw [hfails]
    rfl
  rw [Work.bind_of_error hinsertion] at hprepare
  exact Except.map_eq_error.1 (outcome_of_prepare (.insert i) hprepare).1

/-- An update tells of a key that was modified first. -/
theorem update_untracked (h : ¬i.Covers m) :
    (∃ column ∈ m.columns, i.member? column.name = none
        ∧ (c.update i s).outcome = .error (.collection (.untracked column.name m.entity)))
      ∨ ∃ key, i.modifiedKey? m = some key
        ∧ (c.update i s).outcome = .error (.collection (.keyModified key.name m.entity)) := by
  obtain ⟨s', -, hprepare⟩ := prepare_of_lookup hm (p := c.prepare (.update i)) rfl
  rw [Work.bind_ask] at hprepare
  have hupdate {e : Error} (hfails : i.modification m s'.dialect = .error e) :
      (c.update i s).outcome = .error e := by
    rw [hfails] at hprepare
    exact Except.map_eq_error.1 (outcome_of_prepare (.update i) hprepare).1
  cases hkey : i.modifiedKey? m with
  | none =>
    obtain ⟨column, hcolumn, hnone, hfails⟩ := Instance.modification_untracked h hkey s'.dialect
    exact .inl ⟨column, hcolumn, hnone, hupdate hfails⟩
  | some key =>
    refine .inr ⟨key, rfl, hupdate ?_⟩
    unfold Instance.modification
    rw [hkey]

/-- A deletion by a key that the instance does not have fails before it sends anything. -/
theorem delete_untracked {column : ColumnMapping} (hcolumn : column ∈ m.primaryKeys)
    (hnone : i.member? column.name = none) :
    ∃ e, (c.delete i s).outcome = .error e ∧ e.kind ≠ .other := by
  obtain ⟨s', -, hprepare⟩ := prepare_of_lookup hm (p := c.prepare (.delete i)) rfl
  rw [Work.bind_ask] at hprepare
  obtain ⟨e, hfails, hkind⟩ := Instance.removal_untracked hcolumn hnone s'.dialect
  rcases hremoval : i.removal m s'.dialect with ⟨outcome, log⟩
  rw [hremoval] at hprepare hfails
  cases hfails
  exact ⟨e, Except.map_eq_error.1 (outcome_of_prepare (.delete i) hprepare).1, hkind⟩

end

/-- A failure of a class comes before the first statement: the servers are sent nothing, and the
instance that was to be written is as it was. A deletion sends statements that were all built
before, and nothing if one of them was not. A member without a cell is found out by then. -/
theorem classed_failures_send_nothing (c : Collection) (i : Instance) (s : Session) :
    (∀ e, (c.insert i s).outcome = .error e → e.kind ≠ .other →
        s.pool.network.Silent (c.insert i s).session.pool.network
          ∧ (c.insert i s).target = i ∧ (c.insert i s).notified = [])
      ∧ (∀ e, (c.update i s).outcome = .error e → e.kind ≠ .other →
        s.pool.network.Silent (c.update i s).session.pool.network
          ∧ (c.update i s).target = i ∧ (c.update i s).notified = [])
      ∧ (∀ e, (c.delete i s).outcome = .error e → e.kind ≠ .other →
        s.pool.network.Silent (c.delete i s).session.pool.network)
      ∧ (match (c.prepare (.delete i) s).outcome with
        | .error e => (c.delete i s).outcome = .error e
            ∧ s.pool.network.Silent (c.delete i s).session.pool.network
        | .ok statements =>
            s.pool.network.Sent (· ∈ statements) (c.delete i s).session.pool.network)
      ∧ ∀ m, s.registry.lookup s.model.schema c.entity = .ok m →
        (¬i.Covers m → ∃ column ∈ m.columns, i.member? column.name = none
          ∧ (c.insert i s).outcome = .error (.collection (.untracked column.name m.entity)))
        ∧ (¬i.Covers m → (∃ column ∈ m.columns, i.member? column.name = none
            ∧ (c.update i s).outcome = .error (.collection (.untracked column.name m.entity)))
          ∨ ∃ key, i.modifiedKey? m = some key
            ∧ (c.update i s).outcome = .error (.collection (.keyModified key.name m.entity)))
        ∧ ∀ column ∈ m.primaryKeys, i.member? column.name = none →
          ∃ e, (c.delete i s).outcome = .error e ∧ e.kind ≠ .other := by
  refine ⟨fun e he hkind => ?_, fun e he hkind => ?_, fun e he hkind => ?_, ?_, fun m hm => ?_⟩
  · obtain ⟨houtcome, htarget, hnotified⟩ :=
      reported_eq (taking (some <$> c.insertRow i) true i s)
    have hinsert : (c.insert i s).session = (taking (some <$> c.insertRow i) true i s).session
        ∧ (c.insert i s).target = (taking (some <$> c.insertRow i) true i s).target
        ∧ (c.insert i s).notified = (taking (some <$> c.insertRow i) true i s).notified :=
      ⟨session_reported (taking (some <$> c.insertRow i) true i s), htarget, hnotified⟩
    rw [hinsert.1, hinsert.2.1, hinsert.2.2]
    refine clean_taking ?_ (fun fetched hfetched => ?_) ?_ hkind
    · exact (clean_insertRow c i s).before fun row => .pure _
    · rw [Work.outcome_map] at hfetched
      obtain ⟨row, hrow, hsame⟩ := Except.map_eq_ok.1 hfetched
      cases hsame
      exact covers_of_insertRow hrow
    · rw [← houtcome]
      exact Except.map_eq_error.1 he
  · obtain ⟨houtcome, htarget, hnotified⟩ := reported_eq (taking (c.updateRow i) true i s)
    unfold update at he ⊢
    rw [session_reported, htarget, hnotified]
    rw [houtcome] at he
    exact clean_taking (clean_updateRow c i s) (fun _ => covers_of_updateRow) he hkind
  · exact (clean_delete c i s e he hkind).silent
  · split
    · rename_i e hprepared
      obtain ⟨hfails, hpool⟩ := outcome_of_prepare (.delete i) hprepared
      refine ⟨Except.map_eq_error.1 hfails, ?_⟩
      rw [show (c.delete i s).session.pool = s.pool from hpool]
      exact fun name => rfl
    · rename_i statements hprepared
      refine (sends_delete_prepared c i s).mono ?_
      rintro st ⟨built, hbuilt, hst⟩
      rw [hprepared] at hbuilt
      cases hbuilt
      exact hst
  · exact ⟨insert_untracked hm, update_untracked hm, fun column => delete_untracked hm⟩

end Collection

namespace Company

/-- A department without any cells. -/
def bare : Instance := ⟨department, []⟩

end Company

/-- The insert of an instance without members names the first one that is missing. -/
theorem classed_failures_send_nothing_bare :
    let s := Company.answering []
    let inserted := (Company.rows Company.department).insert Company.bare s
    inserted.outcome = .error (.collection (.untracked "id" Company.department))
      ∧ s.pool.network.Silent inserted.session.pool.network
      ∧ inserted.target = Company.bare ∧ inserted.notified = [] := by
  intro s inserted
  have houtcome : inserted.outcome
      = .error (.collection (.untracked "id" Company.department)) := by
    rfl
  obtain ⟨hinsert, -⟩ :=
    Collection.classed_failures_send_nothing (Company.rows Company.department) Company.bare s
  exact ⟨houtcome, hinsert _ houtcome (by decide)⟩

/-- A failure of the server comes behind the statement, and is of no class. -/
example :
    let s := Company.answering [[.failure "deadlock detected"]]
    let deleted := (Company.rows Company.department).delete Company.renumbered s
    deleted.outcome.toOption = none ∧ (Company.ran deleted.session).length = 1 := by
  decide +kernel

end RowMapper
