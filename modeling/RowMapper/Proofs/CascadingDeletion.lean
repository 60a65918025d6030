import RowMapper.Proofs.CleanFailure
import RowMapper.Proofs.Exchange
import RowMapper.Proofs.StoredRow
import RowMapper.Proofs.WrittenCommands

/-!
# Deletions that cascade

The deletion of an instance first deletes the rows that refer to it by a cascading list. All
statements are built before the first one is sent, so a list that no statement can be built for
leaves everything as it was. Then they run one after the other, up to the first that fails.

* `Instance.removal_cases` says what is built, `Collection.exchanges_remove` what is sent of it.
* `Server.FailsAt` is the first failure in the script of a server.
* `Collection.delete_cascades` is the deletion as a whole.
-/

namespace RowMapper

/-! ## Scripts -/

namespace Server

/-- The server runs as many statements without a failure. -/
def Succeeds (s : Server) (count : Nat) : Prop :=
  ∀ k < count, ∃ affected, (s.answer k).execute = .ok affected

/-- The statement of this position is the first that the server fails. -/
structure FailsAt (s : Server) (k : Nat) (message : String) : Prop where
  before : s.Succeeds k
  failed : (s.answer k).execute = .error message

variable {s s' : Server} {n count k : Nat} {message : String}

/-- A server whose script is shorter by the answers that were taken goes on with those behind. -/
theorem Succeeds.rest (h : s.Succeeds (n + count)) (hanswer : ∀ k, s'.answer k = s.answer (n + k)) :
    s'.Succeeds count := by
  intro k hk
  rw [hanswer k]
  exact h (n + k) (by omega)

theorem FailsAt.rest (h : s.FailsAt (n + k) message)
    (hanswer : ∀ k, s'.answer k = s.answer (n + k)) : s'.FailsAt k message :=
  ⟨h.before.rest hanswer, by rw [hanswer k, h.failed]⟩

theorem Succeeds.congr (h : s.Succeeds count) (hanswer : ∀ k, s'.answer k = s.answer k) :
    s'.Succeeds count := by
  intro k hk
  rw [hanswer k]
  exact h k hk

theorem FailsAt.congr (h : s.FailsAt k message) (hanswer : ∀ k, s'.answer k = s.answer k) :
    s'.FailsAt k message :=
  ⟨h.before.congr hanswer, by rw [hanswer k, h.failed]⟩

end Server

/-! ## What is built -/

/-- All that is sent to remove an instance, in order. -/
def Instance.Removal.statements (removal : Instance.Removal) : List Statement :=
  removal.cascades.map (·.statement) ++ [removal.own]

namespace Instance

variable {i : Instance} {m : TypeMapping} {d : Dialect} {keys : List (ColumnMapping × Value)}

/-- The keys are there if all of them have committed values. -/
theorem exists_storedKeys
    (h : ∀ key ∈ m.primaryKeys, ∃ v, i.committed? key = some v ∧ v.isNull = false) :
    ∃ keys, i.storedKeys m = .ok keys := by
  refine exists_mapM_iff.2 fun key hkey => ?_
  obtain ⟨v, hv, hnull⟩ := h key hkey
  obtain ⟨x, hx, rfl⟩ := Option.map_eq_some_iff.1 hv
  refine ⟨(key, x.cell.committedValue), ?_⟩
  unfold storedKey
  rw [tracked_eq_ok.2 hx]
  exact if_neg (by simpa using hnull)

/-- No list can be deleted from by a composite key. -/
theorem listDeletion_composite (hkeys : keys.length ≠ 1) (l : ListMapping) :
    listDeletion m d keys l = .error (.collection (.compositeKey l.name m.entity)) := by
  unfold listDeletion
  split
  · exact absurd rfl hkeys
  · rfl

/-- By a single key every list can be deleted from whose target has a table. -/
theorem listDeletion_single (hkeys : keys.length = 1) (l : ListMapping) :
    (l.targetTable = "" → listDeletion m d keys l = .error (.statement (.noTable .delete)))
      ∧ (l.targetTable ≠ "" → ∃ built, listDeletion m d keys l = .ok built) := by
  obtain ⟨⟨c, v⟩, rfl⟩ := List.length_eq_one_iff.1 hkeys
  unfold listDeletion
  dsimp only
  refine ⟨fun hnone => ?_, fun htable => ?_⟩
  · unfold deletionBy Command.delete
    rw [hnone]
    rfl
  · obtain ⟨built, hbuilt⟩ :=
      (Command.exists_delete_iff (deletionBy l.targetTable [(l.targetColumn, v)]) d).2 htable
    exact ⟨built, Except.mapError_eq_ok.2 hbuilt⟩

/-- A list that cannot be deleted from is found out. -/
theorem listDeletions_error {P : Error → Prop} {lists : List ListMapping} {l : ListMapping}
    (hl : l ∈ lists) {e : Error} (hfails : listDeletion m d keys l = .error e)
    (hall : ∀ l ∈ lists, ∀ e, listDeletion m d keys l = .error e → P e) :
    ∃ e, (listDeletions m d keys lists).1 = .error e ∧ P e := by
  rw [outcome_listDeletions]
  cases hlists : lists.mapM fun l =>
      (listDeletion m d keys l).map fun built => (⟨l.name, built.statement⟩ : ListDeletion) with
  | error cause =>
    obtain ⟨l', hl', hcause⟩ := exists_of_mapM_eq_error hlists
    exact ⟨cause, rfl, hall l' hl' cause (Except.map_eq_error.1 hcause)⟩
  | ok deletions =>
    obtain ⟨x, hx⟩ := exists_mapM_iff.1 ⟨deletions, hlists⟩ l hl
    rw [hfails] at hx
    cases hx

section

variable (hkeys : i.storedKeys m = .ok keys)

include hkeys

theorem removal_of_error {e : Error}
    (h : (listDeletions m d keys (cascadingLists m)).1 = .error e) :
    (i.removal m d).1 = .error e := by
  unfold removal
  rw [hkeys]
  dsimp only
  split
  · rename_i cause log hlists
    rw [hlists] at h
    cases h
    rfl
  · rename_i deletions log hlists
    rw [hlists] at h
    cases h

theorem exists_removal (htable : m.table ≠ "") {deletions : List ListDeletion}
    (h : (listDeletions m d keys (cascadingLists m)).1 = .ok deletions) :
    ∃ removal, (i.removal m d).1 = .ok removal := by
  obtain ⟨own, hown⟩ := (Command.exists_delete_iff
    (deletionBy m.table (keys.map fun key => (key.1.column, key.2))) d).2 htable
  refine ⟨⟨deletions, own.statement⟩, ?_⟩
  unfold removal
  rw [hkeys]
  dsimp only
  split
  · rename_i cause log hlists
    rw [hlists] at h
    cases h
  · rename_i deletions' log hlists
    rw [hlists] at h
    cases h
    rw [hown]

end

/-- What removes an instance: nothing is built with a cascading list that meets a composite key or
leads to a type without a table. -/
theorem removal_cases (htable : m.table ≠ "")
    (hstored : ∀ key ∈ m.primaryKeys, ∃ v, i.committed? key = some v ∧ v.isNull = false)
    (d : Dialect) :
    (m.primaryKeys.length ≠ 1 → cascadingLists m ≠ [] →
        ∃ name, (i.removal m d).1 = .error (.collection (.compositeKey name m.entity)))
      ∧ (m.primaryKeys.length = 1 → (∃ l ∈ cascadingLists m, l.targetTable = "") →
        (i.removal m d).1 = .error (.statement (.noTable .delete)))
      ∧ ((∀ l ∈ cascadingLists m, m.primaryKeys.length = 1 ∧ l.targetTable ≠ "") →
        ∃ removal, (i.removal m d).1 = .ok removal) := by
  obtain ⟨keys, hkeys⟩ := exists_storedKeys hstored
  have hlength : keys.length = m.primaryKeys.length := (storedKeys_eq_ok hkeys).length_eq.symm
  rw [← hlength]
  refine ⟨fun hcomposite hsome => ?_, fun hsingle hnone => ?_, fun hall => ?_⟩
  · -- every list fails, each by its own name
    have hall : ∀ l ∈ cascadingLists m, ∀ e, listDeletion m d keys l = .error e →
        ∃ name, e = .collection (.compositeKey name m.entity) := by
      intro l _ e he
      rw [listDeletion_composite hcomposite] at he
      cases he
      exact ⟨l.name, rfl⟩
    obtain ⟨l, hl⟩ := List.exists_mem_of_ne_nil _ hsome
    obtain ⟨_, he, name, rfl⟩ := listDeletions_error hl (listDeletion_composite hcomposite l) hall
    exact ⟨name, removal_of_error hkeys he⟩
  · -- lists before the one without a table may be deleted from, but nothing else can fail
    have hall : ∀ l ∈ cascadingLists m, ∀ e, listDeletion m d keys l = .error e →
        e = .statement (.noTable .delete) := by
      intro l _ e he
      obtain ⟨hrefused, hbuilt⟩ := listDeletion_single (m := m) (d := d) hsingle l
      by_cases hl : l.targetTable = ""
      · rw [hrefused hl] at he
        cases he
        rfl
      · obtain ⟨built, hbuilt⟩ := hbuilt hl
        rw [hbuilt] at he
        cases he
    obtain ⟨l, hl, hnoTable⟩ := hnone
    obtain ⟨_, he, rfl⟩ :=
      listDeletions_error hl ((listDeletion_single hsingle l).1 hnoTable) hall
    exact removal_of_error hkeys he
  · have hbuilt : ∃ deletions, (listDeletions m d keys (cascadingLists m)).1 = .ok deletions := by
      rw [outcome_listDeletions]
      refine exists_mapM_iff.2 fun l hl => ?_
      obtain ⟨hsingle, hl'⟩ := hall l hl
      obtain ⟨built, hbuilt⟩ := (listDeletion_single (m := m) (d := d) hsingle l).2 hl'
      exact ⟨_, Except.map_eq_ok.2 ⟨built, hbuilt, rfl⟩⟩
    obtain ⟨deletions, hdeletions⟩ := hbuilt
    exact exists_removal hkeys htable hdeletions

end Instance

namespace Collection

variable {s : Session} {lease : Lease} {server : Server} {k : Nat} {message : String}

/-! ## What is sent -/

/-- After a deletion that succeeds the others take the answers behind its own. -/
theorem exchanges_deleteLists_cons (l : Instance.ListDeletion)
    {rest : List Instance.ListDeletion} {sent : List Statement} {outcome : Except Error Unit}
    (hserver : s.pool.network.find? lease.connection.server = some server)
    (hfirst : ∃ affected, (server.answer 0).execute = .ok affected)
    (hrest : ∀ (s' : Session) (server' : Server),
      s'.pool.network.find? lease.connection.server = some server' →
      (∀ k, server'.answer k = server.answer (1 + k)) →
      (deleteLists lease rest).Exchanges lease.connection s' sent outcome) :
    (deleteLists lease (l :: rest)).Exchanges lease.connection s (l.statement :: sent) outcome := by
  obtain ⟨affected, haffected⟩ := hfirst
  have hexecute := Work.Exchanges.execute l.statement hserver
  rw [haffected] at hexecute
  refine .bind hexecute fun network hsent => .bind (.told _ _ _) fun network' hsame => ?_
  obtain ⟨server', hserver', hanswer⟩ := (hsent.trans hsame).find?_self hserver
  exact hrest _ server' hserver' hanswer

/-- Deletions that all succeed are all sent. -/
theorem exchanges_deleteLists (deletions : List Instance.ListDeletion)
    (hserver : s.pool.network.find? lease.connection.server = some server)
    (hsucceeds : server.Succeeds deletions.length) :
    (deleteLists lease deletions).Exchanges lease.connection s (deletions.map (·.statement))
      (.ok ()) := by
  -- each deletion takes an answer from the script, so session and server are general
  induction deletions generalizing s server with
  | nil => exact .done _ _
  | cons l rest ih =>
    rw [List.length_cons, Nat.add_comm] at hsucceeds
    exact exchanges_deleteLists_cons l hserver (hsucceeds 0 (by omega)) fun s' server' hserver' h =>
      ih hserver' (hsucceeds.rest h)

/-- Of deletions with a failure, the one that fails is the last that is sent. -/
theorem exchanges_deleteLists_error (deletions : List Instance.ListDeletion)
    (hserver : s.pool.network.find? lease.connection.server = some server)
    (hfails : server.FailsAt k message) (hk : k < deletions.length) :
    (deleteLists lease deletions).Exchanges lease.connection s
      ((deletions.map (·.statement)).take (k + 1)) (.error (.server message)) := by
  induction deletions generalizing s server k with
  | nil => cases hk
  | cons l rest ih =>
    cases k with
    | zero =>
      have hexecute := Work.Exchanges.execute l.statement hserver
      rw [hfails.failed] at hexecute
      exact hexecute.bind_error
    | succ k =>
      rw [Nat.add_comm] at hfails
      exact exchanges_deleteLists_cons l hserver (hfails.before 0 (by omega))
        fun s' server' hserver' h => ih hserver' (hfails.rest h) (Nat.lt_of_succ_lt_succ hk)

/-- What a deletion does over its lease. -/
def remove (removal : Instance.Removal) (lease : Lease) : Work Affected := do
  deleteLists lease removal.cascades
  Work.execute lease removal.own

/-- If the rows of all lists are deleted, the own deletion ends as its answer says. -/
theorem exchanges_remove (removal : Instance.Removal)
    (hserver : s.pool.network.find? lease.connection.server = some server)
    (hsucceeds : server.Succeeds removal.cascades.length) :
    (remove removal lease).Exchanges lease.connection s removal.statements
      ((server.answer removal.cascades.length).execute.mapError .server) := by
  refine .bind (exchanges_deleteLists removal.cascades hserver hsucceeds) fun network hsent => ?_
  obtain ⟨server', hserver', hanswer⟩ := hsent.find?_self hserver
  rw [List.length_map] at hanswer
  rw [← Nat.add_zero removal.cascades.length, ← hanswer 0]
  exact .execute removal.own hserver'

/-- The first failure is the last statement that is sent, whichever deletion it is. -/
theorem exchanges_remove_error (removal : Instance.Removal)
    (hserver : s.pool.network.find? lease.connection.server = some server)
    (hfails : server.FailsAt k message) (hk : k < removal.statements.length) :
    (remove removal lease).Exchanges lease.connection s (removal.statements.take (k + 1))
      (.error (.server message)) := by
  have hlength : removal.statements.length = removal.cascades.length + 1 := by
    simp [Instance.Removal.statements]
  by_cases hown : k = removal.cascades.length
  · -- the own deletion fails, and everything was sent
    have hremove := exchanges_remove removal hserver (hown ▸ hfails.before)
    rw [← hown, hfails.failed] at hremove
    rwa [List.take_of_length_le (by omega)]
  · -- the rows of a list stay, so the own deletion is not reached
    have hlist : k < removal.cascades.length := by omega
    have hsent : removal.statements.take (k + 1)
        = (removal.cascades.map (·.statement)).take (k + 1) :=
      List.take_append_of_le_length (by simpa using Nat.succ_le_iff.2 hlist)
    rw [hsent]
    exact (exchanges_deleteLists_error removal.cascades hserver hfails hlist).bind_error

variable {c : Collection} {i : Instance} {m : TypeMapping}

/-- A deletion goes on from the mapping with what it builds. -/
theorem delete_of_lookup (hr : Registry.Reached s.model.schema s.registry)
    (hm : s.registry.lookup s.model.schema c.entity = .ok m) (i : Instance) :
    (∀ e, (i.removal m s.dialect).1 = .error e →
        (c.delete i s).outcome = .error e ∧ (c.delete i s).session.pool = s.pool)
      ∧ ∀ removal, (i.removal m s.dialect).1 = .ok removal → ∃ start, s.Asked start
        ∧ (c.delete i s).outcome = (Work.leased c.url (remove removal) start).outcome
        ∧ (c.delete i s).session = (Work.leased c.url (remove removal) start).session := by
  obtain ⟨start, log, hstart, hmapping⟩ := Work.mapping_of_lookup hr hm
  have hmapping : c.mapping s = ⟨.ok m, start, log⟩ := hmapping
  obtain ⟨-, hdialect, hpool⟩ := hstart.kept
  unfold delete
  rw [Work.outcome_reporting, Work.session_reporting, Work.outcome_bind hmapping,
    Work.session_bind hmapping, Work.bind_ask, hdialect]
  rcases i.removal m s.dialect with ⟨cause | removal, told⟩
  · refine ⟨fun e he => ?_, fun removal h => ?_⟩
    · cases he
      exact ⟨rfl, hpool⟩
    · cases h
  · refine ⟨fun e he => ?_, fun removal h => ?_⟩
    · cases he
    · cases h
      have htold : Work.told (.ok removal) told start = ⟨.ok removal, start, told⟩ := rfl
      exact ⟨start, hstart, Work.outcome_bind htold, Work.session_bind htold⟩

/-- What is done over a connection that is there is sent and ends the deletion. -/
theorem delete_of_opens (hr : Registry.Reached s.model.schema s.registry)
    (hm : s.registry.lookup s.model.schema c.entity = .ok m) {removal : Instance.Removal}
    (hbuilt : (i.removal m s.dialect).1 = .ok removal) (hopens : s.Opens c.url lease server)
    {sent : List Statement} {outcome : Except Error Affected}
    (hremove : ∀ (s' : Session) (server' : Server),
      s'.pool.network.find? lease.connection.server = some server' →
      (∀ k, server'.answer k = server.answer k) →
      (remove removal lease).Exchanges lease.connection s' sent outcome) :
    (c.delete i s).outcome = outcome ∧ s.Sends c.url lease sent (c.delete i s).session := by
  obtain ⟨start, hstart, houtcome, hsession⟩ := (delete_of_lookup hr hm i).2 removal hbuilt
  rw [houtcome, hsession]
  refine And.imp_right hstart.sends
    (Work.leased_of_opens (P := (· = outcome)) (hstart.opens hopens) fun s' _ hserver => ?_)
  obtain ⟨server', hserver, hanswer⟩ := hserver
  exact ⟨outcome, rfl, hremove s' server' hserver hanswer⟩

/-- An instance with committed keys is deleted in cascades, under any mapping that was accepted.
Nothing is sent if there are cascading lists for a composite key, or if the target of one of them
has no table. Otherwise there is a deletion for each cascading list, in order, of the rows that
refer to the committed key, and then the own one, all over a single lease. If one of them fails, it
is the last that was sent, and its failure is returned; if none does, the counts are those of the
own one. -/
theorem delete_cascades (c : Collection) (i : Instance) {s : Session} {m : TypeMapping}
    (hr : Registry.Reached s.model.schema s.registry)
    (hm : s.registry.lookup s.model.schema c.entity = .ok m)
    (hstored : ∀ key ∈ m.primaryKeys, ∃ v, i.committed? key = some v ∧ v.isNull = false) :
    let lists := Instance.cascadingLists m
    let deleted := c.delete i s
    (m.primaryKeys.length ≠ 1 → lists ≠ [] →
        (∃ e, deleted.outcome = .error e ∧ e.kind = .configuration)
          ∧ deleted.session.pool = s.pool)
      ∧ (m.primaryKeys.length = 1 → (∃ l ∈ lists, l.targetTable = "") →
        (∃ e, deleted.outcome = .error e ∧ e.kind = .statementState)
          ∧ deleted.session.pool = s.pool)
      ∧ ((∀ l ∈ lists, m.primaryKeys.length = 1 ∧ l.targetTable ≠ "") →
        ∀ lease server, s.Opens c.url lease server →
        ∃ referring own,
          List.Forall₂ (fun l st => i.DeletesReferring m l s.dialect st) lists referring
            ∧ i.Deletes m s.dialect own
            ∧ (∀ k message, k ≤ referring.length → server.FailsAt k message →
              deleted.outcome = .error (.server message)
                ∧ s.Sends c.url lease ((referring ++ [own]).take (k + 1)) deleted.session)
            ∧ ∀ affected, server.Succeeds referring.length →
              (server.answer referring.length).execute = .ok affected →
              deleted.outcome = .ok affected
                ∧ s.Sends c.url lease (referring ++ [own]) deleted.session) := by
  intro lists deleted
  obtain ⟨htable, -⟩ := hr.accepted hm
  obtain ⟨hcomposite, hnoTable, hremoval⟩ := Instance.removal_cases htable hstored s.dialect
  obtain ⟨hrefused, -⟩ := delete_of_lookup hr hm i
  refine ⟨fun hlength hsome => ?_, fun hsingle hnone => ?_, fun hall lease server hopens => ?_⟩
  · obtain ⟨name, hcause⟩ := hcomposite hlength hsome
    obtain ⟨houtcome, hpool⟩ := hrefused _ hcause
    exact ⟨⟨_, houtcome, rfl⟩, hpool⟩
  · obtain ⟨houtcome, hpool⟩ := hrefused _ (hnoTable hsingle hnone)
    exact ⟨⟨_, houtcome, rfl⟩, hpool⟩
  · -- all statements are there before the lease is asked for
    obtain ⟨removal, hbuilt⟩ := hremoval hall
    obtain ⟨hreferring, hown⟩ := Instance.removal_deletes hbuilt
    refine ⟨removal.cascades.map (·.statement), removal.own,
      List.forall₂_map_right_iff.2 hreferring, hown, fun k message hk hfails => ?_,
      fun affected hsucceeds hlast => ?_⟩
    · have hposition : k < removal.statements.length := by
        simpa [Instance.Removal.statements, Nat.lt_succ_iff] using hk
      exact delete_of_opens hr hm hbuilt hopens fun s' server' hserver hanswer =>
        exchanges_remove_error removal hserver (hfails.congr hanswer) hposition
    · rw [List.length_map] at hsucceeds hlast
      refine delete_of_opens hr hm hbuilt hopens fun s' server' hserver hanswer => ?_
      have hremove := exchanges_remove removal hserver (hsucceeds.congr hanswer)
      rwa [hanswer, hlast] at hremove

end Collection

/-- The employees of a department are deleted before it, and the counts are its own. If they cannot
be deleted, the department is not tried. -/
theorem delete_cascades_renumbered :
    let m := Company.mapping Company.department
    let deletion (answers : List Results) :=
      (Company.rows Company.department).delete Company.renumbered (Company.answering answers)
    let deleted := deletion [[.affected { rows := 2 }], [.affected { rows := 1 }]]
    let refused := deletion [[.failure "locked"]]
    let employees : Statement :=
      ⟨"DELETE FROM \"employees\" WHERE \"department_id\" = @p0;", [.of (.int64 3)]⟩
    let own : Statement := ⟨"DELETE FROM \"departments\" WHERE \"id\" = @p0;", [.of (.int64 3)]⟩
    (Instance.cascadingLists m).length = 1
      ∧ deleted.outcome = .ok { rows := 1 } ∧ Company.ran deleted.session = [employees, own]
      ∧ refused.outcome = .error (.server "locked")
      ∧ Company.ran refused.session = [employees] := by
  intro m deletion deleted refused employees own
  have hm : (Registry.lookup {} Company.schema Company.department).toOption = some m := by
    decide +kernel
  have hlists : (Instance.cascadingLists m).length = 1 := by decide +kernel
  have hdeletion (answers : List Results) := Collection.delete_cascades
    (s := Company.answering answers) (Company.rows Company.department) Company.renumbered .new
    (Except.eq_ok_of_toOption hm) (by decide +kernel)
  have hdeletable : ∀ l ∈ Instance.cascadingLists m,
      m.primaryKeys.length = 1 ∧ l.targetTable ≠ "" := by
    decide +kernel
  refine ⟨hlists, ?_, by decide +kernel, ?_, by decide +kernel⟩
  · obtain ⟨lease, hopens⟩ := Company.opens_answering
      [[.affected { rows := 2 }], [.affected { rows := 1 }]] Company.department
    obtain ⟨referring, own, hreferring, -, -, hsucceeds⟩ :=
      (hdeletion _).2.2 hdeletable lease _ hopens
    rw [← hreferring.length_eq, hlists] at hsucceeds
    refine (hsucceeds { rows := 1 } (fun k hk => ?_) rfl).1
    obtain rfl : k = 0 := by omega
    exact ⟨_, rfl⟩
  · obtain ⟨lease, hopens⟩ := Company.opens_answering [[.failure "locked"]] Company.department
    obtain ⟨referring, own, -, -, hfails, -⟩ := (hdeletion _).2.2 hdeletable lease _ hopens
    exact (hfails 0 "locked" (Nat.zero_le _) ⟨fun k hk => absurd hk (Nat.not_lt_zero k), rfl⟩).1

namespace Company

/-- A shelf, whose books are deleted with it. -/
def shelf : EntityType := ⟨"Shelf"⟩

/-- A book, which has no table. -/
def book : EntityType := ⟨"Book"⟩

/-- A model of shelves and books. -/
def library : Model :=
  ⟨⟨[(shelf,
        { table := "shelves"
          members := [key .int64,
            .list
              { name := "books"
                target := book
                targetField := "shelf"
                cascade := .deleteOnly }] }),
      (book, { table := "", members := [key .int64, reference "shelf" "shelf_id" shelf] })]⟩,
    [(shelf, [("id", .required .int64)])]⟩

end Company

/-- A shelf has a single key, a committed one, and a cascading list, but its books have no table to
be deleted from. So the shelf is not deleted, over a connection that is there and to a server that
fails nothing. -/
theorem shelf_of_nameless_books_is_kept :
    let s := Company.session Company.library
    let i := Company.library.newInstance Company.shelf
    let deleted := (Company.rows Company.shelf).delete i s
    (∃ m, s.registry.lookup s.model.schema Company.shelf = .ok m
        ∧ m.primaryKeys.length = 1
        ∧ (∀ key ∈ m.primaryKeys, ∃ v, i.committed? key = some v ∧ v.isNull = false)
        ∧ Instance.cascadingLists m ≠ [])
      ∧ (∃ lease server, s.Opens (Company.rows Company.shelf).url lease server
        ∧ ∀ count, server.Succeeds count)
      ∧ (∃ e, deleted.outcome = .error e ∧ e.kind = .statementState)
      ∧ Company.ran deleted.session = [] := by
  intro s i deleted
  refine ⟨?_, ⟨_, { name := "srv" }, ⟨rfl, rfl⟩, fun count k _ => ⟨{}, ?_⟩⟩,
    ⟨.statement (.noTable .delete), ?_, rfl⟩, by decide +kernel⟩
  · obtain ⟨m, hm⟩ : ∃ m, (s.registry.lookup s.model.schema Company.shelf).toOption = some m :=
      Option.isSome_iff_exists.1 (by decide +kernel)
    have hfacts : ∀ m ∈ (s.registry.lookup s.model.schema Company.shelf).toOption,
        m.primaryKeys.length = 1
          ∧ (∀ key ∈ m.primaryKeys, ∃ v, i.committed? key = some v ∧ v.isNull = false)
          ∧ Instance.cascadingLists m ≠ [] := by
      decide +kernel
    exact ⟨m, Except.eq_ok_of_toOption hm, hfacts m hm⟩
  · rfl
  · decide +kernel

end RowMapper
