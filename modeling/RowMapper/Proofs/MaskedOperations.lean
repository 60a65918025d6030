import RowMapper.Proofs.LeaseReturned
import RowMapper.Proofs.Masked

/-!
# Operations on masked sessions

What a collection does in a session is the same when all connection strings are masked, its own
included: it has the same outcome, tells the same and leaves the masked session behind.

* `Work.Masks` says so of a task and its masked counterpart; tasks that hold no connection string
  are their own.
* `Collection.Answer` is all that an operation yields, and `Collection.answer_masked` is about all
  operations.
-/

namespace RowMapper

/-- The session with all connection strings masked. -/
def Session.masked (s : Session) : Session := { s with pool := s.pool.masked }

/-- The end of a task with all connection strings masked. -/
def Reply.masked (r : Reply α) : Reply α := { r with session := r.session.masked }

namespace Work

variable {α β : Type}

/-- The one task does to the masked session what the other does to the session. -/
def Masks (t t' : Work α) : Prop := ∀ s, t' s.masked = (t s).masked

theorem Masks.pure (a : α) : Masks (Pure.pure a : Work α) (Pure.pure a) := fun _ => rfl

theorem Masks.fail (e : Error) : Masks (Work.fail e : Work α) (Work.fail e) := fun _ => rfl

theorem Masks.done (outcome : Except Error α) : Masks (Work.done outcome) (Work.done outcome) :=
  fun _ => rfl

theorem Masks.told (outcome : Except Error α) (log : Log) :
    Masks (Work.told outcome log) (Work.told outcome log) :=
  fun _ => rfl

/-- A question with the same answer in both sessions. -/
theorem Masks.ask {f f' : Session → α} (h : ∀ s, f' s.masked = f s) :
    Masks (Work.ask f) (Work.ask f') := by
  intro s
  show Reply.mk (.ok (f' s.masked)) s.masked [] = _
  rw [h]
  rfl

theorem Masks.bind {t t' : Work α} {f f' : α → Work β} (ht : Masks t t')
    (hf : ∀ a, Masks (f a) (f' a)) : Masks (t >>= f) (t' >>= f') := by
  intro s
  have hfirst := ht s
  rcases hreply : t s with ⟨e | a, s', log⟩
  · rw [hreply] at hfirst
    rw [bind_of_error hreply, bind_of_error hfirst]
    rfl
  · rw [hreply] at hfirst
    rw [bind_of_ok hreply, bind_of_ok hfirst, hf a s']
    rfl

/-- What is reported tells the failure, which has no password. -/
theorem Masks.reporting {t t' : Work α} (h : Masks t t') :
    Masks (Work.reporting t) (Work.reporting t') := by
  intro s
  unfold Work.reporting
  rw [h s]
  rcases t s with ⟨e | a, s', log⟩ <;> rfl

theorem Masks.built (b : Except Error Built) : Masks (Work.built b) (Work.built b) := by
  cases b with
  | error e => exact .fail e
  | ok b => exact .told _ _

/-- Mappings are resolved apart from connections. -/
theorem Masks.mapping (e : EntityType) : Masks (Work.mapping e) (Work.mapping e) := fun _ => rfl

/-- A lease is taken by the masked connection string instead. -/
theorem Masks.leased (url : ConnectionString) {work work' : Lease → Work α}
    (h : ∀ lease, Masks (work lease) (work' lease)) :
    Masks (Work.leased url work) (Work.leased url.masked work') := by
  intro s
  unfold Work.leased
  rw [show s.masked.pool.acquire s.masked.thread url.masked
    = (s.pool.acquire s.thread url).masked from s.pool.acquire_masked s.thread url]
  rcases s.pool.acquire s.thread url with ⟨failure | lease, pool, log⟩
  · rfl
  · have hwork : work' lease { s.masked with pool := pool.masked }
        = (work lease { s with pool }).masked :=
      h lease { s with pool }
    have hreleased := (work lease { s with pool }).session.pool.release_masked lease
    dsimp only [Pool.Acquired.masked]
    rw [hwork, show (work lease { s with pool }).masked.session.pool
      = (work lease { s with pool }).session.pool.masked from rfl, hreleased]
    rfl

/-- A statement runs over the same connection. -/
theorem Masks.run (lease : Lease) (st : Statement) :
    Masks (Work.run lease st) (Work.run lease st) :=
  fun _ => rfl

/-- A statement is executed over the same connection. -/
theorem Masks.execute (lease : Lease) (st : Statement) :
    Masks (Work.execute lease st) (Work.execute lease st) :=
  .bind (.run lease st) fun _ => .done _

/-- A row is read back over a lease of its own, which is acquired in the same way. -/
theorem Masks.readBack (url : ConnectionString) (st : Statement) :
    Masks (Work.readBack url st) (Work.readBack url.masked st) := by
  refine .leased url fun lease => .bind (.run lease st) fun results => ?_
  split
  · exact .fail _
  · exact .pure _

end Work

/-! ## Collections -/

/-- The end of a task that changes an instance, with all connection strings masked. -/
def Written.masked (w : Written α) : Written α := { w with toReply := w.toReply.masked }

/-- The end of a stream with all connection strings masked. -/
def InstanceStream.masked (r : InstanceStream) : InstanceStream :=
  { r with session := r.session.masked }

/-- What is reported of a failed operation is masked already. -/
theorem Written.reported_masked (w : Written α) : w.masked.reported = w.reported.masked := by
  unfold reported
  rw [show w.masked.outcome = w.outcome from rfl]
  cases w.outcome <;> rfl

namespace Collection

/-- The collection with its connection string masked. -/
def masked (c : Collection) : Collection := { c with url := c.url.masked }

variable (c : Collection)

open Work (Masks)

/-- A row is inserted alike. -/
theorem masks_insertRow (i : Instance) : Masks (c.insertRow i) (c.masked.insertRow i) := by
  refine .bind (.mapping c.entity) fun m => .bind ?_ fun st =>
    .bind (.readBack c.url st) fun row => ?_
  · intro s
    exact Masks.built _ { s with supply := _ }
  · cases row with
    | none => exact .fail _
    | some row => exact .pure _

/-- A row is updated alike. -/
theorem masks_updateRow (i : Instance) : Masks (c.updateRow i) (c.masked.updateRow i) := by
  refine .bind (.mapping c.entity) fun m => .bind (.ask fun _ => rfl) fun modification => ?_
  rcases modification with e | _ | built
  · exact .fail e
  · exact .told _ _
  · refine .bind (.built (.ok built)) fun st => .bind (.readBack c.url st) fun row => ?_
    cases row with
    | none => exact .fail _
    | some row => exact .pure _

/-- A row is read alike. -/
theorem masks_readRow (i : Instance) : Masks (c.readRow i) (c.masked.readRow i) := by
  refine .bind (.mapping c.entity) fun m => ?_
  cases i.storedKeys m with
  | error cause => exact .fail _
  | ok keys =>
    exact .bind (.ask fun _ => rfl) fun built => .bind (.built built) fun st =>
      .bind (.readBack c.url st) fun row => .pure _

/-- The row that is taken over is the same one. -/
theorem taking_masked {fetch fetch' : Work (Option Fetched)} (h : Masks fetch fetch')
    (commit : Bool) (i : Instance) (s : Session) :
    taking fetch' commit i s.masked = (taking fetch commit i s).masked := by
  unfold taking
  rw [h s]
  rcases fetch s with ⟨e | _ | fetched, s', log⟩ <;> rfl

/-- An insert leaves the same instance, and the same session but for passwords. -/
theorem insert_masked (i : Instance) (s : Session) :
    c.masked.insert i s.masked = (c.insert i s).masked := by
  have hrow : Masks (some <$> c.insertRow i) (some <$> c.masked.insertRow i) :=
    .bind (c.masks_insertRow i) fun fetched => .pure (some fetched)
  unfold insert
  rw [taking_masked hrow, Written.reported_masked]
  rfl

/-- An update leaves the same instance, and the same session but for passwords. -/
theorem update_masked (i : Instance) (s : Session) :
    c.masked.update i s.masked = (c.update i s).masked := by
  unfold update
  rw [taking_masked (c.masks_updateRow i), Written.reported_masked]

/-- A reload leaves the same instance, and the same session but for passwords. -/
theorem reload_masked (i : Instance) (s : Session) :
    c.masked.reload i s.masked = (c.reload i s).masked := by
  unfold reload
  rw [taking_masked (c.masks_readRow i), Written.reported_masked]

/-- Cascades run over the lease of the deletion. -/
theorem masks_deleteLists (lease : Lease) (deletions : List Instance.ListDeletion) :
    Masks (deleteLists lease deletions) (deleteLists lease deletions) := by
  induction deletions with
  | nil => exact .pure ()
  | cons l rest ih =>
    exact .bind (.execute lease l.statement) fun _ => .bind (.told _ _) fun _ => ih

/-- A deletion goes alike, cascades included. -/
theorem masks_delete (i : Instance) : Masks (c.delete i) (c.masked.delete i) := by
  refine .reporting (.bind (.mapping c.entity) fun m => .bind (.ask fun _ => rfl) fun removal => ?_)
  refine .bind (.told _ _) fun removal => .leased c.url fun lease => ?_
  exact .bind (masks_deleteLists lease removal.cascades) fun _ => .execute lease removal.own

/-- Statements of queries do not depend on the connection. -/
theorem masks_statement (q : Query) : Masks (c.statement q) (c.masked.statement q) :=
  .bind (.mapping c.entity) fun _ => .bind (.ask fun _ => rfl) fun built => .built built

/-- The references that are told of a stream are those of the masked connection string. -/
theorem masks_items (q : Query) (wanted : List (Except String Row) → List (Except String Row)) :
    Masks (c.items q wanted) (c.masked.items q wanted) := by
  refine .bind (c.masks_statement q) fun st => .bind (.mapping c.entity) fun m =>
    .leased c.url fun lease => .bind (.run lease st) fun results =>
      .bind (.ask fun _ => rfl) fun blank => .bind (.ask fun s => ?_) fun references => .told _ _
  exact s.pool.manager.references_masked _

/-- A stream yields the same items. -/
theorem stream_masked (q : Query) (count : Nat) (s : Session) :
    c.masked.stream q count s.masked = (c.stream q count s).masked := by
  unfold stream
  split
  · rfl
  · rw [c.masks_items q (·.take count) s]
    rcases c.items q (·.take count) s with ⟨e | items, s', log⟩
    · have hreferences : s'.masked.references c.masked.url = s'.references c.url :=
        s'.pool.manager.references_masked _
      dsimp only [Reply.masked]
      rw [hreferences]
      rfl
    · rfl

/-- The same rows are fetched. -/
theorem masks_fetchAll (q : Query) : Masks (c.fetchAll q) (c.masked.fetchAll q) :=
  .reporting (.bind (c.masks_items q id) fun _ => .done _)

/-- The same row is fetched, or none. -/
theorem masks_fetchOne (q : Query) : Masks (c.fetchOne q) (c.masked.fetchOne q) := by
  refine .reporting (.bind (c.masks_items _ _) fun items => ?_)
  cases items with
  | nil => exact .pure none
  | cons first rest => exact .done _

/-! ### All operations -/

/-- All that an operation yields, apart from what it tells. -/
inductive Answer where
  | written (outcome : Except Error Bool) (target : Instance) (notified : List String)
  | removed (outcome : Except Error Affected)
  | fetched (outcome : Except Error (List Instance))
  | found (outcome : Except Error (Option Instance))
  | streamed (items : List Streamed)

/-- What an operation yields and tells, and the session after it. -/
def answer (c : Collection) (s : Session) : Operation → Answer × Session × Log
  | .insert i =>
    let w := c.insert i s
    (.written (w.outcome.map fun _ => true) w.target w.notified, w.session, w.log)
  | .update i =>
    let w := c.update i s
    (.written w.outcome w.target w.notified, w.session, w.log)
  | .reload i =>
    let w := c.reload i s
    (.written w.outcome w.target w.notified, w.session, w.log)
  | .delete i =>
    let r := c.delete i s
    (.removed r.outcome, r.session, r.log)
  | .fetchAll q =>
    let r := c.fetchAll q s
    (.fetched r.outcome, r.session, r.log)
  | .fetchOne q =>
    let r := c.fetchOne q s
    (.found r.outcome, r.session, r.log)
  | .find condition =>
    let r := c.find condition s
    (.fetched r.outcome, r.session, r.log)
  | .findOne condition =>
    let r := c.findOne condition s
    (.found r.outcome, r.session, r.log)
  | .stream q count =>
    let r := c.stream q count s
    (.streamed r.items, r.session, r.log)

/-- No operation looks at a password. -/
theorem answer_masked (s : Session) (op : Operation) :
    c.masked.answer s.masked op
      = ((c.answer s op).1, (c.answer s op).2.1.masked, (c.answer s op).2.2) := by
  cases op with
  | insert i => simp only [answer, insert_masked]; rfl
  | update i => simp only [answer, update_masked]; rfl
  | reload i => simp only [answer, reload_masked]; rfl
  | delete i => simp only [answer, c.masks_delete i s]; rfl
  | fetchAll q => simp only [answer, c.masks_fetchAll q s]; rfl
  | fetchOne q => simp only [answer, c.masks_fetchOne q s]; rfl
  | find condition => simp only [answer, find, c.masks_fetchAll _ s]; rfl
  | findOne condition => simp only [answer, findOne, c.masks_fetchOne _ s]; rfl
  | stream q count => simp only [answer, stream_masked]; rfl

end Collection

end RowMapper
