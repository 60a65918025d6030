import RowMapper.Proofs.Lease.Lifetime
import RowMapper.Proofs.Lease.Operations

/-!
# Pools in operation

What is done with a pool is made of the events of its custody. Time that passes is made of waits,
closings and sweeps (`Pool.Elapses`); an acquire that does not overlap with others is entered and
connects at once. So whatever is done with a pool, there is a custody of it that says who holds what
and where each connection is (`Pool.Operated.custody`), and that no wait passes a closing of.
-/

namespace RowMapper

namespace Custody

variable {origin : Network} {c : Custody} {held : List Lease} {kept : List Connection}
  {q : Pool}

/-- The custody agrees with the leases that are alive and the connections that are kept, and no
acquire is under way. -/
structure Records (origin : Network) (c : Custody) (held : List Lease) (kept : List Connection) :
    Prop where
  timed : Timed origin c
  holders : (c.holders.map (·.got)).Perm (held.map .inl)
  kept : c.kept = kept

/-- Time that passes leaves the holders and the kept connections alone. -/
theorem Records.elapses (h : c.Records origin held kept) (elapses : Pool.Elapses c.pool q) :
    ∃ c' : Custody, c'.pool = q ∧ c'.Records origin held kept := by
  induction elapses with
  | here => exact ⟨c, rfl, h⟩
  | wait _ later punctual ih =>
    obtain ⟨c', rfl, h'⟩ := ih
    have allowed : c'.Allows (.wait _) := later
    exact ⟨_, rfl, h'.timed.step allowed punctual, h'.holders, h'.kept⟩
  | sweep _ ih =>
    obtain ⟨c', rfl, h'⟩ := ih
    have allowed : c'.Allows .sweep := trivial
    refine ⟨_, rfl, h'.timed.step allowed trivial, ?_, h'.kept⟩
    show ((c'.holdersSwept _).map _).Perm _
    rw [got_swept]
    exact h'.holders
  | close _ due ih =>
    obtain ⟨c', rfl, h'⟩ := ih
    have allowed : c'.Allows (.close _) := due
    exact ⟨_, rfl, h'.timed.step allowed trivial, h'.holders, h'.kept⟩

/-- No holder waits, so that nobody shares a connection that is opened. -/
theorem Records.receive_eq (h : c.Records origin held kept) (key : LeaseKey) (d : Connection) :
    c.holders.map (·.receive key d) = c.holders ∧ c.holders.countP (·.waitsFor key) = 0 := by
  have hleases : ∀ x ∈ c.holders, ∃ lease, x.got = .inl lease := by
    intro x hx
    obtain ⟨lease, -, hlease⟩ :=
      List.mem_map.1 (h.holders.mem_iff.1 (List.mem_map_of_mem (f := Holder.got) hx))
    exact ⟨lease, hlease.symm⟩
  constructor
  · refine (List.map_congr_left fun x hx => ?_).trans (List.map_id _)
    obtain ⟨lease, hlease⟩ := hleases x hx
    unfold Holder.receive
    rw [hlease]
    rfl
  · refine List.countP_eq_zero.2 fun x hx => ?_
    obtain ⟨lease, hlease⟩ := hleases x hx
    simp [Holder.waitsFor, hlease]

/-- An acquire that opens a connection is entered and connects at once. -/
theorem Records.connect (h : c.Records origin held kept) {thread : ThreadId} {url : ConnectionString}
    (runs : thread ∉ c.pool.manager.ended) {o : Opening}
    (hgot : c.pool.enter thread url = (.inr o, q)) :
    ∃ c' : Custody, c'.pool = (q.conclude o).2
      ∧ c'.Records origin ((q.conclude o).1.toOption.toList ++ held) kept := by
  -- one call of a pool is two events of the custody, and the holder is added by the first
  have allowed : c.Allows (.enter thread url) := runs
  have hentered := h.timed.step allowed trivial
  have hafter : c.after (.enter thread url) = c.enlist { got := .inr o } q := by
    simp only [after, hgot]
  rw [hafter] at hentered
  generalize hc : c.enlist { got := .inr o } q = c₁ at hentered
  have hpool : c₁.pool = q := by rw [← hc]; rfl
  have hholders : c₁.holders = { got := .inr o } :: c.holders := by rw [← hc]; rfl
  have hkept : c₁.kept = c.kept := by rw [← hc]; rfl
  have hconnecting : c₁.Allows (.connect { got := .inr o }) := by
    refine ⟨?_, rfl⟩
    rw [hholders]
    exact List.mem_cons_self
  have hdone := hentered.step hconnecting trivial
  obtain ⟨-, o', ho, -, -, -, hconnect⟩ := connect_cases hconnecting
  obtain rfl : o = o' := Sum.inr.inj ho
  rcases hconnect with ⟨lease, q', hconclude, hlast⟩ | ⟨cause, q', hconclude, hlast⟩
  · -- the holder has its lease, and nobody else of the key waits
    rw [hlast] at hdone
    rw [hpool] at hconclude
    obtain ⟨hkey, hgeneration, -⟩ := Pool.conclude_of_ok hconclude
    obtain ⟨hothers, hnone⟩ := h.receive_eq o.key lease.connection
    refine ⟨_, ?_, hdone, ?_, hkept.trans h.kept⟩
    · show ({ q' with inUse := _ } : Pool) = _
      have hwaits : Holder.waitsFor o.key { got := .inr o } = true := by
        simp [Holder.waitsFor, Holder.key]
      rw [hholders, List.countP_cons_of_pos hwaits, hnone, hpool, hconclude]
      have hinUse := Pool.conclude_inUse hconclude
      show ({ q' with inUse := lease.connection :: q.inUse } : Pool) = q'
      rw [← hinUse]
    · show ((c₁.holders.map (·.receive o.key lease.connection)).map (·.got)).Perm _
      have hlease : (Holder.receive o.key lease.connection { got := .inr o }).got
          = .inl lease := by
        simp only [Holder.receive, ↓reduceIte]
        rw [← hgeneration, ← hkey]
      rw [hholders, List.map_cons, hothers, List.map_cons, hlease, hconclude]
      exact h.holders.cons _
  · -- a connect that failed takes the holder away again
    rw [hlast] at hdone
    rw [hpool] at hconclude
    refine ⟨_, ?_, hdone, ?_, hkept.trans h.kept⟩
    · rw [hconclude]
      rfl
    · show ((c₁.holders.erase _).map _).Perm _
      rw [hholders, List.erase_cons_head, hconclude]
      exact h.holders

theorem Records.acquire (h : c.Records origin held kept) {thread : ThreadId}
    (runs : thread ∉ c.pool.manager.ended) (url : ConnectionString) :
    ∃ c' : Custody, c'.pool = (c.pool.acquire thread url).pool
      ∧ c'.Records origin ((c.pool.acquire thread url).outcome.toOption.toList ++ held) kept := by
  cases hgot : c.pool.enter thread url with
  | mk got q =>
    cases got with
    | inl lease =>
      obtain ⟨houtcome, hpool⟩ := Pool.acquire_of_shared hgot
      have allowed : c.Allows (.enter thread url) := runs
      have hentered := h.timed.step allowed trivial
      -- the connection of the entry is shared, which is one event
      have hafter : c.after (.enter thread url) = c.enlist { got := .inl lease } q := by
        simp only [after, hgot]
      rw [hafter] at hentered
      refine ⟨_, hpool.symm, hentered, ?_, h.kept⟩
      rw [houtcome]
      exact h.holders.cons _
    | inr o =>
      obtain ⟨houtcome, hpool⟩ := Pool.acquire_of_opening hgot
      rw [houtcome, hpool]
      exact h.connect runs hgot

theorem Records.release (h : c.Records origin held kept) {lease : Lease} (alive : lease ∈ held) :
    ∃ c' : Custody, c'.pool = (c.pool.release lease).1
      ∧ c'.Records origin (held.erase lease) kept := by
  obtain ⟨x, hx, hlease⟩ :=
    List.mem_map.1 (h.holders.mem_iff.2 (List.mem_map_of_mem (f := Sum.inl) alive))
  have allowed : c.Allows (.leave x) := hx
  refine ⟨c.after (.leave x), ?_, h.timed.step allowed trivial, ?_, h.kept⟩
  · show c.pool.drop x = _
    unfold Pool.drop
    rw [hlease]
  · show ((c.holders.erase x).map _).Perm _
    have hholders := (List.perm_cons_erase hx).map (·.got)
    have hheld := (List.perm_cons_erase alive).map (Sum.inl (β := Opening))
    rw [List.map_cons, hlease] at hholders
    rw [List.map_cons] at hheld
    exact (hholders.symm.trans (h.holders.trans hheld)).cons_inv

end Custody

/-- However a pool is operated, there is a custody of it that agrees with what its users hold. -/
theorem Pool.Operated.custody {origin : Network} {p : Pool} {held : List Lease}
    {kept : List Connection} (h : Pool.Operated origin p held kept) :
    ∃ c : Custody, c.pool = p ∧ c.Records origin held kept := by
  -- by what was done with the pool: each operation is one or two events of the custody before it
  induction h with
  | new config hasRuntime => exact ⟨_, rfl, .fresh config hasRuntime, .refl _, rfl⟩
  | acquire _ runs url ih =>
    obtain ⟨c, rfl, hrecords⟩ := ih
    exact hrecords.acquire runs url
  | release _ alive ih =>
    obtain ⟨c, rfl, hrecords⟩ := ih
    exact hrecords.release alive
  | hold _ used ih =>
    obtain ⟨c, rfl, hrecords⟩ := ih
    have allowed : c.Allows (.keep _) := used
    exact ⟨_, rfl, hrecords.timed.step allowed trivial, hrecords.holders,
      congrArg (List.cons _) hrecords.kept⟩
  | @unhold p held kept _ d mem ih =>
    obtain ⟨c, rfl, hrecords⟩ := ih
    have allowed : c.Allows (.letGo d) := by
      rw [← hrecords.kept] at mem
      exact mem
    exact ⟨_, rfl, hrecords.timed.step allowed trivial, hrecords.holders,
      congrArg (List.erase · _) hrecords.kept⟩
  | run _ lease statement ih =>
    obtain ⟨c, rfl, hrecords⟩ := ih
    have allowed : c.Allows (.outside _) := Network.keeps_run _ lease.connection statement
    exact ⟨_, rfl, hrecords.timed.step allowed trivial, hrecords.holders, hrecords.kept⟩
  | sweep _ ih =>
    obtain ⟨c, rfl, hrecords⟩ := ih
    exact hrecords.elapses (.sweep .here)
  | sleep _ milliseconds ih =>
    obtain ⟨c, rfl, hrecords⟩ := ih
    exact hrecords.elapses (Pool.elapses_sleep hrecords.timed.reached.sound.ordered
      hrecords.timed.clocked.timely milliseconds)
  | exit _ thread ih =>
    obtain ⟨c, rfl, hrecords⟩ := ih
    have allowed : c.Allows (.exit thread) := trivial
    exact ⟨_, rfl, hrecords.timed.step allowed trivial, hrecords.holders, hrecords.kept⟩
  | outside _ keeps ih =>
    obtain ⟨c, rfl, hrecords⟩ := ih
    have allowed : c.Allows (.outside _) := keeps
    exact ⟨_, rfl, hrecords.timed.step allowed trivial, hrecords.holders, hrecords.kept⟩

end RowMapper
