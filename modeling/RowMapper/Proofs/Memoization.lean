import Mathlib.Data.List.Induction
import Mathlib.Data.List.Nodup
import Mathlib.Data.List.TakeWhile
import RowMapper.Proofs.Resolution
import RowMapper.Sample.Company

/-!
# A registry remembers

A registry takes calls in any order: naming rules are registered, and mappings or members of them
are asked for, under declarations that may change from one call to the next. What it answers does
not depend on what it keeps, but on the calls alone.

* `Registry.rulesOf` are the rules of a run: those registered before a mapping was asked for.
* `Registry.firstResolved` is the first resolution of an entity type that a run led to.
* `Registry.Served` relates a run to the registry after it; each call keeps it.
* `Registry.remembers` says what every call of a run is answered with.
-/

namespace RowMapper

namespace Registry

/-! ## Runs of calls -/

/-- A call of a registry. A mapping is asked for under the declarations of the moment. -/
inductive Call where
  | register (rule : NamingRule)
  | request (schema : Schema) (entity : EntityType)
  | member (schema : Schema) (entity : EntityType) (name : String)

namespace Call

def rule? : Call → Option NamingRule
  | .register rule => some rule
  | .request _ _ | .member _ _ _ => none

/-- The entity type whose mapping is asked for, and the declarations of the moment. -/
def asked? : Call → Option (Schema × EntityType)
  | .register _ => none
  | .request schema e | .member schema e _ => some (schema, e)

end Call

/-- What a call gives. -/
inductive Reply where
  | registered
  | mapping (resolution : Resolution)
  | member (member : MemberMapping)
  deriving DecidableEq

/-- What becomes of a call: its reply, and the registry after it. -/
def serve (r : Registry) : Call → Except MappingError Reply × Registry
  | .register rule =>
    match r.register rule with
    | .ok registered => (.ok .registered, registered)
    | .error cause => (.error cause, r)
  | .request schema e =>
    let answer := r.request schema e
    (answer.outcome.map .mapping, answer.registry)
  | .member schema e name =>
    let answer := r.request schema e
    (answer.outcome.bind fun x => (memberOf x.mapping name).map .member, answer.registry)

/-- The registry after a run of calls, which began with a new one. -/
def after (calls : List Call) : Registry := calls.foldl (fun r call => (r.serve call).2) {}

/-- The rules of a run. -/
def rulesOf (calls : List Call) : List NamingRule :=
  (calls.takeWhile (·.asked?.isNone)).filterMap (·.rule?)

/-- The resolution that a call leads to, if it asks for the entity type. -/
def Call.resolved? (rules : List NamingRule) (e : EntityType) (call : Call) :
    Option TypeMapping :=
  call.asked?.bind fun asked =>
    if asked.2 = e then (resolve asked.1 rules e).toOption else none

/-- The first resolution of an entity type that a run led to. -/
def firstResolved (rules : List NamingRule) (calls : List Call) (e : EntityType) :
    Option TypeMapping :=
  calls.findSome? (·.resolved? rules e)

variable {calls more : List Call} {call : Call} {r : Registry} {schema : Schema}
  {e : EntityType}

theorem after_append (calls : List Call) (call : Call) :
    after (calls ++ [call]) = ((after calls).serve call).2 := by
  unfold after
  rw [List.foldl_append]
  rfl

/-- A call that asks for a type leaves what the request for its mapping leaves. -/
theorem serve_of_asked (h : call.asked? = some (schema, e)) (r : Registry) :
    (r.serve call).2 = (r.request schema e).registry := by
  cases call with
  | register rule => cases h
  | request s t =>
    cases h
    rfl
  | member s t name =>
    cases h
    rfl

/-! ### The rules of a run -/

/-- As long as no mapping was asked for, a rule is one of the rules. -/
theorem rulesOf_append_of_unasked (h : ∀ call ∈ calls, call.asked? = none) (rule : NamingRule) :
    rulesOf (calls ++ [.register rule]) = rulesOf calls ++ [rule] := by
  have hall : ∀ call ∈ calls, call.asked?.isNone := fun call hcall => by rw [h call hcall]; rfl
  have hself : calls.takeWhile (·.asked?.isNone) = calls := List.takeWhile_eq_self_iff.2 hall
  unfold rulesOf
  rw [List.takeWhile_append_of_pos hall, hself, List.filterMap_append]
  rfl

/-- Once a mapping was asked for, the rules are what they are. -/
theorem rulesOf_append_of_asked (h : ∃ call ∈ calls, call.asked? ≠ none) (more : List Call) :
    rulesOf (calls ++ more) = rulesOf calls := by
  obtain ⟨call, hcall, hasked⟩ := h
  have hshort : ¬(calls.takeWhile (·.asked?.isNone)).length = calls.length := by
    intro hlength
    have hself := (List.takeWhile_sublist _).eq_of_length hlength
    have hnone := List.takeWhile_eq_self_iff.1 hself call hcall
    exact hasked (Option.isNone_iff_eq_none.1 hnone)
  unfold rulesOf
  rw [List.takeWhile_append, if_neg hshort]

/-- A call that asks for a mapping adds no rule. -/
theorem rulesOf_append_asking (h : call.asked? ≠ none) (more : List Call) :
    rulesOf (calls ++ call :: more) = rulesOf calls := by
  unfold rulesOf
  rw [List.takeWhile_append]
  split
  · rename_i hlength
    have hself := (List.takeWhile_sublist _).eq_of_length hlength
    rw [List.takeWhile_cons, if_neg (by simpa using h), List.append_nil, hself]
  · rfl

/-! ### First resolutions -/

/-- Where nothing was asked, nothing was resolved. -/
theorem firstResolved_eq_none (h : ∀ call ∈ calls, call.asked? = none)
    (rules : List NamingRule) (e : EntityType) : firstResolved rules calls e = none := by
  refine List.findSome?_eq_none_iff.2 fun call hcall => ?_
  unfold Call.resolved?
  rw [h call hcall]
  rfl

theorem firstResolved_append (rules : List NamingRule) (calls more : List Call)
    (e : EntityType) : firstResolved rules (calls ++ more) e
      = (firstResolved rules calls e).or (firstResolved rules more e) :=
  List.findSome?_append

theorem firstResolved_singleton (rules : List NamingRule) (call : Call) (e : EntityType) :
    firstResolved rules [call] e = call.resolved? rules e := by
  unfold firstResolved
  rw [List.findSome?_cons]
  cases call.resolved? rules e <;> rfl

/-- A call resolves the type that it asks for, if it can be resolved. -/
theorem Call.resolved?_of_asked (h : call.asked? = some (schema, e)) (rules : List NamingRule) :
    call.resolved? rules e = (resolve schema rules e).toOption := by
  unfold resolved?
  rw [h]
  exact if_pos rfl

/-- A call resolves no other type. -/
theorem Call.resolved?_of_ne {t : EntityType} (h : call.asked? = some (schema, t)) (hne : t ≠ e)
    (rules : List NamingRule) : call.resolved? rules e = none := by
  unfold resolved?
  rw [h]
  exact if_neg hne

/-! ## The registry after a run -/

/-- What a registry is after a run: it is frozen if a mapping was asked for, it has the rules of the
run, and of each entity type that was resolved it keeps the first resolution, numbered in the order
in which they came. -/
structure Served (calls : List Call) (r : Registry) : Prop where
  frozen : r.frozen = calls.any (·.asked?.isSome)
  rules : r.rules = rulesOf calls
  kept : ∀ e, (r.kept? e).map (·.mapping) = firstResolved (rulesOf calls) calls e
  serials : r.kept.map (·.serial) = (List.range r.kept.length).reverse

/-- Rules can be added until a mapping is asked for. -/
theorem frozen_iff (h : Served calls r) :
    r.frozen = false ↔ ∀ call ∈ calls, call.asked? = none := by
  rw [h.frozen, List.any_eq_false]
  simp only [Bool.not_eq_true, Option.isSome_eq_false_iff, Option.isNone_iff_eq_none]

/-- A rule is added behind the others, or refused. -/
theorem Served.register (h : Served calls r) (rule : NamingRule) :
    Served (calls ++ [.register rule]) (r.serve (.register rule)).2 := by
  have hfrozen : (calls ++ [Call.register rule]).any (·.asked?.isSome)
      = calls.any (·.asked?.isSome) := by
    rw [List.any_append]
    exact Bool.or_false _
  by_cases hopen : r.frozen = false
  · -- nothing was asked for and nothing is kept
    have hunasked := (frozen_iff h).1 hopen
    have hunasked' : ∀ call ∈ calls ++ [.register rule], call.asked? = none := by
      intro call hcall
      rcases List.mem_append.1 hcall with hcall | hcall
      · exact hunasked call hcall
      · rw [List.mem_singleton.1 hcall]
        rfl
    have hserve : (r.serve (.register rule)).2 = { r with rules := r.rules ++ [rule] } := by
      unfold serve Registry.register
      simp only [hopen, Bool.false_eq_true, ↓reduceIte]
    rw [hserve]
    refine ⟨h.frozen.trans hfrozen.symm, ?_, fun e => ?_, h.serials⟩
    · show r.rules ++ [rule] = _
      rw [rulesOf_append_of_unasked hunasked, h.rules]
    · rw [firstResolved_eq_none hunasked', ← firstResolved_eq_none hunasked (rulesOf calls) e]
      exact h.kept e
  · -- the rule is refused: the rules of the run end before it
    have hasked : ∃ call ∈ calls, call.asked? ≠ none := by
      by_contra hnone
      refine hopen ((frozen_iff h).2 fun call hcall => ?_)
      by_contra hsome
      exact hnone ⟨call, hcall, hsome⟩
    have hserve : (r.serve (.register rule)).2 = r := by
      unfold serve Registry.register
      simp only [Bool.not_eq_false] at hopen
      simp only [hopen, ↓reduceIte]
    have hrules := rulesOf_append_of_asked hasked [.register rule]
    rw [hserve]
    refine ⟨h.frozen.trans hfrozen.symm, h.rules.trans hrules.symm, fun e => ?_, h.serials⟩
    rw [hrules, firstResolved_append, firstResolved_singleton]
    show _ = Option.or _ none
    rw [Option.or_none]
    exact h.kept e

/-- A registry that keeps nothing for a type resolves it afresh. -/
theorem Served.resolved_append (h : Served calls r) (hasked : call.asked? = some (schema, e))
    (absent : r.kept? e = none) (t : EntityType) :
    firstResolved (rulesOf calls) (calls ++ [call]) t
      = if t = e then (resolve schema (rulesOf calls) e).toOption
        else firstResolved (rulesOf calls) calls t := by
  rw [firstResolved_append, firstResolved_singleton]
  split
  · rename_i ht
    subst ht
    rw [← h.kept t, absent, Call.resolved?_of_asked hasked]
    rfl
  · rename_i ht
    rw [Call.resolved?_of_ne hasked fun heq => ht heq.symm, Option.or_none]

/-- A request keeps what it resolves, and nothing if it fails. -/
theorem Served.ask (h : Served calls r) (hasked : call.asked? = some (schema, e)) :
    Served (calls ++ [call]) (r.request schema e).registry := by
  have hsome : call.asked? ≠ none := by
    rw [hasked]
    exact Option.some_ne_none _
  have hfrozen : (calls ++ [call]).any (·.asked?.isSome) = true := by
    rw [List.any_append, List.any_cons, hasked]
    simp
  have hrules : rulesOf (calls ++ [call]) = rulesOf calls := rulesOf_append_asking hsome []
  have hstep := requested schema r e
  generalize r.request schema e = answer at hstep ⊢
  -- of the three ways to answer, only the last one adds to what is kept
  cases hstep with
  | @kept x found =>
    have hkept : r.frozen = true := by
      by_contra hopen
      have hnone := firstResolved_eq_none ((frozen_iff h).1 (by simpa using hopen))
        (rulesOf calls) e
      rw [← h.kept e, found] at hnone
      cases hnone
    refine ⟨hkept.trans hfrozen.symm, h.rules.trans hrules.symm, fun t => ?_, h.serials⟩
    rw [hrules, firstResolved_append, firstResolved_singleton]
    by_cases ht : e = t
    · subst ht
      rw [← h.kept e, found]
      rfl
    · rw [Call.resolved?_of_ne hasked ht, Option.or_none]
      exact h.kept t
  | failed absent failed =>
    refine ⟨hfrozen.symm, h.rules.trans hrules.symm, fun t => ?_, h.serials⟩
    rw [hrules, h.resolved_append hasked absent]
    show (r.kept? t).map (·.mapping) = _
    rw [h.rules] at failed
    split
    · rename_i ht
      rw [ht, absent, failed]
      rfl
    · exact h.kept t
  | @resolved m absent resolved =>
    have hentity : m.entity = e := (resolve_sound resolved).1
    refine ⟨hfrozen.symm, h.rules.trans hrules.symm, fun t => ?_, ?_⟩
    · rw [hrules, h.resolved_append hasked absent]
      rw [h.rules] at resolved
      -- the new resolution stands in front, where it is found for its own type only
      show (List.find? _ (_ :: r.kept)).map _ = _
      rw [List.find?_cons]
      by_cases ht : t = e
      · subst ht
        rw [if_pos rfl, resolved]
        simp only [hentity, beq_self_eq_true]
        rfl
      · have hne : (m.entity == t) = false := by
          rw [hentity]
          exact beq_false_of_ne fun heq => ht heq.symm
        rw [if_neg ht, ← h.kept t]
        simp only [hne]
        rfl
    · show r.kept.length :: r.kept.map (·.serial) = (List.range (r.kept.length + 1)).reverse
      rw [h.serials, List.range_succ, List.reverse_append]
      rfl

theorem served_after (calls : List Call) : Served calls (after calls) := by
  induction calls using List.reverseRecOn with
  | nil => exact ⟨rfl, rfl, fun _ => rfl, rfl⟩
  | append_singleton calls call ih =>
    rw [after_append]
    cases hasked : call.asked? with
    | none =>
      cases call with
      | register rule => exact ih.register rule
      | request schema e => cases hasked
      | member schema e name => cases hasked
    | some asked =>
      rw [serve_of_asked hasked]
      exact ih.ask hasked

/-! ## Answers -/

/-- A mapping that was kept is handed out, whatever is declared now. -/
theorem request_of_kept? {x : Resolution} (h : r.kept? e = some x) (schema : Schema) :
    r.request schema e = ⟨.ok x, r, []⟩ := by
  unfold request
  rw [h]

/-- Nothing is kept for the type, so it is resolved now. -/
theorem outcome_of_absent (absent : r.kept? e = none) (schema : Schema) :
    (r.request schema e).outcome.map (·.mapping) = resolve schema r.rules e := by
  have hstep := requested schema r e
  generalize r.request schema e = answer at hstep ⊢
  cases hstep with
  | kept found =>
    rw [absent] at found
    cases found
  | failed absent failed => exact failed.symm
  | resolved absent resolved => exact resolved.symm

/-- A request is answered with the first resolution of the type, or with a resolution of its own. -/
theorem Served.outcome (h : Served calls r) (schema : Schema) (e : EntityType) :
    (r.request schema e).outcome.map (·.mapping)
      = match firstResolved (rulesOf calls) calls e with
        | some m => .ok m
        | none => resolve schema (rulesOf calls) e := by
  rw [← h.kept e, ← h.rules]
  cases hkept : r.kept? e with
  | none => exact outcome_of_absent hkept schema
  | some x =>
    rw [request_of_kept? hkept schema]
    rfl

/-- What is kept for a type stays there. -/
theorem kept?_serve {x : Resolution} (h : r.kept? e = some x) (call : Call) :
    (r.serve call).2.kept? e = some x := by
  cases hasked : call.asked? with
  | none =>
    cases call with
    | register rule =>
      simp only [serve, Registry.register]
      cases r.frozen with
      | true => exact h
      | false => exact h
    | request schema t => cases hasked
    | member schema t name => cases hasked
  | some asked =>
    obtain ⟨schema, t⟩ := asked
    rw [serve_of_asked hasked]
    have hstep := requested schema r t
    generalize r.request schema t = answer at hstep ⊢
    cases hstep with
    | kept found => exact h
    | failed absent failed => exact h
    | @resolved m absent resolved =>
      have hentity : m.entity = t := (resolve_sound resolved).1
      -- a type that is resolved now was not kept, so it is another one
      have hne : (m.entity == e) = false := by
        rw [hentity]
        refine beq_false_of_ne fun heq => ?_
        rw [heq, h] at absent
        cases absent
      show List.find? _ (_ :: r.kept) = _
      rw [List.find?_cons]
      simp only [hne]
      exact h

/-- What was kept is kept through any further calls. -/
theorem kept?_after {x : Resolution} (h : (after calls).kept? e = some x) (more : List Call) :
    (after (calls ++ more)).kept? e = some x := by
  induction more using List.reverseRecOn with
  | nil => rwa [List.append_nil]
  | append_singleton more call ih =>
    rw [← List.append_assoc, after_append]
    exact kept?_serve ih call

/-- A request that succeeds has its answer kept. -/
theorem kept?_of_outcome {x : Resolution} (h : (r.request schema e).outcome = .ok x) :
    (r.request schema e).registry.kept? e = some x := by
  have hstep := requested schema r e
  generalize r.request schema e = answer at hstep h ⊢
  cases hstep with
  | kept found =>
    cases h
    exact found
  | failed absent failed => cases h
  | @resolved m absent resolved =>
    cases h
    show List.find? _ (_ :: r.kept) = _
    rw [List.find?_cons]
    simp only [(resolve_sound resolved).1, beq_self_eq_true]

/-- A failure keeps nothing, and nothing was kept for the type. -/
theorem kept_of_failed {cause : MappingError} (h : (r.request schema e).outcome = .error cause) :
    (r.request schema e).registry.kept = r.kept ∧ r.kept? e = none := by
  have hstep := requested schema r e
  generalize r.request schema e = answer at hstep h ⊢
  cases hstep with
  | kept found => cases h
  | failed absent failed => exact ⟨rfl, absent⟩
  | resolved absent resolved => cases h

theorem after_asking (hasked : call.asked? = some (schema, e)) :
    after (calls ++ [call]) = ((after calls).request schema e).registry := by
  rw [after_append, serve_of_asked hasked]

/-- A rule is accepted exactly before the first request. -/
theorem serve_register_iff (h : Served calls r) (rule : NamingRule) :
    (r.serve (.register rule)).1 = .ok .registered ↔ ∀ call ∈ calls, call.asked? = none := by
  rw [← frozen_iff h]
  simp only [serve, Registry.register]
  cases r.frozen with
  | true => exact iff_of_false nofun nofun
  | false => exact iff_of_true rfl rfl

/-- A member is found exactly in the mapping that a request yields. -/
theorem serve_member_iff (r : Registry) (schema : Schema) (e : EntityType) (name : String)
    (m : MemberMapping) : (r.serve (.member schema e name)).1 = .ok (.member m)
      ↔ ∃ x, (r.request schema e).outcome = .ok x ∧ x.mapping.member? name = some m := by
  show (r.request schema e).outcome >>= (fun x => (memberOf x.mapping name).map Reply.member) = _
    ↔ _
  rw [Except.bind_eq_ok]
  refine exists_congr fun x => and_congr_right fun _ => ?_
  rw [Except.map_eq_ok]
  unfold memberOf
  cases x.mapping.member? name with
  | none => simp
  | some found => simp

/-- A run of calls in any order, under declarations that may change. Rules are accepted until a
mapping is asked for, be the answer a failure, and are the rules of everything that is resolved.
Of each entity type the first resolution answers from then on, as the same object, and a failure
leaves nothing behind. -/
theorem remembers (calls : List Call) :
    (∀ rule, ((after calls).serve (.register rule)).1 = .ok .registered
        ↔ ∀ call ∈ calls, call.asked? = none)
      ∧ (after calls).frozen = calls.any (·.asked?.isSome)
      ∧ (after calls).rules = rulesOf calls
      ∧ ((after calls).kept.map (·.serial)).Nodup
      ∧ (∀ schema e name m, ((after calls).serve (.member schema e name)).1 = .ok (.member m)
        ↔ ∃ x, ((after calls).request schema e).outcome = .ok x ∧ x.mapping.member? name = some m)
      ∧ ∀ call schema e, call.asked? = some (schema, e) →
        (∀ more, (after (calls ++ call :: more)).rules = rulesOf calls)
          ∧ ((after calls).request schema e).outcome.map (·.mapping)
            = (match firstResolved (rulesOf calls) calls e with
              | some m => .ok m
              | none => resolve schema (rulesOf calls) e)
          ∧ (∀ cause, ((after calls).request schema e).outcome = .error cause →
            (after (calls ++ [call])).kept = (after calls).kept
              ∧ ∀ later, ((after (calls ++ [call])).request later e).outcome.map (·.mapping)
                = resolve later (rulesOf calls) e)
          ∧ ∀ x, ((after calls).request schema e).outcome = .ok x →
            ∀ more later, (after (calls ++ call :: more)).request later e
              = ⟨.ok x, after (calls ++ call :: more), []⟩ := by
  have hserved := served_after calls
  have hserials : ((after calls).kept.map (·.serial)).Nodup := by
    rw [hserved.serials, List.nodup_reverse]
    exact List.nodup_range
  refine ⟨serve_register_iff hserved, hserved.frozen, hserved.rules, hserials,
    serve_member_iff (after calls), fun call schema e hasked => ?_⟩
  have hsome : call.asked? ≠ none := by
    rw [hasked]
    exact Option.some_ne_none _
  refine ⟨fun more => ?_, hserved.outcome schema e, fun cause hcause => ?_,
    fun x hx more later => ?_⟩
  · rw [(served_after _).rules, rulesOf_append_asking hsome]
  · -- the rules stay, and nothing stands in the way of another resolution
    obtain ⟨hkept, habsent⟩ := kept_of_failed hcause
    have hafter := served_after (calls ++ [call])
    have hrules := hafter.rules
    rw [rulesOf_append_asking hsome] at hrules
    rw [after_asking hasked] at hrules ⊢
    refine ⟨hkept, fun later => ?_⟩
    rw [outcome_of_absent ?_ later, hrules]
    unfold kept?
    rw [hkept]
    exact habsent
  · have hkept := kept?_of_outcome hx
    rw [← after_asking hasked] at hkept
    have hstays := kept?_after hkept more
    rw [List.append_assoc, List.singleton_append] at hstays
    exact request_of_kept? hstays later

/-- Departments without a table are refused, which leaves nothing but fixed rules. Then they are
resolved with the one rule there is, and whatever is declared of them later, this is the answer. -/
theorem remembers_redeclared :
    let departments (table : String) : Schema :=
      Company.schema.declare Company.department { table, members := [Company.key .int64] }
    let calls : List Call :=
      [.register (.renames [("departments", "units")] []),
        .request (departments "") Company.department, .register .snakeCase,
        .member (departments "departments") Company.department "id"]
    (∀ rule, ((after calls).serve (.register rule)).1 ≠ .ok .registered)
      ∧ (after (calls.take 2)).kept = []
      ∧ ∃ x : Resolution, x.mapping.table = "units" ∧ x.mapping.columns.map (·.column) = ["id"]
        ∧ ∀ more later, let calls' := calls ++ .request Company.schema Company.department :: more
          (after calls').request later Company.department = ⟨.ok x, after calls', []⟩ := by
  intro departments calls
  have hanswer : ((after calls).request Company.schema Company.department).outcome.toOption.any
      (fun x => x.mapping.table == "units" && x.mapping.columns.map (·.column) == ["id"]) := by
    decide +kernel
  obtain ⟨x, hx, hmapping⟩ := (Option.any_eq_true _ _).1 hanswer
  obtain ⟨htable, hcolumns⟩ : x.mapping.table = "units"
      ∧ x.mapping.columns.map (·.column) = ["id"] := by simpa using hmapping
  have hrefused : ((after [Call.register (.renames [("departments", "units")] [])]).request
      (departments "") Company.department).outcome.isOk = false := by decide +kernel
  obtain ⟨hregister, -, -, -, -, hasks⟩ := remembers calls
  obtain ⟨-, -, -, -, -, hfirst⟩ :=
    remembers [Call.register (.renames [("departments", "units")] [])]
  obtain ⟨-, -, hfailed, -⟩ := hfirst (.request (departments "") Company.department) _ _ rfl
  obtain ⟨-, -, -, hkept⟩ := hasks (.request Company.schema Company.department) _ _ rfl
  refine ⟨fun rule hrule => ?_, ?_, x, htable, hcolumns, hkept x (Except.eq_ok_of_toOption hx)⟩
  · have hunasked := (hregister rule).1 hrule
      (.request (departments "") Company.department) (by simp [calls])
    cases hunasked
  · cases hcause : ((after [Call.register (.renames [("departments", "units")] [])]).request
        (departments "") Company.department).outcome with
    | ok y =>
      rw [hcause] at hrefused
      cases hrefused
    | error cause => exact (hfailed cause hcause).1

end Registry

end RowMapper
