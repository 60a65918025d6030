import RowMapper.Log
import RowMapper.Mapping.Resolution

/-!
# Mapping registry

The registry keeps the naming rules and the mappings resolved so far. Rules are accepted until
the first request for a mapping, even one that fails; from then on the registry is frozen. A
mapping is resolved once: later requests get the same resolution. A failure is not kept.
-/

namespace RowMapper

/-- A mapping and the number of the resolution it came from. -/
structure Resolution where
  serial : Nat
  mapping : TypeMapping
  deriving Repr, DecidableEq

/-- The naming rules, whether they are fixed, and the resolutions kept, latest first. -/
structure Registry where
  rules : List NamingRule := []
  frozen : Bool := false
  kept : List Resolution := []

namespace Registry

/-- The resolution kept for an entity type. -/
def kept? (r : Registry) (e : EntityType) : Option Resolution :=
  r.kept.find? (·.mapping.entity == e)

/-- Adds a rule behind the others. -/
def register (r : Registry) (rule : NamingRule) : Except MappingError Registry :=
  if r.frozen then .error .frozen else .ok { r with rules := r.rules ++ [rule] }

/-- The registry after its first request. -/
def freeze (r : Registry) : Registry := { r with frozen := true }

/-- What is told of the first request. -/
def freezeLog (r : Registry) : Log :=
  if r.frozen then []
  else [.debug ("Mapping registry frozen with " ++ toString r.rules.length ++ " rule(s)")]

/-- The answer to a request: its outcome, the registry after it and what it logged. -/
structure Answer where
  outcome : Except MappingError Resolution
  registry : Registry
  log : Log

/-- Requests the mapping of an entity type. -/
def request (r : Registry) (schema : Schema) (e : EntityType) : Answer :=
  match r.kept? e with
  | some resolution => ⟨.ok resolution, r, []⟩
  | none =>
    match resolve schema r.rules e with
    | .error cause => ⟨.error cause, r.freeze, r.freezeLog⟩
    | .ok mapping =>
      let resolution : Resolution := ⟨r.kept.length, mapping⟩
      ⟨.ok resolution, { r.freeze with kept := resolution :: r.kept }, r.freezeLog⟩

/-- The mapping of an entity type as a request would answer it now. -/
def lookup (r : Registry) (schema : Schema) (e : EntityType) : Except MappingError TypeMapping :=
  (r.request schema e).outcome.map (·.mapping)

/-- A member of the mapping. -/
def memberOf (mapping : TypeMapping) (member : String) : Except MappingError MemberMapping :=
  match mapping.member? member with
  | some m => .ok m
  | none => .error (.noMember mapping.entity member)

end Registry

/-- The mappings of all entity types, each resolved or with its defect. -/
abbrev Mappings := EntityType → Except MappingError TypeMapping

end RowMapper
