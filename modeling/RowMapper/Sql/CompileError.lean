import RowMapper.Expr.Inspect
import RowMapper.Mapping.Resolution
import RowMapper.Sql.Rule

/-!
# Why an expression is not compiled

Each failure blames a node of the expression and says what is wrong with it; only a type without
a mapping is the schema's fault.
-/

namespace RowMapper

/-- What is wrong with a node. -/
inductive Defect where
  | noRule
  /-- The rule was made for nodes of another shape. -/
  | shape (rule : Rule)
  | lambdaParameter
  | lambdaEntity (entity root : EntityType)
  | constantKeyCount (found : Nat)
  | emptyKey
  | unbound (name : String) (entity root : EntityType)
  | rowKeyCount (entity : EntityType) (found : Nat)
  /-- The chain of accesses does not start at a row. -/
  | rootless
  | noAccess
  | notForeign (segment : String) (entity : EntityType)
  | listColumn (list : String) (entity : EntityType)
  | unmapped (member : String) (entity : EntityType)
  deriving Repr, DecidableEq

/-- The shape of the nodes a rule is made for. -/
def Rule.shape : Rule → String
  | .lambda => "a lambda"
  | .nullComparison => "a comparison"
  | .membership => "a membership test"
  | .collectionConstant => "a collection"
  | .entityConstant => "an entity constant"
  | .constant => "a constant"
  | .booleanMember | .foreignMember | .entityMember => "a member access"
  | .parameter => "a parameter"
  | .convert => "a conversion"
  | .unary => "a unary operation"
  | .binary | .lowerLike => "a binary operation"

/-- The message about a node. -/
def Defect.message : Defect → String
  | .noRule => "no rule accepts this node"
  | .shape rule => "expected " ++ rule.shape
  | .lambdaParameter => "lambda parameter must be a parameter node"
  | .lambdaEntity entity root =>
    "lambda over " ++ entity.name ++ " used in a statement over " ++ root.name
  | .constantKeyCount found =>
    "entity constants need exactly one key, found " ++ toString found
  | .emptyKey => "referenced entity has an empty key, it must be saved first"
  | .unbound name entity root =>
    "parameter `" ++ name ++ "` of type " ++ entity.name
      ++ " is not bound in a statement over " ++ root.name
  | .rowKeyCount entity found =>
    entity.name ++ " can be compared as a whole only with exactly one key, found "
      ++ toString found
  | .rootless => "member access must start from a lambda parameter"
  | .noAccess => "not a member access"
  | .notForeign segment entity =>
    "`" ++ segment ++ "` of " ++ entity.name ++ " is not a foreign object"
  | .listColumn list entity =>
    "reference list `" ++ list ++ "` of " ++ entity.name ++ " has no column"
  | .unmapped member entity => entity.name ++ " has no mapped member `" ++ member ++ "`"

/-- Why a compilation failed. -/
inductive CompileError where
  /-- A type on the way has no mapping. -/
  | mapping (cause : MappingError)
  | notCompilable (defect : Defect) (node : Expr)
  deriving DecidableEq

end RowMapper
