/-!
# Compilation rules

The names of the rules by which expressions become SQL, and the table a dialect keeps of them.
The first entry of the table that accepts a node compiles it. Besides the rules themselves a
table may hold a rule that accepts every node, and a probe that accepts none.
-/

namespace RowMapper

/-- The rules. -/
inductive Rule where
  /-- A lambda is its body. -/
  | lambda
  /-- Equality with NULL. -/
  | nullComparison
  /-- Membership in a list constant. -/
  | membership
  /-- A list constant is one parameter for each of its items. -/
  | collectionConstant
  /-- A referenced entity is its single key. -/
  | entityConstant
  /-- A boolean member that stands for a condition. -/
  | booleanMember
  /-- A single value. -/
  | constant
  /-- A member reached through foreign objects. -/
  | foreignMember
  /-- A member of the row. -/
  | entityMember
  /-- The row itself is its single key. -/
  | parameter
  /-- Conversions do not show. -/
  | convert
  | unary
  | binary
  /-- A comparison of texts in lower case; no standard table holds it. -/
  | lowerLike
  deriving Repr, DecidableEq

namespace Rule

/-- The standard rules, the most specific shapes first. -/
def standard : List Rule :=
  [.lambda, .nullComparison, .membership, .collectionConstant, .entityConstant, .booleanMember,
    .constant, .foreignMember, .entityMember, .parameter, .convert, .unary, .binary]

/-- The name of the rule. -/
def name : Rule → String
  | .lambda => "lambda"
  | .nullComparison => "null comparison"
  | .membership => "membership"
  | .collectionConstant => "collection constant"
  | .entityConstant => "entity constant"
  | .booleanMember => "boolean member"
  | .constant => "constant"
  | .foreignMember => "foreign member"
  | .entityMember => "entity member"
  | .parameter => "parameter"
  | .convert => "convert"
  | .unary => "unary"
  | .binary => "binary"
  | .lowerLike => "lower like"

end Rule

/-- An entry of a rule table. -/
inductive RuleEntry where
  /-- The rule, for the nodes it is made for. -/
  | rule (rule : Rule)
  /-- The rule, for every node. -/
  | always (rule : Rule)
  /-- No node; it only notes what it was asked. -/
  | probe
  deriving Repr, DecidableEq

namespace RuleEntry

/-- The name of the entry. -/
def name : RuleEntry → String
  | .rule r => r.name
  | .always r => r.name
  | .probe => "trace"

/-- The rule that compiles the nodes the entry accepts. -/
def rule? : RuleEntry → Option Rule
  | .rule r | .always r => some r
  | .probe => none

/-- The table of the standard rules. -/
def standard : List RuleEntry := Rule.standard.map .rule

end RuleEntry

end RowMapper
