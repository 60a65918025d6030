import RowMapper.Mapping.Declaration

/-!
# Failures of collections

What can go wrong between an instance and its row, apart from building the statement and running
it.
-/

namespace RowMapper

/-- Why an operation of a collection fails. -/
inductive CollectionError where
  /-- The key of a stored row was assigned. -/
  | keyModified (key : String) (entity : EntityType)
  /-- The instance has no key to find its row by. -/
  | emptyKey (key : String) (entity : EntityType)
  /-- The type is queried by force only. -/
  | onlyForced (entity : EntityType)
  /-- Rows that refer to the instance cannot be found by a composite key. -/
  | compositeKey (list : String) (entity : EntityType)
  /-- The member is declared but has no cell. -/
  | untracked (member : String) (entity : EntityType)
  | notInserted (table : String)
  | notFound (table : String)
  deriving Repr, DecidableEq

/-- The message of the failure. -/
def CollectionError.message : CollectionError → String
  | .keyModified key entity =>
    "Key `" ++ key ++ "` of " ++ entity.name
      ++ " was modified, the key of a stored row cannot be updated"
  | .emptyKey key entity => "Key `" ++ key ++ "` of " ++ entity.name ++ " is empty"
  | .onlyForced entity => entity.name ++ " can only be queried with force()"
  | .compositeKey list entity =>
    "Reference list `" ++ list ++ "` requires " ++ entity.name ++ " to have a single key"
  | .untracked member entity =>
    entity.name ++ " declares `" ++ member ++ "` but does not expose it as a tracked field"
  | .notInserted table => "INSERT into `" ++ table ++ "` did not return the inserted row"
  | .notFound table => "UPDATE of `" ++ table ++ "` did not find the row"

end RowMapper
