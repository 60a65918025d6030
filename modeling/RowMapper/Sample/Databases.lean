import RowMapper.Server

/-!
# The databases of a company

A database that can be reached, and one whose server refuses new connections.
-/

namespace RowMapper

namespace Company

/-- The database of the staff. -/
def staff : ConnectionString :=
  ⟨{ scheme := Server.scheme, hasAuthority := true, host := some (.name "staff"), path := "/db" }⟩

/-- The database of those who left. -/
def archive : ConnectionString :=
  ⟨{ scheme := Server.scheme, hasAuthority := true, host := some (.name "archive"), path := "/db" }⟩

/-- The servers of both. -/
def network : Network :=
  { servers := [{ name := "staff" }, { name := "archive", refusing := true }] }

end Company

end RowMapper
