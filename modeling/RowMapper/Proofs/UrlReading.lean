import RowMapper.Proofs.DatabaseKeys
import RowMapper.Proofs.PasswordTexts

/-!
# What is asked of a reader of URLs

A connection string is no more than a URL that was read, so all that keys and masked passwords ask
of the reader is asked here, in one structure. Nothing behind it looks into how a URL is read: two
facts about the URL that comes out, and two about the text that went in.

* `Url.Reading` says that the parts of a URL that is read can be told from each other, and that a
  password is what stands in its place of the text and is read from nowhere else.
* `Url.reading` is the proof that the reader of this library does so.
* `PasswordReplaced` relates the texts that differ in a password only; `Url.Reading.masked_readBy`
  says that they give the same connection string once it is masked.
-/

namespace RowMapper

/-- The texts are the same, or they have different passwords in the same place. -/
inductive PasswordReplaced : String → String → Prop where
  | same (s : String) : PasswordReplaced s s
  | replaced (x : Url.PasswordPlace) {password password' : List Char} :
      x.Takes password → x.Takes password' →
      PasswordReplaced (x.text password) (x.text password')

/-- A connection string, by a reader of URLs. -/
def ConnectionString.readBy (reader : String → Except UrlError Url) (s : String) :
    Except ConnectionStringError ConnectionString :=
  ((reader s).map ConnectionString.mk).mapError .url

namespace Url

/-- What connection strings ask of a reader of URLs. -/
structure Reading (reader : String → Except UrlError Url) : Prop where
  /-- Scheme, host, port and path of a URL that is read are told from each other. -/
  shaped {s : String} {u : Url} : reader s = .ok u → u.Shaped
  /-- The password is read from its place. -/
  password (x : PasswordPlace) {password : List Char} {u : Url} : x.Takes password →
    reader (x.text password) = .ok u → u.password = some (encoded (unbroken password))
  /-- Nothing but the password is read from its place, and no failure tells it. -/
  masked (x : PasswordPlace) {password password' : List Char} : x.Takes password →
    x.Takes password' →
    (reader (x.text password)).map Url.masked = (reader (x.text password')).map Url.masked
  /-- No password is read from anywhere else. -/
  placed {s p : String} {u : Url} : reader s = .ok u → u.password = some p →
    ∃ (x : PasswordPlace) (password : List Char), x.Takes password ∧ s = x.text password

/-- The reader of URLs reads what connection strings ask for. -/
theorem reading : Reading Url.read where
  shaped := shaped_read
  password x _ _ := x.password_read
  masked x _ _ := x.masked_read
  placed := exists_place

namespace Reading

variable {reader : String → Except UrlError Url} {s s' : String} {c c' : ConnectionString}

/-- The URL of a connection string that is read has the shape. -/
theorem shaped_of_readBy (hreader : Reading reader)
    (h : ConnectionString.readBy reader s = .ok c) : c.url.Shaped := by
  unfold ConnectionString.readBy at h
  cases hurl : reader s with
  | error cause =>
    rw [hurl] at h
    cases h
  | ok u =>
    rw [hurl] at h
    cases h
    exact hreader.shaped hurl

/-- Connection strings that are read have one key if their database is the same, or if the path of
the one passes for the database of the other. -/
theorem key_eq_iff (hreader : Reading reader) (h : ConnectionString.readBy reader s = .ok c)
    (h' : ConnectionString.readBy reader s' = .ok c') :
    c.key = c'.key ↔ c.SameDatabase c' ∨ c.PassesFor c' ∨ c'.PassesFor c :=
  ConnectionString.key_eq_iff (hreader.shaped_of_readBy h) (hreader.shaped_of_readBy h')

/-- Another password gives the same connection string once it is masked, and the same failure. -/
theorem masked_readBy (hreader : Reading reader) (h : PasswordReplaced s s') :
    (ConnectionString.readBy reader s).map ConnectionString.masked
      = (ConnectionString.readBy reader s').map ConnectionString.masked := by
  -- masking is a matter of the URL
  have hurl (s : String) : (ConnectionString.readBy reader s).map ConnectionString.masked
      = (((reader s).map Url.masked).map ConnectionString.mk).mapError .url := by
    unfold ConnectionString.readBy
    cases reader s <;> rfl
  cases h with
  | same => rfl
  | replaced x hpassword hpassword' => rw [hurl, hurl, hreader.masked x hpassword hpassword']

/-- Every connection string with a password has texts that differ from its own in the password
only, one for each password that fits in the place. -/
theorem exists_replaced (hreader : Reading reader)
    (h : ConnectionString.readBy reader s = .ok c) {p : String} (hp : c.url.password = some p) :
    ∃ (x : PasswordPlace) (password : List Char), p = encoded (unbroken password)
      ∧ s = x.text password
      ∧ ∀ password', x.Takes password' → PasswordReplaced s (x.text password') := by
  unfold ConnectionString.readBy at h
  cases hurl : reader s with
  | error cause =>
    rw [hurl] at h
    cases h
  | ok u =>
    rw [hurl] at h
    cases h
    obtain ⟨x, password, htakes, rfl⟩ := hreader.placed hurl hp
    have hpassword := hreader.password x htakes hurl
    rw [hp] at hpassword
    exact ⟨x, password, Option.some.inj hpassword, rfl,
      fun password' htakes' => .replaced x htakes htakes'⟩

end Reading

end Url

namespace ConnectionString

/-- Connection strings are read by the reader of URLs. -/
theorem readBy_read (s : String) : readBy Url.read s = read s := by
  unfold readBy read
  cases Url.read s <;> rfl

end ConnectionString

namespace PasswordReplaced

variable {s s' : String}

/-- A connection string with another password is read as the same one once it is masked, or fails in
the same way. -/
theorem masked_read (h : PasswordReplaced s s') :
    (ConnectionString.read s).map ConnectionString.masked
      = (ConnectionString.read s').map ConnectionString.masked := by
  rw [← ConnectionString.readBy_read, ← ConnectionString.readBy_read]
  exact Url.reading.masked_readBy h

/-- A driver that does not take the scheme shows no password either. -/
theorem masked_readFor (h : PasswordReplaced s s') (driver : String) :
    (ConnectionString.readFor driver s).map ConnectionString.masked
      = (ConnectionString.readFor driver s').map ConnectionString.masked := by
  -- the scheme and what is shown are those of the masked connection string
  have hread (s : String) : (ConnectionString.readFor driver s).map ConnectionString.masked
      = ((ConnectionString.read s).map ConnectionString.masked).bind fun c =>
        if c.scheme = driver then .ok c else .error (.scheme c.text c.scheme driver) := by
    unfold ConnectionString.readFor
    cases ConnectionString.read s with
    | error cause => rfl
    | ok c =>
      show Except.map _ (if c.scheme = driver then _ else _) = if c.scheme = driver then _ else _
      split <;> rfl
  rw [hread, hread, h.masked_read]

end PasswordReplaced

end RowMapper
