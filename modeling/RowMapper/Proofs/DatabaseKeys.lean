import RowMapper.ConnectionString
import RowMapper.Proofs.HostTexts
import RowMapper.Proofs.PasswordTexts

/-!
# Databases and their keys

The key of a connection string is scheme, host, port and path, one behind the other, with two
slashes behind the scheme. Every part can be told from the next one as long as the path is empty or
starts with a slash: a scheme has no colon, a host no slash, and what follows the last colon of a
host with one is no number.

A URL without an authority can have any other path, too. Behind the two slashes of the key such a
path passes for an authority. So a URL of this form has the key of the other database that its path
names, besides that of its own.

* `Url.Shaped` is what holds of every URL that is read.
* `ConnectionString.key_eq_iff` says which connection strings have one key.
-/

namespace RowMapper

/-! ## Cuts -/

section Cuts

variable {α : Type} {a b x y : List α} {mark : α}

/-- The rest is empty or begins with the mark. -/
def StartsAt (mark : α) (x : List α) : Prop := ∀ c ∈ x.head?, c = mark

/-- A text is cut in one way only before the first mark. -/
theorem append_inj_of_startsAt (ha : mark ∉ a) (hb : mark ∉ b) (hx : StartsAt mark x)
    (hy : StartsAt mark y) (h : a ++ x = b ++ y) : a = b ∧ x = y := by
  -- along both texts: where one ends first, its rest starts with the mark, which the other has not
  induction a generalizing b with
  | nil =>
    cases b with
    | nil => exact ⟨rfl, h⟩
    | cons c b =>
      rw [List.nil_append] at h
      rw [h] at hx
      exact absurd (hx c rfl ▸ List.mem_cons_self) hb
  | cons c a ih =>
    cases b with
    | nil =>
      rw [List.nil_append] at h
      rw [← h] at hy
      exact absurd (hy c rfl ▸ List.mem_cons_self) ha
    | cons d b =>
      obtain ⟨rfl, htail⟩ := List.cons.inj h
      obtain ⟨rfl, rfl⟩ := ih (fun hmem => ha (List.mem_cons_of_mem _ hmem))
        (fun hmem => hb (List.mem_cons_of_mem _ hmem)) htail
      exact ⟨rfl, rfl⟩

end Cuts

namespace Url

/-! ## Hosts and ports -/

/-- A port behind its colon. -/
def portChars (port : Option Nat) : List Char :=
  match port with
  | none => []
  | some n => ':' :: (toString n).toList

/-- The text of a port is empty, or its number behind a colon. -/
theorem portText_toList (u : Url) : u.portText.toList = portChars u.port := by
  unfold portText portChars
  cases u.port <;> simp

/-- What stands before a port belongs to it, or is all of it. -/
theorem eq_portChars_of_append {front : List Char} {port port' : Option Nat}
    (h : portChars port = front ++ portChars port') :
    front = [] ∨ port' = none ∧ ∃ n, front = portChars (some n) := by
  cases port with
  | none => exact .inl (List.append_eq_nil_iff.1 h.symm).1
  | some n =>
    cases front with
    | nil => exact .inl rfl
    | cons c front =>
      obtain ⟨rfl, hdigits⟩ := List.cons.inj h
      cases port' with
      | none =>
        have hfront : (toString n).toList = front := hdigits.trans (List.append_nil front)
        exact .inr ⟨rfl, n, by rw [portChars, hfront]⟩
      | some m =>
        have hcolon : ':' ∈ (toString n).toList := by
          rw [hdigits]
          exact List.mem_append_right _ List.mem_cons_self
        exact absurd rfl (unmarked_toString n _ hcolon).2

/-- The text of a port tells it. -/
theorem portChars_inj {port port' : Option Nat} (h : portChars port = portChars port') :
    port = port' := by
  cases port <;> cases port'
  · rfl
  · cases h
  · cases h
  · have hdigits := (List.cons.inj h).2
    rw [Nat.toString_eq_repr, Nat.toString_eq_repr, Nat.toList_repr, Nat.toList_repr] at hdigits
    have hnumber := congrArg (Nat.ofDigitChars 10 · 0) hdigits
    rw [Nat.ofDigitChars_ten_toDigits, Nat.ofDigitChars_ten_toDigits] at hnumber
    rw [hnumber]

/-- The text of a port has no slash. -/
theorem unslashed_portChars (port : Option Nat) : '/' ∉ portChars port := by
  cases port with
  | none => exact List.not_mem_nil
  | some n =>
    intro hslash
    rcases List.mem_cons.1 hslash with hcolon | hdigit
    · cases hcolon
    · exact (unmarked_toString n _ hdigit).1 rfl

/-- No host ends like a host with a port behind it. -/
theorem HostText.ne_append_port {host : List Char} (h : HostText host) (front : List Char)
    (n : Nat) : host ≠ front ++ portChars (some n) := by
  rintro rfl
  have hlast := h.closed (List.mem_append_right _ List.mem_cons_self)
  have hport : portChars (some n) ≠ [] := List.cons_ne_nil _ _
  rw [List.getLast?_append_of_ne_nil _ hport] at hlast
  have hbracket := List.mem_of_getLast? hlast
  rcases List.mem_cons.1 hbracket with hcolon | hdigit
  · cases hcolon
  · rw [Nat.toString_eq_repr, Nat.toList_repr] at hdigit
    have hdigit : (']' : Char).isDigit = true :=
      Nat.isDigit_of_mem_toDigits (by omega) (by omega) hdigit
    cases hdigit

/-- Host and port are told apart. -/
theorem HostText.append_port_inj {host host' : List Char} (h : HostText host) (h' : HostText host')
    {port port' : Option Nat} (heq : host ++ portChars port = host' ++ portChars port') :
    host = host' ∧ port = port' := by
  rcases List.append_eq_append_iff.1 heq with ⟨front, hhost, hport⟩ | ⟨front, hhost, hport⟩ <;>
    rcases eq_portChars_of_append hport with rfl | ⟨-, n, rfl⟩
  · rw [List.append_nil] at hhost
    exact ⟨hhost.symm, portChars_inj hport⟩
  · exact absurd hhost (h'.ne_append_port host n)
  · rw [List.append_nil] at hhost
    exact ⟨hhost, (portChars_inj hport).symm⟩
  · exact absurd hhost (h.ne_append_port host' n)

/-! ## URLs that are read -/

/-- What holds of the parts of a URL that is read: the scheme has no colon, without a host there is
no port, and behind a host the path is empty or starts with a slash. -/
structure Shaped (u : Url) : Prop where
  scheme : ':' ∉ u.scheme.toList
  host : ∀ h, u.host = some h → HostText h.text.toList
  port : u.host = none → u.port = none
  path : u.host ≠ none → StartsAt '/' u.path.toList

/-- A path of segments starts with a slash. -/
theorem startsAt_rooted (segments : List String) : StartsAt '/' (rooted segments).toList := by
  intro c hc
  rw [rooted, String.toList_append] at hc
  cases hc
  rfl

/-- Behind an authority, a path is empty or starts with a slash. -/
theorem startsAt_pathBehindAuthority (cls : SchemeClass) (cs : List Char) :
    StartsAt '/' (pathBehindAuthority cls cs).toList := by
  unfold pathBehindAuthority
  split
  · cases cls with
    | plain => exact fun c hc => by cases hc
    | _ => exact startsAt_rooted []
  · exact startsAt_rooted _

/-- The letters of a scheme are no colons in lower case either. -/
theorem uncoloned_scheme {cs rest : List Char} {scheme : String}
    (h : readScheme cs = some (scheme, rest)) : ':' ∉ scheme.toList := by
  obtain ⟨first, more, hparts, -, -, rfl⟩ := readScheme_eq_some.1 h
  rw [String.toList_ofList]
  intro hcolon
  obtain ⟨c, hc, hlower⟩ := List.mem_map.1 hcolon
  unfold Char.toLower at hlower
  split at hlower
  · -- a capital letter becomes a small one
    rename_i hupper
    have hval : (c.val + ('a'.val - 'A'.val)).toNat = ':'.val.toNat :=
      congrArg (fun d => d.val.toNat) hlower
    have hleast : 'A'.val.toNat ≤ c.val.toNat := UInt32.le_iff_toNat_le.1 hupper.1
    have hmost : c.val.toNat ≤ 'Z'.val.toNat := UInt32.le_iff_toNat_le.1 hupper.2
    rw [UInt32.toNat_add] at hval
    change (c.val.toNat + 32) % 2 ^ 32 = 58 at hval
    change 65 ≤ c.val.toNat at hleast
    change c.val.toNat ≤ 90 at hmost
    omega
  · rw [hlower] at hc
    cases hparts _ hc

/-- Reads the host of an authority. -/
def readHost (scheme : String) (hostChars : List Char) : Except UrlError Host :=
  if schemeClass scheme == .plain then readPlainHost (String.ofList hostChars)
  else if hostChars.isEmpty then .error .emptyHost
  else readSpecialHost (String.ofList hostChars)

/-- Reads what stands behind a host. -/
def readBehindHost (scheme : String) (hasCredentials : Bool) (host : Option Host)
    (rest : List Char) : Except UrlError (Option Host × Option Nat × List Char) :=
  if host.isNone && rest.head? == some ':' then .error .emptyHost
  else do
    let (port, rest) ← match rest with
      | ':' :: digits => readPort scheme digits
      | rest => .ok (none, rest)
    if host.isNone && hasCredentials then .error .emptyHost
    else return (host, port, rest)

/-- An authority is read part by part. -/
theorem readHostPort_eq (scheme : String) (hasCredentials : Bool) (cs : List Char) :
    readHostPort scheme hasCredentials cs
      = (readHost scheme (takeHost (schemeClass scheme) false cs).1).bind fun host =>
        readBehindHost scheme hasCredentials (if host == .name "" then none else some host)
          (takeHost (schemeClass scheme) false cs).2 := by
  unfold readHostPort readHost
  dsimp only
  split
  · rfl
  · split <;> rfl

/-- A host that is read has a text of its own. -/
theorem hostText_readHost {scheme : String} {hostChars : List Char} {host : Host}
    (h : readHost scheme hostChars = .ok host) (hsome : host ≠ .name "") :
    HostText host.text.toList := by
  unfold readHost at h
  split at h
  · exact hostText_plain h hsome
  · split at h
    · cases h
    · exact hostText_special h

/-- The host that is read has a text of its own, or is missing like the port. -/
theorem hosted_readHostPort {scheme : String} {hasCredentials : Bool} {cs rest : List Char}
    {host : Option Host} {port : Option Nat}
    (h : readHostPort scheme hasCredentials cs = .ok (host, port, rest)) :
    (∀ x, host = some x → HostText x.text.toList) ∧ (host = none → port = none) := by
  rw [readHostPort_eq] at h
  obtain ⟨x, hread, h⟩ := Except.bind_eq_ok.1 h
  have hhost : ∀ y, (if x == .name "" then none else some x) = some y →
      HostText y.text.toList := by
    intro y hy
    split at hy
    · cases hy
    · rename_i hsome
      cases hy
      exact hostText_readHost hread (by simpa using hsome)
  generalize (if x == .name "" then none else some x) = found at h hhost
  generalize (takeHost (schemeClass scheme) false cs).2 = behindHost at h
  unfold readBehindHost at h
  dsimp only at h
  split at h
  · cases h
  rename_i hcolon
  split at h <;> obtain ⟨⟨number, behind⟩, hport, h⟩ := Except.bind_eq_ok.1 h <;> split at h
  · cases h
  · -- without a host there is no colon
    cases h
    refine ⟨hhost, ?_⟩
    rintro rfl
    exact absurd rfl hcolon
  · cases h
  · cases h
    cases hport
    exact ⟨hhost, fun _ => rfl⟩

/-! ### The whole URL -/

/-- A URL with an authority has the shape: its path stands behind the host. -/
theorem shaped_readAuthority {scheme : String} {cs : List Char} {u : Url}
    (hscheme : ':' ∉ scheme.toList) (h : readAuthority scheme cs = .ok u) : u.Shaped := by
  unfold readAuthority at h
  obtain ⟨credentials, -, h⟩ := Except.bind_eq_ok.1 h
  obtain ⟨⟨host, port, rest⟩, hread, h⟩ := Except.bind_eq_ok.1 h
  obtain ⟨hhost, hport⟩ := hosted_readHostPort hread
  cases h
  exact ⟨hscheme, hhost, hport, fun _ => startsAt_pathBehindAuthority _ _⟩

/-- So has one with a path alone: it has no host. -/
theorem shaped_readPath {scheme : String} (hscheme : ':' ∉ scheme.toList) (cs : List Char) :
    (readPath scheme cs).Shaped :=
  ⟨hscheme, fun h hh => (by cases hh), fun _ => rfl, fun h => absurd rfl h⟩

theorem hostText_readFileHost {cs : List Char} {host : Option Host}
    (h : readFileHost cs = .ok host) : ∀ x, host = some x → HostText x.text.toList := by
  rintro x rfl
  unfold readFileHost at h
  split at h
  · cases h
  · obtain ⟨y, hy, hx⟩ := Except.map_eq_ok.1 h
    split at hx
    · cases hx
    · cases hx
      exact hostText_special hy

/-- So has the URL of a file: its path starts with a slash. -/
theorem shaped_readFile {cs : List Char} {u : Url} (h : readFile cs = .ok u) : u.Shaped := by
  obtain ⟨host, pathChars, rest, rfl, hread⟩ := exists_of_readFile h
  have hhost : ∀ x, host = some x → HostText x.text.toList := by
    rcases hread with rfl | ⟨hostChars, hread⟩
    · exact fun x hx => by cases hx
    · exact hostText_readFileHost hread
  have hscheme : (fileUrl host pathChars rest).scheme = "file" := rfl
  refine ⟨by rw [hscheme]; decide, fun x hx => ?_, fun _ => rfl, fun _ => startsAt_rooted _⟩
  unfold fileUrl at hx
  dsimp only at hx
  split at hx
  · cases hx
  · exact hhost x hx

/-- Every URL that is read has the shape. -/
theorem shaped_read {s : String} {u : Url} (h : Url.read s = .ok u) : u.Shaped := by
  unfold Url.read at h
  split at h
  · cases h
  rename_i scheme rest hscheme
  have huncoloned := uncoloned_scheme hscheme
  split at h
  · exact shaped_readAuthority huncoloned h
  · exact shaped_readFile h
  · exact shaped_readAuthority huncoloned h
  · cases h
    exact shaped_readPath huncoloned _

/-! ## What stands behind a scheme -/

/-- Host and port, one behind the other. -/
def hostPort (u : Url) : List Char := u.hostText.toList ++ portChars u.port

variable {u u' : Url}

theorem hostPort_of_none (h : u.Shaped) (hhost : u.host = none) : u.hostPort = [] := by
  rw [hostPort, hostText, hhost, h.port hhost]
  rfl

/-- Behind a host stands its port. -/
theorem hostPort_of_some {x : Host} (hhost : u.host = some x) :
    u.hostPort = x.text.toList ++ portChars u.port := by
  rw [hostPort, hostText, hhost]
  rfl

/-- No slash stands before the path. -/
theorem Shaped.unslashed_hostPort (h : u.Shaped) : '/' ∉ u.hostPort := by
  cases hhost : u.host with
  | none =>
    rw [hostPort_of_none h hhost]
    exact List.not_mem_nil
  | some x =>
    rw [hostPort_of_some hhost, List.mem_append, not_or]
    exact ⟨(h.host x hhost).unslashed, unslashed_portChars _⟩

theorem Shaped.hostPort_ne_nil (h : u.Shaped) {x : Host} (hhost : u.host = some x) :
    u.hostPort ≠ [] := by
  rw [hostPort_of_some hhost]
  exact fun hnone => (h.host x hhost).nonempty (List.append_eq_nil_iff.1 hnone).1

/-- The text of host and port tells both. -/
theorem Shaped.hostPort_inj (h : u.Shaped) (h' : u'.Shaped) (heq : u.hostPort = u'.hostPort) :
    u.host.map Host.text = u'.host.map Host.text ∧ u.port = u'.port := by
  cases hhost : u.host with
  | none =>
    rw [hostPort_of_none h hhost] at heq
    cases hhost' : u'.host with
    | none => exact ⟨rfl, (h.port hhost).trans (h'.port hhost').symm⟩
    | some x' => exact absurd heq.symm (h'.hostPort_ne_nil hhost')
  | some x =>
    cases hhost' : u'.host with
    | none =>
      rw [hostPort_of_none h' hhost'] at heq
      exact absurd heq (h.hostPort_ne_nil hhost)
    | some x' =>
      rw [hostPort_of_some hhost, hostPort_of_some hhost'] at heq
      obtain ⟨htext, hport⟩ := (h.host x hhost).append_port_inj (h'.host x' hhost') heq
      exact ⟨congrArg some (String.toList_inj.1 htext), hport⟩

/-- Any other path stands by itself. -/
theorem Shaped.hostPort_of_path (h : u.Shaped) (hpath : ¬StartsAt '/' u.path.toList) :
    u.host = none ∧ u.hostPort = [] := by
  have hhost : u.host = none := by
    by_contra hsome
    exact hpath (h.path hsome)
  exact ⟨hhost, hostPort_of_none h hhost⟩

end Url

/-! ## Keys -/

namespace ConnectionString

/-- Scheme, host, port and path are the same. -/
def SameDatabase (c c' : ConnectionString) : Prop :=
  c.scheme = c'.scheme ∧ c.host? = c'.host? ∧ c.port? = c'.port? ∧ c.url.path = c'.url.path

instance (c c' : ConnectionString) : Decidable (c.SameDatabase c') :=
  inferInstanceAs (Decidable (_ ∧ _ ∧ _ ∧ _))

/-- The path of the one is neither empty nor starts with a slash, and it is written like host, port
and path of the other one. -/
def PassesFor (c c' : ConnectionString) : Prop :=
  c.scheme = c'.scheme ∧ ¬StartsAt '/' c.url.path.toList ∧ StartsAt '/' c'.url.path.toList
    ∧ c.url.path = c'.url.hostText ++ c'.url.portText ++ c'.url.path

variable {c c' : ConnectionString}

/-- A key is written part by part. -/
theorem key_toList (c : ConnectionString) :
    c.key.toList = c.scheme.toList
      ++ ':' :: '/' :: '/' :: (c.url.hostPort ++ c.url.path.toList) := by
  simp [key, Url.hostPort, Url.portText_toList]

/-- A key tells the scheme and what stands behind it. -/
theorem key_eq_iff_parts (h : c.url.Shaped) (h' : c'.url.Shaped) :
    c.key = c'.key ↔ c.scheme = c'.scheme
      ∧ c.url.hostPort ++ c.url.path.toList = c'.url.hostPort ++ c'.url.path.toList := by
  rw [← String.toList_inj, key_toList, key_toList]
  constructor
  · intro heq
    have hcolon (x : List Char) : StartsAt ':' (':' :: x) := fun d hd => by
      cases hd
      rfl
    obtain ⟨hscheme, hrest⟩ := append_inj_of_startsAt h.scheme h'.scheme (hcolon _) (hcolon _) heq
    exact ⟨String.toList_inj.1 hscheme, by simpa using hrest⟩
  · rintro ⟨hscheme, hrest⟩
    rw [hscheme, hrest]

/-- Behind the scheme, either all is the same or the path of the one passes for all of the other. -/
theorem behind_scheme_iff (h : c.url.Shaped) (h' : c'.url.Shaped) :
    c.url.hostPort ++ c.url.path.toList = c'.url.hostPort ++ c'.url.path.toList
      ↔ (c.host? = c'.host? ∧ c.port? = c'.port? ∧ c.url.path = c'.url.path)
        ∨ (¬StartsAt '/' c.url.path.toList ∧ StartsAt '/' c'.url.path.toList
          ∧ c.url.path.toList = c'.url.hostPort ++ c'.url.path.toList)
        ∨ ¬StartsAt '/' c'.url.path.toList ∧ StartsAt '/' c.url.path.toList
          ∧ c'.url.path.toList = c.url.hostPort ++ c.url.path.toList := by
  constructor
  · intro heq
    -- a path without a slash at its start has no host before it
    by_cases hpath : StartsAt '/' c.url.path.toList <;>
      by_cases hpath' : StartsAt '/' c'.url.path.toList
    · obtain ⟨hfront, hsame⟩ := append_inj_of_startsAt h.unslashed_hostPort h'.unslashed_hostPort
        hpath hpath' heq
      obtain ⟨hhost, hport⟩ := h.hostPort_inj h' hfront
      exact .inl ⟨hhost, hport, String.toList_inj.1 hsame⟩
    · rw [(h'.hostPort_of_path hpath').2, List.nil_append] at heq
      exact .inr (.inr ⟨hpath', hpath, heq.symm⟩)
    · rw [(h.hostPort_of_path hpath).2, List.nil_append] at heq
      exact .inr (.inl ⟨hpath, hpath', heq⟩)
    · obtain ⟨hhost, hfront⟩ := h.hostPort_of_path hpath
      obtain ⟨hhost', hfront'⟩ := h'.hostPort_of_path hpath'
      rw [hfront, hfront', List.nil_append, List.nil_append] at heq
      refine .inl ⟨?_, (h.port hhost).trans (h'.port hhost').symm, String.toList_inj.1 heq⟩
      rw [host?, host?, hhost, hhost']
  · rintro (⟨hhost, hport, hpath⟩ | ⟨hpath, -, hsame⟩ | ⟨hpath, -, hsame⟩)
    · have htext : c.url.hostText = c'.url.hostText := congrArg (Option.getD · "") hhost
      change c.url.port = c'.url.port at hport
      rw [Url.hostPort, Url.hostPort, htext, hport, hpath]
    · rw [(h.hostPort_of_path hpath).2, List.nil_append, hsame]
    · rw [(h'.hostPort_of_path hpath).2, List.nil_append, hsame]

/-- A path passes for host, port and path if its characters are theirs. -/
theorem passesFor_iff : c.PassesFor c' ↔ c.scheme = c'.scheme ∧ ¬StartsAt '/' c.url.path.toList
    ∧ StartsAt '/' c'.url.path.toList
    ∧ c.url.path.toList = c'.url.hostPort ++ c'.url.path.toList := by
  have htext : (c'.url.hostText ++ c'.url.portText ++ c'.url.path).toList
      = c'.url.hostPort ++ c'.url.path.toList := by
    rw [String.toList_append, String.toList_append, Url.portText_toList]
    rfl
  rw [PassesFor, ← htext, String.toList_inj]

/-- Connection strings that are read have one key if their database is the same, or if the path of
the one passes for the database of the other. -/
theorem key_eq_iff (h : c.url.Shaped) (h' : c'.url.Shaped) :
    c.key = c'.key ↔ c.SameDatabase c' ∨ c.PassesFor c' ∨ c'.PassesFor c := by
  rw [key_eq_iff_parts h h', behind_scheme_iff h h', SameDatabase, passesFor_iff, passesFor_iff,
    eq_comm (a := c'.scheme), and_or_left, and_or_left]

end ConnectionString

end RowMapper
