import Mathlib.Data.List.TakeWhile
import RowMapper.Proofs.Masked
import RowMapper.Proofs.Outcome

/-!
# Passwords in texts

Where the password of a connection string stands in its text, and what becomes of the URL when
another one stands there. The reader cuts the text into scheme, authority and the rest by
characters that a password can not have, so that nothing but the password is read from its place.

* `PasswordPlace` is a text around a password, as it is written: with blanks before it, and with
  tabs and line ends in between, which do not count.
* `PasswordPlace.masked_read` says that all passwords in a place give the same URL when it is
  masked.
* `PasswordPlace.password_read` says that the password in the place is the one that is read, and
  `exists_place` that every password that is read has a place.
-/

namespace RowMapper.Url

/-! ## Scanning -/

section Scanning

variable {α : Type} {p : α → Bool} {xs ys : List α} {x : α}

/-- A scan stops at the first character that it does not take. -/
theorem takeWhile_append_stop (h : ∀ y ∈ xs, p y = true) (hx : p x = false) :
    (xs ++ x :: ys).takeWhile p = xs := by
  rw [List.takeWhile_append_of_pos h, List.takeWhile_cons_of_neg (by simp [hx]), List.append_nil]

/-- What is left begins with the character that the scan stopped at. -/
theorem dropWhile_append_stop (h : ∀ y ∈ xs, p y = true) (hx : p x = false) :
    (xs ++ x :: ys).dropWhile p = x :: ys := by
  rw [List.dropWhile_append_of_pos h, List.dropWhile_cons_of_neg (by simp [hx])]

theorem stop_of_dropWhile (h : xs.dropWhile p = x :: ys) : p x = false := by
  have hhead := List.head?_dropWhile_not p xs
  rwa [h] at hhead

theorem dropWhile_of_head? (h : ∀ x ∈ xs.head?, p x = false) : xs.dropWhile p = xs := by
  cases xs with
  | nil => rfl
  | cons x xs => exact List.dropWhile_cons_of_neg (by simp [h x rfl])

end Scanning

/-! ## Ends of a text -/

/-- The character does not count at the ends of a text. -/
def isOuter (c : Char) : Bool := c.toNat ≤ 0x20

/-- The characters without those at the end that do not count. -/
def trimmedEnd (cs : List Char) : List Char := (cs.reverse.dropWhile isOuter).reverse

theorem trimmed_eq (s : String) : trimmed s = trimmedEnd (s.toList.dropWhile isOuter) := rfl

/-- A text does not end before its last character that counts. -/
theorem trimmedEnd_append {c : Char} (hc : isOuter c = false) (before behind : List Char) :
    trimmedEnd (before ++ c :: behind) = before ++ c :: trimmedEnd behind := by
  unfold trimmedEnd
  rw [List.reverse_append, List.reverse_cons, List.append_assoc, List.dropWhile_append]
  split
  · rename_i hnone
    rw [List.isEmpty_iff.1 hnone, List.singleton_append, List.dropWhile_cons_of_neg (by simp [hc])]
    simp
  · simp

@[simp] theorem unbroken_append (a b : List Char) : unbroken (a ++ b) = unbroken a ++ unbroken b :=
  List.filter_append a b

/-- What counts was written. -/
theorem mem_of_mem_unbroken {c : Char} {cs : List Char} (h : c ∈ unbroken cs) : c ∈ cs :=
  (List.mem_filter.1 h).1

theorem unbroken_cons {c : Char} (hc : isBreak c = false) (cs : List Char) :
    unbroken (c :: cs) = c :: unbroken cs := by
  simp [unbroken, hc]

/-! ## Schemes -/

/-- The characters of schemes. -/
def isSchemePart (c : Char) : Bool := c.isAlphanum || c == '+' || c == '-' || c == '.'

/-- A scheme ends at the first colon. -/
theorem readScheme_eq_some {cs rest : List Char} {scheme : String} :
    readScheme cs = some (scheme, rest)
      ↔ ∃ first more, (∀ c ∈ first :: more, isSchemePart c = true) ∧ first.isAlpha = true
        ∧ cs = first :: more ++ ':' :: rest
        ∧ scheme = String.ofList ((first :: more).map Char.toLower) := by
  constructor
  · intro h
    unfold readScheme at h
    dsimp only at h
    split at h
    · rename_i first more rest' htake hdrop
      -- the scheme is all that can be part of one, up to the colon
      have htake : cs.takeWhile isSchemePart = first :: more := htake
      have hdrop : cs.dropWhile isSchemePart = ':' :: rest' := hdrop
      split at h
      · rename_i halpha
        cases h
        refine ⟨first, more, fun c hc => ?_, halpha, ?_, ?_⟩
        · rw [← htake] at hc
          exact List.mem_takeWhile_imp hc
        · rw [← htake, ← hdrop, List.takeWhile_append_dropWhile]
        · exact congrArg (fun scheme => String.ofList (scheme.map Char.toLower)) htake
      · cases h
    · cases h
  · rintro ⟨first, more, hparts, halpha, rfl, rfl⟩
    -- the colon is no part of a scheme, so the reader stops there
    have htake : (first :: more ++ ':' :: rest).takeWhile isSchemePart = first :: more :=
      takeWhile_append_stop hparts (by decide)
    have hdrop : (first :: more ++ ':' :: rest).dropWhile isSchemePart = ':' :: rest :=
      dropWhile_append_stop hparts (by decide)
    unfold readScheme
    dsimp only
    split
    · rename_i first' more' rest' htake' hdrop'
      cases htake.symm.trans htake'
      cases hdrop.symm.trans hdrop'
      rw [if_pos halpha]
      exact congrArg (fun scheme => some (String.ofList (scheme.map Char.toLower), rest)) htake
    · rename_i hnone
      exact absurd hdrop (hnone first more rest htake)

/-- A scheme is read without a look at what comes behind its colon. -/
theorem readScheme_append {cs rest : List Char} {scheme : String}
    (h : readScheme cs = some (scheme, rest)) (behind : List Char) :
    readScheme (cs ++ behind) = some (scheme, rest ++ behind) := by
  obtain ⟨first, more, hparts, halpha, rfl, rfl⟩ := readScheme_eq_some.1 h
  exact readScheme_eq_some.2 ⟨first, more, hparts, halpha, by simp, rfl⟩

/-! ## Authorities -/

/-- The last at sign is the one that no other stands behind. -/
theorem cutLastAt_append (info : List Char) {back : List Char} (h : '@' ∉ back) :
    cutLastAt (info ++ '@' :: back) = some (info, back) := by
  have hall : ∀ c ∈ back.reverse, (c != '@') = true := by
    intro c hc
    simp only [bne_iff_ne]
    rintro rfl
    exact h (List.mem_reverse.1 hc)
  have hback : (info ++ '@' :: back).reverse.takeWhile (· != '@') = back.reverse := by
    rw [List.reverse_append, List.reverse_cons, List.append_assoc, List.singleton_append,
      takeWhile_append_stop hall (by decide)]
  have hlength : (info ++ '@' :: back).length - back.length - 1 = info.length := by
    rw [List.length_append, List.length_cons]
    omega
  unfold cutLastAt
  rw [if_pos (by simp), hback, List.reverse_reverse]
  dsimp only
  rw [hlength, List.take_left]

/-- A text is cut at its last at sign. -/
theorem cutLastAt_eq_some {cs info back : List Char} (h : cutLastAt cs = some (info, back)) :
    cs = info ++ '@' :: back ∧ '@' ∉ back := by
  have hmem : '@' ∈ cs.reverse := by
    unfold cutLastAt at h
    split at h
    · rename_i hcontains
      simpa using hcontains
    · cases h
  obtain ⟨as, bs, hreverse, hnone⟩ := List.eq_append_cons_of_mem hmem
  have hcs : cs = bs.reverse ++ '@' :: as.reverse := by
    rw [← List.reverse_reverse cs, hreverse]
    simp
  have hnone : '@' ∉ as.reverse := by simpa using hnone
  rw [hcs, cutLastAt_append _ hnone] at h
  cases h
  exact ⟨hcs, hnone⟩

/-- The part of a URL that is read from these characters, as it is kept. -/
def encoded (cs : List Char) : String := String.ofList (percentEncode inUserSet cs)

/-- The characters of an authority, up to the one that ends it. -/
def authorityChars (cls : SchemeClass) (cs : List Char) : List Char :=
  cs.takeWhile (!endsAuthority cls ·)

section Credentials

variable {cls : SchemeClass} {user password rest cs : List Char}

/-- Neither a colon nor an at sign ends an authority. -/
theorem endsAuthority_sign (cls : SchemeClass) :
    endsAuthority cls ':' = false ∧ endsAuthority cls '@' = false := by
  cases cls <;> decide

/-- User and password are read up to the last at sign of the authority. -/
theorem readCredentials_append (huser : ∀ c ∈ user, c ≠ ':' ∧ endsAuthority cls c = false)
    (hpassword : ∀ c ∈ password, endsAuthority cls c = false) (hsome : password ≠ [])
    (hrest : '@' ∉ authorityChars cls rest) :
    readCredentials cls (user ++ ':' :: password ++ '@' :: rest)
      = .ok
        { user := encoded user
          password := some (encoded password)
          present := true
          rest } := by
  obtain ⟨hcolon, hat⟩ := endsAuthority_sign cls
  have hinfo : ∀ c ∈ user ++ ':' :: password, (!endsAuthority cls c) = true := by
    intro c hc
    rcases List.mem_append.1 hc with hc | hc
    · simp [(huser c hc).2]
    · rcases List.mem_cons.1 hc with rfl | hc
      · simp [hcolon]
      · simp [hpassword c hc]
  -- the reader stops at the sign behind the password, and finds the last one of the authority there
  have htake : (user ++ ':' :: password ++ '@' :: rest).takeWhile (!endsAuthority cls ·)
      = user ++ ':' :: password ++ '@' :: authorityChars cls rest := by
    rw [List.takeWhile_append_of_pos hinfo, List.takeWhile_cons_of_pos (by simp [hat])]
    rfl
  have hdrop : (user ++ ':' :: password ++ '@' :: rest).dropWhile (!endsAuthority cls ·)
      = rest.dropWhile (!endsAuthority cls ·) := by
    rw [List.dropWhile_append_of_pos hinfo, List.dropWhile_cons_of_pos (by simp [hat])]
  have hname : ∀ c ∈ user, (c != ':') = true := fun c hc => by simpa using (huser c hc).1
  have huserTake : (user ++ ':' :: password).takeWhile (· != ':') = user :=
    takeWhile_append_stop hname (by decide)
  have huserDrop : (user ++ ':' :: password).dropWhile (· != ':') = ':' :: password :=
    dropWhile_append_stop hname (by decide)
  have hback : authorityChars cls rest ++ rest.dropWhile (!endsAuthority cls ·) = rest :=
    List.takeWhile_append_dropWhile
  unfold readCredentials
  dsimp only
  rw [htake, cutLastAt_append _ hrest]
  dsimp only
  rw [hdrop, huserTake, huserDrop, hback]
  simp [hsome, encoded]

/-- The password stands behind the first colon. -/
theorem exists_password {info : List Char} (h : (info.dropWhile (· != ':')).drop 1 ≠ []) :
    ∃ password, info = info.takeWhile (· != ':') ++ ':' :: password ∧ password ≠ [] := by
  cases hdrop : info.dropWhile (· != ':') with
  | nil => simp [hdrop] at h
  | cons c password =>
    obtain rfl : c = ':' := by simpa using stop_of_dropWhile hdrop
    refine ⟨password, ?_, by simpa [hdrop] using h⟩
    rw [← hdrop, List.takeWhile_append_dropWhile]

/-- Nothing of an authority is left behind it. -/
theorem authorityChars_dropWhile (cls : SchemeClass) (cs : List Char) :
    authorityChars cls (cs.dropWhile (!endsAuthority cls ·)) = [] := by
  cases hdrop : cs.dropWhile (!endsAuthority cls ·) with
  | nil => rfl
  | cons c rest =>
    exact List.takeWhile_cons_of_neg (by rw [stop_of_dropWhile hdrop]; exact Bool.false_ne_true)

/-- A password that is read stands between a colon and the last at sign of the authority. -/
theorem exists_of_readCredentials {credentials : Credentials} {p : String}
    (h : readCredentials cls cs = .ok credentials) (hp : credentials.password = some p) :
    ∃ user password rest, cs = user ++ ':' :: password ++ '@' :: rest
      ∧ (∀ c ∈ user, c ≠ ':' ∧ endsAuthority cls c = false)
      ∧ (∀ c ∈ password, endsAuthority cls c = false) ∧ password ≠ []
      ∧ '@' ∉ authorityChars cls rest := by
  unfold readCredentials at h
  dsimp only at h
  split at h
  · cases h
    cases hp
  rename_i info back hinfo
  obtain ⟨hauthority, hback⟩ := cutLastAt_eq_some hinfo
  split at h
  · -- nothing precedes the at sign
    split at h <;> cases h
    cases hp
  cases h
  obtain ⟨password, hsplit, hsome⟩ : ∃ password,
      info = info.takeWhile (· != ':') ++ ':' :: password ∧ password ≠ [] := by
    refine exists_password fun hnone => ?_
    simp [hnone] at hp
  have hinside : ∀ c ∈ info ++ '@' :: back, endsAuthority cls c = false := by
    intro c hc
    rw [← hauthority] at hc
    simpa using List.mem_takeWhile_imp hc
  have hbackInside : ∀ c ∈ back, (!endsAuthority cls c) = true := fun c hc => by
    simp [hinside c (List.mem_append_right _ (List.mem_cons_of_mem _ hc))]
  refine ⟨info.takeWhile (· != ':'), password, back ++ cs.dropWhile (!endsAuthority cls ·), ?_,
    fun c hc => ⟨?_, ?_⟩, fun c hc => ?_, hsome, ?_⟩
  · rw [← hsplit, ← List.cons_append, ← List.append_assoc, ← hauthority,
      List.takeWhile_append_dropWhile]
  · simpa using List.mem_takeWhile_imp hc
  · exact hinside c (List.mem_append_left _ ((List.takeWhile_prefix _).subset hc))
  · refine hinside c (List.mem_append_left _ ?_)
    rw [hsplit]
    exact List.mem_append_right _ (List.mem_cons_of_mem _ hc)
  · have hends := authorityChars_dropWhile cls cs
    rw [authorityChars] at hends ⊢
    rw [List.takeWhile_append_of_pos hbackInside, hends, List.append_nil]
    exact hback

end Credentials

/-- The password of an authority is that of its credentials. -/
theorem credentials_of_readAuthority {scheme : String} {cs : List Char} {u : Url}
    (h : readAuthority scheme cs = .ok u) :
    ∃ credentials, readCredentials (schemeClass scheme) cs = .ok credentials
      ∧ u.password = credentials.password := by
  unfold readAuthority at h
  obtain ⟨credentials, hcredentials, h⟩ := Except.bind_eq_ok.1 h
  obtain ⟨parts, -, h⟩ := Except.bind_eq_ok.1 h
  cases h
  exact ⟨credentials, hcredentials, rfl⟩

/-- Passwords in the same place of an authority make no difference to the masked URL. -/
theorem masked_readAuthority {scheme : String} {user password password' rest : List Char}
    (huser : ∀ c ∈ user, c ≠ ':' ∧ endsAuthority (schemeClass scheme) c = false)
    (hpassword : ∀ c ∈ password, endsAuthority (schemeClass scheme) c = false)
    (hpassword' : ∀ c ∈ password', endsAuthority (schemeClass scheme) c = false)
    (hsome : password ≠ []) (hsome' : password' ≠ [])
    (hrest : '@' ∉ authorityChars (schemeClass scheme) rest) :
    (readAuthority scheme (user ++ ':' :: password ++ '@' :: rest)).map Url.masked
      = (readAuthority scheme (user ++ ':' :: password' ++ '@' :: rest)).map Url.masked := by
  simp only [readAuthority, readCredentials_append huser hpassword hsome hrest,
    readCredentials_append huser hpassword' hsome' hrest]
  show ((readHostPort scheme true rest).bind _).map Url.masked
    = ((readHostPort scheme true rest).bind _).map Url.masked
  cases readHostPort scheme true rest <;> rfl

/-- Tabs and line ends end no authority. -/
theorem endsAuthority_of_isBreak {c : Char} (hc : isBreak c = true) (cls : SchemeClass) :
    c ≠ ':' ∧ endsAuthority cls c = false := by
  simp only [isBreak, Bool.or_eq_true, beq_iff_eq] at hc
  rcases hc with (rfl | rfl) | rfl <;> cases cls <;> decide

/-- What does not count makes no difference to where an authority ends. -/
theorem mem_authorityChars_unbroken {cls : SchemeClass} {c : Char} (hc : isBreak c = false)
    (cs : List Char) : c ∈ authorityChars cls (unbroken cs) ↔ c ∈ authorityChars cls cs := by
  unfold authorityChars
  induction cs with
  | nil => rfl
  | cons x cs ih =>
    by_cases hx : isBreak x = true
    · -- a line break is left out here, and ends no authority there
      have hinside : endsAuthority cls x = false := (endsAuthority_of_isBreak hx cls).2
      have hne : c ≠ x := by
        rintro rfl
        simp [hc] at hx
      have hdrop : unbroken (x :: cs) = unbroken cs := by simp [unbroken, hx]
      rw [hdrop, List.takeWhile_cons_of_pos (by simp [hinside]), List.mem_cons, ih]
      simp [hne]
    · rw [unbroken_cons (by simpa using hx)]
      by_cases hends : endsAuthority cls x = true
      · rw [List.takeWhile_cons_of_neg (by simp [hends]),
          List.takeWhile_cons_of_neg (by simp [hends])]
      · rw [List.takeWhile_cons_of_pos (by simpa using hends),
          List.takeWhile_cons_of_pos (by simpa using hends), List.mem_cons, List.mem_cons, ih]

/-- A longer text has no shorter authority. -/
theorem authorityChars_append_subset {cls : SchemeClass} (a b : List Char) :
    authorityChars cls a ⊆ authorityChars cls (a ++ b) := by
  unfold authorityChars
  rw [List.takeWhile_append]
  split
  · exact fun c hc => List.mem_append_left _ ((List.takeWhile_prefix _).subset hc)
  · exact List.Subset.refl _

theorem mem_authorityChars_append {cls : SchemeClass} {c : Char} {a b : List Char}
    (h : c ∈ authorityChars cls (a ++ b)) : c ∈ authorityChars cls a ∨ c ∈ b := by
  unfold authorityChars at h ⊢
  rw [List.takeWhile_append] at h
  split at h
  · rename_i hall
    rw [(List.takeWhile_prefix _).eq_of_length hall]
    exact (List.mem_append.1 h).imp_right fun h => (List.takeWhile_prefix _).subset h
  · exact .inl h

theorem trimmedEnd_prefix (cs : List Char) : trimmedEnd cs <+: cs := by
  have h := List.reverse_prefix.2 (List.dropWhile_suffix (l := cs.reverse) isOuter)
  rwa [List.reverse_reverse] at h

/-! ## Places of passwords -/

/-- A text around a password: what comes before the user up to the slashes, the user, and what
comes behind the at sign. -/
structure PasswordPlace where
  front : List Char
  user : List Char
  rest : List Char
  scheme : String
  slashes : List Char
  reads : readScheme (unbroken (front.dropWhile isOuter)) = some (scheme, slashes)
  /-- An authority follows: always for special schemes, for others behind two slashes. -/
  opens : schemeClass scheme = .special ∧ (∀ c ∈ slashes, isSlash .special c = true)
    ∨ schemeClass scheme = .plain ∧ slashes = ['/', '/']
  user_inside : ∀ c ∈ user, c ≠ ':' ∧ endsAuthority (schemeClass scheme) c = false
  /-- No other at sign of the authority follows. -/
  rest_behind : '@' ∉ authorityChars (schemeClass scheme) rest

namespace PasswordPlace

variable (x : PasswordPlace) {password password' : List Char}

/-- The password fits in the place: it is in the authority, and it is not empty. -/
structure Takes (password : List Char) : Prop where
  inside : ∀ c ∈ password, endsAuthority (schemeClass x.scheme) c = false
  nonempty : unbroken password ≠ []

/-- The text with the password in its place. -/
def text (password : List Char) : String :=
  String.ofList (x.front ++ (x.user ++ ':' :: password ++ '@' :: x.rest))

/-- What counts of the text. -/
theorem unbroken_text (password : List Char) :
    unbroken (trimmed (x.text password))
      = unbroken (x.front.dropWhile isOuter)
        ++ (unbroken x.user ++ ':' :: unbroken password
          ++ '@' :: unbroken (trimmedEnd x.rest)) := by
  have hfront : (x.front.dropWhile isOuter).isEmpty = false := by
    cases hfront : x.front.dropWhile isOuter with
    | nil =>
      have hreads := x.reads
      rw [hfront] at hreads
      cases hreads
    | cons c cs => rfl
  have htrimmed : trimmed (x.text password)
      = x.front.dropWhile isOuter
        ++ (x.user ++ ':' :: password ++ '@' :: trimmedEnd x.rest) := by
    rw [trimmed_eq, text, String.toList_ofList, List.dropWhile_append, hfront, if_neg (by simp),
      ← List.append_assoc, trimmedEnd_append (by decide), List.append_assoc]
  rw [htrimmed, unbroken_append, unbroken_append, unbroken_append, unbroken_cons (by decide),
    unbroken_cons (by decide)]

/-- The slashes of special schemes end at the user, or at the colon if there is none. -/
theorem isSlash_head? (h : schemeClass x.scheme = .special) (behind : List Char) :
    ∀ c ∈ (unbroken x.user ++ ':' :: behind).head?, isSlash .special c = false := by
  intro c hc
  cases huser : unbroken x.user with
  | nil =>
    rw [huser] at hc
    cases hc
    rfl
  | cons first more =>
    have hinside := (x.user_inside first (mem_of_mem_unbroken (huser ▸ List.mem_cons_self))).2
    rw [huser] at hc
    cases hc
    rw [h] at hinside
    simp only [endsAuthority, Bool.or_eq_false_iff] at hinside
    exact hinside.1.1

/-- The authority of the text is what is read of it. -/
theorem read_text (password : List Char) :
    Url.read (x.text password)
      = readAuthority x.scheme (unbroken x.user ++ ':' :: unbroken password
        ++ '@' :: unbroken (trimmedEnd x.rest)) := by
  have hscheme := readScheme_append x.reads (unbroken x.user ++ ':' :: unbroken password
    ++ '@' :: unbroken (trimmedEnd x.rest))
  rw [← unbroken_text] at hscheme
  unfold Url.read
  rw [hscheme]
  dsimp only
  rcases x.opens with ⟨hclass, hslashes⟩ | ⟨hclass, hslashes⟩
  · rw [hclass, List.append_assoc, List.cons_append]
    dsimp only
    rw [List.dropWhile_append_of_pos hslashes, dropWhile_of_head? (x.isSlash_head? hclass _)]
  · rw [hclass, hslashes]
    rfl

/-- Without line breaks, the user stays in its place. -/
theorem user_kept :
    ∀ c ∈ unbroken x.user, c ≠ ':' ∧ endsAuthority (schemeClass x.scheme) c = false :=
  fun c hc => x.user_inside c (mem_of_mem_unbroken hc)

/-- Without line breaks, no other at sign follows. -/
theorem rest_kept :
    '@' ∉ authorityChars (schemeClass x.scheme) (unbroken (trimmedEnd x.rest)) := by
  rw [mem_authorityChars_unbroken (by decide)]
  intro hmem
  obtain ⟨trail, htrail⟩ := trimmedEnd_prefix x.rest
  have hall := authorityChars_append_subset (trimmedEnd x.rest) trail hmem
  rw [htrail] at hall
  exact x.rest_behind hall

/-- All passwords give the same URL once it is masked, and the same failure. -/
theorem masked_read (h : x.Takes password) (h' : x.Takes password') :
    (Url.read (x.text password)).map Url.masked
      = (Url.read (x.text password')).map Url.masked := by
  rw [read_text, read_text]
  exact masked_readAuthority x.user_kept (fun c hc => h.inside c (mem_of_mem_unbroken hc))
    (fun c hc => h'.inside c (mem_of_mem_unbroken hc)) h.nonempty h'.nonempty x.rest_kept

/-- The password that is read is the one in the place. -/
theorem password_read {u : Url} (h : x.Takes password)
    (hread : Url.read (x.text password) = .ok u) :
    u.password = some (encoded (unbroken password)) := by
  obtain ⟨credentials, hcredentials, hpassword⟩ :=
    credentials_of_readAuthority (x.read_text password ▸ hread)
  rw [readCredentials_append x.user_kept (fun c hc => h.inside c (mem_of_mem_unbroken hc))
    h.nonempty x.rest_kept] at hcredentials
  cases hcredentials
  exact hpassword

end PasswordPlace

/-! ## All passwords have a place -/

/-- A file is read with a host that was read, or with none. -/
theorem exists_of_readFile {cs : List Char} {u : Url} (h : readFile cs = .ok u) :
    ∃ host pathChars rest, u = fileUrl host pathChars rest
      ∧ (host = none ∨ ∃ hostChars, readFileHost hostChars = .ok host) := by
  unfold readFile at h
  dsimp only at h
  -- only with two slashes there is a host to be read
  split at h
  · cases h
    exact ⟨_, _, _, rfl, .inl rfl⟩
  · split at h
    · cases h
      exact ⟨_, _, _, rfl, .inl rfl⟩
    · split at h
      · cases h
        exact ⟨_, _, _, rfl, .inl rfl⟩
      · split at h
        · cases h
          exact ⟨_, _, _, rfl, .inl rfl⟩
        · split at h
          · cases h
            exact ⟨_, _, _, rfl, .inl rfl⟩
          · obtain ⟨host, hhost, h⟩ := Except.bind_eq_ok.1 h
            cases h
            exact ⟨_, _, _, rfl, .inr ⟨_, hhost⟩⟩

/-- The URL of a file has no password. -/
theorem password_readFile {cs : List Char} {u : Url} (h : readFile cs = .ok u) :
    u.password = none := by
  obtain ⟨host, pathChars, rest, rfl, -⟩ := exists_of_readFile h
  rfl

/-- A text that does not count a character splits where the text of those that count does. -/
theorem exists_of_unbroken_append {cs a b : List Char} (h : unbroken cs = a ++ b) :
    ∃ before behind, cs = before ++ behind ∧ unbroken before = a ∧ unbroken behind = b :=
  List.filter_eq_append_iff.1 h

theorem exists_of_unbroken_cons {cs a b : List Char} {c : Char} (h : unbroken cs = a ++ c :: b) :
    ∃ before behind, cs = before ++ c :: behind ∧ unbroken before = a ∧ unbroken behind = b := by
  obtain ⟨before, behind, rfl, hbefore, hbehind⟩ := exists_of_unbroken_append h
  obtain ⟨dropped, more, rfl, hdropped, -, hmore⟩ := List.filter_eq_cons_iff.1 hbehind
  refine ⟨before ++ dropped, more, by simp, ?_, hmore⟩
  rw [unbroken_append, hbefore]
  have hnone : unbroken dropped = [] := List.filter_eq_nil_iff.2 hdropped
  rw [hnone, List.append_nil]

/-- The end that does not count can be cut off. -/
theorem exists_trail (cs : List Char) :
    ∃ trail, cs = trimmedEnd cs ++ trail ∧ ∀ c ∈ trail, isOuter c = true := by
  refine ⟨(cs.reverse.takeWhile isOuter).reverse, ?_, fun c hc => ?_⟩
  · rw [trimmedEnd, ← List.reverse_append, List.takeWhile_append_dropWhile, List.reverse_reverse]
  · exact List.mem_takeWhile_imp (List.mem_reverse.1 hc)

/-- A URL with a password has an authority. -/
theorem exists_authority {s : String} {u : Url} {p : String} (h : Url.read s = .ok u)
    (hp : u.password = some p) :
    ∃ scheme slashes cs, readScheme (unbroken (trimmed s)) = some (scheme, slashes ++ cs)
      ∧ (schemeClass scheme = .special ∧ (∀ c ∈ slashes, isSlash .special c = true)
        ∨ schemeClass scheme = .plain ∧ slashes = ['/', '/'])
      ∧ readAuthority scheme cs = .ok u := by
  unfold Url.read at h
  split at h
  · cases h
  rename_i scheme rest hscheme
  split at h
  · rename_i rest _ _ hclass
    refine ⟨scheme, rest.takeWhile (isSlash .special), rest.dropWhile (isSlash .special), ?_,
      .inl ⟨hclass, fun c hc => List.mem_takeWhile_imp hc⟩, h⟩
    rw [List.takeWhile_append_dropWhile]
    exact hscheme
  · rw [password_readFile h] at hp
    cases hp
  · rename_i behind hclass
    exact ⟨scheme, ['/', '/'], behind, hscheme, .inr ⟨hclass, rfl⟩, h⟩
  · cases h
    cases hp

/-- The parts of what counts are parts of the text as it is written. -/
theorem exists_written {s : String} {opening user password rest : List Char}
    (h : unbroken (trimmed s) = opening ++ user ++ ':' :: password ++ '@' :: rest) :
    ∃ front name written behind trail,
      s.toList.dropWhile isOuter = front ++ (name ++ ':' :: written ++ '@' :: (behind ++ trail))
        ∧ unbroken front = opening ∧ unbroken name = user ∧ unbroken written = password
        ∧ unbroken behind = rest ∧ ∀ c ∈ trail, isOuter c = true := by
  obtain ⟨before, behind, htrimmed, hbefore, hbehind⟩ := exists_of_unbroken_cons h
  obtain ⟨start, written, rfl, hstart, hwritten⟩ := exists_of_unbroken_cons hbefore
  obtain ⟨front, name, rfl, hfront, hname⟩ := exists_of_unbroken_append hstart
  obtain ⟨trail, htrail, houter⟩ := exists_trail (s.toList.dropWhile isOuter)
  refine ⟨front, name, written, behind, trail, ?_, hfront, hname, hwritten, hbehind, houter⟩
  rw [htrail, ← trimmed_eq, htrimmed]
  simp

/-- Every password that is read from a text has a place in it. -/
theorem exists_place {s : String} {u : Url} {p : String} (h : Url.read s = .ok u)
    (hp : u.password = some p) :
    ∃ (x : PasswordPlace) (password : List Char), x.Takes password ∧ s = x.text password := by
  obtain ⟨scheme, slashes, cs, hscheme, hopens, hauthority⟩ := exists_authority h hp
  obtain ⟨credentials, hcredentials, hpassword⟩ := credentials_of_readAuthority hauthority
  obtain ⟨user, password, rest, rfl, huser, hinside, hsome, hrest⟩ :=
    exists_of_readCredentials hcredentials (hpassword ▸ hp)
  obtain ⟨first, more, hparts, halpha, hcounted, hname⟩ := readScheme_eq_some.1 hscheme
  -- the reader sees the text without its line breaks and trimmed; `exists_written` finds the parts
  -- that it saw in what was written
  have hsplit : unbroken (trimmed s)
      = (first :: more ++ ':' :: slashes) ++ user ++ ':' :: password ++ '@' :: rest := by
    simp [hcounted]
  obtain ⟨front, name, written, behind, trail, hinner, hfront, hnamed, hwritten, hbehind, houter⟩ :=
    exists_written hsplit
  have hlead : front.dropWhile isOuter = front := by
    refine dropWhile_of_head? fun c hc => ?_
    cases front with
    | nil => cases hc
    | cons c front =>
      cases hc
      exact stop_of_dropWhile hinner
  have hoverall : ∀ c ∈ s.toList.takeWhile isOuter, isOuter c = true :=
    fun c hc => List.mem_takeWhile_imp hc
  refine ⟨{ front := s.toList.takeWhile isOuter ++ front
            user := name
            rest := behind ++ trail
            scheme, slashes
            reads := ?_
            opens := hopens
            user_inside := fun c hc => ?_
            rest_behind := fun hmem => ?_ }, written, ⟨fun c hc => ?_, ?_⟩, ?_⟩
  · rw [List.dropWhile_append_of_pos hoverall, hlead, hfront]
    exact readScheme_eq_some.2 ⟨first, more, hparts, halpha, rfl, hname⟩
  · -- a line break inside the user is not seen, and ends nothing
    by_cases hbreak : isBreak c = true
    · exact endsAuthority_of_isBreak hbreak _
    · exact huser c (hnamed ▸ List.mem_filter.2 ⟨hc, by simpa using hbreak⟩)
  · rcases mem_authorityChars_append hmem with hmem | hmem
    · exact hrest (hbehind ▸ (mem_authorityChars_unbroken (by decide) _).2 hmem)
    · exact absurd (houter _ hmem) (by decide)
  · by_cases hbreak : isBreak c = true
    · exact (endsAuthority_of_isBreak hbreak _).2
    · exact hinside c (hwritten ▸ List.mem_filter.2 ⟨hc, by simpa using hbreak⟩)
  · rw [hwritten]
    exact hsome
  · rw [PasswordPlace.text]
    dsimp only
    rw [List.append_assoc, ← hinner, List.takeWhile_append_dropWhile, String.ofList_toList]

end RowMapper.Url
