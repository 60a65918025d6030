import RowMapper.Statement.Basic
import RowMapper.Text.Utf8

/-!
# Texts cut between characters

A limit counts bytes, and a text may only be cut where a character ends. From the limit one goes
back byte by byte to such a place. In UTF-8 a byte tells by itself whether a character begins with
it, so the places are found without reading the text from its beginning.
-/

namespace RowMapper

namespace Text

/-! ## Places -/

/-- The byte goes on with a character that began before it. -/
def continues (byte : UInt8) : Bool := 0x80 ≤ byte.toNat && byte.toNat < 0xc0

/-- The bytes may be cut at the place: it is one of their two ends, or a character begins there. -/
def isBoundary (bytes : List UInt8) (place : Nat) : Bool :=
  place == 0 || place == bytes.length || bytes[place]?.any (!continues ·)

/-- Goes back from the place to one where the bytes may be cut. There is none if the search goes
past the beginning. -/
def backToBoundary (bytes : List UInt8) : Nat → Option Nat
  | 0 => if isBoundary bytes 0 then some 0 else none
  | place + 1 =>
    if isBoundary bytes (place + 1) then some (place + 1) else backToBoundary bytes place

/-- The bytes up to where the search comes to, if they are more than the limit. -/
def cutBack (bytes : List UInt8) (limit : Nat) : Option (List UInt8) :=
  if bytes.length ≤ limit then some bytes
  else (backToBoundary bytes limit).map fun place => bytes.take place

/-! ### Bytes of characters -/

/-- The bytes of the characters. -/
def encoded (cs : List Char) : List UInt8 := cs.flatMap String.utf8EncodeChar

@[simp] theorem encoded_nil : encoded [] = [] := rfl

@[simp] theorem encoded_cons (c : Char) (cs : List Char) :
    encoded (c :: cs) = String.utf8EncodeChar c ++ encoded cs := rfl

/-- Texts are encoded part by part. -/
@[simp] theorem encoded_append (cs ds : List Char) :
    encoded (cs ++ ds) = encoded cs ++ encoded ds :=
  List.flatMap_append

/-- A text has as many bytes as its encoding. -/
@[simp] theorem length_encoded (cs : List Char) : (encoded cs).length = byteCount cs := by
  induction cs with
  | nil => rfl
  | cons c cs ih =>
    rw [encoded_cons, List.length_append, String.length_utf8EncodeChar, ih, byteCount]

theorem byteCount_append (cs ds : List Char) :
    byteCount (cs ++ ds) = byteCount cs + byteCount ds := by
  rw [← length_encoded, encoded_append, List.length_append, length_encoded, length_encoded]

/-- The bytes of a text are as many as are counted. -/
theorem byteCount_toList (s : String) : byteCount s.toList = s.utf8ByteSize := by
  rw [← length_encoded, ← String.size_toByteArray, ← String.utf8Encode_toList]
  simp [encoded, List.utf8Encode]

/-- The first byte of a character shows that it is the first one. -/
theorem utf8EncodeChar_eq_cons (c : Char) : ∃ first rest,
    String.utf8EncodeChar c = first :: rest ∧ continues first = false
      ∧ ∀ byte ∈ rest, continues byte = true := by
  unfold String.utf8EncodeChar continues
  dsimp only
  generalize c.val.toNat = v
  -- by the number of bytes: each one has its bits under a mark of its own
  split
  · refine ⟨_, _, rfl, ?_, nofun⟩
    simp
    omega
  split
  · refine ⟨_, _, rfl, ?_, ?_⟩
    · simp
      omega
    · simp
      omega
  split
  · refine ⟨_, _, rfl, ?_, ?_⟩
    · simp
      omega
    · simp
      omega
  · refine ⟨_, _, rfl, ?_, ?_⟩
    · simp
      omega
    · simp
      omega

/-- Characters begin with a byte that shows it. -/
theorem head?_encoded (cs : List Char) :
    encoded cs = [] ∨ (encoded cs)[0]?.any (!continues ·) = true := by
  cases cs with
  | nil => exact .inl rfl
  | cons c cs =>
    obtain ⟨first, rest, hbytes, hfirst, -⟩ := utf8EncodeChar_eq_cons c
    right
    rw [encoded_cons, hbytes]
    simp [hfirst]

/-- Behind a character, a place is what it would be without the character; within it there is none
but the beginning. -/
theorem isBoundary_encoded_cons (c : Char) (cs : List Char) (place : Nat) :
    isBoundary (encoded (c :: cs)) place
      = (place == 0 || c.utf8Size ≤ place && isBoundary (encoded cs) (place - c.utf8Size)) := by
  obtain ⟨first, rest, hbytes, hfirst, hrest⟩ := utf8EncodeChar_eq_cons c
  have hsize : c.utf8Size = rest.length + 1 := by
    rw [← String.length_utf8EncodeChar, hbytes, List.length_cons]
  rw [encoded_cons, hbytes, List.cons_append]
  cases place with
  | zero => simp [isBoundary]
  | succ place =>
    have hlength : (first :: (rest ++ encoded cs)).length = c.utf8Size + byteCount cs := by
      rw [List.length_cons, List.length_append, length_encoded]
      omega
    unfold isBoundary
    rw [List.getElem?_cons_succ, hlength, length_encoded]
    by_cases hinside : place < rest.length
    · have hshort : ¬c.utf8Size ≤ place + 1 := by omega
      have hend : place + 1 ≠ c.utf8Size + byteCount cs := by omega
      have hcontinues := hrest _ (List.getElem_mem hinside)
      rw [List.getElem?_append_left hinside, List.getElem?_eq_getElem hinside]
      simp [hshort, hend, hcontinues]
    · have hlong : c.utf8Size ≤ place + 1 := by omega
      have hbehind : place + 1 - c.utf8Size = place - rest.length := by omega
      have hend : (place + 1 == c.utf8Size + byteCount cs)
          = (place - rest.length == byteCount cs) := by
        rw [Bool.eq_iff_iff, beq_iff_eq, beq_iff_eq]
        omega
      rw [List.getElem?_append_right (Nat.le_of_not_lt hinside), hbehind, hend]
      -- where the character ends, the next one begins or the bytes end
      cases place - rest.length with
      | zero =>
        rcases head?_encoded cs with hnil | hhead
        · have hzero : byteCount cs = 0 := by rw [← length_encoded, hnil, List.length_nil]
          simp [hlong, hzero]
        · simp [hlong, hhead]
      | succ n => simp [hlong]

/-- The places are the ends of beginnings of the characters. -/
theorem isBoundary_encoded_iff (cs : List Char) (place : Nat) :
    isBoundary (encoded cs) place = true ↔ ∃ before, before <+: cs ∧ byteCount before = place := by
  -- along the characters: a place is the start, or a place of the rest behind the first one
  induction cs generalizing place with
  | nil =>
    constructor
    · intro h
      have hzero : place = 0 := by simpa [isBoundary] using h
      exact ⟨[], List.nil_prefix, hzero.symm⟩
    · rintro ⟨before, hbefore, rfl⟩
      rw [List.prefix_nil.1 hbefore]
      rfl
  | cons c cs ih =>
    rw [isBoundary_encoded_cons, Bool.or_eq_true, Bool.and_eq_true, ih, beq_iff_eq,
      decide_eq_true_eq]
    constructor
    · rintro (rfl | ⟨hlong, before, hbefore, hcount⟩)
      · exact ⟨[], List.nil_prefix, rfl⟩
      · refine ⟨c :: before, List.cons_prefix_cons.2 ⟨rfl, hbefore⟩, ?_⟩
        rw [byteCount, hcount]
        omega
    · rintro ⟨before, hbefore, rfl⟩
      rcases List.prefix_cons_iff.1 hbefore with rfl | ⟨rest, rfl, hrest⟩
      · exact .inl rfl
      · right
        rw [byteCount]
        exact ⟨by omega, rest, hrest, by omega⟩

/-! ## The search -/

/-- From a place the search goes back to the last one where the bytes may be cut, and does not go
past the beginning. -/
theorem backToBoundary_eq (bytes : List UInt8) (place : Nat) : ∃ found,
    backToBoundary bytes place = some found ∧ found ≤ place ∧ isBoundary bytes found = true
      ∧ ∀ other ≤ place, isBoundary bytes other = true → other ≤ found := by
  induction place with
  | zero => exact ⟨0, rfl, Nat.le_refl 0, rfl, fun other hother _ => hother⟩
  | succ place ih =>
    rw [backToBoundary]
    by_cases hhere : isBoundary bytes (place + 1) = true
    · rw [if_pos hhere]
      exact ⟨place + 1, rfl, Nat.le_refl _, hhere, fun other hother _ => hother⟩
    · rw [if_neg hhere]
      obtain ⟨found, hfound, hle, hboundary, hlast⟩ := ih
      refine ⟨found, hfound, by omega, hboundary, fun other hother hcut => ?_⟩
      have hne : other ≠ place + 1 := fun heq => hhere (heq ▸ hcut)
      exact hlast other (by omega) hcut

/-! ## What fits -/

/-- What fits is a beginning of the text. -/
theorem fitting_prefix (limit : Nat) (cs : List Char) : fitting limit cs <+: cs := by
  induction cs generalizing limit with
  | nil => exact List.nil_prefix
  | cons c cs ih =>
    rw [fitting]
    split
    · exact List.cons_prefix_cons.2 ⟨rfl, ih _⟩
    · exact List.nil_prefix

/-- A beginning within the limit is a beginning of what fits. -/
theorem prefix_fitting {limit : Nat} {before cs : List Char} (h : before <+: cs)
    (hfits : byteCount before ≤ limit) : before <+: fitting limit cs := by
  induction cs generalizing limit before with
  | nil => exact h
  | cons c cs ih =>
    rcases List.prefix_cons_iff.1 h with rfl | ⟨rest, rfl, hrest⟩
    · exact List.nil_prefix
    · rw [byteCount] at hfits
      rw [fitting, if_pos (by omega)]
      exact List.cons_prefix_cons.2 ⟨rfl, ih hrest (by omega)⟩

/-- A beginning has no more bytes than the text. -/
theorem byteCount_le_of_prefix {before cs : List Char} (h : before <+: cs) :
    byteCount before ≤ byteCount cs := by
  obtain ⟨after, rfl⟩ := h
  rw [byteCount_append]
  exact Nat.le_add_right _ _

/-- What fits ends at the last place within the limit. -/
theorem le_byteCount_fitting {limit place : Nat} {cs : List Char} (hplace : place ≤ limit)
    (h : isBoundary (encoded cs) place = true) : place ≤ byteCount (fitting limit cs) := by
  obtain ⟨before, hbefore, rfl⟩ := (isBoundary_encoded_iff cs place).1 h
  exact byteCount_le_of_prefix (prefix_fitting hbefore hplace)

/-- What fits ends between two characters. -/
theorem isBoundary_fitting (limit : Nat) (cs : List Char) :
    isBoundary (encoded cs) (byteCount (fitting limit cs)) = true :=
  (isBoundary_encoded_iff cs _).2 ⟨_, fitting_prefix limit cs, rfl⟩

/-- What fits altogether is not cut. -/
theorem fitting_eq_self {limit : Nat} {cs : List Char} (h : byteCount cs ≤ limit) :
    fitting limit cs = cs := by
  have hwhole : cs <+: fitting limit cs := prefix_fitting List.prefix_rfl h
  have hpart : fitting limit cs <+: cs := fitting_prefix limit cs
  exact hpart.eq_of_length (Nat.le_antisymm hpart.length_le hwhole.length_le)

/-- The search finds the end of what fits. -/
theorem cutBack_encoded (cs : List Char) (limit : Nat) :
    cutBack (encoded cs) limit = some (encoded (fitting limit cs)) := by
  unfold cutBack
  by_cases hshort : (encoded cs).length ≤ limit
  · rw [if_pos hshort]
    rw [length_encoded] at hshort
    rw [fitting_eq_self hshort]
  · rw [if_neg hshort]
    obtain ⟨found, hfound, hle, hboundary, hlast⟩ := backToBoundary_eq (encoded cs) limit
    have hplace : found = (encoded (fitting limit cs)).length := by
      rw [length_encoded]
      apply Nat.le_antisymm
      · exact le_byteCount_fitting hle hboundary
      · exact hlast _ (byteCount_fitting_le limit cs) (isBoundary_fitting limit cs)
    obtain ⟨after, hafter⟩ := fitting_prefix limit cs
    have hsplit : encoded cs = encoded (fitting limit cs) ++ encoded after := by
      rw [← encoded_append, hafter]
    rw [hfound, Option.map_some, hplace, hsplit, List.take_left]

/-! ## Texts -/

/-- A beginning of the text, as long as it can be within the limit if it is to end where a character
does. -/
structure LongestWithin (limit : Nat) (s t : String) : Prop where
  beginning : t.toList <+: s.toList
  fits : t.utf8ByteSize ≤ limit
  boundary : isBoundary (toUtf8 s) t.utf8ByteSize = true
  longest : ∀ place ≤ limit, isBoundary (toUtf8 s) place = true → place ≤ t.utf8ByteSize

/-- A text is truncated to the bytes that fit. -/
theorem utf8ByteSize_truncate (s : String) (limit : Nat) :
    (truncate s limit).utf8ByteSize = byteCount (fitting limit s.toList) := by
  rw [← byteCount_toList, truncate, String.toList_ofList]

/-- A truncated text is the longest beginning within the limit. -/
theorem longestWithin_truncate (s : String) (limit : Nat) :
    LongestWithin limit s (truncate s limit) where
  beginning := by
    rw [truncate, String.toList_ofList]
    exact fitting_prefix limit s.toList
  fits := by
    rw [utf8ByteSize_truncate]
    exact byteCount_fitting_le limit s.toList
  boundary := by
    rw [utf8ByteSize_truncate]
    exact isBoundary_fitting limit s.toList
  longest := by
    intro place hplace hcut
    rw [utf8ByteSize_truncate]
    exact le_byteCount_fitting hplace hcut

/-! ### Blanks at the end -/

/-- The text without blanks at its end. -/
structure Trimmed (s t : String) : Prop where
  blanks : ∃ blanks : List Char, s.toList = t.toList ++ blanks ∧ ∀ c ∈ blanks, isBlank c = true
  last : ∀ c ∈ t.toList.getLast?, isBlank c = false

/-- White space at the end is cut off, and nothing else. -/
theorem trimmed_trimEnd (s : String) : Trimmed s (trimEnd s) := by
  have hsplit : s.toList
      = (trimEnd s).toList ++ (s.toList.reverse.takeWhile isBlank).reverse := by
    rw [trimEnd, String.toList_ofList, dropBlankEnd, ← List.reverse_append,
      List.takeWhile_append_dropWhile, List.reverse_reverse]
  refine ⟨⟨_, hsplit, fun c hc => ?_⟩, fun c hc => ?_⟩
  · exact List.all_eq_true.1 List.all_takeWhile c (List.mem_reverse.1 hc)
  · rw [trimEnd, String.toList_ofList, dropBlankEnd, List.getLast?_reverse] at hc
    have hhead := List.head?_dropWhile_not isBlank s.toList.reverse
    rw [Option.mem_def.1 hc] at hhead
    simpa using hhead

theorem utf8ByteSize_le_of_trimmed {s t : String} (h : Trimmed s t) :
    t.utf8ByteSize ≤ s.utf8ByteSize := by
  obtain ⟨blanks, hsplit, -⟩ := h.blanks
  rw [← byteCount_toList, ← byteCount_toList, hsplit, byteCount_append]
  exact Nat.le_add_right _ _

end Text

namespace Statement

open Text

/-- The search from the limit finds a place for every text and every limit, and what it cuts off
leaves the longest beginning that ends between characters. So a statement is shown within five
hundred bytes: the whole of it if it is short, and else with an ellipsis behind what is left; either
way the blanks at the end of what is left are gone. -/
theorem display_abridged (s : String) (limit : Nat) (statement : Statement) :
    cutBack (toUtf8 s) limit = some (toUtf8 (truncate s limit))
      ∧ LongestWithin limit s (truncate s limit)
      ∧ statement.display.utf8ByteSize ≤ 500
      ∧ (statement.sql.utf8ByteSize ≤ 497 → Trimmed statement.sql statement.display)
      ∧ (497 < statement.sql.utf8ByteSize → ∃ shown,
        Trimmed (truncate statement.sql 497) shown ∧ statement.display = shown ++ "...") := by
  have hdisplay : statement.display = trimEnd (truncate statement.sql 497)
      ++ (if statement.sql.utf8ByteSize > 497 then "..." else "") := rfl
  have htrimmed : Trimmed (truncate statement.sql 497) (trimEnd (truncate statement.sql 497)) :=
    trimmed_trimEnd _
  refine ⟨?_, longestWithin_truncate s limit, ?_, fun hshort => ?_, fun hlong => ?_⟩
  · show cutBack (encoded s.toList) limit = some (encoded (truncate s limit).toList)
    rw [cutBack_encoded, truncate, String.toList_ofList]
  · -- what is kept has its limit, and the ellipsis takes three bytes
    have hkept := utf8ByteSize_le_of_trimmed htrimmed
    have hfits := (longestWithin_truncate statement.sql 497).fits
    have hellipsis : (if statement.sql.utf8ByteSize > 497 then "..." else "").utf8ByteSize
        ≤ 3 := by
      split <;> decide
    rw [hdisplay, String.utf8ByteSize_append]
    omega
  · have hwhole : truncate statement.sql 497 = statement.sql := by
      rw [← byteCount_toList] at hshort
      rw [truncate, fitting_eq_self hshort, String.ofList_toList]
    rw [hdisplay, if_neg (by omega), String.append_empty]
    rw [hwhole] at htrimmed ⊢
    exact htrimmed
  · refine ⟨_, htrimmed, ?_⟩
    rw [hdisplay, if_pos hlong]

end Statement

end RowMapper
