import RowMapper.Proofs.Outcome
import RowMapper.Url.Host

/-!
# Texts of hosts

The text of a host can be told from what stands behind it, a port or a path. No slash is in it, and
a colon only in the address of eight numbers, which ends with a bracket. Names are made of
characters that are neither: those of other schemes are checked, and in domain names every character
that does not come from the name itself is a letter, a digit, a hyphen or a full stop.

* `Unmarked` is a text without slashes and colons, and `HostText` one that a port and a path can
  follow.
* `hostText_plain` and `hostText_special` are about the hosts that are read.
-/

namespace RowMapper.Url

/-! ## Texts without marks -/

/-- The text has neither the slash that begins a path nor the colon that begins a port. -/
def Unmarked (cs : List Char) : Prop := ∀ c ∈ cs, c ≠ '/' ∧ c ≠ ':'

-- character by character of the text: there is also a way that tries all characters there are
instance (cs : List Char) : Decidable (Unmarked cs) := List.decidableBAll _ cs

section

variable {cs ds : List Char}

/-- A text has no marks if its parts have none. -/
theorem unmarked_append : Unmarked (cs ++ ds) ↔ Unmarked cs ∧ Unmarked ds :=
  List.forall_mem_append

theorem unmarked_flatMap {α : Type} {f : α → List Char} {xs : List α}
    (h : ∀ x ∈ xs, Unmarked (f x)) : Unmarked (xs.flatMap f) := by
  intro c hc
  obtain ⟨x, hx, hcx⟩ := List.mem_flatMap.1 hc
  exact h x hx c hcx

/-- What is in a separated text is in a piece or in the separator. -/
theorem mem_of_mem_intercalate {sep : List Char} {pieces : List (List Char)} {c : Char}
    (h : c ∈ sep.intercalate pieces) : c ∈ sep ∨ ∃ piece ∈ pieces, c ∈ piece := by
  induction pieces with
  | nil => cases h
  | cons first rest ih =>
    cases rest with
    | nil => exact .inr ⟨first, List.mem_cons_self, by simpa using h⟩
    | cons second rest =>
      rw [List.intercalate_cons_cons, List.mem_append, List.mem_append] at h
      rcases h with (hfirst | hsep) | hrest
      · exact .inr ⟨first, List.mem_cons_self, hfirst⟩
      · exact .inl hsep
      · exact (ih hrest).imp_right fun ⟨piece, hpiece, hc⟩ =>
          ⟨piece, List.mem_cons_of_mem _ hpiece, hc⟩

/-- So has a text of pieces, with a separator that has none. -/
theorem unmarked_intercalate {sep : List Char} {pieces : List (List Char)} (hsep : Unmarked sep)
    (h : ∀ piece ∈ pieces, Unmarked piece) : Unmarked (sep.intercalate pieces) := by
  intro c hc
  rcases mem_of_mem_intercalate hc with hc | ⟨piece, hpiece, hc⟩
  · exact hsep c hc
  · exact h piece hpiece c hc

/-- The digits of a number are unmarked. -/
theorem unmarked_toString (n : Nat) : Unmarked (toString n).toList := by
  intro c hc
  rw [Nat.toString_eq_repr, Nat.toList_repr] at hc
  have hdigit : c.isDigit = true := Nat.isDigit_of_mem_toDigits (by omega) (by omega) hc
  constructor <;> rintro rfl <;> cases hdigit

/-- Padded or not, a number in base 16 is written in digits. -/
theorem mem_hexPadded {width n : Nat} {c : Char} (h : c ∈ Text.hexPadded width n) :
    ∃ d < 16, c = Text.hexDigit d := by
  induction width generalizing n with
  | zero => cases h
  | succ width ih =>
    rcases List.mem_append.1 h with h | h
    · exact ih h
    · exact ⟨n % 16, Nat.mod_lt _ (by decide), List.mem_singleton.1 h⟩

/-- No digit is a mark, in capitals either. -/
theorem unmarked_hexDigit : ∀ d < 16, Unmarked [Text.hexDigit d, (Text.hexDigit d).toUpper] := by
  decide

theorem unmarked_hex (n : Nat) : Unmarked (Text.hex n) := by
  intro c hc
  obtain ⟨d, hd, rfl⟩ := mem_hexPadded hc
  exact unmarked_hexDigit d hd _ (by simp)

/-- Percent encoding writes no marks of its own. -/
theorem unmarked_percentEncode {set : Char → Bool} (h : Unmarked cs) :
    Unmarked (percentEncode set cs) := by
  refine unmarked_flatMap fun c hc => ?_
  split
  · exact fun d hd => List.mem_singleton.1 hd ▸ h c hc
  · refine unmarked_flatMap fun b _ d hd => ?_
    rcases List.mem_cons.1 hd with rfl | hd
    · decide
    · obtain ⟨x, hx, rfl⟩ := List.mem_map.1 hd
      obtain ⟨digit, hdigit, rfl⟩ := mem_hexPadded hx
      exact unmarked_hexDigit digit hdigit _ (by simp)

end

/-! ## Domain names -/

namespace Punycode

/-- What is inserted is beyond ASCII. -/
theorem mem_of_insertAll {reached : Insertion} {text label : List Char} {deltas : List Nat}
    {c : Char} (h : insertAll reached text deltas = some label) (hreached : 0x80 ≤ reached.point)
    (hc : c ∈ label) : c ∈ text ∨ 0x80 ≤ c.toNat := by
  -- along the deltas: the point to insert never decreases
  induction deltas generalizing reached text with
  | nil =>
    cases h
    exact .inl hc
  | cons delta rest ih =>
    rw [insertAll] at h
    dsimp only at h
    split at h
    · rename_i hvalid
      have hpoint : 0x80 ≤ reached.point + (reached.place + delta) / (text.length + 1) :=
        Nat.le_trans hreached (Nat.le_add_right _ _)
      rcases ih h hpoint with hmem | hbeyond
      · rcases List.mem_append.1 hmem with hfront | hmem
        · exact .inl (List.mem_of_mem_take hfront)
        · rcases List.mem_cons.1 hmem with rfl | hback
          · rw [Char.ofNat, dif_pos hvalid]
            exact .inr hpoint
          · exact .inl (List.mem_of_mem_drop hback)
      · exact .inr hbeyond
    · cases h

/-- The ASCII characters of a label stand in its form. -/
theorem mem_of_decode {form label : List Char} {c : Char} (h : decode form = some label)
    (hc : c ∈ label) : c ∈ form ∨ 0x80 ≤ c.toNat := by
  obtain ⟨deltas, -, hlabel⟩ := Option.bind_eq_some_iff.1 h
  exact (mem_of_insertAll hlabel (Nat.le_refl _) hc).imp_left List.mem_of_mem_take

/-- No digit of an encoded label is a mark. -/
theorem unmarked_digit : ∀ n < 36, Unmarked [digit n] := by decide

theorem unmarked_writeNumber (bias position n : Nat) : Unmarked (writeNumber bias position n) := by
  have hpos := threshold_pos position bias
  have hle : threshold position bias ≤ 26 := Nat.min_le_left _ _
  induction n using Nat.strongRecOn generalizing position with
  | _ n ih =>
    rw [writeNumber]
    dsimp only
    split
    · exact unmarked_digit n (by omega)
    · have hmod := Nat.mod_lt (n - threshold position bias)
        (show 0 < 36 - threshold position bias by omega)
      have hdiv := Nat.div_le_self (n - threshold position bias) (36 - threshold position bias)
      refine List.forall_mem_cons.2 ⟨unmarked_digit _ (by omega) _ List.mem_cons_self, ?_⟩
      exact ih _ (by omega) _ (threshold_pos _ _) (Nat.min_le_left _ _)

/-- An encoded label is written in digits. -/
theorem unmarked_writeDeltas (bias count : Nat) (first : Bool) (deltas : List Nat) :
    Unmarked (writeDeltas bias count first deltas) := by
  induction deltas generalizing bias count first with
  | nil => exact fun c hc => absurd hc List.not_mem_nil
  | cons delta rest ih => exact unmarked_append.2 ⟨unmarked_writeNumber _ _ _, ih _ _ _⟩

/-- The form of a label has no marks but those of the label. -/
theorem unmarked_encode {label : List Char} (h : Unmarked (label.filter (·.toNat < 0x80))) :
    Unmarked (encode label) := by
  refine unmarked_append.2 ⟨?_, unmarked_writeDeltas _ _ _ _⟩
  split
  · exact fun c hc => absurd hc List.not_mem_nil
  · exact unmarked_append.2 ⟨h, by decide⟩

end Punycode

namespace Domain

/-- Labels have the characters of their name. -/
theorem mem_of_mem_cutLabels {name label : List Char} {c : Char} (hlabel : label ∈ cutLabels name)
    (hc : c ∈ label) : c ∈ name := by
  -- along the name: a dot begins a label, any other character belongs to the first label behind it
  induction name generalizing label with
  | nil =>
    rw [List.mem_singleton.1 hlabel] at hc
    cases hc
  | cons first rest ih =>
    rw [cutLabels] at hlabel
    split at hlabel
    · rw [List.mem_singleton.1 hlabel] at hc
      exact List.mem_cons.2 (.inl (List.mem_singleton.1 hc))
    · rename_i front labels hcut
      rw [hcut] at ih
      split at hlabel
      · rcases List.mem_cons.1 hlabel with rfl | hlabel
        · cases hc
        · exact List.mem_cons_of_mem _ (ih hlabel hc)
      · rcases List.mem_cons.1 hlabel with rfl | hlabel
        · rcases List.mem_cons.1 hc with rfl | hc
          · exact List.mem_cons_self
          · exact List.mem_cons_of_mem _ (ih List.mem_cons_self hc)
        · exact List.mem_cons_of_mem _ (ih (List.mem_cons_of_mem _ hlabel) hc)

/-- A label has no ASCII characters that do not stand in what it is read from. -/
theorem mem_of_readLabel {written label : List Char} {c : Char} (h : readLabel written = some label)
    (hc : c ∈ label) : c ∈ written ∨ 0x80 ≤ c.toNat := by
  unfold readLabel at h
  split at h
  · unfold labelOfForm? at h
    split at h
    · cases h
    · obtain ⟨hdecoded, -⟩ := Option.filter_eq_some_iff.1 h
      exact (Punycode.mem_of_decode hdecoded hc).imp_left List.mem_of_mem_drop
  · split at h
    · cases h
      exact .inl hc
    · split at h
      · cases h
        exact .inl hc
      · cases h

/-- A label has no marks if its plain characters are none. -/
theorem unmarked_writeLabel {label : List Char} (h : Unmarked (label.filter (·.toNat < 0x80))) :
    Unmarked (writeLabel label) := by
  unfold writeLabel
  split
  · rename_i hascii
    rwa [List.filter_eq_self.2 fun c hc => List.all_eq_true.1 hascii c hc] at h
  · exact unmarked_append.2 ⟨by decide, Punycode.unmarked_encode h⟩

/-- Names with marks in them are refused. -/
theorem unmarked_folded {name folded : List Char} (h : folded? name = some folded) :
    Unmarked folded := by
  obtain ⟨chars, -, h⟩ := Option.bind_eq_some_iff.1 h
  change (if _ then _ else _) = _ at h
  split at h
  · cases h
  · rename_i hfree
    cases h
    intro c hc
    have hc' : isForbidden c = false := by
      simpa using List.any_eq_false.1 (by simpa using hfree) c hc
    constructor <;> rintro rfl <;> revert hc' <;> decide

/-- The ASCII form of a domain name is unmarked. -/
theorem unmarked_asciiForm {name form : List Char} (h : asciiForm? name = some form) :
    Unmarked form := by
  obtain ⟨folded, hfolded, h⟩ := Option.bind_eq_some_iff.1 h
  obtain ⟨labels, hlabels, h⟩ := Option.bind_eq_some_iff.1 h
  split at h
  · cases h
  · cases h
    refine unmarked_intercalate (by decide) fun piece hpiece => ?_
    obtain ⟨label, hlabel, rfl⟩ := List.mem_map.1 hpiece
    refine unmarked_writeLabel fun c hc => ?_
    obtain ⟨hmem, hascii⟩ := List.mem_filter.1 hc
    obtain ⟨written, hwritten, hread⟩ := exists_of_mapM_eq_some hlabels hlabel
    rcases mem_of_readLabel hread hmem with hfront | hbeyond
    · exact unmarked_folded hfolded c (mem_of_mem_cutLabels hwritten hfront)
    · have : c.toNat < 0x80 := by simpa using hascii
      omega

end Domain

/-! ## Hosts -/

/-- The text is told from a port and a path behind it: it is not empty, it has no slash, and it
has a colon only if it ends with a bracket. -/
structure HostText (cs : List Char) : Prop where
  nonempty : cs ≠ []
  unslashed : '/' ∉ cs
  closed : ':' ∈ cs → cs.getLast? = some ']'

/-- A text without marks is the text of a host. -/
theorem Unmarked.hostText {cs : List Char} (h : Unmarked cs) (hsome : cs ≠ []) : HostText cs where
  nonempty := hsome
  unslashed hslash := (h _ hslash).1 rfl
  closed hcolon := absurd rfl (h _ hcolon).2

/-- An address of four numbers is the text of a host. -/
theorem hostText_address4 (n : Nat) : HostText (Host.address4 n).text.toList := by
  have htext : (Host.address4 n).text.toList = ['.'].intercalate
      ([n / 0x1000000, n / 0x10000 % 0x100, n / 0x100 % 0x100, n % 0x100].map
        fun k => (toString k).toList) := String.toList_intercalate
  refine Unmarked.hostText ?_ ?_
  · rw [htext]
    refine unmarked_intercalate (by decide) fun piece hpiece => ?_
    obtain ⟨k, -, rfl⟩ := List.mem_map.1 hpiece
    exact unmarked_toString k
  · rw [htext, List.map_cons, List.map_cons, List.intercalate_cons_cons]
    simp

/-- The pieces of an address are written without slashes. -/
theorem unslashed_address6 (pieces : List Nat) : '/' ∉ (address6Text pieces).toList := by
  have hwritten (ps : List Nat) :
      '/' ∉ (":".intercalate (ps.map fun p => String.ofList (Text.hex p))).toList := by
    rw [String.toList_intercalate]
    intro hslash
    rcases mem_of_mem_intercalate hslash with hcolon | ⟨piece, hpiece, hslash⟩
    · revert hcolon
      decide
    · obtain ⟨text, htext, rfl⟩ := List.mem_map.1 hpiece
      obtain ⟨p, -, rfl⟩ := List.mem_map.1 htext
      rw [String.toList_ofList] at hslash
      exact (unmarked_hex p _ hslash).1 rfl
  unfold address6Text
  dsimp only
  split
  · exact hwritten pieces
  · simp only [String.toList_append, List.mem_append, not_or]
    exact ⟨⟨hwritten _, by decide⟩, hwritten _⟩

/-- An address in brackets is the text of a host. -/
theorem hostText_address6 (pieces : List Nat) : HostText (Host.address6 pieces).text.toList := by
  have htext : (Host.address6 pieces).text.toList
      = '[' :: ((address6Text pieces).toList ++ [']']) := by
    simp [Host.text]
  rw [htext]
  refine ⟨List.cons_ne_nil _ _, ?_, fun _ => ?_⟩
  · simpa using unslashed_address6 pieces
  · rw [← List.cons_append, List.getLast?_concat]

/-- Other schemes read a host, if it is not an empty name. -/
theorem hostText_plain {s : String} {host : Host} (h : readPlainHost s = .ok host)
    (hsome : host ≠ .name "") : HostText host.text.toList := by
  unfold readPlainHost at h
  split at h
  · obtain ⟨inner, -, h⟩ := Except.bind_eq_ok.1 h
    obtain ⟨pieces, -, h⟩ := Except.bind_eq_ok.1 h
    cases h
    exact hostText_address6 pieces
  · split at h
    · cases h
    · rename_i hfree
      cases h
      -- a mark is forbidden in a host, and percent-encoding adds none
      have hunmarked : Unmarked s.toList := by
        intro c hc
        have hc' : isForbiddenInHost c = false := by
          simpa using List.any_eq_false.1 (by simpa using hfree) c hc
        constructor <;> rintro rfl <;> revert hc' <;> decide
      have htext : (Host.name (String.ofList (percentEncode isControl s.toList))).text.toList
          = percentEncode isControl s.toList := String.toList_ofList
      rw [htext]
      refine (unmarked_percentEncode hunmarked).hostText fun hnone => hsome ?_
      rw [hnone]

/-- A special scheme reads a host. -/
theorem hostText_special {s : String} {host : Host} (h : readSpecialHost s = .ok host) :
    HostText host.text.toList := by
  unfold readSpecialHost at h
  split at h
  · -- an address in brackets, an address of four numbers, or a domain
    obtain ⟨inner, -, h⟩ := Except.bind_eq_ok.1 h
    obtain ⟨pieces, -, h⟩ := Except.bind_eq_ok.1 h
    cases h
    exact hostText_address6 pieces
  · obtain ⟨domain, hdomain, h⟩ := Except.bind_eq_ok.1 h
    split at h
    · cases h
    · rename_i hsome
      split at h
      · obtain ⟨number, -, h⟩ := Except.bind_eq_ok.1 h
        cases h
        exact hostText_address4 number
      · cases h
        unfold readDomain at hdomain
        dsimp only at hdomain
        split at hdomain
        · rename_i name hname
          cases hdomain
          obtain ⟨decoded, -, hform⟩ := Option.bind_eq_some_iff.1 hname
          show HostText (String.ofList name).toList
          rw [String.toList_ofList]
          refine (Domain.unmarked_asciiForm hform).hostText fun hnone => hsome ?_
          rw [hnone]
          rfl
        · cases hdomain

end RowMapper.Url
