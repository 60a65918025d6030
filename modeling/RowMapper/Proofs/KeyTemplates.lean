import RowMapper.Proofs.StatementText

/-!
# Templates of keys

A template has places for the variable of a key, for its column and for its table. They are filled
one kind after another, over the whole text each time, so what one kind was filled with is searched
for the places of the next kind. The variable has none. The quoted column keeps every character of
the column's name but the closing quotes, so it has a place for the table exactly if the name has
one, and the quoted table is then written into the middle of the quoted column.

- `Template.pieces` splits a template into its places and the characters between them.
- `Template.Splits.substitute_fill` is one kind of place filled in a template of which others may be
  filled already.
- `Dialect.keyTemplate_eq_filled` puts the three kinds together, and `Dialect.keyTemplate_shipped`
  is what they come to in the given dialects.
- `Dialect.keyTemplate_eq_filled_iff` says what the three of them write, and when it is the template
  with its places filled.
-/

namespace RowMapper

namespace Text

variable {p r xs ys : List Char} {c : Char}

/-! ## Substitution -/

/-- An occurrence at the beginning is replaced. -/
theorem substitute_append_left (hp : p ≠ []) (cs : List Char) :
    substitute p r (p ++ cs) = r ++ substitute p r cs := by
  cases p with
  | nil => exact absurd rfl hp
  | cons c p =>
    have hprefix : List.isPrefixOf (c :: p) (c :: (p ++ cs)) = true :=
      List.isPrefixOf_iff_prefix.2 ⟨cs, rfl⟩
    have hrest : (p ++ cs).drop ((c :: p).length - 1) = cs := by simp
    show substitute (c :: p) r (c :: (p ++ cs)) = _
    rw [substitute, if_pos hprefix, hrest]

/-- A character at which no occurrence begins stays. -/
theorem substitute_cons {cs : List Char} (h : ¬p <+: c :: cs) :
    substitute p r (c :: cs) = c :: substitute p r cs := by
  rw [substitute, if_neg (fun hprefix => h (List.isPrefixOf_iff_prefix.1 hprefix))]

/-- A text without occurrences stays as it is. -/
theorem substitute_of_not_infix (h : ¬p <:+: xs) : substitute p r xs = xs := by
  induction xs with
  | nil => rw [substitute]
  | cons c xs ih =>
    rw [List.infix_cons_iff, not_or] at h
    rw [substitute_cons h.1, ih h.2]

/-- A text stays as it is only if it has no occurrences, provided that the replacement begins
differently from the pattern. -/
theorem substitute_eq_self_iff (hp : p ≠ []) (hr : ∃ c ∈ r.head?, c ∉ p) :
    substitute p r xs = xs ↔ ¬p <:+: xs := by
  refine ⟨fun h hinfix => ?_, substitute_of_not_infix⟩
  induction xs with
  | nil => exact hp (List.infix_nil.1 hinfix)
  | cons c xs ih =>
    by_cases hprefix : p <+: c :: xs
    · obtain ⟨rest, hrest⟩ := hprefix
      obtain ⟨x, hx, hxp⟩ := hr
      obtain ⟨r', rfl⟩ := List.head?_eq_some_iff.1 hx
      obtain ⟨y, p', rfl⟩ := List.exists_cons_of_ne_nil hp
      rw [← hrest, substitute_append_left hp, List.cons_append, List.cons_append] at h
      exact hxp (List.mem_cons.2 (.inl (List.cons.inj h).1))
    · rw [substitute_cons hprefix] at h
      exact ih (List.cons.inj h).2 ((List.infix_cons_iff.1 hinfix).resolve_left hprefix)

/-- No occurrence of the pattern crosses the beginning or the end of the text. -/
structure Apart (p cs : List Char) : Prop where
  first : ∃ c ∈ cs.head?, c ∉ p.tail
  last : ∃ c ∈ cs.getLast?, c ∉ p.dropLast

/-- A pattern that begins within a text ends within it if it does not have the last character of the
text before its own end. -/
theorem prefix_of_prefix_append (h : p <+: xs ++ ys) (hxs : xs ≠ [])
    (hlast : ∀ c ∈ xs.getLast?, c ∉ p.dropLast) : p <+: xs := by
  rcases Nat.lt_or_ge xs.length p.length with hlong | hshort
  · have hbegins : xs <+: p := List.prefix_of_prefix_length_le (List.prefix_append _ _) h
      (Nat.le_of_lt hlong)
    obtain ⟨after, rfl⟩ := hbegins
    have hafter : after ≠ [] := by
      rintro rfl
      simp at hlong
    have hmem : xs.getLast hxs ∈ (xs ++ after).dropLast := by
      rw [List.dropLast_append_of_ne_nil hafter]
      exact List.mem_append_left _ (List.getLast_mem hxs)
    exact absurd hmem (hlast _ (List.getLast?_eq_some_getLast hxs))
  · exact List.prefix_of_prefix_length_le h (List.prefix_append _ _) hshort

/-- Two texts are searched one after the other if no occurrence crosses from one to the other. -/
theorem substitute_append (hp : p ≠ []) (hlast : ∀ c ∈ xs.getLast?, c ∉ p.dropLast) :
    substitute p r (xs ++ ys) = substitute p r xs ++ substitute p r ys := by
  -- the search goes on behind an occurrence, or else behind one character
  induction hn : xs.length using Nat.strongRecOn generalizing xs with
  | ind n ih =>
    cases xs with
    | nil => rw [substitute.eq_1, List.nil_append, List.nil_append]
    | cons c xs =>
      have hbehind {zs : List Char} (hzs : zs <:+ c :: xs) :
          ∀ c ∈ zs.getLast?, c ∉ p.dropLast := by
        obtain ⟨before, hbefore⟩ := hzs
        intro z hz
        refine hlast z ?_
        rw [← hbefore, List.getLast?_append, Option.mem_def.1 hz]
        rfl
      by_cases hprefix : p <+: c :: xs
      · obtain ⟨zs, hzs⟩ := hprefix
        have hlength : zs.length < n := by
          have hsum := congrArg List.length hzs
          have hpos := List.length_pos_of_ne_nil hp
          rw [List.length_append] at hsum
          omega
        rw [← hzs, List.append_assoc, substitute_append_left hp, substitute_append_left hp,
          ih zs.length hlength (hbehind ⟨p, hzs⟩) rfl, List.append_assoc]
      · have hcrossing : ¬p <+: c :: (xs ++ ys) := by
          rw [← List.cons_append]
          exact fun h => hprefix (prefix_of_prefix_append h (List.cons_ne_nil _ _) hlast)
        have hlength : xs.length < n := by
          rw [List.length_cons] at hn
          omega
        rw [List.cons_append, substitute_cons hcrossing, substitute_cons hprefix,
          ih xs.length hlength (hbehind (List.suffix_cons c xs)) rfl, List.cons_append]

end Text

/-! ## Occurrences in quoted names -/

theorem Text.prefix_escaped {a : Char} {p xs : List Char} (ha : a ∉ p) :
    p <+: (xs.flatMap fun c => if c = a then [a, a] else [c]) ↔ p <+: xs := by
  induction p generalizing xs with
  | nil => exact ⟨fun _ => List.nil_prefix, fun _ => List.nil_prefix⟩
  | cons y p ih =>
    rw [List.mem_cons, not_or] at ha
    cases xs with
    | nil => exact Iff.rfl
    | cons c xs =>
      by_cases hc : c = a
      · have hne : y ≠ a := fun h => ha.1 h.symm
        simp [hc, hne]
      · simp [hc, ih ha.2]

/-- Doubled characters that a pattern does not have make no occurrence and break none. -/
theorem Text.infix_escaped {a : Char} {p xs : List Char} (hp : p ≠ []) (ha : a ∉ p) :
    p <:+: (xs.flatMap fun c => if c = a then [a, a] else [c]) ↔ p <:+: xs := by
  induction xs with
  | nil => exact Iff.rfl
  | cons c xs ih =>
    have hbegins : p <+: ((c :: xs).flatMap fun c => if c = a then [a, a] else [c])
        ↔ p <+: c :: xs := prefix_escaped ha
    rw [List.flatMap_cons] at hbegins ⊢
    by_cases hc : c = a
    · obtain ⟨y, p', rfl⟩ := List.exists_cons_of_ne_nil hp
      have hy : y ≠ a := fun h => ha (h ▸ List.mem_cons_self)
      simp [hc, hy, List.infix_cons_iff, ih]
    · rw [if_neg hc, List.singleton_append] at hbegins ⊢
      rw [List.infix_cons_iff, List.infix_cons_iff, hbegins, ih]

/-- The quotes stand around the name, in which the closing one is doubled. -/
theorem Quoting.toList_quote (q : Quoting) (name : String) :
    (q.quote name).toList = q.left ::
      ((name.toList.flatMap fun c => if c = q.right then [q.right, q.right] else [c])
        ++ [q.right]) := by
  simp [Quoting.quote, Text.escaping]

/-- A pattern without the quotes occurs in the quoted name exactly if it does in the name. -/
theorem Quoting.infix_quote {q : Quoting} {p : List Char} (hp : p ≠ []) (hleft : q.left ∉ p)
    (hright : q.right ∉ p) (name : String) :
    p <:+: (q.quote name).toList ↔ p <:+: name.toList := by
  have hbegins (cs : List Char) : ¬p <+: q.left :: cs := by
    obtain ⟨y, p', rfl⟩ := List.exists_cons_of_ne_nil hp
    intro h
    exact hleft (List.mem_cons.2 (.inl (List.cons_prefix_cons.1 h).1.symm))
  have hends (cs : List Char) : ¬p <:+ cs ++ [q.right] := by
    rintro ⟨before, h⟩
    have hlast := congrArg List.getLast? h
    rw [List.getLast?_append, List.getLast?_concat, List.getLast?_eq_some_getLast hp] at hlast
    exact hright (Option.some.inj hlast ▸ List.getLast_mem hp)
  rw [toList_quote, List.infix_cons_iff, or_iff_right (hbegins _), List.infix_concat_iff,
    or_iff_right (hends _), Text.infix_escaped hp hright]

namespace Template

/-! ## Places and pieces -/

/-- What a template has places for. -/
inductive Place where
  | key
  | column
  | table
  deriving DecidableEq

/-- How a place is written. -/
def Place.text : Place → List Char
  | .key => "\x7bkey\x7d".toList
  | .column => "\x7bcolumn\x7d".toList
  | .table => "\x7btable\x7d".toList

/-- A piece of a template. -/
inductive Piece where
  | char (c : Char)
  | place (p : Place)

/-- The place that the characters begin with. -/
def place? (cs : List Char) : Option Place :=
  [Place.key, .column, .table].find? fun p => p.text.isPrefixOf cs

/-- The pieces of a template, from left to right. -/
def pieces : List Char → List Piece
  | [] => []
  | c :: rest =>
    match place? (c :: rest) with
    | some p => .place p :: pieces (rest.drop (p.text.length - 1))
    | none => .char c :: pieces rest
termination_by cs => cs.length
decreasing_by all_goals simp only [List.length_drop, List.length_cons]; omega

/-- The pieces with a text in each place. -/
def fill (f : Place → List Char) (ps : List Piece) : List Char :=
  ps.flatMap fun
    | .char c => [c]
    | .place p => f p

/-- The template with a text in each place, and otherwise as it is. -/
def filled (template : String) (f : Place → String) : String :=
  String.ofList (fill (fun p => (f p).toList) (pieces template.toList))

/-- The characters are those of the pieces, and no place among them is read as characters. -/
inductive Splits : List Char → List Piece → Prop where
  | nil : Splits [] []
  | char {c : Char} {cs : List Char} {ps : List Piece} (h : ∀ p : Place, ¬p.text <+: c :: cs)
      (hs : Splits cs ps) : Splits (c :: cs) (.char c :: ps)
  | place (p : Place) {cs : List Char} {ps : List Piece} (hs : Splits cs ps) :
      Splits (p.text ++ cs) (.place p :: ps)

@[simp] theorem fill_nil (f : Place → List Char) : fill f [] = [] := rfl

@[simp] theorem fill_char (f : Place → List Char) (c : Char) (ps : List Piece) :
    fill f (.char c :: ps) = c :: fill f ps := rfl

@[simp] theorem fill_place (f : Place → List Char) (p : Place) (ps : List Piece) :
    fill f (.place p :: ps) = f p ++ fill f ps := rfl

/-- A place begins with a brace and has no other one. -/
theorem Place.text_eq_cons (p : Place) : ∃ name, p.text = Text.brace :: name
    ∧ Text.brace ∉ name := by
  cases p with
  | key | column | table => exact ⟨_, rfl, by decide⟩

theorem Place.text_ne_nil (p : Place) : p.text ≠ [] := by
  obtain ⟨name, hname, -⟩ := p.text_eq_cons
  rw [hname]
  exact List.cons_ne_nil _ _

/-- Places are told apart wherever they end. -/
theorem Place.eq_of_prefix {p q : Place} {cs : List Char} (hp : p.text <+: cs)
    (hq : q.text <+: cs) : p = q := by
  have hdistinct : p.text <+: q.text ∨ q.text <+: p.text → p = q := by
    cases p <;> cases q <;> decide
  exact hdistinct (List.prefix_or_prefix_of_prefix hp hq)

theorem place?_eq_some {cs : List Char} {p : Place} (h : place? cs = some p) : p.text <+: cs :=
  List.isPrefixOf_iff_prefix.1 (List.find?_some (p := fun p : Place => p.text.isPrefixOf cs) h)

theorem place?_eq_none {cs : List Char} (h : place? cs = none) (p : Place) : ¬p.text <+: cs := by
  have hall := List.find?_eq_none.1 h p (by cases p <;> decide)
  exact fun hprefix => hall (List.isPrefixOf_iff_prefix.2 hprefix)

theorem splits_pieces (cs : List Char) : Splits cs (pieces cs) := by
  induction cs using pieces.induct with
  | case1 => rw [pieces]; exact .nil
  | case2 c rest p hp ih =>
    obtain ⟨after, hafter⟩ := place?_eq_some hp
    have hdrop : rest.drop (p.text.length - 1) = after := by
      have hlength := List.length_pos_of_ne_nil p.text_ne_nil
      rw [← List.drop_succ_cons (a := c), ← hafter, Nat.sub_add_cancel hlength, List.drop_left]
    rw [hdrop] at ih
    rw [pieces, hp]
    dsimp only
    rw [hdrop, ← hafter]
    exact .place p ih
  | case3 c rest hnone ih =>
    rw [pieces, hnone]
    exact .char (place?_eq_none hnone) ih

variable {cs : List Char} {ps : List Piece}

/-- With every place written in its place, the pieces are the template. -/
theorem Splits.fill_text (h : Splits cs ps) : fill Place.text ps = cs := by
  induction h with
  | nil => rfl
  | char _ _ ih => rw [fill_char, ih]
  | place p _ ih => rw [fill_place, ih]

/-- What has a brace only at its beginning occurs behind characters without braces. -/
theorem infix_of_infix_append {name xs ys : List Char} (hxs : Text.brace ∉ xs)
    (h : Text.brace :: name <:+: xs ++ ys) : Text.brace :: name <:+: ys := by
  induction xs with
  | nil => exact h
  | cons x xs ih =>
    rw [List.mem_cons, not_or] at hxs
    rcases List.infix_cons_iff.1 h with hbegins | hinfix
    · exact absurd (List.cons_prefix_cons.1 hbegins).1 hxs.1
    · exact ih hxs.2 hinfix

/-- Behind a place, another place occurs where it does without the one before it. -/
theorem Place.infix_append_iff {p q : Place} :
    q.text <:+: p.text ++ cs ↔ q = p ∨ q.text <:+: cs := by
  obtain ⟨name, hname, hbrace⟩ := p.text_eq_cons
  obtain ⟨name', hname', -⟩ := q.text_eq_cons
  constructor
  · intro h
    have hcases : q.text <+: p.text ++ cs ∨ q.text <:+: name ++ cs := by
      rw [hname, List.cons_append] at h ⊢
      exact List.infix_cons_iff.1 h
    rcases hcases with hbegins | hbehind
    · exact .inl (Place.eq_of_prefix hbegins (List.prefix_append _ _))
    · rw [hname'] at hbehind ⊢
      exact .inr (infix_of_infix_append hbrace hbehind)
  · rintro (rfl | hrest)
    · exact (List.prefix_append _ _).isInfix
    · exact hrest.trans (List.suffix_append _ _).isInfix

/-- A place occurs in no other one. -/
theorem Place.not_infix {p q : Place} (h : q ≠ p) : ¬q.text <:+: p.text := by
  rw [← List.append_nil p.text, Place.infix_append_iff, or_iff_right h, List.infix_nil]
  exact q.text_ne_nil

/-- The places of a template are what it has of their texts. -/
theorem Splits.place_mem_iff (h : Splits cs ps) (q : Place) : .place q ∈ ps ↔ q.text <:+: cs := by
  induction h with
  | nil =>
    exact ⟨fun h => absurd h List.not_mem_nil, fun h => absurd (List.infix_nil.1 h) q.text_ne_nil⟩
  | char hnone _ ih =>
    rw [List.infix_cons_iff, or_iff_right (hnone q), ← ih, List.mem_cons]
    exact or_iff_right nofun
  | place p _ ih => rw [List.mem_cons, Piece.place.injEq, ih, Place.infix_append_iff]

/-! ## One kind of place -/

variable {f g : Place → List Char} {q : Place} {r : List Char}

/-- What a filled template begins with is what the template begins with, as far as no filling can
begin in it. -/
theorem Splits.prefix_of_prefix_fill (h : Splits cs ps) {w : List Char}
    (hf : ∀ p, ∃ c ∈ (f p).head?, c ∉ w) (hw : w <+: fill f ps) : w <+: cs := by
  induction h generalizing w with
  | nil => exact hw
  | char _ _ ih =>
    rcases List.prefix_cons_iff.1 hw with rfl | ⟨w', rfl, hw'⟩
    · exact List.nil_prefix
    · refine List.cons_prefix_cons.2 ⟨rfl, ih (fun p => ?_) hw'⟩
      obtain ⟨x, hx, hmem⟩ := hf p
      exact ⟨x, hx, fun h => hmem (List.mem_cons_of_mem _ h)⟩
  | place p _ ih =>
    obtain ⟨x, hx, hmem⟩ := hf p
    obtain ⟨rest, hrest⟩ := List.head?_eq_some_iff.1 hx
    rw [fill_place, hrest, List.cons_append] at hw
    rcases List.prefix_cons_iff.1 hw with rfl | ⟨w', rfl, -⟩
    · exact List.nil_prefix
    · exact absurd List.mem_cons_self hmem

/-- Filling one kind of place in a template fills those places, and those that the other fillings
have within them. -/
theorem Splits.substitute_fill (h : Splits cs ps) (hq : f q = q.text) (hr : g q = r)
    (hg : ∀ p ≠ q, g p = Text.substitute q.text r (f p)) (hf : ∀ p, Text.Apart q.text (f p)) :
    Text.substitute q.text r (fill f ps) = fill g ps := by
  induction h with
  | nil => rw [fill_nil, fill_nil, Text.substitute]
  | @char c cs ps hnone hs ih =>
    -- an occurrence here would go on in the filled rest, and be one in the template
    have hnowhere : ¬q.text <+: c :: fill f ps := by
      obtain ⟨name, hname, -⟩ := q.text_eq_cons
      intro hprefix
      apply hnone q
      rw [hname] at hprefix ⊢
      obtain ⟨rfl, hrest⟩ := List.cons_prefix_cons.1 hprefix
      refine List.cons_prefix_cons.2 ⟨rfl, hs.prefix_of_prefix_fill (fun p => ?_) hrest⟩
      have hfirst := (hf p).first
      rwa [hname] at hfirst
    rw [fill_char, fill_char, Text.substitute_cons hnowhere, ih]
  | place p _ ih =>
    rw [fill_place, fill_place]
    by_cases hp : p = q
    · rw [hp, hq, hr, Text.substitute_append_left q.text_ne_nil, ih]
    · have hlast : ∀ c ∈ (f p).getLast?, c ∉ q.text.dropLast := by
        obtain ⟨z, hz, hmem⟩ := (hf p).last
        intro c hc
        rw [Option.mem_def.1 hz] at hc
        exact Option.some.inj hc ▸ hmem
      rw [hg p hp, Text.substitute_append q.text_ne_nil hlast, ih]

/-! ## Fillings told apart -/

/-- Only the places that a template has are filled. -/
theorem fill_congr (h : ∀ p, .place p ∈ ps → f p = g p) : fill f ps = fill g ps := by
  induction ps with
  | nil => rfl
  | cons piece ps ih =>
    have hrest := ih fun p hp => h p (List.mem_cons_of_mem _ hp)
    cases piece with
    | char c => rw [fill_char, fill_char, hrest]
    | place p => rw [fill_place, fill_place, hrest, h p List.mem_cons_self]

theorem length_fill_le (h : ∀ p, (f p).length ≤ (g p).length) (ps : List Piece) :
    (fill f ps).length ≤ (fill g ps).length := by
  induction ps with
  | nil => exact Nat.le_refl _
  | cons piece ps ih =>
    cases piece with
    | char c =>
      rw [fill_char, fill_char, List.length_cons, List.length_cons]
      omega
    | place p =>
      have hp := h p
      rw [fill_place, fill_place, List.length_append, List.length_append]
      omega

/-- A shorter filling of a place that a template has leaves a shorter text. -/
theorem length_fill_lt (h : ∀ p ≠ q, f p = g p) (hq : .place q ∈ ps)
    (hlt : (f q).length < (g q).length) : (fill f ps).length < (fill g ps).length := by
  have hle (p : Place) : (f p).length ≤ (g p).length := by
    by_cases hp : p = q
    · rw [hp]
      exact Nat.le_of_lt hlt
    · exact Nat.le_of_eq (congrArg List.length (h p hp))
  obtain ⟨before, after, rfl⟩ := List.append_of_mem hq
  have hbefore := length_fill_le hle before
  have hafter := length_fill_le hle after
  simp only [fill, List.flatMap_append, List.flatMap_cons, List.length_append] at hbefore hafter ⊢
  omega

/-- A place that a template has shows its filling, if the other places are filled alike. -/
theorem eq_of_fill_eq (h : ∀ p ≠ q, f p = g p) (hq : .place q ∈ ps) (heq : fill f ps = fill g ps) :
    f q = g q := by
  have hlength : (fill f ps).length = (fill g ps).length := congrArg List.length heq
  -- fillings of different lengths show in the length of the whole; others are at the same distance
  rcases Nat.lt_trichotomy (f q).length (g q).length with hlt | hsame | hgt
  · have hshorter := length_fill_lt h hq hlt
    omega
  · induction ps with
    | nil => exact absurd hq List.not_mem_nil
    | cons piece ps ih =>
      cases piece with
      | char c =>
        rw [fill_char, fill_char] at heq
        have hrest := (List.cons.inj heq).2
        exact ih ((List.mem_cons.1 hq).resolve_left nofun) hrest (congrArg List.length hrest)
      | place p =>
        have hp : (f p).length = (g p).length := by
          by_cases hp : p = q
          · rw [hp, hsame]
          · rw [h p hp]
        rw [fill_place, fill_place] at heq
        obtain ⟨hhere, hrest⟩ := List.append_inj heq hp
        by_cases hpq : p = q
        · rw [← hpq, hhere]
        · refine ih ((List.mem_cons.1 hq).resolve_left ?_) hrest (congrArg List.length hrest)
          exact fun hpiece => hpq (Piece.place.inj hpiece).symm
  · have hshorter := length_fill_lt (f := g) (g := f) (fun p hp => (h p hp).symm) hq hgt
    omega

end Template

/-! ## Templates of dialects -/

open Template

/-- The quotes are no characters of a place. -/
def Quoting.Distinct (q : Quoting) : Prop := ∀ p : Place, q.left ∉ p.text ∧ q.right ∉ p.text

theorem Quoting.distinct_of_mem_usual {q : Quoting} (h : q ∈ Quoting.usual) : q.Distinct := by
  have hall : ∀ q ∈ Quoting.usual, (q.left ∉ Place.key.text ∧ q.right ∉ Place.key.text)
      ∧ (q.left ∉ Place.column.text ∧ q.right ∉ Place.column.text)
      ∧ q.left ∉ Place.table.text ∧ q.right ∉ Place.table.text := by
    decide
  obtain ⟨hkey, hcolumn, htable⟩ := hall q h
  intro p
  cases p with
  | key => exact hkey
  | column => exact hcolumn
  | table => exact htable

/-- No place begins or ends within another one. -/
theorem Template.Place.apart (p q : Place) : Text.Apart q.text p.text := by
  cases p <;> cases q <;> exact ⟨⟨_, rfl, by decide⟩, ⟨_, rfl, by decide⟩⟩

namespace Dialect

/-- What belongs in the places of a template. -/
def filling (d : Dialect) (index : Nat) (column table : String) : Place → String
  | .key => keyVariable index
  | .column => d.identifier column
  | .table => d.identifier table

/-- What is in the places of a template when those of the key are filled. -/
def withKey (index : Nat) : Place → List Char
  | .key => (keyVariable index).toList
  | p => p.text

/-- What is in the places of a template when those of the key and of the column are filled. -/
def withColumn (d : Dialect) (index : Nat) (column : String) : Place → List Char
  | .column => (d.identifier column).toList
  | p => withKey index p

/-- What is in the places of a template at last: the column has the table in the places that it
has for it. -/
def spliced (d : Dialect) (index : Nat) (column table : String) : Place → String
  | .key => keyVariable index
  | .column => Text.replaced (d.identifier column) "\x7btable\x7d" (d.identifier table)
  | .table => d.identifier table

variable {d : Dialect}

/-- A quoted name is apart from the places. -/
theorem apart_identifier (hd : d.quoting.Distinct) (p : Place) (name : String) :
    Text.Apart p.text (d.identifier name).toList := by
  obtain ⟨hleft, hright⟩ := hd p
  rw [identifier, Quoting.toList_quote]
  refine ⟨⟨d.quoting.left, rfl, fun h => hleft (List.mem_of_mem_tail h)⟩,
    ⟨d.quoting.right, ?_, fun h => hright (List.dropLast_subset _ h)⟩⟩
  rw [← List.cons_append]
  exact List.getLast?_concat

/-- The variable of a key is apart from the places that names are written to. -/
theorem apart_keyVariable {p : Place} (hp : p ≠ .key) (index : Nat) :
    Text.Apart p.text (keyVariable index).toList := by
  have hvariable : (keyVariable index).toList = ['@', 'k'] ++ (toString index).toList := by
    rw [keyVariable, String.toList_append]
    rfl
  have hdigits (c : Char) (hc : c ∈ (toString index).toList) : c.isDigit = true := by
    rw [Nat.toString_eq_repr, Nat.toList_repr] at hc
    exact Nat.isDigit_of_mem_toDigits (by omega) (by omega) hc
  have hnone : p.text.all (fun c => !c.isDigit) = true := by
    cases p with
    | key => exact absurd rfl hp
    | column | table => rfl
  have hfirst : '@' ∉ p.text.tail := by
    cases p <;> decide
  have hne : (toString index).toList ≠ [] := by
    rw [Nat.toString_eq_repr, Nat.toList_repr]
    exact Nat.toDigits_ne_nil
  rw [hvariable]
  -- a variable starts with its sign and ends with a digit, and no place has either of them
  refine ⟨⟨'@', rfl, hfirst⟩, ⟨(toString index).toList.getLast hne, ?_, fun h => ?_⟩⟩
  · rw [List.getLast?_append, List.getLast?_eq_some_getLast hne]
    rfl
  · have hdigit := hdigits _ (List.getLast_mem hne)
    have hplain := List.all_eq_true.1 hnone _ (List.dropLast_subset _ h)
    rw [hdigit] at hplain
    cases hplain

/-- A place has no occurrence in the variable of a key. -/
theorem not_infix_keyVariable (p : Place) (index : Nat) :
    ¬p.text <:+: (keyVariable index).toList := by
  have hvariable : Text.brace ∉ (keyVariable index).toList := by
    rw [keyVariable, String.toList_append, List.mem_append, not_or]
    exact ⟨by decide, fun h => absurd (isWordChar_of_mem_toString h) (by decide)⟩
  obtain ⟨name, hname, -⟩ := p.text_eq_cons
  rw [hname]
  exact fun h => hvariable (h.subset List.mem_cons_self)

section Steps

variable {cs : List Char} {ps : List Piece}

/-- The places of the key are filled first. -/
theorem substitute_key (h : Splits cs ps) (index : Nat) :
    Text.substitute Place.key.text (keyVariable index).toList cs = fill (withKey index) ps := by
  rw [← h.fill_text]
  refine h.substitute_fill (f := Place.text) (g := withKey index) (q := .key) rfl rfl ?_ ?_
  · intro p hp
    have hnone := Text.substitute_of_not_infix (r := (keyVariable index).toList)
      (Place.not_infix hp.symm)
    cases p with
    | key => exact absurd rfl hp
    | column | table => exact hnone.symm
  · exact fun p => p.apart .key

/-- The places of the column are filled next: the variable has none. -/
theorem substitute_column (h : Splits cs ps) (index : Nat) (column : String) :
    Text.substitute Place.column.text (d.identifier column).toList (fill (withKey index) ps)
      = fill (d.withColumn index column) ps := by
  refine h.substitute_fill (f := withKey index) (q := .column) rfl rfl ?_ ?_
  · intro p hp
    cases p with
    | key => exact (Text.substitute_of_not_infix (not_infix_keyVariable _ _)).symm
    | column => exact absurd rfl hp
    | table => exact (Text.substitute_of_not_infix (Place.not_infix hp.symm)).symm
  · intro p
    cases p with
    | key => exact apart_keyVariable (by decide) index
    | column => exact Place.apart .column .column
    | table => exact Place.apart .table .column

/-- The places of the table are filled last, in the column too. -/
theorem substitute_table (hd : d.quoting.Distinct) (h : Splits cs ps) (index : Nat)
    (column table : String) :
    Text.substitute Place.table.text (d.identifier table).toList
        (fill (d.withColumn index column) ps)
      = fill (fun p => (d.spliced index column table p).toList) ps := by
  refine h.substitute_fill (f := d.withColumn index column) (q := .table) rfl rfl ?_ ?_
  · intro p hp
    cases p with
    | key => exact (Text.substitute_of_not_infix (not_infix_keyVariable _ _)).symm
    | column => exact String.toList_ofList
    | table => exact absurd rfl hp
  · intro p
    cases p with
    | key => exact apart_keyVariable (by decide) index
    | column => exact apart_identifier hd _ _
    | table => exact Place.apart .table .table

end Steps

/-- The three kinds of place are filled one after another. -/
theorem keyTemplate_eq_filled (hd : d.quoting.Distinct) (template : String) (index : Nat)
    (column table : String) :
    d.keyTemplate template index column table
      = filled template (d.spliced index column table) := by
  have h := splits_pieces template.toList
  rw [filled, ← substitute_table hd h, ← substitute_column h, ← substitute_key h]
  simp only [keyTemplate, Text.replaced, String.toList_ofList]
  rfl

/-- The column is written as it is exactly if its name has no place for the table. -/
theorem spliced_column_eq_iff (hd : d.quoting.Distinct) (index : Nat) (column table : String) :
    d.spliced index column table .column = d.identifier column
      ↔ ¬Place.table.text <:+: column.toList := by
  have hfirst : ∃ c ∈ (d.identifier table).toList.head?, c ∉ Place.table.text := by
    rw [identifier, Quoting.toList_quote]
    exact ⟨_, rfl, (hd .table).1⟩
  have hoccurs : Place.table.text <:+: (d.identifier column).toList
      ↔ Place.table.text <:+: column.toList :=
    Quoting.infix_quote (Place.text_ne_nil _) (hd .table).1 (hd .table).2 column
  rw [← hoccurs, ← Text.substitute_eq_self_iff (Place.text_ne_nil _) hfirst, ← String.toList_inj]
  show (String.ofList _).toList = _ ↔ _
  rw [String.toList_ofList]
  rfl

/-- The table in the column shows exactly if the template names the column and the column's name
has a place for the table. -/
theorem filled_spliced_eq_iff (hd : d.quoting.Distinct) (template : String) (index : Nat)
    (column table : String) :
    filled template (d.spliced index column table) = filled template (d.filling index column table)
      ↔ ¬(Place.column.text <:+: template.toList ∧ Place.table.text <:+: column.toList) := by
  have hothers (p : Place) (hp : p ≠ .column) :
      d.spliced index column table p = d.filling index column table p := by
    cases p with
    | key | table => rfl
    | column => exact absurd rfl hp
  have hmem := (splits_pieces template.toList).place_mem_iff .column
  have hcolumn := spliced_column_eq_iff hd index column table
  rw [filled, filled, ← String.toList_inj, String.toList_ofList, String.toList_ofList]
  constructor
  · rintro heq ⟨htemplate, hname⟩
    have hsame := eq_of_fill_eq (fun p hp => congrArg String.toList (hothers p hp))
      (hmem.2 htemplate) heq
    exact hcolumn.1 (String.toList_inj.1 hsame) hname
  · intro hnone
    -- the fillings differ at most in the column, which is not written or has no place
    refine fill_congr fun p hp => congrArg String.toList ?_
    by_cases hplace : p = .column
    · rw [hplace] at hp ⊢
      exact hcolumn.2 fun hname => hnone ⟨hmem.1 hp, hname⟩
    · exact hothers p hplace

/-- The given dialects fill their templates whatever the names are: none of them names the
column. -/
theorem keyTemplate_shipped (hd : d ∈ shipped) {s : KeyStrategy} (hs : s ∈ d.strategies.entries)
    {template : String} (ht : template ∈ s.templates) (index : Nat) (column table : String) :
    d.keyTemplate template index column table
      = filled template (d.filling index column table) := by
  have hall : ∀ d ∈ shipped, ∀ s ∈ d.strategies.entries, ∀ t ∈ s.templates,
      ¬Place.column.text <:+: t.toList := by
    decide +kernel
  have hdistinct := Quoting.distinct_of_mem_usual (quoting_mem_usual hd)
  rw [keyTemplate_eq_filled hdistinct, filled_spliced_eq_iff hdistinct]
  exact fun h => hall d hd s hs template ht h.1

/-- A key template gets the variable, the quoted column and the quoted table in its places and
nothing else, with one exception: a place for the table in the name of the column is filled in the
quoted column. So it is the template with its places filled unless it names the column and the
column's name has such a place. -/
theorem keyTemplate_eq_filled_iff (hd : d.quoting.Distinct) (template : String) (index : Nat)
    (column table : String) :
    d.keyTemplate template index column table = filled template (d.spliced index column table)
      ∧ (d.keyTemplate template index column table = filled template (d.filling index column table)
        ↔ ¬(Place.column.text <:+: template.toList ∧ Place.table.text <:+: column.toList)) := by
  have hwritten := keyTemplate_eq_filled hd template index column table
  refine ⟨hwritten, ?_⟩
  rw [hwritten]
  exact filled_spliced_eq_iff hd template index column table

/-- Names that look like other places stay as they are. -/
theorem keyTemplate_of_places :
    let template := "\x7bkey\x7d: \x7bcolumn\x7d of \x7btable\x7d"
    sqlServer.quoting.Distinct
      ∧ sqlServer.keyTemplate template 1 "\x7bkey\x7d" "\x7bcolumn\x7d"
        = filled template (sqlServer.filling 1 "\x7bkey\x7d" "\x7bcolumn\x7d")
      ∧ sqlServer.keyTemplate template 1 "\x7bkey\x7d" "\x7bcolumn\x7d"
        = "@k1: [\x7bkey\x7d] of [\x7bcolumn\x7d]" := by
  intro template
  have hd : sqlServer.quoting.Distinct := Quoting.distinct_of_mem_usual (by decide)
  have hname : ¬Place.table.text <:+: "\x7bkey\x7d".toList := by decide +kernel
  have hiff := keyTemplate_eq_filled_iff hd template 1 "\x7bkey\x7d" "\x7bcolumn\x7d"
  exact ⟨hd, hiff.2.2 fun h => hname h.2, by decide +kernel⟩

/-- A column that is named like the place of the table is not written as a name: the table's own
quotes end the column's. -/
theorem keyTemplate_splices :
    let template := "nextval(\x7bcolumn\x7d)"
    generic.keyTemplate template 0 "\x7btable\x7d" "t" = "nextval(\"\"t\"\")"
      ∧ filled template (generic.filling 0 "\x7btable\x7d" "t") = "nextval(\"\x7btable\x7d\")"
      ∧ generic.keyTemplate template 0 "\x7btable\x7d" "t"
        ≠ filled template (generic.filling 0 "\x7btable\x7d" "t") := by
  decide +kernel

end Dialect

end RowMapper
