import RowMapper.Proofs.Slots
import RowMapper.Proofs.Vocabulary

/-!
# Texts with names and placeholders decoded

Dialects differ in the quotes around names, in the placeholders of parameters and in the place of
a row limit. Once the names are decoded and each placeholder is taken for the position it stands
for, what is left of a token is the same in all given dialects.

* `Dialect.decoded` is that reading of a text.
* `Token.Common` says that the dialects read a token alike; `Token.Written.common` that they do for
  the tokens of compiled expressions.
* `SelectParts.decoded_line` and `UpdateParts.common_lines` are about statements. Only selections
  differ, by the place of the limit.
-/

namespace RowMapper

/-! ## Decoding -/

/-- A lexeme, or the position that it stands for if it is a placeholder. -/
def Lexeme.decoded (l : Lexeme) : Lexeme ⊕ Nat :=
  match l.placeholder? with
  | some index => .inr index
  | none => .inl l

/-- Decoded names, words and symbols, and the positions of parameters. -/
abbrev DecodedText := List (Lexeme ⊕ Nat)

/-- What is read of a text. -/
def Dialect.decoded (d : Dialect) (sql : String) : DecodedText :=
  (d.lexemes sql).map Lexeme.decoded

/-- What is read of tokens. -/
def Tokens.decoded (d : Dialect) (ts : Tokens) : DecodedText :=
  (Tokens.lexemes d ts).map Lexeme.decoded

section

variable {d : Dialect} {ts us : Tokens}

@[simp] theorem Tokens.decoded_nil : Tokens.decoded d [] = [] := rfl

/-- Texts are decoded part by part. -/
@[simp] theorem Tokens.decoded_append :
    Tokens.decoded d (ts ++ us) = Tokens.decoded d ts ++ Tokens.decoded d us := by
  simp [Tokens.decoded]

theorem Tokens.decoded_cons (t : Token) :
    Tokens.decoded d (t :: ts) = Tokens.decoded d [t] ++ Tokens.decoded d ts := by
  show Tokens.decoded d ([t] ++ ts) = _
  rw [decoded_append]

/-- A legible text is decoded to what its tokens are decoded to. -/
theorem Legible.decoded_text (h : Legible d ts) : d.decoded (d.text ts) = Tokens.decoded d ts := by
  rw [Dialect.decoded, h.lexemes_text, Tokens.decoded]

/-- A batch is decoded line by line; what stands around the lines is no part of it. -/
theorem decoded_batch (hd : d.quoting ∈ Quoting.usual) {lines : List Tokens}
    (hlines : ∀ l ∈ lines, Legible d l ∧ l ≠ []) :
    d.decoded (d.batch lines) = lines.flatMap (Tokens.decoded d) := by
  rw [Dialect.decoded, lexemes_batch hd hlines, List.map_flatMap]
  rfl

/-- A word that is no placeholder is read as it is. -/
theorem Tokens.decoded_word {w : String} (ls : List Lexeme)
    (hread : (Token.word w).lexemes d = ls) (hmute : placeholders ls = []) :
    Tokens.decoded d [.word w] = ls.map .inl := by
  have hnone : ∀ l ∈ ls, l.placeholder? = none := List.filterMap_eq_nil_iff.1 hmute
  show ((Token.word w).lexemes d ++ []).map Lexeme.decoded = _
  rw [List.append_nil, hread]
  refine List.map_congr_left fun l hl => ?_
  rw [Lexeme.decoded, hnone l hl]

end

/-! ## Tokens that the dialects read alike -/

/-- The given dialects read the token alike. -/
def Token.Common (t : Token) : Prop :=
  ∀ d ∈ Dialect.shipped, Tokens.decoded d [t] = Tokens.decoded .generic [t]

/-- The given dialects read all of the tokens alike. -/
def Tokens.Common (ts : Tokens) : Prop := ∀ t ∈ ts, t.Common

/-- The usual quotings show the word alike. -/
def Text.isNeutral (w : String) : Bool :=
  Quoting.usual.all fun q => scan q .nothing w.toList == scan ⟨'"', '"'⟩ .nothing w.toList

section

variable {d d' : Dialect} {ts us : Tokens}

/-- What the usual quotings read alike is common. -/
theorem Token.common_of_lexemes {t : Token} {ls : List Lexeme}
    (h : ∀ d : Dialect, d.quoting ∈ Quoting.usual → t.lexemes d = ls) : t.Common := by
  intro d hd
  have hquoting := Dialect.quoting_mem_usual hd
  have hgeneric : Dialect.generic.quoting ∈ Quoting.usual := by decide
  show (t.lexemes d ++ []).map _ = (t.lexemes .generic ++ []).map _
  rw [h d hquoting, h .generic hgeneric]

/-- A word that no quoting cuts is common. -/
theorem Token.common_word {w : String} (h : Text.isNeutral w = true) : (Token.word w).Common :=
  Token.common_of_lexemes fun d hd => beq_iff_eq.1 (List.all_eq_true.1 h d.quoting hd)

/-- A quoted name is common: each dialect reads it from its own quotes. -/
theorem Token.common_bare (name : String) : (Token.bare name).Common :=
  Token.common_of_lexemes fun _ hd => (legible_bare hd name).2

/-- So is a column behind an alias. -/
theorem Token.common_identifier {qualifier : String} (h : IsQualifier qualifier) (name : String) :
    (Token.identifier qualifier name).Common :=
  Token.common_of_lexemes fun _ hd => (legible_identifier hd h name).2

/-- Aliases are common. -/
theorem Token.common_alias {a : String} (h : IsAlias a) : (Token.word a).Common :=
  Token.common_of_lexemes fun _ hd => (h.scan hd).1

/-- The placeholders differ, but not the position that they stand for. -/
theorem Token.common_parameter (i : Nat) : (Token.parameter i).Common := by
  have hdecoded (d : Dialect) (hd : d.quoting ∈ Quoting.usual) :
      Tokens.decoded d [.parameter i] = [.inr i] := by
    show ((Token.parameter i).lexemes d ++ []).map Lexeme.decoded = _
    rw [Token.lexemes_parameter hd]
    show [Lexeme.decoded _] = _
    rw [Lexeme.decoded, placeholder?_parameter]
  intro d hd
  rw [hdecoded d (Dialect.quoting_mem_usual hd), hdecoded .generic (by decide)]

theorem Tokens.common_nil : Tokens.Common [] := fun _ ht => absurd ht List.not_mem_nil

theorem Tokens.Common.cons {t : Token} (ht : t.Common) (h : Tokens.Common ts) :
    Tokens.Common (t :: ts) :=
  List.forall_mem_cons.2 ⟨ht, h⟩

theorem Tokens.Common.append (h : Tokens.Common ts) (h' : Tokens.Common us) :
    Tokens.Common (ts ++ us) :=
  List.forall_mem_append.2 ⟨h, h'⟩

theorem Tokens.Common.word {w : String} (h : Tokens.Common ts) (hw : Text.isNeutral w = true) :
    Tokens.Common (.word w :: ts) :=
  h.cons (Token.common_word hw)

theorem Tokens.Common.parenthesizedIf (h : Tokens.Common ts) (needed : Bool) :
    Tokens.Common (Tokens.parenthesizedIf needed ts) := by
  have hwords : ∀ w ∈ ["(", ")"], Text.isNeutral w = true := by decide
  intro t ht
  rcases mem_of_mem_parenthesizedIf ht with ht | ⟨w, hw, rfl⟩
  · exact h t ht
  · exact Token.common_word (hwords w hw)

/-- Common pieces with a neutral word between them. -/
theorem Tokens.common_separated {w : String} (hw : Text.isNeutral w = true) {pieces : List Tokens}
    (h : ∀ p ∈ pieces, Tokens.Common p) : Tokens.Common (Text.separated [.word w] pieces) := by
  intro t ht
  rcases Text.mem_of_mem_separated ht with hword | ⟨p, hp, ht⟩
  · obtain rfl := List.mem_singleton.1 hword
    exact Token.common_word hw
  · exact h p hp t ht

/-- Shipped dialects decode a common text to the same. -/
theorem Tokens.Common.decoded (h : Tokens.Common ts) (hd : d ∈ Dialect.shipped)
    (hd' : d' ∈ Dialect.shipped) : Tokens.decoded d ts = Tokens.decoded d' ts := by
  induction ts with
  | nil => rfl
  | cons t ts ih =>
    obtain ⟨ht, hts⟩ := List.forall_mem_cons.1 h
    rw [decoded_cons, decoded_cons t (d := d'), ht d hd, ht d' hd', ih hts]

end

/-! ### Compiled expressions -/

/-- No quoting cuts a word that expressions are written with. -/
theorem Tokens.isNeutral_of_mem_vocabulary {w : String} (h : w ∈ Tokens.vocabulary) :
    Text.isNeutral w = true := by
  have hall : ∀ w ∈ Tokens.vocabulary, Text.isNeutral w = true := by decide +kernel
  exact hall w h

/-- What is written of an expression is common. -/
theorem Tokens.Written.common {env : Environment} {s : Scope} {ts : Tokens}
    (h : Tokens.Written env s ts) (wf : s.WellFormed) : Tokens.Common ts := by
  intro t ht
  cases h t ht with
  | word hw => exact Token.common_word (Tokens.isNeutral_of_mem_vocabulary hw)
  | column owned column =>
    exact Token.common_identifier (env.isQualifier_column (wf.isAlias_of_owns owned)) column
  | parameter bound => exact Token.common_parameter _

/-- What an expression compiles to is read alike. -/
theorem Compiles.common {env : Environment} {parent : Option Expr} {e : Expr} {s s' : Scope}
    {ts : Tokens} (h : Compiles env parent e s ts s') (wf : s.WellFormed) : Tokens.Common ts :=
  (h.written wf).common (Scope.Steps.wellFormed h.steps wf)

/-! ## Selections -/

/-- A table with its alias is common. -/
theorem common_table (table : String) {tableAlias : String} (h : IsAlias tableAlias) :
    Tokens.Common (tableTokens table tableAlias) := by
  have halias : Tokens.Common [.word tableAlias] := Tokens.common_nil.cons (Token.common_alias h)
  unfold tableTokens
  rw [h.ne_empty]
  exact (halias.word (by decide)).cons (Token.common_bare table)

/-- A join is common. -/
theorem common_join {j : Join} (hj : IsAlias j.tableAlias ∧ IsAlias j.leftAlias) :
    Tokens.Common j.tokens := by
  have hkind : Text.isNeutral j.kind.text = true := by
    cases j.kind <;> decide
  have hright : Tokens.Common [.identifier j.tableAlias j.rightColumn] :=
    Tokens.common_nil.cons (Token.common_identifier (.inr hj.1) _)
  have hcondition := ((hright.word (w := " = ") (by decide)).cons
    (Token.common_identifier (.inr hj.2) j.leftColumn)).word (w := " ON ") (by decide)
  exact (((common_table j.table hj.1).word (by decide)).word hkind).append hcondition

/-- A selection but for its first and its last word, and without a limit. -/
def SelectParts.body (s : SelectParts) : Tokens :=
  commaSeparated (s.columns.map fun c => [.identifier s.tableAlias c])
    ++ .word "\nFROM " :: tableTokens s.table s.tableAlias
    ++ s.joins.flatMap (fun j => .word "\n" :: j.tokens)
    ++ filterTokens s.filters ++ orderTokens s.orders

/-- A selection is common but for its limit. -/
theorem SelectParts.common_body {s : SelectParts} (halias : IsAlias s.tableAlias)
    (hjoins : ∀ j ∈ s.joins, IsAlias j.tableAlias ∧ IsAlias j.leftAlias)
    (hfilters : ∀ p ∈ s.filters, Tokens.Common p) (horders : ∀ o ∈ s.orders, Tokens.Common o.1) :
    Tokens.Common s.body := by
  have hcolumns : Tokens.Common
      (commaSeparated (s.columns.map fun c => [.identifier s.tableAlias c])) := by
    refine Tokens.common_separated (by decide) fun p hp => ?_
    obtain ⟨c, -, rfl⟩ := List.mem_map.1 hp
    exact Tokens.common_nil.cons (Token.common_identifier (.inr halias) c)
  have htable := (common_table s.table halias).word (w := "\nFROM ") (by decide)
  have hall : Tokens.Common (s.joins.flatMap fun j => .word "\n" :: j.tokens) := by
    intro t ht
    obtain ⟨j, hj, ht⟩ := List.mem_flatMap.1 ht
    exact (common_join (hjoins j hj)).word (w := "\n") (by decide) t ht
  have hwhere : Tokens.Common (filterTokens s.filters) := by
    unfold filterTokens
    split
    · exact Tokens.common_nil
    · refine (Tokens.common_separated (by decide) fun p hp => ?_).word (by decide)
      obtain ⟨filter, hfilter, rfl⟩ := List.mem_map.1 hp
      exact (hfilters filter hfilter).parenthesizedIf _
  have horder : Tokens.Common (orderTokens s.orders) := by
    unfold orderTokens
    split
    · exact Tokens.common_nil
    · refine (Tokens.common_separated (by decide) fun p hp => ?_).word (by decide)
      obtain ⟨o, ho, rfl⟩ := List.mem_map.1 hp
      have hdirection : Text.isNeutral o.2.text = true := by
        cases o.2 <;> decide
      exact (horders o ho).append (Tokens.common_nil.word hdirection)
  exact (((hcolumns.append htable).append hall).append hwhere).append horder

/-- A selection with its limit in the place of the style: the number of rows behind SELECT, or
behind the body. -/
def LimitStyle.around (style : LimitStyle) (limit : Option Nat) (body : DecodedText) :
    DecodedText :=
  let words (word : String) : DecodedText :=
    limit.toList.flatMap fun n => [.inl (.word word), .inl (.word (toString n))]
  let limited := match style with
    | .leading => words "TOP" ++ body
    | .trailing => body ++ words "LIMIT"
  .inl (.word "SELECT") :: limited ++ [.inl (.symbol ";")]

section

variable {d : Dialect}

/-- A number is decoded to itself. -/
theorem Tokens.decoded_number (hd : d.quoting ∈ Quoting.usual) (n : Nat) :
    Tokens.decoded d [.word (toString n)] = [.inl (.word (toString n))] := by
  have hnone : (Lexeme.word (toString n)).placeholder? = none :=
    placeholder?_of_isWordChar fun _ hc => isWordChar_of_mem_toString hc
  refine decoded_word _ (scan_number hd n).1 ?_
  rw [placeholders, List.filterMap_cons_none hnone, List.filterMap_nil]

/-- It makes no difference to what is decoded whether words are written in one token or in many. -/
theorem Legible.decoded_merge {t : Token} {ts : Tokens} (h : Legible d ts)
    (htext : d.chars [t] = d.chars ts)
    (hparameters : Tokens.parameters [t] = Tokens.parameters ts) :
    Tokens.decoded d [t] = Tokens.decoded d ts := by
  show (t.lexemes d ++ []).map _ = _
  rw [List.append_nil, (h.merge htext hparameters).2, Tokens.decoded]

/-- A limit in front is decoded to two words, and to none where it stands behind. -/
theorem Tokens.decoded_leadingLimit (hd : d.quoting ∈ Quoting.usual) (n : Nat) :
    Tokens.decoded d [.word (d.leadingLimit n)] = match d.limitStyle with
      | .leading => [.inl (.word "TOP"), .inl (.word (toString n))]
      | .trailing => [] := by
  unfold Dialect.leadingLimit
  cases d.limitStyle with
  | trailing => rfl
  | leading =>
    have hnumber : Legible d [.word "TOP ", .word (toString n)] :=
      (legible_number hd n).cons hd (by decide) (by decide)
    have hpieces := hnumber.append (legible_word hd (w := " ") (by decide))
      (.inr (leads_word (by decide)))
    have htop : Tokens.decoded d [.word "TOP "] = [.inl (.word "TOP")] :=
      decoded_word [.word "TOP"] (lexemes_word hd (by decide)) (by decide)
    have hblank : Tokens.decoded d [.word " "] = [] :=
      decoded_word [] (lexemes_word hd (by decide)) rfl
    show Tokens.decoded d [.word ("TOP " ++ toString n ++ " ")] = _
    rw [hpieces.decoded_merge (by simp [Dialect.token]) rfl, decoded_append, decoded_cons, htop,
      decoded_number hd, hblank]
    rfl

/-- A limit behind is decoded to two words, and to none where it stands in front. -/
theorem Tokens.decoded_trailingLimit (hd : d.quoting ∈ Quoting.usual) (n : Nat) :
    Tokens.decoded d [.word (d.trailingLimit n)] = match d.limitStyle with
      | .leading => []
      | .trailing => [.inl (.word "LIMIT"), .inl (.word (toString n))] := by
  unfold Dialect.trailingLimit
  cases d.limitStyle with
  | leading => rfl
  | trailing =>
    have hnumber : Legible d [.word "\nLIMIT ", .word (toString n)] :=
      (legible_number hd n).cons hd (by decide) (by decide)
    have hlimit : Tokens.decoded d [.word "\nLIMIT "] = [.inl (.word "LIMIT")] :=
      decoded_word [.word "LIMIT"] (lexemes_word hd (by decide)) (by decide)
    show Tokens.decoded d [.word ("\nLIMIT " ++ toString n)] = _
    rw [hnumber.decoded_merge (by simp [Dialect.token]) rfl, decoded_cons, hlimit,
      decoded_number hd]
    rfl

/-- A selection is read as its body, with the limit where the dialect has it. -/
theorem SelectParts.decoded_line (hd : d.quoting ∈ Quoting.usual) (s : SelectParts) :
    Tokens.decoded d (s.line d) = d.limitStyle.around s.limit (Tokens.decoded d s.body) := by
  let limit (words : Nat → String) : Tokens := s.limit.toList.map fun n => .word (words n)
  have hline : s.line d = [.word "SELECT "] ++ limit d.leadingLimit ++ s.body
      ++ limit d.trailingLimit ++ [.word ";"] := by
    simp [line, body, limit]
  have hselect : Tokens.decoded d [.word "SELECT "] = [.inl (.word "SELECT")] :=
    Tokens.decoded_word [.word "SELECT"] (lexemes_word hd (by decide)) (by decide)
  have hend : Tokens.decoded d [.word ";"] = [.inl (.symbol ";")] :=
    Tokens.decoded_word [.symbol ";"] (lexemes_word hd (by decide)) (by decide)
  rw [hline]
  simp only [Tokens.decoded_append, hselect, hend, limit]
  cases s.limit with
  | none => cases hstyle : d.limitStyle <;> simp [LimitStyle.around]
  | some n =>
    have hleading := Tokens.decoded_leadingLimit hd n
    have htrailing := Tokens.decoded_trailingLimit hd n
    cases hstyle : d.limitStyle <;> rw [hstyle] at hleading htrailing <;>
      simp [LimitStyle.around, hleading, htrailing]

end

/-! ## Updates -/

/-- A contributed value stands in the text as its parameter or as NULL. -/
theorem common_slotsOf (before : List Value) (fields : List Contribution) :
    ∀ c ∈ (slotsOf before fields).1, Tokens.Common c.slot.tokens := by
  induction fields generalizing before with
  | nil => exact nofun
  | cons field rest ih =>
    simp only [slotsOf]
    split
    · exact ih before
    · rename_i v _
      intro c hc
      rcases List.mem_cons.1 hc with rfl | hc
      · show Tokens.Common (slotOf before v).1.tokens
        unfold slotOf
        split
        · exact Tokens.common_nil.word (by decide)
        · exact Tokens.common_nil.cons (Token.common_parameter _)
      · exact ih _ c hc

section

variable {slots : List ColumnSlot}

theorem ColumnSlot.common_assignment {c : ColumnSlot} (h : Tokens.Common c.slot.tokens) :
    Tokens.Common c.assignment :=
  (h.word (by decide)).cons (Token.common_bare c.column)

theorem ColumnSlot.common_condition {c : ColumnSlot} (h : Tokens.Common c.slot.tokens) :
    Tokens.Common c.condition := by
  refine Tokens.Common.cons (Token.common_bare c.column) ?_
  cases hslot : c.slot with
  | null => exact Tokens.common_nil.word (by decide)
  | parameter _ | sql _ =>
    rw [hslot] at h
    exact h.word (by decide)

/-- A condition on a key is common if what stands in its slots is. -/
theorem common_whereKey (h : ∀ c ∈ slots, Tokens.Common c.slot.tokens) :
    Tokens.Common (whereKey slots) := by
  unfold whereKey
  split
  · exact Tokens.common_nil
  · refine (Tokens.common_separated (by decide) fun p hp => ?_).word (by decide)
    obtain ⟨c, hc, rfl⟩ := List.mem_map.1 hp
    exact ColumnSlot.common_condition (h c hc)

/-- The line that reads a row back is common. -/
theorem ReadBack.common_line {r : ReadBack} (h : ∀ c ∈ r.key, Tokens.Common c.slot.tokens) :
    Tokens.Common r.line := by
  have hcolumns : Tokens.Common (commaSeparated (r.columns.map fun c => [.bare c])) := by
    refine Tokens.common_separated (by decide) fun p hp => ?_
    obtain ⟨c, -, rfl⟩ := List.mem_map.1 hp
    exact Tokens.common_nil.cons (Token.common_bare c)
  have hend : Tokens.Common (whereKey r.key ++ [.word ";"]) :=
    (common_whereKey h).append (Tokens.common_nil.word (by decide))
  have hfrom := (hend.cons (Token.common_bare r.table)).word (w := " FROM ") (by decide)
  have hline := (hcolumns.append hfrom).word (w := "SELECT ") (by decide)
  simpa [ReadBack.line] using hline

theorem UpdateParts.common_updateLine {u : UpdateParts}
    (hassignments : ∀ c ∈ u.assignments, Tokens.Common c.slot.tokens)
    (hkey : ∀ c ∈ u.key, Tokens.Common c.slot.tokens) : Tokens.Common u.updateLine := by
  have hset : Tokens.Common (commaSeparated (u.assignments.map (·.assignment))) := by
    refine Tokens.common_separated (by decide) fun p hp => ?_
    obtain ⟨c, hc, rfl⟩ := List.mem_map.1 hp
    exact ColumnSlot.common_assignment (hassignments c hc)
  have hend : Tokens.Common (whereKey u.key ++ [.word ";"]) :=
    (common_whereKey hkey).append (Tokens.common_nil.word (by decide))
  have hbody := (hset.append hend).word (w := " SET ") (by decide)
  have hline := (hbody.cons (Token.common_bare u.table)).word (w := "UPDATE ") (by decide)
  simpa [UpdateParts.updateLine] using hline

/-- An update is written alike in all dialects. -/
theorem UpdateParts.common_lines {u : UpdateParts}
    (hassignments : ∀ c ∈ u.assignments, Tokens.Common c.slot.tokens)
    (hkey : ∀ c ∈ u.key, Tokens.Common c.slot.tokens) (hread : u.readBack.key = u.key) :
    ∀ l ∈ u.lines, Tokens.Common l := by
  intro l hl
  rcases List.mem_append.1 hl with hl | hl
  · split at hl
    · exact absurd hl List.not_mem_nil
    · rw [List.mem_singleton.1 hl]
      exact common_updateLine hassignments hkey
  · rw [List.mem_singleton.1 hl]
    exact ReadBack.common_line (hread ▸ hkey)

end

end RowMapper
