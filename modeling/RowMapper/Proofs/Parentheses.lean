import RowMapper.Proofs.CompiledText

/-!
# Parentheses

A reader of conditions that counts parentheses and knows nothing of how a text was written. What
stands between parentheses is one piece, whatever words are in it: a text is cut only at words
outside of all parentheses.

* `Lexeme.Balanced` says that every parenthesis is closed where it has to be. What expressions
  compile to is balanced, by `Compiles.balanced`.
* `Lexeme.cut` is the reader. It goes through undivided pieces, by `Lexeme.Undivided.cut_append`,
  and whatever is balanced is undivided between parentheses, by
  `Lexeme.Balanced.undivided_enclosed`.
-/

namespace RowMapper

namespace Lexeme

/-! ## Depth -/

/-- The depth of parentheses behind a lexeme. -/
def deepen (depth : Nat) (l : Lexeme) : Nat :=
  if l = .symbol "(" then depth + 1 else if l = .symbol ")" then depth - 1 else depth

/-- The depth behind lexemes, unless one of them closes a parenthesis that is not open. -/
def depth? (depth : Nat) : List Lexeme → Option Nat
  | [] => some depth
  | l :: rest => if depth = 0 ∧ l = .symbol ")" then none else depth? (l.deepen depth) rest

/-- Every parenthesis is closed behind where it is opened, and only there. -/
def Balanced (ls : List Lexeme) : Prop := depth? 0 ls = some 0

instance (ls : List Lexeme) : Decidable (Balanced ls) := inferInstanceAs (Decidable (_ = _))

/-- The lexemes between parentheses. -/
def enclosed (ls : List Lexeme) : List Lexeme := .symbol "(" :: ls ++ [.symbol ")"]

/-- The lexeme is no parenthesis. -/
def isFlat (l : Lexeme) : Bool := l != .symbol "(" && l != .symbol ")"

/-- Only parentheses change the depth. -/
theorem deepen_of_isFlat {l : Lexeme} (h : l.isFlat = true) (depth : Nat) :
    l.deepen depth = depth := by
  simp only [isFlat, Bool.and_eq_true, bne_iff_ne] at h
  rw [deepen, if_neg h.1, if_neg h.2]

/-- A lexeme goes as far up or down from any depth, unless it has nothing to close. -/
theorem deepen_add {l : Lexeme} {n : Nat} (h : ¬(n = 0 ∧ l = .symbol ")")) (m : Nat) :
    l.deepen (n + m) = l.deepen n + m := by
  unfold deepen
  split
  · omega
  · split
    · rename_i hclose
      have hn : n ≠ 0 := fun hn => h ⟨hn, hclose⟩
      omega
    · rfl

section Depth

variable {a b ls : List Lexeme}

/-- Depth is counted on from text to text. -/
theorem depth?_append (n : Nat) (a b : List Lexeme) :
    depth? n (a ++ b) = (depth? n a).bind (depth? · b) := by
  induction a generalizing n with
  | nil => rfl
  | cons l a ih =>
    rw [List.cons_append, depth?, depth?]
    split
    · rfl
    · exact ih _

/-- What is closed from one depth is closed from any greater one. -/
theorem depth?_add {n k : Nat} (h : depth? n ls = some k) (m : Nat) :
    depth? (n + m) ls = some (k + m) := by
  induction ls generalizing n with
  | nil => rw [Option.some.inj h, depth?]
  | cons l ls ih =>
    rw [depth?] at h ⊢
    split at h
    · cases h
    · rename_i hopen
      rw [if_neg fun hshut => hopen ⟨by omega, hshut.2⟩, deepen_add hopen]
      exact ih h

theorem Balanced.nil : Balanced [] := rfl

theorem Balanced.append (ha : Balanced a) (hb : Balanced b) : Balanced (a ++ b) := by
  rw [Balanced, depth?_append, ha]
  exact hb

/-- A text without parentheses is balanced. -/
theorem balanced_of_isFlat (h : ∀ l ∈ ls, l.isFlat = true) : Balanced ls := by
  induction ls with
  | nil => exact .nil
  | cons l ls ih =>
    have hl := h l List.mem_cons_self
    have hshut : l ≠ .symbol ")" := by
      rintro rfl
      cases hl
    rw [Balanced, depth?, if_neg fun hclose => hshut hclose.2, deepen_of_isFlat hl]
    exact ih fun x hx => h x (List.mem_cons_of_mem _ hx)

/-- Parentheses around a balanced text are balanced. -/
theorem Balanced.enclosed (h : Balanced ls) : Balanced (enclosed ls) := by
  have hinner : depth? 1 ls = some 1 := depth?_add h 1
  show depth? 1 (ls ++ [.symbol ")"]) = some 0
  rw [depth?_append, hinner]
  rfl

end Depth

/-! ## Cutting -/

/-- The pieces, with more before the first. -/
def lead (ls : List Lexeme) (pieces : List (List Lexeme)) : List (List Lexeme) :=
  pieces.modifyHead (ls ++ ·)

@[simp] theorem lead_cons (ls piece : List Lexeme) (pieces : List (List Lexeme)) :
    lead ls (piece :: pieces) = (ls ++ piece) :: pieces := rfl

@[simp] theorem lead_nil (pieces : List (List Lexeme)) : lead [] pieces = pieces := by
  cases pieces <;> rfl

/-- What is put before the first piece is put there at once or in two parts. -/
theorem lead_lead (a b : List Lexeme) (pieces : List (List Lexeme)) :
    lead a (lead b pieces) = lead (a ++ b) pieces := by
  cases pieces <;> simp [lead]

/-- The lexemes cut at the separators outside of all parentheses. -/
def cut (separators : List Lexeme) (depth : Nat) : List Lexeme → List (List Lexeme)
  | [] => [[]]
  | l :: rest =>
    if depth = 0 ∧ l ∈ separators then [] :: cut separators 0 rest
    else lead [l] (cut separators (l.deepen depth) rest)

/-- The lexemes are one piece, and leave no parenthesis open. -/
structure Undivided (separators ls : List Lexeme) : Prop where
  balanced : Balanced ls
  whole : cut separators 0 ls = [ls]

section Cut

variable {separators a b ls : List Lexeme}

/-- Inside of a parenthesis nothing is cut. -/
theorem cut_inside {n k : Nat} (h : depth? n ls = some k) (rest : List Lexeme) :
    cut separators (n + 1) (ls ++ rest) = lead ls (cut separators (k + 1) rest) := by
  induction ls generalizing n with
  | nil =>
    cases h
    rw [lead_nil, List.nil_append]
  | cons l ls ih =>
    rw [depth?] at h
    split at h
    · cases h
    · rename_i hopen
      rw [List.cons_append, cut, if_neg fun hcut => absurd hcut.1 (Nat.succ_ne_zero n),
        deepen_add hopen, ih h, lead_lead]
      rfl

/-- Behind a piece that is not cut and leaves no parenthesis open, the reader goes on as from the
start. -/
theorem cut_append {n : Nat} (hdepth : depth? n ls = some 0)
    (hwhole : cut separators n ls = [ls]) (rest : List Lexeme) :
    cut separators n (ls ++ rest) = lead ls (cut separators 0 rest) := by
  -- along the piece, at any depth: it was not cut where it stood alone, so it is not cut here
  induction ls generalizing n with
  | nil =>
    cases hdepth
    rw [lead_nil, List.nil_append]
  | cons l ls ih =>
    rw [cut] at hwhole
    rw [depth?] at hdepth
    split at hdepth
    · cases hdepth
    · split at hwhole
      · cases hwhole
      · rename_i hcut
        have htail : cut separators (l.deepen n) ls = [ls] := by
          cases hpieces : cut separators (l.deepen n) ls with
          | nil =>
            rw [hpieces] at hwhole
            cases hwhole
          | cons piece pieces =>
            rw [hpieces] at hwhole
            cases hwhole
            rfl
        rw [List.cons_append, cut, if_neg hcut, ih hdepth htail, lead_lead]
        rfl

/-- A piece without separators is not cut. -/
theorem Undivided.cut_append (h : Undivided separators ls) (rest : List Lexeme) :
    cut separators 0 (ls ++ rest) = lead ls (cut separators 0 rest) :=
  Lexeme.cut_append h.balanced h.whole rest

theorem Undivided.nil : Undivided separators [] := ⟨.nil, rfl⟩

theorem Undivided.append (ha : Undivided separators a) (hb : Undivided separators b) :
    Undivided separators (a ++ b) :=
  ⟨ha.balanced.append hb.balanced, by rw [ha.cut_append, hb.whole]; rfl⟩

/-- The reader stops at a separator behind an undivided piece. -/
theorem Undivided.cut_at (h : Undivided separators ls) {l : Lexeme} (hl : l ∈ separators)
    (rest : List Lexeme) :
    cut separators 0 (ls ++ l :: rest) = ls :: cut separators 0 rest := by
  rw [h.cut_append, cut, if_pos ⟨rfl, hl⟩, lead_cons, List.append_nil]

theorem undivided_singleton {l : Lexeme} (hflat : l.isFlat = true) (hl : l ∉ separators) :
    Undivided separators [l] := by
  refine ⟨balanced_of_isFlat fun x hx => List.mem_singleton.1 hx ▸ hflat, ?_⟩
  rw [cut, if_neg fun hcut => hl hcut.2]
  rfl

/-- What is balanced is one piece between parentheses. -/
theorem Balanced.undivided_enclosed (h : Balanced ls)
    (hopen : Lexeme.symbol "(" ∉ separators) : Undivided separators (Lexeme.enclosed ls) := by
  refine ⟨h.enclosed, ?_⟩
  have hinner : cut separators 1 (ls ++ [.symbol ")"])
      = lead ls (cut separators 1 [.symbol ")"]) := cut_inside h _
  show cut separators 0 (.symbol "(" :: (ls ++ [.symbol ")"])) = _
  rw [cut, if_neg fun hcut => hopen hcut.2]
  show lead [.symbol "("] (cut separators 1 (ls ++ [.symbol ")"])) = _
  rw [hinner, cut, if_neg fun hcut => absurd hcut.1 Nat.one_ne_zero]
  rfl

end Cut

end Lexeme

/-! ## Compiled expressions -/

open Lexeme

section Compiled

variable {d : Dialect} {ts : Tokens}

/-- The word leaves no parenthesis open, in any of the usual quotings. -/
def Text.isBalanced (w : String) : Bool :=
  Quoting.usual.all fun q => decide (Balanced (scan q .nothing w.toList))

/-- A word is balanced if every usual quoting reads it so. -/
theorem balanced_word (hd : d.quoting ∈ Quoting.usual) {w : String}
    (h : Text.isBalanced w = true) : Balanced (Tokens.lexemes d [.word w]) := by
  rw [Tokens.lexemes_cons, Tokens.lexemes_nil, List.append_nil]
  exact of_decide_eq_true (List.all_eq_true.1 h d.quoting hd)

/-- A placeholder has no parentheses. -/
theorem balanced_parameter (hd : d.quoting ∈ Quoting.usual) (i : Nat) :
    Balanced (Tokens.lexemes d [.parameter i]) := by
  rw [Tokens.lexemes_cons, Token.lexemes_parameter hd]
  exact balanced_of_isFlat fun l hl => List.mem_singleton.1 hl ▸ rfl

/-- A name has no parentheses outside of its quotes. -/
theorem balanced_ofColumn (qualifier name : String) :
    Balanced (Lexeme.ofColumn qualifier name) := by
  have hname : Balanced [.name name] := balanced_of_isFlat fun l hl =>
    List.mem_singleton.1 hl ▸ rfl
  unfold Lexeme.ofColumn
  refine Balanced.append ?_ hname
  split
  · exact .nil
  · refine balanced_of_isFlat fun l hl => ?_
    rcases List.mem_pair.1 hl with rfl | rfl
    · rfl
    · rfl

/-- Parentheses in the name of a column are inside its quotes. -/
theorem balanced_column (hd : d.quoting ∈ Quoting.usual) (env : Environment) {a : String}
    (h : IsAlias a) (column : String) : Balanced (Tokens.lexemes d [env.column a column]) := by
  have hcolumn := (legible_identifier hd (env.isQualifier_column h) column).2
  rw [Tokens.lexemes_cons, Environment.column, hcolumn, Tokens.lexemes_nil, List.append_nil]
  exact balanced_ofColumn _ _

theorem balanced_nullTest (hd : d.quoting ∈ Quoting.usual) (negated : Bool) :
    Balanced (Tokens.lexemes d [nullTest negated]) := by
  cases negated with
  | false => exact balanced_word hd (by decide)
  | true => exact balanced_word hd (by decide)

/-- The parentheses of a piece are read as such. -/
theorem Tokens.lexemes_parenthesized (hd : d.quoting ∈ Quoting.usual) (ts : Tokens) :
    Tokens.lexemes d ts.parenthesized = enclosed (Tokens.lexemes d ts) := by
  have hopen : (Token.word "(").lexemes d = [.symbol "("] := lexemes_word hd (by decide)
  have hclose : (Token.word ")").lexemes d = [.symbol ")"] := lexemes_word hd (by decide)
  simp [Tokens.parenthesized, enclosed, hopen, hclose]

theorem balanced_parenthesizedIf (hd : d.quoting ∈ Quoting.usual) (needed : Bool)
    (h : Balanced (Tokens.lexemes d ts)) :
    Balanced (Tokens.lexemes d (Tokens.parenthesizedIf needed ts)) := by
  cases needed with
  | false => exact h
  | true =>
    show Balanced (Tokens.lexemes d ts.parenthesized)
    rw [Tokens.lexemes_parenthesized hd]
    exact h.enclosed

/-- What holds of the separator and of the pieces holds of the separated pieces, if it goes from
lexemes to lexemes in a row. -/
theorem holds_separated {P : List Lexeme → Prop} (hnil : P [])
    (happend : ∀ a b, P a → P b → P (a ++ b)) {w : String} (hw : P (Tokens.lexemes d [.word w]))
    {pieces : List Tokens} (h : ∀ p ∈ pieces, P (Tokens.lexemes d p)) :
    P (Tokens.lexemes d (Text.separated [.word w] pieces)) := by
  induction pieces with
  | nil => exact hnil
  | cons piece rest ih =>
    have hpiece := h piece List.mem_cons_self
    have hrest := ih fun p hp => h p (List.mem_cons_of_mem _ hp)
    cases rest with
    | nil => exact hpiece
    | cons next rest =>
      rw [Text.separated, Tokens.lexemes_append]
      refine happend _ _ ?_ hrest
      split
      · exact hnil
      · rw [Tokens.lexemes_append]
        exact happend _ _ hpiece hw

/-- Undivided pieces are found again between the separators they were written with. -/
theorem cut_separated {separators : List Lexeme} {w : String} {l : Lexeme}
    (hw : (Token.word w).lexemes d = [l]) (hl : l ∈ separators) {pieces : List Tokens}
    (hsome : pieces ≠ [])
    (h : ∀ p ∈ pieces, p ≠ [] ∧ Undivided separators (Tokens.lexemes d p)) :
    cut separators 0 (Tokens.lexemes d (Text.separated [.word w] pieces))
      = pieces.map (Tokens.lexemes d) := by
  induction pieces with
  | nil => exact absurd rfl hsome
  | cons piece rest ih =>
    obtain ⟨hpiece, hundivided⟩ := h piece List.mem_cons_self
    cases rest with
    | nil => exact hundivided.whole
    | cons next rest =>
      have hrest := ih (List.cons_ne_nil _ _) fun p hp => h p (List.mem_cons_of_mem _ hp)
      have hempty : piece.isEmpty = false := by simpa using hpiece
      have hlexemes : Tokens.lexemes d (Text.separated [.word w] (piece :: next :: rest))
          = Tokens.lexemes d piece ++ l
            :: Tokens.lexemes d (Text.separated [.word w] (next :: rest)) := by
        rw [Text.separated, hempty]
        simp [hw]
      rw [hlexemes, hundivided.cut_at hl, hrest]
      rfl

/-- The list of a membership is closed. -/
theorem balanced_parameterList (hd : d.quoting ∈ Quoting.usual) (first count : Nat) :
    Balanced (Tokens.lexemes d (Tokens.parameterList first count)) := by
  refine balanced_parenthesizedIf hd true
    (holds_separated .nil (fun _ _ => Balanced.append) ?_ fun p hp => ?_)
  · exact balanced_word hd (by decide)
  · obtain ⟨i, -, rfl⟩ := List.mem_map.1 hp
    exact balanced_parameter hd i

/-- Balanced pieces on both sides of a balanced word. -/
theorem balanced_around (hd : d.quoting ∈ Quoting.usual) {a b : Tokens} {w : String}
    (hw : Text.isBalanced w = true) (ha : Balanced (Tokens.lexemes d a))
    (hb : Balanced (Tokens.lexemes d b)) : Balanced (Tokens.lexemes d (a ++ .word w :: b)) := by
  have hword := (balanced_word hd hw).append hb
  rw [Tokens.lexemes_append]
  exact ha.append (by simpa using hword)

/-- Every compiled expression is balanced. -/
theorem Compiles.balanced (hd : d.quoting ∈ Quoting.usual) {env : Environment}
    {parent : Option Expr} {e : Expr} {s s' : Scope} (h : Compiles env parent e s ts s')
    (wf : s.WellFormed) : Balanced (Tokens.lexemes d ts) := by
  -- the scope stays well formed on the way, so that no alias has a parenthesis in it
  induction h with
  | lambda inner ih => exact ih ((Scope.Step.bind _ _).wellFormed wf)
  | nullTest tested inner ih =>
    rw [Tokens.lexemes_append]
    exact (balanced_parenthesizedIf hd _ (ih wf)).append (balanced_nullTest hd _)
  | @binary _ op _ _ _ _ _ _ _ untested first second ihl ihr =>
    have wf₁ := Scope.Steps.wellFormed first.steps wf
    have hop : Text.isBalanced op.text = true := by cases op <;> decide
    exact balanced_around hd hop (balanced_parenthesizedIf hd _ (ihl wf))
      (balanced_parenthesizedIf hd _ (ihr wf₁))
  | @unary _ op _ _ _ _ inner ih =>
    have hop : Text.isBalanced op.text = true := by cases op <;> decide
    exact balanced_around (a := []) hd hop .nil (balanced_parenthesizedIf hd _ (ih wf))
  | convert inner ih => exact ih wf
  | nothing empty => exact balanced_word hd (by decide)
  | membership list filled inner ih =>
    exact balanced_around hd (by decide) (balanced_parenthesizedIf hd _ (ih wf))
      (balanced_parameterList hd _ _)
  | emptyList => exact balanced_parenthesizedIf hd true (balanced_word hd (by decide))
  | list filled => exact balanced_parameterList hd _ _
  | key given => exact balanced_parameter hd _
  | null absent => exact balanced_word hd (by decide)
  | value present => exact balanced_parameter hd _
  | row alias? mapping single =>
    exact balanced_column hd env (wf.isAlias (Scope.knows_rowAlias alias?)) _
  | condition admitted resolved =>
    obtain ⟨hsteps, hknown⟩ := resolved.steps
    have halias := (Scope.Steps.wellFormed hsteps wf).isAlias hknown
    exact balanced_around hd (by decide) (balanced_column hd env halias _) (balanced_parameter hd _)
  | member plain resolved =>
    obtain ⟨hsteps, hknown⟩ := resolved.steps
    exact balanced_column hd env ((Scope.Steps.wellFormed hsteps wf).isAlias hknown) _

end Compiled

end RowMapper
