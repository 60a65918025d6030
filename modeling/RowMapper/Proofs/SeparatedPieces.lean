import RowMapper.Text.Separated

/-!
# Lists of pieces

A list is written piece by piece behind what is there already. What a piece writes is not looked
at: whether it wrote anything shows in how far the text has grown since the piece began, and the
separator goes out in front of the next piece. So a separator is due behind each piece that wrote
something, and is written if another piece begins, be it an empty one.

* `Text.Growing` is what is remembered from one piece to the next.
* `Text.text_foldl_write` says what a run over all pieces leaves, by induction on them.
* `Text.separated_eq_intercalate` is the same in closed form: the non-empty pieces with a separator
  between any two of them, and one more behind them if the last piece wrote nothing.
-/

namespace RowMapper.Text

/-! ## The run over the pieces -/

/-- A text that grows, and the number of bytes it had when the last piece began. -/
structure Growing where
  text : String
  mark : Nat

namespace Growing

/-- A text to which no piece was written yet. -/
def start (written : String) : Growing := ⟨written, written.utf8ByteSize⟩

/-- The text is longer than it was when the last piece began. -/
def grew (g : Growing) : Bool := g.mark < g.text.utf8ByteSize

/-- Writes a piece, behind a separator if the one before it wrote something. -/
def write (separator : String) (g : Growing) (piece : String) : Growing :=
  let text := if g.grew then g.text ++ separator else g.text
  ⟨text ++ piece, text.utf8ByteSize⟩

@[simp] theorem grew_start (written : String) : (start written).grew = false := by
  simp [start, grew]

/-- Only the piece counts, not the separator in front of it. -/
@[simp] theorem grew_write (separator : String) (g : Growing) (piece : String) :
    (g.write separator piece).grew = !piece.isEmpty := by
  have hlength : (g.write separator piece).text.utf8ByteSize
      = (g.write separator piece).mark + piece.utf8ByteSize := by
    show (_ ++ piece : String).utf8ByteSize = _
    rw [String.utf8ByteSize_append]
    rfl
  unfold grew
  rw [hlength, String.isEmpty_eq_utf8ByteSize_beq_zero]
  cases piece.utf8ByteSize with
  | zero => simp
  | succ n => simp

end Growing

/-- A run over the pieces leaves them separated, behind a separator that was due before. -/
theorem text_foldl_write (separator : String) (g : Growing) (pieces : List String) :
    (pieces.foldl (Growing.write separator) g).text
      = g.text ++ (if g.grew && !pieces.isEmpty then separator else "")
        ++ String.ofList (separated separator.toList (pieces.map String.toList)) := by
  -- for every text to write behind: one more piece is part of that text
  induction pieces generalizing g with
  | nil => simp
  | cons piece rest ih =>
    have hwritten : (g.write separator piece).text
        = g.text ++ (if g.grew then separator else "") ++ piece := by
      show (if g.grew then g.text ++ separator else g.text) ++ piece = _
      cases g.grew with
      | true => rfl
      | false => simp
    rw [List.foldl_cons, ih, hwritten, Growing.grew_write]
    cases rest with
    | nil => simp
    | cons next rest =>
      show _ = g.text ++ _ ++ String.ofList
        ((if piece.toList.isEmpty then [] else piece.toList ++ separator.toList) ++ _)
      by_cases hempty : piece = ""
      · simp [hempty, String.append_assoc]
      · simp [hempty, String.append_assoc]

/-! ## The closed form -/

/-- A separator is due at the end: the last piece wrote nothing, behind one that did. -/
def isDue {α : Type} (pieces : List (List α)) : Bool :=
  pieces.any (!·.isEmpty) && pieces.getLast?.any (·.isEmpty)

/-- Nothing is written of empty pieces. -/
theorem separated_of_filter_eq_nil {α : Type} {separator : List α} {pieces : List (List α)}
    (h : pieces.filter (!·.isEmpty) = []) : separated separator pieces = [] := by
  induction pieces with
  | nil => rfl
  | cons piece rest ih =>
    have hall := List.filter_eq_nil_iff.1 h
    have hpiece : piece = [] := by simpa using hall piece List.mem_cons_self
    have hrest : rest.filter (!·.isEmpty) = [] :=
      List.filter_eq_nil_iff.2 fun p hp => hall p (List.mem_cons_of_mem _ hp)
    subst hpiece
    cases rest with
    | nil => rfl
    | cons next rest => exact ih hrest

/-- The non-empty pieces with a separator between any two of them, and what is due behind them. -/
theorem separated_eq_intercalate {α : Type} (separator : List α) (pieces : List (List α)) :
    separated separator pieces
      = separator.intercalate (pieces.filter (!·.isEmpty))
        ++ if isDue pieces then separator else [] := by
  induction pieces with
  | nil => rfl
  | cons piece rest ih =>
    cases rest with
    | nil =>
      -- a single piece either wrote something or is not there to be written behind
      cases piece with
      | nil => rfl
      | cons c cs => simp [isDue]
    | cons next rest =>
      rw [separated]
      cases piece with
      | nil =>
        have hdue : isDue ([] :: next :: rest) = isDue (next :: rest) := by simp [isDue]
        rw [hdue]
        exact ih
      | cons c cs =>
        show (c :: cs) ++ separator ++ separated separator (next :: rest)
          = separator.intercalate ((c :: cs) :: (next :: rest).filter (!·.isEmpty)) ++ _
        -- the separator that was written goes between two pieces, or is what is due
        cases hkept : (next :: rest).filter (!·.isEmpty) with
        | nil =>
          have hlast : (next :: rest).getLast?.any (·.isEmpty) = true := by
            rw [List.getLast?_eq_some_getLast (List.cons_ne_nil next rest)]
            simpa using List.filter_eq_nil_iff.1 hkept _ (List.getLast_mem _)
          have hdue : isDue ((c :: cs) :: next :: rest) = true := by
            rw [isDue, List.getLast?_cons_cons, hlast]
            simp
          rw [separated_of_filter_eq_nil hkept, hdue]
          simp
        | cons first kept =>
          have hany : (next :: rest).any (!·.isEmpty) = true := by
            have hfirst : first ∈ (next :: rest).filter (!·.isEmpty) := by simp [hkept]
            obtain ⟨hmem, hfull⟩ := List.mem_filter.1 hfirst
            exact List.any_eq_true.2 ⟨first, hmem, hfull⟩
          have hdue : isDue ((c :: cs) :: next :: rest) = isDue (next :: rest) := by
            rw [isDue, isDue, List.getLast?_cons_cons, hany]
            simp
          rw [ih, hkept, hdue, List.intercalate_cons_cons]
          simp only [List.append_assoc]

/-! ## Texts -/

/-- What a run with lengths leaves is what is written piece by piece. -/
theorem text_foldl_start (written separator : String) (texts : List String) :
    (texts.foldl (Growing.write separator) (.start written)).text
      = appendSeparated written separator texts := by
  rw [text_foldl_write, Growing.grew_start]
  simp [Growing.start, appendSeparated]

theorem filter_map_toList (texts : List String) :
    (texts.map String.toList).filter (!·.isEmpty)
      = (texts.filter (· ≠ "")).map String.toList := by
  rw [List.filter_map]
  apply congrArg
  apply List.filter_congr
  intro text _
  show (!text.toList.isEmpty) = decide (text ≠ "")
  by_cases hempty : text = "" <;> simp [hempty]

/-- A separator is due behind texts of which the last one is empty and another one is not. -/
theorem isDue_map_toList (texts : List String) :
    isDue (texts.map String.toList)
      = decide (texts.filter (· ≠ "") ≠ [] ∧ texts.getLast? = some "") := by
  have hany : (texts.map String.toList).any (!·.isEmpty)
      = decide (texts.filter (· ≠ "") ≠ []) := by
    rw [List.any_map, Bool.eq_iff_iff, List.any_eq_true, decide_eq_true_eq, Ne,
      List.filter_eq_nil_iff]
    simp
  have hlast : (texts.map String.toList).getLast?.any (·.isEmpty)
      = decide (texts.getLast? = some "") := by
    rw [List.getLast?_map]
    cases texts.getLast? with
    | none => rfl
    | some text => by_cases hempty : text = "" <;> simp [hempty]
  rw [isDue, hany, hlast]
  simp

/-- A run over texts behind a text leaves the non-empty ones with the separator between any two of
them. Nothing else is written, unless the last text is empty and another one is not: then there is
one separator more, at the end. -/
theorem appendSeparated_eq_intercalate (written separator : String) (texts : List String) :
    let kept := texts.filter (· ≠ "")
    let joined := written ++ separator.intercalate kept
    (texts.foldl (Growing.write separator) (.start written)).text
        = appendSeparated written separator texts
      ∧ appendSeparated written separator texts
        = joined ++ (if kept ≠ [] ∧ texts.getLast? = some "" then separator else "")
      ∧ (appendSeparated written separator texts = joined
        ↔ separator = "" ∨ kept = [] ∨ texts.getLast? ≠ some "") := by
  intro kept joined
  -- a last text that is empty leaves the separator that was due before it
  have hclosed : appendSeparated written separator texts
      = joined ++ (if kept ≠ [] ∧ texts.getLast? = some "" then separator else "") := by
    rw [appendSeparated, separated_eq_intercalate, filter_map_toList, isDue_map_toList,
      String.ofList_append, ← String.toList_intercalate, String.ofList_toList,
      ← String.append_assoc]
    show joined ++ String.ofList (if decide (kept ≠ [] ∧ texts.getLast? = some "") = true then _
      else _) = _
    by_cases hend : kept ≠ [] ∧ texts.getLast? = some "" <;> simp [hend]
  refine ⟨text_foldl_start written separator texts, hclosed, ?_⟩
  rw [hclosed]
  by_cases hend : kept ≠ [] ∧ texts.getLast? = some ""
  · rw [if_pos hend, String.append_eq_left_iff]
    exact ⟨.inl, fun h => h.resolve_right fun h => h.elim hend.1 fun hne => hne hend.2⟩
  · rw [if_neg hend, String.append_empty]
    refine iff_of_true rfl (.inr ?_)
    by_cases hnone : kept = []
    · exact .inl hnone
    · exact .inr fun hlast => hend ⟨hnone, hlast⟩

/-- The empty piece at the end lets the separator go out that is due behind the first one. -/
theorem separator_ends_the_list :
    appendSeparated "" ", " ["a", ""] = "a, "
      ∧ "" ++ ", ".intercalate (["a", ""].filter (· ≠ "")) = "a" := by
  decide +kernel

end RowMapper.Text
