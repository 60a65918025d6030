/-!
# Punycode

The ASCII form of a label with other characters: its ASCII characters, a hyphen, and how the
others are inserted into them. They are inserted in the order of their code points, those of one
code point from left to right. An insertion is told by its delta, the number of insertions passed
over since the one before: at each code point there are as many as there are places. A delta is a
number in base 36 whose last digit is below a threshold; the thresholds follow a bias that adapts
to the deltas.

Not every text is such a form: its digits can end within a number or tell of a code point that
does not exist.
-/

namespace RowMapper.Url.Punycode

/-- The insertion of a code point behind as many characters as `place` says. -/
structure Insertion where
  point : Nat
  place : Nat
  deriving Repr, DecidableEq

/-- Where insertions start: before all characters beyond ASCII. -/
def Insertion.start : Insertion := ⟨0x80, 0⟩

/-- The first insertion that may follow: of the same code point, one place further. -/
def Insertion.behind (i : Insertion) : Insertion := ⟨i.point, i.place + 1⟩

/-! ## Biases -/

/-- The bias for a delta that was damped. -/
def biasOf (delta : Nat) : Nat :=
  if 455 < delta then 36 + biasOf (delta / 35) else 36 * delta / (delta + 38)
termination_by delta
decreasing_by omega

/-- The bias after a delta that made a text of `count` characters; the first delta is large by
nature and damped accordingly. -/
def adapt (delta count : Nat) (first : Bool) : Nat :=
  let damped := if first then delta / 700 else delta / 2
  biasOf (damped + damped / count)

/-- A digit at the position ends its number if it is below this: the distance from the bias,
between 1 and 26. Positions are 36 apart, from 36 on. -/
def threshold (position bias : Nat) : Nat := min 26 (max 1 (position - bias))

theorem threshold_pos (position bias : Nat) : 0 < threshold position bias := by
  unfold threshold
  omega

/-! ## Writing -/

/-- The digit of a value below 36. -/
def digit (n : Nat) : Char :=
  if n < 26 then Char.ofNat ('a'.toNat + n) else Char.ofNat ('0'.toNat + (n - 26))

/-- The digits of a number from a position on, the least first. -/
def writeNumber (bias position n : Nat) : List Char :=
  let t := threshold position bias
  if n < t then [digit n]
  else
    let above := n - t
    digit (t + above % (36 - t)) :: writeNumber bias (position + 36) (above / (36 - t))
termination_by n
decreasing_by
  have := threshold_pos position bias
  have := Nat.div_le_self (n - threshold position bias) (36 - threshold position bias)
  omega

/-- The deltas one behind the other, each under the bias that the one before left. -/
def writeDeltas (bias count : Nat) (first : Bool) : List Nat → List Char
  | [] => []
  | delta :: rest =>
    let bias' := adapt delta (count + 1) first
    writeNumber bias 36 delta ++ writeDeltas bias' (count + 1) false rest

/-- The insertions that make a label, from left to right. A character is inserted behind those
that precede it and are there by then: the ones of no greater code point. -/
def insertions (before : List Char) : List Char → List Insertion
  | [] => []
  | c :: rest =>
    let later := insertions (before ++ [c]) rest
    if c.toNat < 0x80 then later
    else ⟨c.toNat, (before.filter (·.toNat ≤ c.toNat)).length⟩ :: later

/-- The deltas of insertions into a text of `count` characters. -/
def deltas (reached : Insertion) (count : Nat) : List Insertion → List Nat
  | [] => []
  | next :: rest =>
    let passed := (next.point - reached.point) * (count + 1) + next.place - reached.place
    passed :: deltas next.behind (count + 1) rest

/-- The ASCII form of a label. -/
def encode (label : List Char) : List Char :=
  let basic := label.filter (·.toNat < 0x80)
  let made := (insertions [] label).mergeSort (·.point ≤ ·.point)
  (if basic.isEmpty then [] else basic ++ ['-'])
    ++ writeDeltas 72 basic.length true (deltas .start basic.length made)

/-! ## Reading -/

/-- The value of a digit. -/
def digitValue? (c : Char) : Option Nat :=
  if 'a' ≤ c ∧ c ≤ 'z' then some (c.toNat - 'a'.toNat)
  else if '0' ≤ c ∧ c ≤ '9' then some (c.toNat - '0'.toNat + 26)
  else none

/-- Reads deltas, being at a position of one of them: `delta` is the sum of its digits so far,
and `weight` what the next one counts. -/
def readDeltas (bias count : Nat) (first : Bool) (position weight delta : Nat) :
    List Char → Option (List Nat)
  | [] => if position = 36 then some [] else none
  | c :: rest => do
    let value ← digitValue? c
    let delta := delta + value * weight
    let t := threshold position bias
    if value < t then
      let later ← readDeltas (adapt delta (count + 1) first) (count + 1) false 36 1 0 rest
      return delta :: later
    else readDeltas bias count first (position + 36) (weight * (36 - t)) delta rest

/-- Makes the insertions that the deltas tell of. -/
def insertAll (reached : Insertion) (text : List Char) : List Nat → Option (List Char)
  | [] => some text
  | delta :: rest =>
    let places := text.length + 1
    let passed := reached.place + delta
    let next : Insertion := ⟨reached.point + passed / places, passed % places⟩
    if next.point.isValidChar then
      insertAll next.behind (text.take next.place ++ Char.ofNat next.point :: text.drop next.place)
        rest
    else none

/-- The label whose ASCII form this is, if it is one. -/
def decode (form : List Char) : Option (List Char) := do
  let digits := (form.reverse.takeWhile (· != '-')).reverse
  let basic := form.take (form.length - digits.length - 1)
  let written := if basic.isEmpty then form else digits
  insertAll .start basic (← readDeltas 72 basic.length true 36 1 0 written)

end RowMapper.Url.Punycode
