import RowMapper.Text.Composed
import RowMapper.Text.Mark

/-!
# Joining letters

In some scripts the form of a letter tells whether it is joined to its neighbours. The joiner and
the sign that parts letters may stand in a domain name only where they change such a form.
-/

namespace RowMapper.Url.Domain

/-- The letters that join the letter behind them. -/
def joiningBehind : Text.CodeSet := .ofRows [
  "620 626 628 62a-62e 633-63f 641-647 649-64a 66e-66f 679-687 69a-6bf 6c1-6c2 6cc 6ce",
  "6d0-6d1 6fa-6fc 6ff 712-714 71a-71d 71f-727 729 72b 72d-72e 74e-758 75c-76a 76d-770 772",
  "775-777 77a-77f 7ca-7ea 841-845 848 84a-853 855 860 862-865 868 886 889-88d 88f 8a0-8a9",
  "8af-8b0 8b3-8b8 8ba-8c8 1807 1820-1878 1887-18a8 18aa a840-a872 10ac0-10ac4 10acd",
  "10ad3-10adc 10ade-10ae0 10aeb-10aee 10b80 10b82 10b86-10b88 10b8a-10b8b 10b8d 10b90",
  "10bad-10bae 10d00-10d21 10d23 10ec3-10ec4 10ec6-10ec7 10f30-10f32 10f34-10f44 10f51-10f53",
  "10f70-10f73 10f76-10f81 10fb0 10fb2-10fb3 10fb8 10fbb-10fbc 10fbe-10fbf 10fc1 10fc4",
  "10fca-10fcb 1e922-1e943"]

/-- The letters that join the letter before them. -/
def joiningBefore : Text.CodeSet := .ofRows [
  "620 622-63f 641-64a 66e-66f 671-673 679-6d3 6d5 6ee-6ef 6fa-6fc 6ff 710 712-72f 74d-77f",
  "7ca-7ea 840-858 860 862-865 867-882 886 889-88f 8a0-8ac 8ae-8c8 1807 1820-1878 1887-18a8",
  "18aa a840-a871 10ac0-10ac5 10ac7 10ac9-10aca 10ace-10ad6 10ad8-10ae1 10ae4 10aeb-10aef",
  "10b80-10b91 10ba9-10bae 10d01-10d23 10ec2-10ec4 10ec6-10ec7 10f30-10f44 10f51-10f54",
  "10f70-10f81 10fb0 10fb2-10fb6 10fb8-10fbf 10fc1-10fc4 10fc9-10fca 1e922-1e943"]

/-- Letters join across the character: a mark, or the sign of a nasal vowel. -/
def isSeeThrough (c : Char) : Bool := Text.isNonspacingMark c || c.toNat == 0x1e94b

/-- The sign takes the vowel from the letter before it. -/
def isVowelKiller (c : Char) : Bool := Text.markPlace c == 9

/-- The first character that is not seen through is in the set. -/
def reaches (set : Text.CodeSet) (cs : List Char) : Bool :=
  ((cs.dropWhile isSeeThrough).head?).any set.contains

/-- Each joiner stands behind a sign that takes a vowel away, and each parting sign there or
between letters that it parts. `before` holds what precedes, the nearest first. -/
def joinersFit (before : List Char) : List Char → Bool
  | [] => true
  | c :: rest =>
    let fits :=
      if c.toNat == 0x200d then (before.head?).any isVowelKiller
      else if c.toNat == 0x200c then
        (before.head?).any isVowelKiller
          || (reaches joiningBehind before && reaches joiningBefore rest)
      else true
    fits && joinersFit (c :: before) rest

end RowMapper.Url.Domain
