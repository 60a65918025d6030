import RowMapper.Text.Mark

/-!
# Clusters

What a reader takes for one character can be several: a letter with its marks, with signs that
are written before it, or pictographs that are joined. Syllables of several letters and flags
are not grouped; no case or digit is in them.
-/

namespace RowMapper.Text

/-- Characters that are read as one. -/
abbrev Cluster := List Char

/-- Joins what is before and behind it. -/
def joiner : Char := Char.ofNat 0x200d

/-- Marks with a space of their own that are read apart from the character before them. -/
def detachedMarks : CodeSet := .ofRows
  ["102b-102c 1038 1062-1064 1067-106d 1083 1087-108c 108f 109a-109c 1a61 1a63-1a64 aa7b aa7d",
   "11720-11721"]

/-- Characters that are no marks and are read as one with the character before them: vowels,
and tones of skin. -/
def attachedSigns : CodeSet := .ofRows ["e33 eb3 1f3fb-1f3ff"]

/-- Signs that are read as one with the character behind them. -/
def prependedSigns : CodeSet := .ofRows
  ["600-605 6dd 70f 890-891 8e2 d4e 110bd 110cd 111c2-111c3 113d1 1193f 11941 11a84-11a89 11d46",
   "11f02"]

/-- The pictographs. -/
def pictographs : CodeSet := .ofRows [
  "a9 ae 203c 2049 2122 2139 2194-2199 21a9-21aa 231a-231b 2328 23cf 23e9-23f3 23f8-23fa 24c2",
  "25aa-25ab 25b6 25c0 25fb-25fe 2600-2604 260e 2611 2614-2615 2618 261d 2620 2622-2623 2626",
  "262a 262e-262f 2638-263a 2640 2642 2648-2653 265f-2660 2663 2665-2666 2668 267b 267e-267f",
  "2692-2697 2699 269b-269c 26a0-26a1 26a7 26aa-26ab 26b0-26b1 26bd-26be 26c4-26c5 26c8",
  "26ce-26cf 26d1 26d3-26d4 26e9-26ea 26f0-26f5 26f7-26fa 26fd 2702 2705 2708-270d 270f 2712",
  "2714 2716 271d 2721 2728 2733-2734 2744 2747 274c 274e 2753-2755 2757 2763-2764 2795-2797",
  "27a1 27b0 27bf 2934-2935 2b05-2b07 2b1b-2b1c 2b50 2b55 3030 303d 3297 3299 1f004",
  "1f02c-1f02f 1f094-1f09f 1f0af-1f0b0 1f0c0 1f0cf-1f0d0 1f0f6-1f0ff 1f170-1f171 1f17e-1f17f",
  "1f18e 1f191-1f19a 1f1ae-1f1e5 1f201-1f20f 1f21a 1f22f 1f232-1f23a 1f23c-1f23f 1f249-1f25f",
  "1f266-1f321 1f324-1f393 1f396-1f397 1f399-1f39b 1f39e-1f3f0 1f3f3-1f3f5 1f3f7-1f3fa",
  "1f400-1f4fd 1f4ff-1f53d 1f549-1f54e 1f550-1f567 1f56f-1f570 1f573-1f57a 1f587 1f58a-1f58d",
  "1f590 1f595-1f596 1f5a4-1f5a5 1f5a8 1f5b1-1f5b2 1f5bc 1f5c2-1f5c4 1f5d1-1f5d3 1f5dc-1f5de",
  "1f5e1 1f5e3 1f5e8 1f5ef 1f5f3 1f5fa-1f64f 1f680-1f6c5 1f6cb-1f6d2 1f6d5-1f6e5 1f6e9",
  "1f6eb-1f6f0 1f6f3-1f6ff 1f7da-1f7ff 1f80c-1f80f 1f848-1f84f 1f85a-1f85f 1f888-1f88f",
  "1f8ae-1f8af 1f8bc-1f8bf 1f8c2-1f8cf 1f8d9-1f8ff 1f90c-1f93a 1f93c-1f945 1f947-1f9ff",
  "1fa58-1fa5f 1fa6e-1faff 1fc00-1fffd"]

/-- The character is read as one with the character before it. -/
def isAttached (c : Char) : Bool :=
  0x80 ≤ c.toNat && (c == joiner || isExtending c || attachedSigns.contains c
    || (spacingMarks.contains c && !detachedMarks.contains c))

/-- The character is read as one with the character behind it. -/
def isPrepended (c : Char) : Bool := 0x80 ≤ c.toNat && prependedSigns.contains c

/-- The cluster ends with a pictograph, signs that extend it, and a joiner. -/
def Cluster.awaitsPictograph (cluster : Cluster) : Bool :=
  match cluster.reverse with
  | last :: before =>
    last == joiner && ((before.dropWhile isExtending).head?).any pictographs.contains
  | [] => false

/-- The character belongs to the cluster before it. -/
def Cluster.takes (cluster : Cluster) (c : Char) : Bool :=
  isAttached c || (cluster.getLast?).any isPrepended
    || (cluster.awaitsPictograph && pictographs.contains c)

/-- The clusters, the first of which begins with the given characters. -/
def clustersFrom (cluster : Cluster) : List Char → List Cluster
  | [] => [cluster]
  | c :: rest =>
    if cluster.takes c then clustersFrom (cluster ++ [c]) rest else cluster :: clustersFrom [c] rest

/-- The characters grouped to clusters. -/
def clusters : List Char → List Cluster
  | [] => []
  | c :: rest => clustersFrom [c] rest

theorem flatten_clustersFrom (cluster : Cluster) (cs : List Char) :
    (clustersFrom cluster cs).flatten = cluster ++ cs := by
  induction cs generalizing cluster with
  | nil => simp [clustersFrom]
  | cons c rest ih =>
    rw [clustersFrom]
    split
    · rw [ih]; simp
    · simp [ih]

/-- Grouping loses nothing and changes no order. -/
@[simp] theorem flatten_clusters (cs : List Char) : (clusters cs).flatten = cs := by
  cases cs with
  | nil => rfl
  | cons c rest => exact flatten_clustersFrom [c] rest

end RowMapper.Text
