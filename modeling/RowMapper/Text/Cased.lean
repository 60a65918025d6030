import RowMapper.Text.Mark

/-!
# Cased characters

Which characters have a case, and which ones a case looks past: marks, apostrophes, full stops
and other signs that occur within words. The form of a letter can depend on whether it has a
cased character before or behind it.
-/

namespace RowMapper.Text

/-- The characters of either case, and those with a capital and a small letter in one. -/
def cased : CodeSet := .ofRows [
  "41-5a 61-7a aa b5 ba c0-1be/2 c1-d5/2 d9-f5/2 f9-1b9/2 1bd 1bf 1c4-293 296-2b8 2c0-2c1",
  "2e0-2e4 345 370-373 376-377 37a-37d 37f 386-3a0/2 389 38f-481/2 3a4-3f4/2 3f8-480/2",
  "48a-52f 531-556 560-588 10a0-10c5 10c7 10cd 10d0-10fa 10fc-10ff 13a0-13f5 13f8-13fd",
  "1c80-1c8a 1c90-1cba 1cbd-1cbf 1d00-1dbf 1e00-1f15 1f18-1f1d 1f20-1f45 1f48-1f4d 1f50-1f57",
  "1f59-1f7d/2 1f60-1f7c/2 1f80-1fb4 1fb6-1fbc 1fbe 1fc2-1fcc/2 1fc3 1fc7-1fcb/2 1fd0-1fd3",
  "1fd6-1fdb 1fe0-1fec 1ff2-1ffc/2 1ff3 1ff7-1ffb/2 2071 207f 2090-209c 2102 2107 210a-2113",
  "2115 2119-211d 2124-212c/2 212b-2133/2 2130-2134/2 2139 213c-213f 2145-2149 214e 2160-217f",
  "2183-2184 24b6-24e9 2c00-2ce4 2ceb-2cee 2cf2-2cf3 2d00-2d25 2d27 2d2d a640-a66d a680-a69d",
  "a722-a787 a78b-a78e a790-a7dc a7f1-a7f6 a7f8-a7fa ab30-ab5a ab5c-ab69 ab70-abbf fb00-fb06",
  "fb13-fb17 ff21-ff3a ff41-ff5a 10400-1044f 104b0-104d3 104d8-104fb 10570-10594/2",
  "10571-10579/2 1057d-10589/2 1058d-10591/2 10595-105bb/2 10598-105a0/2 105a4-105b0/2",
  "105b4-105b8/2 105bc 10780 10783-107af/2 10784 10788-107ba/2 107b3-107b9/2 10c80-10cb2",
  "10cc0-10cf2 10d50-10d65 10d70-10d85 118a0-118df 16e40-16e7f 16ea0-16eb8 16ebb-16ed3",
  "1d400-1d454 1d456-1d49c 1d49e-1d49f 1d4a2 1d4a5-1d4a6 1d4a9-1d4ac 1d4ae-1d4b9",
  "1d4bb-1d509/2 1d4be-1d4c2/2 1d4c6-1d504/2 1d508 1d50a 1d50d-1d514 1d516-1d538/2",
  "1d517-1d51b/2 1d51f-1d53d/2 1d53c-1d546/2 1d541 1d543 1d54a-1d6a4/2 1d54b-1d54f/2",
  "1d553-1d6a5/2 1d6a8-1d7ca/2 1d6a9-1d6bf/2 1d6c3-1d6d9/2 1d6dd-1d6f9/2 1d6fd-1d713/2",
  "1d717-1d733/2 1d737-1d74d/2 1d751-1d76d/2 1d771-1d787/2 1d78b-1d7a7/2 1d7ab-1d7c1/2",
  "1d7c5-1d7cb/2 1df00-1df09 1df0b-1df1e 1df25-1df2a 1e030-1e06d 1e900-1e943 1f130-1f149",
  "1f150-1f169 1f170-1f189"]

/-- The characters besides marks that a case looks past. -/
def transparentToCase : CodeSet := .ofRows [
  "27 2e 3a 5e 60 a8 ad af b4 b7-b8 2b0-2ff 374-375 37a 384-385 387 559 55f 5f4 600-605 61c",
  "640 6dd 6e5-6e6 70f 7f4-7f5 7fa 81a 824 828 888 890-891 8c9 8e2 971 e46 ec6 10fc 17d7 180e",
  "1843 1aa7 1c78-1c7d 1d2c-1d6a 1d78 1d9b-1dbf 1fbd 1fbf-1fc1 1fcd-1fcf 1fdd-1fdf 1fed-1fef",
  "1ffd-1ffe 200b-200f 2018-2019 2024 2027 202a-202e 2060-2064 2066-206f 2071 207f 2090-209c",
  "2c7c-2c7d 2d6f 2e2f 3005 3031-3035 303b 309b-309e 30fc-30fe a015 a4f8-a4fd a60c a67f",
  "a69c-a69d a700-a721 a770 a788-a78a a7f1-a7f4 a7f8-a7f9 a9cf a9e6 aa70 aadd aaf3-aaf4",
  "ab5b-ab5f ab69-ab6b fbb2-fbc2 fe13 fe52 fe55 feff ff07 ff0e ff1a ff3e ff40 ff70 ff9e-ff9f",
  "ffe3 fff9-fffb 10780-10785 10787-107b0 107b2-107ba 10d4e 10d6f 10ec5 110bd 110cd 11dd9",
  "13430-1343f 16b40-16b43 16d40-16d42 16d6b-16d6c 16f93-16f9f 16fe0-16fe1 16fe3 16ff2-16ff3",
  "1aff0-1aff3 1aff5-1affb 1affd-1affe 1bca0-1bca3 1d173-1d17a 1e030-1e06d 1e137-1e13d 1e4eb",
  "1e6ff 1e94b 1f3fb-1f3ff e0001 e0020-e007f"]

/-- A case looks past the character. -/
def isTransparentToCase (c : Char) : Bool := transparentToCase.contains c || isNonspacingMark c

/-- The first of the characters that a case does not look past has a case. -/
def startsCased (cs : List Char) : Bool :=
  (cs.find? (!isTransparentToCase ·)).any cased.contains

end RowMapper.Text
