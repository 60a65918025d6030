import RowMapper.Text.CodePoint

/-!
# Letter case

The lower case of every character, and the characters that have another form in upper case.
-/

namespace RowMapper.Text

/-- The lower case of the characters beyond ASCII that have another form in it. -/
def loweredForms : CodeMap := .ofRows [
  "c0-d6:e0 d8-de:f8 100-12e/2:101 130:69+307 132-136/2:133 139-147/2:13a 14a-176/2:14b",
  "178:ff 179-17d/2:17a 181:253,183 184:185 186:254,188 189:256,257,18c 18e:1dd,259,25b,192",
  "193:260,263 196:269,268,199 19c:26f,272 19f:275 1a0-1a4/2:1a1 1a6:280,1a8 1a9:283 1ac:1ad",
  "1ae:288,1b0 1b1:28a,28b,1b4 1b5:1b6 1b7:292,1b9 1bc:1bd 1c4:1c6,1c6 1c7:1c9,1c9 1ca:1cc",
  "1cb-1db/2:1cc 1de-1ee/2:1df 1f1:1f3,1f3 1f4:1f5 1f6:195,1bf 1f8-21e/2:1f9 220:19e",
  "222-232/2:223 23a:2c65,23c 23d:19a,2c66 241:242 243:180,289,28c 246-24e/2:247 370:371",
  "372:373 376:377 37f:3f3 386:3ac 388-38a:3ad 38c:3cc 38e:3cd,3ce 391-3a1:3b1 3a3-3ab:3c3",
  "3cf:3d7 3d8-3ee/2:3d9 3f4:3b8 3f7:3f8 3f9:3f2,3fb 3fd-3ff:37b 400-40f:450 410-42f:430",
  "460-480/2:461 48a-4be/2:48b 4c0:4cf 4c1-4cd/2:4c2 4d0-52e/2:4d1 531-556:561 10a0-10c5:2d00",
  "10c7:2d27 10cd:2d2d 13a0-13ef:ab70 13f0-13f5:13f8 1c89:1c8a 1c90-1cba:10d0 1cbd-1cbf:10fd",
  "1e00-1e94/2:1e01 1e9e:df 1ea0-1efe/2:1ea1 1f08-1f0f:1f00 1f18-1f1d:1f10 1f28-1f2f:1f20",
  "1f38-1f3f:1f30 1f48-1f4d:1f40 1f59-1f5f/2:1f51 1f68-1f6f:1f60 1f88-1f8f:1f80",
  "1f98-1f9f:1f90 1fa8-1faf:1fa0 1fb8:1fb0,1fb1,1f70,1f71,1fb3 1fc8-1fcb:1f72 1fcc:1fc3",
  "1fd8:1fd0,1fd1,1f76,1f77 1fe8:1fe0,1fe1,1f7a,1f7b,1fe5 1ff8:1f78,1f79,1f7c,1f7d,1ff3",
  "2126:3c9 212a:6b,e5 2132:214e 2160-216f:2170 2183:2184 24b6-24cf:24d0 2c00-2c2f:2c30",
  "2c60:2c61 2c62:26b,1d7d,27d 2c67-2c6b/2:2c68 2c6d:251,271,250,252 2c72:2c73 2c75:2c76",
  "2c7e:23f,240 2c80-2ce2/2:2c81 2ceb:2cec 2ced:2cee 2cf2:2cf3 a640-a66c/2:a641",
  "a680-a69a/2:a681 a722-a72e/2:a723 a732-a76e/2:a733 a779:a77a a77b:a77c a77d:1d79",
  "a77e-a786/2:a77f a78b:a78c a78d:265 a790:a791 a792:a793 a796-a7a8/2:a797",
  "a7aa:266,25c,261,26c,26a a7b0:29e,287,29d,ab53 a7b4-a7c2/2:a7b5 a7c4:a794,282,1d8e,a7c8",
  "a7c9:a7ca a7cb:264 a7cc-a7da/2:a7cd a7dc:19b a7f5:a7f6 ff21-ff3a:ff41 10400-10427:10428",
  "104b0-104d3:104d8 10570-10594/2:10597 10571-10579/2:10598 1057d-10589/2:105a4",
  "1058d-10591/2:105b4 10595:105bc 10c80-10cb2:10cc0 10d50-10d65:10d70 118a0-118bf:118c0",
  "16e40-16e5f:16e60 16ea0-16eb8:16ebb 1e900-1e921:1e922"]

/-- The characters beyond ASCII that have another form in upper case. -/
def raisable : CodeSet := .ofRows [
  "b5 df-f6 f8-ff 101-137/2 13a-148/2 149-177/2 17a-180/2 17f 183 185 188 18c 192 195 199-19b",
  "19e 1a1-1a5/2 1a8 1ad 1b0 1b4 1b6 1b9 1bd 1bf 1c5-1c6 1c8-1c9 1cb-1cc 1ce-1dc/2 1dd-1ef/2",
  "1f0 1f2-1f3 1f5 1f9-21f/2 223-233/2 23c 23f-240 242 247-253/2 250-256/2 257-25b/2 25c",
  "260-261 263-266 268-26c 26f 271-272 275 27d 280 282-283 287-28c 292 29d-29e 345 371 373",
  "377 37b-37d 390 3ac-3ce 3d0-3d1 3d5-3f5/2 3d6 3f0 3f2 3f8 3fb 430-45f 461-481/2 48b-4bf/2",
  "4c2-4ce/2 4cf-52f/2 561-587 10d0-10fa 10fd-10ff 13f8-13fd 1c80-1c88 1c8a 1d79 1d7d 1d8e",
  "1e01-1e9b/2 1e96-1e9a/2 1ea1-1f07/2 1f00-1f06/2 1f10-1f15 1f20-1f27 1f30-1f37 1f40-1f45",
  "1f50-1f57 1f60-1f67 1f70-1f7d 1f80-1fb4 1fb6-1fb7 1fbc 1fbe 1fc2-1fc4 1fc6-1fc7 1fcc",
  "1fd0-1fd3 1fd6-1fd7 1fe0-1fe7 1ff2-1ff4 1ff6-1ff7 1ffc 214e 2170-217f 2184 24d0-24e9",
  "2c30-2c5f 2c61 2c65-2c66 2c68-2c6c/2 2c73 2c76 2c81-2ce3/2 2cec 2cee 2cf3 2d00-2d25 2d27",
  "2d2d a641-a66d/2 a681-a69b/2 a723-a72f/2 a733-a76f/2 a77a a77c a77f-a787/2 a78c a791",
  "a793-a794 a797-a7a9/2 a7b5-a7c3/2 a7c8 a7ca a7cd-a7db/2 a7f6 ab53 ab70-abbf fb00-fb06",
  "fb13-fb17 ff41-ff5a 10428-1044f 104d8-104fb 10597-105bb/2 10598-105a0/2 105a4-105b0/2",
  "105b4-105b8/2 105bc 10cc0-10cf2 10d70-10d85 118c0-118df 16e60-16e7f 16ebb-16ed3",
  "1e922-1e943"]

/-- The lower case of a character; that of the capital I with a dot keeps its dot as a mark. -/
def lowered (c : Char) : List Char :=
  if c.toNat < 0x80 then [c.toLower] else (loweredForms.target? c).getD [c]

/-- The character has another form in lower case. -/
def isLowerable (c : Char) : Bool := lowered c != [c]

/-- The character has another form in upper case. -/
def isRaisable (c : Char) : Bool := if c.toNat < 0x80 then c.isLower else raisable.contains c

end RowMapper.Text
