import Typeward.Text.Ranges

/-!
# Lower case

Full lower-casing of text after the Unicode standard: every character by its own mapping, the
dotted capital I to two characters, and the capital sigma to its final form at the end of a word.
-/

namespace Typeward.Text

/-- Runs of characters with a lower-case form, as groups `start,count,step,image`: the characters
`start + i * step` go to `image + i * step`. -/
def lowerCaseRuns : Array (Nat × Nat × Nat × Nat) :=
  let groups := List.flatMap tableGroups [
  "41,1a,1,61 c0,17,1,e0 d8,7,1,f8 100,18,2,101 132,3,2,133 139,8,2,13a 14a,17,2,14b",
  "178,1,1,ff 179,3,2,17a 181,1,1,253 182,2,2,183 186,1,1,254 187,1,1,188 189,2,1,256",
  "18b,1,1,18c 18e,1,1,1dd 18f,1,1,259 190,1,1,25b 191,1,1,192 193,1,1,260 194,1,1,263",
  "196,1,1,269 197,1,1,268 198,1,1,199 19c,1,1,26f 19d,1,1,272 19f,1,1,275 1a0,3,2,1a1",
  "1a6,1,1,280 1a7,1,1,1a8 1a9,1,1,283 1ac,1,1,1ad 1ae,1,1,288 1af,1,1,1b0 1b1,2,1,28a",
  "1b3,2,2,1b4 1b7,1,1,292 1b8,1,1,1b9 1bc,1,1,1bd 1c4,1,1,1c6 1c5,1,1,1c6 1c7,1,1,1c9",
  "1c8,1,1,1c9 1ca,1,1,1cc 1cb,9,2,1cc 1de,9,2,1df 1f1,1,1,1f3 1f2,2,2,1f3 1f6,1,1,195",
  "1f7,1,1,1bf 1f8,14,2,1f9 220,1,1,19e 222,9,2,223 23a,1,1,2c65 23b,1,1,23c 23d,1,1,19a",
  "23e,1,1,2c66 241,1,1,242 243,1,1,180 244,1,1,289 245,1,1,28c 246,5,2,247 370,2,2,371",
  "376,1,1,377 37f,1,1,3f3 386,1,1,3ac 388,3,1,3ad 38c,1,1,3cc 38e,2,1,3cd 391,11,1,3b1",
  "3a3,9,1,3c3 3cf,1,1,3d7 3d8,c,2,3d9 3f4,1,1,3b8 3f7,1,1,3f8 3f9,1,1,3f2 3fa,1,1,3fb",
  "3fd,3,1,37b 400,10,1,450 410,20,1,430 460,11,2,461 48a,1b,2,48b 4c0,1,1,4cf 4c1,7,2,4c2",
  "4d0,30,2,4d1 531,26,1,561 10a0,26,1,2d00 10c7,1,1,2d27 10cd,1,1,2d2d 13a0,50,1,ab70",
  "13f0,6,1,13f8 1c90,2b,1,10d0 1cbd,3,1,10fd 1e00,4b,2,1e01 1e9e,1,1,df 1ea0,30,2,1ea1",
  "1f08,8,1,1f00 1f18,6,1,1f10 1f28,8,1,1f20 1f38,8,1,1f30 1f48,6,1,1f40 1f59,4,2,1f51",
  "1f68,8,1,1f60 1f88,8,1,1f80 1f98,8,1,1f90 1fa8,8,1,1fa0 1fb8,2,1,1fb0 1fba,2,1,1f70",
  "1fbc,1,1,1fb3 1fc8,4,1,1f72 1fcc,1,1,1fc3 1fd8,2,1,1fd0 1fda,2,1,1f76 1fe8,2,1,1fe0",
  "1fea,2,1,1f7a 1fec,1,1,1fe5 1ff8,2,1,1f78 1ffa,2,1,1f7c 1ffc,1,1,1ff3 2126,1,1,3c9",
  "212a,1,1,6b 212b,1,1,e5 2132,1,1,214e 2160,10,1,2170 2183,1,1,2184 24b6,1a,1,24d0",
  "2c00,30,1,2c30 2c60,1,1,2c61 2c62,1,1,26b 2c63,1,1,1d7d 2c64,1,1,27d 2c67,3,2,2c68",
  "2c6d,1,1,251 2c6e,1,1,271 2c6f,1,1,250 2c70,1,1,252 2c72,1,1,2c73 2c75,1,1,2c76",
  "2c7e,2,1,23f 2c80,32,2,2c81 2ceb,2,2,2cec 2cf2,1,1,2cf3 a640,17,2,a641 a680,e,2,a681",
  "a722,7,2,a723 a732,1f,2,a733 a779,2,2,a77a a77d,1,1,1d79 a77e,5,2,a77f a78b,1,1,a78c",
  "a78d,1,1,265 a790,2,2,a791 a796,a,2,a797 a7aa,1,1,266 a7ab,1,1,25c a7ac,1,1,261",
  "a7ad,1,1,26c a7ae,1,1,26a a7b0,1,1,29e a7b1,1,1,287 a7b2,1,1,29d a7b3,1,1,ab53",
  "a7b4,8,2,a7b5 a7c4,1,1,a794 a7c5,1,1,282 a7c6,1,1,1d8e a7c7,2,2,a7c8 a7d0,1,1,a7d1",
  "a7d6,2,2,a7d7 a7f5,1,1,a7f6 ff21,1a,1,ff41 10400,28,1,10428 104b0,24,1,104d8",
  "10570,b,1,10597 1057c,f,1,105a3 1058c,7,1,105b3 10594,2,1,105bb 10c80,33,1,10cc0",
  "118a0,20,1,118c0 16e40,20,1,16e60 1e900,22,1,1e922"]
  (groups.filterMap fun
    | [start, count, step, image] => some (start, count, step, image)
    | _ => none).toArray

/-- Cased characters that are not case-ignorable. -/
def casedRanges : CodeRanges := .ofTable [
  "41,19 7,19 30 b 5 6,16 2,1e 2,c2 2,3 5,cf 2,1a c1,3 3,1 4,2 2 7 2,2 2 2,13 2,52 2,8a 9,a5",
  "2,25 a,28 b18,25 2 6 3,2a 3,2 2a1,55 3,5 883,8 8,2a 3,2 41,2b 40,c 2,21 66,115 3,5 3,25 3,5",
  "3,7 2 2 2 2,1e 3,34 2,6 2 4,2 2,6 4,3 3,5 5,c 6,2 2,6 106 5 3,9 2 4,4 7 2 2 2,3 2,5 5 3,3",
  "6,4 5 12,1f 4,1 332,33 717,7b 3,66 7,3 4,1 d,25 2 6 7913,2d 13,1b 87,4d 2,16 4,3 2,3a 6,1 2",
  "2,4 1c,1 4 336,2a 6,8 8,4f 4f41,6 d,4 40a,19 7,19 4a6,4f 61,23 5,23 75,a 2,e 2,6 2,1 2,a",
  "2,e 2,6 2,1 6c4,32 e,32 bae,3f 5561,3f 6581,54 2,46 2,1 3 3,1 3,3 2,b 2 2,6 2,40 2,3 3,7",
  "2,6 2,1b 2,3 2,4 2 4,6 2,153 3,18 2,18 2,1e 2,18 2,1e 2,18 2,1e 2,18 2,1e 2,18 2,7 735,9",
  "2,13 9e2,43 7ed,19 7,19 7,19"]

/-- Case-ignorable characters: they do not end a word. -/
def caseIgnorableRanges : CodeRanges := .ofTable [
  "27 7 c 24 2 48 5 2 5 3,1 1f8,bf 5,1 5 a,1 2 fc,6 d0 6 32,2c 2 2,1 2,1 2 2d c,5 b,a 2 24",
  "b,14 11 66,7 2,9 2,3 22 2 1f,1a 5c,a 3b,a 5 3 19,17 2c,2 2d 8,1 7,7 2a,39 38 2 5,7 5 4,6",
  "b,1 e 10 3b 5,3 9 15,1 1b 3,1 3a 5,1 5,1 3,2 4 1f,1 4 c,1 3a 5,4 2,1 5 15,1 17,5 2 3b 3 2,3",
  "9 8,1 c,1 1f 3e d 33 4 38 2,2 6,2 2,3 8,1 c,1 1e 3b 3 7 6,1 15,1 1d,1 3a,1 5,3 9 15,1 1e 49",
  "8,2 2 5b 3,6 c,8 63 3,8 a 2,5 4b,1 1c 2 2 38,d 2,4 2,1 6,a 2,23 a 67,3 2,5 2,1 3,1 1a,1 5,2",
  "11,3 e 3,1 7 10 5f 261,2 3b3,2 1e,1 1f,1 1f,1 41,1 2,6 9 3,a 4 6 2e,4 34 42,1 23 77,2 5,1 a",
  "7,2 dc,1 3 3b 2,6 2 2 3,7 7,9 3 28 9,1e 32,3 31 2,4 2 6 29,8 d,1 21,3 3,1 2,2 39 2,1 4 2,2",
  "3b,7 3,1 41,5 53,2 2,c 2,6 5 7 4,1 33,3e e 23,64 1be 2,2 c,2 e,2 e,2 e,1 d,4 9,1 b 3 3,4",
  "32,4 2,9 2 e 11,c 34,20 b8c,1 72,2 7e 10 61,1f 30 1d6 25,3 4,4 6 5e,5 5e,2 6f17 4e3,5 10f",
  "63,3 2,9 2 1d,3 51,1 f,21 4f 18,2 68,2 4,1 9 4 5 1a,1 6 98,1 1b,11 e 27,7 1a,a 2f,2 31 3,3",
  "3,1 12 16,1 43,5 3,1 3,1 d 9 24 c 34 2,2 3,1 6,1 2 1c f,1 6,1 2 65,4 a,2 7a 3 5 4f31 94,10",
  "23e,f 4 d,f 23 3 aa 8 7 c 24 2 30 2e,1 44 16,2 202 e3 96,4 406,5 2,29 2,8 247,2 2,1 6,3",
  "29,2 5 a6,1 23e,3 184,1 9a,a 32,3 7c 37,e 2a 3,1 b,2 32,3 3,1 3 5 b 33,2 25,4 2,7 3f d,1",
  "35,8 b,3 3 60,2 3 2,1 7 a1 4,7 16,1 3a,1 4 26,6 4,4 c4,7 3,2 2 18 55,5 2 5,1 2,1 ef,3 7,1",
  "2,1 1c,1 56,7 3 2,1 6b 2 3,5 2 66,2 3,3 2,4 104,8 2,1 101,1 2 5 91,3 3,1 5 21,9 29,5 3,3 9",
  "a,5 3,2 2f,c 2,1 197,6 2,5 2 53,15 3,6 2,1 2,1 7b,5 4 2,1 2,6 2 49,1 4 2 15c,1 153c,8",
  "36b8,4 3c,6 a,3 40c 40,10 41,1 2,1 400c,3 2,6 2,1 c9f,1 2,3 125d,2d 3,16 221,2 a,f 3,6 1f,3",
  "95,2 7bc,36 5,31 9 f 17,4 2,e 551,6 2,10 3,6 2,1 2,4 106,d 171 3e,3 5e1,6 6e,7 ab0,4 c0c02",
  "1f,5f 81,ef"]

/-- The lower-case form of a code point, itself if it has none. -/
def lowerCode (code : Nat) : Nat :=
  match lastAtMost lowerCaseRuns (·.1) code with
  | some (start, count, step, image) =>
    let offset := code - start
    if offset % step = 0 ∧ offset / step < count then image + offset else code
  | none => code

/-- Whether the first character that is not case-ignorable is a cased one. -/
def meetsCased (cs : List Char) : Bool :=
  match cs.dropWhile (caseIgnorableRanges.contains ·.toNat) with
  | c :: _ => casedRanges.contains c.toNat
  | [] => false

/-- The lower-case form of a character, given those before it (nearest first) and after it. -/
def lowerChar (before : List Char) (c : Char) (after : List Char) : List Char :=
  if c.toNat < 128 then [c.toLower]
  else if c = 'Σ' then
    if meetsCased before && ! meetsCased after then ['ς'] else ['σ']
  else if c = 'İ' then ['i', Char.ofNat 0x307]
  else [Char.ofNat (lowerCode c.toNat)]

/-- The lower-case form of the characters of a text, given those before them, nearest first. -/
def lowerAfter (before : List Char) : List Char → List Char
  | [] => []
  | c :: rest => lowerChar before c rest ++ lowerAfter (c :: before) rest

/-- The lower-case form of a text. -/
def lowerCase (text : String) : String :=
  String.ofList (lowerAfter [] text.toList)

end Typeward.Text
