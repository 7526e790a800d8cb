import Logbook.Text.Class

set_option autoImplicit false

/-! # Case folding

Characters that differ only in case form an orbit. The least member of an orbit stands for it; the
table gives, for every other member, its distance from the least. An entry `lo-hi:d` says that
every character from `lo` to `hi` lies `d` above the least member of its orbit, and `lo-hi/:d` says
so of every second one. -/

namespace Logbook.Text

/-- An entry of the folding table. -/
structure FoldEntry where
  lo : Nat
  hi : Nat
  step : Nat
  distance : Nat
  deriving Repr

namespace FoldEntry

/-- Whether the entry is about a code point. -/
def applies (e : FoldEntry) (n : Nat) : Bool :=
  e.lo ≤ n && n ≤ e.hi && (n - e.lo) % e.step = 0

/-- Reads one entry. -/
def ofText (cs : List Char) : FoldEntry :=
  let range := cs.takeWhile (· != ':')
  let distance := Ranges.readHex ((cs.dropWhile (· != ':')).drop 1)
  let (lo, hi) := Ranges.readOne (range.filter (· != '/'))
  { lo, hi, step := if range.contains '/' then 2 else 1, distance }

end FoldEntry

/-- The folding table. -/
def foldEntries : List FoldEntry := (Ranges.words "
61-7a:20 e0-f6:20 f8-fe:20 101-12f/:1 133-137/:1 13a-148/:1 14b-177/:1 178:79 17a-17e/:1 17f:12c
183-185/:1 188:1 18c:1 192:1 199:1 1a1-1a5/:1 1a8:1 1ad:1 1b0:1 1b4-1b6/:1 1b9:1 1bd:1 1c5:1 1c6:2
1c8:1 1c9:2 1cb:1 1cc:2 1ce-1dc/:1 1dd:4f 1df-1ef/:1 1f2:1 1f3:2 1f5:1 1f6:61 1f7:38 1f9-21f/:1
220:82 223-233/:1 23c:1 23d:a3 242:1 243:c3 247-24f/:1 253:d2 254:ce 256-257:cd 259:ca 25b:cb
260:cd 263:cf 268:d1 269:d3 26f:d3 272:d5 275:d6 280:da 283:da 288:da 289:45 28a-28b:d9 28c:47
292:db 371-373/:1 377:1 399:54 39c:2e7 3ac:26 3ad-3af:25 3b1-3b8:20 3b9:74 3ba-3bb:20 3bc:307
3bd-3cb/:20 3be-3c0/:20 3c2:1f 3c4-3ca/:20 3cc:40 3cd-3ce:3f 3d0:3e 3d1:39 3d5:2f 3d6:36 3d7:8
3d9-3ef/:1 3f0:56 3f1:50 3f3:74 3f4:5c 3f5:60 3f8:1 3f9:7 3fb:1 3fd-3ff:82 430-44f:20 450-45f:50
461-481/:1 48b-4bf/:1 4c2-4ce/:1 4cf:f 4d1-52f/:1 561-586:30 13f8-13fd:8 1c80:186e 1c81:186d
1c82:1864 1c83-1c84:1862 1c85:1863 1c86:185c 1c87:1825 1c8a:1 1c90-1cba:bc0 1cbd-1cbf:bc0
1e01-1e95/:1 1e9b:3b 1e9e:1dbf 1ea1-1eff/:1 1f08-1f0f:8 1f18-1f1d:8 1f28-1f2f:8 1f38-1f3f:8
1f48-1f4d:8 1f59-1f5f/:8 1f68-1f6f:8 1f88-1f8f:8 1f98-1f9f:8 1fa8-1faf:8 1fb8-1fb9:8 1fba-1fbb:4a
1fbc:9 1fbe:1c79 1fc8-1fcb:56 1fcc:9 1fd3:1c43 1fd8-1fd9:8 1fda-1fdb:64 1fe3:1c33 1fe8-1fe9:8
1fea-1feb:70 1fec:7 1ff8-1ff9:80 1ffa-1ffb:7e 1ffc:9 2126:1d7d 212a:20df 212b:2066 214e:1c
2170-217f:10 2184:1 24d0-24e9:1a 2c30-2c5f:30 2c61:1 2c62:29f7 2c63:ee6 2c64:29e7 2c65:2a2b
2c66:2a28 2c68-2c6c/:1 2c6d:2a1c 2c6e:29fd 2c6f:2a1f 2c70:2a1e 2c73:1 2c76:1 2c7e-2c7f:2a3f
2c81-2ce3/:1 2cec-2cee/:1 2cf3:1 2d00-2d25:1c60 2d27:1c60 2d2d:1c60 a641-a649/:1 a64a:89c2
a64b:89c3 a64d-a66d/:1 a681-a69b/:1 a723-a72f/:1 a733-a76f/:1 a77a-a77c/:1 a77d:8a04 a77f-a787/:1
a78c:1 a78d:a528 a791-a793/:1 a797-a7a9/:1 a7aa:a544 a7ab:a54f a7ac:a54b a7ad:a541 a7ae:a544
a7b0:a512 a7b1:a52a a7b2:a515 a7b5-a7c3/:1 a7c4:30 a7c5:a543 a7c6:8a38 a7c8-a7ca/:1 a7cb:a567
a7cd-a7db/:1 a7dc:a641 a7f6:1 ab53:3a0 ab70-abbf:97d0 fb06:1 ff41-ff5a:20 10428-1044f:28
104d8-104fb:28 10597-105bb/:27 10598-105a0/:27 105a4-105b0/:27 105b4-105b8/:27 105bc:27
10cc0-10cf2:40 10d70-10d85:20 118c0-118df:20 16e60-16e7f:20 16ebb-16ed3:1b 1e922-1e943:22".toList
      []).map FoldEntry.ofText

/-- The least character of an orbit. -/
def foldLeast (n : Nat) : Nat :=
  match foldEntries.find? (·.applies n) with
  | some e => n - e.distance
  | none => n

/-- All characters that differ from one only in case, itself included. -/
def orbit (c : Char) : List Char :=
  let least := foldLeast c.toNat
  let others := foldEntries.filterMap fun e =>
    if e.applies (least + e.distance) then some (Char.ofNat (least + e.distance)) else none
  Char.ofNat least :: others

/-- The same for ASCII letters alone. -/
def asciiOrbit (c : Char) : List Char :=
  if isAsciiAlpha c then [c.toLower, c.toUpper] else [c]

/-- Characters that are lowercase although their category does not say so. -/
def otherLowercase : Ranges := Ranges.ofText "
aa ba 2b0-2b8 2c0-2c1 2e0-2e4 345 37a 10fc 1d2c-1d6a 1d78 1d9b-1dbf 2071 207f 2090-209c 2170-217f
24d0-24e9 2c7c-2c7d a69c-a69d a770 a7f1-a7f4 a7f8-a7f9 ab5c-ab5f ab69 10780 10783-10785
10787-107b0 107b2-107ba 1e030-1e06d"

/-- Characters that are uppercase although their category does not say so. -/
def otherUppercase : Ranges := Ranges.ofText "
2160-216f 24b6-24cf 1f130-1f149 1f150-1f169 1f170-1f189"

def isLowercase (c : Char) : Bool :=
  Category.of c == .lowercaseLetter || otherLowercase.contains c.toNat

def isUppercase (c : Char) : Bool :=
  Category.of c == .uppercaseLetter || otherUppercase.contains c.toNat

end Logbook.Text
