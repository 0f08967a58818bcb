import LedgerScript.Text.Class

/-!
# Columns of a text

A text is shown in columns.  It takes as many as the grapheme clusters that it is made of.
-/

namespace LedgerScript.Text

/-!
## Grapheme clusters

What a reader takes for one character may be several code points: a letter with its accents, a flag of two
regional indicators, an emoji sequence.  The classes are those of the Unicode property Grapheme_Cluster_Break, and
`joins` says when two neighbours belong together.  A text that ends in the middle of a character keeps that end in
its last cluster.
-/

/-- The classes that decide where clusters end. -/
inductive BreakClass where
  | control
  | extend
  | joiner
  | lead
  | spacing
  | regional
  | pictograph
  | hangulL
  | hangulV
  | hangulT
  | hangulLV
  | hangulLVT
  | other
  deriving DecidableEq, Repr, Inhabited

/-- Controls and line ends. -/
def controlRanges : List (Nat × Nat) :=
  [(0x0, 0x1F), (0x7F, 0x9F), (0xAD, 0xAD), (0x61C, 0x61C), (0x180E, 0x180E), (0x200B, 0x200B),
   (0x200E, 0x200F), (0x2028, 0x202E), (0x2060, 0x206F), (0xFEFF, 0xFEFF), (0xFFF0, 0xFFFB),
   (0x13430, 0x1343F), (0x1BCA0, 0x1BCA3), (0x1D173, 0x1D17A), (0xE0000, 0xE001F),
   (0xE0080, 0xE00FF), (0xE01F0, 0xE0FFF)]

def extendRuns : List (Nat × List Nat) :=
  [(0x300, [112, 275, 7, 263, 45, 1, 1, 1, 2, 1, 2, 1, 1, 72, 11, 48, 21, 16, 1, 101, 7, 2, 6, 2, 2, 1, 4]),
   (0x711, [1, 30, 27, 91, 11, 58, 9, 9, 1, 24, 4, 1, 9, 1, 3, 1, 5, 43, 3, 60, 8, 42, 24, 1, 32, 55, 1]),
   (0x93C, [1, 4, 8, 4, 1, 3, 7, 10, 2, 29, 1, 58, 1, 1, 1, 2, 4, 8, 1, 9, 1, 10, 2, 26, 1, 2, 2, 57, 1]),
   (0xA41, [2, 4, 2, 2, 3, 3, 1, 30, 2, 3, 1, 11, 2, 57, 1, 4, 5, 1, 2, 4, 1, 20, 2, 22, 6, 1, 1, 58, 1]),
   (0xB3E, [2, 1, 4, 8, 1, 7, 3, 10, 2, 30, 1, 59, 1, 1, 1, 12, 1, 9, 1, 40, 1, 3, 1, 55, 1, 1, 3, 5, 3]),
   (0xC4A, [4, 7, 2, 11, 2, 29, 1, 58, 1, 2, 1, 2, 1, 3, 1, 5, 2, 7, 2, 11, 2, 28, 2, 57, 2, 1, 1, 2, 4]),
   (0xD4D, [1, 9, 1, 10, 2, 29, 1, 72, 1, 4, 1, 2, 3, 1, 1, 8, 1, 81, 1, 2, 7, 12, 8, 98, 1, 2, 9, 11, 7]),
   (0xF18, [2, 27, 1, 1, 1, 1, 1, 55, 14, 1, 5, 1, 2, 5, 11, 1, 36, 9, 1, 102, 4, 1, 6, 1, 2, 2, 2, 25, 2]),
   (0x105E, [3, 16, 4, 13, 1, 2, 2, 6, 1, 15, 1, 703, 3, 946, 3, 29, 2, 30, 2, 30, 2, 64, 2, 1, 7, 8, 1]),
   (0x17C9, [11, 9, 1, 45, 3, 1, 1, 117, 2, 34, 1, 118, 3, 4, 2, 9, 1, 6, 3, 219, 2, 2, 1, 58, 1, 1, 7, 1, 1]),
   (0x1A62, [1, 2, 8, 6, 10, 2, 1, 48, 31, 49, 4, 48, 7, 1, 1, 5, 1, 40, 9, 12, 2, 32, 4, 2, 2, 1, 3, 56, 1]),
   (0x1BE8, [2, 3, 1, 1, 3, 58, 8, 2, 2, 152, 3, 1, 13, 1, 7, 4, 1, 6, 1, 3, 2, 198, 64, 524, 1, 195, 33]),
   (0x2CEF, [3, 141, 1, 96, 32, 554, 6, 105, 2]),
   (0xA66F, [4, 1, 10, 32, 2, 80, 2, 272, 1, 3, 1, 4, 1, 25, 2, 5, 1, 151, 2, 26, 18, 13, 1, 38, 8, 25, 11]),
   (0xA980, [3, 48, 1, 2, 4, 2, 2, 39, 1, 67, 6, 2, 2, 2, 2, 12, 1, 8, 1, 47, 1, 51, 1, 1, 3, 2, 2, 5, 2]),
   (0xAAC1, [1, 42, 2, 8, 1, 238, 1, 2, 1, 4, 1]), (0xFB1E, [1, 737, 16, 16, 16, 366, 2, 605, 1, 226, 1, 149, 5]),
   (0x10A01, [3, 1, 2, 5, 4, 40, 3, 4, 1, 165, 2, 573, 4, 387, 2, 80, 3, 70, 11, 49, 4, 123, 1, 54, 15, 41, 1]),
   (0x11073, [2, 10, 3, 49, 4, 2, 2, 7, 1, 61, 3, 36, 5, 1, 8, 62, 1, 12, 2, 52, 9, 10, 4, 2, 1, 95, 3, 2, 1]),
   (0x11236, [2, 6, 1, 2, 1, 157, 1, 3, 8, 21, 2, 57, 2, 1, 1, 1, 1, 22, 1, 14, 7, 3, 5, 195, 8, 2, 3, 1, 1]),
   (0x1145E, [1, 81, 1, 2, 6, 1, 1, 2, 1, 1, 2, 1, 2, 235, 1, 2, 4, 6, 2, 1, 2, 27, 2, 85, 8, 2, 1, 1, 2]),
   (0x116AB, [1, 1, 1, 2, 6, 1, 1, 101, 3, 2, 4, 1, 5, 259, 9, 1, 2, 245, 1, 10, 2, 1, 1, 4, 1, 144, 4, 2, 2]),
   (0x119E0, [1, 32, 10, 40, 6, 2, 4, 8, 1, 9, 6, 2, 3, 46, 13, 1, 2, 406, 7, 1, 6, 1, 1, 82, 22, 2, 7, 1, 2]),
   (0x11CB5, [2, 122, 6, 3, 1, 1, 2, 1, 7, 1, 1, 72, 2, 3, 1, 1, 1, 347, 2, 11, 2, 52, 5, 5, 1, 1, 1]),
   (0x13440, [1, 6, 15]), (0x16AF0, [5, 59, 7]), (0x16F4F, [1, 63, 4, 81, 1]), (0x1BC9D, [2]),
   (0x1CF00, [46, 2, 23, 542, 1, 1, 3, 4, 5, 8, 8, 2, 7, 30, 4, 148, 3]),
   (0x1DA00, [55, 4, 50, 8, 1, 14, 1, 22, 5, 1, 15]),
   (0x1E000, [7, 1, 17, 2, 7, 1, 2, 1, 5, 100, 1, 160, 7, 375, 1, 61, 4, 508, 4, 992, 7, 109, 7]), (0x1F3FB, [5]),
   (0xE0020, [96, 128, 240])]

def leadRanges : List (Nat × Nat) :=
  [(0x600, 0x605), (0x6DD, 0x6DD), (0x70F, 0x70F), (0x890, 0x891), (0x8E2, 0x8E2), (0xD4E, 0xD4E),
   (0x110BD, 0x110BD), (0x110CD, 0x110CD), (0x111C2, 0x111C3), (0x1193F, 0x1193F),
   (0x11941, 0x11941), (0x11A3A, 0x11A3A), (0x11A84, 0x11A89), (0x11D46, 0x11D46),
   (0x11F02, 0x11F02)]

def spacingRuns : List (Nat × List Nat) :=
  [(0x903, [1, 55, 1, 2, 3, 8, 4, 1, 2, 50, 2, 59, 2, 6, 2, 2, 2, 54, 1, 58, 3, 66, 1, 58, 3, 8, 1, 1, 2]),
   (0xB02, [2, 60, 1, 6, 2, 2, 2, 114, 1, 1, 2, 3, 3, 1, 3, 52, 3, 61, 4, 61, 2, 58, 1, 1, 2, 1, 2, 2, 2]),
   (0xCCA, [2, 39, 1, 14, 2, 59, 2, 5, 3, 1, 3, 53, 2, 76, 2, 6, 7, 19, 2, 63, 1, 127, 1, 138, 2, 63, 1]),
   (0x1031, [1, 9, 2, 25, 2, 44, 1]),
   (0x1715, [1, 30, 1, 129, 1, 7, 8, 1, 2, 346, 4, 2, 3, 4, 2, 1, 6, 224, 2, 58, 1, 1, 1, 21, 6, 145, 1]),
   (0x1B3B, [1, 1, 5, 1, 2, 61, 1, 30, 1, 4, 2, 2, 1, 60, 1, 2, 3, 1, 1, 3, 2, 48, 8, 8, 2, 171, 1, 21, 1]),
   (0xA823, [2, 2, 1, 88, 2, 50, 16, 142, 2, 47, 1, 48, 2, 4, 2, 2, 3, 110, 2, 2, 2, 24, 1, 157, 1, 2, 2]),
   (0xAAF5, [1, 237, 2, 1, 2, 1, 2, 1, 1]),
   (0x11000, [1, 1, 1, 127, 1, 45, 3, 4, 2, 115, 1, 24, 2, 59, 1, 48, 3, 9, 2, 13, 1, 93, 3, 3, 2, 1, 1]),
   (0x112E0, [3, 31, 2, 59, 1, 1, 4, 2, 2, 2, 3, 20, 2, 209, 3, 8, 2, 3, 1, 107, 2, 6, 1, 1, 2, 1, 1, 2, 1]),
   (0x115B0, [2, 6, 4, 2, 1, 113, 3, 8, 2, 1, 1, 109, 1, 1, 2, 6, 1, 111, 1, 261, 3, 9, 1, 248, 5, 1, 2, 4, 1]),
   (0x11940, [1, 1, 1, 142, 3, 8, 4, 4, 1, 84, 1, 29, 2, 62, 1, 407, 1, 14, 1, 106, 1, 7, 1, 2, 1, 213, 5]),
   (0x11D93, [2, 1, 1, 350, 2, 12, 1, 48, 2, 8, 2, 1, 1]), (0x16F51, [55, 104, 2]), (0x1D166, [1, 6, 1])]

def pictographRuns : List (Nat × List Nat) :=
  [(0xA9, [1, 4, 1]),
   (0x203C, [1, 12, 1, 216, 1, 22, 1, 90, 6, 15, 2, 367, 2, 12, 1, 95, 1, 70, 1, 25, 11, 4, 3, 199, 1, 231, 2]),
   (0x25B6, [1, 9, 1, 58, 4, 1, 6, 1, 12, 1, 114, 10, 118, 2, 11, 1, 1, 1, 1, 6, 1, 3, 1, 6, 1, 10, 2, 15, 1]),
   (0x2747, [1, 4, 1, 1, 1, 4, 3, 1, 1, 11, 5, 45, 3, 9, 1, 14, 1, 14, 1, 372, 2, 463, 3, 19, 2, 51, 1, 4, 1]),
   (0x3030, [1, 12, 1, 601, 1, 1, 1]),
   (0x1F000, [256, 13, 3, 31, 1, 60, 6, 12, 2, 14, 1, 2, 10, 18, 57, 27, 15, 10, 1, 20, 1, 2, 9, 1, 4, 9, 434]),
   (0x1F400, [318, 8, 266, 48, 128, 116, 12, 85, 43, 12, 4, 56, 8, 10, 6, 40, 8, 30, 82, 12, 47, 1, 10, 1, 441]),
   (0x1FC00, [1022])]

def breakClass (code : Nat) : BreakClass :=
  if code < 0x20 then .control
  else if code < 0x7F then .other
  else if code = 0x200D then .joiner
  else if 0x1F1E6 ≤ code && code ≤ 0x1F1FF then .regional
  else if (0x1100 ≤ code && code ≤ 0x115F) || (0xA960 ≤ code && code ≤ 0xA97C) then .hangulL
  else if (0x1160 ≤ code && code ≤ 0x11A7) || (0xD7B0 ≤ code && code ≤ 0xD7C6) then .hangulV
  else if (0x11A8 ≤ code && code ≤ 0x11FF) || (0xD7CB ≤ code && code ≤ 0xD7FB) then .hangulT
  else if 0xAC00 ≤ code && code ≤ 0xD7A3 then if (code - 0xAC00) % 28 = 0 then .hangulLV else .hangulLVT
  else if inRuns extendRuns code then .extend
  else if inRuns spacingRuns code then .spacing
  else if inRuns pictographRuns code then .pictograph
  else if inRanges leadRanges code then .lead
  else if inRanges controlRanges code then .control
  else .other

/-- The class of a glyph: a stray byte has none. -/
def Glyph.breakClass : Glyph → BreakClass
  | .char c => Text.breakClass c.toNat
  | .stray _ => .other

/-- What has to be known of a cluster to decide whether it goes on. -/
structure ClusterState where
  /-- Class of the last character. -/
  last : BreakClass
  /-- The cluster is a pictograph with extensions so far. -/
  pictograph : Bool
  /-- The cluster ends in an odd number of regional indicators. -/
  oddRegional : Bool
  deriving DecidableEq, Repr, Inhabited

/-- The state after a first character. -/
def ClusterState.start (c : BreakClass) : ClusterState :=
  ⟨c, c == .pictograph, c == .regional⟩

def ClusterState.next (s : ClusterState) (c : BreakClass) : ClusterState :=
  ⟨c, c == .pictograph || (s.pictograph && (c == .extend || c == .joiner)), c == .regional && !s.oddRegional⟩

def ClusterState.joins (s : ClusterState) (c : BreakClass) : Bool :=
  match s.last, c with
  | .control, _ | _, .control => false
  | .hangulL, .hangulL | .hangulL, .hangulV | .hangulL, .hangulLV | .hangulL, .hangulLVT => true
  | .hangulLV, .hangulV | .hangulLV, .hangulT | .hangulV, .hangulV | .hangulV, .hangulT => true
  | .hangulLVT, .hangulT | .hangulT, .hangulT => true
  | _, .extend | _, .joiner | _, .spacing => true
  | .lead, _ => true
  | .joiner, .pictograph => s.pictograph
  | .regional, .regional => s.oddRegional
  | _, _ => false

/-- Number of bytes that a first byte announces; 1 for a byte that starts no character. -/
def announcedWidth (b : UInt8) : Nat :=
  if b < 0xC2 then 1 else if b < 0xE0 then 2 else if b < 0xF0 then 3 else if b < 0xF8 then 4 else 1

/-- The glyphs grouped into clusters.  `left` is the number of bytes still to come, with which a stray byte that
announces more than there is ends the text. -/
def clusterLoop (left : Nat) (state : Option ClusterState) (current : List Glyph) : List Glyph → List (List Glyph)
  | [] => if current = [] then [] else [current.reverse]
  | g :: rest =>
    let cut : Bool := match g with
      | .stray b => left < announcedWidth b
      | .char _ => false
    if cut then [current.reverse ++ g :: rest]
    else
      let c := g.breakClass
      let left' := left - g.bytes.length
      match state with
      | none => clusterLoop left' (some (.start c)) [g] rest
      | some s =>
        let crLf := current.head? == some (.char '\r') && g == .char '\n'
        if crLf || s.joins c then clusterLoop left' (some (s.next c)) (g :: current) rest
        else current.reverse :: clusterLoop left' (some (.start c)) [g] rest

def graphemes (text : Bytes) : List (List Glyph) :=
  clusterLoop text.length none [] (glyphs text)

/-!
## Columns

How many columns of a terminal a text takes: none for controls and combining marks, two for wide characters, one
for all others.  A grapheme cluster takes the columns of its first character that takes any.
-/

-- Sums start from the numeral zero, whatever algebra is at hand.
attribute [local instance (high)] Zero.ofOfNat0

/-- Characters shown over the one before them. -/
def overlaidRuns : List (Nat × List Nat) :=
  [(0x300, [112, 275, 5, 867, 9]), (0xC00, [1, 3, 1, 238, 1, 12, 2]), (0x135D, [3]),
   (0x180B, [3, 1, 1, 623, 1, 48, 31, 156, 9, 588, 64, 720, 33]), (0x2CEF, [3, 238, 32, 665, 2]),
   (0xA66F, [4, 1, 10, 32, 2, 80, 2, 494, 18]), (0xFE20, [16, 973, 1, 376, 5]),
   (0x10EAB, [2, 153, 11, 49, 4, 890, 2, 57, 2, 41, 7, 3, 5]), (0x16AF0, [5]),
   (0x1CF00, [46, 2, 23, 542, 5, 3, 6, 8, 8, 2, 7, 30, 4, 148, 3]), (0x1E000, [7, 1, 17, 2, 7, 1, 2, 1, 5, 100, 1]),
   (0x1E8D0, [7])]

/-- Controls and marks that are not shown. -/
def hiddenRanges : List (Nat × Nat) :=
  [(0x00, 0x1F), (0x7F, 0x9F), (0xAD, 0xAD), (0x070F, 0x070F), (0x180B, 0x180E), (0x200B, 0x200F), (0x2028, 0x202E),
   (0x206A, 0x206F), (0xD800, 0xDFFF), (0xFEFF, 0xFEFF), (0xFFF9, 0xFFFB), (0xFFFE, 0xFFFF)]

/-- Brackets that are narrow although their neighbours are not. -/
def narrowRanges : List (Nat × Nat) :=
  [(0x20, 0x7E), (0xA2, 0xA3), (0xA5, 0xA6), (0xAC, 0xAC), (0xAF, 0xAF), (0x27E6, 0x27ED), (0x2985, 0x2986)]

/-- Characters of the East Asian width classes wide and fullwidth. -/
def wideRuns : List (Nat × List Nat) :=
  [(0x1100, [96]),
   (0x231A, [2, 13, 2, 190, 4, 3, 1, 2, 1, 521, 2, 21, 2, 50, 12, 43, 1, 19, 1, 13, 1, 8, 2, 17, 2, 5, 2]),
   (0x26CE, [1, 5, 1, 21, 1, 7, 2, 1, 1, 4, 1, 2, 1, 7, 1, 4, 2, 28, 1, 35, 1, 1, 1, 4, 3, 1, 1, 61, 3, 24, 1]),
   (0x27BF, [1, 859, 2, 51, 1, 4, 1, 810, 26, 1, 89, 12, 214, 26, 12, 4, 63, 2, 86, 2, 103, 5, 43, 1, 94]),
   (0x3190, [84, 12, 47, 1, 40, 8, 7024, 64, 22157, 3, 55]), (0xA960, [29, 643, 11172]),
   (0xF900, [512, 784, 10, 22, 35, 1, 19, 1, 4, 149, 96, 127, 7]), (0x16FE0, [5, 11, 2, 14, 6136, 8, 1238, 42, 9]),
   (0x1AFF0, [4, 1, 7, 1, 2, 1, 291, 15, 1, 29, 3, 2, 1, 14, 4, 8, 396]),
   (0x1F004, [1, 202, 1, 190, 1, 2, 10, 101, 3, 13, 44, 4, 9, 7, 2, 14, 6, 154, 33, 12, 9, 1, 70, 1, 22]),
   (0x1F3A0, [43, 4, 5, 12, 17, 3, 1, 3, 71, 1, 1, 1, 187, 2, 63, 13, 4, 1, 24, 18, 1, 26, 2, 13, 1, 86, 85]),
   (0x1F680, [70, 6, 1, 3, 3, 2, 3, 4, 4, 11, 2, 7, 9, 227, 12, 4, 1, 283, 47, 1, 10, 1, 185, 112, 13, 3, 9]),
   (0x1FA90, [46, 1, 7, 8, 14, 4, 9, 7, 9]), (0x20000, [65534, 2, 65534])]

/-- Columns of a code point. -/
def codeWidth (code : Nat) : Nat :=
  if inRanges narrowRanges code then 1
  else if inRanges hiddenRanges code || inRuns overlaidRuns code then 0
  else if inRuns wideRuns code then 2
  else 1

def charWidth (c : Char) : Nat :=
  codeWidth c.toNat

/-- Columns of a text, character by character within each grapheme cluster. -/
def width (text : Bytes) : Nat :=
  ((graphemes text).map fun cluster =>
    ((cluster.map fun g => charWidth g.shown).find? (· > 0)).getD 0).sum

end LedgerScript.Text

/-!
## Tables

A table has a heading, a rule below it, and rows.  Columns are as wide as their widest cell and start at the left; a
bar stands between two columns.  A cell may have several lines.
-/

namespace LedgerScript

structure Table where
  heading : List Bytes
  rows : List (List Bytes) := []
  deriving Repr, Inhabited

namespace Table

def linesOf (cell : Bytes) : List Bytes :=
  Text.splitOn (ascii '\n') cell

def columnWidth (t : Table) (i : Nat) : Nat :=
  ((t.heading :: t.rows).flatMap fun row => (linesOf (row.getD i [])).map Text.width).foldl max 0

def widths (t : Table) : List Nat :=
  (List.range t.heading.length).map t.columnWidth

def padded (columns : Nat) (text : Bytes) : Bytes :=
  text ++ List.replicate (columns - Text.width text) (ascii ' ')

/-- A line across the table. -/
def line (widths : List Nat) (cells : List Bytes) : Bytes :=
  let shown := (widths.zip cells).map fun (w, c) => utf8 " " ++ padded w c ++ utf8 " "
  utf8 " " ++ Text.join (utf8 "|") shown ++ utf8 " \n"

/-- A row, which is as high as its highest cell; what a lower one lacks is blank. -/
def row (widths : List Nat) (cells : List Bytes) : Bytes :=
  let columns := cells.map linesOf
  let height := (columns.map List.length).foldl max 0
  (List.range height).flatMap fun i => line widths (columns.map (·.getD i (utf8 "  ")))

/-- The rule below the heading. -/
def rule (widths : List Nat) : Bytes :=
  let dashes (n : Nat) : Bytes := List.replicate n (ascii '-')
  dashes 1 ++ Text.join (utf8 "+") (widths.map fun w => dashes (w + 2)) ++ dashes 1 ++ utf8 "\n"

def text (t : Table) : Bytes :=
  row t.widths t.heading ++ rule t.widths ++ t.rows.flatMap (row t.widths)

end Table

end LedgerScript
