/-!
# Identifier characters — which characters may start and continue a name

A set of code points that comes from a standard is a few hundred intervals. A run table writes
them as one list of lengths, in increasing order: a gap of code points outside the set, a run of
code points inside it, a gap, a run, and so on. Each length counts from the end of the one before
it, so the intervals of a table are disjoint and sorted by construction, and no two tables of
different shape name an interval twice. Membership (`RunTable.contains`) walks the list once.

The classes are the standard's `XID_Start` and `XID_Continue`. Every character that may
start an identifier may also continue one, so only the characters that continue without
starting have a table of their own and `isXidContinue_of_start` needs no look at the data.
ASCII is decided without a table. The tables follow edition 18 of the standard, so a few
characters may stand in identifiers that the letter classes do not know yet.
-/

namespace IdlScope

/-- A set of code points: the length of a gap, the length of the run after it, and so on. -/
abbrev RunTable := List Nat

namespace RunTable

/-- Whether the code point `n`, counted from where the table starts, lies in a run. -/
def contains : RunTable → Nat → Bool
  | gap :: run :: rest, n =>
    if n < gap then false
    else if n < gap + run then true
    else contains rest (n - (gap + run))
  | _, _ => false

end RunTable

namespace Unicode

/-- The characters beyond ASCII that may start an identifier. -/
def xidStartRuns : RunTable := [
  170, 1, 10, 1, 4, 1, 5, 23, 1, 31, 1, 458, 4, 12, 14, 5, 7, 1, 1, 1, 129, 5, 1, 2, 3, 3, 1, 1,
  6, 1, 1, 3, 1, 1, 1, 20, 1, 83, 1, 139, 8, 166, 1, 38, 1, 2, 6, 41, 2, 2, 67, 27, 4, 4, 45, 43,
  35, 2, 1, 99, 1, 1, 15, 2, 7, 2, 10, 3, 2, 1, 16, 1, 1, 30, 29, 89, 11, 1, 24, 33, 9, 2, 4, 1,
  5, 22, 4, 1, 9, 1, 3, 1, 23, 25, 7, 11, 5, 24, 1, 7, 16, 42, 58, 54, 3, 1, 18, 1, 7, 10, 15,
  16, 4, 8, 2, 2, 2, 22, 1, 7, 1, 1, 3, 4, 3, 1, 16, 1, 13, 2, 1, 3, 14, 2, 10, 1, 8, 6, 4, 2, 2,
  22, 1, 7, 1, 2, 1, 2, 1, 2, 31, 4, 1, 1, 19, 3, 16, 9, 1, 3, 1, 22, 1, 7, 1, 2, 1, 5, 3, 1, 18,
  1, 15, 2, 23, 1, 11, 8, 2, 2, 2, 22, 1, 7, 1, 2, 1, 5, 3, 1, 30, 2, 1, 3, 15, 1, 17, 1, 1, 6,
  3, 3, 1, 4, 3, 2, 1, 1, 1, 2, 3, 2, 3, 3, 3, 12, 22, 1, 52, 8, 1, 3, 1, 23, 1, 16, 3, 1, 26, 3,
  1, 2, 2, 2, 30, 1, 4, 8, 1, 3, 1, 23, 1, 10, 1, 5, 3, 1, 30, 3, 1, 2, 15, 2, 17, 9, 1, 3, 1,
  41, 2, 1, 16, 1, 5, 3, 8, 3, 24, 6, 5, 18, 3, 24, 1, 9, 1, 1, 2, 7, 58, 48, 1, 1, 13, 7, 58, 2,
  1, 1, 1, 5, 1, 24, 1, 1, 1, 10, 1, 1, 10, 1, 2, 5, 1, 1, 21, 4, 32, 1, 63, 8, 1, 36, 27, 5,
  115, 43, 20, 1, 16, 6, 4, 4, 3, 1, 3, 2, 7, 3, 4, 13, 12, 1, 17, 38, 1, 1, 5, 1, 2, 43, 1, 333,
  1, 4, 2, 7, 1, 1, 1, 4, 2, 41, 1, 4, 2, 33, 1, 4, 2, 7, 1, 1, 1, 4, 2, 15, 1, 57, 1, 4, 2, 67,
  37, 16, 16, 86, 2, 6, 3, 620, 2, 17, 1, 26, 5, 75, 3, 11, 7, 18, 13, 19, 14, 18, 14, 13, 1, 3,
  15, 52, 35, 1, 4, 1, 67, 89, 7, 41, 1, 1, 5, 70, 10, 31, 49, 30, 2, 5, 11, 44, 4, 26, 54, 23,
  9, 53, 82, 1, 93, 47, 17, 8, 54, 30, 13, 2, 10, 44, 26, 36, 41, 3, 10, 36, 2, 11, 5, 43, 2, 3,
  41, 4, 1, 6, 1, 2, 3, 1, 5, 192, 64, 278, 2, 6, 2, 38, 2, 6, 2, 8, 1, 1, 1, 1, 1, 1, 1, 31, 2,
  53, 1, 7, 1, 1, 3, 3, 1, 7, 3, 4, 2, 6, 4, 13, 5, 3, 1, 7, 116, 1, 13, 1, 15, 17, 98, 1, 4, 1,
  2, 10, 1, 1, 2, 6, 6, 1, 1, 1, 1, 1, 1, 16, 2, 4, 5, 5, 4, 1, 17, 41, 2679, 229, 6, 4, 3, 2,
  12, 38, 1, 1, 5, 1, 2, 56, 7, 1, 16, 23, 9, 7, 1, 7, 1, 7, 1, 7, 1, 7, 1, 7, 1, 7, 1, 7, 550,
  3, 25, 9, 7, 5, 2, 5, 4, 86, 6, 3, 1, 90, 1, 4, 5, 43, 1, 94, 17, 32, 48, 16, 512, 6592, 64,
  22157, 67, 46, 2, 269, 3, 16, 10, 2, 20, 47, 16, 31, 2, 80, 39, 9, 2, 103, 2, 88, 14, 17, 1, 3,
  1, 4, 1, 23, 29, 52, 14, 50, 62, 6, 3, 1, 1, 2, 11, 28, 10, 23, 25, 29, 7, 47, 28, 1, 16, 5, 1,
  10, 10, 5, 1, 41, 23, 3, 1, 8, 20, 23, 3, 1, 3, 50, 1, 1, 3, 2, 2, 5, 2, 1, 1, 1, 24, 3, 2, 11,
  7, 3, 12, 6, 2, 6, 2, 6, 9, 7, 1, 7, 1, 43, 1, 14, 2, 1, 3, 115, 29, 11172, 12, 23, 4, 49,
  8452, 366, 2, 106, 38, 7, 12, 5, 5, 1, 1, 10, 1, 13, 1, 5, 1, 1, 1, 2, 1, 2, 1, 108, 33, 139,
  6, 218, 18, 64, 2, 54, 40, 10, 119, 1, 1, 1, 3, 1, 1, 1, 1, 1, 1, 1, 1, 126, 36, 26, 6, 26, 11,
  56, 2, 31, 3, 6, 2, 6, 2, 6, 2, 3, 35, 12, 1, 26, 1, 19, 1, 2, 1, 15, 2, 14, 34, 123, 69, 53,
  267, 29, 3, 49, 47, 32, 13, 30, 5, 38, 10, 30, 2, 36, 4, 8, 1, 5, 42, 158, 18, 36, 4, 36, 4,
  40, 8, 52, 12, 11, 1, 15, 1, 7, 1, 2, 1, 11, 1, 15, 1, 7, 1, 2, 3, 52, 12, 311, 9, 22, 10, 8,
  24, 6, 1, 42, 1, 10, 68, 6, 2, 1, 1, 44, 1, 2, 3, 1, 2, 23, 10, 23, 9, 31, 65, 19, 1, 2, 10,
  22, 10, 26, 6, 26, 38, 56, 6, 2, 64, 1, 15, 4, 1, 3, 1, 29, 42, 29, 3, 29, 35, 8, 1, 28, 27,
  54, 10, 22, 10, 19, 13, 18, 110, 73, 55, 51, 13, 51, 13, 36, 38, 28, 9, 23, 250, 42, 6, 2, 16,
  6, 17, 1, 38, 29, 10, 1, 8, 22, 42, 18, 46, 21, 27, 23, 12, 53, 57, 2, 2, 1, 13, 45, 32, 25,
  26, 36, 29, 1, 2, 1, 8, 35, 3, 1, 12, 48, 14, 4, 21, 1, 1, 1, 35, 18, 1, 25, 19, 2, 63, 7, 1,
  1, 1, 4, 1, 15, 1, 10, 7, 47, 38, 8, 2, 2, 2, 22, 1, 7, 1, 2, 1, 5, 3, 1, 18, 1, 12, 5, 30, 10,
  1, 1, 2, 1, 1, 38, 1, 1, 25, 1, 1, 1, 44, 53, 18, 4, 20, 3, 30, 48, 20, 2, 1, 1, 184, 47, 41,
  4, 36, 48, 20, 1, 59, 43, 13, 1, 71, 27, 37, 7, 185, 44, 116, 64, 31, 8, 2, 1, 2, 8, 1, 2, 1,
  24, 15, 1, 1, 1, 94, 8, 2, 39, 16, 1, 1, 1, 28, 1, 10, 40, 7, 1, 21, 1, 11, 46, 19, 1, 18, 73,
  17, 1, 181, 33, 31, 9, 1, 37, 17, 1, 49, 30, 112, 7, 1, 2, 1, 38, 21, 1, 25, 6, 1, 2, 1, 32,
  14, 1, 23, 44, 260, 19, 15, 1, 1, 13, 1, 34, 124, 1, 79, 922, 102, 111, 17, 196, 12, 311, 2313,
  97, 15, 1072, 17, 6, 25, 3995, 5, 583, 6841, 30, 1762, 569, 7, 31, 17, 79, 17, 30, 18, 48, 16,
  4, 31, 21, 5, 19, 432, 45, 19, 30, 162, 64, 32, 25, 2, 25, 44, 75, 5, 1, 66, 13, 64, 2, 1, 1,
  14, 5, 9, 7382, 41, 32, 97, 115, 13, 1355, 7333, 4, 1, 7, 1, 2, 1, 292, 14, 1, 29, 3, 2, 1, 14,
  5, 7, 396, 2308, 107, 5, 13, 3, 9, 7, 10, 5990, 85, 1, 71, 1, 2, 2, 1, 2, 2, 2, 4, 1, 12, 1, 1,
  1, 7, 1, 65, 1, 4, 2, 8, 1, 7, 1, 28, 1, 4, 1, 5, 1, 1, 3, 7, 1, 341, 1, 25, 1, 25, 1, 31, 1,
  25, 1, 31, 1, 25, 1, 31, 1, 25, 1, 31, 1, 25, 1, 8, 1844, 44, 100, 62, 98, 62, 146, 45, 10, 7,
  16, 1, 321, 30, 18, 44, 484, 28, 228, 30, 2, 1, 207, 31, 1, 3, 1, 2, 1, 7, 2, 5, 9, 2, 224, 7,
  1, 4, 1, 2, 1, 15, 1, 197, 59, 68, 7, 1, 1204, 4, 1, 27, 1, 2, 1, 1, 2, 1, 1, 10, 1, 4, 1, 1,
  1, 1, 6, 1, 4, 1, 1, 1, 1, 1, 1, 3, 1, 2, 1, 1, 2, 1, 1, 1, 1, 1, 1, 1, 1, 1, 1, 2, 1, 1, 2, 4,
  1, 7, 1, 4, 1, 4, 1, 1, 1, 10, 1, 17, 5, 3, 1, 5, 1, 17, 4420, 42720, 32, 4383, 1, 5774, 2,
  7473, 15, 622, 2466, 542, 1506, 4939, 5, 8490, 39814, 11328]

/-- The characters beyond ASCII that may continue an identifier but not start one. -/
def xidExtendRuns : RunTable := [
  183, 1, 584, 112, 23, 1, 251, 5, 265, 45, 1, 1, 1, 2, 1, 2, 1, 2, 71, 11, 48, 31, 6, 1, 101, 7,
  2, 6, 2, 2, 1, 4, 2, 10, 23, 1, 30, 27, 91, 11, 15, 10, 33, 9, 9, 1, 24, 4, 1, 9, 1, 3, 1, 5,
  43, 3, 59, 9, 42, 24, 1, 33, 54, 3, 1, 18, 1, 7, 10, 2, 2, 10, 17, 3, 56, 1, 1, 7, 2, 2, 2, 3,
  9, 1, 10, 2, 2, 10, 14, 1, 2, 3, 56, 1, 1, 5, 4, 2, 2, 3, 3, 1, 20, 12, 3, 1, 11, 3, 56, 1, 1,
  8, 1, 3, 1, 3, 20, 2, 2, 10, 10, 6, 1, 3, 56, 1, 1, 7, 2, 2, 2, 3, 5, 5, 10, 2, 2, 10, 18, 1,
  59, 5, 3, 3, 1, 4, 9, 1, 14, 10, 16, 5, 55, 1, 1, 7, 1, 3, 1, 4, 7, 2, 11, 2, 2, 10, 17, 3, 56,
  1, 1, 7, 1, 3, 1, 4, 7, 2, 11, 2, 2, 10, 3, 1, 12, 4, 55, 2, 1, 7, 1, 3, 1, 4, 9, 1, 10, 2, 2,
  10, 17, 3, 70, 1, 4, 6, 1, 1, 1, 8, 6, 10, 2, 2, 61, 1, 1, 8, 12, 8, 1, 10, 87, 1, 1, 10, 11,
  7, 1, 10, 62, 2, 6, 10, 11, 1, 1, 1, 1, 1, 4, 2, 49, 20, 1, 2, 5, 11, 1, 36, 9, 1, 100, 20, 1,
  10, 12, 4, 4, 3, 1, 3, 2, 7, 3, 4, 13, 12, 1, 15, 703, 3, 9, 9, 928, 4, 28, 3, 29, 2, 30, 2,
  64, 32, 9, 1, 2, 10, 33, 3, 1, 11, 143, 1, 118, 12, 4, 12, 10, 10, 128, 11, 60, 5, 57, 10, 1,
  29, 2, 11, 6, 10, 22, 14, 1, 50, 15, 5, 47, 17, 11, 10, 17, 9, 12, 3, 30, 13, 2, 10, 44, 14,
  48, 20, 8, 10, 6, 10, 118, 3, 1, 21, 4, 1, 6, 1, 2, 3, 198, 64, 524, 2, 49, 2, 19, 1, 123, 13,
  4, 1, 3, 12, 3070, 3, 141, 1, 96, 32, 554, 6, 105, 2, 96, 1, 29988, 10, 69, 1, 4, 10, 32, 2,
  80, 2, 272, 1, 3, 1, 4, 1, 23, 5, 4, 1, 83, 2, 50, 18, 10, 10, 6, 18, 13, 11, 28, 8, 25, 13,
  44, 4, 47, 14, 15, 10, 11, 1, 10, 10, 47, 14, 12, 1, 8, 2, 2, 10, 33, 3, 50, 1, 1, 3, 2, 2, 5,
  2, 1, 1, 41, 5, 5, 2, 236, 8, 1, 2, 2, 10, 20260, 1, 737, 16, 16, 16, 3, 2, 24, 3, 192, 10, 37,
  1, 37, 1, 56, 2, 605, 1, 226, 1, 149, 5, 293, 10, 1367, 3, 1, 2, 5, 4, 40, 3, 4, 1, 165, 2,
  573, 4, 8, 10, 6, 10, 31, 5, 317, 2, 67, 16, 70, 11, 49, 4, 122, 3, 53, 15, 31, 11, 2, 2, 10,
  4, 45, 11, 7, 1, 45, 10, 6, 3, 36, 14, 1, 10, 5, 2, 44, 1, 12, 3, 48, 14, 8, 4, 1, 12, 82, 12,
  6, 1, 2, 1, 157, 12, 5, 10, 6, 4, 55, 2, 1, 7, 2, 2, 2, 3, 9, 1, 10, 2, 2, 7, 3, 5, 67, 9, 1,
  1, 2, 1, 1, 4, 1, 5, 1, 1, 14, 2, 82, 18, 9, 10, 4, 1, 81, 20, 12, 10, 213, 7, 2, 9, 27, 2, 82,
  17, 15, 10, 81, 13, 8, 10, 6, 20, 57, 15, 4, 10, 242, 15, 165, 10, 70, 6, 1, 2, 2, 4, 1, 1, 1,
  2, 12, 10, 119, 7, 2, 7, 3, 1, 28, 10, 40, 7, 1, 4, 8, 1, 9, 11, 46, 16, 198, 8, 136, 10, 53,
  8, 1, 8, 16, 10, 56, 22, 1, 14, 122, 6, 3, 1, 1, 2, 1, 7, 1, 1, 8, 10, 48, 5, 1, 2, 1, 5, 8,
  10, 54, 10, 265, 4, 9, 2, 1, 1, 48, 7, 3, 5, 13, 11, 5349, 1, 6, 15, 11464, 28, 2342, 10, 86,
  10, 38, 5, 59, 7, 25, 10, 534, 10, 38, 10, 421, 1, 1, 55, 7, 4, 81, 1, 11, 2, 19627, 2, 4177,
  10, 518, 46, 2, 23, 480, 1, 61, 5, 3, 6, 8, 8, 2, 7, 30, 4, 148, 3, 11, 1, 47, 1, 1357, 50,
  512, 55, 4, 50, 8, 1, 14, 1, 22, 5, 1, 15, 1360, 7, 1, 17, 2, 7, 1, 2, 1, 5, 100, 1, 160, 7, 9,
  10, 356, 1, 61, 14, 498, 14, 244, 2, 1, 10, 232, 1, 2, 1, 7, 2, 5, 1, 474, 7, 109, 7, 5, 10,
  4758, 10, 787718, 240]

/-- May the character start an identifier? -/
def isXidStart (c : Char) : Bool :=
  if c.toNat < 128 then c.isAlpha else xidStartRuns.contains c.toNat

/-- May the character continue an identifier without being able to start one? -/
def isXidExtend (c : Char) : Bool :=
  if c.toNat < 128 then c.isDigit || c == '_' else xidExtendRuns.contains c.toNat

/-- May the character stand after the first one of an identifier? -/
def isXidContinue (c : Char) : Bool :=
  isXidStart c || isXidExtend c

theorem isXidContinue_of_start {c : Char} (h : isXidStart c = true) : isXidContinue c = true := by
  simp [isXidContinue, h]

theorem isXidContinue_underscore : isXidContinue '_' = true := by decide

/-- Every ASCII letter may start an identifier. -/
theorem isXidStart_of_isAlpha {c : Char} (h : c.isAlpha = true) : isXidStart c = true := by
  have lt : c.toNat < 128 := by
    rcases Bool.or_eq_true_iff.mp h with h | h
    · have le : c.toNat ≤ ('Z' : Char).toNat := (of_decide_eq_true h).2
      exact Nat.lt_of_le_of_lt le (by decide)
    · have le : c.toNat ≤ ('z' : Char).toNat :=
        of_decide_eq_true (Bool.and_eq_true_iff.mp h).2
      exact Nat.lt_of_le_of_lt le (by decide)
  rw [isXidStart, if_pos lt, h]

/-- Every ASCII digit may continue an identifier. -/
theorem isXidContinue_of_isDigit {c : Char} (h : c.isDigit = true) : isXidContinue c = true := by
  have lt : c.toNat < 128 := by
    simp only [Char.isDigit, Bool.and_eq_true, decide_eq_true_eq, UInt32.le_iff_toNat_le] at h
    have le : c.toNat ≤ ('9' : Char).toNat := h.2
    exact Nat.lt_of_le_of_lt le (by decide)
  simp [isXidContinue, isXidExtend, lt, h]

end Unicode

end IdlScope
