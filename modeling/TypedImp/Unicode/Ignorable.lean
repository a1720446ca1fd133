import TypedImp.Unicode.Ranges

/-!
# The Default_Ignorable_Code_Point property

The characters of the Unicode property Default_Ignorable_Code_Point (Unicode 17):
those of which nothing is to be seen unless they are asked for.  Nearly all of
them are format characters, marks or unassigned, but the fillers of the Hangul
script, U+115F, U+1160, U+3164 and U+FFA0, are letters.  There are none below
U+0080.
-/

namespace TypedImp.Unicode

/-- The stretches of characters that are ignorable by default. -/
def ignorableRanges : Ranges :=
   [(0xAD, 0xAD), (0x34F, 0x34F), (0x61C, 0x61C), (0x115F, 0x1160), (0x17B4, 0x17B5),
    (0x180B, 0x180F), (0x200B, 0x200F), (0x202A, 0x202E), (0x2060, 0x206F), (0x3164, 0x3164),
    (0xFE00, 0xFE0F), (0xFEFF, 0xFEFF), (0xFFA0, 0xFFA0), (0xFFF0, 0xFFF8), (0x1BCA0, 0x1BCA3),
    (0x1D173, 0x1D17A), (0xE0000, 0xE0FFF)]

/-- Whether nothing is to be seen of a character by default. -/
def isIgnorable (c : Char) : Bool :=
  if c.toNat < 0x80 then false else ignorableRanges.contains c.toNat

theorem isIgnorable_of_ascii {c : Char} (h : c.toNat < 0x80) : isIgnorable c = false :=
  if_pos h

end TypedImp.Unicode
