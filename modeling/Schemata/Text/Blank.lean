import Schemata.Text.CodeRange

/-!
# Blanks

White space in the wide sense: the Unicode white space characters and the four separators
U+001C to U+001F. The zero-width space and the byte order mark are no blanks. `isSpace` leaves the
separators out.

`strip` removes the blanks at both ends of a text. `trim` does the same for any class of
characters, and `replaceRuns` puts one character in the place of each run of a class.
-/

namespace Schemata.Text

/-- Closed ranges of the blanks, ascending and apart. -/
def blankRanges : List (Nat × Nat) :=
  [(0x09, 0x0D), (0x1C, 0x20), (0x85, 0x85), (0xA0, 0xA0), (0x1680, 0x1680), (0x2000, 0x200A),
   (0x2028, 0x2029), (0x202F, 0x202F), (0x205F, 0x205F), (0x3000, 0x3000)]

/-- Whether the character is a blank. -/
def isBlank (c : Char) : Bool :=
  inRanges blankRanges c

/-- Whether the character is white space in the narrow sense, which the separators are not. -/
def isSpace (c : Char) : Bool :=
  isBlank c && !('\x1c' ≤ c && c ≤ '\x1f')

/-- Removes the characters of a class at both ends. -/
def trim (p : Char → Bool) (s : List Char) : List Char :=
  ((s.dropWhile p).reverse.dropWhile p).reverse

/-- Removes the blanks at both ends. -/
def strip (s : List Char) : List Char :=
  trim isBlank s

/-- Removes the blanks at the end. -/
def stripRight (s : List Char) : List Char :=
  (s.reverse.dropWhile isBlank).reverse

/-- Puts `r` in the place of each maximal run of characters of a class. -/
def replaceRuns (p : Char → Bool) (r : Char) (s : List Char) : List Char :=
  go false s
where
  /-- `inside` says whether the character before belongs to a run. -/
  go (inside : Bool) : List Char → List Char
    | [] => []
    | c :: cs =>
      if p c then (if inside then go true cs else r :: go true cs)
      else c :: go false cs

/-- The maximal runs of characters outside a class, in order. -/
def wordsBy (p : Char → Bool) (s : List Char) : List (List Char) :=
  (go s).filter fun w => !w.isEmpty
where
  /-- The pieces between the characters of the class, empty ones included. -/
  go : List Char → List (List Char)
    | [] => [[]]
    | c :: cs =>
      if p c then [] :: go cs
      else match go cs with
        | [] => [[c]]
        | w :: ws => (c :: w) :: ws

end Schemata.Text
