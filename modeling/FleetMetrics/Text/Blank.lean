import FleetMetrics.Text.Ranges

/-!
# Blank characters

White space is the Unicode property of that name: ten ranges, twenty-five characters. A routing
key holds none, and a name that consists of nothing else counts as missing.
-/

namespace FleetMetrics.Text

/-- The characters with the property White_Space. -/
def blanks : Ranges :=
  [(9, 13), (32, 32), (133, 133), (160, 160), (5760, 5760), (8192, 8202), (8232, 8233),
   (8239, 8239), (8287, 8287), (12288, 12288)]

/-- Is a character white space? -/
def isBlank (c : Char) : Bool :=
  blanks.contains c

/-- Does a text consist of white space only? The empty text does. -/
def isAllBlank (s : String) : Bool :=
  s.toList.all isBlank

/-- A text without the white space at its two ends. -/
def trim (s : String) : String :=
  String.ofList (((s.toList.dropWhile isBlank).reverse.dropWhile isBlank).reverse)

end FleetMetrics.Text
