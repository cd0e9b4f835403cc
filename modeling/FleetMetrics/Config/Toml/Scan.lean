import FleetMetrics.Config.Setting
import FleetMetrics.Width

/-!
# The small parts of TOML

Blanks, comments and line ends, the four kinds of quoted text, keys, and the words that stand for
numbers, truth values, dates and times. A reader takes what it looks for from the front of a text
and gives it with the rest.
-/

namespace FleetMetrics.Toml

/-! ## Blanks, comments, line ends -/

def isBlank (c : Char) : Bool :=
  c = ' ' || c = '\t'

/-- Control characters other than the tab stand nowhere but at line ends. -/
def isControl (c : Char) : Bool :=
  (c.toNat < 0x20 && c ≠ '\t') || c.toNat = 0x7f

def skipBlanks (cs : List Char) : List Char :=
  cs.dropWhile isBlank

/-- One line end. -/
def newline? : List Char → Option (List Char)
  | '\n' :: rest => some rest
  | '\r' :: '\n' :: rest => some rest
  | _ => none

/-- The rest of a line that holds nothing more but blanks and a comment. -/
def lineEnd? (cs : List Char) : Option (List Char) :=
  let rest :=
    match skipBlanks cs with
    | '#' :: comment => comment.dropWhile fun c => !isControl c
    | rest => rest
  match rest with
  | [] => some []
  | rest => newline? rest

/-- Skip blanks, line ends and comments. -/
def skipFiller (inComment : Bool) : List Char → List Char
  | '\n' :: rest => skipFiller false rest
  | '\r' :: '\n' :: rest => skipFiller false rest
  | c :: rest =>
    if inComment then
      if isControl c then c :: rest else skipFiller true rest
    else if isBlank c then skipFiller false rest
    else if c = '#' then skipFiller true rest
    else c :: rest
  | [] => []

/-! ## Quoted text -/

/-- The value of a hexadecimal digit. -/
def hexDigit? (c : Char) : Option Nat :=
  if c.isDigit then some (c.toNat - '0'.toNat)
  else if 'a' ≤ c ∧ c ≤ 'f' then some (c.toNat - 'a'.toNat + 10)
  else if 'A' ≤ c ∧ c ≤ 'F' then some (c.toNat - 'A'.toNat + 10)
  else none

/-- The character with a hexadecimal number. -/
def scalar? (digits : List Char) : Option Char := do
  let n ← digits.foldlM (fun n c => (hexDigit? c).map fun d => n * 16 + d) 0
  if n < 0xd800 ∨ (0xdfff < n ∧ n < 0x110000) then some (Char.ofNat n) else none

/-- The character that a letter behind a backslash stands for. -/
def escape? : Char → Option Char
  | 'b' => some '\x08'
  | 't' => some '\t'
  | 'n' => some '\n'
  | 'f' => some '\x0c'
  | 'r' => some '\r'
  | '"' => some '"'
  | '\\' => some '\\'
  | _ => none

/-- Put a character in front of what a reader found. -/
def cons (c : Option Char) (found : Option (List Char × List Char)) :
    Option (List Char × List Char) := do
  let c ← c
  let (cs, rest) ← found
  some (c :: cs, rest)

/-- Text behind a double quote, on one line. -/
def basic : List Char → Option (List Char × List Char)
  | '"' :: rest => some ([], rest)
  | '\\' :: 'u' :: a :: b :: c :: d :: rest => cons (scalar? [a, b, c, d]) (basic rest)
  | '\\' :: 'U' :: a :: b :: c :: d :: e :: f :: g :: h :: rest =>
    cons (scalar? [a, b, c, d, e, f, g, h]) (basic rest)
  | '\\' :: c :: rest => cons (escape? c) (basic rest)
  | c :: rest => if isControl c then none else cons (some c) (basic rest)
  | [] => none

/-- Text behind a single quote, on one line. -/
def literal : List Char → Option (List Char × List Char)
  | '\'' :: rest => some ([], rest)
  | c :: rest => if isControl c then none else cons (some c) (literal rest)
  | [] => none

/-- What happens to blanks and line ends in a text of several lines. -/
inductive Folding
  | keep
  /-- Behind a backslash: only blanks until the line ends. -/
  | toLineEnd
  /-- On the lines behind one that a backslash has ended. -/
  | drop

/-- Text behind three double quotes. Up to two quotes may stand before the three that end it. -/
def basicLines : Folding → List Char → Option (List Char × List Char)
  | .toLineEnd, '\n' :: rest => basicLines .drop rest
  | .toLineEnd, '\r' :: '\n' :: rest => basicLines .drop rest
  | .toLineEnd, c :: rest => if isBlank c then basicLines .toLineEnd rest else none
  | .drop, '\n' :: rest => basicLines .drop rest
  | .drop, '\r' :: '\n' :: rest => basicLines .drop rest
  -- three quotes end the text, and up to two in front of them belong to it
  | _, '"' :: '"' :: '"' :: '"' :: '"' :: rest => some (['"', '"'], rest)
  | _, '"' :: '"' :: '"' :: '"' :: rest => some (['"'], rest)
  | _, '"' :: '"' :: '"' :: rest => some ([], rest)
  | _, '\\' :: 'u' :: a :: b :: c :: d :: rest =>
    cons (scalar? [a, b, c, d]) (basicLines .keep rest)
  | _, '\\' :: 'U' :: a :: b :: c :: d :: e :: f :: g :: h :: rest =>
    cons (scalar? [a, b, c, d, e, f, g, h]) (basicLines .keep rest)
  | _, '\\' :: '\n' :: rest => basicLines .drop rest
  | _, '\\' :: '\r' :: '\n' :: rest => basicLines .drop rest
  | _, '\\' :: c :: rest =>
    if isBlank c then basicLines .toLineEnd rest
    else cons (escape? c) (basicLines .keep rest)
  | _, '\n' :: rest => cons (some '\n') (basicLines .keep rest)
  | _, '\r' :: '\n' :: rest => cons (some '\n') (basicLines .keep rest)
  | .drop, c :: rest =>
    if isBlank c then basicLines .drop rest
    else if isControl c then none
    else cons (some c) (basicLines .keep rest)
  | _, c :: rest => if isControl c then none else cons (some c) (basicLines .keep rest)
  | _, [] => none

/-- Text behind three single quotes. -/
def literalLines : List Char → Option (List Char × List Char)
  | '\'' :: '\'' :: '\'' :: '\'' :: '\'' :: rest => some (['\'', '\''], rest)
  | '\'' :: '\'' :: '\'' :: '\'' :: rest => some (['\''], rest)
  | '\'' :: '\'' :: '\'' :: rest => some ([], rest)
  | '\n' :: rest => cons (some '\n') (literalLines rest)
  | '\r' :: '\n' :: rest => cons (some '\n') (literalLines rest)
  | c :: rest => if isControl c then none else cons (some c) (literalLines rest)
  | [] => none

/-- A line end right behind the opening quotes does not count. -/
def afterOpening (cs : List Char) : List Char :=
  (newline? cs).getD cs

/-- Quoted text of any kind. -/
def quoted : List Char → Option (String × List Char) := fun cs =>
  let found :=
    match cs with
    | '"' :: '"' :: '"' :: rest => basicLines .keep (afterOpening rest)
    | '"' :: rest => basic rest
    | '\'' :: '\'' :: '\'' :: rest => literalLines (afterOpening rest)
    | '\'' :: rest => literal rest
    | _ => none
  found.map fun f => (String.ofList f.1, f.2)

/-! ## Keys -/

/-- May a character stand in a key without quotes? -/
def isBare (c : Char) : Bool :=
  c.isAlphanum || c = '_' || c = '-'

/-- One part of a key. -/
def keyPart : List Char → Option (String × List Char)
  | '"' :: rest => (basic rest).map fun f => (String.ofList f.1, f.2)
  | '\'' :: rest => (literal rest).map fun f => (String.ofList f.1, f.2)
  | cs =>
    match cs.takeWhile isBare with
    | [] => none
    | name => some (String.ofList name, cs.dropWhile isBare)

/-- The parts of a key with dots between them, at most a given number. Blanks may stand around
every part. -/
def keyPath : Nat → List Char → Option (List String × List Char)
  | 0, _ => none
  | n + 1, cs => do
    let (name, rest) ← keyPart (skipBlanks cs)
    match skipBlanks rest with
    | '.' :: more =>
      let (names, rest) ← keyPath n more
      some (name :: names, rest)
    | rest => some ([name], rest)

/-! ## Words -/

/-- May a character stand in a word? -/
def isWordChar (c : Char) : Bool :=
  c.isAlphanum || c = '_' || c = '-' || c = '+' || c = '.' || c = ':'

/-- Digits without the underscores between them. -/
def digits? (isDigit : Char → Bool) : List Char → Option (List Char)
  | [] => none
  | [c] => if isDigit c then some [c] else none
  | c :: '_' :: rest => if isDigit c then (digits? isDigit rest).map (c :: ·) else none
  | c :: rest => if isDigit c then (digits? isDigit rest).map (c :: ·) else none

/-- A sign, if there is one, and the rest. -/
def splitSign : List Char → Bool × List Char
  | '-' :: rest => (true, rest)
  | '+' :: rest => (false, rest)
  | cs => (false, cs)

/-- Digits that do not start with a needless zero. -/
def plainDigits? (cs : List Char) : Option (List Char) :=
  match digits? Char.isDigit cs with
  | some ('0' :: _ :: _) => none
  | ds => ds

/-- The number that digits of a base spell. -/
def numeral (base : Nat) (ds : List Char) : Nat :=
  ds.foldl (fun n c => n * base + (hexDigit? c).getD 0) 0

/-- A whole number, within 64 bits. -/
def whole? (cs : List Char) : Option Int := do
  let inBase (base : Nat) (rest : List Char) : Option Int := do
    let ds ← digits? (fun c => (hexDigit? c).any (· < base)) rest
    some (numeral base ds)
  let n ←
    match cs with
    | '0' :: 'x' :: rest => inBase 16 rest
    | '0' :: 'o' :: rest => inBase 8 rest
    | '0' :: 'b' :: rest => inBase 2 rest
    | _ => do
      let (negative, rest) := splitSign cs
      let ds ← plainDigits? rest
      some (if negative then -(numeral 10 ds : Int) else numeral 10 ds)
  if Width.fitsSigned 63 n then some n else none

/-- The exponent behind an `e`; zero if there is none. -/
def exponent? : List Char → Option Int
  | [] => some 0
  | e :: rest =>
    if e = 'e' ∨ e = 'E' then
      (digits? Char.isDigit (splitSign rest).2).map fun ds =>
        if (splitSign rest).1 then -(numeral 10 ds : Int) else numeral 10 ds
    else none

/-- The least magnitude that no binary64 number is nearest to: half a step above the largest. -/
def overflowBound : Nat :=
  Width.capacity 1024 - Width.capacity 970

/-- Is a binary64 number nearest to the one with these digits and this exponent? -/
def isFinite (whole part : List Char) (exponent : Int) : Bool :=
  let digits := whole ++ part
  let n := numeral 10 digits
  let scale := exponent - part.length
  -- so many places on one side of the point settle it
  if n = 0 ∨ scale ≤ -digits.length then true
  else if 400 ≤ scale then false
  else if scale < 0 then n < overflowBound * Nat.pow 10 scale.natAbs
  else n * Nat.pow 10 scale.natAbs < overflowBound

/-- Is a word a number with a point or an exponent, or one of the numbers that are words? One that
is too large is none; there is no such limit for negative ones. -/
def isFraction (cs : List Char) : Bool :=
  let rest := (splitSign cs).2
  if rest = "inf".toList ∨ rest = "nan".toList then true
  else
    let isMark (c : Char) : Bool := c = '.' || c = 'e' || c = 'E'
    let front := rest.takeWhile fun c => !isMark c
    let parts : Option (List Char × List Char × Int) := do
      let whole ← plainDigits? front
      match rest.drop front.length with
      | '.' :: more =>
        let isExponent (c : Char) : Bool := c = 'e' || c = 'E'
        let part ← digits? Char.isDigit (more.takeWhile fun c => !isExponent c)
        let exponent ← exponent? (more.dropWhile fun c => !isExponent c)
        some (whole, part, exponent)
      | [] => none
      | more => do some (whole, [], ← exponent? more)
    match parts with
    | some (whole, part, exponent) => (splitSign cs).1 || isFinite whole part exponent
    | none => false

/-! ## Dates and times -/

/-- A number of a fixed count of digits, and the rest. -/
def fixed (count : Nat) (cs : List Char) : Option (Nat × List Char) :=
  let ds := cs.take count
  if ds.length = count ∧ ds.all Char.isDigit then some (numeral 10 ds, cs.drop count) else none

/-- Days of a month. -/
def daysIn (year month : Nat) : Nat :=
  if month = 2 then
    if year % 4 = 0 ∧ (year % 100 ≠ 0 ∨ year % 400 = 0) then 29 else 28
  else if month ∈ [4, 6, 9, 11] then 30
  else 31

/-- What follows a mark. -/
def after? (mark : Char) : List Char → Option (List Char)
  | c :: rest => if c = mark then some rest else none
  | [] => none

/-- What follows a date. -/
def date? (cs : List Char) : Option (List Char) := do
  let (year, rest) ← fixed 4 cs
  let (month, rest) ← fixed 2 (← after? '-' rest)
  let (day, rest) ← fixed 2 (← after? '-' rest)
  if 1 ≤ month ∧ month ≤ 12 ∧ 1 ≤ day ∧ day ≤ daysIn year month then some rest else none

/-- What follows a time of day. -/
def time? (cs : List Char) : Option (List Char) := do
  let (hour, rest) ← fixed 2 cs
  let (minute, rest) ← fixed 2 (← after? ':' rest)
  let (second, rest) ← fixed 2 (← after? ':' rest)
  if 24 ≤ hour ∨ 60 ≤ minute ∨ 60 < second then none
  else
    match rest with
    | '.' :: more =>
      if (more.takeWhile Char.isDigit).isEmpty then none else some (more.dropWhile Char.isDigit)
    | rest => some rest

/-- Is a text a difference from universal time? -/
def isOffset : List Char → Bool
  | ['Z'] | ['z'] => true
  | sign :: rest =>
    (sign = '+' || sign = '-') &&
      match rest with
      | [a, b, ':', c, d] =>
        match fixed 2 [a, b], fixed 2 [c, d] with
        | some (hour, _), some (minute, _) => decide (hour < 24 ∧ minute < 60)
        | _, _ => false
      | _ => false
  | [] => false

/-- Is a text a time of day, with or without an offset? -/
def isTime (mayHaveOffset : Bool) (cs : List Char) : Bool :=
  match time? cs with
  | some [] => true
  | some rest => mayHaveOffset && isOffset rest
  | none => false

/-- Is a text a date, a time of day, or both? -/
def isMoment (cs : List Char) : Bool :=
  isTime false cs ||
    match date? cs with
    | some [] => true
    | some (mark :: rest) => (mark = 'T' || mark = 't' || mark = ' ') && isTime true rest
    | none => false

/-- The word at the front of a text. A date and a time of day may have a blank between them. -/
def spanWord (cs : List Char) : List Char × List Char :=
  let word := cs.takeWhile isWordChar
  match date? word, cs.dropWhile isWordChar with
  | some [], ' ' :: rest =>
    let both := word ++ ' ' :: rest.takeWhile isWordChar
    -- the blank belongs to the word only if a time of day follows
    if isMoment both then (both, rest.dropWhile isWordChar) else (word, ' ' :: rest)
  | _, rest => (word, rest)

/-- The setting that a word stands for. -/
def word? (cs : List Char) : Option Setting :=
  if cs = "true".toList then some (.flag true)
  else if cs = "false".toList then some (.flag false)
  else
    match whole? cs with
    | some n => some (.whole n)
    | none =>
      if isMoment cs then some .moment else if isFraction cs then some .fraction else none

end FleetMetrics.Toml
