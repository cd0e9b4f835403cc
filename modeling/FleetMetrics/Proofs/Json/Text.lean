import Mathlib
import FleetMetrics.Json.Reader
import FleetMetrics.Json.Writer
import FleetMetrics.Proofs.Json.Tree

/-!
# What is written reads back

The text of a tree is one line; reading it cuts the line into tokens and puts these together again.
Two things could go wrong between the parts. A bare word ends only where something else begins, so
what stands behind a number decides where it ends: `Scan.tokens_append` says that a text may be
followed by anything that ends a word. And the tokens of an inner tree must not be taken for those
of the outer one: `foldlM_tree` reads them on top of any stack of open arrays and objects and finds
the stack as it was.

The texts of numbers are not covered. They are read through a significand of 64 bits, which gives
some long decimals back as a neighbour, so a number that is to come back has to be `Legible`; for
whole numbers, literals and strings nothing has to be assumed.

Main results:

* `readSorted?_write` — a tree that is not too deep, and whose numbers are legible, reads back.
* `depth_le_of_readWith?` — nothing that is read is too deep.
-/

namespace FleetMetrics.Json

/-! ## Scanning one text after another -/

namespace Scan

/-- Nothing, or something that ends a bare word. -/
def Apart (cs : List Char) : Prop :=
  ∀ c ∈ cs.head?, endsWord c = true

/-- What starts with a character that ends a word does not continue one. -/
theorem apart_cons {c : Char} (ends : endsWord c = true) (cs : List Char) : Apart (c :: cs) := by
  rintro _ ⟨⟩
  exact ends

theorem tokens_cons (s : Scan) (c : Char) (cs : List Char) :
    s.tokens (c :: cs) = (s.step c).bind fun p => (tokens p.1 cs).map (p.2 ++ ·) := by
  cases s <;> rw [tokens] <;> cases step _ c <;> rfl

/-- A character that completes no token. -/
theorem tokens_of_step {s next : Scan} {c : Char} (silent : s.step c = some (next, []))
    (cs : List Char) : s.tokens (c :: cs) = next.tokens cs := by
  rw [tokens_cons, silent]
  exact Option.map_id'

/-- A character that ends a word is read as it would be without the word. -/
theorem tokens_word_cons {c : Char} (ends : endsWord c = true) (seen cs : List Char) :
    (word seen).tokens (c :: cs) =
      (word? seen.reverse).bind fun t => (between.tokens (c :: cs)).map (t :: ·) := by
  rw [tokens_cons, tokens_cons, step, step, if_pos ends]
  cases word? seen.reverse with
  | none => rfl
  | some t =>
    cases fromBetween c with
    | none => rfl
    | some p => simp [Function.comp_def]

/-- **Concatenation.** A text with tokens of its own has the same ones in front of another text. -/
theorem tokens_append {cs : List Char} : ∀ {s : Scan} {ts : List Token} {rest : List Char},
    s.tokens cs = some ts → Apart rest →
      s.tokens (cs ++ rest) = (between.tokens rest).map (ts ++ ·) := by
  induction cs with
  | nil =>
    intro s ts rest complete apart
    cases s with
    | between =>
      obtain rfl := Option.some.inj complete
      exact Option.map_id'.symm
    | word seen =>
      obtain ⟨t, hWord, rfl⟩ := Option.map_eq_some_iff.mp complete
      cases rest with
      | nil => exact complete
      | cons c rest =>
        rw [List.nil_append, tokens_word_cons (apart c rfl), hWord]
        rfl
    | quoted | escape | unit | pairSlash | pairMark => cases complete
  | cons c cs ih =>
    intro s ts rest complete apart
    rw [tokens_cons] at complete
    obtain ⟨⟨next, front⟩, hStep, hRest⟩ := Option.bind_eq_some_iff.mp complete
    obtain ⟨back, hBack, rfl⟩ := Option.map_eq_some_iff.mp hRest
    rw [List.cons_append, tokens_cons, hStep, Option.bind_some, ih hBack apart, Option.map_map]
    exact congrArg (Option.map · _) (funext fun _ => (List.append_assoc _ _ _).symm)

/-! ## Bare words -/

/-- A word of characters none of which ends it is one token, whatever of it has been seen. -/
theorem tokens_word {cs : List Char} (bare : ∀ c ∈ cs, endsWord c = false) (seen : List Char) :
    (word seen).tokens cs = (word? (seen.reverse ++ cs)).map ([·]) := by
  induction cs generalizing seen with
  | nil => rw [List.append_nil, tokens]
  | cons c cs ih =>
    obtain ⟨hFirst, hRest⟩ := List.forall_mem_cons.mp bare
    rw [tokens_of_step (by rw [step, if_neg (by simp [hFirst])]), ih hRest]
    simp

/-- A bare word is one token. -/
theorem tokens_bare {cs : List Char} (some' : cs ≠ []) (bare : ∀ c ∈ cs, endsWord c = false) :
    between.tokens cs = (word? cs).map ([·]) := by
  cases cs with
  | nil => exact absurd rfl some'
  | cons c cs =>
    obtain ⟨hFirst, hRest⟩ := List.forall_mem_cons.mp bare
    have hWord : between.step c = some (.word [c], []) := by
      simp only [endsWord, Bool.or_eq_false_iff, decide_eq_false_iff_not] at hFirst
      obtain ⟨⟨⟨⟨⟨h1, h2⟩, h3⟩, h4⟩, h5⟩, h6⟩ := hFirst
      rw [step, fromBetween, if_neg (by simp [h1, h2, h3, h4]), if_neg h5,
        Option.isSome_eq_false_iff.mp h6 |> Option.isNone_iff_eq_none.mp]
    rw [tokens_of_step hWord, tokens_word hRest]
    rfl

/-! ## Quoted texts -/

/-- A digit is read as the number it was written for. -/
theorem hexDigit?_hexChar {n : Nat} (digit : n < 16) : hexDigit? (hexChar n) = some n := by
  revert n
  decide

/-- A control character is written with four digits, the first two of which are zero. -/
theorem tokens_controlEscape {c : Char} (control : c.toNat < 32) (seen cs : List Char) :
    (quoted seen).tokens
        (['\\', 'u', '0', '0', hexChar (c.toNat / 16), hexChar (c.toNat % 16)] ++ cs) =
      (quoted (c :: seen)).tokens cs := by
  have hHigh := hexDigit?_hexChar (n := c.toNat / 16) (by omega)
  have hLow := hexDigit?_hexChar (n := c.toNat % 16) (by omega)
  -- each digit but the last is added to the value, and one fewer is owed
  have hUnit : ∀ owed value d n, hexDigit? d = some n → 1 < owed →
      (unit seen owed value none).step d =
        some (.unit seen (owed - 1) (value * 16 + n) none, []) := by
    intro owed value d n hDigit hMore
    rw [step, hDigit]
    exact if_neg (Nat.not_le.mpr hMore)
  have hLast : ∀ value d n, hexDigit? d = some n → value * 16 + n = c.toNat →
      (unit seen 1 value none).step d = some (.quoted (c :: seen), []) := by
    intro value d n hDigit hValue
    rw [step, hDigit]
    change (completeUnit seen (value * 16 + n) none).bind (fun next => some (next, [])) = _
    rw [hValue, completeUnit, if_neg (by omega), if_neg (by omega), Char.ofNat_toNat]
    rfl
  have hZero : hexDigit? '0' = some 0 := rfl
  have hSlash : (quoted seen).step '\\' = some (.escape seen, []) := rfl
  have hMark : (escape seen).step 'u' = some (.unit seen 4 0 none, []) := rfl
  simp only [List.cons_append, List.nil_append]
  rw [tokens_of_step hSlash, tokens_of_step hMark,
    tokens_of_step (hUnit _ _ _ _ hZero (by decide)),
    tokens_of_step (hUnit _ _ _ _ hZero (by decide)),
    tokens_of_step (hUnit _ _ _ _ hHigh (by decide)),
    tokens_of_step (hLast _ _ _ hLow (by omega))]

/-- However a character is written, between quotes it is read as itself. -/
theorem tokens_escapeChar (c : Char) (seen cs : List Char) :
    (quoted seen).tokens (escapeChar c ++ cs) = (quoted (c :: seen)).tokens cs := by
  -- a short escape is a backslash and a letter
  have hEscape : ∀ e, escaped? e = some c → e ≠ 'u' →
      (quoted seen).tokens (['\\', e] ++ cs) = (quoted (c :: seen)).tokens cs := by
    intro e hEscaped hOther
    have hSlash : (quoted seen).step '\\' = some (.escape seen, []) := rfl
    have hLetter : (escape seen).step e = some (.quoted (c :: seen), []) := by
      rw [step, if_neg hOther, hEscaped, Option.map_some]
    rw [List.cons_append, List.cons_append, List.nil_append, tokens_of_step hSlash,
      tokens_of_step hLetter]
  unfold escapeChar
  split
  · next h => exact hEscape _ (by rw [h]; rfl) (by decide)
  split
  · next h => exact hEscape _ (by rw [h]; rfl) (by decide)
  split
  · next h => exact hEscape _ (by rw [h]; rfl) (by decide)
  split
  · next h => exact hEscape _ (by rw [h]; rfl) (by decide)
  split
  · next h => exact hEscape _ (by rw [h]; rfl) (by decide)
  split
  · next h => exact hEscape _ (by rw [h]; rfl) (by decide)
  split
  · next h => exact hEscape _ (by rw [h]; rfl) (by decide)
  split
  · next hControl => exact tokens_controlEscape hControl seen cs
  · next hQuote hSlash _ _ _ _ _ hControl =>
    -- every other character stands for itself
    have hPlain : (quoted seen).step c = some (.quoted (c :: seen), []) := by
      rw [step, if_neg hQuote, if_neg hSlash, if_neg hControl]
    exact tokens_of_step hPlain cs

/-- The escaped characters up to the closing quote are one text, the one that was written. -/
theorem tokens_quoted (cs : List Char) (seen : List Char) :
    (quoted seen).tokens (cs.flatMap escapeChar ++ ['"']) =
      some [.text (String.ofList (seen.reverse ++ cs))] := by
  induction cs generalizing seen with
  | nil => simp [tokens_cons, step, tokens]
  | cons c cs ih =>
    rw [List.flatMap_cons, List.append_assoc, tokens_escapeChar, ih]
    simp

/-- A string is one token. -/
theorem tokens_writeString (s : String) :
    between.tokens (writeString s).toList = some [.text s] := by
  have hOpen : between.step '"' = some (.quoted [], []) := rfl
  rw [writeString, String.toList_ofList, List.cons_append, tokens_of_step hOpen, tokens_quoted]
  simp

end Scan

/-! ## Whole numbers -/

/-- A text of digits is taken to its end. -/
theorem spanDigits_of_digits {cs : List Char} (digits : ∀ c ∈ cs, c.isDigit = true) :
    spanDigits cs = (cs.map fun c => c.toNat - '0'.toNat, []) := by
  rw [spanDigits, List.takeWhile_eq_self_iff.mpr digits, List.dropWhile_eq_nil_iff.mpr digits]

/-- The decimal digits of a number stand for it. -/
theorem ofDigits_toDigits (n : Nat) :
    ofDigits ((Nat.toDigits 10 n).map fun c => c.toNat - '0'.toNat) = n := by
  have hValue := Nat.ofDigitChars_ten_toDigits (n := n)
  rw [Nat.ofDigitChars_eq_foldl] at hValue
  rw [ofDigits, List.foldl_map]
  simpa only [Nat.mul_comm] using hValue

/-- Only zero is written with a zero in front. -/
theorem head?_toDigits {n : Nat} (pos : 0 < n) : (Nat.toDigits 10 n).head? ≠ some '0' := by
  induction n using Nat.strong_induction_on with
  | _ n ih =>
    by_cases hSmall : n < 10
    · have hDigit : ∀ d < 10, 0 < d → [d.digitChar].head? ≠ some '0' := by decide
      rw [Nat.toDigits_of_lt_base hSmall]
      exact hDigit n hSmall pos
    · rw [Nat.toDigits_of_base_le (by decide) (Nat.le_of_not_lt hSmall),
        List.head?_append_of_ne_nil _ Nat.toDigits_ne_nil]
      exact ih (n / 10) (by omega) (by omega)

/-- Digits are read as one number, unless a zero stands in front of others. -/
theorem wordNumber?_of_digits {d : Char} {ds : List Char} {v : Nat} {vs : List Nat}
    (plain : d ≠ '-') (span : spanDigits (d :: ds) = (v :: vs, [])) (lead : vs ≠ [] → v ≠ 0) :
    wordNumber? (d :: ds) = numberToken false (v :: vs) [] none := by
  rw [wordNumber?, span]
  · match v, vs, lead with
    | 0, [], _ | _ + 1, [], _ | _ + 1, _ :: _, _ => rfl
    | 0, v' :: vs', lead => exact absurd rfl (lead (List.cons_ne_nil v' vs'))
  · rintro rest h
    exact plain (List.cons.inj h).1

/-- A minus in front changes the sign and nothing else. -/
theorem wordNumber?_of_minus {ds : List Char} {v : Nat} {vs : List Nat}
    (span : spanDigits ds = (v :: vs, [])) (lead : vs ≠ [] → v ≠ 0) :
    wordNumber? ('-' :: ds) = numberToken true (v :: vs) [] none := by
  rw [wordNumber?, span]
  match v, vs, lead with
  | 0, [], _ | _ + 1, [], _ | _ + 1, _ :: _, _ => rfl
  | 0, v' :: vs', lead => exact absurd rfl (lead (List.cons_ne_nil v' vs'))

/-- What the reader makes of the digits of a number. -/
theorem spanDigits_toDigits (n : Nat) :
    ∃ d ds v vs, Nat.toDigits 10 n = d :: ds ∧ d ≠ '-' ∧ spanDigits (d :: ds) = (v :: vs, []) ∧
      ofDigits (v :: vs) = n ∧ (vs ≠ [] → v ≠ 0) := by
  have hDigits : ∀ c ∈ Nat.toDigits 10 n, c.isDigit = true := fun c hc =>
    Nat.isDigit_of_mem_toDigits (by decide) (by decide) hc
  have hSpan := spanDigits_of_digits hDigits
  have hValue := ofDigits_toDigits n
  cases hText : Nat.toDigits 10 n with
  | nil => exact absurd hText Nat.toDigits_ne_nil
  | cons d ds =>
    rw [hText] at hDigits hSpan hValue
    have hFirst : d.isDigit = true := hDigits d List.mem_cons_self
    refine ⟨d, ds, _, _, rfl, ?_, hSpan, hValue, ?_⟩
    · rintro rfl
      cases hFirst
    · intro hMore hZero
      -- only zero starts with a zero, and it has no other digit
      have hd : d = '0' := by
        have hRange := Char.isDigit_iff_toNat.mp hFirst
        have hDifference : d.toNat - '0'.toNat = 0 := hZero
        exact Char.toNat_inj.mp (by omega)
      have hn : ¬ 0 < n := fun hPos => head?_toDigits hPos (by rw [hText, hd]; rfl)
      obtain rfl := Nat.eq_zero_of_not_pos hn
      rw [Nat.toDigits_zero] at hText
      exact hMore (by rw [← (List.cons.inj hText).2]; rfl)

/-- A whole number is read as it was written if it fits into 64 bits. -/
theorem wordNumber?_toDigits {n : Nat} (fits : n < Width.capacity 64) :
    wordNumber? (Nat.toDigits 10 n) = some (.int n) := by
  obtain ⟨d, ds, v, vs, hText, hPlain, hSpan, hValue, hLead⟩ := spanDigits_toDigits n
  rw [hText, wordNumber?_of_digits hPlain hSpan hLead, numberToken, hValue]
  exact if_pos ⟨rfl, rfl, fits⟩

/-- A negative whole number is read as it was written if it is not below the least that 64 bits with
a sign can hold. -/
theorem wordNumber?_minus_toDigits {n : Nat} (pos : 0 < n) (fits : n ≤ Width.capacity 63) :
    wordNumber? ('-' :: Nat.toDigits 10 n) = some (.int (-n)) := by
  obtain ⟨d, ds, v, vs, hText, -, hSpan, hValue, hLead⟩ := spanDigits_toDigits n
  rw [hText, wordNumber?_of_minus hSpan hLead, numberToken, hValue]
  exact (if_neg (by simp)).trans (if_pos ⟨rfl, rfl, pos, fits⟩)

/-- No character that a whole number is written with ends a word. -/
theorem endsWord_of_number {c : Char} (number : c = '-' ∨ c.isDigit = true) :
    Scan.endsWord c = false := by
  rcases number with rfl | hDigit
  · rfl
  · by_contra hEnds
    simp only [Scan.endsWord, Bool.not_eq_false, Bool.or_eq_true, decide_eq_true_eq] at hEnds
    rcases hEnds with ((((rfl | rfl) | rfl) | rfl) | rfl) | hMark
    iterate 5 cases hDigit
    · unfold punctuation? at hMark
      split at hMark
      iterate 6 cases hDigit
      · cases hMark

/-- A number without a point is one token. -/
theorem tokens_of_number {cs : List Char} {t : Token}
    (number : ∀ c ∈ cs, c = '-' ∨ c.isDigit = true) (reads : wordNumber? cs = some t) :
    Scan.between.tokens cs = some [t] := by
  cases cs with
  | nil => cases reads
  | cons c rest =>
    -- no literal name starts like a number
    have hLiteral : ∀ first rest', ¬ (first = '-' ∨ first.isDigit = true) →
        c :: rest ≠ first :: rest' := by
      rintro first rest' hOther hSame
      exact hOther ((List.cons.inj hSame).1 ▸ number c List.mem_cons_self)
    have hWord : word? (c :: rest) = wordNumber? (c :: rest) := by
      refine (if_neg (hLiteral 'n' ['u', 'l', 'l'] (by decide))).trans ?_
      refine (if_neg (hLiteral 't' ['r', 'u', 'e'] (by decide))).trans ?_
      exact if_neg (hLiteral 'f' ['a', 'l', 's', 'e'] (by decide))
    rw [Scan.tokens_bare (List.cons_ne_nil _ _) fun c' hc' => endsWord_of_number (number c' hc'),
      hWord, reads, Option.map_some]

/-- A whole number within 64 bits is one token. -/
theorem tokens_int {i : Int} (low : -Width.capacity 63 ≤ i) (high : i < Width.capacity 64) :
    Scan.between.tokens (toString i).toList = some [.int i] := by
  have hDigits : ∀ n, ∀ c ∈ Nat.toDigits 10 n, c = '-' ∨ c.isDigit = true := fun n c hc =>
    .inr (Nat.isDigit_of_mem_toDigits (by decide) (by decide) hc)
  rw [Int.toString_eq_repr, Int.repr_eq_if]
  split
  · next hSign =>
    have hRead := wordNumber?_toDigits (n := i.toNat) (by omega)
    rw [Int.toNat_of_nonneg hSign] at hRead
    rw [Nat.toList_repr]
    exact tokens_of_number (hDigits _) hRead
  · next hSign =>
    have hRead := wordNumber?_minus_toDigits (n := (-i).toNat) (by omega) (by omega)
    rw [Int.toNat_of_nonneg (by omega), neg_neg] at hRead
    rw [String.toList_append, Nat.toList_repr]
    exact tokens_of_number (List.forall_mem_cons.mpr ⟨.inl rfl, hDigits _⟩) hRead

/-! ## The tokens of a tree -/

mutual

/-- The tokens that a tree is written with. -/
def tokensOf : Json Float → List Token
  | .null => [.null]
  | .bool b => [.bool b]
  | .int i => [.int i]
  | .float x => [.float x]
  | .string s => [.text s]
  | .array items => .openArray :: (itemTokens items ++ [.closeArray])
  | .object members => .openObject :: (memberTokens members ++ [.closeObject])

def itemTokens : List (Json Float) → List Token
  | [] => []
  | [j] => tokensOf j
  | j :: j' :: rest => tokensOf j ++ .comma :: itemTokens (j' :: rest)

def memberTokens : List (String × Json Float) → List Token
  | [] => []
  | [(name, j)] => .text name :: .colon :: tokensOf j
  | (name, j) :: m :: rest =>
    .text name :: .colon :: (tokensOf j ++ .comma :: memberTokens (m :: rest))

end

/-- A number that its own text is read as. -/
def LegibleNumber (x : Float) : Prop :=
  Scan.between.tokens (writeFloat x).toList = some [.float x]

mutual

/-- The whole numbers of a tree are within 64 bits, and the other numbers are legible. -/
def Legible : Json Float → Prop
  | .int i => -Width.capacity 63 ≤ i ∧ i < Width.capacity 64
  | .float x => LegibleNumber x
  | .array items => LegibleItems items
  | .object members => LegibleMembers members
  | _ => True

def LegibleItems : List (Json Float) → Prop
  | [] => True
  | j :: rest => Legible j ∧ LegibleItems rest

def LegibleMembers : List (String × Json Float) → Prop
  | [] => True
  | (_, j) :: rest => Legible j ∧ LegibleMembers rest

end

/-- An array is told from its text if each of its items is. -/
theorem legible_array {items : List (Json Float)} :
    (array items).Legible ↔ ∀ j ∈ items, j.Legible := by
  rw [Legible]
  induction items with
  | nil => simp [LegibleItems]
  | cons j rest ih => rw [LegibleItems, ih, List.forall_mem_cons]

/-- An object is told from its text if each of its members is, whatever their names. -/
theorem legible_object {members : List (String × Json Float)} :
    (object members).Legible ↔ ∀ m ∈ members, m.2.Legible := by
  rw [Legible]
  induction members with
  | nil => simp [LegibleMembers]
  | cons m rest ih => rw [LegibleMembers, ih, List.forall_mem_cons]

/-! ## Writing -/

namespace Scan

/-- A punctuation mark between words is a token for itself. -/
theorem tokens_punctuation {c : Char} {t : Token} (mark : between.step c = some (.between, [t]))
    (cs : List Char) : between.tokens (c :: cs) = (between.tokens cs).map (t :: ·) := by
  rw [tokens_cons, mark]
  rfl

/-- The tokens of a text between two brackets. -/
theorem tokens_enclosed {cs : List Char} {ts : List Token} {first last : Char} {t t' : Token}
    (opens : between.step first = some (.between, [t]))
    (closes : between.step last = some (.between, [t'])) (ends : endsWord last = true)
    (inner : between.tokens cs = some ts) :
    between.tokens (first :: (cs ++ [last])) = some (t :: (ts ++ [t'])) := by
  rw [tokens_punctuation opens, tokens_append inner (apart_cons ends []),
    tokens_punctuation closes]
  rfl

/-- The tokens of two texts with a comma between them. -/
theorem tokens_comma {cs cs' : List Char} {ts ts' : List Token}
    (front : between.tokens cs = some ts) (back : between.tokens cs' = some ts') :
    between.tokens (cs ++ (',' :: cs')) = some (ts ++ .comma :: ts') := by
  rw [tokens_append front (apart_cons rfl cs'), tokens_punctuation rfl, back]
  rfl

/-- The tokens of a member. -/
theorem tokens_member (name : String) {cs : List Char} {ts : List Token}
    (value : between.tokens cs = some ts) :
    between.tokens ((writeString name).toList ++ (':' :: cs)) =
      some (.text name :: .colon :: ts) := by
  rw [tokens_append (tokens_writeString name) (apart_cons rfl cs), tokens_punctuation rfl, value]
  rfl

end Scan

/-- A member is its name, a colon and its value. -/
theorem toList_memberText (name : String) (j : Json Float) :
    (writeString name ++ ":" ++ j.write).toList =
      (writeString name).toList ++ (':' :: j.write.toList) := by
  simp

open Scan in
mutual

/-- **Writing.** The text of a legible tree has the tokens of the tree. -/
theorem tokens_write : ∀ {j : Json Float}, j.Legible →
    Scan.between.tokens j.write.toList = some (tokensOf j)
  | .null, _ => rfl
  | .bool true, _ => rfl
  | .bool false, _ => rfl
  | .int _, legible => tokens_int legible.1 legible.2
  | .float _, legible => legible
  | .string s, _ => tokens_writeString s
  | .array items, legible => by
    have hItems := tokens_writeItems (legible_array.mp legible)
    rw [write, String.toList_append, String.toList_append, String.toList_intercalate]
    exact tokens_enclosed rfl rfl rfl hItems
  | .object members, legible => by
    have hMembers := tokens_writeMembers (legible_object.mp legible)
    rw [write, String.toList_append, String.toList_append, String.toList_intercalate]
    exact tokens_enclosed rfl rfl rfl hMembers

/-- The items of an array are scanned one by one, with the commas between them. -/
theorem tokens_writeItems : ∀ {items : List (Json Float)}, (∀ j ∈ items, j.Legible) →
    Scan.between.tokens (",".toList.intercalate ((writeItems items).map String.toList)) =
      some (itemTokens items)
  | [], _ => rfl
  | [j], legible => by
    have hFirst := tokens_write (legible j List.mem_cons_self)
    rw [writeItems, writeItems, List.map_cons, List.map_nil, List.intercalate_singleton]
    exact hFirst
  | j :: j' :: rest, legible => by
    obtain ⟨hFirst, hRest⟩ := List.forall_mem_cons.mp legible
    have hText := tokens_comma (tokens_write hFirst) (tokens_writeItems hRest)
    rw [writeItems, List.map_cons, writeItems, List.map_cons, List.intercalate_cons_cons]
    rw [writeItems, List.map_cons] at hText
    rw [List.append_assoc]
    exact hText

/-- The members of an object are scanned one by one, each with its name and a colon. -/
theorem tokens_writeMembers : ∀ {members : List (String × Json Float)},
    (∀ m ∈ members, m.2.Legible) →
    Scan.between.tokens (",".toList.intercalate ((writeMembers members).map String.toList)) =
      some (memberTokens members)
  | [], _ => rfl
  | [(name, j)], legible => by
    have hFirst := tokens_member name (tokens_write (legible (name, j) List.mem_cons_self))
    rw [writeMembers, writeMembers, List.map_cons, List.map_nil, List.intercalate_singleton,
      toList_memberText]
    exact hFirst
  | (name, j) :: m :: rest, legible => by
    obtain ⟨hFirst, hRest⟩ := List.forall_mem_cons.mp legible
    have hText := tokens_comma (tokens_member name (tokens_write hFirst))
      (tokens_writeMembers hRest)
    rw [writeMembers, List.map_cons, writeMembers, List.map_cons, List.intercalate_cons_cons,
      toList_memberText, List.append_assoc]
    rw [writeMembers, List.map_cons] at hText
    exact hText

end

/-! ## Reading -/

namespace Reader

variable (policy : List (String × Json Float) → List (String × Json Float))

/-- An array ends where it may be empty and behind an item. -/
theorem foldlM_closeArray {expect : Expect} (ends : expect = .firstItem ∨ expect = .separator)
    (acc : List (Json Float)) (stack : List Frame) (result : Option (Json Float)) :
    [Token.closeArray].foldlM (step policy) ⟨.array acc :: stack, expect, result⟩ =
      complete (.array acc.reverse) stack := by
  rcases ends with rfl | rfl
  · exact (bind_pure _).trans Option.or_none
  · exact bind_pure _

/-- A closing brace completes the innermost object, with its members under the reader's policy. -/
theorem foldlM_closeObject {expect : Expect} (ends : expect = .firstName ∨ expect = .separator)
    (acc : List (String × Json Float)) (stack : List Frame) (result : Option (Json Float)) :
    [Token.closeObject].foldlM (step policy) ⟨.object acc :: stack, expect, result⟩ =
      complete (.object (policy acc.reverse)) stack := by
  rcases ends with rfl | rfl
  · exact (bind_pure _).trans Option.or_none
  · exact bind_pure _

/-- The first item of an array is read as one behind a comma would be. -/
theorem foldlM_item {expect : Expect} (started : expect = .firstItem ∨ expect = .value)
    (j : Json Float) (acc : List (Json Float)) (stack : List Frame) (result : Option (Json Float)) :
    (tokensOf j).foldlM (step policy) ⟨.array acc :: stack, expect, result⟩ =
      (tokensOf j).foldlM (step policy) ⟨.array acc :: stack, .value, result⟩ := by
  rcases started with rfl | rfl
  · cases j <;> rfl
  · rfl

/-- A name and a colon stand before a value. -/
theorem foldlM_name {expect : Expect} (named : expect = .firstName ∨ expect = .name) (name : String)
    (ts : List Token) (acc : List (String × Json Float)) (stack : List Frame)
    (result : Option (Json Float)) :
    (.text name :: .colon :: ts).foldlM (step policy) ⟨.object acc :: stack, expect, result⟩ =
      ts.foldlM (step policy) ⟨.member acc name :: stack, .value, none⟩ := by
  rcases named with rfl | rfl <;> rfl

mutual

/-- **Reading.** Whatever is open, the tokens of a tree hand over the tree in order. -/
theorem foldlM_tokensOf : ∀ {j : Json Float} (stack : List Frame) (result : Option (Json Float)),
    stack.length + j.depth ≤ maxDepth →
      (tokensOf j).foldlM (step Table.ofList) ⟨stack, .value, result⟩ = complete j.sorted stack
  | .null, _, _, _ | .bool _, _, _, _ | .int _, _, _, _ | .float _, _, _, _ | .string _, _, _, _ =>
    bind_pure _
  | .array items, stack, result, room => by
    have hOpen : stack.length < maxDepth := by
      rw [depth] at room
      omega
    have hEnter : step Table.ofList ⟨stack, .value, result⟩ .openArray =
        some ⟨.array [] :: stack, .firstItem, none⟩ := if_pos hOpen
    -- an item is nested one deeper, in a frame that is opened for it
    have hRoom : ∀ j ∈ items, (stack.length + 1) + j.depth ≤ maxDepth := fun j hj => by
      have := depth_lt_of_mem_array hj
      omega
    have hItems := foldlM_itemTokens [] stack none (.inl rfl) hRoom
    rw [tokensOf, List.foldlM_cons, hEnter, sorted_array]
    refine (Option.bind_some ..).trans ?_
    rw [List.foldlM_append, hItems]
    refine (Option.bind_some ..).trans ?_
    rw [foldlM_closeArray _ (by cases items <;> simp), List.append_nil, List.reverse_reverse]
  | .object members, stack, result, room => by
    have hOpen : stack.length < maxDepth := by
      rw [depth] at room
      omega
    have hEnter : step Table.ofList ⟨stack, .value, result⟩ .openObject =
        some ⟨.object [] :: stack, .firstName, none⟩ := if_pos hOpen
    have hRoom : ∀ m ∈ members, (stack.length + 1) + m.2.depth ≤ maxDepth := fun m hm => by
      have := depth_lt_of_mem_object hm
      omega
    have hMembers := foldlM_memberTokens [] stack none (.inl rfl) hRoom
    rw [tokensOf, List.foldlM_cons, hEnter, sorted_object]
    refine (Option.bind_some ..).trans ?_
    rw [List.foldlM_append, hMembers]
    refine (Option.bind_some ..).trans ?_
    rw [foldlM_closeObject _ (by cases members <;> simp), List.append_nil, List.reverse_reverse]

/-- Reading the items of an array puts them on the frame that was opened for it, as long as none of
them nests too deeply; the frames below are not touched. -/
theorem foldlM_itemTokens : ∀ {items : List (Json Float)} {expect : Expect}
    (acc : List (Json Float)) (stack : List Frame) (result : Option (Json Float)),
    expect = .firstItem ∨ expect = .value →
    (∀ j ∈ items, (stack.length + 1) + j.depth ≤ maxDepth) →
      (itemTokens items).foldlM (step Table.ofList) ⟨.array acc :: stack, expect, result⟩ =
        some ⟨.array ((items.map sorted).reverse ++ acc) :: stack,
          if items = [] then expect else .separator, if items = [] then result else none⟩
  | [], _, acc, stack, result, _, _ => rfl
  | [j], _, acc, stack, result, started, room => by
    have hFirst := foldlM_tokensOf (.array acc :: stack) result (room j List.mem_cons_self)
    rw [itemTokens, foldlM_item _ started, hFirst]
    rfl
  | j :: j' :: rest, _, acc, stack, result, started, room => by
    obtain ⟨hRoom, hRest⟩ := List.forall_mem_cons.mp room
    have hFirst := foldlM_tokensOf (.array acc :: stack) result hRoom
    have hMore := foldlM_itemTokens (j.sorted :: acc) stack none (.inr rfl) hRest
    rw [itemTokens, List.foldlM_append, foldlM_item _ started, hFirst]
    refine Eq.trans ?_ (hMore.trans ?_)
    · rfl
    · simp

/-- Reading the members of an object puts them on its frame with their names, as long as none of
them nests too deeply. -/
theorem foldlM_memberTokens : ∀ {members : List (String × Json Float)} {expect : Expect}
    (acc : List (String × Json Float)) (stack : List Frame) (result : Option (Json Float)),
    expect = .firstName ∨ expect = .name →
    (∀ m ∈ members, (stack.length + 1) + m.2.depth ≤ maxDepth) →
      (memberTokens members).foldlM (step Table.ofList) ⟨.object acc :: stack, expect, result⟩ =
        some ⟨.object ((members.map fun m => (m.1, m.2.sorted)).reverse ++ acc) :: stack,
          if members = [] then expect else .separator, if members = [] then result else none⟩
  | [], _, acc, stack, result, _, room => rfl
  | [(name, j)], _, acc, stack, result, named, room => by
    have hValue := foldlM_tokensOf (.member acc name :: stack) none
      (room (name, j) List.mem_cons_self)
    rw [memberTokens, foldlM_name _ named, hValue]
    rfl
  | (name, j) :: m :: rest, _, acc, stack, result, named, room => by
    obtain ⟨hRoom, hRest⟩ := List.forall_mem_cons.mp room
    have hValue := foldlM_tokensOf (.member acc name :: stack) none hRoom
    have hMore := foldlM_memberTokens ((name, j.sorted) :: acc) stack none (.inr rfl) hRest
    rw [memberTokens, foldlM_name _ named, List.foldlM_append, hValue]
    refine Eq.trans ?_ (hMore.trans ?_)
    · rfl
    · simp

end

end Reader

/-- **Exactness.** A legible tree of arrays and objects that are not too deep reads back, with the
members of every object in order. -/
theorem readSorted?_write {j : Json Float} (legible : j.Legible) (shallow : j.depth ≤ maxDepth) :
    readSorted? j.write = some j.sorted := by
  have hRead := Reader.foldlM_tokensOf [] none (by simpa using shallow)
  rw [readSorted?, readWith?, tokens_write legible]
  refine (Option.bind_some ..).trans ?_
  rw [Reader.start, hRead]
  rfl

/-! ## Depth -/

/-- The values that an open array or object holds. -/
def Frame.values : Frame → List (Json Float)
  | .array items => items
  | .object members | .member members _ => members.map (·.2)

namespace Reader

/-- What is open can be closed without a tree becoming too deep. -/
def Bounded : List Frame → Prop
  | [] => True
  | frame :: rest =>
    rest.length < maxDepth ∧ (∀ j ∈ frame.values, rest.length + 1 + j.depth ≤ maxDepth) ∧
      Bounded rest

/-- No value of a reader is too deep, and none becomes so. -/
structure Within (r : Reader) : Prop where
  opened : Bounded r.stack
  shallow : ∀ j, r.result = some j → j.depth ≤ maxDepth

/-- A value that has been completed keeps the reader within its bounds if there was room for it
where it stands. -/
theorem within_complete {v : Json Float} {stack : List Frame} {r : Reader} (bounded : Bounded stack)
    (room : stack.length + v.depth ≤ maxDepth) (done : complete v stack = some r) : r.Within := by
  cases stack with
  | nil =>
    obtain rfl := Option.some.inj done
    refine ⟨trivial, ?_⟩
    rintro _ ⟨⟩
    simpa using room
  | cons frame rest =>
    obtain ⟨hOpen, hValues, hRest⟩ := bounded
    cases frame with
    | array items | member members name =>
      obtain rfl := Option.some.inj done
      exact ⟨⟨hOpen, List.forall_mem_cons.mpr ⟨room, hValues⟩, hRest⟩, nofun⟩
    | object members => cases done

/-- A frame is opened only where there is one more level to nest, so the reader stays within its
bounds. -/
theorem within_enter {frame : Frame} {expect : Expect} {stack : List Frame} {r : Reader}
    (bounded : Bounded stack) (empty : frame.values = [])
    (done : enter frame expect stack = some r) : r.Within := by
  rw [enter] at done
  split at done
  · next hOpen =>
    obtain rfl := Option.some.inj done
    exact ⟨⟨hOpen, by simp [empty], bounded⟩, nofun⟩
  · cases done

/-- There are never more open frames than the deepest nesting allows. -/
theorem length_le_of_bounded {stack : List Frame} (bounded : Bounded stack) :
    stack.length ≤ maxDepth := by
  cases stack with
  | nil => exact Nat.zero_le _
  | cons frame rest => exact bounded.1

/-- Any token that is a value or starts one keeps the reader within its bounds. -/
theorem within_valueStep {stack : List Frame} {t : Token} {r : Reader} (bounded : Bounded stack)
    (done : valueStep stack t = some r) : r.Within := by
  have hRoom := length_le_of_bounded bounded
  cases t with
  | null | bool | int | float | text => exact within_complete bounded (by simpa [depth]) done
  | openArray | openObject => exact within_enter bounded rfl done
  | closeArray | closeObject | comma | colon => cases done

/-- A token where a name is expected opens no frame. -/
theorem within_nameStep {stack : List Frame} {t : Token} {r : Reader} (bounded : Bounded stack)
    (done : nameStep stack t = some r) : r.Within := by
  cases t with
  | text s =>
    match stack, bounded, done with
    | .object members :: rest, bounded, done =>
      obtain rfl := Option.some.inj done
      exact ⟨bounded, nofun⟩
  | null | bool | int | float | openArray | openObject | closeArray | closeObject | comma | colon =>
    cases done

variable {policy : List (String × Json Float) → List (String × Json Float)}

/-- Closing a frame hands its value to the one around it, where it is one level higher up. -/
theorem within_close (kept : ∀ members, ∀ m ∈ policy members, ∃ m' ∈ members, m'.2 = m.2)
    {stack : List Frame} {t : Token} {r : Reader} (bounded : Bounded stack)
    (done : close policy stack t = some r) : r.Within := by
  match stack, t, bounded, done with
  | .array items :: rest, .closeArray, ⟨hOpen, hItems, hRest⟩, done =>
    obtain ⟨room, hRoom⟩ := Nat.exists_eq_add_of_lt hOpen
    have hDepth : (array items.reverse).depth ≤ room + 1 := depth_array_le.mpr fun j hj => by
      have := hItems j (List.mem_reverse.mp hj)
      omega
    exact within_complete hRest (by omega) done
  | .object members :: rest, .closeObject, ⟨hOpen, hMembers, hRest⟩, done =>
    obtain ⟨room, hRoom⟩ := Nat.exists_eq_add_of_lt hOpen
    have hDepth : (object (policy members.reverse)).depth ≤ room + 1 :=
      depth_object_le.mpr fun m hm => by
        obtain ⟨m', hm', hSame⟩ := kept _ m hm
        have := hMembers m'.2 (List.mem_map_of_mem (List.mem_reverse.mp hm'))
        rw [← hSame]
        omega
    exact within_complete hRest (by omega) done

/-- **Step.** One token keeps a reader within its bounds. -/
theorem within_step (kept : ∀ members, ∀ m ∈ policy members, ∃ m' ∈ members, m'.2 = m.2)
    {r r' : Reader} {t : Token} (within : r.Within) (done : step policy r t = some r') :
    r'.Within := by
  obtain ⟨hOpened, hShallow⟩ := within
  rw [step.eq_def] at done
  split at done
  · exact within_valueStep hOpened done
  · rcases Option.or_eq_some_iff.mp done with hClose | ⟨-, hValue⟩
    · exact within_close kept hOpened hClose
    · exact within_valueStep hOpened hValue
  · rcases Option.or_eq_some_iff.mp done with hClose | ⟨-, hName⟩
    · exact within_close kept hOpened hClose
    · exact within_nameStep hOpened hName
  · exact within_nameStep hOpened done
  · split at done
    · exact Option.some.inj done ▸ ⟨hOpened, hShallow⟩
    · cases done
  · split at done
    · exact Option.some.inj done ▸ ⟨hOpened, hShallow⟩
    · exact Option.some.inj done ▸ ⟨hOpened, hShallow⟩
    · exact within_close kept hOpened done
  · cases done

/-- The reader stays within its bounds over any tokens, which is why no value that was read nests
deeper than it could be written. -/
theorem within_foldlM (kept : ∀ members, ∀ m ∈ policy members, ∃ m' ∈ members, m'.2 = m.2)
    {ts : List Token} {r r' : Reader} (within : r.Within)
    (done : ts.foldlM (step policy) r = some r') : r'.Within := by
  induction ts generalizing r with
  | nil => exact Option.some.inj done ▸ within
  | cons t ts ih =>
    rw [List.foldlM_cons] at done
    obtain ⟨next, hStep, hRest⟩ := Option.bind_eq_some_iff.mp done
    exact ih (within_step kept within hStep) hRest

end Reader

/-- **Depth.** No text is read as a tree that is too deep, whatever becomes of members with one
name. -/
theorem depth_le_of_readWith? {policy : List (String × Json Float) → List (String × Json Float)}
    (kept : ∀ members, ∀ m ∈ policy members, ∃ m' ∈ members, m'.2 = m.2) {text : String}
    {j : Json Float} (read : readWith? policy text = some j) : j.depth ≤ maxDepth := by
  obtain ⟨ts, -, hRest⟩ := Option.bind_eq_some_iff.mp read
  obtain ⟨last, hFold, hResult⟩ := Option.bind_eq_some_iff.mp hRest
  have hStart : Reader.start.Within := ⟨trivial, nofun⟩
  exact (Reader.within_foldlM kept hStart hFold).shallow j hResult

end FleetMetrics.Json
