import Mathlib
import FleetMetrics.Proofs.Binary64.Whole
import FleetMetrics.Proofs.Message.Values

/-!
# The language of predicates

Requests, commands and answers all carry predicates as JSON values, and whoever receives one reads
it with the same function. The reader is a pair of recursions that give up at the first thing they
dislike, so what they accept is nowhere written down. `SpelledBy` writes it down: the grammar of
expressions, with its eight words in full, and which expression a value spells. The reader accepts
what the grammar derives, as what it derives, and nothing else (`Expression.ofJson_eq_ok_iff`,
`Predicate.ofJson_eq_ok_iff`). The trivial predicate has two spellings, and only at the top; a
combination without parts has one at every level, although no metric takes it.

Writing can lose a predicate in one way alone, by a literal that is not finite. It is written as
null, which no comparison takes (`Expression.ofJson_toJson_of_not_finite`). A value as a text can
hold it has no such literal: its whole numbers have at most 64 bits and convert to finite numbers,
and its other numbers are finite (`Json.Proper`). So what was read from it is written in a form
that is read as the same and written the same way again.

Main results:

* `Expression.ofJson_eq_ok_iff` — which expression is read, by the grammar.
* `Predicate.ofJson_toJson_of_finite`, `Predicate.ofJson_toJson_of_not_finite` — a predicate is read
  as it was written if its literals are finite, and refused otherwise.
* `Predicate.json_format` — what is accepted, what comes back, what does not, and that writing what
  was read is final.
-/

namespace FleetMetrics

variable {N : Type}

/-! ## The grammar -/

/-- The words for the connectives. -/
def Connective.words : List (String × Connective) :=
  [("and", .all), ("or", .any)]

/-- The words for the comparisons. -/
def Comparison.words : List (String × Comparison) :=
  [("eq", .eq), ("ne", .ne), ("lt", .lt), ("le", .le), ("gt", .gt), ("ge", .ge)]

section Grammar

variable [Arithmetic N]

/-- A literal is spelled by a number, which is converted, or by a text. -/
inductive FieldValue.SpelledBy : FieldValue N → Json N → Prop
  | whole (i : Int) : SpelledBy (.number (Arithmetic.ofInt i)) (.int i)
  | number (x : N) : SpelledBy (.number x) (.float x)
  | text (s : String) : SpelledBy (.text s) (.string s)

/-- An expression is spelled by an object with one member: the word for a connective with an array
of spelled expressions, or the word for a comparison with an array of a name and a literal. -/
inductive Expression.SpelledBy : Expression N → Json N → Prop
  | join {word : String} {c : Connective} {parts : List (Expression N)} {items : List (Json N)}
      (named : (word, c) ∈ Connective.words) (each : List.Forall₂ SpelledBy parts items) :
      SpelledBy (.join c parts) (.object [(word, .array items)])
  | compare {word : String} {c : Comparison} {field : String} {v : FieldValue N} {literal : Json N}
      (named : (word, c) ∈ Comparison.words) (spelled : v.SpelledBy literal) :
      SpelledBy (.compare c field v) (.object [(word, .array [.string field, literal])])

/-- A predicate is spelled by an expression; the trivial one by null or by the empty object. -/
inductive Predicate.SpelledBy : Predicate N → Json N → Prop
  | null : SpelledBy Predicate.trivial .null
  | empty : SpelledBy Predicate.trivial (.object [])
  | expression {e : Expression N} {j : Json N} (spelled : e.SpelledBy j) : SpelledBy ⟨some e⟩ j

/-- Read a predicate and write it again. -/
def Predicate.reencode (j : Json N) : Except (PredicateError N) (Json N) :=
  (Predicate.ofJson j).map Predicate.toJson

end Grammar

/-- A value as a text can hold it: whole numbers have at most 64 bits, others are finite. -/
inductive Json.Proper : Json Float → Prop
  | null : Proper .null
  | bool (b : Bool) : Proper (.bool b)
  | int {i : Int} (low : -Width.capacity 63 ≤ i) (high : i < Width.capacity 64) : Proper (.int i)
  | float {x : Float} (finite : x.isFinite = true) : Proper (.float x)
  | string (s : String) : Proper (.string s)
  | array {items : List (Json Float)} (each : ∀ j ∈ items, Proper j) : Proper (.array items)
  | object {members : List (String × Json Float)} (each : ∀ m ∈ members, Proper m.2) :
      Proper (.object members)

/-! ## Words -/

theorem Comparison.mem_words {word : String} {c : Comparison} :
    (word, c) ∈ Comparison.words ↔ word = c.name := by
  cases c <;> simp [words, name]

/-- A word stands for a comparison if the list of words says so. -/
theorem Comparison.ofName?_eq_some_iff {word : String} {c : Comparison} :
    Comparison.ofName? word = some c ↔ (word, c) ∈ Comparison.words := by
  rw [mem_words]
  constructor
  · intro h
    have hName : c.name = word := by simpa using List.find?_some h
    exact hName.symm
  · rintro rfl
    exact ofName?_name c

theorem Connective.mem_words {word : String} {c : Connective} :
    (word, c) ∈ Connective.words ↔ word = c.name := by
  cases c <;> simp [words, name]

namespace Expression

/-- A word stands for a connective if the list of words says so. -/
theorem connective?_eq_some_iff {word : String} {c : Connective} :
    connective? word = some c ↔ (word, c) ∈ Connective.words := by
  rw [Connective.mem_words]
  constructor
  · intro h
    have hName : c.name = word := by simpa using List.find?_some h
    exact hName.symm
  · rintro rfl
    exact connective?_name c

/-- The word for a comparison is none for a connective. -/
theorem connective?_of_mem_words {word : String} {c : Comparison}
    (named : (word, c) ∈ Comparison.words) : connective? word = none := by
  obtain rfl := Comparison.mem_words.mp named
  exact connective?_comparison c

end Expression

/-! ## Reading -/

section Reading

variable [Arithmetic N]

/-- A literal is read from exactly the values that spell it. -/
theorem FieldValue.ofJson?_eq_some_iff {j : Json N} {v : FieldValue N} :
    FieldValue.ofJson? j = some v ↔ v.SpelledBy j := by
  constructor
  · intro h
    cases j with
    | int i => exact Option.some.inj h ▸ .whole i
    | float x => exact Option.some.inj h ▸ .number x
    | string s => exact Option.some.inj h ▸ .text s
    | null | bool | array | object => cases h
  · rintro (_ | _ | _) <;> rfl

namespace Expression

/-- Everything that reading accepts: one member that holds an array, and a word that says what the
array is. -/
theorem cases_of_ofJson {j : Json N} {e : Expression N} (read : ofJson j = .ok e) :
    ∃ word items, j = .object [(word, .array items)] ∧
      ((∃ c parts, (word, c) ∈ Connective.words ∧ ofJsonAll items = .ok parts ∧
          e = .join c parts) ∨
        ∃ c field v literal, (word, c) ∈ Comparison.words ∧ items = [.string field, literal] ∧
          v.SpelledBy literal ∧ e = .compare c field v) := by
  obtain ⟨word, items, c, parts, rfl, hNamed, hParts, rfl⟩ |
    ⟨word, field, literal, c, v, rfl, hNamed, hLiteral, rfl⟩ := form_of_ofJson read
  · exact ⟨word, items, rfl, .inl ⟨c, parts, connective?_eq_some_iff.mp hNamed, hParts, rfl⟩⟩
  · exact ⟨word, _, rfl, .inr ⟨c, field, v, literal, Comparison.ofName?_eq_some_iff.mp hNamed, rfl,
      FieldValue.ofJson?_eq_some_iff.mp hLiteral, rfl⟩⟩

/-- Several expressions are read one after the other. -/
theorem ofJsonAll_cons_eq_ok_iff {j : Json N} {items : List (Json N)} {es : List (Expression N)} :
    ofJsonAll (j :: items) = .ok es ↔
      ∃ e rest, ofJson j = .ok e ∧ ofJsonAll items = .ok rest ∧ es = e :: rest := by
  rw [ofJsonAll]
  cases hFirst : ofJson j with
  | error fault => simp [bind, Except.bind]
  | ok e =>
    cases hRest : ofJsonAll items with
    | error fault => simp [bind, Except.bind]
    | ok rest => simp [bind, Except.bind, eq_comm]

mutual

/-- **Expressions.** A JSON value is read as an expression if and only if it spells the expression
by the grammar. -/
theorem ofJson_eq_ok_iff : ∀ {e : Expression N} {j : Json N}, ofJson j = .ok e ↔ e.SpelledBy j
  | .join c parts, j => by
    constructor
    · intro read
      obtain ⟨word, items, rfl, hCases⟩ := cases_of_ofJson read
      obtain ⟨c, parts, hNamed, hParts, hJoin⟩ | ⟨_, _, _, _, _, _, _, hOther⟩ := hCases
      · obtain ⟨rfl, rfl⟩ := Expression.join.inj hJoin
        exact .join hNamed (ofJsonAll_eq_ok_iff.mp hParts)
      · cases hOther
    · intro spelled
      cases spelled with
      | join hNamed hEach =>
        rw [ofJson, connective?_eq_some_iff.mpr hNamed, ofJsonAll_eq_ok_iff.mpr hEach]
        rfl
  | .compare c field v, j => by
    constructor
    · intro read
      obtain ⟨word, items, rfl, ⟨_, _, _, _, hOther⟩ |
        ⟨c, field, v, literal, hNamed, rfl, hLiteral, hCompare⟩⟩ := cases_of_ofJson read
      · cases hOther
      · obtain ⟨rfl, rfl, rfl⟩ := Expression.compare.inj hCompare
        exact .compare hNamed hLiteral
    · intro spelled
      cases spelled with
      | @compare word _ _ _ literal hNamed hLiteral =>
        have hRead : ofJson (.object [(word, .array [.string field, literal])]) =
            comparisonOfJson c (.array [.string field, literal]) := by
          rw [ofJson, connective?_of_mem_words hNamed, Comparison.ofName?_eq_some_iff.mpr hNamed]
        rw [hRead, comparisonOfJson, FieldValue.ofJson?_eq_some_iff.mpr hLiteral]

/-- A list of expressions is read from exactly the lists that spell them, one by one. -/
theorem ofJsonAll_eq_ok_iff : ∀ {es : List (Expression N)} {items : List (Json N)},
    ofJsonAll items = .ok es ↔ List.Forall₂ SpelledBy es items
  | [], items => by
    rw [List.forall₂_nil_left_iff]
    cases items with
    | nil => exact iff_of_true rfl rfl
    | cons j rest => simp [ofJsonAll_cons_eq_ok_iff]
  | e :: es, items => by
    rw [List.forall₂_cons_left_iff]
    cases items with
    | nil => simp [ofJsonAll]
    | cons j rest =>
      rw [ofJsonAll_cons_eq_ok_iff]
      constructor
      · rintro ⟨e, es, hFirst, hRest, hList⟩
        obtain ⟨rfl, rfl⟩ := List.cons.inj hList
        exact ⟨j, rest, ofJson_eq_ok_iff.mp hFirst, ofJsonAll_eq_ok_iff.mp hRest, rfl⟩
      · rintro ⟨_, _, hFirst, hRest, hList⟩
        obtain ⟨rfl, rfl⟩ := List.cons.inj hList
        exact ⟨e, es, ofJson_eq_ok_iff.mpr hFirst, ofJsonAll_eq_ok_iff.mpr hRest, rfl⟩

end

/-- What an expression is read from is neither of the spellings of the trivial predicate. -/
theorem ofJson_of_spelledBy {e : Expression N} {j : Json N} (spelled : e.SpelledBy j) :
    Predicate.ofJson j = (ofJson j).map fun e => ⟨some e⟩ := by
  cases spelled <;> rfl

end Expression

namespace Predicate

/-- **Predicates.** A JSON value is read as a predicate if and only if it spells it. -/
theorem ofJson_eq_ok_iff {p : Predicate N} {j : Json N} :
    Predicate.ofJson j = .ok p ↔ p.SpelledBy j := by
  constructor
  · intro read
    unfold Predicate.ofJson at read
    split at read
    · exact Except.ok.inj read ▸ .null
    · exact Except.ok.inj read ▸ .empty
    · cases hRead : Expression.ofJson j with
      | ok e =>
        rw [hRead] at read
        exact Except.ok.inj read ▸ .expression (Expression.ofJson_eq_ok_iff.mp hRead)
      | error fault =>
        rw [hRead] at read
        cases read
  · rintro (_ | _ | hSpelled)
    · rfl
    · rfl
    · rw [Expression.ofJson_of_spelledBy hSpelled, Expression.ofJson_eq_ok_iff.mpr hSpelled]
      rfl

end Predicate

/-! ## Writing -/

namespace Expression

/-- An expression with finite literals is read as it was written. -/
theorem ofJson_toJson_of_finite {e : Expression N} (finite : allFinite e.numbers = true) :
    ofJson e.toJson = .ok e := by
  have hRead := ofJson_toJson e
  rw [if_pos finite] at hRead
  cases hJson : ofJson e.toJson with
  | ok e' =>
    rw [hJson] at hRead
    exact congrArg Except.ok (Option.some.inj hRead)
  | error fault =>
    rw [hJson] at hRead
    cases hRead

mutual

/-- A literal that is not finite is written as null, which the reader refuses. -/
theorem ofJson_toJson_of_not_finite : ∀ {e : Expression N}, allFinite e.numbers = false →
    ∃ c, ofJson e.toJson = .error (.badLiteral c .null)
  | .join c parts, notFinite => by
    obtain ⟨c', hParts⟩ := ofJsonAll_toJsonAll_of_not_finite notFinite
    refine ⟨c', ?_⟩
    rw [toJson, ofJson, connective?_name]
    change (ofJsonAll (toJsonAll parts)).map (join c) = _
    rw [hParts]
    rfl
  | .compare c field v, notFinite => by
    have hRead : ofJson (toJson (.compare c field v)) =
        comparisonOfJson c (.array [.string field, v.toJson]) := by
      rw [toJson, ofJson, connective?_comparison, Comparison.ofName?_name]
    have hLiteral : v.toJson = .null := by
      cases v with
      | number x =>
        have hNumber : Arithmetic.isFinite x = false := by
          simpa [numbers, FieldValue.numbers, allFinite] using notFinite
        rw [FieldValue.toJson, hNumber]
        rfl
      | text s => cases notFinite
    refine ⟨c, ?_⟩
    rw [hRead, hLiteral]
    rfl

/-- If a number in one of the parts is not finite the parts are rejected, for a null in the place of
a literal. -/
theorem ofJsonAll_toJsonAll_of_not_finite : ∀ {es : List (Expression N)},
    allFinite (numbersAll es) = false →
    ∃ c, ofJsonAll (toJsonAll es) = .error (.badLiteral c .null)
  | [], notFinite => by cases notFinite
  | e :: rest, notFinite => by
    rw [toJsonAll, ofJsonAll]
    cases hFirst : allFinite e.numbers with
    | false =>
      obtain ⟨c, hRead⟩ := ofJson_toJson_of_not_finite hFirst
      refine ⟨c, ?_⟩
      rw [hRead]
      rfl
    | true =>
      rw [numbersAll, allFinite_append, hFirst, Bool.true_and] at notFinite
      obtain ⟨c, hRest⟩ := ofJsonAll_toJsonAll_of_not_finite notFinite
      refine ⟨c, ?_⟩
      rw [ofJson_toJson_of_finite hFirst, hRest]
      rfl

end

end Expression

namespace Predicate

/-- A predicate with an expression is written and read as that expression is. -/
theorem ofJson_toJson_some (e : Expression N) :
    Predicate.ofJson (Predicate.toJson ⟨some e⟩) =
      (Expression.ofJson e.toJson).map fun e => (⟨some e⟩ : Predicate N) := by
  cases e <;> rfl

/-- With finite numbers a predicate comes back. -/
theorem ofJson_toJson_of_finite {p : Predicate N} (finite : allFinite p.numbers = true) :
    Predicate.ofJson p.toJson = .ok p := by
  obtain ⟨_ | e⟩ := p
  · rfl
  · rw [ofJson_toJson_some, Expression.ofJson_toJson_of_finite finite]
    rfl

/-- Otherwise it does not, and the error says which comparison has no literal. -/
theorem ofJson_toJson_of_not_finite {p : Predicate N} (notFinite : allFinite p.numbers = false) :
    ∃ c, Predicate.ofJson p.toJson = .error (.badLiteral c .null) := by
  obtain ⟨_ | e⟩ := p
  · cases notFinite
  · obtain ⟨c, hRead⟩ := Expression.ofJson_toJson_of_not_finite notFinite
    refine ⟨c, ?_⟩
    rw [ofJson_toJson_some, hRead]
    rfl

end Predicate

end Reading

/-! ## Reading and writing again -/

/-- No proper JSON value spells a number that is not finite. -/
theorem FieldValue.allFinite_of_spelledBy {v : FieldValue Float} {j : Json Float}
    (spelled : v.SpelledBy j) (proper : j.Proper) : allFinite v.numbers = true := by
  rw [allFinite_iff]
  cases spelled with
  | whole i =>
    cases proper with
    | int low high =>
      have hSize : (Width.capacity 63 : Int) ≤ 2 ^ 64 ∧ (Width.capacity 64 : Int) = 2 ^ 64 := by
        decide
      exact List.forall_mem_singleton.mpr
        (Binary64.isFinite_ofInt (by omega) (by omega))
  | number x =>
    cases proper with
    | float finite => exact List.forall_mem_singleton.mpr finite
  | text s => exact List.forall_mem_nil _

namespace Expression

mutual

/-- What is read from a proper value has finite literals. -/
theorem allFinite_of_spelledBy : ∀ {e : Expression Float} {j : Json Float}, e.SpelledBy j →
    j.Proper → allFinite e.numbers = true
  | .join c parts, j, spelled, proper => by
    cases spelled with
    | join _ hEach =>
      cases proper with
      | object hMembers =>
        cases List.forall_mem_singleton.mp hMembers with
        | array hItems => exact allFinite_of_spelledByAll hEach hItems
  | .compare c field v, j, spelled, proper => by
    cases spelled with
    | compare _ hLiteral =>
      cases proper with
      | object hMembers =>
        cases List.forall_mem_singleton.mp hMembers with
        | array hItems =>
          exact FieldValue.allFinite_of_spelledBy hLiteral
            (hItems _ (List.mem_cons_of_mem _ List.mem_cons_self))

/-- No proper JSON values spell expressions with a number that is not finite. -/
theorem allFinite_of_spelledByAll : ∀ {es : List (Expression Float)} {items : List (Json Float)},
    List.Forall₂ SpelledBy es items → (∀ j ∈ items, j.Proper) → allFinite (numbersAll es) = true
  | [], _, _, _ => rfl
  | e :: rest, items, spelled, proper => by
    obtain ⟨j, items', hFirst, hRest, rfl⟩ := List.forall₂_cons_left_iff.mp spelled
    obtain ⟨hProper, hProperRest⟩ := List.forall_mem_cons.mp proper
    rw [numbersAll, allFinite_append, allFinite_of_spelledBy hFirst hProper,
      allFinite_of_spelledByAll hRest hProperRest]
    rfl

end

end Expression

namespace Predicate

/-- Every number in a predicate that was read is finite. -/
theorem allFinite_of_spelledBy {p : Predicate Float} {j : Json Float} (spelled : p.SpelledBy j)
    (proper : j.Proper) : allFinite p.numbers = true := by
  cases spelled with
  | null | empty => rfl
  | expression hSpelled => exact Expression.allFinite_of_spelledBy hSpelled proper

/-- **The predicate format.** A JSON value is accepted if and only if it is null, the empty object
or an expression of the grammar, and is read as what it spells. A predicate is read as it was
written if its literals are finite; otherwise what was written is refused. Of what was read from a
proper value, writing is final: the form that is written is accepted, is read as the same
predicate, and is written as itself. -/
theorem json_format :
    (∀ j : Json Float, (∃ p, Predicate.ofJson j = .ok p) ↔
      j = .null ∨ j = .object [] ∨ ∃ e, Expression.SpelledBy e j) ∧
    (∀ (j : Json Float) (p : Predicate Float), Predicate.ofJson j = .ok p ↔ p.SpelledBy j) ∧
    (∀ p : Predicate Float, (∀ x ∈ p.numbers, x.isFinite = true) →
      Predicate.ofJson p.toJson = .ok p) ∧
    (∀ p : Predicate Float, (∃ x ∈ p.numbers, x.isFinite = false) →
      ∃ c, Predicate.ofJson p.toJson = .error (.badLiteral c .null)) ∧
    ∀ j : Json Float, j.Proper → ∀ p, Predicate.ofJson j = .ok p →
      Predicate.reencode j = .ok p.toJson ∧ Predicate.ofJson p.toJson = .ok p ∧
        Predicate.reencode p.toJson = .ok p.toJson := by
  refine ⟨fun j => ?_, fun j p => ofJson_eq_ok_iff, fun p finite => ?_, fun p notFinite => ?_,
    fun j proper p read => ?_⟩
  · constructor
    · rintro ⟨p, read⟩
      cases ofJson_eq_ok_iff.mp read with
      | null => exact .inl rfl
      | empty => exact .inr (.inl rfl)
      | expression hSpelled => exact .inr (.inr ⟨_, hSpelled⟩)
    · rintro (rfl | rfl | ⟨e, hSpelled⟩)
      · exact ⟨_, rfl⟩
      · exact ⟨_, rfl⟩
      · exact ⟨_, ofJson_eq_ok_iff.mpr (.expression hSpelled)⟩
  · exact ofJson_toJson_of_finite (allFinite_iff.mpr finite)
  · obtain ⟨x, hx, hNumber⟩ := notFinite
    refine ofJson_toJson_of_not_finite (Bool.eq_false_iff.mpr fun hAll => ?_)
    have hFinite : x.isFinite = true := allFinite_iff.mp hAll x hx
    rw [hNumber] at hFinite
    cases hFinite
  -- what was read has only finite numbers, so what is written of it is read again
  · have hAgain := ofJson_toJson_of_finite
      (allFinite_of_spelledBy (ofJson_eq_ok_iff.mp read) proper)
    refine ⟨?_, hAgain, ?_⟩
    · rw [reencode, read]
      rfl
    · rw [reencode, hAgain]
      rfl

/-- A comparison with a whole number, one with a text, and a combination without parts. -/
def briefSpelling : Json Float :=
  .object [("or", .array [.object [("eq", .array [.string "cpu", .int 0])],
    .object [("le", .array [.string "disk", .string "sd3"])], .object [("and", .array [])]])]

def briefPredicate : Predicate Float :=
  ⟨some (.join .any [.compare .eq "cpu" (.number (Float.ofInt 0)),
    .compare .le "disk" (.text "sd3"), .join .all []])⟩

/-- A comparison that no text can carry. -/
def briefUnbounded : Predicate Float :=
  ⟨some (.compare .lt "cpu" (.number (1.0 / 0.0)))⟩

/-- A predicate with both connectives comes back from a spelling of it; one with an infinite literal
is rejected. -/
theorem json_format_brief :
    Predicate.ofJson briefSpelling = .ok briefPredicate ∧
      Predicate.reencode briefPredicate.toJson = .ok briefPredicate.toJson ∧
      ∃ c, Predicate.ofJson briefUnbounded.toJson = .error (.badLiteral c .null) := by
  have hSpelled : briefPredicate.SpelledBy briefSpelling := by
    refine .expression (.join (by decide) ?_)
    refine .cons (.compare (by simp [Comparison.words]) (.whole 0)) ?_
    refine .cons (.compare (by simp [Comparison.words]) (.text "sd3")) ?_
    exact .cons (.join (by decide) .nil) .nil
  have hProper : briefSpelling.Proper := by
    refine .object (List.forall_mem_singleton.mpr (.array ?_))
    simp only [List.forall_mem_cons]
    refine ⟨.object (List.forall_mem_singleton.mpr (.array ?_)),
      .object (List.forall_mem_singleton.mpr (.array ?_)),
      .object (List.forall_mem_singleton.mpr (.array (List.forall_mem_nil _))),
      List.forall_mem_nil _⟩
    · simp only [List.forall_mem_cons]
      exact ⟨.string _, .int (by decide) (by decide), List.forall_mem_nil _⟩
    · simp only [List.forall_mem_cons]
      exact ⟨.string _, .string _, List.forall_mem_nil _⟩
  have hRead := (json_format.2.1 briefSpelling briefPredicate).mpr hSpelled
  exact ⟨hRead, (json_format.2.2.2.2 briefSpelling hProper briefPredicate hRead).2.2,
    json_format.2.2.2.1 briefUnbounded ⟨_, List.mem_cons_self, by decide +kernel⟩⟩

end Predicate

end FleetMetrics
