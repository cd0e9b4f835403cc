import Mathlib
import FleetMetrics.Message.Value
import FleetMetrics.Predicate.Format
import FleetMetrics.Proofs.Binary64
import FleetMetrics.Proofs.Json.Text
import FleetMetrics.Proofs.Merging

/-!
# Predicates and values on the wire

Two kinds of data carry numbers: the literals of predicates, and reduced values. A number that is
not finite is written as null, and no reader takes a null for a number, so a single such number
anywhere makes the whole unreadable. Everything else comes through, with one change: a distribution
is put together from its buckets again, so each weight is what it adds to no weight.

A value has three forms and no mark that says which it is. They stay apart because a scalar is the
only one that is neither an array nor an object, and because a bucket, unlike an entry of a
breakdown, stands in an array.

Main results:

* `Predicate.ofJson?_toJson`, `ReducedValue.ofJson?_toJson` — what is written is read as what it
  was, or as nothing when a number in it is not finite.
* `Predicate.depth_toJson`, `ReducedValue.depth_toJson` — what was read is written no deeper.
* `ReducedValue.inOrder_ofJson?` — what was read is in order, in whatever order it came.
* `ReducedValue.received_beq` — the value that arrives equals the one that was sent.
-/

namespace FleetMetrics

variable {N : Type}

/-! ## The numbers in it -/

/-- The number that a literal is. -/
def FieldValue.numbers : FieldValue N → List N
  | .number x => [x]
  | .text _ => []

namespace Expression

mutual

/-- The numbers that an expression compares with. -/
def numbers : Expression N → List N
  | .join _ parts => numbersAll parts
  | .compare _ _ literal => literal.numbers

/-- The numbers that some expressions compare with. -/
def numbersAll : List (Expression N) → List N
  | [] => []
  | e :: rest => numbers e ++ numbersAll rest

end

end Expression

/-- The numbers that a predicate compares with. -/
def Predicate.numbers (p : Predicate N) : List N :=
  match p.expression with
  | some e => e.numbers
  | none => []

/-- The bounds and the weight of a bucket. -/
def Bucket.numbers (b : Bucket N) : List N :=
  [b.min, b.max, b.weight]

/-- The bounds and the weights of a distribution. -/
def Distribution.numbers (d : Distribution N) : List N :=
  d.buckets.flatMap Bucket.numbers

namespace ReducedValue

mutual

/-- The numbers in a value. -/
def numbers : ReducedValue N → List N
  | .scalar x => [x]
  | .distribution d => d.numbers
  | .discrete groups => numbersIn groups

/-- The numbers in the entries of a breakdown. -/
def numbersIn : List (String × ReducedValue N) → List N
  | [] => []
  | (_, v) :: rest => numbers v ++ numbersIn rest

end

end ReducedValue

variable [Arithmetic N]

/-- Are some numbers all finite? -/
def allFinite (xs : List N) : Bool :=
  xs.all Arithmetic.isFinite

theorem allFinite_iff {xs : List N} :
    allFinite xs = true ↔ ∀ x ∈ xs, Arithmetic.isFinite x = true :=
  List.all_eq_true

theorem allFinite_append (xs ys : List N) : allFinite (xs ++ ys) = (allFinite xs && allFinite ys) :=
  List.all_append

/-- Each finite number among some can be told from its text. -/
def LegibleNumbers (xs : List Float) : Prop :=
  ∀ x ∈ xs, x.isFinite = true → Json.LegibleNumber x

/-- A number of two lists is one of either. -/
theorem legibleNumbers_append {xs ys : List Float} :
    LegibleNumbers (xs ++ ys) ↔ LegibleNumbers xs ∧ LegibleNumbers ys :=
  List.forall_mem_append

/-! ## Predicates -/

/-- A literal comes back from its JSON value, unless it is a number that is not finite: that is
written as null, and null is no literal. -/
theorem FieldValue.ofJson?_toJson (v : FieldValue N) :
    FieldValue.ofJson? v.toJson = if allFinite v.numbers then some v else none := by
  cases v with
  | number x =>
    rw [toJson]
    cases hx : Arithmetic.isFinite x <;> simp [ofJson?, numbers, allFinite, hx]
  | text s => rfl

/-- Each comparison has a name of its own. -/
theorem Comparison.ofName?_name (c : Comparison) : Comparison.ofName? c.name = some c := by
  cases c <;> decide

namespace Expression

theorem connective?_name (c : Connective) : connective? c.name = some c := by
  cases c <;> decide

/-- No comparison is called like a connective, so an expression says by its one name of which kind
it is. -/
theorem connective?_comparison (c : Comparison) : connective? c.name = none := by
  cases c <;> decide

/-- Which error it is does not matter to a round trip, so reading is followed through `toOption`. -/
theorem toOption_map {ε α β : Type} (f : α → β) (x : Except ε α) :
    (x.map f).toOption = x.toOption.map f := by
  cases x <;> rfl

theorem toOption_bind {ε α β : Type} (x : Except ε α) (f : α → Except ε β) :
    (x >>= f).toOption = x.toOption.bind fun a => (f a).toOption := by
  cases x <;> rfl

mutual

/-- Every object in the form of an expression has one member, so nothing is put in order. -/
theorem sorted_toJson : ∀ e : Expression N, e.toJson.sorted = e.toJson
  | .join c parts => by
    rw [toJson, Json.sorted_object, List.map_cons, List.map_nil, Json.sorted_array,
      sorted_toJsonAll]
    rfl
  | .compare c field literal => by
    have hLiteral : literal.toJson.sorted = literal.toJson := by
      cases literal with
      | number x =>
        rw [FieldValue.toJson]
        split <;> rfl
      | text s => rfl
    rw [toJson, Json.sorted_object, List.map_cons, List.map_nil, Json.sorted_array, List.map_cons,
      List.map_cons, List.map_nil, hLiteral]
    rfl

/-- The parts of a compound expression, which are as deep as the expression allows. -/
theorem sorted_toJsonAll : ∀ es : List (Expression N),
    (toJsonAll es).map Json.sorted = toJsonAll es
  | [] => rfl
  | e :: rest => by rw [toJsonAll, List.map_cons, sorted_toJson e, sorted_toJsonAll rest]

end

mutual

/-- An expression is read as it was written, unless a literal is not finite. -/
theorem ofJson_toJson : ∀ e : Expression N,
    (ofJson e.toJson).toOption = if allFinite e.numbers then some e else none
  | .join c parts => by
    have hParts := ofJsonAll_toJsonAll parts
    rw [toJson, ofJson, connective?_name, numbers]
    change ((ofJsonAll (toJsonAll parts)).map (join c)).toOption = _
    rw [toOption_map, hParts]
    cases allFinite (numbersAll parts) <;> rfl
  | .compare c field literal => by
    have hLiteral := FieldValue.ofJson?_toJson literal
    have hRead : ofJson (toJson (.compare c field literal)) =
        comparisonOfJson c (.array [.string field, literal.toJson]) := by
      rw [toJson, ofJson, connective?_comparison, Comparison.ofName?_name]
    rw [hRead, comparisonOfJson, hLiteral, numbers]
    cases allFinite literal.numbers <;> rfl

/-- The parts of a compound expression come back together, or not at all. -/
theorem ofJsonAll_toJsonAll : ∀ es : List (Expression N),
    (ofJsonAll (toJsonAll es)).toOption = if allFinite (numbersAll es) then some es else none
  | [] => rfl
  | e :: rest => by
    have hFirst := ofJson_toJson e
    have hRest := ofJsonAll_toJsonAll rest
    rw [toJsonAll, ofJsonAll, numbersAll, allFinite_append, toOption_bind, hFirst]
    cases allFinite e.numbers with
    | false => rfl
    | true =>
      change ((ofJsonAll (toJsonAll rest)) >>= fun es => Except.ok (e :: es)).toOption = _
      rw [toOption_bind, hRest]
      cases allFinite (numbersAll rest) <;> rfl

end

/-- Only a pair of a field and a literal is read as a comparison. -/
theorem form_of_comparisonOfJson {c : Comparison} {j : Json N} {e : Expression N}
    (read : comparisonOfJson c j = .ok e) :
    ∃ field literal v, j = .array [.string field, literal] ∧
      FieldValue.ofJson? literal = some v ∧ e = .compare c field v := by
  unfold comparisonOfJson at read
  split at read
  · next literal =>
    split at read
    · next field =>
      split at read
      · next v hv => exact ⟨field, literal, v, rfl, hv, (Except.ok.inj read).symm⟩
      · cases read
    · cases read
  · cases read

/-- What is read as an expression: a connective with an array of expressions, or a comparison with
an array of a name and a literal. The word of the one member says which. -/
theorem form_of_ofJson {j : Json N} {e : Expression N} (read : ofJson j = .ok e) :
    (∃ word items c parts, j = .object [(word, .array items)] ∧ connective? word = some c ∧
        ofJsonAll items = .ok parts ∧ e = .join c parts) ∨
      ∃ word field literal c v, j = .object [(word, .array [.string field, literal])] ∧
        Comparison.ofName? word = some c ∧ FieldValue.ofJson? literal = some v ∧
        e = .compare c field v := by
  unfold ofJson at read
  split at read
  · next word items =>
    split at read
    · next c hConnective =>
      cases hParts : ofJsonAll items with
      | ok parts =>
        rw [hParts] at read
        exact .inl ⟨word, items, c, parts, rfl, hConnective, hParts, (Except.ok.inj read).symm⟩
      | error fault =>
        rw [hParts] at read
        cases read
    · split at read
      · next c hComparison =>
        obtain ⟨field, literal, v, hPair, hLiteral, hCompare⟩ := form_of_comparisonOfJson read
        exact .inr ⟨word, field, literal, c, v, by rw [hPair], hComparison, hLiteral, hCompare⟩
      · cases read
  -- nothing else is an expression; what remains says why not
  · split at read
    · cases read
    · split at read
      · cases read
      · cases read
  · cases read
  · cases read

/-- A literal is neither a list nor an object, so it does not nest. -/
theorem depth_literal (v : FieldValue N) : v.toJson.depth = 0 := by
  cases v with
  | number x =>
    rw [FieldValue.toJson]
    split <;> rfl
  | text s => rfl

mutual

/-- An expression is written no deeper than what it was read from. -/
theorem depth_toJson : ∀ {e : Expression N} {j : Json N}, ofJson j = .ok e →
    e.toJson.depth ≤ j.depth
  | .join c parts, j, read => by
    obtain ⟨name, items, c', parts', rfl, -, hParts, hJoin⟩ |
      ⟨_, _, _, _, _, _, _, _, hCompare⟩ := form_of_ofJson read
    · obtain ⟨rfl, rfl⟩ := Expression.join.inj hJoin
      have hItems := depth_toJsonAll hParts
      simp only [toJson, Json.depth, Json.depthMembers]
      omega
    · cases hCompare
  | .compare c field literal, j, read => by
    obtain ⟨_, _, _, _, _, _, _, hJoin⟩ | ⟨name, field', literal', c', v, rfl, -⟩ :=
      form_of_ofJson read
    · cases hJoin
    · simp only [toJson, Json.depth, Json.depthMembers, Json.depthItems, depth_literal]
      omega

/-- What has been read is written with no deeper nesting, part by part. -/
theorem depth_toJsonAll : ∀ {es : List (Expression N)} {items : List (Json N)},
    ofJsonAll items = .ok es → Json.depthItems (toJsonAll es) ≤ Json.depthItems items
  | [], _, _ => Nat.zero_le _
  | e :: rest, items, read => by
    cases items with
    | nil => cases read
    | cons j items =>
      rw [ofJsonAll] at read
      cases hFirst : ofJson j with
      | error fault =>
        rw [hFirst] at read
        cases read
      | ok e' =>
        cases hRest : ofJsonAll items with
        | error fault =>
          rw [hFirst, hRest] at read
          cases read
        | ok es =>
          rw [hFirst, hRest] at read
          obtain ⟨rfl, rfl⟩ := List.cons.inj (Except.ok.inj read)
          exact max_le_max (depth_toJson hFirst) (depth_toJsonAll hRest)

end

mutual

/-- The form of an expression is legible if its finite literals are. -/
theorem legible_toJson : ∀ {e : Expression Float},
    LegibleNumbers e.numbers → e.toJson.Legible
  | .join c parts, legible => by
    have hParts := legible_toJsonAll legible
    rw [toJson, Json.legible_object, List.forall_mem_singleton, Json.legible_array]
    exact hParts
  | .compare c field literal, legible => by
    have hLiteral : literal.toJson.Legible := by
      cases literal with
      | number x =>
        rw [FieldValue.toJson]
        split
        · next hx => exact legible x List.mem_cons_self hx
        · trivial
      | text s => trivial
    rw [toJson, Json.legible_object, List.forall_mem_singleton, Json.legible_array]
    exact List.forall_mem_cons.mpr ⟨trivial, List.forall_mem_singleton.mpr hLiteral⟩

/-- Each part can be told from its text, if the numbers in all of them can. -/
theorem legible_toJsonAll : ∀ {es : List (Expression Float)},
    LegibleNumbers (numbersAll es) → ∀ j ∈ toJsonAll es, j.Legible
  | [], _ => nofun
  | e :: rest, legible => by
    obtain ⟨hFirst, hRest⟩ := legibleNumbers_append.mp legible
    exact List.forall_mem_cons.mpr ⟨legible_toJson hFirst, legible_toJsonAll hRest⟩

end

mutual

/-- Expressions with finite literals equal themselves. -/
theorem beq_self : ∀ {e : Expression Float}, allFinite e.numbers = true → same e e = true
  | .join c parts, finite => by
    have hParts := beqAll_self finite
    rw [same, hParts]
    simp
  | .compare c field literal, finite => by
    have hLiteral : (literal == literal) = true := by
      cases literal with
      | number x => exact Binary64.beq_self (allFinite_iff.mp finite x List.mem_cons_self)
      | text s => exact beq_self_eq_true s
    have hComparison : (c == c) = true := by cases c <;> rfl
    rw [same, hLiteral, hComparison, beq_self_eq_true]
    rfl

/-- Expressions are compared part by part, and a number that is finite equals itself. -/
theorem beqAll_self : ∀ {es : List (Expression Float)}, allFinite (numbersAll es) = true →
    sameAll es es = true
  | [], _ => rfl
  | e :: rest, finite => by
    rw [numbersAll, allFinite_append, Bool.and_eq_true] at finite
    rw [sameAll, beq_self finite.1, beqAll_self finite.2]
    rfl

end

end Expression

namespace Predicate

/-- **Predicates.** A predicate is read as it was written, unless a literal is not finite. -/
theorem ofJson?_toJson (p : Predicate N) :
    Predicate.ofJson? p.toJson.sorted = if allFinite p.numbers then some p else none := by
  obtain ⟨_ | e⟩ := p
  · rfl
  · have hRead := Expression.ofJson_toJson e
    have hSorted := Expression.sorted_toJson e
    have hWhole : Predicate.ofJson e.toJson =
        (Expression.ofJson e.toJson).map fun e => (⟨some e⟩ : Predicate N) := by
      cases e <;> rfl
    change (Predicate.ofJson e.toJson.sorted).toOption = if allFinite e.numbers then _ else _
    rw [hSorted, hWhole, Expression.toOption_map, hRead]
    cases allFinite e.numbers <;> rfl

/-- **Depth.** A predicate is written no deeper than what it was read from. -/
theorem depth_toJson {p : Predicate N} {j : Json N} (read : Predicate.ofJson? j = some p) :
    p.toJson.depth ≤ max 1 j.depth := by
  rw [Predicate.ofJson?, Predicate.ofJson.eq_def] at read
  split at read
  · obtain rfl := Option.some.inj read
    exact le_max_left _ _
  · obtain rfl := Option.some.inj read
    exact le_max_left _ _
  · rw [Expression.toOption_map] at read
    obtain ⟨e, hRead, rfl⟩ := Option.map_eq_some_iff.mp read
    have hExpression : Expression.ofJson j = .ok e := by
      cases hj : Expression.ofJson j with
      | ok e' =>
        rw [hj] at hRead
        exact congrArg _ (Option.some.inj hRead)
      | error fault =>
        rw [hj] at hRead
        cases hRead
    exact (Expression.depth_toJson hExpression).trans (le_max_right _ _)

/-- A predicate adds nothing to its expression that could be misread; the trivial one is an empty
object. -/
theorem legible_toJson {p : Predicate Float} (legible : LegibleNumbers p.numbers) :
    p.toJson.Legible := by
  obtain ⟨_ | e⟩ := p
  · trivial
  · exact Expression.legible_toJson legible

/-- A predicate equals itself as long as no number in it is NaN, for which finite numbers are
enough. -/
theorem beq_self {p : Predicate Float} (finite : allFinite p.numbers = true) : (p == p) = true := by
  obtain ⟨_ | e⟩ := p
  · rfl
  · exact Expression.beq_self finite

end Predicate

/-! ## Buckets and distributions -/

theorem Json.sorted_ofNumber (x : N) : (Json.ofNumber x).sorted = Json.ofNumber x := by
  rw [Json.ofNumber]
  split <;> rfl

/-- A number does not nest, nor does the null that stands for one that is not finite. -/
theorem Json.depth_ofNumber (x : N) : (Json.ofNumber x).depth = 0 := by
  rw [Json.ofNumber]
  split <;> rfl

/-- A number comes back exactly if it is finite. -/
theorem Json.number?_ofNumber (x : N) :
    Json.number? (Json.ofNumber x) = if Arithmetic.isFinite x then some x else none := by
  rw [Json.ofNumber]
  split <;> rfl

/-- Null is told from its text in any case, so only a finite number has to be legible. -/
theorem Json.legible_ofNumber {x : Float} (legible : x.isFinite = true → Json.LegibleNumber x) :
    (Json.ofNumber x).Legible := by
  rw [Json.ofNumber]
  split
  · next hx => exact legible hx
  · trivial

/-- A bucket is read as it was written, unless one of its numbers is not finite. -/
theorem Bucket.ofJson?_toJson (b : Bucket N) :
    Bucket.ofJson? b.toJson.sorted = if allFinite b.numbers then some b else none := by
  rw [toJson, ofJson?, Json.fields?_sorted (by simp)]
  simp only [List.map_cons, List.map_nil, List.lookup, String.reduceBEq, Option.map_some,
    Json.sorted_ofNumber, Json.required, Json.number?_ofNumber, numbers, allFinite, List.all_cons,
    List.all_nil]
  by_cases hMin : Arithmetic.isFinite b.min = true <;>
    by_cases hMax : Arithmetic.isFinite b.max = true <;>
    by_cases hWeight : Arithmetic.isFinite b.weight = true <;> simp [hMin, hMax, hWeight]

theorem Bucket.depth_toJson (b : Bucket N) : b.toJson.depth = 1 := by
  simp only [toJson, Json.depth, Json.depthMembers, Json.depth_ofNumber, max_self]

/-- A bucket is read from an array or an object. -/
theorem Bucket.pos_depth {b : Bucket N} {j : Json N} (read : Bucket.ofJson? j = some b) :
    0 < j.depth := by
  cases j with
  | array | object =>
    rw [Json.depth]
    exact Nat.succ_pos _
  | null | bool | int | float | string => cases read

/-- The two bounds and the weight are all that has to be legible in a bucket. -/
theorem Bucket.legible_toJson {b : Bucket Float} (legible : LegibleNumbers b.numbers) :
    b.toJson.Legible := by
  rw [toJson, Json.legible_object]
  simp only [LegibleNumbers, numbers, List.forall_mem_cons] at legible ⊢
  exact ⟨Json.legible_ofNumber legible.1, Json.legible_ofNumber legible.2.1,
    Json.legible_ofNumber legible.2.2.1, nofun⟩

/-- An entry above all others is added at the end. -/
theorem Table.alter_of_above {κ β : Type} [Ord κ] {t : Table κ β} {k : κ}
    (above : ∀ e ∈ t, compare k e.1 = .gt) (f : Option β → β) :
    t.alter k f = t ++ [(k, f none)] := by
  induction t with
  | nil => rfl
  | cons e rest ih =>
    obtain ⟨hFirst, hRest⟩ := List.forall_mem_cons.mp above
    rw [alter, hFirst, ih hRest]
    rfl

namespace Distribution

/-- What is put together from the buckets of a distribution: each weight is what it adds to no
weight. -/
def received (d : Distribution N) : Distribution N :=
  ⟨d.table.mapValues fun _ e => (e.1, Arithmetic.zero + e.2)⟩

/-- The buckets of a distribution come in order, so each becomes a bucket of its own. -/
theorem ofBuckets_buckets [Std.TransOrd (Bound N)] {d : Distribution N}
    (ascending : d.table.Ascending) : ofBuckets d.buckets = d.received := by
  have hFold : ∀ front back : Table (Bound N) (N × N), Table.Ascending (front ++ back) →
      (buckets ⟨back⟩).foldl add (received ⟨front⟩) = received ⟨front ++ back⟩ := by
    intro front back ascending
    induction back generalizing front with
    | nil => rw [List.append_nil]; rfl
    | cons e rest ih =>
      have hAbove : ∀ e' ∈ (received ⟨front⟩).table, compare e.1 e'.1 = .gt := by
        intro e' he'
        obtain ⟨e₀, he₀, rfl⟩ := List.mem_map.mp he'
        have hlt := (List.pairwise_append.mp ascending).2.2 e₀ he₀ e List.mem_cons_self
        exact Std.OrientedCmp.gt_of_lt hlt
      have hAdd : (received ⟨front⟩).add ⟨e.1.value, e.2.1, e.2.2⟩ = received ⟨front ++ [e]⟩ := by
        rw [add, Table.alter_of_above hAbove]
        simp [received, Table.mapValues]
      have hRest : front ++ e :: rest = front ++ [e] ++ rest := by simp
      rw [hRest] at ascending ⊢
      rw [← ih _ ascending, ← hAdd]
      rfl
  exact hFold [] d.table ascending

end Distribution

/-! ## Reduced values -/

omit [Arithmetic N] in
/-- Items that are each read as written or not at all. -/
theorem Json.mapM_map_of_reads {α : Type} {read : Json N → Option α} {write : α → Json N}
    {fine : α → Bool} (reads : ∀ x, read (write x) = if fine x then some x else none)
    (xs : List α) : (xs.map write).mapM read = if xs.all fine then some xs else none := by
  induction xs with
  | nil => rfl
  | cons x rest ih =>
    rw [List.map_cons, List.mapM_cons, reads, ih, List.all_cons]
    cases fine x <;> cases rest.all fine <;> rfl

namespace ReducedValue

mutual

/-- The value that arrives when a value is sent. -/
def received : ReducedValue N → ReducedValue N
  | .scalar x => .scalar x
  | .distribution d => .distribution d.received
  | .discrete groups => .discrete (receivedIn groups)

/-- The entries that arrive when a breakdown is sent. -/
def receivedIn : List (String × ReducedValue N) → List (String × ReducedValue N)
  | [] => []
  | (key, v) :: rest => (key, received v) :: receivedIn rest

end

mutual

/-- A value in which every breakdown and every distribution is in order. -/
def InOrder : ReducedValue N → Prop
  | .scalar _ => True
  | .distribution d => d.table.Ascending
  | .discrete groups => Table.Ascending groups ∧ AllInOrder groups

/-- The entries of a breakdown hold values in order. -/
def AllInOrder : List (String × ReducedValue N) → Prop
  | [] => True
  | (_, v) :: rest => InOrder v ∧ AllInOrder rest

end

/-- What arrives of a breakdown is what arrives of each of its entries. -/
theorem receivedIn_eq (groups : List (String × ReducedValue N)) :
    receivedIn groups = groups.map fun g => (g.1, g.2.received) := by
  induction groups with
  | nil => rfl
  | cons g rest ih => rw [receivedIn, ih, List.map_cons]

/-- The members of a breakdown in JSON are its entries, each written for itself. -/
theorem toMembers_eq (groups : List (String × ReducedValue N)) :
    toMembers groups = groups.map fun g => (g.1, g.2.toJson) := by
  induction groups with
  | nil => rfl
  | cons g rest ih => rw [toMembers, ih, List.map_cons]

/-- A breakdown is in order if each of its entries is. -/
theorem allInOrder_iff {groups : List (String × ReducedValue N)} :
    AllInOrder groups ↔ ∀ g ∈ groups, g.2.InOrder := by
  induction groups with
  | nil => simp [AllInOrder]
  | cons g rest ih => rw [AllInOrder, ih, List.forall_mem_cons]

mutual

/-- **Values.** A value in order is read as the one that arrives, unless a number in it is not
finite. -/
theorem ofJson?_toJson [Std.TransOrd (Bound N)] : ∀ {v : ReducedValue N}, v.InOrder →
    ofJson? v.toJson.sorted = if allFinite v.numbers then some v.received else none
  | .scalar x, _ => by
    rw [toJson, Json.sorted_ofNumber, Json.ofNumber, numbers, allFinite, List.all_cons,
      List.all_nil, Bool.and_true]
    cases Arithmetic.isFinite x <;> rfl
  | .distribution d, inOrder => by
    have hBuckets : ((d.buckets.map Bucket.toJson).map Json.sorted).mapM Bucket.ofJson? =
        if d.buckets.all fun b => allFinite b.numbers then some d.buckets else none := by
      rw [List.map_map]
      exact Json.mapM_map_of_reads Bucket.ofJson?_toJson d.buckets
    have hNumbers : allFinite d.numbers = d.buckets.all fun b => allFinite b.numbers :=
      List.all_flatMap
    rw [toJson, Json.sorted_array, ofJson?, hBuckets, numbers, hNumbers, received,
      ← Distribution.ofBuckets_buckets inOrder]
    cases d.buckets.all fun b => allFinite b.numbers <;> rfl
  | .discrete groups, inOrder => by
    have hRead := ofMembers?_toMembers inOrder.2
    have hMembers : Table.Ascending (toMembers groups) := by
      rw [toMembers_eq]
      exact Table.ascending_mapValues inOrder.1 fun _ => toJson
    have hReceived : Table.ofList (receivedIn groups) = receivedIn groups := by
      rw [receivedIn_eq]
      exact Table.ofList_of_ascending (Table.ascending_mapValues inOrder.1 fun _ => received)
    rw [toJson, Json.sorted_object_of_ascending hMembers, ofJson?, hRead, numbers, received]
    cases allFinite (numbersIn groups) with
    | false => rfl
    | true => exact congrArg (fun t => some (discrete t)) hReceived

/-- The entries of a breakdown come back together, or not at all; one infinite bound in one of them
is enough to lose them all. -/
theorem ofMembers?_toMembers [Std.TransOrd (Bound N)] :
    ∀ {groups : List (String × ReducedValue N)}, AllInOrder groups →
      ofMembers? ((toMembers groups).map fun m => (m.1, m.2.sorted)) =
      if allFinite (numbersIn groups) then some (receivedIn groups) else none
  | [], _ => rfl
  | (key, v) :: rest, inOrder => by
    have hFirst := ofJson?_toJson inOrder.1
    have hRest := ofMembers?_toMembers inOrder.2
    rw [toMembers, List.map_cons, ofMembers?, hFirst, hRest, numbersIn, allFinite_append,
      receivedIn]
    cases allFinite v.numbers <;> cases allFinite (numbersIn rest) <;> rfl

end

/-- The entries that are read of an object: the first one, and those of the rest. -/
theorem of_ofMembers?_cons {m : String × Json N} {rest : List (String × Json N)}
    {groups : List (String × ReducedValue N)} (read : ofMembers? (m :: rest) = some groups) :
    ∃ v others, ofJson? m.2 = some v ∧ ofMembers? rest = some others ∧
      groups = (m.1, v) :: others := by
  rw [ofMembers?] at read
  obtain ⟨v, hFirst, read⟩ := Option.bind_eq_some_iff.mp read
  obtain ⟨others, hRest, read⟩ := Option.bind_eq_some_iff.mp read
  exact ⟨v, others, hFirst, hRest, (Option.some.inj read).symm⟩

mutual

/-- What is read is in order, in whatever order it was written. -/
theorem inOrder_ofJson? [Std.TransOrd (Bound N)] :
    ∀ {j : Json N} {v : ReducedValue N}, ofJson? j = some v → v.InOrder
  | .int _, v, read => by
    obtain rfl := Option.some.inj read
    trivial
  | .float _, v, read => by
    obtain rfl := Option.some.inj read
    trivial
  | .array items, v, read => by
    obtain ⟨bs, -, rfl⟩ := Option.map_eq_some_iff.mp read
    exact Distribution.ascending_ofBuckets bs
  | .object members, v, read => by
    rw [ofJson?] at read
    obtain ⟨groups, hGroups, rfl⟩ := Option.map_eq_some_iff.mp read
    have hInOrder := inOrder_ofMembers? hGroups
    refine ⟨Table.ascending_ofList _, allInOrder_iff.mpr fun g hg => ?_⟩
    obtain ⟨g', hg', hSame⟩ := Table.mem_ofList hg
    rw [← hSame]
    exact hInOrder g' hg'
  | .null, _, read | .bool _, _, read | .string _, _, read => nomatch read

/-- Whatever the order on the wire, the buckets of every entry are in order once it has been read.
-/
theorem inOrder_ofMembers? [Std.TransOrd (Bound N)] : ∀ {members : List (String × Json N)}
    {groups : List (String × ReducedValue N)}, ofMembers? members = some groups →
      ∀ g ∈ groups, g.2.InOrder
  | [], groups, read => by
    obtain rfl := Option.some.inj read
    exact nofun
  | _ :: _, groups, read => by
    obtain ⟨v, others, hFirst, hRest, rfl⟩ := of_ofMembers?_cons read
    exact List.forall_mem_cons.mpr ⟨inOrder_ofJson? hFirst, inOrder_ofMembers? hRest⟩

end

mutual

/-- **Depth.** A value is written no deeper than what it was read from. -/
theorem depth_toJson : ∀ {j : Json N} {v : ReducedValue N}, ofJson? j = some v →
    v.toJson.depth ≤ j.depth
  | .int _, v, read | .float _, v, read => by
    obtain rfl := Option.some.inj read
    rw [toJson, Json.depth_ofNumber]
    exact Nat.zero_le _
  | .array items, v, read => by
    rw [ofJson?] at read
    obtain ⟨bs, hBuckets, rfl⟩ := Option.map_eq_some_iff.mp read
    cases items with
    | nil =>
      obtain rfl := Option.some.inj hBuckets
      exact le_rfl
    | cons j rest =>
      -- one bucket is enough for the depth of any number of them
      obtain ⟨b, _, hFirst, -, rfl⟩ :=
        List.forall₂_cons_left_iff.mp (Json.mapM_eq_some_iff.mp hBuckets)
      have hPos := Bucket.pos_depth hFirst
      have hLow : j.depth < (Json.array (j :: rest)).depth :=
        Json.depth_lt_of_mem_array List.mem_cons_self
      have hHigh : ∀ d : Distribution N, (toJson (.distribution d)).depth ≤ 2 := fun d => by
        rw [toJson]
        refine Json.depth_array_le.mpr fun j hj => ?_
        obtain ⟨b, -, rfl⟩ := List.mem_map.mp hj
        exact (Bucket.depth_toJson b).le
      exact (hHigh _).trans (by omega)
  | .object members, v, read => by
    rw [ofJson?] at read
    obtain ⟨groups, hGroups, rfl⟩ := Option.map_eq_some_iff.mp read
    have hDepth := depth_toMembers hGroups
    rw [toJson, toMembers_eq, Json.depth]
    refine Json.depth_object_le.mpr fun m hm => ?_
    obtain ⟨g, hg, rfl⟩ := List.mem_map.mp hm
    obtain ⟨g', hg', hSame⟩ := Table.mem_ofList hg
    change g.2.toJson.depth ≤ _
    rw [← hSame]
    exact hDepth g' hg'
  | .null, _, read | .bool _, _, read | .string _, _, read => nomatch read

/-- What has been read of a breakdown is written with no deeper nesting, entry by entry. -/
theorem depth_toMembers : ∀ {members : List (String × Json N)}
    {groups : List (String × ReducedValue N)}, ofMembers? members = some groups →
      ∀ g ∈ groups, g.2.toJson.depth ≤ Json.depthMembers members
  | [], groups, read => by
    obtain rfl := Option.some.inj read
    exact nofun
  | _ :: _, groups, read => by
    obtain ⟨v, others, hFirst, hRest, rfl⟩ := of_ofMembers?_cons read
    refine List.forall_mem_cons.mpr ⟨?_, fun g hg => ?_⟩
    · exact (depth_toJson hFirst).trans (le_max_left _ _)
    · exact (depth_toMembers hRest g hg).trans (le_max_right _ _)

end

mutual

/-- The form of a value is legible if its finite numbers are. -/
theorem legible_toJson : ∀ {v : ReducedValue Float},
    LegibleNumbers v.numbers → v.toJson.Legible
  | .scalar x, legible => Json.legible_ofNumber (legible x List.mem_cons_self)
  | .distribution d, legible => by
    rw [toJson, Json.legible_array]
    intro j hj
    obtain ⟨b, hb, rfl⟩ := List.mem_map.mp hj
    exact Bucket.legible_toJson fun x hx => legible x (List.mem_flatMap.mpr ⟨b, hb, hx⟩)
  | .discrete groups, legible => by
    rw [toJson, Json.legible_object]
    exact legible_toMembers legible

/-- Each entry can be told from its text, if the numbers in all of them can. -/
theorem legible_toMembers : ∀ {groups : List (String × ReducedValue Float)},
    LegibleNumbers (numbersIn groups) → ∀ m ∈ toMembers groups, m.2.Legible
  | [], _ => nofun
  | (_, v) :: rest, legible => by
    obtain ⟨hFirst, hRest⟩ := legibleNumbers_append.mp legible
    exact List.forall_mem_cons.mpr ⟨legible_toJson hFirst, legible_toMembers hRest⟩

end

end ReducedValue

/-- Reading adds each weight to zero, which does not change it in the sense in which numbers are
compared. -/
theorem Distribution.received_beq {d : Distribution Float} (finite : allFinite d.numbers = true) :
    (d.received == d) = true := by
  obtain ⟨table⟩ := d
  change (Table.mapValues (fun _ e => (e.1, Arithmetic.zero + e.2)) table == table) = true
  rw [allFinite_iff] at finite
  induction table with
  | nil => rfl
  | cons e rest ih =>
    have hEntry : ∀ x ∈ [e.1.value, e.2.1, e.2.2], x.isFinite = true := fun x hx =>
      finite x (List.mem_append_left _ hx)
    simp only [List.forall_mem_cons] at hEntry
    obtain ⟨hMin, hMax, hWeight, -⟩ := hEntry
    have hFirst : ((e.1, e.2.1, 0.0 + e.2.2) == e) = true :=
      Bool.and_eq_true_iff.mpr ⟨Binary64.beq_self hMin,
        Bool.and_eq_true_iff.mpr ⟨Binary64.beq_self hMax, Binary64.zero_add_beq hWeight⟩⟩
    have hRest := ih fun x hx => finite x (List.mem_append_right _ hx)
    exact Bool.and_eq_true_iff.mpr ⟨hFirst, hRest⟩

namespace ReducedValue

mutual

/-- **Values.** A value of finite numbers equals the one that arrives. -/
theorem received_beq : ∀ {v : ReducedValue Float}, allFinite v.numbers = true →
    same v.received v = true
  | .scalar x, finite => Binary64.beq_self (allFinite_iff.mp finite x List.mem_cons_self)
  | .distribution _, finite => Distribution.received_beq finite
  | .discrete _, finite => receivedIn_beq finite

/-- Reading a breakdown keeps its entries in the sense in which numbers are compared. -/
theorem receivedIn_beq : ∀ {groups : List (String × ReducedValue Float)},
    allFinite (numbersIn groups) = true → sameGroups (receivedIn groups) groups = true
  | [], _ => rfl
  | (key, v) :: rest, finite => by
    rw [numbersIn, allFinite_append, Bool.and_eq_true] at finite
    rw [receivedIn, sameGroups, received_beq finite.1, receivedIn_beq finite.2, beq_self_eq_true]
    rfl

end

end ReducedValue

end FleetMetrics
