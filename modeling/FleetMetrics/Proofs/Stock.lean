import Mathlib
import FleetMetrics.Stock
import FleetMetrics.Proofs.Roster

/-!
# What stock metrics read

A query expands a field only if something needs it. That is sound for a metric whose contribution
reads no field but the ones declared for it: a declaration that lacks a field would let the
contribution vanish as soon as nobody asks for that field. And a field that one query needs and
another does not has to have one value, or the one query counts more than the other.

The stock metrics are like that. What splits a counter (the direction, the type of operation, the
reason of an exit) is declared, so every query expands it; what is not declared has one value on a
sample that carries the attribute it is read from. Which attribute that is, nobody writes down:
`FieldSpec.Reads` says it by what a change of the attribute does to the values.

Main results:

* `plain_stock` — every stock metric is plain in this sense, also once it has the host's name.
-/

namespace FleetMetrics

variable {N : Type}

namespace FieldSpec

/-- A field reads an attribute of the current sample, if its values can change with this attribute
alone. -/
def Reads (f : FieldSpec N) (attr : String) : Prop :=
  ∃ (p : SamplePair N) (attributes : Table String String),
    (∀ other, other ≠ attr → attributes.find? other = p.current.attributes.find? other) ∧
      f.values { p with current := { p.current with attributes := attributes } } ≠ f.values p

/-- A pair of samples has every attribute that a field reads. -/
def Carried [Arithmetic N] (f : FieldSpec N) (p : SamplePair N) : Prop :=
  ∀ attr, f.Reads attr → (p.current.attr? attr).isSome

/-- A field that has one value wherever its attributes are there. -/
def Single [Arithmetic N] (f : FieldSpec N) : Prop :=
  ∀ p, f.Carried p → (f.values p).length = 1

variable [Arithmetic N]

/-- A field that makes one value of an attribute, and none of its absence, reads it. -/
theorem single_of_attribute {f : FieldSpec N} (attr : String) (make : String → FieldValue N)
    (values : ∀ p, f.values p = ((p.current.attr? attr).map make).toList) : f.Single := by
  intro p carried
  have hReads : f.Reads attr := by
    -- on a sample without attributes it has no value, and with this one alone it has one
    refine ⟨⟨⟨"", 0, [], []⟩, ⟨"", 0, [], []⟩, 0⟩, [(attr, "")], fun other hne => ?_, ?_⟩
    · rw [Table.find?_cons, if_neg fun h => hne (Std.LawfulEqOrd.eq_of_compare h)]
    · rw [values, values]
      simp [Sample.attr?, Table.find?_cons, Std.ReflOrd.compare_self]
  obtain ⟨text, hText⟩ := Option.isSome_iff_exists.mp (carried attr hReads)
  rw [values, hText]
  rfl

/-- A field that is read off an attribute has one value for each sample. -/
theorem single_fromAttribute (name label attr : String) :
    (fromAttribute name label attr : FieldSpec N).Single :=
  single_of_attribute attr .text fun _ => rfl

/-- A numbered field has one value for each sample. -/
theorem single_numbered (name label word : String) :
    (Stock.numbered name label word : FieldSpec N).Single :=
  single_of_attribute "instance" (fun i => .text (word ++ i)) fun _ => rfl

/-- A field computed from counters has one value on every sample. -/
theorem single_of_number {f : FieldSpec N} (number : SamplePair N → N)
    (values : ∀ p, f.values p = [.number (number p)]) : f.Single := by
  intro p _
  rw [values]
  rfl

end FieldSpec

namespace Descriptor

variable [Arithmetic N]

/-- A contribution that reads no field of a data point but some. -/
def ReadsOnly (uses : List String) (extract : FieldMap N → SamplePair N → Option N) : Prop :=
  ∀ x y p, (∀ n ∈ uses, x.find? n = y.find? n) → extract x p = extract y p

/-- The contribution reads no field but those declared for it. -/
def Declared (d : Descriptor N) : Prop :=
  ReadsOnly d.extractUses d.extract

/-- A metric whose fields are declared for the contribution, or name the host, or have one value
wherever their attributes are there. -/
structure Plain (d : Descriptor N) : Prop where
  declared : d.Declared
  fields : ∀ f ∈ d.fields, f.name ∈ d.extractUses ∨ f.name = hostnameField ∨ f.Single

omit [Arithmetic N] in
/-- A field that is added joins those that were there, and may take one's place. -/
theorem mem_fields_field {d : Descriptor N} {f g : FieldSpec N} (mem : g ∈ (d.field f).fields) :
    g = f ∨ g ∈ d.fields := by
  have hFields : (d.field f).fields = Roster.put (·.name) f d.fields := rfl
  rw [hFields] at mem
  generalize d.fields = fields at mem ⊢
  induction fields with
  | nil => exact .inl (List.mem_singleton.mp mem)
  | cons h rest ih =>
    unfold Roster.put at mem
    split at mem
    · rcases List.mem_cons.mp mem with rfl | mem
      · exact .inl rfl
      · exact .inr (List.mem_cons_of_mem _ mem)
    · rcases List.mem_cons.mp mem with rfl | mem
      · exact .inr List.mem_cons_self
      · exact (ih mem).imp id (List.mem_cons_of_mem _)

omit [Arithmetic N] in
/-- What holds of the fields of a metric and of one more holds of all when this one is added. -/
theorem forall_field {d : Descriptor N} {P : FieldSpec N → Prop} (all : ∀ g ∈ d.fields, P g)
    {f : FieldSpec N} (one : P f) : ∀ g ∈ (d.field f).fields, P g := by
  intro g mem
  rcases mem_fields_field mem with rfl | mem
  · exact one
  · exact all g mem

/-- A new descriptor has no fields, so they are all as one wants them. -/
theorem forall_new {module stat label unit : String} {P : FieldSpec N → Prop} :
    ∀ g ∈ (Descriptor.new module stat label unit : Descriptor N).fields, P g := nofun

/-- A descriptor is plain if what it extracts reads only the fields it says it does, and every other
field has one value. -/
theorem plain_withExtract {d : Descriptor N} {uses : List String}
    {extract : FieldMap N → SamplePair N → Option N} (reads : ReadsOnly uses extract)
    (fields : ∀ f ∈ d.fields, f.name ∈ uses ∨ f.name = hostnameField ∨ f.Single) :
    (d.withExtract uses extract).Plain :=
  ⟨reads, fields⟩

/-- The field with the host's name does not make a metric less plain. -/
theorem plain_withHostname {d : Descriptor N} (plain : d.Plain) (hostname : String) :
    (d.withHostname hostname).Plain := by
  unfold withHostname
  split
  · exact plain
  · exact ⟨plain.declared, forall_field plain.fields (.inr (.inl rfl))⟩

end Descriptor

/-! ## Stock metrics -/

namespace Stock

open Descriptor

variable [Arithmetic N]

/-! ### Contributions -/

omit [Arithmetic N] in
/-- A contribution that is the same for every data point of a pair of samples. -/
theorem readsOnly_nothing {uses : List String} (make : SamplePair N → Option N) :
    ReadsOnly uses fun _ p => make p :=
  fun _ _ _ _ => rfl

section Split

variable {uses : List String} {field : String} (mem : field ∈ uses)

include mem

omit [Arithmetic N] in
/-- A contribution that reads the text of one declared field. -/
theorem readsOnly_text (make : Option String → SamplePair N → Option N) :
    ReadsOnly uses fun point p => make (textOf? point field) p := by
  intro x y p alike
  have hText : textOf? x field = textOf? y field := by
    unfold textOf?
    rw [alike field mem]
  show make (textOf? x field) p = make (textOf? y field) p
  rw [hText]

/-- Growth by an attribute is read off the two statistics and nothing else. -/
theorem readsOnly_growthBy (text first second : String) :
    ReadsOnly uses (growthBy (N := N) field text first second) :=
  readsOnly_text mem fun t p => t.map fun t => p.delta (if t = text then first else second)

/-- Growth of the chosen counters is read off the field that chooses them. -/
theorem readsOnly_growthFrom (counters : List (String × String)) :
    ReadsOnly uses (growthFrom (N := N) counters field) :=
  readsOnly_text mem fun t p => (t.bind fun text => counters.lookup text).map p.delta

end Split

theorem readsOnly_usageByMode : ReadsOnly ["cpumode"] (usageByMode (N := N)) :=
  readsOnly_text List.mem_cons_self fun t p => t.map fun mode =>
    percentOf (p.delta (if mode = "kernel" then "nsec_sys" else "nsec_user")) p.interval

theorem readsOnly_exitsByReason :
    ReadsOnly ["vleavereason", "vcpuid"] (exitsByReason (N := N)) :=
  readsOnly_text List.mem_cons_self fun t p => t.bind fun reason =>
    if reason = "other" then some (otherExits p.current - otherExits p.previous)
    else (exitCounters.lookup reason).map p.delta

/-! ### Metrics -/

/-- A metric whose only field is read from the samples. -/
theorem plain_whole {module stat label unit : String} {f : FieldSpec N} (single : f.Single)
    (make : SamplePair N → Option N) :
    (((Descriptor.new module stat label unit).field f).withExtract [] fun _ p => make p).Plain :=
  plain_withExtract (readsOnly_nothing make) (forall_field forall_new (.inr (.inr single)))

/-- A metric with one field that is read from the samples, and one that splits its counters. -/
theorem plain_split {module stat label unit : String} {f g : FieldSpec N} (single : f.Single)
    {extract : FieldMap N → SamplePair N → Option N} (reads : ReadsOnly [g.name] extract) :
    ((((Descriptor.new module stat label unit).field f).field g).withExtract [g.name]
      extract).Plain :=
  plain_withExtract reads
    (forall_field (forall_field forall_new (.inr (.inr single))) (.inl List.mem_cons_self))

/-- A metric with two fields, both of which are declared. -/
theorem plain_declared {module stat label unit : String} {f g : FieldSpec N} {uses : List String}
    (hf : f.name ∈ uses) (hg : g.name ∈ uses)
    {extract : FieldMap N → SamplePair N → Option N} (reads : ReadsOnly uses extract) :
    ((((Descriptor.new module stat label unit).field f).field g).withExtract uses extract).Plain :=
  plain_withExtract reads (forall_field (forall_field forall_new (.inl hf)) (.inl hg))

theorem single_zoneName : (zoneName : FieldSpec N).Single :=
  FieldSpec.single_fromAttribute _ _ _

theorem single_diskName : (diskName : FieldSpec N).Single :=
  FieldSpec.single_fromAttribute _ _ _

theorem single_linkName : (linkName : FieldSpec N).Single :=
  FieldSpec.single_fromAttribute _ _ _

/-- A number that is computed from a sample is one value. -/
theorem single_numeric (name label : String) (b : Bucketizer N) (number : SamplePair N → N) :
    (FieldSpec.numeric name label b fun p => [.number (number p)]).Single :=
  FieldSpec.single_of_number number fun _ => rfl

theorem plain_processors : (processors : Descriptor N).Plain where
  declared := readsOnly_nothing fun _ => some Arithmetic.one
  fields := forall_field
    (forall_field forall_new (.inr (.inr (FieldSpec.single_numbered _ _ _))))
    (.inr (.inr (single_numeric _ _ _ _)))

theorem plain_disks : (disks : Descriptor N).Plain where
  declared := readsOnly_nothing fun _ => some Arithmetic.one
  fields := forall_field (forall_field (forall_field (forall_field forall_new
    (.inr (.inr single_diskName)))
    (.inr (.inr (single_numeric _ _ _ _)))) (.inr (.inr (single_numeric _ _ _ _))))
    (.inr (.inr (single_numeric _ _ _ _)))

theorem plain_links : (links : Descriptor N).Plain where
  declared := readsOnly_nothing fun _ => some Arithmetic.one
  fields := forall_field (forall_field (forall_field forall_new
    (.inr (.inr single_linkName)))
    (.inr (.inr (single_numeric _ _ _ _)))) (.inr (.inr (single_numeric _ _ _ _)))

/-- The reason splits the exits, and the processor leaves the summary of the machine out; both are
declared. -/
theorem plain_machineExits : (machineExits : Descriptor N).Plain :=
  plain_withExtract readsOnly_exitsByReason
    (forall_field (forall_field (forall_field forall_new (.inr (.inr single_zoneName)))
      (.inl List.mem_cons_self)) (.inl (List.mem_cons_of_mem _ List.mem_cons_self)))

theorem plain_cacheOperations : (cacheOperations : Descriptor N).Plain :=
  plain_withExtract (readsOnly_growthBy List.mem_cons_self _ _ _)
    (forall_field forall_new (.inl List.mem_cons_self))

/-- **Every stock metric is plain.** -/
theorem plain_stock : ∀ entry ∈ (metrics : List (String × Descriptor N)), entry.2.Plain := by
  have hBy : ∀ {field : String} (text first second : String),
      ReadsOnly [field] (growthBy (N := N) field text first second) :=
    readsOnly_growthBy List.mem_cons_self
  have hLinks : ∀ text first second : String,
      ReadsOnly ["direction", "zonename"] (growthBy (N := N) "direction" text first second) :=
    readsOnly_growthBy List.mem_cons_self
  unfold metrics
  simp only [List.forall_mem_cons, List.not_mem_nil, false_imp_iff, implies_true, and_true]
  exact ⟨plain_processors,
    plain_split single_zoneName readsOnly_usageByMode,
    plain_whole single_zoneName _,
    plain_whole single_zoneName _,
    plain_disks,
    plain_split single_diskName (hBy _ _ _),
    plain_split single_diskName (hBy _ _ _),
    plain_links,
    plain_split single_linkName (hBy _ _ _),
    plain_split single_linkName (hBy _ _ _),
    plain_declared (List.mem_cons_of_mem _ List.mem_cons_self) List.mem_cons_self (hLinks _ _ _),
    plain_declared (List.mem_cons_of_mem _ List.mem_cons_self) List.mem_cons_self (hLinks _ _ _),
    plain_split (FieldSpec.single_numbered _ _ _) (hBy _ _ _),
    plain_split (FieldSpec.single_numbered _ _ _) (readsOnly_growthFrom List.mem_cons_self _),
    plain_split single_zoneName (hBy _ _ _),
    plain_split single_zoneName (hBy _ _ _),
    plain_whole single_zoneName _,
    plain_whole single_zoneName _,
    plain_whole single_zoneName _,
    plain_whole single_zoneName _,
    plain_whole single_zoneName _,
    plain_whole single_zoneName _,
    plain_machineExits,
    plain_cacheOperations⟩

end Stock

end FleetMetrics
