import IotLoggingServer.Lib.Carry
import IotLoggingServer.ProtoWrapper.RepeatedFields

set_option autoImplicit false

/-! # Durations (`proto_wrapper.py`)

`Duration` keeps nanoseconds as whole seconds and a rest. Both `from_nanoseconds` and
`add_nanoseconds` round the seconds down, so that no nanosecond is lost and the order of additions
does not matter (`value_foldl_add`, `addAll_perm`). The rest is then never negative;
`google.protobuf.Duration` wants no positive one beside negative seconds, so that a total below zero
is only kept as it should be if it is of whole seconds (`duration_arithmetic_iff`). -/

namespace IotLoggingServer

/-! ## The operations -/

/-- `_s2ns` -/
def s2ns : ℤ := 1000000000

/-- `divmod(a, b)`: the quotient is rounded down. -/
def divmod (a b : ℤ) : ℤ × ℤ := (a.fdiv b, a.fmod b)

/-- `getattr(self, name)` -/
def PyVal.getattr (self : PyVal) (name : Str) : Except PyExc PyVal :=
  match self.attr name with
  | some v => .ok v
  | none => .error .attributeError

/-- `self.name = value`, by the descriptor of a field of this type. -/
def PyVal.setattr (self : PyVal) (name : Str) (type : FieldType) (value : PyVal) :
    Except PyExc PyVal :=
  match self with
  | .inst cls sub attrs => do .ok (.inst cls sub (dictSet id attrs name (← type.set (some value))))
  | _ => .error .attributeError

/-- `value + n` for an instance of `int`; the descriptors of `Duration` let nothing else through. -/
def PyVal.addInt (value : PyVal) (n : ℤ) : Except PyExc ℤ :=
  match value with
  | .atom a =>
    match a.index? with
    | some m => .ok (m + n)
    | none => .error .typeError
  | _ => .error .typeError

def fromNanoseconds (ns : ℤ) : Except PyExc PyVal :=
  let (seconds, nanos) := divmod ns s2ns
  duration.new (fun name _ => dictGet? id
    [("seconds".toList, .atom (.int seconds)), ("nanos".toList, .atom (.int nanos))] name)

/-- `self.add_nanoseconds(ns)`: what `self` becomes. -/
def addNanoseconds (self : PyVal) (ns : ℤ) : Except PyExc PyVal := do
  let (addSeconds, newNanos) := divmod (← (← self.getattr "nanos".toList).addInt ns) s2ns
  let seconds ← (← self.getattr "seconds".toList).addInt addSeconds
  let self ← self.setattr "seconds".toList (.scalar (.int .int64)) (.atom (.int seconds))
  self.setattr "nanos".toList (.scalar (.int .int32)) (.atom (.int newNanos))

/-- Calls of `add_nanoseconds`, one after the other. -/
def addAll (self : PyVal) (ns : List ℤ) : Except PyExc PyVal := ns.foldlM addNanoseconds self

theorem divmod_s2ns (n : ℤ) : divmod n s2ns = (n / s2ns, n % s2ns) := by
  have hbase : (0 : ℤ) ≤ s2ns := by decide
  rw [divmod, Int.fdiv_eq_ediv_of_nonneg n hbase, Int.fmod_eq_emod_of_nonneg n hbase]

theorem s2ns_pos : 0 < s2ns := by decide

/-! ## Instances -/

/-- An instance of `Duration`, or of a subclass that adds no field: both its attributes are
    instances of `int`, of the values `parts`. -/
@[ext]
structure Duration where
  sub : Option Str
  seconds : Atom
  nanos : Atom
  parts : TwoPart
  seconds_eq : seconds.index? = some parts.high
  nanos_eq : nanos.index? = some parts.low

def Duration.inst (d : Duration) : PyVal :=
  .inst duration d.sub [("seconds".toList, .atom d.seconds), ("nanos".toList, .atom d.nanos)]

/-- In nanoseconds. -/
def Duration.value (d : Duration) : ℤ := d.parts.value s2ns

/-- What `google.protobuf.Duration` asks of a message. -/
structure Duration.Valid (d : Duration) : Prop where
  nanos_le : |d.parts.low| ≤ 999999999
  sameSign : d.parts.SameSign

def Duration.ofParts (sub : Option Str) (p : TwoPart) : Duration :=
  ⟨sub, .int p.high, .int p.low, p, rfl, rfl⟩

/-- What `add_nanoseconds` makes of an instance. -/
def Duration.add (d : Duration) (ns : ℤ) : Duration :=
  Duration.ofParts d.sub (d.parts.addLow s2ns ns)

theorem Duration.inst_injective : Function.Injective Duration.inst := by
  intro d d' h
  simp only [Duration.inst, PyVal.inst.injEq, List.cons.injEq, Prod.mk.injEq, PyVal.atom.injEq,
    true_and, and_true] at h
  obtain ⟨hsub, hseconds, hnanos⟩ := h
  have hhigh := d.seconds_eq
  rw [hseconds, d'.seconds_eq] at hhigh
  have hlow := d.nanos_eq
  rw [hnanos, d'.nanos_eq] at hlow
  refine Duration.ext hsub hseconds hnanos ?_
  exact TwoPart.ext (Option.some.inj hhigh).symm (Option.some.inj hlow).symm

theorem index?_of_isInstance {kind : IntKind} {a : Atom}
    (h : (ScalarType.int kind).isInstance a = true) : ∃ n, a.index? = some n := by
  cases a <;> first | exact ⟨_, rfl⟩ | cases h

/-- A field of `duration` holds an instance of `int`. -/
theorem index?_of_sat {kind : IntKind} {v : PyVal}
    (h : (FieldType.scalar (.int kind)).Sat heldSpec v) :
    ∃ a n, v = .atom a ∧ a.index? = some n := by
  obtain ⟨a, rfl, hinst⟩ := h
  obtain ⟨n, hn⟩ := index?_of_isInstance hinst
  exact ⟨a, n, rfl, hn⟩

/-- Every instance that the API builds and changes is one of these. -/
theorem Duration.exists_of_reached {n : ℕ} {sub : Option Str} {attrs : List (Str × PyVal)}
    (h : Reached n (.inst duration sub attrs)) :
    ∃ d : Duration, d.inst = .inst duration sub attrs := by
  have haccepted : duration.Everywhere FieldType.ConvertVisible MessageType.AcceptedClass :=
    ⟨⟨by decide, initSubclass_eq_ok_iff.2 ⟨by decide, rfl⟩⟩, trivial, trivial, trivial⟩
  obtain ⟨⟨_, _, heq, hnames⟩, hfields⟩ :=
    MessageType.sat_iff.1 (held_of_reached n h duration sub attrs rfl haccepted)
  cases heq
  have hkeys : attrs.map Prod.fst = ["seconds".toList, "nanos".toList] := hnames
  obtain ⟨⟨_, v⟩, rest, rfl, rfl, hrest⟩ := List.map_eq_cons_iff.1 hkeys
  obtain ⟨⟨_, v'⟩, rest', rfl, rfl, hnil⟩ := List.map_eq_cons_iff.1 hrest
  obtain rfl : rest' = [] := List.map_eq_nil_iff.1 hnil
  obtain ⟨_, ⟨⟩, hseconds⟩ := hfields _ (.head _)
  obtain ⟨_, ⟨⟩, hnanos⟩ := hfields _ (.tail _ (.head _))
  obtain ⟨a, high, rfl, hhigh⟩ := index?_of_sat hseconds
  obtain ⟨b, low, rfl, hlow⟩ := index?_of_sat hnanos
  exact ⟨⟨sub, a, b, ⟨high, low⟩, hhigh, hlow⟩, rfl⟩

/-! ## What the operations do -/

/-- `from_nanoseconds` splits the number. -/
theorem fromNanoseconds_eq (n : ℤ) :
    fromNanoseconds n = .ok (Duration.ofParts none (.split s2ns n)).inst := by
  rw [fromNanoseconds, divmod_s2ns]
  rfl

/-- `add_nanoseconds` adds to the nanos and carries into the seconds. -/
theorem addNanoseconds_inst (d : Duration) (n : ℤ) :
    addNanoseconds d.inst n = .ok (d.add n).inst := by
  have hnanos : d.inst.getattr "nanos".toList = .ok (.atom d.nanos) := rfl
  have hseconds : d.inst.getattr "seconds".toList = .ok (.atom d.seconds) := rfl
  have haddNanos : (PyVal.atom d.nanos).addInt n = .ok (d.parts.low + n) := by
    rw [PyVal.addInt]
    simp only [d.nanos_eq]
  have haddSeconds (m : ℤ) : (PyVal.atom d.seconds).addInt m = .ok (d.parts.high + m) := by
    rw [PyVal.addInt]
    simp only [d.seconds_eq]
  rw [addNanoseconds, hnanos, ok_bind, haddNanos, ok_bind, divmod_s2ns]
  dsimp only
  rw [hseconds, ok_bind, haddSeconds, ok_bind]
  rfl

/-- To add nothing to -1.5 s makes it -2 seconds and a positive rest. -/
example : addNanoseconds (Duration.ofParts none ⟨-1, -500000000⟩).inst 0
    = .ok (Duration.ofParts none ⟨-2, 500000000⟩).inst := rfl

/-- A row of calls adds up in the parts. -/
theorem addAll_inst (d : Duration) (ns : List ℤ) :
    addAll d.inst ns = .ok (ns.foldl Duration.add d).inst :=
  foldlM_of_simulates addNanoseconds_inst ns d

theorem parts_foldl_add (d : Duration) (ns : List ℤ) :
    (ns.foldl Duration.add d).parts = ns.foldl (TwoPart.addLow s2ns) d.parts := by
  induction ns generalizing d with
  | nil => rfl
  | cons n rest ih => exact ih (d.add n)

/-- **No addition loses or gains a nanosecond.** -/
theorem value_foldl_add (d : Duration) (ns : List ℤ) :
    (ns.foldl Duration.add d).value = d.value + ns.sum := by
  rw [Duration.value, parts_foldl_add]
  exact TwoPart.value_foldl_addLow (ne_of_gt s2ns_pos) d.parts ns

/-- **The order of the additions does not matter.** -/
theorem addAll_perm (d : Duration) {ns ms : List ℤ} (h : ns.Perm ms) :
    addAll d.inst ns = addAll d.inst ms := by
  have hcomm (e : Duration) (n m : ℤ) : (e.add n).add m = (e.add m).add n :=
    congrArg (Duration.ofParts e.sub) (TwoPart.addLow_right_comm (ne_of_gt s2ns_pos) e.parts n m)
  rw [addAll_inst, addAll_inst, h.foldl_eq' (fun n _ m _ e => hcomm e n m)]

/-! ## What `google.protobuf.Duration` admits -/

/-- A split is valid unless its seconds are negative beside a rest. -/
theorem Duration.valid_split_iff (sub : Option Str) (n : ℤ) :
    (Duration.ofParts sub (.split s2ns n)).Valid ↔ 0 ≤ n ∨ s2ns ∣ n := by
  rw [← TwoPart.sameSign_split_iff s2ns_pos]
  refine ⟨fun h => h.sameSign, fun h => ⟨?_, h⟩⟩
  exact Int.le_of_lt_add_one (TwoPart.abs_low_split s2ns_pos n)

/-- Whether an instance is valid depends on its parts only. -/
theorem Duration.valid_congr {d d' : Duration} (h : d.parts = d'.parts) : d.Valid ↔ d'.Valid :=
  ⟨fun hd => ⟨h ▸ hd.nanos_le, h ▸ hd.sameSign⟩, fun hd => ⟨h ▸ hd.nanos_le, h ▸ hd.sameSign⟩⟩

/-- After a row of additions the same is asked of the total. -/
theorem valid_foldl_add_iff {d : Duration} (hd : d.Valid) (ns : List ℤ) :
    (ns.foldl Duration.add d).Valid ↔
      ns = [] ∨ 0 ≤ d.value + ns.sum ∨ s2ns ∣ d.value + ns.sum := by
  cases ns with
  | nil => exact iff_of_true hd (Or.inl rfl)
  | cons n rest =>
      have hparts : ((n :: rest).foldl Duration.add d).parts
          = .split s2ns (d.value + (n :: rest).sum) := by
        rw [parts_foldl_add]
        exact TwoPart.foldl_addLow (ne_of_gt s2ns_pos) d.parts (List.cons_ne_nil n rest)
      rw [or_iff_right (List.cons_ne_nil n rest), ← Duration.valid_split_iff none]
      exact Duration.valid_congr hparts

/-- `from_nanoseconds(n)` is a valid duration of `n` nanoseconds. -/
def FromNanosecondsHolds (n : ℤ) : Prop :=
  ∃ d : Duration, fromNanoseconds n = .ok d.inst ∧ d.value = n ∧ d.Valid

/-- Adding `ns` one after the other gives a valid duration of the total, whatever their order. -/
def AddNanosecondsHolds (d : Duration) (ns : List ℤ) : Prop :=
  ∃ d' : Duration, addAll d.inst ns = .ok d'.inst ∧ d'.value = d.value + ns.sum ∧ d'.Valid ∧
    ∀ ms, ns.Perm ms → addAll d.inst ms = .ok d'.inst

theorem fromNanosecondsHolds_iff (n : ℤ) : FromNanosecondsHolds n ↔ 0 ≤ n ∨ s2ns ∣ n := by
  rw [← Duration.valid_split_iff none]
  constructor
  · rintro ⟨d, hd, -, hvalid⟩
    rw [fromNanoseconds_eq] at hd
    rwa [Duration.inst_injective (Except.ok.inj hd)]
  · exact fun h => ⟨_, fromNanoseconds_eq n, TwoPart.value_split n, h⟩

theorem addNanosecondsHolds_iff {d : Duration} (hd : d.Valid) (ns : List ℤ) :
    AddNanosecondsHolds d ns ↔ ns = [] ∨ 0 ≤ d.value + ns.sum ∨ s2ns ∣ d.value + ns.sum := by
  rw [← valid_foldl_add_iff hd]
  constructor
  · rintro ⟨d', hd', -, hvalid, -⟩
    rw [addAll_inst] at hd'
    rwa [Duration.inst_injective (Except.ok.inj hd')]
  · intro h
    refine ⟨_, addAll_inst d ns, value_foldl_add d ns, h, fun ms hperm => ?_⟩
    rw [← addAll_perm d hperm, addAll_inst]

/-- **Durations are what they should be exactly where the total is not negative or of whole
    seconds.** Every total is kept, in any order of additions; but a rest below zero is carried as a
    positive one, which `google.protobuf.Duration` forbids beside negative seconds. The durations
    are all the instances that the API builds and changes. -/
theorem duration_arithmetic_iff (n : ℤ) {d : Duration} (hd : d.Valid) (ns : List ℤ) :
    (FromNanosecondsHolds n ↔ 0 ≤ n ∨ s2ns ∣ n) ∧
      (AddNanosecondsHolds d ns ↔
        ns = [] ∨ 0 ≤ d.value + ns.sum ∨ s2ns ∣ d.value + ns.sum) ∧
      ∀ k sub attrs, Reached k (.inst duration sub attrs) →
        ∃ d' : Duration, d'.inst = .inst duration sub attrs :=
  ⟨fromNanosecondsHolds_iff n, addNanosecondsHolds_iff hd ns,
    fun _ _ _ => Duration.exists_of_reached⟩

/-- 1.5 s are represented, and 0.7 s less and 0.4 s more are 1.2 s. -/
theorem duration_arithmetic_iff_example :
    FromNanosecondsHolds 1500000000 ∧
      AddNanosecondsHolds (Duration.ofParts none ⟨1, 500000000⟩) [-700000000, 400000000] := by
  have hvalid : (Duration.ofParts none ⟨1, 500000000⟩).Valid :=
    ⟨by decide, Or.inl ⟨by decide, by decide⟩⟩
  obtain ⟨hfrom, hadd, -⟩ :=
    duration_arithmetic_iff 1500000000 hvalid [-700000000, 400000000]
  exact ⟨hfrom.2 (Or.inl (by decide)), hadd.2 (Or.inr (Or.inl (by decide)))⟩

/-- One nanosecond below zero is -1 seconds and 999999999 nanos. -/
theorem not_duration_arithmetic : ¬ ((∀ n, FromNanosecondsHolds n) ∧
    ∀ d : Duration, d.Valid → ∀ ns, AddNanosecondsHolds d ns) := by
  intro h
  have hnot : ¬ (0 ≤ (-1 : ℤ) ∨ s2ns ∣ -1) := by decide
  exact hnot ((fromNanosecondsHolds_iff (-1)).1 (h.1 (-1)))

end IotLoggingServer
