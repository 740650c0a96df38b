import IotLoggingServer.ProtoWrapper.Equality

set_option autoImplicit false

/-! # Instances as bytes

How an instance becomes bytes and comes back. What protobuf makes of a message and its bytes is left
to it (`PbCodec`): what it parses from a serialized message reads the same as the message. The
instance that comes back is then equal to the one that was serialized (`converted_serialized`),
because messages that read the same stand for equal instances. -/

namespace IotLoggingServer

/-- `SerializeToString` and `FromString` of the protobuf type of a wrapper class. -/
structure PbCodec where
  serializeToString : MessageType → PyVal → Except PyExc (List UInt8)
  fromString : MessageType → List UInt8 → Except PyExc PyVal
  /-- a serialized message without NaN is parsed to one that reads the same -/
  fromString_serialized : ∀ t m data, t.Sat messageSpec m → t.eq readEq m m = true →
    serializeToString t m = .ok data →
    ∃ m', fromString t data = .ok m' ∧ t.Sat messageSpec m' ∧ t.eq readEq m' m = true

section Bytes

variable (rt : PbRuntime) (codec : PbCodec)

def MessageType.serializeToBytes (t : MessageType) (self : PyVal) : Except PyExc (List UInt8) :=
  if t.hasField "serialize_to_bytes" then .error .typeError
  else do
    let msg ← t.exportPb rt self
    codec.serializeToString t msg

def MessageType.convertedFromDeserialized (t : MessageType) (data : List UInt8) :
    Except PyExc PyVal :=
  if t.hasField "converted_from_deserialized" then .error .typeError
  else do
    let msg ← codec.fromString t data
    t.convert msg

end Bytes

/-! ## Messages that read like an exported one -/

/-- A message value equal to one that represents an attribute is converted. -/
def FieldType.EqConverts (type : FieldType) : Prop :=
  ∀ x v v', type.Sat setSpec x → type.Represents x v → type.Sat messageSpec v' →
    type.eq readEq v' v = true → type.Sat pbSpec v'

def MessageType.EqConverts (t : MessageType) : Prop :=
  ∀ x v v', t.Sat setSpec x → t.Represents x v → t.Sat messageSpec v' →
    t.eq readEq v' v = true → t.Sat pbSpec v'

/-- A message type does it if its fields do. -/
theorem MessageType.eqConverts {t : MessageType}
    (ih : ∀ field ∈ t.fields.toList, field.type.EqConverts) : t.EqConverts := by
  intro x v v' hvalid hrep hv' heq
  obtain ⟨attrs, pbFields, rfl, rfl, hfields⟩ := MessageType.represents_iff.1 hrep
  obtain ⟨hproto, hfields'⟩ := MessageType.sat_iff.1 hv'
  obtain ⟨-, hattrs⟩ := MessageType.sat_iff.1 hvalid
  rw [MessageType.eq_eq, Bool.and_eq_true, Fields.eq_iff] at heq
  refine MessageType.sat_iff.2 ⟨hproto, fun field hmem => ?_⟩
  obtain ⟨y, hy, hrepField⟩ := hfields field hmem
  obtain ⟨y', hy', hset⟩ := hattrs field hmem
  cases hy'.symm.trans hy
  obtain ⟨w, hw, hsat⟩ := hfields' field hmem
  obtain ⟨w', z, hw', hz, heqField⟩ := heq.2 field hmem
  cases hw'.symm.trans hw
  cases hz
  exact ⟨w, hw, ih field hmem y _ w hset hrepField hsat heqField⟩

/-- A value equal to another one is no NaN. -/
theorem PyVal.ne_nan_of_atomEq {a : Atom} {v : PyVal} (h : (PyVal.atom a).atomEq v = true) :
    a ≠ .float .nan := by
  cases v with
  | atom b =>
      have hatoms : a.eq b = true := h
      rw [Atom.eq, Bool.and_eq_true] at hatoms
      exact of_decide_eq_true hatoms.2
  | _ => cases h

theorem KeyType.ne_nan {key : KeyType} {a : Atom} (h : key.scalar.isExact a = true) :
    a ≠ .float .nan := by
  rintro rfl
  cases key <;> cases h

theorem ScalarType.eqConverts (t : ScalarType) : (FieldType.scalar t).EqConverts := by
  intro x v v' _ _ hv' heq
  obtain ⟨a, rfl, hholds⟩ := hv'
  exact ⟨a, rfl, hholds, PyVal.ne_nan_of_atomEq heq⟩

/-- A number equal to the one of a member is a member. -/
theorem EnumType.eqConverts (t : EnumType) : (FieldType.enum t).EqConverts := by
  intro x v v' hvalid hrep hv' heq
  obtain ⟨_, rfl, n, hn, rfl⟩ := hvalid
  obtain ⟨_, b, hatom, rfl, hcanon⟩ := hrep
  cases hatom
  obtain ⟨_, rfl, k, rfl, hrange⟩ := hv'
  have hsame : (Atom.int k).canon = b.canon := by
    have heqAtom : (Atom.int k).eq b = true := heq
    rw [Atom.eq, Bool.and_eq_true] at heqAtom
    exact of_decide_eq_true heqAtom.1
  rw [hcanon] at hsame
  obtain rfl : k = n := by simpa [Atom.canon] using hsame
  exact ⟨_, rfl, k, hn, rfl, hrange⟩

theorem ScalarType.repeated_eqConverts (t : ScalarType) :
    (FieldType.repeatedScalar t).EqConverts := by
  intro x v v' _ hrep hv' heq
  obtain ⟨_, vs, -, rfl, -⟩ := hrep
  obtain ⟨vs', rfl, hvs'⟩ := hv'
  refine ⟨vs', rfl, fun y hmem => ?_⟩
  obtain ⟨a, rfl, hholds⟩ := hvs' y hmem
  obtain ⟨w, -, hw⟩ := exists_mem_of_forall₂ (List.Forall₂.flip (forall₂_of_isEqv heq)) _ hmem
  exact ⟨a, rfl, hholds, PyVal.ne_nan_of_atomEq hw⟩

theorem MessageType.repeated_eqConverts {t : MessageType} (ih : t.EqConverts) :
    (FieldType.repeatedComposite t).EqConverts := by
  intro x v v' hvalid hrep hv' heq
  obtain ⟨xs, vs, rfl, rfl, hall⟩ := hrep
  obtain ⟨_, hlist, hxs⟩ := hvalid
  cases hlist
  obtain ⟨vs', rfl, hvs'⟩ := hv'
  refine ⟨vs', rfl, fun y hmem => ?_⟩
  obtain ⟨w, hw, heqElement⟩ :=
    exists_mem_of_forall₂ (List.Forall₂.flip (forall₂_of_isEqv heq)) y hmem
  obtain ⟨z, hz, hrepElement⟩ := exists_mem_of_forall₂ hall w hw
  exact ih z w y (hxs z hz) hrepElement (hvs' y hmem) heqElement

/-- Each entry of a map equal to another has one equal to it there. -/
theorem exists_mem_of_dictEq {eq : PyVal → PyVal → Bool} {kvs kvs' : List (Atom × PyVal)}
    (h : dictEq eq kvs kvs' = true) : ∀ e ∈ kvs, ∃ e' ∈ kvs', eq e.2 e'.2 = true := by
  intro e hmem
  rw [dictEq, Bool.and_eq_true, List.all_eq_true] at h
  have hentry := h.2 e hmem
  split at hentry
  · next v hget =>
      obtain ⟨k, hmem'⟩ := mem_of_dictGet? hget
      exact ⟨(k, v), hmem', hentry⟩
  · cases hentry

theorem ScalarType.map_eqConverts (key : KeyType) (t : ScalarType) :
    (FieldType.scalarMap key t).EqConverts := by
  intro x v v' _ hrep hv' heq
  obtain ⟨_, pbs, -, rfl, -⟩ := hrep
  obtain ⟨pbs', rfl, hd, hpbs'⟩ := hv'
  refine ⟨pbs', rfl, hd, fun e hmem => ?_⟩
  obtain ⟨hkey, a, ha, hholds⟩ := hpbs' e hmem
  obtain ⟨e', -, hvalue⟩ := exists_mem_of_dictEq heq e hmem
  rw [ha] at hvalue
  exact ⟨⟨hkey, KeyType.ne_nan hkey.1⟩, a, ha, hholds, PyVal.ne_nan_of_atomEq hvalue⟩

theorem MessageType.map_eqConverts {key : KeyType} {t : MessageType} (ih : t.EqConverts) :
    (FieldType.messageMap key t).EqConverts := by
  intro x v v' hvalid hrep hv' heq
  obtain ⟨kvs, pbs, rfl, rfl, hall⟩ := hrep
  obtain ⟨_, hdict, -, hkvs⟩ := hvalid
  cases hdict
  obtain ⟨pbs', rfl, hd, hpbs'⟩ := hv'
  refine ⟨pbs', rfl, hd, fun e hmem => ?_⟩
  obtain ⟨hkey, hsat⟩ := hpbs' e hmem
  obtain ⟨e', hmem', hvalue⟩ := exists_mem_of_dictEq heq e hmem
  obtain ⟨e'', hmem'', -, hrepEntry⟩ := exists_mem_of_forall₂ hall e' hmem'
  exact ⟨⟨hkey, KeyType.ne_nan hkey.1⟩, ih _ _ _ (hkvs e'' hmem'').2 hrepEntry hsat hvalue⟩

/-- **A message that reads like an exported one is converted.** -/
theorem MessageType.eq_converts {P : FieldType → Prop} {Q : MessageType → Prop} {t : MessageType}
    (ht : t.Everywhere P Q) : t.EqConverts := by
  refine @MessageType.everywhere_induction _ _ FieldType.EqConverts _ ?scalar ?enum ?message
    ?repeatedScalar ?repeatedComposite ?scalarMap ?messageMap ?mk t ht
  case scalar => exact fun t _ => t.eqConverts
  case enum => exact fun t _ => t.eqConverts
  case message => exact fun _ _ ih => ih
  case repeatedScalar => exact fun t _ => t.repeated_eqConverts
  case repeatedComposite => exact fun _ _ ih => MessageType.repeated_eqConverts ih
  case scalarMap => exact fun key t _ => t.map_eqConverts key
  case messageMap => exact fun _ _ _ ih => MessageType.map_eqConverts ih
  case mk => exact fun _ _ ih => MessageType.eqConverts ih

/-! ## Forth and back -/

variable {rt : PbRuntime} {codec : PbCodec}

/-- **An instance comes back from its bytes.** What is converted from the bytes of an instance
    without NaN, whose messages are of the annotated classes, is equal to the instance. -/
theorem MessageType.converted_serialized {t : MessageType} (ht : t.Supported)
    (hnames : t.Unhidden) (hname : t.hasField "converted_from_deserialized" = false) {n : ℕ}
    {w : PyVal} {data : List UInt8} (hbuilt : Built n w) (hwrapper : w.isWrapper t = true)
    (hown : t.Sat ownClassSpec w) (hself : t.eq instEq w w = true)
    (h : t.serializeToBytes rt codec w = .ok data) :
    ∃ w', t.convertedFromDeserialized codec data = .ok w' ∧ t.eq instEq w' w = true := by
  unfold MessageType.serializeToBytes at h
  split at h
  · cases h
  · obtain ⟨m, hm, hdata⟩ := bind_eq_ok.1 h
    obtain ⟨hvalid, hrep, hmessage⟩ := ht.represents hbuilt hwrapper hown hm
    have hselfMessage : t.eq readEq m m = true := by
      rw [← MessageType.eq_agrees ht _ _ _ _ hrep hrep, hself]
    obtain ⟨m', hm', hmessage', heq⟩ :=
      codec.fromString_serialized t m data hmessage hselfMessage hdata
    -- the parsed message is converted, as it is equal to the one that was serialized
    have hpb := MessageType.eq_converts ht _ _ _ hvalid hrep hmessage' heq
    obtain ⟨w', -, hw', -⟩ := @MessageType.convert_export rt t ht hnames hnames.1 m' hpb
    refine ⟨w', ?_, ?_⟩
    · rw [MessageType.convertedFromDeserialized, hname, if_neg Bool.false_ne_true, hm', ok_bind,
        hw']
    · have hrep' := MessageType.convert_represents ht m' w' hmessage' hw'
      rw [MessageType.eq_agrees ht _ _ _ _ hrep' hrep, heq]

/-! ## Durations of a few seconds -/

/-- The bytes of a duration whose only field is one byte long. -/
def encodeSeconds (t : MessageType) : PyVal → Except PyExc (List UInt8)
  | .pb _ pbFields =>
    match pbGetattr pbFields "seconds".toList (.scalar (.int .int64)),
      pbGetattr pbFields "nanos".toList (.scalar (.int .int32)) with
    | .atom (.int seconds), .atom (.int 0) =>
      if t = duration ∧ 0 < seconds ∧ seconds < 128 then
        .ok [0x08, UInt8.ofNat seconds.toNat]
      else .error (.other 0)
    | _, _ => .error (.other 0)
  | _ => .error (.other 0)

def decodeSeconds (t : MessageType) : List UInt8 → Except PyExc PyVal
  | [0x08, seconds] =>
    if t = duration ∧ seconds < 128 then
      .ok (.pb duration.proto [("seconds".toList, .atom (.int seconds.toNat))])
    else .error (.other 0)
  | _ => .error (.other 0)

theorem encodeSeconds_eq_ok {t : MessageType} {m : PyVal} {data : List UInt8}
    (h : encodeSeconds t m = .ok data) : t = duration ∧ ∃ proto pbFields, m = .pb proto pbFields ∧
      ∃ seconds : ℤ, 0 < seconds ∧ seconds < 128 ∧ data = [0x08, UInt8.ofNat seconds.toNat] ∧
        pbGetattr pbFields "seconds".toList (.scalar (.int .int64)) = .atom (.int seconds) ∧
        pbGetattr pbFields "nanos".toList (.scalar (.int .int32)) = .atom (.int 0) := by
  unfold encodeSeconds at h
  split at h
  · next proto pbFields =>
      split at h
      · next seconds hseconds hnanos =>
          split at h
          · next hcond =>
              cases h
              exact ⟨hcond.1, proto, pbFields, rfl, seconds, hcond.2.1, hcond.2.2, rfl, hseconds,
                hnanos⟩
          · cases h
      · cases h
  · cases h

theorem decodeSeconds_encodeSeconds {t : MessageType} {m : PyVal} {data : List UInt8}
    (hm : t.Sat messageSpec m) (h : encodeSeconds t m = .ok data) :
    ∃ m', decodeSeconds t data = .ok m' ∧ t.Sat messageSpec m' ∧ t.eq readEq m' m = true := by
  obtain ⟨rfl, proto, pbFields, rfl, seconds, hpos, hlt, rfl, hseconds, hnanos⟩ :=
    encodeSeconds_eq_ok h
  obtain rfl : proto = duration.proto := of_decide_eq_true hm.1
  have hnat : (UInt8.ofNat seconds.toNat).toNat = seconds.toNat := by
    rw [UInt8.toNat_ofNat']
    omega
  have hsmall : UInt8.ofNat seconds.toNat < 128 := by
    rw [UInt8.lt_iff_toNat_lt, hnat]
    show seconds.toNat < 128
    omega
  have hint : ((UInt8.ofNat seconds.toNat).toNat : ℤ) = seconds := by
    rw [hnat]
    omega
  refine ⟨_, if_pos ⟨rfl, hsmall⟩, ?_, ?_⟩
  · rw [hint]
    have hproto : PyVal.isProto duration (.pb duration.proto
        [("seconds".toList, .atom (.int seconds))]) = true := by
      simp [PyVal.isProto]
    have hrange : IntKind.int64.InRange seconds := by
      unfold IntKind.InRange
      omega
    have hnano : (ScalarType.int .int32).Holds (.int 0) := by decide
    exact ⟨hproto, ⟨_, rfl, _, rfl, rfl, hrange⟩, ⟨_, rfl, _, rfl, hnano⟩, trivial⟩
  · rw [hint]
    have hself : (Atom.int seconds).eq (.int seconds) = true := Atom.eq_refl (by simp)
    rw [MessageType.eq_eq, Bool.and_eq_true, Fields.eq_iff]
    refine ⟨by simp [readEq], ?_⟩
    simp only [duration, MessageType.fields, Fields.toList, List.forall_mem_cons]
    exact ⟨⟨_, _, rfl, congrArg some hseconds, hself⟩, ⟨_, _, rfl, congrArg some hnanos, rfl⟩,
      by simp⟩

def secondsCodec : PbCodec where
  serializeToString := encodeSeconds
  fromString := decodeSeconds
  fromString_serialized _ _ _ hm _ h := decodeSeconds_encodeSeconds hm h

/-- `Duration(seconds=5)` -/
def fiveSeconds : PyVal :=
  .inst duration none [("seconds".toList, .atom (.int 5)), ("nanos".toList, .atom (.int 0))]

theorem built_fiveSeconds : Built 1 fiveSeconds :=
  @APICall.new _ duration none [("seconds".toList, .atom (.int 5))] _
    (by
      intro e hmem
      cases List.mem_singleton.1 hmem
      exact .atom _)
    rfl

theorem converted_serialized_example : ∃ w',
    duration.convertedFromDeserialized secondsCodec [0x08, 0x05] = .ok w' ∧
      duration.eq instEq w' fiveSeconds = true :=
  @MessageType.converted_serialized indexRuntime secondsCodec duration duration_supported
    ⟨by decide, duration_everywhere⟩ (by decide) 1 _ _ built_fiveSeconds rfl
    ⟨⟨_, _, rfl⟩, ⟨_, rfl, _, rfl, trivial⟩, ⟨_, rfl, _, rfl, trivial⟩, trivial⟩ (by decide) rfl

end IotLoggingServer
