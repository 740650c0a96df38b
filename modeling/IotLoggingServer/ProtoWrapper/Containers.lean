import IotLoggingServer.Lib.LiveIter
import IotLoggingServer.ProtoWrapper.Values

set_option autoImplicit false

/-! # The repeated containers (`proto_wrapper.py`)

`RepeatedScalarContainer` and `RepeatedCompositeContainer` are lists that override `append` and
`extend` by methods that check the type. `extend` goes over its argument while it appends, so that
it extends like a list as long as the argument does not read the container, and never ends for the
container itself unless it is empty (`extend_likeList_iff`). -/

namespace IotLoggingServer

/-- A container class with what its constructor is given. -/
inductive ContainerType
  /-- `RepeatedScalarContainer(element_type=elementType)` -/
  | scalar (elementType : ScalarType)
  /-- `RepeatedCompositeContainer(converter_type=converterType)` -/
  | composite (converterType : MessageType)

/-- What a method is given to iterate over. -/
abbrev PyIterable := LiveIter PyExc PyVal PyVal

/-- A value that is iterated over and is not the container itself. -/
def PyVal.iterable (v : PyVal) : PyIterable :=
  match v.iter with
  | .ok xs => .ofList xs none
  | .error e => .ofList [] (some e)

theorem PyVal.independent_iterable (v : PyVal) : v.iterable.Independent := by
  unfold PyVal.iterable
  split
  · exact LiveIter.independent_ofList _ _
  · exact LiveIter.independent_ofList _ _

namespace ContainerType

/-- The type of the field that holds such a container. -/
def field : ContainerType → FieldType
  | .scalar t => .repeatedScalar t
  | .composite t => .repeatedComposite t

/-- The check of an element in `convert`, with the conversion of a message. -/
def convertEntry : ContainerType → PyVal → Except PyExc PyVal
  | .scalar t, entry => t.checkExact entry
  | .composite t, entry => t.convertEntry (fun message => t.convert message) entry

/-- The check of `append`: what is appended for its argument. -/
def appended : ContainerType → PyVal → Except PyExc PyVal
  | .scalar t, object => t.checkInstance object
  | .composite t, object => t.convertEntry (fun message => t.convert message) object

/-- `append` -/
def append (k : ContainerType) (c : List PyVal) (object : PyVal) : Except PyExc (List PyVal) := do
  .ok (c ++ [← k.appended object])

/-- `extend`, with fuel for the elements: the exception that it ends with, if any, and what the
    container holds then. -/
def extend (k : ContainerType) (iterable : PyIterable) (fuel : ℕ) (c : List PyVal) :
    Option (Option PyExc × List PyVal) :=
  iterable.feed k.appended fuel iterable.start c

/-- The descriptor of the field converts what it is given. -/
theorem set_field (k : ContainerType) (v : PyVal) :
    k.field.set (some v) = repeatedConvert k.convertEntry v := by
  cases k <;> rfl

/-- A wrapper instance is appended as it is. -/
theorem convertEntry_of_isWrapper {t : MessageType} {v : PyVal} (h : v.isWrapper t = true) :
    (composite t).convertEntry v = .ok v := if_pos h

theorem isWrapper_of_convertEntry {t : MessageType} {v x : PyVal}
    (h : (composite t).convertEntry v = .ok x) : x.isWrapper t = true := by
  rw [convertEntry, MessageType.convertEntry] at h
  split at h
  · next hwrapper =>
      rw [← Except.ok.inj h]
      exact hwrapper
  · split at h
    · exact MessageType.isWrapper_convert h
    · cases h

/-- What was appended once can be appended again. -/
theorem appended_of_appended {k : ContainerType} {v x : PyVal} (h : k.appended v = .ok x) :
    k.appended x = .ok x := by
  cases k with
  | scalar t =>
      obtain ⟨a, -, hcheck, rfl⟩ := PyVal.check_eq_ok.1 h
      exact PyVal.check_eq_ok.2 ⟨a, rfl, hcheck, rfl⟩
  | composite t => exact convertEntry_of_isWrapper (isWrapper_of_convertEntry h)

/-! ## `extend` -/

/-- `extend` ends, and leaves the container with `ys` after what it held. -/
def ExtendsLikeList (k : ContainerType) (c : List PyVal) (iterable : PyIterable)
    (ys : List PyVal) : Prop :=
  ∃ enough, ∀ fuel, enough ≤ fuel → k.extend iterable fuel c = some (none, c ++ ys)

/-- Read while the container grows by `ys`, the argument still gives elements that are converted
    to `ys`. -/
def Undisturbed (k : ContainerType) (c : List PyVal) (iterable : PyIterable)
    (ys : List PyVal) : Prop :=
  ∃ xs, iterable.Gives iterable.start (fun i => c ++ ys.take i) xs ∧ xs.mapM k.appended = .ok ys

theorem extendsLikeList_iff {k : ContainerType} {c : List PyVal} {iterable : PyIterable}
    {ys : List PyVal} : k.ExtendsLikeList c iterable ys ↔ k.Undisturbed c iterable ys := by
  unfold ExtendsLikeList Undisturbed extend
  rw [LiveIter.feed_ends_iff]
  simp only [mapM_eq_ok_iff]

/-- A container with elements that can be appended is extended by itself without end. -/
theorem extend_itself_eq_none {k : ContainerType} {c ys : List PyVal} (hne : c ≠ [])
    (hys : c.mapM k.appended = .ok ys) (fuel : ℕ) : k.extend .itself fuel c = none := by
  refine LiveIter.feed_itself_eq_none (fun x y h => ⟨y, appended_of_appended h⟩) ?_
    (List.length_pos_of_ne_nil hne) fuel
  exact exists_of_mapM hys

/-- **When `extend` extends like a list**: for a finite iterable of elements that can be appended,
    exactly when it gives the same while the container grows. An iterable that does not read the
    container always does; the container itself only if it is empty. -/
theorem extend_likeList_iff (k : ContainerType) (c : List PyVal) :
    (∀ (iterable : PyIterable) (xs ys : List PyVal),
      iterable.Gives iterable.start (fun _ => c) xs → xs.mapM k.appended = .ok ys →
        (k.ExtendsLikeList c iterable ys ↔ k.Undisturbed c iterable ys) ∧
        (iterable.Independent → k.Undisturbed c iterable ys)) ∧
    ∀ ys, c.mapM k.appended = .ok ys → (k.Undisturbed c .itself ys ↔ c = []) := by
  refine ⟨fun iterable xs ys hgives hys => ⟨extendsLikeList_iff, fun hind => ?_⟩,
    fun ys hys => ⟨fun h => ?_, ?_⟩⟩
  · exact ⟨xs, hind.gives _ hgives, hys⟩
  · by_contra hne
    obtain ⟨enough, hends⟩ := extendsLikeList_iff.2 h
    have hnone := extend_itself_eq_none hne hys enough
    rw [hends enough (Nat.le_refl _)] at hnone
    cases hnone
  · rintro rfl
    obtain rfl : ys = [] := by
      cases hys
      rfl
    exact ⟨[], rfl, rfl⟩

theorem extend_likeList_iff_example : (scalar (.int .int32)).ExtendsLikeList [.atom (.int 7)]
    (PyVal.list [.atom (.int 1), .atom (.int 2)]).iterable
    [.atom (.int 1), .atom (.int 2)] := by
  have hind := PyVal.independent_iterable (.list [.atom (.int 1), .atom (.int 2)])
  have hcall := (extend_likeList_iff (.scalar (.int .int32)) [.atom (.int 7)]).1 _ _ _
    (LiveIter.gives_ofList [.atom (.int 1), .atom (.int 2)] _ _) rfl
  exact hcall.1.2 (hcall.2 hind)

/-- `c.extend(c)` does not end for a container with one element. -/
theorem not_extend_likeList : ¬ ∀ (k : ContainerType) (c : List PyVal) (iterable : PyIterable)
    (xs ys : List PyVal), iterable.Gives iterable.start (fun _ => c) xs →
    xs.mapM k.appended = .ok ys → k.ExtendsLikeList c iterable ys := by
  intro h
  obtain ⟨enough, hends⟩ := h (.scalar (.int .int32)) [.atom (.int 1)] .itself _ _
    (LiveIter.gives_itself.2 rfl) rfl
  have hnone : (scalar (.int .int32)).extend .itself enough [.atom (.int 1)] = none :=
    @extend_itself_eq_none _ _ [.atom (.int 1)] (List.cons_ne_nil _ _) rfl enough
  rw [hends enough (Nat.le_refl _)] at hnone
  cases hnone

end ContainerType

/-! ## The methods of `list` -/

/-- An iterable argument: the container itself, or anything else. -/
inductive Argument
  | itself
  | other (iterable : PyIterable)

/-- `iter(argument)` -/
def Argument.iterator : Argument → PyIterable
  | .itself => .itself
  | .other iterable => iterable

/-- The methods of `list` read a copy of the list where they are given the list itself. -/
def Argument.copied (c : List PyVal) : Argument → PyIterable
  | .itself => .ofList c none
  | .other iterable => iterable

/-- `operator.index(v)` -/
def PyVal.index : PyVal → Except PyExc ℤ
  | .atom a =>
    match a.index? with
    | some n => .ok n
    | none => .error .typeError
  | _ => .error .typeError

/-- `IndexError` -/
def indexError : PyExc := .other 1

/-- The position that `insert` takes an index for. -/
def insertPosition (length : ℕ) (index : PyVal) : Except PyExc ℕ := do
  let i ← index.index
  if IntKind.int64.InRange i then
    .ok (if i < 0 then (i + length).toNat else min i.toNat length)
  else .error .overflowError

/-- The position that an item assignment takes an index for. -/
def itemPosition (length : ℕ) (index : PyVal) : Except PyExc ℕ := do
  let i ← index.index
  let i := if i < 0 then i + length else i
  if 0 ≤ i ∧ i < length then .ok i.toNat else .error indexError

structure Slice where
  start : PyVal
  stop : PyVal
  step : PyVal

/-- What a slice assignment replaces. -/
inductive SliceTarget
  /-- everything from `start` up to `stop` -/
  | span (start stop : ℕ)
  | extended (positions : List ℕ)
  deriving DecidableEq, Repr

/-- A part of a slice, `none` if it is `None`. -/
def PyVal.sliceIndex : PyVal → Except PyExc (Option ℤ)
  | .atom .null => .ok none
  | v => do .ok (some (← v.index))

/-- `slice.indices` of a list of this length; an extended slice has its positions one by one. -/
def Slice.target (slice : Slice) (length : ℕ) : Except PyExc SliceTarget := do
  let step := (← slice.step.sliceIndex).getD 1
  if step = 0 then .error (.valueError "slice step cannot be zero".toList none)
  else
    let low : ℤ := if step < 0 then -1 else 0
    let high : ℤ := if step < 0 then length - 1 else length
    let clamp : ℤ → ℤ := fun i => if i < 0 then max (i + length) low else min i high
    let start := ((← slice.start.sliceIndex).map clamp).getD (if step < 0 then high else low)
    let stop := ((← slice.stop.sliceIndex).map clamp).getD (if step < 0 then low else high)
    if step = 1 then .ok (.span start.toNat (max start stop).toNat)
    else
      let distance := if step < 0 then start - stop else stop - start
      let count := if 0 < distance then (distance - 1) / |step| + 1 else 0
      .ok (.extended ((List.range count.toNat).map (fun (i : ℕ) => (start + i * step).toNat)))

/-- An extended slice takes as many values as it has positions. -/
def SliceTarget.fits : SliceTarget → List PyVal → Bool
  | .span _ _, _ => true
  | .extended positions, values => decide (values.length = positions.length)

def SliceTarget.assign (c values : List PyVal) : SliceTarget → List PyVal
  | .span start stop => c.take start ++ values ++ c.drop stop
  | .extended positions => (positions.zip values).foldl (fun c e => c.set e.1 e.2) c

/-! ## Operations -/

/-- What is done to the container of a field. -/
inductive Operation
  | append (object : PyVal)
  | extend (argument : Argument)
  | insert (index object : PyVal)
  /-- `w.field[index] = object` -/
  | setItem (index object : PyVal)
  /-- `w.field[start:stop:step] = argument` -/
  | setSlice (slice : Slice) (argument : Argument)
  /-- `w.field += argument` -/
  | iadd (argument : Argument)

/-- A method that raises leaves the list as it is. -/
def outcome (c : List PyVal) : Except PyExc (List PyVal) → Option PyExc × List PyVal
  | .ok c' => (none, c')
  | .error e => (some e, c)

/-- An operation on a field whose container holds `c`: the exception that it ends with, if any, and
    what the container of the field holds then. The fuel is for the elements of an argument that is
    iterated over. -/
def Operation.run (k : ContainerType) (fuel : ℕ) (c : List PyVal) :
    Operation → Option (Option PyExc × List PyVal)
  | .append object => some (outcome c (k.append c object))
  | .extend argument => k.extend argument.iterator fuel c
  | .insert index object =>
    some (outcome c (do .ok (c.insertIdx (← insertPosition c.length index) object)))
  | .setItem index object =>
    some (outcome c (do .ok (c.set (← itemPosition c.length index) object)))
  | .setSlice slice argument =>
    match slice.target c.length with
    | .error e => some (some e, c)
    | .ok target =>
      match (argument.copied c).collect fuel (argument.copied c).start c with
      | none => none
      | some (.error e) => some (some e, c)
      | some (.ok values) =>
        if target.fits values then some (none, target.assign c values)
        else some (some (.valueError [] none), c)
  | .iadd argument =>
    -- `list.__iadd__` works in place, and then the descriptor converts the list that it returns
    match (argument.copied c).feed .ok fuel (argument.copied c).start c with
    | none => none
    | some (some e, c') => some (some e, c')
    | some (none, c') => some (outcome c' (c'.mapM k.convertEntry))

/-! ## What an operation puts into a container -/

/-- `v` is among the values that the operation is given for a container that holds `c`. -/
def Operation.Given (k : ContainerType) (c : List PyVal) : Operation → PyVal → Prop
  | .append object, v => v = object
  | .extend argument, v => argument.iterator.Drawn k.appended argument.iterator.start c v
  | .insert _ object, v => v = object
  | .setItem _ object, v => v = object
  | .setSlice _ argument, v => ∃ values,
      (argument.copied c).Gives (argument.copied c).start (fun _ => c) values ∧ v ∈ values
  | .iadd argument, v => (argument.copied c).Drawn .ok (argument.copied c).start c v

/-- Every value that the operation puts into a container that holds `c` meets `R`; where `+=` goes
    over the whole argument, the values that the descriptor makes of the given ones do. -/
def Operation.Puts (k : ContainerType) (R : PyVal → Prop) (c : List PyVal) : Operation → Prop
  | .append object => ∀ x, k.appended object = .ok x → R x
  | .extend argument => ∀ v, (Operation.extend argument).Given k c v →
      ∀ x, k.appended v = .ok x → R x
  | .insert index object => ∀ i, insertPosition c.length index = .ok i → R object
  | .setItem index object => ∀ i, itemPosition c.length index = .ok i → R object
  | .setSlice slice argument => ∀ target values, slice.target c.length = .ok target →
      (argument.copied c).Gives (argument.copied c).start (fun _ => c) values →
      target.fits values = true → ∀ v ∈ values, R v
  | .iadd argument => (∀ v, (Operation.iadd argument).Given k c v → R v) ∨
      ∃ values, (argument.copied c).Gives (argument.copied c).start
          (fun i => c ++ values.take i) values ∧
        ∀ v ∈ values, ∃ x, k.convertEntry v = .ok x ∧ R x

section Puts

variable {k : ContainerType} {R : PyVal → Prop} {c : List PyVal}

theorem outcome_forall {x : Except PyExc (List PyVal)} (hc : ∀ v ∈ c, R v)
    (hx : ∀ c', x = .ok c' → ∀ v ∈ c', R v) : ∀ v ∈ (outcome c x).2, R v := by
  cases x with
  | ok c' => exact hx c' rfl
  | error e => exact hc

theorem SliceTarget.assign_forall {values : List PyVal} (hc : ∀ v ∈ c, R v)
    (hvalues : ∀ v ∈ values, R v) (target : SliceTarget) : ∀ v ∈ target.assign c values, R v := by
  cases target with
  | span start stop =>
      intro v hv
      rcases List.mem_append.1 hv with hv | hv
      · rcases List.mem_append.1 hv with hv | hv
        · exact hc v (List.mem_of_mem_take hv)
        · exact hvalues v hv
      · exact hc v (List.mem_of_mem_drop hv)
  | extended positions =>
      rw [SliceTarget.assign]
      induction positions generalizing c values with
      | nil => exact hc
      | cons i rest ih =>
          rcases values with _ | ⟨x, values⟩
          · exact hc
          · rw [List.forall_mem_cons] at hvalues
            refine ih (fun v hv => ?_) hvalues.2
            rcases List.mem_or_eq_of_mem_set hv with hv | rfl
            · exact hc v hv
            · exact hvalues.1

/-! Each way to change the list leaves only values with `R`, if it held only such values. -/

theorem append_forall (hc : ∀ v ∈ c, R v) {object : PyVal}
    (hputs : ∀ x, k.appended object = .ok x → R x) :
    ∀ v ∈ (outcome c (k.append c object)).2, R v := by
  refine outcome_forall hc (fun c' hc' v hv => ?_)
  obtain ⟨x, hx, hc'⟩ := bind_eq_ok.1 hc'
  cases hc'
  rcases List.mem_append.1 hv with hv | hv
  · exact hc v hv
  · rw [List.mem_singleton.1 hv]
    exact hputs x hx

/-- At a position that may not be found, where `update` brings in nothing but `object`. -/
theorem position_forall (hc : ∀ v ∈ c, R v) {position : Except PyExc ℕ} {object : PyVal}
    {update : ℕ → List PyVal} (hupdate : ∀ i, ∀ v ∈ update i, v = object ∨ v ∈ c)
    (hputs : ∀ i, position = .ok i → R object) :
    ∀ v ∈ (outcome c (do .ok (update (← position)))).2, R v := by
  refine outcome_forall hc (fun c' hc' v hv => ?_)
  obtain ⟨i, hi, hc'⟩ := bind_eq_ok.1 hc'
  cases hc'
  rcases hupdate i v hv with rfl | hv
  · exact hputs i hi
  · exact hc v hv

theorem setSlice_forall (hc : ∀ v ∈ c, R v) {slice : Slice} {argument : Argument} {fuel : ℕ}
    (hputs : (Operation.setSlice slice argument).Puts k R c) {r : Option PyExc × List PyVal}
    (h : (Operation.setSlice slice argument).run k fuel c = some r) : ∀ v ∈ r.2, R v := by
  rw [Operation.run] at h
  split at h
  · cases h
    exact hc
  · next target htarget =>
      split at h
      · cases h
      · cases h
        exact hc
      · next values hcollect =>
          split at h
          · next hfits =>
              cases h
              have hgives := LiveIter.gives_of_collect hcollect
              exact SliceTarget.assign_forall hc (hputs target values htarget hgives hfits) _
          · cases h
            exact hc

/-- `+=`, if what is put in as it is given already has `R`. -/
theorem iadd_forall_of_drawn (hR : ∀ v, R v → k.convertEntry v = .ok v) (hc : ∀ v ∈ c, R v)
    {argument : Argument} {fuel : ℕ}
    (hputs : ∀ v, (Operation.iadd argument).Given k c v → R v) {r : Option PyExc × List PyVal}
    (h : (Operation.iadd argument).run k fuel c = some r) : ∀ v ∈ r.2, R v := by
  have hraw : ∀ {r}, (argument.copied c).feed .ok fuel (argument.copied c).start c = some r →
      ∀ v ∈ r.2, R v := fun hfeed => LiveIter.feed_forall hfeed hc
        (fun v hv x hx => by cases hx; exact hputs v hv)
  rw [Operation.run] at h
  split at h
  · cases h
  · next e c' hfeed =>
      cases h
      exact hraw hfeed
  · next c' hfeed =>
      cases h
      have hself := mapM_eq_self_iff.2 (fun v hv => hR v (hraw hfeed v hv))
      rw [hself]
      exact hraw hfeed

/-- `+=`, if the argument is gone over as a whole and what the descriptor makes of it has `R`. -/
theorem iadd_forall_of_gives (hR : ∀ v, R v → k.convertEntry v = .ok v) (hc : ∀ v ∈ c, R v)
    {argument : Argument} {fuel : ℕ} {values : List PyVal}
    (hgives : (argument.copied c).Gives (argument.copied c).start
      (fun i => c ++ values.take i) values)
    (hvalues : ∀ v ∈ values, ∃ x, k.convertEntry v = .ok x ∧ R x)
    {r : Option PyExc × List PyVal}
    (h : (Operation.iadd argument).run k fuel c = some r) : ∀ v ∈ r.2, R v := by
  have hall : List.Forall₂ (fun x y => Except.ok x = (.ok y : Except PyExc PyVal))
      values values := List.forall₂_same.2 (fun _ _ => rfl)
  rw [Operation.run] at h
  split at h
  · cases h
  · next e c' hfeed => cases LiveIter.feed_eq_of_gives hfeed hgives hall
  · next c' hfeed =>
      cases LiveIter.feed_eq_of_gives hfeed hgives hall
      cases h
      have hconvert : ∀ v ∈ c ++ values, ∃ x, k.convertEntry v = .ok x ∧ R x := by
        intro v hv
        rcases List.mem_append.1 hv with hv | hv
        · exact ⟨v, hR v (hc v hv), hc v hv⟩
        · exact hvalues v hv
      obtain ⟨ys, hys, hysR⟩ := mapM_exists hconvert
      rw [hys]
      exact hysR

/-- **An operation leaves only values with `R` in a container of such values**, when it puts only
    such values in and the descriptor leaves them as they are. -/
theorem Operation.run_forall (hR : ∀ v, R v → k.convertEntry v = .ok v) (hc : ∀ v ∈ c, R v)
    {op : Operation} (hputs : op.Puts k R c) {fuel : ℕ} {r : Option PyExc × List PyVal}
    (h : op.run k fuel c = some r) : ∀ v ∈ r.2, R v := by
  cases op with
  | append object =>
      cases h
      exact append_forall hc hputs
  | extend argument => exact LiveIter.feed_forall h hc hputs
  | insert index object =>
      cases h
      exact position_forall hc (fun _ _ hv => List.eq_or_mem_of_mem_insertIdx hv) hputs
  | setItem index object =>
      cases h
      exact position_forall hc (fun _ _ hv => (List.mem_or_eq_of_mem_set hv).symm) hputs
  | setSlice slice argument => exact setSlice_forall hc hputs h
  | iadd argument =>
      rcases hputs with hputs | ⟨values, hgives, hvalues⟩
      · exact iadd_forall_of_drawn hR hc hputs h
      · exact iadd_forall_of_gives hR hc hgives hvalues h

end Puts

end IotLoggingServer
