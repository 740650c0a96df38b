import Mathlib.Data.List.Forall2

set_option autoImplicit false

/-! # Iterators that read a growing list

A loop `for x in it: c.append(put(x))` asks its iterator for the next element while the list `c`
grows, and the iterator may be one that reads `c`. An iterator here is a machine that sees the list
at every read. `feed` is the loop, with fuel, since it need not end: it ends with the elements of
`ys` appended iff the iterator, read while the list grows by them, gives elements that `put` makes
`ys` of (`feed_ends_iff`). An iterator that does not look at the list always does
(`Independent.gives`); the list itself never does, unless it is empty (`feed_itself_eq_none`). -/

namespace IotLoggingServer

/-- An iterator that gives elements of `α`, or raises, and sees a list of `β` at every read. -/
structure LiveIter (ε α β : Type) where
  State : Type
  start : State
  next : State → List β → Except ε (Option (α × State))

namespace LiveIter

variable {ε α β : Type}

/-- The elements of a list that is not the one that grows, then the exception, if any. -/
def ofList (xs : List α) (raised : Option ε) : LiveIter ε α β where
  State := List α
  start := xs
  next s _ :=
    match s, raised with
    | x :: rest, _ => .ok (some (x, rest))
    | [], none => .ok none
    | [], some e => .error e

/-- The growing list itself, read by index. -/
def itself : LiveIter ε β β where
  State := ℕ
  start := 0
  next i xs := .ok (xs[i]?.map (fun x => (x, i + 1)))

/-- What the iterator gives does not depend on the list. -/
def Independent (it : LiveIter ε α β) : Prop := ∀ s c c', it.next s c = it.next s c'

theorem independent_ofList (xs : List α) (raised : Option ε) :
    (ofList xs raised : LiveIter ε α β).Independent := fun _ _ _ => rfl

/-! ## What an iterator gives -/

/-- Read from the state `s`, the iterator gives `xs` and ends; `views i` is what the list holds at
    the `i`-th read. -/
def Gives (it : LiveIter ε α β) : it.State → (ℕ → List β) → List α → Prop
  | s, views, [] => it.next s (views 0) = .ok none
  | s, views, x :: xs => ∃ s', it.next s (views 0) = .ok (some (x, s')) ∧
      it.Gives s' (fun i => views (i + 1)) xs

theorem gives_ofList (xs s : List α) (views : ℕ → List β) :
    (ofList xs none : LiveIter ε α β).Gives s views s := by
  induction s generalizing views with
  | nil => rfl
  | cons x rest ih => exact ⟨rest, rfl, ih _⟩

/-- The list itself gives what is left of it, as long as it stays as it is. -/
theorem gives_itself {ys : List β} : ∀ {i : ℕ} {xs : List β},
    (itself : LiveIter ε β β).Gives i (fun _ => ys) xs ↔ xs = ys.drop i := by
  intro i xs
  induction xs generalizing i with
  | nil =>
      show Except.ok (ys[i]?.map (fun x => (x, i + 1))) = .ok none ↔ [] = ys.drop i
      rw [Except.ok.injEq, Option.map_eq_none_iff, List.getElem?_eq_none_iff, eq_comm,
        List.drop_eq_nil_iff]
  | cons x rest ih =>
      show (∃ s', Except.ok (ys[i]?.map (fun x => (x, i + 1))) = .ok (some (x, s')) ∧
        (itself : LiveIter ε β β).Gives s' (fun _ => ys) rest) ↔ x :: rest = ys.drop i
      rcases Nat.lt_or_ge i ys.length with hi | hi
      · rw [List.drop_eq_getElem_cons hi, List.getElem?_eq_getElem hi]
        simp only [Option.map_some, Except.ok.injEq, Option.some.injEq, Prod.mk.injEq,
          List.cons.injEq]
        constructor
        · rintro ⟨_, ⟨rfl, rfl⟩, hrest⟩
          exact ⟨rfl, ih.1 hrest⟩
        · rintro ⟨rfl, hrest⟩
          exact ⟨i + 1, ⟨rfl, rfl⟩, ih.2 hrest⟩
      · rw [List.getElem?_eq_none hi, List.drop_eq_nil_of_le hi]
        simp

/-- An iterator that does not look at the list gives the same whatever the list holds. -/
theorem Independent.gives {it : LiveIter ε α β} (h : it.Independent) {views : ℕ → List β}
    (views' : ℕ → List β) {s : it.State} {xs : List α} (hgives : it.Gives s views xs) :
    it.Gives s views' xs := by
  induction xs generalizing s views views' with
  | nil => exact (h s (views' 0) (views 0)).trans hgives
  | cons x rest ih =>
      obtain ⟨s', hnext, hrest⟩ := hgives
      exact ⟨s', (h s (views' 0) (views 0)).trans hnext, ih _ hrest⟩

/-- `list(it)`, with fuel for the reads, while the list stays as it is. -/
def collect (it : LiveIter ε α β) : ℕ → it.State → List β → Option (Except ε (List α))
  | 0, _, _ => none
  | fuel + 1, s, c =>
    match it.next s c with
    | .error e => some (.error e)
    | .ok none => some (.ok [])
    | .ok (some (x, s')) => (it.collect fuel s' c).map (fun r => r.map (fun xs => x :: xs))

theorem gives_of_collect {it : LiveIter ε α β} {fuel : ℕ} {s : it.State} {c : List β}
    {xs : List α} (h : it.collect fuel s c = some (.ok xs)) : it.Gives s (fun _ => c) xs := by
  induction fuel generalizing s xs with
  | zero => cases h
  | succ fuel ih =>
      rw [collect] at h
      split at h
      · cases h
      · next hnext =>
          cases h
          exact hnext
      · next x s' hnext =>
          obtain ⟨r, hr, hxs⟩ := Option.map_eq_some_iff.1 h
          rcases r with e | rest
          · cases hxs
          · cases hxs
            exact ⟨s', hnext, ih hr⟩

/-! ## The loop -/

/-- `for x in it: c.append(put(x))`, with fuel for the reads: the exception that ended the loop, if
    any, and the list it left. -/
def feed (it : LiveIter ε α β) (put : α → Except ε β) :
    ℕ → it.State → List β → Option (Option ε × List β)
  | 0, _, _ => none
  | fuel + 1, s, c =>
    match it.next s c with
    | .error e => some (some e, c)
    | .ok none => some (none, c)
    | .ok (some (x, s')) =>
      match put x with
      | .error e => some (some e, c)
      | .ok y => it.feed put fuel s' (c ++ [y])

/-- One read of the loop gives `x`. -/
inductive Drawn (it : LiveIter ε α β) (put : α → Except ε β) : it.State → List β → α → Prop
  | here {s s' : it.State} {c : List β} {x : α} (hnext : it.next s c = .ok (some (x, s'))) :
      Drawn it put s c x
  | later {s s' : it.State} {c : List β} {x z : α} {y : β}
      (hnext : it.next s c = .ok (some (x, s'))) (hput : put x = .ok y)
      (hrest : Drawn it put s' (c ++ [y]) z) : Drawn it put s c z

section Feed

variable {it : LiveIter ε α β} {put : α → Except ε β}

theorem Drawn.next_eq {s : it.State} {c : List β} {x : α} (h : it.Drawn put s c x) :
    ∃ y s', it.next s c = .ok (some (y, s')) ∧
      (x = y ∨ ∃ z, put y = .ok z ∧ it.Drawn put s' (c ++ [z]) x) := by
  cases h with
  | here hnext => exact ⟨_, _, hnext, .inl rfl⟩
  | later hnext hput hrest => exact ⟨_, _, hnext, .inr ⟨_, hput, hrest⟩⟩

/-- A list that is not the one that grows gives its own elements only. -/
theorem mem_of_drawn_ofList {xs s : List α} {raised : Option ε} {c : List β} {x : α}
    (h : (ofList xs raised).Drawn put s c x) : x ∈ s := by
  induction s generalizing c with
  | nil =>
      obtain ⟨y, s', hnext, -⟩ := h.next_eq
      cases raised <;> cases hnext
  | cons a rest ih =>
      obtain ⟨y, s', hnext, hx⟩ := h.next_eq
      cases hnext
      rcases hx with rfl | ⟨z, -, hrest⟩
      · exact List.mem_cons_self
      · exact List.mem_cons_of_mem _ (ih hrest)

theorem feed_of_next {fuel : ℕ} {s s' : it.State} {c : List β} {x : α} {y : β}
    (hnext : it.next s c = .ok (some (x, s'))) (hput : put x = .ok y) :
    it.feed put (fuel + 1) s c = it.feed put fuel s' (c ++ [y]) := by
  rw [feed, hnext]
  show (match put x with
    | .error e => some (some e, c)
    | .ok y => it.feed put fuel s' (c ++ [y])) = _
  rw [hput]

/-- A read that gives nothing ends the loop. -/
theorem feed_of_end {fuel : ℕ} {s : it.State} {c : List β} (hnext : it.next s c = .ok none) :
    it.feed put (fuel + 1) s c = some (none, c) := by
  rw [feed, hnext]

/-- What a loop can do in its first round. -/
theorem feed_cases {fuel : ℕ} {s : it.State} {c : List β} {r : Option ε × List β}
    (h : it.feed put (fuel + 1) s c = some r) :
    (∃ e, it.next s c = .error e ∧ r = (some e, c)) ∨
    (it.next s c = .ok none ∧ r = (none, c)) ∨
    ∃ x s', it.next s c = .ok (some (x, s')) ∧
      ((∃ e, put x = .error e ∧ r = (some e, c)) ∨
        ∃ y, put x = .ok y ∧ it.feed put fuel s' (c ++ [y]) = some r) := by
  rw [feed] at h
  split at h
  · next e hnext => exact .inl ⟨e, hnext, (Option.some.inj h).symm⟩
  · next hnext => exact .inr (.inl ⟨hnext, (Option.some.inj h).symm⟩)
  · next x s' hnext =>
      refine .inr (.inr ⟨x, s', hnext, ?_⟩)
      split at h
      · next e hput => exact .inl ⟨e, hput, (Option.some.inj h).symm⟩
      · next y hput => exact .inr ⟨y, hput, h⟩

/-- More fuel does not change what the loop did. -/
theorem feed_mono {fuel fuel' : ℕ} (hle : fuel ≤ fuel') {s : it.State} {c : List β}
    {r : Option ε × List β} (h : it.feed put fuel s c = some r) :
    it.feed put fuel' s c = some r := by
  induction fuel generalizing s c fuel' with
  | zero => cases h
  | succ fuel ih =>
      obtain ⟨n, rfl⟩ : ∃ n, fuel' = n + 1 := ⟨fuel' - 1, by omega⟩
      rcases feed_cases h with ⟨e, hnext, rfl⟩ | ⟨hnext, rfl⟩ | ⟨x, s', hnext, hround⟩
      · rw [feed, hnext]
      · exact feed_of_end hnext
      · rcases hround with ⟨e, hput, rfl⟩ | ⟨y, hput, hrest⟩
        · simp only [feed, hnext, hput]
        · rw [feed_of_next hnext hput]
          exact ih (by omega) hrest

/-- The loop only appends. -/
theorem feed_append {fuel : ℕ} {s : it.State} {c : List β} {r : Option ε × List β}
    (h : it.feed put fuel s c = some r) : ∃ ys, r.2 = c ++ ys := by
  induction fuel generalizing s c with
  | zero => cases h
  | succ fuel ih =>
      rcases feed_cases h with ⟨e, -, rfl⟩ | ⟨-, rfl⟩ | ⟨x, s', -, hround⟩
      · exact ⟨[], (List.append_nil c).symm⟩
      · exact ⟨[], (List.append_nil c).symm⟩
      · rcases hround with ⟨e, -, rfl⟩ | ⟨y, -, hrest⟩
        · exact ⟨[], (List.append_nil c).symm⟩
        · obtain ⟨ys, hys⟩ := ih hrest
          exact ⟨y :: ys, by rw [hys, List.append_assoc]; rfl⟩

/-- The list grows by the first of `ys` before the rest is appended. -/
theorem take_succ_view (c : List β) (y : β) (ys : List β) :
    (fun i => c ++ (y :: ys).take (i + 1)) = fun i => (c ++ [y]) ++ ys.take i := by
  funext i
  rw [List.take_succ_cons, List.append_assoc]
  rfl

/-- The loop ends after appending `ys` if the iterator, read while the list grows by them, gives
    elements that `put` makes `ys` of. -/
theorem feed_of_gives {s : it.State} {c : List β} {xs : List α} {ys : List β}
    (hgives : it.Gives s (fun i => c ++ ys.take i) xs)
    (hput : List.Forall₂ (fun x y => put x = .ok y) xs ys) :
    it.feed put (ys.length + 1) s c = some (none, c ++ ys) := by
  induction hput generalizing s c with
  | nil =>
      rw [List.append_nil]
      have hnext : it.next s (c ++ [].take 0) = .ok none := hgives
      rw [List.take_nil, List.append_nil] at hnext
      exact feed_of_end hnext
  | @cons x y xs ys hxy _ ih =>
      obtain ⟨s', hnext, hrest⟩ := hgives
      have hnext : it.next s c = .ok (some (x, s')) := by simpa using hnext
      rw [take_succ_view] at hrest
      rw [List.length_cons, feed_of_next hnext hxy, ih hrest, List.append_assoc]
      rfl

/-- Every loop that ends after appending `ys` comes about so. -/
theorem gives_of_feed {fuel : ℕ} {s : it.State} {c ys : List β}
    (h : it.feed put fuel s c = some (none, c ++ ys)) :
    ∃ xs, it.Gives s (fun i => c ++ ys.take i) xs ∧
      List.Forall₂ (fun x y => put x = .ok y) xs ys := by
  induction fuel generalizing s c ys with
  | zero => cases h
  | succ fuel ih =>
      rcases feed_cases h with ⟨e, -, hr⟩ | ⟨hnext, hr⟩ | ⟨x, s', hnext, hround⟩
      · cases congrArg Prod.fst hr
      · obtain rfl : ys = [] := List.append_right_eq_self.1 (congrArg Prod.snd hr)
        refine ⟨[], ?_, .nil⟩
        show it.next s (c ++ [].take 0) = .ok none
        rw [List.take_nil, List.append_nil]
        exact hnext
      · rcases hround with ⟨e, -, hr⟩ | ⟨y, hput, hrest⟩
        · cases congrArg Prod.fst hr
        · -- what the loop leaves starts with what it has appended so far
          obtain ⟨ys', hys'⟩ := feed_append hrest
          obtain rfl : ys = y :: ys' := by
            rw [List.append_assoc] at hys'
            exact List.append_cancel_left hys'
          have hlast : it.feed put fuel s' (c ++ [y]) = some (none, (c ++ [y]) ++ ys') := by
            rw [hrest, List.append_assoc]
            rfl
          obtain ⟨xs, hgives, hall⟩ := ih hlast
          refine ⟨x :: xs, ⟨s', ?_, ?_⟩, .cons hput hall⟩
          · simpa using hnext
          · rw [take_succ_view]
            exact hgives

/-- **When the loop ends with `ys` appended**: when the iterator, read while the list grows by them,
    gives elements that `put` makes `ys` of. -/
theorem feed_ends_iff {s : it.State} {c ys : List β} :
    (∃ enough, ∀ fuel, enough ≤ fuel → it.feed put fuel s c = some (none, c ++ ys)) ↔
      ∃ xs, it.Gives s (fun i => c ++ ys.take i) xs ∧
        List.Forall₂ (fun x y => put x = .ok y) xs ys := by
  constructor
  · rintro ⟨enough, h⟩
    exact gives_of_feed (h enough (Nat.le_refl _))
  · rintro ⟨xs, hgives, hput⟩
    exact ⟨ys.length + 1, fun fuel hle => feed_mono hle (feed_of_gives hgives hput)⟩

/-- Where the iterator, read in the loop, gives elements that `put` makes `ys` of, every end of the
    loop is that one. -/
theorem feed_eq_of_gives {fuel : ℕ} {s : it.State} {c : List β} {xs : List α} {ys : List β}
    {r : Option ε × List β} (h : it.feed put fuel s c = some r)
    (hgives : it.Gives s (fun i => c ++ ys.take i) xs)
    (hput : List.Forall₂ (fun x y => put x = .ok y) xs ys) : r = (none, c ++ ys) := by
  have hends := feed_mono (Nat.le_max_right fuel _) (feed_of_gives hgives hput)
  rw [feed_mono (Nat.le_max_left fuel _) h] at hends
  exact Option.some.inj hends

/-- What holds of the list and of all that is appended holds of what the loop leaves. -/
theorem feed_forall {P : β → Prop} {fuel : ℕ} {s : it.State} {c : List β}
    {r : Option ε × List β} (h : it.feed put fuel s c = some r) (hc : ∀ y ∈ c, P y)
    (hput : ∀ x, it.Drawn put s c x → ∀ y, put x = .ok y → P y) : ∀ y ∈ r.2, P y := by
  induction fuel generalizing s c with
  | zero => cases h
  | succ fuel ih =>
      rcases feed_cases h with ⟨e, -, rfl⟩ | ⟨-, rfl⟩ | ⟨x, s', hnext, hround⟩
      · exact hc
      · exact hc
      · rcases hround with ⟨e, -, rfl⟩ | ⟨y, hy, hrest⟩
        · exact hc
        · refine ih hrest (fun z hz => ?_) (fun z hz => hput z (.later hnext hy hz))
          rcases List.mem_append.1 hz with hz | hz
          · exact hc z hz
          · rw [List.mem_singleton.1 hz]
            exact hput x (.here hnext) y hy

/-- All that the iterator gives in the loop, one of its reads gives. -/
theorem drawn_of_gives {s : it.State} {c : List β} {xs : List α} {ys : List β}
    (hgives : it.Gives s (fun i => c ++ ys.take i) xs)
    (hput : List.Forall₂ (fun x y => put x = .ok y) xs ys) : ∀ x ∈ xs, it.Drawn put s c x := by
  induction hput generalizing s c with
  | nil => simp
  | @cons x y xs ys hxy _ ih =>
      obtain ⟨s', hnext, hrest⟩ := hgives
      have hnext : it.next s c = .ok (some (x, s')) := by simpa using hnext
      rw [take_succ_view] at hrest
      exact List.forall_mem_cons.2 ⟨.here hnext, fun z hz => .later hnext hxy (ih hrest z hz)⟩

/-- A list that is extended by its own elements never ends the loop, when `put` takes all of them
    and whatever it makes of one. -/
theorem feed_itself_eq_none {put : β → Except ε β}
    (hput : ∀ x y, put x = .ok y → ∃ z, put y = .ok z) {xs : List β}
    (hc : ∀ x ∈ xs, ∃ y, put x = .ok y) {i : ℕ} (hi : i < xs.length) (fuel : ℕ) :
    (itself : LiveIter ε β β).feed put fuel i xs = none := by
  induction fuel generalizing xs i with
  | zero => rfl
  | succ fuel ih =>
      obtain ⟨y, hy⟩ := hc xs[i] (List.getElem_mem hi)
      have hnext : (itself : LiveIter ε β β).next i xs = .ok (some (xs[i], i + 1)) := by
        show Except.ok (xs[i]?.map (fun x => (x, i + 1))) = _
        rw [List.getElem?_eq_getElem hi]
        rfl
      rw [feed_of_next hnext hy]
      refine ih (fun x hx => ?_) (by rw [List.length_append, List.length_singleton]; omega)
      rcases List.mem_append.1 hx with hx | hx
      · exact hc x hx
      · rw [List.mem_singleton.1 hx]
        exact hput _ y hy

end Feed

end LiveIter

end IotLoggingServer
