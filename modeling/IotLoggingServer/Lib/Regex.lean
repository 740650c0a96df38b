import Mathlib.Data.List.Basic

set_option autoImplicit false

/-! # Regular expressions with priorities

Backtracking matching of the fragment that needs no loop over groups: characters by class, greedy
repetition of a class, an optional part, named groups and tests of what is left of the input (`$`).

`results r s` lists every way `r` can take a beginning of `s`, in the order a backtracking matcher
tries them; the match is the first of them. `Takes` says declaratively which ways there are, and
`mem_results` that the list holds exactly those. Where a greedy group comes first, the match is the
longest one (`match?_group_oneOrMore`). -/

namespace IotLoggingServer

/-- Regular expressions over characters `α` with groups named by `ν`. -/
inductive Regex (α ν : Type)
  /-- one character of a class -/
  | char (p : α → Bool)
  /-- as many characters of a class as possible, or fewer -/
  | many (p : α → Bool)
  /-- the part if possible, or nothing -/
  | opt (r : Regex α ν)
  | seq (r s : Regex α ν)
  | group (name : ν) (r : Regex α ν)
  /-- takes nothing, and tests what is left -/
  | left (p : List α → Bool)

namespace Regex

variable {α ν : Type}

/-- One way to match: what is taken, what is left, and the groups. -/
structure Result (α ν : Type) where
  taken : List α
  rest : List α
  groups : List (ν × List α)

/-- The literal string `w`. -/
def lit [DecidableEq α] : List α → Regex α ν
  | [] => .left (fun _ => true)
  | c :: w => .seq (.char (fun x => decide (x = c))) (lit w)

/-- One or more characters of a class. -/
def oneOrMore (p : α → Bool) : Regex α ν := .seq (.char p) (.many p)

/-! ## Matching -/

/-- The beginnings of `s` of characters in `p`, longest first. -/
def manyResults (p : α → Bool) : List α → List (Result α ν)
  | [] => [⟨[], [], []⟩]
  | c :: s =>
    (if p c then (manyResults p s).map (fun r => ⟨c :: r.taken, r.rest, r.groups⟩) else []) ++
      [⟨[], c :: s, []⟩]

/-- Every way to match a beginning of the input, in the order of preference. -/
def results : Regex α ν → List α → List (Result α ν)
  | .char _, [] => []
  | .char p, c :: s => if p c then [⟨[c], s, []⟩] else []
  | .many p, s => manyResults p s
  | .opt r, s => results r s ++ [⟨[], s, []⟩]
  | .seq r₁ r₂, s => (results r₁ s).flatMap (fun a =>
      (results r₂ a.rest).map (fun b => ⟨a.taken ++ b.taken, b.rest, a.groups ++ b.groups⟩))
  | .group name r, s =>
      (results r s).map (fun a => ⟨a.taken, a.rest, (name, a.taken) :: a.groups⟩)
  | .left p, s => if p s then [⟨[], s, []⟩] else []

/-- The match at the beginning of the input. -/
def match? (r : Regex α ν) (s : List α) : Option (Result α ν) := (results r s).head?

/-! ## What can be matched -/

/-- `r` can take `t` where `rest` follows, with these groups. -/
def Takes : Regex α ν → List α → List α → List (ν × List α) → Prop
  | .char p, t, _, g => ∃ c, p c = true ∧ t = [c] ∧ g = []
  | .many p, t, _, g => (∀ c ∈ t, p c = true) ∧ g = []
  | .opt r, t, rest, g => Takes r t rest g ∨ t = [] ∧ g = []
  | .seq r₁ r₂, t, rest, g => ∃ t₁ t₂ g₁ g₂, t = t₁ ++ t₂ ∧ g = g₁ ++ g₂ ∧
      Takes r₁ t₁ (t₂ ++ rest) g₁ ∧ Takes r₂ t₂ rest g₂
  | .group name r, t, rest, g => ∃ g', g = (name, t) :: g' ∧ Takes r t rest g'
  | .left p, t, rest, g => p rest = true ∧ t = [] ∧ g = []

theorem mem_manyResults {p : α → Bool} {s t rest : List α} {g : List (ν × List α)} :
    (⟨t, rest, g⟩ : Result α ν) ∈ manyResults p s ↔
      s = t ++ rest ∧ (∀ c ∈ t, p c = true) ∧ g = [] := by
  induction s generalizing t with
  | nil =>
      rw [manyResults, List.mem_singleton, Result.mk.injEq]
      constructor
      · rintro ⟨rfl, rfl, rfl⟩
        simp
      · rintro ⟨hs, -, rfl⟩
        obtain ⟨rfl, rfl⟩ := List.append_eq_nil_iff.1 hs.symm
        simp
  | cons c s ih =>
      rw [manyResults, List.mem_append, List.mem_singleton, Result.mk.injEq]
      constructor
      · rintro (h | ⟨rfl, rfl, rfl⟩)
        · split at h
          · next hc =>
              obtain ⟨⟨t', rest', g'⟩, hmem, heq⟩ := List.mem_map.1 h
              rw [Result.mk.injEq] at heq
              obtain ⟨rfl, rfl, rfl⟩ := heq
              obtain ⟨rfl, hall, rfl⟩ := ih.1 hmem
              exact ⟨rfl, List.forall_mem_cons.2 ⟨hc, hall⟩, rfl⟩
          · exact absurd h List.not_mem_nil
        · simp
      · rintro ⟨hs, hall, rfl⟩
        cases t with
        | nil => exact Or.inr ⟨rfl, hs.symm, rfl⟩
        | cons d t =>
            rw [List.cons_append, List.cons.injEq] at hs
            obtain ⟨rfl, rfl⟩ := hs
            rw [List.forall_mem_cons] at hall
            rw [if_pos hall.1]
            exact Or.inl (List.mem_map.2 ⟨⟨t, rest, []⟩, ih.2 ⟨rfl, hall.2, rfl⟩, rfl⟩)

/-- **The matcher tries exactly the ways there are.** -/
theorem mem_results {r : Regex α ν} {s t rest : List α} {g : List (ν × List α)} :
    (⟨t, rest, g⟩ : Result α ν) ∈ results r s ↔ s = t ++ rest ∧ Takes r t rest g := by
  induction r generalizing s t rest g with
  | char p =>
      constructor
      · intro h
        cases s with
        | nil => simp [results] at h
        | cons c s =>
            simp only [results] at h
            split at h
            · next hc =>
                rw [List.mem_singleton, Result.mk.injEq] at h
                obtain ⟨rfl, rfl, rfl⟩ := h
                exact ⟨rfl, c, hc, rfl, rfl⟩
            · exact absurd h List.not_mem_nil
      · rintro ⟨rfl, c, hc, rfl, rfl⟩
        simp [results, hc]
  | many p => rw [results, mem_manyResults, Takes]
  | opt r ih =>
      rw [results, List.mem_append, ih, List.mem_singleton, Result.mk.injEq, Takes]
      constructor
      · rintro (⟨rfl, h⟩ | ⟨rfl, rfl, rfl⟩)
        · exact ⟨rfl, Or.inl h⟩
        · exact ⟨rfl, Or.inr ⟨rfl, rfl⟩⟩
      · rintro ⟨rfl, h | ⟨rfl, rfl⟩⟩
        · exact Or.inl ⟨rfl, h⟩
        · exact Or.inr ⟨rfl, rfl, rfl⟩
  | seq r₁ r₂ ih₁ ih₂ =>
      rw [results, List.mem_flatMap]
      constructor
      · rintro ⟨⟨t₁, s₁, g₁⟩, h₁, h⟩
        obtain ⟨⟨t₂, s₂, g₂⟩, h₂, heq⟩ := List.mem_map.1 h
        rw [Result.mk.injEq] at heq
        obtain ⟨rfl, rfl, rfl⟩ := heq
        obtain ⟨rfl, ht₁⟩ := ih₁.1 h₁
        obtain ⟨rfl, ht₂⟩ := ih₂.1 h₂
        exact ⟨(List.append_assoc _ _ _).symm, t₁, t₂, g₁, g₂, rfl, rfl, ht₁, ht₂⟩
      · rintro ⟨rfl, t₁, t₂, g₁, g₂, rfl, rfl, ht₁, ht₂⟩
        exact ⟨_, ih₁.2 ⟨List.append_assoc _ _ _, ht₁⟩,
          List.mem_map.2 ⟨_, ih₂.2 ⟨rfl, ht₂⟩, rfl⟩⟩
  | group name r ih =>
      rw [results, List.mem_map]
      constructor
      · rintro ⟨⟨t', rest', g'⟩, hmem, heq⟩
        rw [Result.mk.injEq] at heq
        obtain ⟨rfl, rfl, rfl⟩ := heq
        obtain ⟨rfl, ht⟩ := ih.1 hmem
        exact ⟨rfl, g', rfl, ht⟩
      · rintro ⟨rfl, g', rfl, ht⟩
        exact ⟨_, ih.2 ⟨rfl, ht⟩, rfl⟩
  | left p =>
      rw [results]
      constructor
      · intro h
        split at h
        · next hp =>
            rw [List.mem_singleton, Result.mk.injEq] at h
            obtain ⟨rfl, rfl, rfl⟩ := h
            exact ⟨rfl, hp, rfl, rfl⟩
        · exact absurd h List.not_mem_nil
      · rintro ⟨rfl, hp, rfl, rfl⟩
        simp [hp]

/-! ## Derived expressions -/

theorem takes_lit [DecidableEq α] {w t rest : List α} {g : List (ν × List α)} :
    Takes (lit w : Regex α ν) t rest g ↔ t = w ∧ g = [] := by
  induction w generalizing t g with
  | nil => simp [lit, Takes]
  | cons c w ih =>
      simp only [lit, Takes, ih, decide_eq_true_eq]
      constructor
      · rintro ⟨t₁, t₂, g₁, g₂, rfl, rfl, ⟨d, rfl, rfl, rfl⟩, rfl, rfl⟩
        exact ⟨rfl, rfl⟩
      · rintro ⟨rfl, rfl⟩
        exact ⟨[c], w, [], [], rfl, rfl, ⟨c, rfl, rfl, rfl⟩, rfl, rfl⟩

theorem takes_oneOrMore {p : α → Bool} {t rest : List α} {g : List (ν × List α)} :
    Takes (oneOrMore p : Regex α ν) t rest g ↔ t ≠ [] ∧ (∀ c ∈ t, p c = true) ∧ g = [] := by
  simp only [oneOrMore, Takes]
  constructor
  · rintro ⟨t₁, t₂, g₁, g₂, rfl, rfl, ⟨c, hc, rfl, rfl⟩, hall, rfl⟩
    exact ⟨by simp, List.forall_mem_cons.2 ⟨hc, hall⟩, rfl⟩
  · rintro ⟨hne, hall, rfl⟩
    obtain ⟨c, t, rfl⟩ := List.exists_cons_of_ne_nil hne
    rw [List.forall_mem_cons] at hall
    exact ⟨[c], t, [], [], rfl, rfl, ⟨c, hall.1, rfl, rfl⟩, hall.2, rfl⟩

/-- A match exists iff the expression can take some beginning of the input. -/
theorem match?_isSome {r : Regex α ν} {s : List α} :
    (match? r s).isSome ↔ ∃ t rest g, s = t ++ rest ∧ Takes r t rest g := by
  rw [match?, List.isSome_head?]
  constructor
  · intro hne
    obtain ⟨⟨t, rest, g⟩, hmem⟩ := List.exists_mem_of_ne_nil _ hne
    exact ⟨t, rest, g, mem_results.1 hmem⟩
  · rintro ⟨t, rest, g, h⟩
    exact List.ne_nil_of_mem (mem_results.2 h)

/-! ## Priorities -/

/-- The ways to repeat a class, longest first. -/
theorem manyResults_sorted (p : α → Bool) (s : List α) :
    (manyResults p s : List (Result α ν)).Pairwise
      (fun a b => b.taken.length < a.taken.length) := by
  induction s with
  | nil => exact List.pairwise_singleton _ _
  | cons c s ih =>
      rw [manyResults, List.pairwise_append]
      split
      · refine ⟨?_, List.pairwise_singleton _ _, ?_⟩
        · rw [List.pairwise_map]
          exact ih.imp (fun hlt => Nat.succ_lt_succ hlt)
        · intro a ha b hb
          obtain ⟨a', -, rfl⟩ := List.mem_map.1 ha
          rw [List.mem_singleton.1 hb]
          exact Nat.succ_pos _
      · exact ⟨List.Pairwise.nil, List.pairwise_singleton _ _, by simp⟩

theorem results_oneOrMore_sorted (p : α → Bool) (s : List α) :
    (results (oneOrMore p) s : List (Result α ν)).Pairwise
      (fun a b => b.taken.length < a.taken.length) := by
  cases s with
  | nil => exact List.Pairwise.nil
  | cons c s =>
      simp only [oneOrMore, results]
      split
      · rw [List.flatMap_singleton, List.pairwise_map]
        exact (manyResults_sorted p s).imp (fun hlt => Nat.succ_lt_succ hlt)
      · exact List.Pairwise.nil

/-- **A greedy group takes all it can.** The match of a repeated class with `r` after it takes the
    longest `t` that leaves something `r` can match. -/
theorem match?_group_oneOrMore {p : α → Bool} {name : ν} {r : Regex α ν} {t rest : List α}
    (hne : t ≠ []) (hall : ∀ c ∈ t, p c = true) (hr : (match? r rest).isSome)
    (hlonger : ∀ t' rest', t ++ rest = t' ++ rest' → (∀ c ∈ t', p c = true) →
      t.length < t'.length → results r rest' = []) :
    match? (.seq (.group name (oneOrMore p)) r) (t ++ rest) =
      (match? r rest).map (fun b => ⟨t ++ b.taken, b.rest, (name, t) :: b.groups⟩) := by
  have hmem : (⟨t, rest, []⟩ : Result α ν) ∈ results (oneOrMore p) (t ++ rest) :=
    mem_results.2 ⟨rfl, takes_oneOrMore.2 ⟨hne, hall, rfl⟩⟩
  obtain ⟨before, after, hsplit⟩ := List.append_of_mem hmem
  have hsorted := @results_oneOrMore_sorted α ν p (t ++ rest)
  rw [hsplit, List.pairwise_append] at hsorted
  have hbefore : ∀ a ∈ before, results r a.rest = [] := by
    intro a ha
    have ha' : a ∈ results (oneOrMore p) (t ++ rest) := by
      rw [hsplit]
      exact List.mem_append_left _ ha
    obtain ⟨heq, htakes⟩ := mem_results.1 ha'
    obtain ⟨-, hall', -⟩ := takes_oneOrMore.1 htakes
    exact hlonger _ _ heq hall' (hsorted.2.2 a ha _ List.mem_cons_self)
  obtain ⟨b, bs, hb⟩ := List.exists_cons_of_ne_nil (List.isSome_head?.1 hr)
  have hfirst : before.flatMap (fun a => (results r a.rest).map (fun b =>
      (⟨a.taken ++ b.taken, b.rest, ((name, a.taken) :: a.groups) ++ b.groups⟩ :
        Result α ν))) = [] := by
    rw [List.flatMap_eq_nil_iff]
    intro a ha
    rw [hbefore a ha, List.map_nil]
  rw [match?, match?, results, results, hsplit, List.flatMap_map, List.flatMap_append, hfirst,
    List.nil_append, List.flatMap_cons, hb]
  rfl

end Regex

end IotLoggingServer
