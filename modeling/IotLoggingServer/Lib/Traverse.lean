import Mathlib.Data.List.Forall2

set_option autoImplicit false

/-! # Traversals that may raise

What a list mapped through a function that may raise becomes, and what comes of mapping it forth
and back again. -/

namespace IotLoggingServer

variable {ε α β γ : Type}

theorem mapM_eq_ok_iff {f : α → Except ε β} {xs : List α} {ys : List β} :
    xs.mapM f = .ok ys ↔ List.Forall₂ (fun x y => f x = .ok y) xs ys := by
  induction xs generalizing ys with
  | nil =>
      rw [List.mapM_nil, List.forall₂_nil_left_iff]
      exact ⟨fun h => by cases h; rfl, fun h => by rw [h]; rfl⟩
  | cons x rest ih =>
      rw [List.mapM_cons, List.forall₂_cons_left_iff]
      constructor
      · intro h
        cases hx : f x with
        | error e =>
            rw [hx] at h
            cases h
        | ok y =>
            cases hrest : rest.mapM f with
            | error e =>
                rw [hx, hrest] at h
                cases h
            | ok ys' =>
                rw [hx, hrest] at h
                cases h
                exact ⟨y, ys', rfl, ih.1 hrest, rfl⟩
      · rintro ⟨y, ys', hx, hrest, rfl⟩
        rw [hx, ih.2 hrest]
        rfl

/-- Every result of a traversal comes from an element. -/
theorem mapM_forall {f : α → Except ε β} {P : β → Prop} {xs : List α} {ys : List β}
    (h : xs.mapM f = .ok ys) (hP : ∀ x ∈ xs, ∀ y, f x = .ok y → P y) : ∀ y ∈ ys, P y := by
  have hall := mapM_eq_ok_iff.1 h
  clear h
  induction hall with
  | nil => simp
  | cons hx _ ih =>
      rw [List.forall_mem_cons] at hP
      exact List.forall_mem_cons.2 ⟨hP.1 _ hx, ih hP.2⟩

/-- A traversal that succeeds does so for every element. -/
theorem exists_of_mapM {f : α → Except ε β} {xs : List α} {ys : List β}
    (h : xs.mapM f = .ok ys) : ∀ x ∈ xs, ∃ y, f x = .ok y := by
  have hall := mapM_eq_ok_iff.1 h
  clear h
  induction hall with
  | nil => simp
  | cons hx _ ih => exact List.forall_mem_cons.2 ⟨⟨_, hx⟩, ih⟩

/-- Where every element is mapped to something with `P`, so is the list. -/
theorem mapM_exists {f : α → Except ε β} {P : β → Prop} {xs : List α}
    (h : ∀ x ∈ xs, ∃ y, f x = .ok y ∧ P y) : ∃ ys, xs.mapM f = .ok ys ∧ ∀ y ∈ ys, P y := by
  induction xs with
  | nil => exact ⟨[], rfl, by simp⟩
  | cons x rest ih =>
      rw [List.forall_mem_cons] at h
      obtain ⟨⟨y, hy, hP⟩, hrest⟩ := h
      obtain ⟨ys, hys, hPs⟩ := ih hrest
      refine ⟨y :: ys, ?_, List.forall_mem_cons.2 ⟨hP, hPs⟩⟩
      rw [List.mapM_cons, hy, hys]
      rfl

/-- A traversal leaves a list as it is iff it leaves its elements so. -/
theorem mapM_eq_self_iff {f : α → Except ε α} {xs : List α} :
    xs.mapM f = .ok xs ↔ ∀ x ∈ xs, f x = .ok x := by
  rw [mapM_eq_ok_iff, List.forall₂_same]

/-- Where every element survives the way forth and back up to `R`, so does the list. -/
theorem mapM_forth_back {f : α → Except ε β} {g : β → Except ε γ} {R : γ → α → Prop} {xs : List α}
    (h : ∀ x ∈ xs, ∃ y z, f x = .ok y ∧ g y = .ok z ∧ R z x) :
    ∃ ys zs, xs.mapM f = .ok ys ∧ ys.mapM g = .ok zs ∧ List.Forall₂ R zs xs := by
  induction xs with
  | nil => exact ⟨[], [], rfl, rfl, .nil⟩
  | cons x rest ih =>
      rw [List.forall_mem_cons] at h
      obtain ⟨⟨y, z, hf, hg, hR⟩, hrest⟩ := h
      obtain ⟨ys, zs, hfs, hgs, hRs⟩ := ih hrest
      refine ⟨y :: ys, z :: zs, ?_, ?_, .cons hR hRs⟩
      · rw [List.mapM_cons, hf, hfs]
        rfl
      · rw [List.mapM_cons, hg, hgs]
        rfl

/-- Where every element that is mapped by `g` comes back up to `R`, so does the list. -/
theorem mapM_back {f : γ → Except ε β} {g : α → Except ε γ} {R : β → α → Prop} {xs : List α}
    {zs : List γ} (hzs : xs.mapM g = .ok zs)
    (h : ∀ x ∈ xs, ∀ z, g x = .ok z → ∃ y, f z = .ok y ∧ R y x) :
    ∃ ys, zs.mapM f = .ok ys ∧ List.Forall₂ R ys xs := by
  have hall := mapM_eq_ok_iff.1 hzs
  clear hzs
  induction hall with
  | nil => exact ⟨[], rfl, .nil⟩
  | cons hz _ ih =>
      rw [List.forall_mem_cons] at h
      obtain ⟨y, hf, hR⟩ := h.1 _ hz
      obtain ⟨ys, hfs, hRs⟩ := ih h.2
      refine ⟨y :: ys, ?_, .cons hR hRs⟩
      rw [List.mapM_cons, hf, hfs]
      rfl

/-- Two traversals in a row are one, element by element. -/
theorem mapM_mapM_eq_ok_iff {f : α → Except ε β} {g : β → Except ε γ} {xs : List α}
    {zs : List γ} : (∃ ys, xs.mapM f = .ok ys ∧ ys.mapM g = .ok zs) ↔
      List.Forall₂ (fun x z => ∃ y, f x = .ok y ∧ g y = .ok z) xs zs := by
  simp only [mapM_eq_ok_iff]
  constructor
  · rintro ⟨ys, hf, hg⟩
    induction hf generalizing zs with
    | nil =>
        rw [List.forall₂_nil_left_iff.1 hg]
        exact .nil
    | cons hxy _ ih =>
        obtain ⟨z, zs', hyz, hrest, rfl⟩ := List.forall₂_cons_left_iff.1 hg
        exact .cons ⟨_, hxy, hyz⟩ (ih hrest)
  · intro h
    induction h with
    | nil => exact ⟨[], .nil, .nil⟩
    | cons hxz _ ih =>
        obtain ⟨y, hxy, hyz⟩ := hxz
        obtain ⟨ys, hf, hg⟩ := ih
        exact ⟨y :: ys, .cons hxy hf, .cons hyz hg⟩

/-- A fold of steps that do not raise, as a fold of what the steps do to the represented state. -/
theorem foldlM_of_simulates {embed : γ → β} {f : β → α → Except ε β} {g : γ → α → γ}
    (h : ∀ c x, f (embed c) x = .ok (embed (g c x))) (xs : List α) (c : γ) :
    xs.foldlM f (embed c) = .ok (embed (xs.foldl g c)) := by
  induction xs generalizing c with
  | nil => rfl
  | cons x rest ih =>
      rw [List.foldlM_cons, h c x]
      exact ih (g c x)

theorem exists_forall₂_iff {R : α → β → Prop} {xs : List α} :
    (∃ ys, List.Forall₂ R xs ys) ↔ ∀ x ∈ xs, ∃ y, R x y := by
  induction xs with
  | nil => simp
  | cons x rest ih =>
      simp only [List.forall₂_cons_left_iff, List.forall_mem_cons, ← ih]
      constructor
      · rintro ⟨_, y, ys, hy, hys, -⟩
        exact ⟨⟨y, hy⟩, ys, hys⟩
      · rintro ⟨⟨y, hy⟩, ys, hys⟩
        exact ⟨y :: ys, y, ys, hy, hys, rfl⟩

theorem forall₂_imp_of_mem {R S : α → β → Prop} {xs : List α} {ys : List β}
    (h : List.Forall₂ R xs ys) (himp : ∀ x ∈ xs, ∀ y, R x y → S x y) : List.Forall₂ S xs ys := by
  induction h with
  | nil => exact .nil
  | cons hxy _ ih =>
      rw [List.forall_mem_cons] at himp
      exact .cons (himp.1 _ hxy) (ih himp.2)

/-- Related lists are also related by `S` iff their elements are. -/
theorem forall₂_iff_forall {R S : α → β → Prop} {P : α → Prop} {xs : List α} {ys : List β}
    (h : List.Forall₂ R xs ys) (hiff : ∀ x ∈ xs, ∀ y, R x y → (S x y ↔ P x)) :
    List.Forall₂ S xs ys ↔ ∀ x ∈ xs, P x := by
  induction h with
  | nil => simp
  | cons hxy _ ih =>
      rw [List.forall_mem_cons] at hiff
      rw [List.forall₂_cons, List.forall_mem_cons, hiff.1 _ hxy, ih hiff.2]

/-- Lists related pointwise are equal as `eqv` compares them. -/
theorem isEqv_of_forall₂ {eqv : α → α → Bool} {xs ys : List α}
    (h : List.Forall₂ (fun x y => eqv x y = true) xs ys) : xs.isEqv ys eqv = true := by
  induction h with
  | nil => rfl
  | cons hxy _ ih => rw [List.isEqv, hxy, ih]; rfl

theorem exists_mem_of_forall₂ {R : α → β → Prop} {xs : List α} {ys : List β}
    (h : List.Forall₂ R xs ys) : ∀ y ∈ ys, ∃ x ∈ xs, R x y := by
  induction h with
  | nil => simp
  | @cons x y _ _ hxy _ ih =>
      refine List.forall_mem_cons.2 ⟨⟨x, List.mem_cons_self, hxy⟩, fun z hmem => ?_⟩
      obtain ⟨x', hmem', hrel⟩ := ih z hmem
      exact ⟨x', List.mem_cons_of_mem _ hmem', hrel⟩

/-! ## Tests of related lists -/

/-- Elements that are related pass the same test. -/
theorem all_congr_forall₂ {R : α → β → Prop} {p : α → Bool} {q : β → Bool} {xs : List α}
    {ys : List β} (h : List.Forall₂ R xs ys) (hpq : ∀ x y, R x y → p x = q y) :
    xs.all p = ys.all q := by
  induction h with
  | nil => rfl
  | cons hxy _ ih => rw [List.all_cons, List.all_cons, hpq _ _ hxy, ih]

/-- Where the elements are compared alike, so are the lists. -/
theorem isEqv_congr_forall₂ {R : α → β → Prop} {eqv : α → α → Bool} {eqv' : β → β → Bool}
    (hR : ∀ x x' y y', R x y → R x' y' → eqv x x' = eqv' y y') {xs xs' : List α}
    {ys ys' : List β} (h : List.Forall₂ R xs ys) (h' : List.Forall₂ R xs' ys') :
    xs.isEqv xs' eqv = ys.isEqv ys' eqv' := by
  induction h generalizing xs' ys' with
  | nil =>
      cases h' with
      | nil => rfl
      | cons _ _ => rfl
  | cons hxy _ ih =>
      cases h' with
      | nil => rfl
      | cons hxy' hrest' => rw [List.isEqv, List.isEqv, hR _ _ _ _ hxy hxy', ih hrest']

/-- The elements of lists that compare equal compare equal. -/
theorem forall₂_of_isEqv {eqv : α → α → Bool} : ∀ {xs ys : List α}, xs.isEqv ys eqv = true →
    List.Forall₂ (fun x y => eqv x y = true) xs ys
  | [], [], _ => .nil
  | [], _ :: _, h => by cases h
  | _ :: _, [], h => by cases h
  | _ :: _, _ :: _, h => by
      rw [List.isEqv, Bool.and_eq_true] at h
      exact .cons h.1 (forall₂_of_isEqv h.2)

end IotLoggingServer
