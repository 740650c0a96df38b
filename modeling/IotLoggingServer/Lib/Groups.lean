import Mathlib.Data.List.Flatten
import Mathlib.Data.List.Induction
import Mathlib.Data.List.Nodup
import Mathlib.Data.List.Perm.Basic

set_option autoImplicit false

/-! # Insertion-ordered grouping

A list of *batches* is a list of key/values pairs in which a key may come back; `contents k bs` is
what the batches under `k` hold, one after the other. A `Groups κ μ` is such a list in which no key
comes back and no batch is empty: the value of a dictionary of lists that only grows by appending
one element under one key (keys keep the order of their first insertion).

The facts a user needs of `Groups.ofList xs`, the dictionary filled from `xs`: under each key it
holds the elements of `xs` with that key in order (`contents_ofList`, `mem_ofList`), and all its
batches together hold exactly the elements of `xs` (`flatten_ofList`). The file ends with what is
kept when each batch is kept whole or not at all (`flatMap_perm_iff`). -/

namespace IotLoggingServer

variable {κ μ : Type}

/-! ## Batches -/

/-- Every element of every batch, paired with the key of its batch. -/
def flatten (bs : List (κ × List μ)) : List (κ × μ) :=
  bs.flatMap (fun b => b.2.map (b.1, ·))

@[simp] theorem flatten_nil : flatten ([] : List (κ × List μ)) = [] := rfl

@[simp] theorem flatten_cons (b : κ × List μ) (bs : List (κ × List μ)) :
    flatten (b :: bs) = b.2.map (b.1, ·) ++ flatten bs := rfl

theorem flatten_append (bs cs : List (κ × List μ)) :
    flatten (bs ++ cs) = flatten bs ++ flatten cs := by
  simp [flatten]

variable [DecidableEq κ]

/-- The elements handed over under key `k`, batch after batch. -/
def contents (k : κ) (bs : List (κ × List μ)) : List μ :=
  (bs.filter (fun b => b.1 = k)).flatMap Prod.snd

/-- The elements of `xs` that carry key `k`, in order. -/
def select (k : κ) (xs : List (κ × μ)) : List μ :=
  (xs.filter (fun x => x.1 = k)).map Prod.snd

@[simp] theorem contents_nil (k : κ) : contents k ([] : List (κ × List μ)) = [] := rfl

theorem contents_cons (k : κ) (b : κ × List μ) (bs : List (κ × List μ)) :
    contents k (b :: bs) = (if b.1 = k then b.2 else []) ++ contents k bs := by
  by_cases h : b.1 = k <;> simp [contents, h]

theorem contents_append (k : κ) (bs cs : List (κ × List μ)) :
    contents k (bs ++ cs) = contents k bs ++ contents k cs := by
  simp [contents]

theorem contents_flatMap {β : Type} (k : κ) (xs : List β) (f : β → List (κ × List μ)) :
    contents k (xs.flatMap f) = xs.flatMap (fun x => contents k (f x)) := by
  induction xs with
  | nil => rfl
  | cons x rest ih => rw [List.flatMap_cons, contents_append, ih, List.flatMap_cons]

theorem contents_sublist (k : κ) {bs cs : List (κ × List μ)} (h : bs.Sublist cs) :
    (contents k bs).Sublist (contents k cs) :=
  (h.filter _).flatMap Prod.snd

theorem contents_prefix (k : κ) {bs cs : List (κ × List μ)} (h : bs <+: cs) :
    contents k bs <+: contents k cs := by
  obtain ⟨rest, rfl⟩ := h
  rw [contents_append]
  exact List.prefix_append _ _

/-- Batches of other keys may be left out. -/
theorem contents_filter {k : κ} {bs : List (κ × List μ)} {p : κ × List μ → Prop} [DecidablePred p]
    (h : ∀ b ∈ bs, b.1 = k → p b) : contents k (bs.filter (fun b => p b)) = contents k bs := by
  rw [contents, contents, List.filter_filter]
  congr 1
  refine List.filter_congr (fun b hb => ?_)
  by_cases hk : b.1 = k
  · simp [hk, h b hb hk]
  · simp [hk]

/-- Renaming keys, as long as no other key takes the name of `k`. -/
theorem contents_rename {κ' : Type} [DecidableEq κ'] {f : κ → κ'} {k : κ}
    {bs : List (κ × List μ)} (h : ∀ b ∈ bs, f b.1 = f k → b.1 = k) :
    contents (f k) (bs.map (fun b => (f b.1, b.2))) = contents k bs := by
  induction bs with
  | nil => rfl
  | cons b rest ih =>
      have hb : f b.1 = f k ↔ b.1 = k :=
        ⟨h b List.mem_cons_self, fun heq => congrArg f heq⟩
      rw [List.map_cons, contents_cons, contents_cons,
        ih (fun c hc => h c (List.mem_cons_of_mem b hc))]
      simp only [hb]

@[simp] theorem select_nil (k : κ) : select k ([] : List (κ × μ)) = [] := rfl

theorem select_append (k : κ) (xs ys : List (κ × μ)) :
    select k (xs ++ ys) = select k xs ++ select k ys := by
  simp [select]

theorem select_sublist (k : κ) {xs ys : List (κ × μ)} (h : xs.Sublist ys) :
    (select k xs).Sublist (select k ys) :=
  (h.filter _).map Prod.snd

theorem select_length_le (k : κ) (xs : List (κ × μ)) : (select k xs).length ≤ xs.length := by
  rw [select, List.length_map]
  exact List.length_filter_le _ _

theorem select_singleton (k k' : κ) (m : μ) :
    select k [(k', m)] = if k' = k then [m] else [] := by
  by_cases h : k' = k <;> simp [select, h]

/-! ## Appending under a key -/

/-- Append `m` to the batch of `k`; an absent key is created at the end. -/
def appendEntry (k : κ) (m : μ) : List (κ × List μ) → List (κ × List μ)
  | [] => [(k, [m])]
  | b :: rest => if b.1 = k then (b.1, b.2 ++ [m]) :: rest else b :: appendEntry k m rest

theorem contents_of_not_mem {k : κ} {bs : List (κ × List μ)} (h : k ∉ bs.map Prod.fst) :
    contents k bs = [] := by
  have hfilter : bs.filter (fun b => b.1 = k) = [] := by
    rw [List.filter_eq_nil_iff]
    intro b hb hk
    exact h (List.mem_map.2 ⟨b, hb, of_decide_eq_true hk⟩)
  simp [contents, hfilter]

/-- Appending creates no key but `k`, and `k` only where it was absent. -/
theorem appendEntry_keys (k : κ) (m : μ) (bs : List (κ × List μ)) :
    (appendEntry k m bs).map Prod.fst
      = if k ∈ bs.map Prod.fst then bs.map Prod.fst else bs.map Prod.fst ++ [k] := by
  induction bs with
  | nil => rfl
  | cons b rest ih =>
      by_cases hb : b.1 = k
      · simp [appendEntry, hb]
      · have hb' : ¬ k = b.1 := fun h => hb h.symm
        simp only [appendEntry, if_neg hb, List.map_cons, ih, List.mem_cons, hb', false_or]
        split <;> rfl

theorem contents_appendEntry (k' k : κ) (m : μ) (bs : List (κ × List μ))
    (hnod : (bs.map Prod.fst).Nodup) :
    contents k' (appendEntry k m bs) = contents k' bs ++ if k = k' then [m] else [] := by
  induction bs with
  | nil => by_cases h : k = k' <;> simp [appendEntry, contents, h]
  | cons b rest ih =>
      rw [List.map_cons, List.nodup_cons] at hnod
      obtain ⟨hnotin, hrest⟩ := hnod
      by_cases hb : b.1 = k
      · -- the batch of `k`: no later batch carries `k`, so the new element comes last
        have hnil : contents k rest = [] := contents_of_not_mem (hb ▸ hnotin)
        by_cases hk : k = k'
        · subst hk
          simp [appendEntry, hb, contents_cons, hnil]
        · simp [appendEntry, hb, contents_cons, hk]
      · rw [appendEntry, if_neg hb, contents_cons, ih hrest, contents_cons, List.append_assoc]

theorem flatten_appendEntry (k : κ) (m : μ) (bs : List (κ × List μ)) :
    (flatten (appendEntry k m bs)).Perm (flatten bs ++ [(k, m)]) := by
  induction bs with
  | nil => exact List.Perm.refl _
  | cons b rest ih =>
      by_cases hb : b.1 = k
      · rw [appendEntry, if_pos hb, flatten_cons, flatten_cons]
        simp only [List.map_append, List.map_cons, List.map_nil, List.append_assoc, hb]
        exact List.Perm.append_left _ List.perm_append_comm
      · rw [appendEntry, if_neg hb, flatten_cons, flatten_cons, List.append_assoc]
        exact List.Perm.append_left _ ih

theorem appendEntry_ne_nil (k : κ) (m : μ) (bs : List (κ × List μ)) : appendEntry k m bs ≠ [] := by
  unfold appendEntry
  split
  · simp
  · split <;> simp

/-- Of the batches with certain keys, an append leaves one more at most, and none if its key is of
    another kind. -/
theorem countP_appendEntry_le (p : κ → Bool) (k : κ) (m : μ) (bs : List (κ × List μ)) :
    (appendEntry k m bs).countP (fun b => p b.1) ≤
      bs.countP (fun b => p b.1) + if p k then 1 else 0 := by
  induction bs with
  | nil => simp [appendEntry, List.countP_cons]
  | cons b rest ih =>
      unfold appendEntry
      split
      · rw [List.countP_cons, List.countP_cons]
        exact Nat.le_add_right _ _
      · rw [List.countP_cons, List.countP_cons]
        omega

theorem mem_appendEntry_ne_nil (k : κ) (m : μ) (bs : List (κ × List μ))
    (h : ∀ b ∈ bs, b.2 ≠ []) : ∀ b ∈ appendEntry k m bs, b.2 ≠ [] := by
  induction bs with
  | nil => simp [appendEntry]
  | cons b rest ih =>
      have hrest : ∀ b ∈ rest, b.2 ≠ [] := fun c hc => h c (List.mem_cons_of_mem _ hc)
      intro c hc
      by_cases hb : b.1 = k
      · rw [appendEntry, if_pos hb] at hc
        rcases List.mem_cons.1 hc with rfl | hc
        · simp
        · exact hrest c hc
      · rw [appendEntry, if_neg hb] at hc
        rcases List.mem_cons.1 hc with rfl | hc
        · exact h c List.mem_cons_self
        · exact ih hrest c hc

/-! ## The grouping dictionary -/

/-- A dictionary of lists as filled by appends: keys are distinct and every list is inhabited. -/
structure Groups (κ μ : Type) where
  items : List (κ × List μ)
  keys_nodup : (items.map Prod.fst).Nodup
  items_ne_nil : ∀ b ∈ items, b.2 ≠ []

/-- The empty dictionary. -/
def Groups.empty : Groups κ μ := ⟨[], List.nodup_nil, by simp⟩

/-- `d[k].append(m)` on a dictionary whose missing keys start as the empty list. -/
def Groups.append (d : Groups κ μ) (k : κ) (m : μ) : Groups κ μ where
  items := appendEntry k m d.items
  keys_nodup := by
    rw [appendEntry_keys]
    split
    · exact d.keys_nodup
    · next h => exact d.keys_nodup.append (List.nodup_singleton k) (by simpa using h)
  items_ne_nil := mem_appendEntry_ne_nil k m d.items d.items_ne_nil

omit [DecidableEq κ] in
/-- Where all keys are the same there is one batch at most. -/
theorem Groups.length_le_one {d : Groups κ μ} {k : κ} (h : ∀ b ∈ d.items, b.1 = k) :
    d.items.length ≤ 1 := by
  have hkeys : ∀ k' ∈ d.items.map Prod.fst, k' = k := by
    intro k' hk'
    obtain ⟨b, hb, rfl⟩ := List.mem_map.1 hk'
    exact h b hb
  have hnodup := d.keys_nodup
  rw [List.eq_replicate_of_mem hkeys, List.nodup_replicate, List.length_map] at hnodup
  exact hnodup

/-- One batch at most has the key `k`. -/
theorem Groups.length_le_countP (d : Groups κ μ) (k : κ) :
    d.items.length ≤ d.items.countP (fun b => !decide (b.1 = k)) + 1 := by
  have hcount : d.items.countP (fun b => decide (b.1 = k)) = (d.items.map Prod.fst).count k := by
    rw [List.count_eq_countP, List.countP_map]
    rfl
  have hone := List.nodup_iff_count_le_one.1 d.keys_nodup k
  have hsplit := d.items.length_eq_countP_add_countP (fun b => decide (b.1 = k))
  simp only [decide_not, Bool.decide_eq_true] at hsplit
  omega

theorem Groups.append_keys {d : Groups κ μ} {k : κ} (h : ∀ b ∈ d.items, b.1 = k) (m : μ) :
    ∀ b ∈ (d.append k m).items, b.1 = k := by
  intro b hb
  have hkey : b.1 ∈ (d.append k m).items.map Prod.fst := List.mem_map_of_mem hb
  unfold Groups.append at hkey
  rw [appendEntry_keys] at hkey
  have hold : b.1 ∈ d.items.map Prod.fst → b.1 = k := by
    intro hmem
    obtain ⟨b', hb', heq⟩ := List.mem_map.1 hmem
    rw [← heq, h b' hb']
  split at hkey
  · exact hold hkey
  · exact (List.mem_append.1 hkey).elim hold List.mem_singleton.1

/-- The dictionary filled from `xs`, left to right. -/
def Groups.ofList (xs : List (κ × μ)) : Groups κ μ :=
  xs.foldl (fun d x => d.append x.1 x.2) Groups.empty

@[simp] theorem Groups.ofList_nil : (Groups.ofList ([] : List (κ × μ))) = Groups.empty := rfl

omit [DecidableEq κ] in
@[simp] theorem Groups.items_empty : (Groups.empty : Groups κ μ).items = [] := rfl

/-- Filling from a longer list is one more append. -/
theorem Groups.ofList_concat (xs : List (κ × μ)) (x : κ × μ) :
    Groups.ofList (xs ++ [x]) = (Groups.ofList xs).append x.1 x.2 := by
  simp [Groups.ofList]

/-- **Under each key the dictionary holds that key's elements, in order.** -/
theorem Groups.contents_ofList (k : κ) (xs : List (κ × μ)) :
    contents k (Groups.ofList xs).items = select k xs := by
  induction xs using List.reverseRecOn with
  | nil => rfl
  | append_singleton xs x ih =>
      have hlast : select k [x] = if x.1 = k then [x.2] else [] := select_singleton k x.1 x.2
      rw [Groups.ofList_concat, select_append, ← ih, hlast]
      exact contents_appendEntry k x.1 x.2 _ (Groups.ofList xs).keys_nodup

/-- **The batches together hold exactly the elements the dictionary was filled from.** -/
theorem Groups.flatten_ofList (xs : List (κ × μ)) :
    (flatten (Groups.ofList xs).items).Perm xs := by
  induction xs using List.reverseRecOn with
  | nil => exact List.Perm.refl _
  | append_singleton xs x ih =>
      rw [Groups.ofList_concat]
      exact (flatten_appendEntry x.1 x.2 _).trans (ih.append_right [x])

/-- In a dictionary, a batch holds all that is stored under its key. -/
theorem Groups.contents_of_mem (d : Groups κ μ) {b : κ × List μ} (hb : b ∈ d.items) :
    contents b.1 d.items = b.2 := by
  obtain ⟨pre, post, hsplit⟩ := List.append_of_mem hb
  have hnod := d.keys_nodup
  rw [hsplit, List.map_append, List.map_cons] at hnod
  have hpre : b.1 ∉ pre.map Prod.fst := fun h =>
    (List.nodup_append.1 hnod).2.2 b.1 h b.1 List.mem_cons_self rfl
  have hpost : b.1 ∉ post.map Prod.fst := (List.nodup_cons.1 (List.nodup_append.1 hnod).2.1).1
  rw [hsplit, contents_append, contents_cons, if_pos rfl, contents_of_not_mem hpre,
    contents_of_not_mem hpost, List.nil_append, List.append_nil]

/-- The batches of the dictionary are the inhabited selections. -/
theorem Groups.mem_ofList {k : κ} {ms : List μ} {xs : List (κ × μ)} :
    (k, ms) ∈ (Groups.ofList xs).items ↔ ms = select k xs ∧ ms ≠ [] := by
  constructor
  · intro hmem
    have hsel : ms = select k xs := by
      rw [← Groups.contents_ofList]
      exact ((Groups.ofList xs).contents_of_mem hmem).symm
    exact ⟨hsel, (Groups.ofList xs).items_ne_nil _ hmem⟩
  · rintro ⟨rfl, hne⟩
    -- a key without a batch would hold nothing
    have hkey : k ∈ (Groups.ofList xs).items.map Prod.fst := by
      by_contra hnot
      exact hne (by rw [← Groups.contents_ofList, contents_of_not_mem hnot])
    obtain ⟨b, hb, rfl⟩ := List.mem_map.1 hkey
    have hsnd : b.2 = select b.1 xs := by
      rw [← Groups.contents_ofList]
      exact ((Groups.ofList xs).contents_of_mem hb).symm
    rw [← hsnd]
    exact hb

/-- In a dictionary, no two batches carry one key. -/
theorem Groups.filter_key (d : Groups κ μ) (k : κ) :
    d.items.filter (fun b => b.1 = k) =
      if contents k d.items = [] then [] else [(k, contents k d.items)] := by
  by_cases hk : ∃ b ∈ d.items, b.1 = k
  · obtain ⟨b, hb, rfl⟩ := hk
    obtain ⟨pre, post, hsplit⟩ := List.append_of_mem hb
    have hnod := d.keys_nodup
    rw [hsplit, List.map_append, List.map_cons] at hnod
    have hpre : pre.filter (fun c => c.1 = b.1) = [] := by
      rw [List.filter_eq_nil_iff]
      intro c hc heq
      exact (List.nodup_append.1 hnod).2.2 c.1 (List.mem_map.2 ⟨c, hc, rfl⟩) b.1
        List.mem_cons_self (of_decide_eq_true heq)
    have hpost : post.filter (fun c => c.1 = b.1) = [] := by
      rw [List.filter_eq_nil_iff]
      intro c hc heq
      exact (List.nodup_cons.1 (List.nodup_append.1 hnod).2.1).1
        (List.mem_map.2 ⟨c, hc, of_decide_eq_true heq⟩)
    have hcontents := d.contents_of_mem hb
    rw [hcontents, if_neg (d.items_ne_nil b hb), hsplit, List.filter_append, hpre,
      List.filter_cons_of_pos (by simp), hpost, List.nil_append]
  · have hnil : d.items.filter (fun b => b.1 = k) = [] := by
      rw [List.filter_eq_nil_iff]
      exact fun b hb heq => hk ⟨b, hb, of_decide_eq_true heq⟩
    have hcontents : contents k d.items = [] := by rw [contents, hnil, List.flatMap_nil]
    rw [hnil, if_pos hcontents]

/-- What is left under a key where whole batches are left out. -/
theorem Groups.contents_filter_ofList (k : κ) (xs : List (κ × μ)) (p : List μ → Prop)
    [DecidablePred p] :
    contents k ((Groups.ofList xs).items.filter (fun b => p b.2)) =
      if p (select k xs) then select k xs else [] := by
  have hkey := (Groups.ofList xs).filter_key k
  rw [Groups.contents_ofList] at hkey
  have hcomm : ((Groups.ofList xs).items.filter (fun b => p b.2)).filter (fun b => b.1 = k) =
      ((Groups.ofList xs).items.filter (fun b => b.1 = k)).filter (fun b => p b.2) := by
    rw [List.filter_filter, List.filter_filter]
    exact List.filter_congr (fun b _ => Bool.and_comm _ _)
  rw [contents, hcomm, hkey]
  by_cases hnil : select k xs = []
  · simp [hnil]
  · by_cases hp : p (select k xs) <;> simp [hnil, hp]

/-! ## Keeping a part of every batch -/

theorem flatMap_length_le {α β : Type} {f g : α → List β} {xs : List α}
    (h : ∀ a ∈ xs, (f a).Sublist (g a)) : (xs.flatMap f).length ≤ (xs.flatMap g).length :=
  (List.Sublist.flatMap_right xs h).length_le

/-- **Where every element yields a part of what it could, nothing is missing in total iff nothing is
    missing anywhere.** -/
theorem flatMap_perm_iff {α β : Type} {f g : α → List β} {xs : List α}
    (h : ∀ a ∈ xs, (f a).Sublist (g a)) :
    (xs.flatMap f).Perm (xs.flatMap g) ↔ ∀ a ∈ xs, f a = g a := by
  constructor
  · intro hperm
    have hlen := hperm.length_eq
    clear hperm
    induction xs with
    | nil => simp
    | cons x rest ih =>
        have hx := h x List.mem_cons_self
        have hrest : ∀ a ∈ rest, (f a).Sublist (g a) := fun a ha => h a (List.mem_cons_of_mem x ha)
        have hle := flatMap_length_le hrest
        have hxle := hx.length_le
        simp only [List.flatMap_cons, List.length_append] at hlen
        intro a ha
        rcases List.mem_cons.1 ha with rfl | ha
        · exact hx.eq_of_length (by omega)
        · exact ih hrest (by omega) a ha
  · intro heq
    rw [List.flatMap_congr heq]

end IotLoggingServer
