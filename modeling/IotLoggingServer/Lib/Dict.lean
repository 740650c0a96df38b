import Mathlib.Data.List.Nodup

set_option autoImplicit false

/-! # Dictionaries

Insertion-ordered association lists. Two keys are the same if their canonical forms are: a set to a
key that is there replaces the value in place, any other goes to the end. Setting the entries of a
dictionary with distinct keys one by one rebuilds it (`dictUpdate_nil`). -/

namespace IotLoggingServer

variable {κ γ ν : Type} [DecidableEq γ] (canon : κ → γ)

def dictGet? : List (κ × ν) → κ → Option ν
  | [], _ => none
  | (k', v) :: rest, k => if canon k' = canon k then some v else dictGet? rest k

def dictSet : List (κ × ν) → κ → ν → List (κ × ν)
  | [], k, v => [(k, v)]
  | (k', v') :: rest, k, v =>
    if canon k' = canon k then (k', v) :: rest else (k', v') :: dictSet rest k v

/-- Set the entries in order. -/
def dictUpdate (kvs entries : List (κ × ν)) : List (κ × ν) :=
  entries.foldl (fun acc e => dictSet canon acc e.1 e.2) kvs

def dictKeys (kvs : List (κ × ν)) : List γ := kvs.map (fun e => canon e.1)

/-- No two entries have the same key. -/
def DistinctKeys (kvs : List (κ × ν)) : Prop := (dictKeys canon kvs).Nodup

variable {canon}

/-! ## Reading -/

/-- The effect of one set on every key. -/
theorem dictGet?_dictSet (kvs : List (κ × ν)) (k k' : κ) (v : ν) :
    dictGet? canon (dictSet canon kvs k v) k'
      = if canon k = canon k' then some v else dictGet? canon kvs k' := by
  induction kvs with
  | nil => rfl
  | cons e rest ih =>
      obtain ⟨k₀, v₀⟩ := e
      simp only [dictSet]
      by_cases hk : canon k₀ = canon k
      · rw [if_pos hk]
        simp only [dictGet?, hk]
        by_cases hk' : canon k = canon k' <;> simp [hk']
      · rw [if_neg hk]
        simp only [dictGet?, ih]
        by_cases hk' : canon k = canon k'
        · rw [if_pos hk', if_pos hk', if_neg (fun h => hk (h.trans hk'.symm))]
        · rw [if_neg hk', if_neg hk']

/-- Of a dictionary without some of its keys, the others are left. -/
theorem dictGet?_filter {p : κ → Bool} (hp : ∀ k k', canon k = canon k' → p k = p k')
    (kvs : List (κ × ν)) (k : κ) :
    dictGet? canon (kvs.filter (fun e => p e.1)) k
      = if p k then dictGet? canon kvs k else none := by
  induction kvs with
  | nil => rw [List.filter_nil, dictGet?, ite_self]
  | cons e rest ih =>
      obtain ⟨k₀, v₀⟩ := e
      simp only [List.filter_cons, dictGet?]
      by_cases hk : canon k₀ = canon k
      · rw [if_pos hk, hp k₀ k hk]
        by_cases hpk : p k = true
        · rw [if_pos hpk, if_pos hpk, dictGet?, if_pos hk]
        · rw [if_neg hpk, if_neg hpk, ih, if_neg hpk]
      · rw [if_neg hk, ← ih]
        by_cases hpk : p k₀ = true
        · rw [if_pos hpk, dictGet?, if_neg hk]
        · rw [if_neg hpk]

theorem dictGet?_of_mem {kvs : List (κ × ν)} (hd : DistinctKeys canon kvs) {k : κ} {v : ν}
    (hmem : (k, v) ∈ kvs) : dictGet? canon kvs k = some v := by
  induction kvs with
  | nil => cases hmem
  | cons e rest ih =>
      obtain ⟨hnot, hrest⟩ := List.nodup_cons.1 hd
      rcases List.mem_cons.1 hmem with rfl | hmem
      · exact if_pos rfl
      · have hne : canon e.1 ≠ canon k := fun heq =>
          hnot (List.mem_map.2 ⟨(k, v), hmem, heq.symm⟩)
        rw [dictGet?, if_neg hne]
        exact ih hrest hmem

theorem dictGet?_append (kvs kvs' : List (κ × ν)) (k : κ) :
    dictGet? canon (kvs ++ kvs') k = (dictGet? canon kvs k).or (dictGet? canon kvs' k) := by
  induction kvs with
  | nil => rfl
  | cons e rest ih =>
      rw [List.cons_append, dictGet?, dictGet?, ih]
      split <;> rfl

theorem dictGet?_id [DecidableEq κ] [BEq κ] [LawfulBEq κ] (kvs : List (κ × ν)) (k : κ) :
    dictGet? id kvs k = kvs.lookup k := by
  induction kvs with
  | nil => rfl
  | cons e rest ih =>
      rw [dictGet?, ih, List.lookup_cons]
      dsimp only [id]
      by_cases hk : e.1 = k
      · simp [hk]
      · rw [if_neg hk, beq_false_of_ne (Ne.symm hk)]

theorem mem_of_dictGet? {kvs : List (κ × ν)} {k : κ} {v : ν}
    (h : dictGet? canon kvs k = some v) : ∃ k', (k', v) ∈ kvs := by
  induction kvs with
  | nil => cases h
  | cons e rest ih =>
      rw [dictGet?] at h
      split at h
      · cases h
        exact ⟨e.1, List.mem_cons_self⟩
      · obtain ⟨k', hmem⟩ := ih h
        exact ⟨k', List.mem_cons_of_mem _ hmem⟩

omit [DecidableEq γ] in
/-- Entries with the same keys pairwise. -/
theorem dictKeys_eq_of_forall₂ {ν' : Type} {kvs : List (κ × ν)} {kvs' : List (κ × ν')}
    (h : List.Forall₂ (fun e e' => e.1 = e'.1) kvs kvs') :
    dictKeys canon kvs = dictKeys canon kvs' := by
  induction h with
  | nil => rfl
  | cons heq _ ih =>
      rw [dictKeys, List.map_cons, heq, ← dictKeys, ih]
      rfl

/-- Dictionaries with the same keys in the same order have related values under each. -/
theorem dictGet?_forall₂ {ν' : Type} {R : ν → ν' → Prop} {kvs : List (κ × ν)}
    {kvs' : List (κ × ν')} (h : List.Forall₂ (fun e e' => e.1 = e'.1 ∧ R e.2 e'.2) kvs kvs')
    (k : κ) : Option.Rel R (dictGet? canon kvs k) (dictGet? canon kvs' k) := by
  induction h with
  | nil => exact .none
  | cons hpair _ ih =>
      unfold dictGet?
      rw [hpair.1]
      split
      · exact .some hpair.2
      · exact ih

/-! ## Setting -/

theorem dictSet_of_not_mem {kvs : List (κ × ν)} {k : κ} (h : canon k ∉ dictKeys canon kvs) (v : ν) :
    dictSet canon kvs k v = kvs ++ [(k, v)] := by
  induction kvs with
  | nil => rfl
  | cons e rest ih =>
      simp only [dictKeys, List.map_cons, List.mem_cons, not_or] at h
      rw [dictSet, if_neg (fun hk => h.1 hk.symm), ih h.2, List.cons_append]

theorem dictKeys_dictSet_of_mem {kvs : List (κ × ν)} {k : κ} (h : canon k ∈ dictKeys canon kvs)
    (v : ν) : dictKeys canon (dictSet canon kvs k v) = dictKeys canon kvs := by
  induction kvs with
  | nil => cases h
  | cons e rest ih =>
      rw [dictSet]
      by_cases hk : canon e.1 = canon k
      · rw [if_pos hk]
        rfl
      · have hrest : canon k ∈ dictKeys canon rest :=
          (List.mem_cons.1 h).resolve_left (fun heq => hk heq.symm)
        rw [if_neg hk, dictKeys, List.map_cons, ← dictKeys, ih hrest]
        rfl

theorem DistinctKeys.dictSet {kvs : List (κ × ν)} (h : DistinctKeys canon kvs) (k : κ) (v : ν) :
    DistinctKeys canon (dictSet canon kvs k v) := by
  by_cases hmem : canon k ∈ dictKeys canon kvs
  · rw [DistinctKeys, dictKeys_dictSet_of_mem hmem]
    exact h
  · rw [DistinctKeys, dictSet_of_not_mem hmem, dictKeys, List.map_append]
    exact h.append (List.nodup_singleton _) (by simpa using hmem)

omit [DecidableEq γ] in
theorem distinctKeys_nil : DistinctKeys canon ([] : List (κ × ν)) := List.nodup_nil

theorem distinctKeys_dictUpdate {kvs : List (κ × ν)} (h : DistinctKeys canon kvs)
    (entries : List (κ × ν)) : DistinctKeys canon (dictUpdate canon kvs entries) := by
  induction entries generalizing kvs with
  | nil => exact h
  | cons e rest ih => exact ih (h.dictSet e.1 e.2)

/-- The last entry set under a key wins. -/
theorem dictGet?_dictUpdate (kvs entries : List (κ × ν)) (k : κ) :
    dictGet? canon (dictUpdate canon kvs entries) k =
      (dictGet? canon entries.reverse k).or (dictGet? canon kvs k) := by
  induction entries generalizing kvs with
  | nil => rfl
  | cons e rest ih =>
      rw [dictUpdate, List.foldl_cons, ← dictUpdate, ih, dictGet?_dictSet, List.reverse_cons,
        dictGet?_append, Option.or_assoc]
      congr 1
      rw [dictGet?]
      split <;> rfl

theorem dictUpdate_eq_append {kvs entries : List (κ × ν)}
    (h : DistinctKeys canon (kvs ++ entries)) : dictUpdate canon kvs entries = kvs ++ entries := by
  induction entries generalizing kvs with
  | nil => exact (List.append_nil kvs).symm
  | cons e rest ih =>
      have hassoc : kvs ++ e :: rest = (kvs ++ [e]) ++ rest := by simp
      have hnot : canon e.1 ∉ dictKeys canon kvs := by
        intro hmem
        rw [DistinctKeys, dictKeys, List.map_append] at h
        exact (List.nodup_append.1 h).2.2 _ hmem _ List.mem_cons_self rfl
      rw [hassoc] at h ⊢
      rw [← ih h, dictUpdate, List.foldl_cons, dictSet_of_not_mem hnot]
      rfl

/-- Entries with distinct keys are kept as they are. -/
theorem dictUpdate_nil {entries : List (κ × ν)} (h : DistinctKeys canon entries) :
    dictUpdate canon [] entries = entries :=
  dictUpdate_eq_append h

theorem dictSet_forall {P : κ → Prop} {Q : ν → Prop} {kvs : List (κ × ν)}
    (h : ∀ e ∈ kvs, P e.1 ∧ Q e.2) {k : κ} {v : ν} (hk : P k) (hv : Q v) :
    ∀ e ∈ dictSet canon kvs k v, P e.1 ∧ Q e.2 := by
  induction kvs with
  | nil => simp [dictSet, hk, hv]
  | cons e rest ih =>
      rw [List.forall_mem_cons] at h
      rw [dictSet]
      split
      · exact List.forall_mem_cons.2 ⟨⟨h.1.1, hv⟩, h.2⟩
      · exact List.forall_mem_cons.2 ⟨h.1, ih h.2⟩

theorem dictUpdate_forall {P : κ → Prop} {Q : ν → Prop} {kvs entries : List (κ × ν)}
    (h : ∀ e ∈ kvs, P e.1 ∧ Q e.2) (hentries : ∀ e ∈ entries, P e.1 ∧ Q e.2) :
    ∀ e ∈ dictUpdate canon kvs entries, P e.1 ∧ Q e.2 := by
  induction entries generalizing kvs with
  | nil => exact h
  | cons e rest ih =>
      rw [List.forall_mem_cons] at hentries
      exact ih (dictSet_forall h hentries.1.1 hentries.1.2) hentries.2

end IotLoggingServer
