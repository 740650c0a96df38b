import IotLoggingServer.Lib.Dict
import IotLoggingServer.Lib.Split
import IotLoggingServer.Python

set_option autoImplicit false

/-! # PKCS#11 URIs (`parse_pkcs11_uri` of `_utils.py`)

Only the first `:` and the first `=` of each option split, so values may hold both. Parsing takes a
composed URI apart again and raises on everything that is not composed that way. -/

namespace IotLoggingServer

/-- What unpacking one piece into two names raises. -/
def unpackError : PyExc :=
  .valueError "not enough values to unpack (expected 2, got 1)".toList none

/-- `a, b = s.split(sep, maxsplit=1)`. -/
def splitPair (sep : Char) (s : Str) : Except PyExc (Str × Str) :=
  match splitMax sep 1 s with
  | [a, b] => .ok (a, b)
  | _ => .error unpackError

/-- The body of the loop: one more option of the form `key=value`. -/
def addPkcs11Opt (opts : List (Str × Str)) (opt : Str) : Except PyExc (List (Str × Str)) := do
  let (k, v) ← splitPair '=' opt
  .ok (dictSet id opts k v)

/-- `parse_pkcs11_uri`; a `PKCS11URI` is a dictionary. -/
def parsePkcs11Uri (uri : Str) : Except PyExc (List (Str × Str)) := do
  let (_, optsStr) ← splitPair ':' uri
  (optsStr.splitOn ';').foldlM addPkcs11Opt []

/-! ## Splitting in two -/

theorem splitPair_append {sep : Char} {a : Str} (ha : sep ∉ a) (b : Str) :
    splitPair sep (a ++ sep :: b) = .ok (a, b) := by
  rw [splitPair, splitMax_append ha]
  rfl

theorem splitPair_of_not_mem {sep : Char} {s : Str} (hs : sep ∉ s) :
    splitPair sep s = .error unpackError := by
  rw [splitPair, splitMax_of_not_mem hs]

/-! ## Composing -/

def pkcs11Opt (pair : Str × Str) : Str := pair.1 ++ '=' :: pair.2

/-- The URI of a scheme and a list of options. -/
def pkcs11Uri (scheme : Str) (pairs : List (Str × Str)) : Str :=
  scheme ++ ':' :: [';'].intercalate (pairs.map pkcs11Opt)

/-- What comes after the first `:`. -/
def pkcs11Body (uri : Str) : Str := (uri.dropWhile (· != ':')).drop 1

theorem pkcs11Body_append {scheme : Str} (h : ':' ∉ scheme) (body : Str) :
    pkcs11Body (scheme ++ ':' :: body) = body := by
  have hscheme : ∀ c ∈ scheme, (c != ':') = true := by
    intro c hc
    have hne : c ≠ ':' := fun heq => h (heq ▸ hc)
    simpa using hne
  rw [pkcs11Body, List.dropWhile_append_of_pos hscheme]
  rfl

theorem foldlM_addPkcs11Opt {pairs : List (Str × Str)} (h : ∀ p ∈ pairs, '=' ∉ p.1)
    (opts : List (Str × Str)) :
    (pairs.map pkcs11Opt).foldlM addPkcs11Opt opts = .ok (dictUpdate id opts pairs) := by
  induction pairs generalizing opts with
  | nil => rfl
  | cons p rest ih =>
      rw [List.forall_mem_cons] at h
      rw [List.map_cons, List.foldlM_cons, addPkcs11Opt, pkcs11Opt, splitPair_append h.1]
      exact ih h.2 _

theorem foldlM_addPkcs11Opt_error {segments : List Str} {opts : List (Str × Str)} {e : PyExc} :
    segments.foldlM addPkcs11Opt opts = .error e ↔
      (∃ s ∈ segments, '=' ∉ s) ∧ e = unpackError := by
  induction segments generalizing opts with
  | nil =>
      constructor
      · intro h
        cases h
      · intro h
        obtain ⟨⟨s, hs, _⟩, _⟩ := h
        cases hs
  | cons s rest ih =>
      rw [List.foldlM_cons, addPkcs11Opt]
      by_cases hs : '=' ∈ s
      · obtain ⟨k, v, rfl, hk⟩ := List.eq_append_cons_of_mem hs
        rw [splitPair_append hk]
        simp only [ok_bind, ih, List.exists_mem_cons_iff, hs, not_true_eq_false, false_or]
      · rw [splitPair_of_not_mem hs]
        simp only [error_bind, Except.error.injEq, List.exists_mem_cons_iff, hs, not_false_eq_true,
          true_or, true_and]
        exact eq_comm

theorem parsePkcs11Uri_error {uri : Str} {e : PyExc} :
    parsePkcs11Uri uri = .error e ↔
      (':' ∉ uri ∨ ∃ s ∈ (pkcs11Body uri).splitOn ';', '=' ∉ s) ∧ e = unpackError := by
  unfold parsePkcs11Uri
  by_cases huri : ':' ∈ uri
  · obtain ⟨scheme, body, rfl, hscheme⟩ := List.eq_append_cons_of_mem huri
    rw [splitPair_append hscheme, pkcs11Body_append hscheme]
    simp only [ok_bind, foldlM_addPkcs11Opt_error, huri, not_true_eq_false, false_or]
  · rw [splitPair_of_not_mem huri]
    simp only [error_bind, Except.error.injEq, huri, not_false_eq_true, true_or, true_and]
    exact eq_comm

theorem parsePkcs11Uri_pkcs11Uri {scheme : Str} (hscheme : ':' ∉ scheme)
    {pairs : List (Str × Str)} (hne : pairs ≠ [])
    (h : ∀ p ∈ pairs, ';' ∉ p.1 ∧ '=' ∉ p.1 ∧ ';' ∉ p.2) :
    parsePkcs11Uri (pkcs11Uri scheme pairs) = .ok (dictUpdate id [] pairs) := by
  have hopts : ∀ opt ∈ pairs.map pkcs11Opt, ';' ∉ opt := by
    intro opt hopt
    obtain ⟨p, hp, rfl⟩ := List.mem_map.1 hopt
    simp [pkcs11Opt, h p hp]
  rw [parsePkcs11Uri, pkcs11Uri, splitPair_append hscheme]
  dsimp only [ok_bind]
  rw [List.splitOn_intercalate ';' hopts (by simpa using hne)]
  exact foldlM_addPkcs11Opt (fun p hp => (h p hp).2.1) []

/-- **Parsing inverts composing, and accepts exactly what is composed.** The dictionary has the last
    value given for each key; a string raises if it has no `:` or an option without `=`. -/
theorem parsePkcs11Uri_inverts_pkcs11Uri :
    (∀ (scheme : Str) (pairs : List (Str × Str)), ':' ∉ scheme → pairs ≠ [] →
      (∀ p ∈ pairs, ';' ∉ p.1 ∧ '=' ∉ p.1 ∧ ';' ∉ p.2) →
      ∃ opts, parsePkcs11Uri (pkcs11Uri scheme pairs) = .ok opts ∧ DistinctKeys id opts ∧
        ∀ k, dictGet? id opts k = pairs.reverse.lookup k) ∧
    ∀ uri : Str, (∃ msg cause, parsePkcs11Uri uri = .error (.valueError msg cause)) ↔
      ':' ∉ uri ∨ ∃ segment ∈ (pkcs11Body uri).splitOn ';', '=' ∉ segment := by
  constructor
  · intro scheme pairs hscheme hne h
    refine ⟨_, parsePkcs11Uri_pkcs11Uri hscheme hne h,
      distinctKeys_dictUpdate distinctKeys_nil pairs, ?_⟩
    intro k
    rw [dictGet?_dictUpdate, dictGet?_id, dictGet?, Option.or_none]
  · intro uri
    simp only [parsePkcs11Uri_error]
    constructor
    · intro h
      obtain ⟨msg, cause, hraises, _⟩ := h
      exact hraises
    · intro h
      exact ⟨_, _, h, rfl⟩

theorem parsePkcs11Uri_inverts_pkcs11Uri_example :
    (∃ opts, parsePkcs11Uri "pkcs11:object=a=b;type=cert;object=c:".toList = .ok opts ∧
      dictGet? id opts "object".toList = some "c:".toList) ∧
    ∃ msg cause, parsePkcs11Uri "pkcs11:object".toList = .error (.valueError msg cause) := by
  constructor
  · obtain ⟨opts, hparse, -, hget⟩ := parsePkcs11Uri_inverts_pkcs11Uri.1 "pkcs11".toList
      [("object".toList, "a=b".toList), ("type".toList, "cert".toList),
        ("object".toList, "c:".toList)] (by decide) (by decide) (by decide)
    exact ⟨opts, hparse, hget _⟩
  · exact (parsePkcs11Uri_inverts_pkcs11Uri.2 "pkcs11:object".toList).2 (Or.inr (by decide))

end IotLoggingServer
