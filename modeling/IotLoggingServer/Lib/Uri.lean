import IotLoggingServer.Lib.Split
import Mathlib.Data.List.TakeDrop

set_option autoImplicit false

/-! # URI references (RFC 3986)

`Uri.parse` takes a reference apart (appendix B), `Uri.resolve` resolves it against a base
(section 5.2) and `Uri.recompose` puts it together again (section 5.3). A relative path without dot
segments, resolved against the root of a host, is appended to it (`Uri.join_root`). -/

namespace IotLoggingServer

structure Uri where
  scheme : Option (List Char) := none
  authority : Option (List Char) := none
  path : List Char
  query : Option (List Char) := none
  fragment : Option (List Char) := none
  deriving DecidableEq, Repr

namespace Uri

/-! ## Parsing and recomposing -/

/-- A character that ends a scheme. -/
def isSchemeEnd (c : Char) : Bool := c == ':' || c == '/' || c == '?' || c == '#'

/-- The scheme, if there is one, and what comes after it. -/
def splitScheme (s : List Char) : Option (List Char) × List Char :=
  match s.span (!isSchemeEnd ·) with
  | (c :: scheme, ':' :: rest) => (some (c :: scheme), rest)
  | _ => (none, s)

/-- The authority, if there is one, and the path after it. -/
def splitAuthority : List Char → Option (List Char) × List Char
  | '/' :: '/' :: rest => (some (rest.takeWhile (· != '/')), rest.dropWhile (· != '/'))
  | s => (none, s)

def parse (s : List Char) : Uri :=
  let (s, fragment) := cut '#' s
  let (s, query) := cut '?' s
  let (scheme, s) := splitScheme s
  let (authority, path) := splitAuthority s
  { scheme, authority, path, query, fragment }

/-- A component with its delimiters, nothing if it is undefined. -/
def component (before after : List Char) : Option (List Char) → List Char
  | some s => before ++ s ++ after
  | none => []

def recompose (u : Uri) : List Char :=
  component [] [':'] u.scheme ++ component ['/', '/'] [] u.authority ++ u.path ++
    component ['?'] [] u.query ++ component ['#'] [] u.fragment

/-! ## Dot segments -/

/-- The path without its last segment and the slash before that. -/
def dropSegment (path : List Char) : List Char :=
  ((path.reverse.dropWhile (· != '/')).drop 1).reverse

/-- What is left to read after a dot segment: at the end of the path its slash stays. -/
def afterDot (rest : List Char) : List Char := if rest = [] then ['/'] else rest

/-- The loop of section 5.2.4, by the first segment of the input. -/
def removeDots : ℕ → List Char → List Char → List Char
  | 0, _, output => output
  | _ + 1, [], output => output
  | fuel + 1, c :: input, output =>
    if c = '/' then
      let (segment, rest) := input.span (· != '/')
      if segment = ['.'] then removeDots fuel (afterDot rest) output
      else if segment = ['.', '.'] then removeDots fuel (afterDot rest) (dropSegment output)
      else removeDots fuel rest (output ++ '/' :: segment)
    else
      let (segment, rest) := (c :: input).span (· != '/')
      if segment = ['.'] ∨ segment = ['.', '.'] then removeDots fuel (rest.drop 1) output
      else removeDots fuel rest (output ++ segment)

/-- Every turn of the loop shortens the input. -/
def removeDotSegments (path : List Char) : List Char := removeDots (path.length + 1) path []

/-! ## Resolving -/

/-- The path of a relative reference behind the base path's last slash. -/
def merge (base : Uri) (path : List Char) : List Char :=
  if base.authority.isSome ∧ base.path = [] then '/' :: path
  else (base.path.reverse.dropWhile (· != '/')).reverse ++ path

def resolve (base r : Uri) : Uri :=
  match r.scheme, r.authority with
  | some _, _ => { r with path := removeDotSegments r.path }
  | none, some _ => { r with scheme := base.scheme, path := removeDotSegments r.path }
  | none, none =>
    if r.path = [] then
      { base with query := r.query.or base.query, fragment := r.fragment }
    else if r.path.head? = some '/' then
      { base with
        path := removeDotSegments r.path, query := r.query, fragment := r.fragment }
    else
      { base with
        path := removeDotSegments (merge base r.path), query := r.query, fragment := r.fragment }

/-- The reference `url`, resolved against `base`. -/
def join (base url : List Char) : List Char := (resolve (parse base) (parse url)).recompose

/-! ## Relative paths without dot segments -/

theorem span_append {p : Char → Bool} {a b : List Char} (ha : ∀ c ∈ a, p c = true)
    (hb : ∀ c ∈ b.head?, p c = false) : (a ++ b).span p = (a, b) := by
  rw [List.span_eq_takeWhile_dropWhile, List.takeWhile_append_of_pos ha,
    List.dropWhile_append_of_pos ha]
  cases b with
  | nil => simp
  | cons c b => simp [hb c rfl]

/-- A segment that stays in a path: neither `.` nor `..`. -/
structure Segment (s : List Char) : Prop where
  plain : ∀ c ∈ s, c ≠ '/' ∧ c ≠ '?' ∧ c ≠ '#'
  ne_dot : s ≠ ['.']
  ne_dots : s ≠ ['.', '.']

/-- The absolute path with these segments. -/
def absolute (segments : List (List Char)) : List Char := segments.flatMap ('/' :: ·)

theorem absolute_head {segments : List (List Char)} : ∀ c ∈ (absolute segments).head?, c = '/' := by
  intro c hc
  cases segments with
  | nil => cases hc
  | cons segment rest => exact (Option.some.inj hc).symm

theorem absolute_plain {segments : List (List Char)} (h : ∀ s ∈ segments, Segment s) :
    ∀ c ∈ absolute segments, c ≠ '?' ∧ c ≠ '#' := by
  intro c hc
  obtain ⟨s, hs, hmem⟩ := List.mem_flatMap.1 hc
  rcases List.mem_cons.1 hmem with rfl | hmem
  · decide
  · exact ((h s hs).plain c hmem).2

theorem removeDots_absolute {segments : List (List Char)} (h : ∀ s ∈ segments, Segment s)
    {fuel : ℕ} (hfuel : (absolute segments).length < fuel) (output : List Char) :
    removeDots fuel (absolute segments) output = output ++ absolute segments := by
  induction segments generalizing fuel output with
  | nil =>
      obtain ⟨fuel, rfl⟩ := Nat.exists_eq_succ_of_ne_zero (Nat.ne_zero_of_lt hfuel)
      simp [absolute, removeDots]
  | cons segment rest ih =>
      obtain ⟨fuel, rfl⟩ := Nat.exists_eq_succ_of_ne_zero (Nat.ne_zero_of_lt hfuel)
      have hsegment := h segment List.mem_cons_self
      have hpath : absolute (segment :: rest) = '/' :: (segment ++ absolute rest) := rfl
      have hspan : (segment ++ absolute rest).span (· != '/') = (segment, absolute rest) := by
        apply span_append
        · intro c hc
          simpa using (hsegment.plain c hc).1
        · intro c hc
          simp [absolute_head c hc]
      rw [hpath, List.length_cons, List.length_append] at hfuel
      rw [hpath, removeDots, if_pos rfl, hspan]
      dsimp only
      rw [if_neg hsegment.ne_dot, if_neg hsegment.ne_dots,
        ih (fun s hs => h s (List.mem_cons_of_mem _ hs)) (by omega)]
      simp

/-- A scheme as it stands before its colon. -/
def IsScheme (s : List Char) : Prop := s ≠ [] ∧ s.any isSchemeEnd = false

/-- A host as it stands between the slashes. -/
def IsHost (s : List Char) : Prop := ∀ c ∈ s, c ≠ '/' ∧ c ≠ '?' ∧ c ≠ '#'

theorem splitScheme_scheme {scheme : List Char} (h : IsScheme scheme) (rest : List Char) :
    splitScheme (scheme ++ ':' :: rest) = (some scheme, rest) := by
  have hspan : (scheme ++ ':' :: rest).span (!isSchemeEnd ·) = (scheme, ':' :: rest) := by
    apply span_append
    · intro c hc
      simpa using List.any_eq_false.1 h.2 c hc
    · rintro c ⟨rfl⟩
      rfl
  cases scheme with
  | nil => exact absurd rfl h.1
  | cons c scheme =>
      rw [splitScheme, hspan]
      rfl

theorem parse_root {scheme host : List Char} (hscheme : IsScheme scheme) (hhost : IsHost host) :
    parse (scheme ++ ':' :: '/' :: '/' :: host ++ ['/']) =
      { scheme := some scheme, authority := some host, path := ['/'] } := by
  have hplain : ∀ c ∈ scheme ++ ':' :: '/' :: '/' :: host ++ ['/'], c ≠ '?' ∧ c ≠ '#' := by
    intro c hc
    simp only [List.mem_append, List.mem_cons, List.not_mem_nil, or_false] at hc
    rcases hc with (hc | rfl | rfl | rfl | hc) | rfl
    · have hend := List.any_eq_false.1 hscheme.2 c hc
      constructor <;> rintro rfl <;> exact hend rfl
    · decide
    · decide
    · decide
    · exact (hhost c hc).2
    · decide
  have hspan : (host ++ ['/']).span (· != '/') = (host, ['/']) := by
    apply span_append
    · intro c hc
      simpa using (hhost c hc).1
    · rintro c ⟨rfl⟩
      rfl
  have hauthority : splitAuthority ('/' :: '/' :: (host ++ ['/'])) = (some host, ['/']) := by
    rw [List.span_eq_takeWhile_dropWhile, Prod.mk.injEq] at hspan
    show (some ((host ++ ['/']).takeWhile (· != '/')), (host ++ ['/']).dropWhile (· != '/')) = _
    rw [hspan.1, hspan.2]
  rw [parse, cut_of_not_mem (fun hmem => (hplain _ hmem).2 rfl)]
  dsimp only
  rw [cut_of_not_mem (fun hmem => (hplain _ hmem).1 rfl)]
  dsimp only
  rw [List.append_assoc, List.cons_append, splitScheme_scheme hscheme]
  dsimp only [List.cons_append]
  rw [hauthority]

theorem parse_relative {segment : List Char} {segments : List (List Char)} (hne : segment ≠ [])
    (hcolon : ':' ∉ segment) (h : ∀ s ∈ segment :: segments, Segment s) :
    parse (segment ++ absolute segments) = { path := segment ++ absolute segments } := by
  have hsegment := h segment List.mem_cons_self
  have hplain : ∀ c ∈ segment ++ absolute segments, c ≠ '?' ∧ c ≠ '#' := by
    intro c hc
    exact absolute_plain h c (List.mem_cons_of_mem '/' hc)
  have hscheme : splitScheme (segment ++ absolute segments) =
      (none, segment ++ absolute segments) := by
    have hspan : (segment ++ absolute segments).span (!isSchemeEnd ·) =
        (segment, absolute segments) := by
      apply span_append
      · intro c hc
        obtain ⟨h₁, h₂, h₃⟩ := hsegment.plain c hc
        have h₄ : c ≠ ':' := fun heq => hcolon (heq ▸ hc)
        simp [isSchemeEnd, h₁, h₂, h₃, h₄]
      · intro c hc
        rw [absolute_head c hc]
        rfl
    rw [splitScheme, hspan]
    split
    · next heq =>
        have hcolon := absolute_head ':' (by rw [(Prod.mk.inj heq).2]; rfl)
        exact absurd hcolon (by decide)
    · rfl
  have hauthority : splitAuthority (segment ++ absolute segments) =
      (none, segment ++ absolute segments) := by
    unfold splitAuthority
    split
    · next rest heq =>
        obtain ⟨c, tail, rfl⟩ := List.exists_cons_of_ne_nil hne
        rw [List.cons_append] at heq
        exact absurd (List.cons.inj heq).1 (hsegment.plain c List.mem_cons_self).1
    · rfl
  rw [parse, cut_of_not_mem (fun hmem => (hplain _ hmem).2 rfl)]
  dsimp only
  rw [cut_of_not_mem (fun hmem => (hplain _ hmem).1 rfl)]
  dsimp only
  rw [hscheme]
  dsimp only
  rw [hauthority]

/-- **A relative path is appended to the root of a host** if none of its segments is a dot segment
    and its first one could not be taken for a scheme or a root. -/
theorem join_root {scheme host segment : List Char} {segments : List (List Char)}
    (hscheme : IsScheme scheme) (hhost : IsHost host) (hne : segment ≠ [])
    (hcolon : ':' ∉ segment) (h : ∀ s ∈ segment :: segments, Segment s) :
    join (scheme ++ ':' :: '/' :: '/' :: host ++ ['/']) (segment ++ absolute segments) =
      scheme ++ ':' :: '/' :: '/' :: host ++ '/' :: (segment ++ absolute segments) := by
  have hpath : segment ++ absolute segments ≠ [] := by simp [hne]
  have hhead : (segment ++ absolute segments).head? ≠ some '/' := by
    obtain ⟨c, tail, rfl⟩ := List.exists_cons_of_ne_nil hne
    intro heq
    exact ((h _ List.mem_cons_self).plain c List.mem_cons_self).1 (Option.some.inj heq)
  have hmerge : merge { scheme := some scheme, authority := some host, path := ['/'] }
      (segment ++ absolute segments) = absolute (segment :: segments) := rfl
  have hdots : removeDotSegments (absolute (segment :: segments)) =
      absolute (segment :: segments) := removeDots_absolute h (Nat.lt_succ_self _) []
  rw [join, parse_root hscheme hhost, parse_relative hne hcolon h, resolve]
  dsimp only
  rw [if_neg hpath, if_neg hhead, hmerge, hdots]
  simp [recompose, component, absolute]

example : join "http://a/b/c/d;p?q".toList "../../g;x?y#s".toList =
    "http://a/g;x?y#s".toList := by decide

end Uri

end IotLoggingServer
