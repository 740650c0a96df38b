import IotLoggingServer.Lib.Regex
import IotLoggingServer.Python

set_option autoImplicit false

/-! # The thing name scheme (`THINGNAME_PA` of `greengrass_config.py`)

`^(thing[/:])?(?P<profile>[\w-]+)-edge-(?P<id>[\w-]+)-.*$`, with `\w` as the ASCII word
characters. -/

namespace IotLoggingServer

/-- `[\w-]` -/
def wordOrDash (c : Char) : Bool := c.isAlphanum || c == '_' || c == '-'

/-- The groups of the pattern. -/
inductive ThingNameGroup
  | profile
  | id
  deriving DecidableEq, Repr

/-- `(thing[/:])` -/
def thingnamePrefix : Regex Char ThingNameGroup :=
  .seq (.lit "thing".toList) (.char (fun c => c == '/' || c == ':'))

/-- `(?P<profile>[\w-]+)-edge-(?P<id>[\w-]+)-.*$`; `$` also matches before a final newline. -/
def thingnameScheme : Regex Char ThingNameGroup :=
  .seq (.group .profile (.oneOrMore wordOrDash)) <| .seq (.lit "-edge-".toList) <|
  .seq (.group .id (.oneOrMore wordOrDash)) <| .seq (.lit "-".toList) <|
  .seq (.many (fun c => c != '\n')) (.left (fun rest => rest == [] || rest == ['\n']))

def thingnamePa : Regex Char ThingNameGroup := .seq (.opt thingnamePrefix) thingnameScheme

/-- `THINGNAME_MAXLENGH = 128 + len("thing/")` -/
def thingnameMaxlengh : ℕ := 134

/-- `THINGNAME_PA.match(s).group("profile")`, if there is a match. -/
def thingnameProfile (s : Str) : Option Str :=
  (thingnamePa.match? s).map (fun ma => (ma.groups.lookup .profile).getD [])

def getProfileFromThingName (s : Str) : Except PyExc Str :=
  if s.length ≤ thingnameMaxlengh then
    match thingnameProfile s with
    | some profile => .ok profile
    | none => .error (.assertionError ("invalid resource id: ".toList ++ s))
  else .error (.assertionError ("invalid thing_name: ".toList ++ s))

/-! ## What the pattern takes -/

/-- A string of the scheme, by its parts. -/
structure SchemeParts (profile id more rest : Str) : Prop where
  profile_ne : profile ≠ []
  profile_chars : ∀ c ∈ profile, wordOrDash c = true
  id_ne : id ≠ []
  id_chars : ∀ c ∈ id, wordOrDash c = true
  more_chars : '\n' ∉ more
  rest_end : rest = [] ∨ rest = ['\n']

/-- `<profile>-edge-<id>-<more>` -/
def schemeString (profile id more : Str) : Str :=
  profile ++ ("-edge-".toList ++ (id ++ ("-".toList ++ more)))

/-- The scheme behind the profile. -/
def thingnameTail : Regex Char ThingNameGroup :=
  .seq (.lit "-edge-".toList) <| .seq (.group .id (.oneOrMore wordOrDash)) <|
  .seq (.lit "-".toList) <|
  .seq (.many (fun c => c != '\n')) (.left (fun rest => rest == [] || rest == ['\n']))

/-- `-edge-<id>-<more>` -/
def tailString (id more : Str) : Str := "-edge-".toList ++ (id ++ ("-".toList ++ more))

theorem takes_thingnameTail {t rest : Str} {g : List (ThingNameGroup × Str)} :
    Regex.Takes thingnameTail t rest g ↔ ∃ id more, (id ≠ [] ∧ (∀ c ∈ id, wordOrDash c = true) ∧
      '\n' ∉ more ∧ (rest = [] ∨ rest = ['\n'])) ∧ t = tailString id more ∧ g = [(.id, id)] := by
  simp only [thingnameTail, Regex.Takes, Regex.takes_oneOrMore, Regex.takes_lit]
  constructor
  · rintro ⟨_, _, _, _, rfl, rfl, ⟨rfl, rfl⟩, id, _, _, _, rfl, rfl, ⟨_, rfl, hine, hiall, rfl⟩,
      _, _, _, _, rfl, rfl, ⟨rfl, rfl⟩, more, _, _, _, rfl, rfl, ⟨hmore, rfl⟩, hrest, rfl, rfl⟩
    refine ⟨id, more, ⟨hine, hiall, fun hn => ?_, by simpa using hrest⟩, ?_, rfl⟩
    · simpa using hmore _ hn
    · rw [List.append_nil]
      rfl
  · rintro ⟨id, more, ⟨hine, hiall, hmore, hrest⟩, rfl, rfl⟩
    refine ⟨"-edge-".toList, _, [], [(.id, id)], rfl, rfl, ⟨rfl, rfl⟩,
      id, _, _, [], rfl, rfl, ⟨[], rfl, hine, hiall, rfl⟩,
      "-".toList, more, [], [], rfl, rfl, ⟨rfl, rfl⟩,
      more, [], [], [], (List.append_nil more).symm, rfl, ⟨fun c hc => ?_, rfl⟩, ?_, rfl, rfl⟩
    · rw [bne_iff_ne]
      rintro rfl
      exact hmore hc
    · rcases hrest with rfl | rfl <;> rfl

theorem takes_thingnameScheme {t rest : Str} {g : List (ThingNameGroup × Str)} :
    Regex.Takes thingnameScheme t rest g ↔ ∃ profile id more, SchemeParts profile id more rest ∧
      t = schemeString profile id more ∧ g = [(.profile, profile), (.id, id)] := by
  have hscheme : thingnameScheme =
      .seq (.group .profile (.oneOrMore wordOrDash)) thingnameTail := rfl
  simp only [hscheme, Regex.Takes, Regex.takes_oneOrMore, takes_thingnameTail]
  constructor
  · rintro ⟨profile, _, _, _, rfl, rfl, ⟨_, rfl, hpne, hpall, rfl⟩,
      id, more, ⟨hine, hiall, hmore, hrest⟩, rfl, rfl⟩
    exact ⟨profile, id, more, ⟨hpne, hpall, hine, hiall, hmore, hrest⟩, rfl, rfl⟩
  · rintro ⟨profile, id, more, h, rfl, rfl⟩
    exact ⟨profile, _, _, [(.id, id)], rfl, rfl, ⟨[], rfl, h.profile_ne, h.profile_chars, rfl⟩,
      id, more, ⟨h.id_ne, h.id_chars, h.more_chars, h.rest_end⟩, rfl, rfl⟩

/-! ## The optional prefix -/

/-- A name with no `/` and no `:` has no prefix to take. -/
theorem thingnamePrefix_results_eq_nil {s : Str} (hslash : '/' ∉ s) (hcolon : ':' ∉ s) :
    thingnamePrefix.results s = [] := by
  by_contra hne
  obtain ⟨⟨t, rest, g⟩, hmem⟩ := List.exists_mem_of_ne_nil _ hne
  obtain ⟨rfl, htakes⟩ := Regex.mem_results.1 hmem
  simp only [thingnamePrefix, Regex.Takes, Bool.or_eq_true, beq_iff_eq] at htakes
  obtain ⟨t₁, t₂, g₁, g₂, rfl, -, -, c, rfl | rfl, rfl, -⟩ := htakes
  · exact hslash (by simp)
  · exact hcolon (by simp)

/-- A string of the scheme has a `-` before any character that is neither a word character nor a
    dash. -/
theorem thingnameScheme_results_eq_nil {w s : Str} {c : Char} (hw : '-' ∉ w)
    (hc : wordOrDash c = false) : thingnameScheme.results (w ++ c :: s) = [] := by
  by_contra hne
  obtain ⟨⟨t, rest, g⟩, hmem⟩ := List.exists_mem_of_ne_nil _ hne
  obtain ⟨heq, htakes⟩ := Regex.mem_results.1 hmem
  obtain ⟨profile, id, more, hparts, rfl, -⟩ := takes_thingnameScheme.1 htakes
  have hnot : c ∉ profile := fun hmem => by
    simp [hparts.profile_chars c hmem] at hc
  have hsplit : (w ++ [c]) ++ s
      = profile ++ '-' :: ("edge-".toList ++ (id ++ ("-".toList ++ more)) ++ rest) := by
    simpa [schemeString] using heq
  rcases List.append_eq_append_iff.1 hsplit with ⟨as, hprofile, -⟩ | ⟨bs, hwc, hdash⟩
  · exact hnot (by simp [hprofile])
  · cases bs with
    | nil =>
        rw [List.append_nil] at hwc
        exact hnot (by simp [← hwc])
    | cons b bs =>
        rw [List.cons_append, List.cons.injEq] at hdash
        obtain ⟨rfl, -⟩ := hdash
        have hmem : '-' ∈ w ++ [c] := by simp [hwc]
        rcases List.mem_append.1 hmem with hmem | hmem
        · exact hw hmem
        · rw [← List.mem_singleton.1 hmem] at hc
          exact absurd hc (by decide)

/-- The profile of a name that has no prefix. -/
def schemeProfile (s : Str) : Option Str :=
  (thingnameScheme.match? s).map (fun ma => (ma.groups.lookup .profile).getD [])

theorem thingnameProfile_of_noPrefix {s : Str} (h : thingnamePrefix.results s = []) :
    thingnameProfile s = schemeProfile s := by
  have hresults : thingnamePa.results s = thingnameScheme.results s := by
    rw [thingnamePa, Regex.results, Regex.results, h]
    simp
  rw [thingnameProfile, schemeProfile, Regex.match?, Regex.match?, hresults]

theorem thingnameProfile_of_bare {s : Str} (hslash : '/' ∉ s) (hcolon : ':' ∉ s) :
    thingnameProfile s = schemeProfile s :=
  thingnameProfile_of_noPrefix (thingnamePrefix_results_eq_nil hslash hcolon)

/-- A prefix is taken, and the scheme matched behind it. -/
theorem thingnameProfile_prefix {c : Char} (hc : c = '/' ∨ c = ':') (s : Str) :
    thingnameProfile ("thing".toList ++ c :: s) = schemeProfile s := by
  have hclass : (c == '/' || c == ':') = true := by
    rcases hc with rfl | rfl <;> rfl
  have hword : wordOrDash c = false := by
    rcases hc with rfl | rfl <;> rfl
  have hprefix : thingnamePrefix.results ("thing".toList ++ c :: s) =
      [⟨"thing".toList ++ [c], s, []⟩] := by
    simp [thingnamePrefix, Regex.results, Regex.lit, hclass]
  have hscheme : thingnameScheme.results ("thing".toList ++ c :: s) = [] :=
    thingnameScheme_results_eq_nil (by decide) hword
  have hresults : thingnamePa.results ("thing".toList ++ c :: s)
      = (thingnameScheme.results s).map
          (fun r => ⟨"thing".toList ++ [c] ++ r.taken, r.rest, r.groups⟩) := by
    rw [thingnamePa, Regex.results, Regex.results, hprefix, List.flatMap_append,
      List.flatMap_singleton, List.flatMap_singleton, hscheme, List.map_nil, List.append_nil]
    simp
  rw [thingnameProfile, schemeProfile, Regex.match?, Regex.match?, hresults, List.head?_map,
    Option.map_map]
  rfl

theorem thingnameProfile_thing (s : Str) :
    thingnameProfile ("thing/".toList ++ s) = schemeProfile s :=
  thingnameProfile_prefix (Or.inl rfl) s

theorem schemeProfile_isSome {s : Str} :
    (schemeProfile s).isSome ↔ ∃ profile id more rest, SchemeParts profile id more rest ∧
      s = schemeString profile id more ++ rest := by
  rw [schemeProfile, Option.isSome_map, Regex.match?_isSome]
  constructor
  · rintro ⟨t, rest, g, rfl, htakes⟩
    obtain ⟨profile, id, more, hparts, rfl, -⟩ := takes_thingnameScheme.1 htakes
    exact ⟨profile, id, more, rest, hparts, rfl⟩
  · rintro ⟨profile, id, more, rest, hparts, rfl⟩
    exact ⟨_, rest, _, rfl, takes_thingnameScheme.2 ⟨profile, id, more, hparts, rfl, rfl⟩⟩

/-! ## Recovering the profile -/

/-- What may stand before the scheme. -/
def thingnamePrefixes : List Str := [[], "thing/".toList, "thing:".toList]

/-- A string that begins with more than five word characters and dashes has no prefix to take. -/
theorem thingnamePrefix_results_of_word {w s : Str} (hw : ∀ c ∈ w, wordOrDash c = true)
    (hlen : 5 < w.length) : thingnamePrefix.results (w ++ s) = [] := by
  by_contra hne
  obtain ⟨⟨t, rest, g⟩, hmem⟩ := List.exists_mem_of_ne_nil _ hne
  obtain ⟨heq, htakes⟩ := Regex.mem_results.1 hmem
  simp only [thingnamePrefix, Regex.Takes, Regex.takes_lit] at htakes
  obtain ⟨_, _, _, _, rfl, -, ⟨rfl, -⟩, c, hc, rfl, -⟩ := htakes
  have hstart : "thing".toList ++ [c] <+: w :=
    List.prefix_of_prefix_length_le ⟨rest, heq.symm⟩ (List.prefix_append w s) hlen
  have hword := hw c (hstart.subset (by simp))
  rw [Bool.or_eq_true, beq_iff_eq, beq_iff_eq] at hc
  rcases hc with rfl | rfl <;> exact absurd hword (by decide)

/-- Where the scheme could also start later, the id has a separator in it. -/
theorem edge_infix_of_longer {id more q id' more' : Str} (hmore : '-' ∉ more) (hq : q ≠ [])
    (heq : tailString id more = q ++ tailString id' more') :
    "-edge-".toList <:+: '-' :: (id ++ ['-']) := by
  obtain ⟨c, q, rfl⟩ := List.exists_cons_of_ne_nil hq
  -- the last dash of both sides is the same one, or an earlier one on the right
  have htail : ("edge-".toList ++ id ++ ['-']) ++ more =
      (q ++ "-edge-".toList ++ id' ++ ['-']) ++ more' := by
    have hcons : '-' :: ("edge-".toList ++ (id ++ ('-' :: more))) =
        c :: (q ++ ("-edge-".toList ++ (id' ++ ('-' :: more')))) := heq
    simpa using (List.cons.inj hcons).2
  have hend : ∃ s, "edge".toList ++ ('-' :: (id ++ ['-'])) = q ++ ("-edge-".toList ++ s) := by
    rcases List.append_eq_append_iff.1 htail with ⟨as, hlong, hrest⟩ | ⟨bs, hlong, -⟩
    · rcases List.eq_nil_or_concat as with rfl | ⟨as, d, rfl⟩
      · exact ⟨id' ++ ['-'], by simpa using hlong.symm⟩
      · rw [List.concat_eq_append, ← List.append_assoc] at hlong
        obtain rfl : d = '-' := (List.singleton_inj.1 (List.append_inj' hlong rfl).2).symm
        exact absurd (by simp [hrest]) hmore
    · exact ⟨id' ++ ['-'] ++ bs, by simpa using hlong⟩
  obtain ⟨s, hs⟩ := hend
  rcases List.append_eq_append_iff.1 hs with ⟨as, -, hinfix⟩ | ⟨bs, hword, hdash⟩
  · exact ⟨as, s, by simpa using hinfix.symm⟩
  · cases bs with
    | nil => exact ⟨[], s, by simpa using hdash⟩
    | cons d bs =>
        -- a dash inside the word "edge"
        have hd : '-' = d := (List.cons.inj hdash).1
        have hmem : '-' ∈ "edge".toList := by simp [hword, ← hd]
        exact absurd hmem (by decide)

theorem schemeProfile_schemeString {profile id more : Str} (h : SchemeParts profile id more [])
    (hedge : ¬ "-edge-".toList <:+: '-' :: (id ++ ['-'])) (hmore : '-' ∉ more) :
    schemeProfile (schemeString profile id more) = some profile := by
  have htail : (thingnameTail.match? (tailString id more)).isSome := by
    rw [Regex.match?_isSome]
    exact ⟨tailString id more, [], [(.id, id)], (List.append_nil _).symm, takes_thingnameTail.2
      ⟨id, more, ⟨h.id_ne, h.id_chars, h.more_chars, Or.inl rfl⟩, rfl, rfl⟩⟩
  have hlonger : ∀ t' rest', profile ++ tailString id more = t' ++ rest' →
      (∀ c ∈ t', wordOrDash c = true) → profile.length < t'.length →
      thingnameTail.results rest' = [] := by
    intro t' rest' heq _ hlt
    by_contra hne
    obtain ⟨⟨t, rest, g⟩, hmem⟩ := List.exists_mem_of_ne_nil _ hne
    obtain ⟨rfl, htakes⟩ := Regex.mem_results.1 hmem
    obtain ⟨id', more', -, rfl, -⟩ := takes_thingnameTail.1 htakes
    rcases List.append_eq_append_iff.1 heq with ⟨q, rfl, hq⟩ | ⟨q, rfl, -⟩
    · have hqne : q ≠ [] := by
        rintro rfl
        simp at hlt
      have hlater : tailString id more = q ++ tailString id' (more' ++ rest) := by
        have hassoc : "-edge-".toList ++ (id' ++ ("-".toList ++ more')) ++ rest =
            "-edge-".toList ++ (id' ++ ("-".toList ++ (more' ++ rest))) := by
          simp only [List.append_assoc]
        rw [hq]
        exact congrArg (q ++ ·) hassoc
      exact hedge (edge_infix_of_longer hmore hqne hlater)
    · simp at hlt
  have hmatch := @Regex.match?_group_oneOrMore Char ThingNameGroup wordOrDash .profile
    thingnameTail profile (tailString id more) h.profile_ne h.profile_chars htail hlonger
  obtain ⟨b, hb⟩ := Option.isSome_iff_exists.1 htail
  rw [hb] at hmatch
  have hscheme : thingnameScheme.match? (schemeString profile id more) = some _ := hmatch
  rw [schemeProfile, hscheme]
  rfl

/-- `s` is a prefix and a string of the scheme, up to a final newline. -/
def Decomposes (s : Str) : Prop :=
  ∃ pre ∈ thingnamePrefixes, ∃ profile id more rest, SchemeParts profile id more rest ∧
    s = pre ++ schemeString profile id more ++ rest

theorem decomposes_of_thingnameProfile {s : Str} (h : (thingnameProfile s).isSome) :
    Decomposes s := by
  rw [thingnameProfile, Option.isSome_map, Regex.match?_isSome] at h
  obtain ⟨t, rest, g, rfl, htakes⟩ := h
  obtain ⟨pre, t₂, g₁, g₂, rfl, -, hpre, htakes⟩ := htakes
  obtain ⟨profile, id, more, hparts, rfl, -⟩ := takes_thingnameScheme.1 htakes
  refine ⟨pre, ?_, profile, id, more, rest, hparts, rfl⟩
  simp only [thingnamePrefix, Regex.Takes, Regex.takes_lit] at hpre
  rcases hpre with ⟨_, _, _, _, rfl, -, ⟨rfl, -⟩, c, hc, rfl, -⟩ | ⟨rfl, -⟩
  · rw [Bool.or_eq_true, beq_iff_eq, beq_iff_eq] at hc
    rcases hc with rfl | rfl
    · exact List.mem_cons_of_mem _ List.mem_cons_self
    · exact List.mem_cons_of_mem _ (List.mem_cons_of_mem _ List.mem_cons_self)
  · exact List.mem_cons_self

theorem thingnameProfile_schemeString {pre profile id more : Str} (hpre : pre ∈ thingnamePrefixes)
    (h : SchemeParts profile id more []) (hedge : ¬ "-edge-".toList <:+: '-' :: (id ++ ['-']))
    (hmore : '-' ∉ more) :
    thingnameProfile (pre ++ schemeString profile id more) = some profile := by
  have hprofile := schemeProfile_schemeString h hedge hmore
  simp only [thingnamePrefixes, List.mem_cons, List.not_mem_nil, or_false] at hpre
  rcases hpre with rfl | rfl | rfl
  · have hword : ∀ c ∈ profile ++ "-edge-".toList, wordOrDash c = true := by
      intro c hc
      rcases List.mem_append.1 hc with hc | hc
      · exact h.profile_chars c hc
      · exact List.all_eq_true.1 rfl c hc
    have hnone := @thingnamePrefix_results_of_word (profile ++ "-edge-".toList)
      (id ++ ("-".toList ++ more)) hword (by simp)
    rw [List.append_assoc, ← schemeString] at hnone
    rw [List.nil_append, thingnameProfile_of_noPrefix hnone, hprofile]
  · rw [thingnameProfile_thing, hprofile]
  · have hcolon := thingnameProfile_prefix (Or.inr rfl) (schemeString profile id more)
    exact hcolon.trans hprofile

/-- **The profile is recovered from every well-formed thing name**, and what is no string of the
    scheme is rejected. The id decides how the name splits: with no separator in it, the profile
    takes everything up to the last one. -/
theorem getProfileFromThingName_recovers :
    (∀ pre ∈ thingnamePrefixes, ∀ profile id more : Str,
      profile ≠ [] → (∀ c ∈ profile, wordOrDash c = true) →
      id ≠ [] → (∀ c ∈ id, wordOrDash c = true) →
      ¬ "-edge-".toList <:+: '-' :: (id ++ ['-']) → '-' ∉ more → '\n' ∉ more →
      (pre ++ schemeString profile id more).length ≤ 134 →
      getProfileFromThingName (pre ++ schemeString profile id more) = .ok profile) ∧
    ∀ s : Str, ¬ Decomposes s →
      ∃ msg, getProfileFromThingName s = .error (.assertionError msg) := by
  constructor
  · intro pre hpre profile id more hpne hpall hine hiall hedge hdash hnewline hlen
    rw [getProfileFromThingName, thingnameMaxlengh, if_pos hlen, thingnameProfile_schemeString hpre
      ⟨hpne, hpall, hine, hiall, hnewline, Or.inl rfl⟩ hedge hdash]
  · intro s hnot
    rw [getProfileFromThingName]
    split
    · cases hprofile : thingnameProfile s with
      | none => exact ⟨_, rfl⟩
      | some profile =>
          exact absurd (decomposes_of_thingnameProfile (by rw [hprofile]; rfl)) hnot
    · exact ⟨_, rfl⟩

theorem getProfileFromThingName_recovers_example :
    getProfileFromThingName "thing/dev-edge-x-edge-ecu-Core".toList = .ok "dev-edge-x".toList ∧
    ∃ msg, getProfileFromThingName "thing/camera".toList = .error (.assertionError msg) := by
  constructor
  · exact getProfileFromThingName_recovers.1 "thing/".toList (by decide) "dev-edge-x".toList
      "ecu".toList "Core".toList (by decide) (List.all_eq_true.1 rfl) (by decide)
      (List.all_eq_true.1 rfl) (by decide) (by decide) (by decide) (by decide)
  · refine getProfileFromThingName_recovers.2 "thing/camera".toList ?_
    rintro ⟨pre, -, profile, id, more, rest, -, heq⟩
    have hdash : '-' ∈ "thing/camera".toList := by
      rw [heq]
      simp [schemeString]
    exact absurd hdash (by decide)

/-- An id with a separator in it is accepted too: the name `a-edge-edge-x` splits only with the id
    `edge`, and its profile is `a`. -/
theorem not_rejects_edge_in_id :
    ¬ ∀ s : Str,
      (¬ ∃ pre ∈ thingnamePrefixes, ∃ profile id more : Str,
        profile ≠ [] ∧ (∀ c ∈ profile, wordOrDash c = true) ∧
        id ≠ [] ∧ (∀ c ∈ id, wordOrDash c = true) ∧
        ¬ "-edge-".toList <:+: '-' :: (id ++ ['-']) ∧
        s = pre ++ schemeString profile id more) →
      ∃ msg, getProfileFromThingName s = .error (.assertionError msg) := by
  intro h
  have haccepts : getProfileFromThingName "a-edge-edge-x".toList = .ok ['a'] := by decide
  suffices hrejected : ∃ msg, getProfileFromThingName "a-edge-edge-x".toList =
      .error (.assertionError msg) by
    obtain ⟨msg, hmsg⟩ := hrejected
    rw [haccepts] at hmsg
    cases hmsg
  apply h
  intro hsplit
  obtain ⟨pre, hpre, profile, id, more, -, -, -, -, hedge, heq⟩ := hsplit
  simp only [thingnamePrefixes, List.mem_cons, List.not_mem_nil, or_false] at hpre
  rcases hpre with rfl | rfl | rfl
  · have hlen := congrArg List.length heq
    have hdrop : "a-edge-edge-x".toList.drop profile.length = tailString id more := by
      rw [heq]
      exact List.drop_left
    have hposition : ∀ n ≤ 13, "-edge-".toList <+: "a-edge-edge-x".toList.drop n →
        n = 1 ∨ n = 6 := by decide
    have hid : ∀ n ≤ 6, "-".toList <+: "edge-x".toList.drop n → n = 4 := by decide
    simp only [schemeString, List.length_append] at hlen
    rcases hposition profile.length (by simp at hlen; omega) ⟨_, hdrop.symm⟩ with hn | hn
    · rw [hn] at hdrop
      have hrest : "edge-x".toList = id ++ ("-".toList ++ more) := by
        apply @List.append_cancel_left Char "-edge-".toList
        exact hdrop
      have hfour := hid id.length (by have := congrArg List.length hrest; simp at this; omega)
        ⟨more, by rw [hrest, List.drop_left]⟩
      have hedgeId : id = "edge".toList := by
        have htake := congrArg (List.take 4) hrest
        rw [← hfour, List.take_left] at htake
        rw [← htake, hfour]
        rfl
      exact hedge (hedgeId ▸ by decide)
    · rw [hn] at hdrop
      have hrest : "x".toList = id ++ ("-".toList ++ more) := by
        apply @List.append_cancel_left Char "-edge-".toList
        exact hdrop
      exact absurd (hrest ▸ by simp : '-' ∈ "x".toList) (by decide)
  · exact absurd (List.cons.inj heq).1 (by decide)
  · exact absurd (List.cons.inj heq).1 (by decide)

end IotLoggingServer
