import IotLoggingServer.ProtoWrapper.Values

set_option autoImplicit false

/-! # The export of the fields (`proto_wrapper.py`)

The loop of `export_pb` writes the fields in the order of annotation. A write to a member of a oneof
clears the other members, so that after the loop of every group the last member is set, and every
field outside of oneofs (`Fields.exportPb_mem`). -/

namespace IotLoggingServer

/-! ## The last member of a group -/

/-- The last field of the group, in the order of annotation. -/
def Fields.lastMember : Fields → Str → Option Str
  | .nil, _ => none
  | .cons name oneof _ rest, group =>
    match rest.lastMember group with
    | some last => some last
    | none => if oneof = some group then some name else none

theorem Fields.lastMember_eq_some {group last : Str} : ∀ {fields : Fields},
    fields.lastMember group = some last →
      ∃ field ∈ fields.toList, field.oneof = some group ∧ field.name = last
  | .nil, h => by cases h
  | .cons name oneof type rest, h => by
      rw [Fields.lastMember] at h
      split at h
      · next last' hrest =>
          obtain rfl : last' = last := Option.some.inj h
          obtain ⟨field, hmem, hfield⟩ := Fields.lastMember_eq_some hrest
          exact ⟨field, List.mem_cons_of_mem _ hmem, hfield⟩
      · split at h
        · next hgroup =>
            exact ⟨⟨name, oneof, type⟩, List.mem_cons_self, hgroup, Option.some.inj h⟩
        · cases h

theorem Fields.lastMember_ne_none {group : Str} : ∀ {fields : Fields} {field : Field},
    field ∈ fields.toList → field.oneof = some group → fields.lastMember group ≠ none
  | .nil, _, hmem, _ => by cases hmem
  | .cons name oneof type rest, field, hmem, hgroup => by
      rw [Fields.lastMember]
      split
      · exact Option.some_ne_none _
      · next hrest =>
          rcases List.mem_cons.1 hmem with rfl | hmem
          · rw [if_pos hgroup]
            exact Option.some_ne_none _
          · exact absurd hrest (Fields.lastMember_ne_none hmem hgroup)

/-- A write to one of the fields clears the field of that name. -/
def Fields.clears (fields all : Fields) (name : Str) : Bool :=
  fields.toList.any (fun field => all.sameOneof field.name name)

/-- No field after this one is in its group. -/
def Fields.keeps (fields : Fields) (field : Field) : Bool :=
  match field.oneof with
  | some group => decide (fields.lastMember group = some field.name)
  | none => true

/-- The group of a field is found by its name. -/
theorem Fields.oneofOf_of_mem {fields : Fields} (hnd : fields.names.Nodup) {field : Field}
    (hmem : field ∈ fields.toList) : fields.oneofOf field.name = field.oneof := by
  rw [Fields.oneofOf]
  have hfind : fields.toList.find? (fun field' => decide (field'.name = field.name))
      = some field := by
    cases hfind : fields.toList.find? (fun field' => decide (field'.name = field.name)) with
    | none =>
        have hne := List.find?_eq_none.1 hfind field hmem
        exact absurd rfl (of_decide_eq_false (Bool.eq_false_of_not_eq_true hne))
    | some field' =>
        have hname : field'.name = field.name := by simpa using List.find?_some hfind
        rw [List.inj_on_of_nodup_map hnd (List.mem_of_find?_eq_some hfind) hmem hname]
  rw [hfind]
  rfl

theorem Fields.sameOneof_iff {fields : Fields} {name name' : Str} :
    fields.sameOneof name name' = true ↔ name' ≠ name ∧
      ∃ group, fields.oneofOf name = some group ∧ fields.oneofOf name' = some group := by
  unfold Fields.sameOneof
  cases hname : fields.oneofOf name with
  | none => simp
  | some group => simp

/-- What a set of one field does to the others. -/
theorem dictGet?_pbSet (all : Fields) (pbFields : List (Str × PyVal)) (name name' : Str)
    (v : PyVal) : dictGet? id (pbSet all pbFields name v) name'
      = if name = name' then some v
        else if all.sameOneof name name' then none else dictGet? id pbFields name' := by
  have hfilter := @dictGet?_filter _ _ PyVal _ id (fun k => !all.sameOneof name k)
    (fun k k' (hk : k = k') => by rw [hk]) pbFields name'
  rw [pbSet, dictGet?_dictSet, hfilter]
  show (if name = name' then _ else _) = _
  cases all.sameOneof name name' <;> rfl

/-! ## The export -/

section Export

variable {rt : PbRuntime} {all : Fields} {attr : Str → Option PyVal}

/-- The export succeeds if it does for every field. -/
theorem Fields.exportPb_ok : ∀ {fields : Fields} (pbFields : List (Str × PyVal)),
    (∀ field ∈ fields.toList, ∃ x v, attr field.name = some x ∧
      field.type.exportToPb rt x = .ok v) →
    ∃ res, fields.exportPb rt all attr pbFields = .ok res
  | .nil, pbFields, _ => ⟨pbFields, rfl⟩
  | .cons name oneof type rest, pbFields, h => by
      rw [Fields.toList, List.forall_mem_cons] at h
      obtain ⟨⟨x, v, hx, hv⟩, hrest⟩ := h
      obtain ⟨res, hres⟩ := @Fields.exportPb_ok rest _ hrest
      exact ⟨res, by simp only [Fields.exportPb, hx, hv, ok_bind]; exact hres⟩

/-- A field that the loop does not visit is cleared by a write to a member of its group. -/
theorem Fields.exportPb_notMem : ∀ {fields : Fields} {pbFields res : List (Str × PyVal)},
    fields.exportPb rt all attr pbFields = .ok res → ∀ name, name ∉ fields.names →
      dictGet? id res name
        = if fields.clears all name then none else dictGet? id pbFields name
  | .nil, _, _, h, _, _ => by
      cases h
      rfl
  | .cons name oneof type rest, pbFields, res, h, name', hnot => by
      simp only [Fields.names, Fields.toList, List.map_cons, List.mem_cons, not_or] at hnot
      rw [Fields.exportPb] at h
      split at h
      · cases h
      · obtain ⟨v, -, h⟩ := bind_eq_ok.1 h
        rw [Fields.exportPb_notMem h name' hnot.2, dictGet?_pbSet]
        show (if rest.clears all name' = true then none else
          if name = name' then _ else if all.sameOneof name name' = true then none else _)
          = if (all.sameOneof name name' || rest.clears all name') = true then none else _
        rw [if_neg (fun heq => hnot.1 (Eq.symm heq) : ¬ name = name')]
        cases rest.clears all name' <;> cases all.sameOneof name name' <;> rfl

/-- The first of the fields is kept iff no other is in its group. -/
theorem Fields.keeps_head {name : Str} {oneof : Option Str} {type : FieldType} {rest : Fields}
    (hname : all.oneofOf name = oneof)
    (hrest : ∀ field ∈ rest.toList, all.oneofOf field.name = field.oneof)
    (hnot : name ∉ rest.names) :
    (Fields.cons name oneof type rest).keeps ⟨name, oneof, type⟩ = !rest.clears all name := by
  have hclears : rest.clears all name = true ↔ ∃ field ∈ rest.toList, ∃ group,
      field.oneof = some group ∧ oneof = some group := by
    unfold Fields.clears
    rw [List.any_eq_true]
    refine exists_congr (fun field => and_congr_right (fun hmem => ?_))
    rw [Fields.sameOneof_iff, hrest field hmem, hname]
    have hne : name ≠ field.name := fun heq => hnot (List.mem_map.2 ⟨field, hmem, heq.symm⟩)
    exact and_iff_right hne
  unfold Fields.keeps
  rcases oneof with _ | group
  · have hnone : rest.clears all name = false := by
      rw [Bool.eq_false_iff, Ne, hclears]
      rintro ⟨_, _, _, _, hgroup⟩
      cases hgroup
    rw [hnone]
    rfl
  · show decide ((Fields.cons name (some group) type rest).lastMember group = some name) = _
    rw [Fields.lastMember]
    cases hlast : rest.lastMember group with
    | some last =>
        obtain ⟨field, hmem, hgroup, rfl⟩ := Fields.lastMember_eq_some hlast
        rw [hclears.2 ⟨field, hmem, group, hgroup, rfl⟩]
        refine decide_eq_false (fun heq => hnot ?_)
        exact List.mem_map.2 ⟨field, hmem, Option.some.inj heq⟩
    | none =>
        have hnone : rest.clears all name = false := by
          rw [Bool.eq_false_iff, Ne, hclears]
          rintro ⟨field, hmem, group', hgroup, heq⟩
          obtain rfl : group = group' := Option.some.inj heq
          exact Fields.lastMember_ne_none hmem hgroup hlast
        rw [hnone]
        exact decide_eq_true (if_pos rfl)

/-- Of the other fields the first changes nothing. -/
theorem Fields.keeps_tail {name : Str} {oneof : Option Str} {type : FieldType} {rest : Fields}
    {field : Field} (hmem : field ∈ rest.toList) :
    (Fields.cons name oneof type rest).keeps field = rest.keeps field := by
  unfold Fields.keeps
  cases hgroup : field.oneof with
  | none => rfl
  | some group =>
      obtain ⟨last, hrest⟩ :=
        Option.ne_none_iff_exists'.1 (Fields.lastMember_ne_none hmem hgroup)
      have hsame : (Fields.cons name oneof type rest).lastMember group
          = rest.lastMember group := by
        rw [Fields.lastMember, hrest]
      show decide (_ = some field.name) = decide (_ = some field.name)
      rw [hsame]

/-- **After the export a field holds what was exported to it, if it is the last of its group, and
    nothing otherwise.** -/
theorem Fields.exportPb_mem : ∀ {fields : Fields} {pbFields res : List (Str × PyVal)},
    fields.names.Nodup → (∀ field ∈ fields.toList, all.oneofOf field.name = field.oneof) →
    (∀ field ∈ fields.toList, dictGet? id pbFields field.name = none) →
    fields.exportPb rt all attr pbFields = .ok res →
      ∀ field ∈ fields.toList, ∃ x v, attr field.name = some x ∧
        field.type.exportToPb rt x = .ok v ∧
        dictGet? id res field.name
          = if fields.keeps field then some (pbStore field.type.pbDefault v) else none
  | .nil, _, _, _, _, _, _ => by simp [Fields.toList]
  | .cons name oneof type rest, pbFields, res, hnd, hall, hunset, h => by
      obtain ⟨hnot, hrest⟩ := List.nodup_cons.1 hnd
      rw [Fields.toList, List.forall_mem_cons] at hall hunset
      rw [Fields.exportPb] at h
      split at h
      · cases h
      · next x hx =>
          obtain ⟨v, hv, h⟩ := bind_eq_ok.1 h
          refine List.forall_mem_cons.2 ⟨⟨x, v, hx, hv, ?_⟩, fun field hmem => ?_⟩
          · rw [Fields.exportPb_notMem h name hnot, dictGet?_pbSet, if_pos rfl,
              Fields.keeps_head hall.1 hall.2 hnot, pbGetattr, hunset.1]
            cases rest.clears all name <;> rfl
          · have hunset' : ∀ field ∈ rest.toList, dictGet? id (pbSet all pbFields name
                (pbStore (pbGetattr pbFields name type) v)) field.name = none := by
              intro field hmem
              have hne : name ≠ field.name := fun heq =>
                hnot (List.mem_map.2 ⟨field, hmem, heq.symm⟩)
              rw [dictGet?_pbSet, if_neg hne, hunset.2 field hmem, ite_self]
            obtain ⟨y, w, hy, hw, hget⟩ :=
              Fields.exportPb_mem hrest hall.2 hunset' h field hmem
            exact ⟨y, w, hy, hw, by rw [hget, Fields.keeps_tail hmem]⟩

/-- Outside of oneofs every field is kept. -/
theorem Fields.exportPb_stored {fields : Fields} {res : List (Str × PyVal)}
    (hnd : fields.names.Nodup) (hone : ∀ field ∈ fields.toList, field.oneof = none)
    (h : fields.exportPb rt fields attr [] = .ok res) :
    ∀ field ∈ fields.toList, ∃ x v, attr field.name = some x ∧
      field.type.exportToPb rt x = .ok v ∧
      dictGet? id res field.name = some (pbStore field.type.pbDefault v) := by
  intro field hmem
  obtain ⟨x, v, hx, hv, hget⟩ := Fields.exportPb_mem hnd
    (fun field hmem => Fields.oneofOf_of_mem hnd hmem) (fun _ _ => rfl) h field hmem
  have hkeeps : fields.keeps field = true := by
    rw [Fields.keeps, hone field hmem]
  rw [hkeeps, if_pos rfl] at hget
  exact ⟨x, v, hx, hv, hget⟩

end Export

end IotLoggingServer
