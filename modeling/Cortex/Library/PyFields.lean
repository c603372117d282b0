import Cortex.Library.PyAccepted

/-!
# The fields of a document

A document whose fields the source spells out: when JSON represents it, when it can
be written, and what each of its fields is once it was read back.
-/

namespace Cortex.PyJson

open Py

variable {limits : JsonLimits} {F : Floats} {P : Str → Prop}

theorem unpaired_of_isUtf8 {text : Str} (h : text.IsUtf8) : Str.Unpaired text := by
  refine (List.pairwise_of_forall_mem_list fun c hc d _ => ?_).isChain
  rintro ⟨hlow, hhigh, -⟩
  rcases h c hc with hc | hc <;> omega

theorem unpaired_lit (text : String) : Str.Unpaired (lit text) :=
  unpaired_of_isUtf8 (isUtf8_lit text)

/-! ## Looking a field up -/

private theorem get?_cons_self (fields : Fields) (name : Str) (v : Value) :
    Fields.get? ((.str name, v) :: fields) name = some v := by
  simp [Fields.get?]

private theorem get?_cons_of_ne {item : Value × Value} {name : Str} (h : item.1 ≠ .str name)
    (fields : Fields) : Fields.get? (item :: fields) name = Fields.get? fields name := by
  obtain ⟨key, v⟩ := item
  cases key with
  | str text =>
      have hne : text ≠ name := fun heq => h (congrArg Value.str heq)
      simp [Fields.get?, hne]
  | _ => simp [Fields.get?]

theorem get?_eq_some_iff {fields : Fields} (h : (fields.map Prod.fst).Nodup) {name : Str}
    {v : Value} : fields.get? name = some v ↔ (.str name, v) ∈ fields := by
  induction fields with
  | nil => simp [Fields.get?]
  | cons item fields ih =>
      obtain ⟨hnew, hrest⟩ := List.nodup_cons.1 h
      have ih := ih hrest
      rw [List.mem_cons]
      by_cases hname : item.1 = .str name
      · obtain ⟨key, w⟩ := item
        obtain rfl : key = .str name := hname
        rw [get?_cons_self, Option.some.injEq]
        constructor
        · rintro rfl
          exact .inl rfl
        · rintro (heq | hmem)
          · exact (Prod.mk.inj heq).2.symm
          · exact absurd (List.mem_map_of_mem hmem) hnew
      · rw [get?_cons_of_ne hname, ih]
        constructor
        · exact .inr
        · rintro (rfl | hmem)
          · exact absurd rfl hname
          · exact hmem

theorem isSome_get?_iff {fields : Fields} {name : Str} :
    (fields.get? name).isSome = true ↔ Value.str name ∈ fields.map Prod.fst := by
  unfold Fields.get?
  rw [Option.isSome_map, List.find?_isSome, List.mem_map]
  refine exists_congr fun item => and_congr_right fun _ => ?_
  cases item.1 <;> simp

theorem nodup_keys {items : List (Str × Value)} (h : (items.map Prod.fst).Nodup) :
    ((items.map fun item => ((.str item.1 : Value), item.2)).map Prod.fst).Nodup := by
  have hkeys : (items.map fun item => ((.str item.1 : Value), item.2)).map Prod.fst =
      (items.map Prod.fst).map Value.str := by
    rw [List.map_map, List.map_map]
    rfl
  rw [hkeys]
  exact h.map fun text other => Value.str.inj

theorem IsJson.nodup {fields : Fields} (h : IsJson F P (.dict fields)) :
    (fields.map Prod.fst).Nodup := by
  cases h with
  | dict hkeys htexts hitems => exact nodup_keys hkeys

theorem IsJson.get? {fields : Fields} (h : IsJson F P (.dict fields)) {name : Str} {v : Value}
    (hv : fields.get? name = some v) : P name ∧ IsJson F P v := by
  have hmem := (get?_eq_some_iff h.nodup).1 hv
  cases h with
  | dict hkeys htexts hitems =>
      obtain ⟨item, hitem, heq⟩ := List.mem_map.1 hmem
      obtain ⟨hname, rfl⟩ := Prod.mk.inj heq
      obtain rfl := Value.str.inj hname
      exact ⟨htexts item hitem, hitems item hitem⟩

/-- A field of a document that can be written can be written, with less nesting left. -/
theorem dump_get? {depth : ℕ} {fields : Fields} (hjson : IsJson F P (.dict fields))
    (h : (dump limits F depth (.dict fields)).isSome = true) {name : Str} {v : Value}
    (hv : fields.get? name = some v) :
    ∃ less, depth = less + 1 ∧ (dump limits F less v).isSome = true := by
  have hmem := (get?_eq_some_iff hjson.nodup).1 hv
  obtain ⟨text, htext⟩ := Option.isSome_iff_exists.1 h
  cases depth with
  | zero => cases htext
  | succ less =>
      refine ⟨less, rfl, ?_⟩
      cases hjson with
      | @dict items hkeys htexts hitems =>
          obtain ⟨texts, hall, -⟩ := dump_dict.1 htext
          obtain ⟨item, hitem, heq⟩ := List.mem_map.1 hmem
          obtain ⟨-, rfl⟩ := Prod.mk.inj heq
          have hsorted := (sortItems_perm items).mem_iff.2 hitem
          obtain ⟨n, hn, hget⟩ := List.mem_iff_getElem.1 hsorted
          obtain ⟨own, hown, -⟩ := hall.get hn (hall.length_eq ▸ hn)
          rw [List.get_eq_getElem, hget] at hown
          exact Option.isSome_iff_exists.2 ⟨own, hown⟩

/-! ## Fields that the source spells out -/

private theorem fieldsOf_eq (items : List (String × Value)) :
    fieldsOf items = (items.map fun item => (lit item.1, item.2)).map
      fun item => (.str item.1, item.2) := by
  rw [List.map_map]
  rfl

theorem isJson_fieldsOf {items : List (String × Value)} (hnames : (items.map Prod.fst).Nodup)
    (hlit : ∀ text, P (lit text)) (hitems : ∀ item ∈ items, IsJson F P item.2) :
    IsJson F P (.dict (fieldsOf items)) := by
  rw [fieldsOf_eq]
  refine .dict ?_ ?_ ?_
  · have hkeys : (items.map fun item => (lit item.1, item.2)).map Prod.fst =
        (items.map Prod.fst).map lit := by
      rw [List.map_map, List.map_map]
      rfl
    rw [hkeys]
    exact hnames.map fun text other => lit_inj.1
  · intro item hitem
    obtain ⟨member, -, rfl⟩ := List.mem_map.1 hitem
    exact hlit member.1
  · intro item hitem
    obtain ⟨member, hmember, rfl⟩ := List.mem_map.1 hitem
    exact hitems member hmember

theorem dump_fieldsOf {depth : ℕ} {items : List (String × Value)}
    (h : ∀ item ∈ items, (dump limits F depth item.2).isSome = true) :
    (dump limits F (depth + 1) (.dict (fieldsOf items))).isSome = true := by
  rw [fieldsOf_eq]
  refine isSome_dump_dict fun item hitem => ?_
  obtain ⟨member, hmember, rfl⟩ := List.mem_map.1 hitem
  exact h member hmember

/-! ## Equal documents -/

/-- The same keys, each with an equal value. -/
structure SameFields (fields others : Fields) : Prop where
  keys : ∀ key, key ∈ others.map Prod.fst ↔ key ∈ fields.map Prod.fst
  get? : ∀ {name : Str} {v : Value}, fields.get? name = some v →
    ∃ w, others.get? name = some w ∧ Same v w

section SameFields

variable {fields others : Fields} {name : Str}

theorem SameFields.isSome_get? (h : SameFields fields others) :
    (others.get? name).isSome = (fields.get? name).isSome := by
  rw [Bool.eq_iff_iff, isSome_get?_iff, isSome_get?_iff, h.keys]

theorem SameFields.none (h : SameFields fields others) (hv : fields.get? name = some .none) :
    others.get? name = some .none := by
  obtain ⟨w, hw, hsame⟩ := h.get? hv
  cases hsame
  exact hw

theorem SameFields.bool (h : SameFields fields others) {b : Bool}
    (hv : fields.get? name = some (.bool b)) : others.get? name = some (.bool b) := by
  obtain ⟨w, hw, hsame⟩ := h.get? hv
  cases hsame
  exact hw

theorem SameFields.int (h : SameFields fields others) {n : ℤ}
    (hv : fields.get? name = some (.int n)) : others.get? name = some (.int n) := by
  obtain ⟨w, hw, hsame⟩ := h.get? hv
  cases hsame
  exact hw

theorem SameFields.str (h : SameFields fields others) {t : Str}
    (hv : fields.get? name = some (.str t)) : others.get? name = some (.str t) := by
  obtain ⟨w, hw, hsame⟩ := h.get? hv
  cases hsame
  exact hw

end SameFields

theorem Same.dict_inv {fields : Fields} (hnodup : (fields.map Prod.fst).Nodup) {w : Value}
    (h : Same (.dict fields) w) : ∃ others, w = .dict others ∧ SameFields fields others := by
  cases h with
  | refl => exact ⟨fields, rfl, fun _ => Iff.rfl, fun hv => ⟨_, hv, .refl _⟩⟩
  | @dict _ moved others hperm hkeys hsame =>
      have hperm' := hperm.map Prod.fst
      refine ⟨others, rfl, fun key => ?_, fun {name v} hv => ?_⟩
      · rw [← hkeys]
        exact hperm'.mem_iff.symm
      · have hmem := hperm.mem_iff.1 ((get?_eq_some_iff hnodup).1 hv)
        have hothers : (others.map Prod.fst).Nodup := by
          rw [← hkeys]
          exact hperm'.nodup_iff.1 hnodup
        obtain ⟨n, hn, hget⟩ := List.mem_iff_getElem.1 hmem
        have hlength : moved.length = others.length := by
          have := congrArg List.length hkeys
          rwa [List.length_map, List.length_map] at this
        have hn' : n < others.length := hlength ▸ hn
        have hkey : others[n].1 = .str name := by
          have := List.getElem_of_eq hkeys (i := n) (by rwa [List.length_map])
          rw [List.getElem_map, List.getElem_map, hget] at this
          exact this.symm
        have hval := hsame.get (i := n) (by rwa [List.length_map]) (by rwa [List.length_map])
        simp only [List.get_eq_getElem, List.getElem_map, hget] at hval
        refine ⟨others[n].2, (get?_eq_some_iff hothers).2 ?_, hval⟩
        rw [← hkey]
        exact List.getElem_mem hn'

end Cortex.PyJson
