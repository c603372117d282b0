import Cortex.Xhs.Identify

/-!
# No paper is added, lost or made up

The items of `identify`, whatever the model answers: every identifier that is written
in the note is there exactly once and there is no other, no two items have one key, and
what is claimed of an item of the model is written in the place that it cites, also
where the merge has moved it.
-/

namespace Cortex.Xhs

open PyText UrlSplit Sources Firsts

variable {unicode : Unicode} {ip : IpCheck} {caption : Text} {transcriptions : List (ℤ × Text)}

/-! ## Places -/

/-- The text of a place of a note. -/
def Cites (caption : Text) (transcriptions : List (ℤ × Text)) : Place → Text → Prop
  | some image, text => (image, text) ∈ transcriptions
  | none, text => text = caption

/-- An identifier is written somewhere in a note. -/
def Written (caption : Text) (transcriptions : List (ℤ × Text)) (id : Text) : Prop :=
  ∃ image text, Cites caption transcriptions image text ∧ id ∈ arxivIdsIn text

private theorem lookup_eq_some_iff {κ ν : Type*} [BEq κ] [LawfulBEq κ] {entries : List (κ × ν)}
    (h : (entries.map Prod.fst).Nodup) {k : κ} {v : ν} :
    entries.lookup k = some v ↔ (k, v) ∈ entries := by
  induction entries with
  | nil => simp
  | cons entry entries ih =>
      obtain ⟨k', v'⟩ := entry
      rw [List.map_cons, List.nodup_cons] at h
      rw [List.lookup_cons, List.mem_cons]
      by_cases heq : k = k'
      · subst heq
        simp only [beq_self_eq_true, Option.some_inj, Prod.mk.injEq, true_and]
        refine ⟨fun hv => .inl hv.symm, fun hv => hv.elim Eq.symm fun hmem => ?_⟩
        exact absurd (List.mem_map_of_mem hmem) h.1
      · rw [beq_eq_false_iff_ne.2 heq]
        simp only [ih h.2, Prod.mk.injEq, heq, false_and, false_or]

theorem mem_sources {image : Place} {text : Text} :
    (image, text) ∈ sources caption transcriptions ↔ Cites caption transcriptions image text := by
  rw [sources, List.mem_append, List.mem_singleton, Prod.mk.injEq]
  cases image with
  | none => simp [Cites]
  | some image => simp [Cites]

theorem rawText_eq_some {image : Place} {text : Text} (h : (transcriptions.map Prod.fst).Nodup) :
    rawText caption transcriptions image = some text ↔
      Cites caption transcriptions image text := by
  rw [rawText, lookup_eq_some_iff, mem_sources]
  rw [sources, List.map_append, List.map_map]
  have hinj : Function.Injective (some : ℤ → Place) := Option.some_injective ℤ
  have hmap : transcriptions.map (Prod.fst ∘ fun entry : ℤ × Text => (some entry.1, entry.2)) =
      (transcriptions.map Prod.fst).map some := by
    rw [List.map_map]
    rfl
  rw [hmap]
  refine List.Nodup.append (h.map hinj) (List.nodup_singleton _) ?_
  simp

/-- Sorting keeps the texts and their numbers. -/
theorem sortedTranscriptions_spec (caption : Text) {sorted : List (ℤ × Text)}
    (h : sortedTranscriptions transcriptions = some sorted) :
    (sorted.map Prod.fst).Nodup ∧
      ∀ image text, Cites caption sorted image text ↔ Cites caption transcriptions image text := by
  rw [sortedTranscriptions] at h
  split_ifs at h with hvalid
  obtain rfl := Option.some.inj h
  have hperm := List.perm_insertionSort (fun a b : ℤ × Text => a.1 ≤ b.1) transcriptions
  refine ⟨(hperm.map Prod.fst).nodup_iff.2 hvalid.1, fun image text => ?_⟩
  cases image with
  | none => exact Iff.rfl
  | some image => exact hperm.mem_iff

/-! ## Rules -/

/-- An item of the rules. -/
structure Ruled (caption : Text) (transcriptions : List (ℤ × Text)) (item : Item) : Prop where
  written : ∃ text found id, Cites caption transcriptions item.image text ∧
    found ∈ arxivMatches text ∧ found.arxivId = some id ∧ item = ruleItem item.image found id

theorem ruled_of_mem {item : Item} (h : item ∈ ruleItems caption transcriptions) :
    Ruled caption transcriptions item := by
  obtain ⟨⟨image, text⟩, hsource, hitem⟩ := List.mem_flatMap.1 (mem_of_mem_firsts h)
  obtain ⟨found, hfound, hitem⟩ := List.mem_filterMap.1 hitem
  obtain ⟨id, hid, rfl⟩ := Option.map_eq_some_iff.1 hitem
  exact ⟨text, found, id, mem_sources.1 hsource, hfound, hid, rfl⟩

/-- The rules find every identifier. -/
theorem exists_rule {id : Text} (h : Written caption transcriptions id) :
    ∃ rule ∈ ruleItems caption transcriptions, rule.arxivId = some id := by
  obtain ⟨image, text, hcites, hid⟩ := h
  obtain ⟨found, hfound, hid⟩ := mem_arxivIdsIn.1 hid
  have hkey : some id ∈ (ruleItems caption transcriptions).map Item.arxivId := by
    rw [ruleItems, keys_firsts]
    refine List.mem_map.2 ⟨ruleItem image found id, ?_, rfl⟩
    refine List.mem_flatMap.2 ⟨(image, text), mem_sources.2 hcites, ?_⟩
    exact List.mem_filterMap.2 ⟨found, hfound, by rw [hid]; rfl⟩
  obtain ⟨rule, hrule, hid⟩ := List.mem_map.1 hkey
  exact ⟨rule, hrule, hid⟩

/-! ## Keys -/

/-- The key of an item tells its identifier, if it has one. -/
def Keyed (item : Item) : Prop :=
  match item.arxivId with
  | some id => item.itemKey = arxivKey id ∧ ':' ∉ id
  | none => 2 ≤ item.itemKey.count ':'

theorem keyed_modelItem (item : ModelItem) (raw : Place → Option Text) :
    Keyed (modelItem unicode ip item raw) := by
  rw [Keyed]
  split
  · rename_i id hid
    refine ⟨?_, ?_⟩
    · simp only [modelItem] at hid ⊢
      rw [hid]
      rfl
    · simp only [modelItem] at hid
      split_ifs at hid
      obtain ⟨hmem, -⟩ := Option.filter_eq_some_iff.1 hid
      obtain ⟨text, -, hfound⟩ := Option.bind_eq_some_iff.1 hmem
      obtain ⟨found, -, hfound⟩ := Option.bind_eq_some_iff.1 hfound
      exact found.not_colon_arxivId hfound
  · rename_i hid
    simp only [modelItem] at hid ⊢
    rw [hid]
    simp only [itemKey, List.count_append, List.count_cons_self]
    omega

theorem Ruled.keyed {item : Item} (h : Ruled caption transcriptions item) : Keyed item := by
  obtain ⟨text, found, id, -, -, hid, hitem⟩ := h.written
  rw [hitem]
  exact ⟨rfl, found.not_colon_arxivId hid⟩

/-- Only a paper has the key of a paper. -/
theorem Keyed.arxivId_eq {item : Item} {id : Text} (h : Keyed item) (hcolon : ':' ∉ id)
    (hkey : item.itemKey = arxivKey id) : item.arxivId = some id := by
  rw [Keyed] at h
  split at h
  · rename_i other hother
    rw [hkey] at h
    rw [hother, List.append_cancel_left h.1]
  · rw [hkey, arxivKey, List.count_append, List.count_eq_zero.2 hcolon] at h
    exact absurd h (by decide)

/-! ## Merging -/

/-- What the text says that an item cites. -/
structure Sound (unicode : Unicode) (ip : IpCheck) (item : Item) (cited : Text) : Prop where
  title : occurs unicode item.title cited
  quote : occurs unicode item.quote cited
  arxivId : ∀ id, item.arxivId = some id → id ∈ arxivIdsIn cited
  url : ∀ url, item.url = some url → url ∈ urlsIn ip cited

private theorem mem_of_modelUrl {item : ModelItem} {cited url : Text}
    (h : modelUrl ip item cited = some url) : url ∈ urlsIn ip cited := by
  have hquoted : ∀ {option : Option Text},
      (if (urlsIn ip item.quote).length = 1 then option.filter (· ∈ urlsIn ip cited) else none) =
        some url → url ∈ urlsIn ip cited := by
    intro option hsome
    split_ifs at hsome
    exact of_decide_eq_true (Option.filter_eq_some_iff.1 hsome).2
  unfold modelUrl at h
  dsimp only at h
  split at h
  · split_ifs at h with hproposed hlength
    · rwa [← Option.some.inj h]
    · exact hquoted (by rwa [if_pos hlength])
  · exact hquoted h

/-- An item of the model that passes the filter is sound where it cites. -/
theorem sound_modelItem (ip : IpCheck) {item : ModelItem}
    (h : isVerbatim unicode caption transcriptions item = true) :
    ∃ cited, rawText caption transcriptions item.image = some cited ∧
      Sound unicode ip (modelItem unicode ip item (rawText caption transcriptions)) cited := by
  rw [isVerbatim] at h
  split at h
  · rename_i cited hcited
    rw [decide_eq_true_eq] at h
    refine ⟨cited, hcited, h.2.2.2, h.2.2.1, fun id hid => ?_, fun url hurl => ?_⟩
    · simp only [modelItem, hcited, Option.getD_some] at hid
      split_ifs at hid
      exact of_decide_eq_true (Option.filter_eq_some_iff.1 hid).2
    · simp only [modelItem, hcited, Option.getD_some] at hurl
      split_ifs at hurl
      exact mem_of_modelUrl hurl
  · cases h

/-- The items of the model that are merged so far. -/
structure Merged (unicode : Unicode) (ip : IpCheck) (caption : Text)
    (transcriptions : List (ℤ × Text)) (merge : Merge) : Prop where
  rest : ∀ rule ∈ merge.byArxiv, Ruled caption transcriptions rule
  keyed : ∀ item ∈ merge.merged, Keyed item
  sound : ∀ item ∈ merge.merged, item.origin ≠ .rule ∧
    ∃ cited, Cites caption transcriptions item.image cited ∧ Sound unicode ip item cited
  covers : ∀ rule ∈ ruleItems caption transcriptions,
    rule ∈ merge.byArxiv ∨ ∃ item ∈ merge.merged, item.arxivId = rule.arxivId

/-- A moved item is a paper whose identifier is written where it is moved to. -/
theorem sound_moved {candidate rule : Item} {cited : Text} {id : Text}
    (hdistinct : (transcriptions.map Prod.fst).Nodup)
    (hcited : rawText caption transcriptions candidate.image = some cited)
    (hsound : Sound unicode ip candidate cited) (hurl : candidate.url = none)
    (hid : candidate.arxivId = some id) (hrule : Ruled caption transcriptions rule)
    (hruleId : rule.arxivId = some id) (origin : Origin) :
    ∃ shown, Cites caption transcriptions
        (mergedImage unicode (rawText caption transcriptions) candidate rule) shown ∧
      Sound unicode ip { candidate with
        origin := origin
        image := mergedImage unicode (rawText caption transcriptions) candidate rule } shown := by
  rw [mergedImage]
  split_ifs with hmoved
  · obtain ⟨text, found, other, hcites, hfound, hother, hitem⟩ := hrule.written
    have hraw := (rawText_eq_some hdistinct).2 hcites
    rw [hraw, Option.getD_some] at hmoved
    refine ⟨text, hcites, hmoved.2.2.1, hmoved.2.2.2, fun id' hid' => ?_, fun url hsome => ?_⟩
    · obtain rfl : id = id' := Option.some.inj (hid.symm.trans hid')
      have hsame : rule.arxivId = some other := by rw [hitem]; rfl
      rw [hruleId] at hsame
      exact mem_arxivIdsIn.2 ⟨found, hfound, by rw [hother, hsame]⟩
    · exact absurd (hurl.symm.trans hsome) (by simp)
  · exact ⟨cited, (rawText_eq_some hdistinct).1 hcited, hsound.title, hsound.quote,
      hsound.arxivId, hsound.url⟩

theorem Merged.mergeItem {merge : Merge} {item : ModelItem}
    (hdistinct : (transcriptions.map Prod.fst).Nodup)
    (h : Merged unicode ip caption transcriptions merge)
    (hverbatim : isVerbatim unicode caption transcriptions item = true) :
    Merged unicode ip caption transcriptions
      (mergeItem unicode ip (rawText caption transcriptions) merge item) := by
  obtain ⟨cited, hcited, hsound⟩ := sound_modelItem ip hverbatim
  have hkeyed : Keyed (modelItem unicode ip item (rawText caption transcriptions)) :=
    keyed_modelItem item (rawText caption transcriptions)
  unfold Xhs.mergeItem
  dsimp only
  split
  · rename_i rule hrule
    obtain ⟨id, hid, hfind⟩ := Option.bind_eq_some_iff.1 hrule
    have hmem := List.mem_of_find?_eq_some hfind
    have hruleId : rule.arxivId = some id := by simpa using List.find?_some hfind
    -- only a paper has an identifier, so it has no URL
    have hurl : (modelItem unicode ip item (rawText caption transcriptions)).url = none := by
      simp only [modelItem] at hid ⊢
      split_ifs at hid with hpaper
      exact if_neg (not_not.2 hpaper)
    obtain ⟨shown, hshown, hmoved⟩ := sound_moved hdistinct hcited hsound hurl hid
      (h.rest rule hmem) hruleId .ruleAndModel
    refine ⟨fun rule' hrule' => h.rest rule' (List.mem_of_mem_filter hrule'), ?_, ?_, ?_⟩
    · intro other hother
      rcases List.mem_append.1 hother with hother | hother
      · exact h.keyed other hother
      · obtain rfl := List.mem_singleton.1 hother
        exact hkeyed
    · intro other hother
      rcases List.mem_append.1 hother with hother | hother
      · exact h.sound other hother
      · obtain rfl := List.mem_singleton.1 hother
        exact ⟨by simp, shown, hshown, hmoved⟩
    · intro rule' hrule'
      rcases h.covers rule' hrule' with hrest | ⟨other, hother, hsame⟩
      · by_cases hpopped : rule'.arxivId = rule.arxivId
        · refine .inr ⟨_, List.mem_append_right _ (List.mem_singleton_self _), ?_⟩
          rw [hpopped, hruleId]
          exact hid
        · exact .inl (List.mem_filter.2 ⟨hrest, decide_eq_true hpopped⟩)
      · exact .inr ⟨other, List.mem_append_left _ hother, hsame⟩
  · split_ifs with hseen
    · exact h
    · refine ⟨h.rest, ?_, ?_, ?_⟩
      · intro other hother
        rcases List.mem_append.1 hother with hother | hother
        · exact h.keyed other hother
        · obtain rfl := List.mem_singleton.1 hother
          exact hkeyed
      · intro other hother
        rcases List.mem_append.1 hother with hother | hother
        · exact h.sound other hother
        · obtain rfl := List.mem_singleton.1 hother
          refine ⟨by simp [modelItem], cited, (rawText_eq_some hdistinct).1 hcited, hsound⟩
      · intro rule hrule
        rcases h.covers rule hrule with hrest | ⟨other, hother, hsame⟩
        · exact .inl hrest
        · exact .inr ⟨other, List.mem_append_left _ hother, hsame⟩

/-- What the whole merge preserves. -/
theorem merged_foldl {merge : Merge} {kept : List ModelItem}
    (hdistinct : (transcriptions.map Prod.fst).Nodup)
    (h : Merged unicode ip caption transcriptions merge)
    (hkept : ∀ item ∈ kept, isVerbatim unicode caption transcriptions item = true) :
    Merged unicode ip caption transcriptions
      (kept.foldl (mergeItem unicode ip (rawText caption transcriptions)) merge) := by
  induction kept generalizing merge with
  | nil => exact h
  | cons item kept ih =>
      exact ih (h.mergeItem hdistinct (hkept item (.head _))) fun other hother =>
        hkept other (.tail _ hother)

/-- The items of a note, before the last step of the merge. -/
structure Collected (unicode : Unicode) (ip : IpCheck) (caption : Text)
    (transcriptions : List (ℤ × Text)) (items : List Item) : Prop where
  keyed : ∀ item ∈ items, Keyed item
  sound : ∀ item ∈ items, item.origin ≠ .rule →
    ∃ cited, Cites caption transcriptions item.image cited ∧ Sound unicode ip item cited
  written : ∀ item ∈ items, ∀ id, item.arxivId = some id → Written caption transcriptions id
  covers : ∀ id, Written caption transcriptions id → ∃ item ∈ items, item.arxivId = some id

theorem identify_eq_some {modelItems : List ModelItem} {outcome : IdentifyOutcome}
    (h : identify unicode ip caption transcriptions modelItems = some outcome) :
    ∃ items, Collected unicode ip caption transcriptions items ∧
      outcome.items = firsts Item.itemKey items := by
  obtain ⟨sorted, hsorted, rfl⟩ := Option.map_eq_some_iff.1 h
  obtain ⟨hdistinct, hcites⟩ := sortedTranscriptions_spec caption hsorted
  have hinit : Merged unicode ip caption sorted ⟨ruleItems caption sorted, [], []⟩ :=
    ⟨fun rule hrule => ruled_of_mem hrule, fun item hitem => absurd hitem List.not_mem_nil,
      fun item hitem => absurd hitem List.not_mem_nil, fun rule hrule => .inl hrule⟩
  have hkept : ∀ item ∈ (verbatimFilter unicode modelItems caption sorted).1,
      isVerbatim unicode caption sorted item = true :=
    fun item hitem => (List.mem_filter.1 hitem).2
  have hmerged := merged_foldl hdistinct hinit hkept
  have hwritten : ∀ id, Written caption sorted id ↔ Written caption transcriptions id :=
    fun id => exists_congr fun image => exists_congr fun text => by rw [hcites]
  refine ⟨_, ⟨?_, ?_, ?_, ?_⟩, rfl⟩
  · intro item hitem
    rcases List.mem_append.1 hitem with hitem | hitem
    · exact hmerged.keyed item hitem
    · exact (hmerged.rest item hitem).keyed
  · intro item hitem horigin
    rcases List.mem_append.1 hitem with hitem | hitem
    · obtain ⟨-, cited, hcited, hsound⟩ := hmerged.sound item hitem
      exact ⟨cited, (hcites _ _).1 hcited, hsound⟩
    · obtain ⟨text, found, id, -, -, -, heq⟩ := (hmerged.rest item hitem).written
      rw [heq] at horigin
      exact absurd rfl horigin
  · intro item hitem id hid
    rw [← hwritten]
    rcases List.mem_append.1 hitem with hitem | hitem
    · obtain ⟨-, cited, hcited, hsound⟩ := hmerged.sound item hitem
      exact ⟨item.image, cited, hcited, hsound.arxivId id hid⟩
    · obtain ⟨text, found, other, hcited, hfound, hother, heq⟩ :=
        (hmerged.rest item hitem).written
      rw [heq] at hid
      obtain rfl : other = id := Option.some.inj hid
      exact ⟨item.image, text, hcited, mem_arxivIdsIn.2 ⟨found, hfound, hother⟩⟩
  · intro id hid
    obtain ⟨rule, hrule, hruleId⟩ := exists_rule ((hwritten id).2 hid)
    rcases hmerged.covers rule hrule with hrest | ⟨item, hitem, hsame⟩
    · exact ⟨rule, List.mem_append_right _ hrest, hruleId⟩
    · exact ⟨item, List.mem_append_left _ hitem, hsame.trans hruleId⟩

/-! ## The items of a note -/

/-- `identify` answers for every note whose images are numbered one by one. -/
theorem identify_isSome_iff {modelItems : List ModelItem} :
    (identify unicode ip caption transcriptions modelItems).isSome ↔
      (transcriptions.map Prod.fst).Nodup ∧ ∀ image ∈ transcriptions.map Prod.fst, 1 ≤ image := by
  rw [identify, Option.isSome_map, sortedTranscriptions]
  split_ifs with hvalid
  · exact iff_of_true rfl hvalid
  · exact iff_of_false Bool.false_ne_true hvalid

/-- One identifier, one item. -/
private theorem nodup_arxivIds {items : List Item} (hkeys : (items.map Item.itemKey).Nodup)
    (hkeyed : ∀ item ∈ items, Keyed item) : (items.filterMap Item.arxivId).Nodup := by
  rw [List.Nodup, List.pairwise_map] at hkeys
  rw [List.Nodup, List.pairwise_filterMap]
  refine hkeys.imp_of_mem fun {item other} hitem hother hne => ?_
  intro id hid id' hid' heq
  subst heq
  refine hne ?_
  have hkey := hkeyed item hitem
  have hkey' := hkeyed other hother
  rw [Keyed, hid] at hkey
  rw [Keyed, hid'] at hkey'
  exact hkey.1.trans hkey'.1.symm

/-- Every identifier that is written in a note is that of exactly one item, no item has
another one, and no two items have one key. -/
theorem identify_papers (unicode : Unicode) (ip : IpCheck) (caption : Text)
    (transcriptions : List (ℤ × Text)) (modelItems : List ModelItem) (outcome : IdentifyOutcome)
    (h : identify unicode ip caption transcriptions modelItems = some outcome) :
    (outcome.items.filterMap Item.arxivId).Nodup ∧
      (∀ id, id ∈ outcome.items.filterMap Item.arxivId ↔ Written caption transcriptions id) ∧
      (outcome.items.map Item.itemKey).Nodup := by
  obtain ⟨items, hitems, houtcome⟩ := identify_eq_some h
  rw [houtcome]
  have hkeys := nodup_firsts Item.itemKey items
  have hkeyed : ∀ item ∈ firsts Item.itemKey items, Keyed item :=
    fun item hitem => hitems.keyed item (mem_of_mem_firsts hitem)
  refine ⟨nodup_arxivIds hkeys hkeyed, fun id => ?_, hkeys⟩
  rw [List.mem_filterMap]
  constructor
  · rintro ⟨item, hitem, hid⟩
    exact hitems.written item (mem_of_mem_firsts hitem) id hid
  · intro hwritten
    obtain ⟨item, hitem, hid⟩ := hitems.covers id hwritten
    have hkey := hitems.keyed item hitem
    rw [Keyed, hid] at hkey
    -- the first item with this key is of this identifier too
    have hfirst : arxivKey id ∈ (firsts Item.itemKey items).map Item.itemKey := by
      rw [keys_firsts, ← hkey.1]
      exact List.mem_map_of_mem hitem
    obtain ⟨first, hfirst, hfirstKey⟩ := List.mem_map.1 hfirst
    exact ⟨first, hfirst, (hkeyed first hfirst).arxivId_eq hkey.2 hfirstKey⟩

/-- What an item of the model says is written in the place that it cites. -/
theorem identify_verbatim (unicode : Unicode) (ip : IpCheck) (caption : Text)
    (transcriptions : List (ℤ × Text)) (modelItems : List ModelItem) (outcome : IdentifyOutcome)
    (h : identify unicode ip caption transcriptions modelItems = some outcome) :
    ∀ item ∈ outcome.items, item.origin = .model ∨ item.origin = .ruleAndModel →
      ∃ cited, Cites caption transcriptions item.image cited ∧
        normalizeMatchText unicode item.title <:+: normalizeMatchText unicode cited ∧
        normalizeMatchText unicode item.quote <:+: normalizeMatchText unicode cited ∧
        (∀ id, item.arxivId = some id → id ∈ arxivIdsIn cited) ∧
        ∀ url, item.url = some url →
          ∃ found ∈ urlScan 0 cited, normalizeUrl ip (rstripTrailing found) = some url := by
  obtain ⟨items, hitems, houtcome⟩ := identify_eq_some h
  intro item hitem horigin
  rw [houtcome] at hitem
  have hmodel : item.origin ≠ .rule := by
    rintro hrule
    rw [hrule] at horigin
    exact absurd horigin (by decide)
  obtain ⟨cited, hcited, hsound⟩ := hitems.sound item (mem_of_mem_firsts hitem) hmodel
  exact ⟨cited, hcited, hsound.title, hsound.quote, hsound.arxivId,
    fun url hurl => mem_urlsIn.1 (hsound.url url hurl)⟩

/-! ## A note -/

def noteTranscriptions : List (ℤ × Text) := [(2, "Scaling Laws (arXiv:2301.00001v2)".toList)]

def noteItems : List ModelItem :=
  [⟨paper, "scaling laws".toList, none, "Laws 2301.00001".toList, some "2301.00001".toList, none⟩,
    ⟨paper, "Another".toList, none, "Another".toList, some "2301.00002".toList, none⟩]

/-- The item of the model is joined with the rule's, and keeps its place: the image has
its title, not its quote. -/
def noteItem : Item :=
  ⟨arxivKey "2301.00001".toList, paper, "scaling laws".toList, none, "Laws 2301.00001".toList,
    some "2301.00001".toList, none, .none, .ruleAndModel⟩

def noteOutcome : IdentifyOutcome where
  items := [noteItem]
  dropped := 1
  ruleItems := 1
  modelItems := 2

theorem identify_papers_note :
    (noteOutcome.items.filterMap Item.arxivId).Nodup ∧
      (∀ id, id ∈ noteOutcome.items.filterMap Item.arxivId ↔
        Written "On Scaling Laws 2301.00001".toList noteTranscriptions id) ∧
      (noteOutcome.items.map Item.itemKey).Nodup :=
  identify_papers asciiUnicode noAddress "On Scaling Laws 2301.00001".toList noteTranscriptions
    noteItems noteOutcome (by decide +kernel)

theorem identify_verbatim_note :
    ∃ cited, Cites "On Scaling Laws 2301.00001".toList noteTranscriptions noteItem.image cited ∧
      normalizeMatchText asciiUnicode noteItem.title <:+: normalizeMatchText asciiUnicode cited ∧
      normalizeMatchText asciiUnicode noteItem.quote <:+: normalizeMatchText asciiUnicode cited ∧
      (∀ id, noteItem.arxivId = some id → id ∈ arxivIdsIn cited) ∧
      ∀ url, noteItem.url = some url →
        ∃ found ∈ urlScan 0 cited, normalizeUrl noAddress (rstripTrailing found) = some url :=
  identify_verbatim asciiUnicode noAddress "On Scaling Laws 2301.00001".toList noteTranscriptions
    noteItems noteOutcome (by decide +kernel) noteItem (List.mem_singleton_self _) (.inr rfl)

end Cortex.Xhs
