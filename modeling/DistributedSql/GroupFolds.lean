/-
Groups that are folded, and groups of groups.

A library of its own, about the groups of `Grouping` where keys that are the same have the
same rank.  A dict of states is the groups of the items, each folded into its state, and items
that are grouped in parts have the groups of all items once the groups of the parts are
grouped again.

Main results:
* `foldGroups_eq_ok_iff` — a dict of states holds the folded groups;
* `groups_flatMap_groups` — grouping the groups of the parts;
* `foldlM_mapM_eq_ok_iff` — states that are folded together;
* `total_append` — what two lists together add up to.
-/
import DistributedSql.ExceptState
import DistributedSql.Grouping

namespace Grouping

/-! ### The members of a group -/

section Members

variable {κ α ι : Type*} {same : κ → κ → Bool} {K : κ → Prop} {rank : κ → ι}

/-- What the items of a key hold. -/
def members (same : κ → κ → Bool) (key : κ) (items : List (κ × α)) : List α :=
  (items.filter fun item => same key item.1).map Prod.snd

theorem members_append (key : κ) (items more : List (κ × α)) :
    members same key (items ++ more) = members same key items ++ members same key more := by
  rw [members, List.filter_append, List.map_append]
  rfl

theorem members_flatten (key : κ) (parts : List (List (κ × α))) :
    members same key parts.flatten = (parts.map (members same key)).flatten := by
  induction parts with
  | nil => rfl
  | cons part parts ih =>
    rw [List.flatten_cons, members_append, ih, List.map_cons, List.flatten_cons]

/-- Items of one key are one group. -/
private theorem groups_of_same {item : κ × α} {rest : List (κ × α)}
    (h : ∀ other ∈ rest, same item.1 other.1 = true) :
    groups same (item :: rest) = [(item.1, (item :: rest).map Prod.snd)] := by
  rw [groups, List.foldl_cons, push, foldl_push_of_same _ h]
  rfl

/-- The groups with a key. -/
theorem groups_filter_same
    (hsame : ∀ a b, K a → K b → (same a b = true ↔ rank a = rank b))
    {items : List (κ × α)} (hitems : ∀ item ∈ items, K item.1) {key : κ} (hkey : K key) :
    (groups same items).filter (fun group => same key group.1)
      = groups same (items.filter fun item => same key item.1) := by
  refine (groups_filter (fun a b ha hb hab => ?_) hitems).symm
  rw [Bool.eq_iff_iff, hsame key a hkey ha, hsame key b hkey hb, (hsame a b ha hb).mp hab]

/-- A group holds the members of its key. -/
theorem eq_members_of_mem_groups
    (hsame : ∀ a b, K a → K b → (same a b = true ↔ rank a = rank b))
    {items : List (κ × α)} (hitems : ∀ item ∈ items, K item.1) {group : κ × List α}
    (hgroup : group ∈ groups same items) : group.2 = members same group.1 items := by
  have hkey := keys_of_mem_groups hitems group hgroup
  have hmem : group ∈ (groups same items).filter fun other => same group.1 other.1 :=
    List.mem_filter.mpr ⟨hgroup, (hsame _ _ hkey hkey).mpr rfl⟩
  rw [groups_filter_same hsame hitems hkey] at hmem
  rw [members]
  generalize hchosen : (items.filter fun item => same group.1 item.1) = chosen at hmem
  have hall : ∀ item ∈ chosen, K item.1 ∧ rank group.1 = rank item.1 := by
    intro item hitem
    rw [← hchosen] at hitem
    obtain ⟨hmem, h⟩ := List.mem_filter.mp hitem
    exact ⟨hitems item hmem, (hsame _ _ hkey (hitems item hmem)).mp h⟩
  cases chosen with
  | nil => cases hmem
  | cons item rest =>
    -- all chosen items are of one key
    obtain ⟨⟨hitem, hrank⟩, hrest⟩ := List.forall_mem_cons.mp hall
    rw [groups_of_same fun other hother => (hsame _ _ hitem (hrest other hother).1).mpr
      (hrank.symm.trans (hrest other hother).2)] at hmem
    rw [List.mem_singleton.mp hmem]

/-- The groups are the members of the keys that open one. -/
theorem groups_eq_map
    (hsame : ∀ a b, K a → K b → (same a b = true ↔ rank a = rank b))
    {items : List (κ × α)} (hitems : ∀ item ∈ items, K item.1) :
    groups same items = (newKeys same [] items).map fun key => (key, members same key items) := by
  rw [← keys_groups, List.map_map]
  refine (List.map_id _).symm.trans (List.map_congr_left fun group hgroup => ?_)
  exact Prod.ext rfl (eq_members_of_mem_groups hsame hitems hgroup)

end Members

/-! ### Groups of groups -/

section Parts

variable {κ α β ι : Type*} {same : κ → κ → Bool} {K : κ → Prop} {rank : κ → ι}

/-- Only the keys tell which of them open a group. -/
theorem newKeys_congr {items : List (κ × α)} {items' : List (κ × β)}
    (h : items.map Prod.fst = items'.map Prod.fst) (opened : List κ) :
    newKeys same opened items = newKeys same opened items' := by
  induction items generalizing items' opened with
  | nil =>
    cases items' with
    | nil => rfl
    | cons item' rest' => cases h
  | cons item rest ih =>
    cases items' with
    | nil => cases h
    | cons item' rest' =>
      obtain ⟨hkey, hrest⟩ := List.cons.inj h
      rw [newKeys, newKeys, hkey, ih hrest, ih hrest]

theorem newKeys_append (opened : List κ) (items more : List (κ × α)) :
    newKeys same opened (items ++ more)
      = newKeys same opened items ++ newKeys same (opened ++ newKeys same opened items) more := by
  induction items generalizing opened with
  | nil =>
    rw [newKeys, List.append_nil]
    rfl
  | cons item rest ih =>
    rw [List.cons_append, newKeys, newKeys]
    split
    · exact ih opened
    · rw [ih, List.cons_append, List.append_assoc]
      rfl

theorem mem_of_mem_newKeys {opened : List κ} {items : List (κ × α)} {key : κ}
    (h : key ∈ newKeys same opened items) : ∃ item ∈ items, item.1 = key := by
  induction items generalizing opened with
  | nil => cases h
  | cons item rest ih =>
    rw [newKeys] at h
    split at h
    · obtain ⟨other, hother, hkey⟩ := ih h
      exact ⟨other, List.mem_cons_of_mem _ hother, hkey⟩
    · rcases List.mem_cons.mp h with rfl | h
      · exact ⟨item, List.mem_cons_self, rfl⟩
      · obtain ⟨other, hother, hkey⟩ := ih h
        exact ⟨other, List.mem_cons_of_mem _ hother, hkey⟩

/-- Keys that have opened a group before do not open one, here or after the others. -/
private theorem newKeys_newKeys
    (hsame : ∀ a b, K a → K b → (same a b = true ↔ rank a = rank b)) {items : List (κ × α)}
    (hitems : ∀ item ∈ items, K item.1) {before opened : List κ} (hbefore : ∀ key ∈ before, K key)
    (hopened : ∀ key ∈ opened, K key)
    (hcovered : ∀ key ∈ before, (opened.any fun other => same other key) = true) :
    newKeys same opened ((newKeys same before items).map fun key => (key, ()))
      = newKeys same opened items := by
  induction items generalizing before opened with
  | nil => rfl
  | cons item rest ih =>
    obtain ⟨hitem, hrest⟩ := List.forall_mem_cons.mp hitems
    have hsingle : ∀ {l : List κ}, (∀ key ∈ l, K key) → ∀ key ∈ l ++ [item.1], K key := by
      intro l hl key hkey
      rcases List.mem_append.mp hkey with hkey | hkey
      · exact hl key hkey
      · exact (List.mem_singleton.mp hkey) ▸ hitem
    by_cases hmet : (before.any fun key => same key item.1) = true
    · -- the key is met before, and so covered
      obtain ⟨key, hkey, hkeyItem⟩ := List.any_eq_true.mp hmet
      obtain ⟨other, hother, hotherKey⟩ := List.any_eq_true.mp (hcovered key hkey)
      have hcover : (opened.any fun key => same key item.1) = true := by
        refine List.any_eq_true.mpr ⟨other, hother, ?_⟩
        rw [hsame _ _ (hopened other hother) hitem]
        exact ((hsame _ _ (hopened other hother) (hbefore key hkey)).mp hotherKey).trans
          ((hsame _ _ (hbefore key hkey) hitem).mp hkeyItem)
      rw [newKeys, if_pos hmet, newKeys, if_pos hcover]
      exact ih hrest hbefore hopened hcovered
    · rw [newKeys, if_neg hmet, List.map_cons, newKeys, newKeys]
      by_cases hcover : (opened.any fun key => same key item.1) = true
      · rw [if_pos hcover, if_pos hcover]
        refine ih hrest (hsingle hbefore) hopened fun key hkey => ?_
        rcases List.mem_append.mp hkey with hkey | hkey
        · exact hcovered key hkey
        · exact (List.mem_singleton.mp hkey) ▸ hcover
      · rw [if_neg hcover, if_neg hcover]
        refine congrArg (item.1 :: ·)
          (ih hrest (hsingle hbefore) (hsingle hopened) fun key hkey => ?_)
        rw [List.any_append, Bool.or_eq_true]
        rcases List.mem_append.mp hkey with hkey | hkey
        · exact Or.inl (hcovered key hkey)
        · refine Or.inr (List.any_eq_true.mpr ⟨item.1, List.mem_singleton_self _, ?_⟩)
          rw [List.mem_singleton.mp hkey]
          exact (hsame _ _ hitem hitem).mpr rfl

variable (hsame : ∀ a b, K a → K b → (same a b = true ↔ rank a = rank b))

include hsame

/-- The groups of the parts open the groups that all items open. -/
theorem newKeys_flatMap_groups {parts : List (List (κ × α))}
    (hparts : ∀ part ∈ parts, ∀ item ∈ part, K item.1) {opened : List κ}
    (hopened : ∀ key ∈ opened, K key) :
    newKeys same opened (parts.flatMap (groups same)) = newKeys same opened parts.flatten := by
  induction parts generalizing opened with
  | nil => rfl
  | cons part parts ih =>
    obtain ⟨hpart, hparts⟩ := List.forall_mem_cons.mp hparts
    have hfirst : newKeys same opened (groups same part) = newKeys same opened part := by
      refine (newKeys_congr ?_ opened).trans (newKeys_newKeys hsame hpart
        (fun _ h => absurd h List.not_mem_nil) hopened fun _ h => absurd h List.not_mem_nil)
      rw [keys_groups, List.map_map]
      exact (List.map_id _).symm
    rw [List.flatMap_cons, List.flatten_cons, newKeys_append, newKeys_append, hfirst,
      ih hparts fun key hkey => ?_]
    rcases List.mem_append.mp hkey with hkey | hkey
    · exact hopened key hkey
    · obtain ⟨item, hitem, rfl⟩ := mem_of_mem_newKeys hkey
      exact hpart item hitem

/-- A part has one group of a key, or none. -/
theorem members_groups {items : List (κ × α)} (hitems : ∀ item ∈ items, K item.1) {key : κ}
    (hkey : K key) : members same key (groups same items)
      = [members same key items].filter fun xs => !xs.isEmpty := by
  rw [members, groups_filter_same hsame hitems hkey, members]
  generalize hchosen : (items.filter fun item => same key item.1) = chosen
  cases chosen with
  | nil => rfl
  | cons item rest =>
    have hall : ∀ other ∈ item :: rest, K other.1 ∧ rank key = rank other.1 := by
      intro other hother
      rw [← hchosen] at hother
      obtain ⟨hmem, h⟩ := List.mem_filter.mp hother
      exact ⟨hitems other hmem, (hsame _ _ hkey (hitems other hmem)).mp h⟩
    obtain ⟨⟨hitem, hrank⟩, hrest⟩ := List.forall_mem_cons.mp hall
    rw [groups_of_same fun other hother => (hsame _ _ hitem (hrest other hother).1).mpr
      (hrank.symm.trans (hrest other hother).2)]
    rfl

/-- Grouping the groups of the parts gives the groups of all items, as what each part holds of
them. -/
theorem groups_flatMap_groups {parts : List (List (κ × α))}
    (hparts : ∀ part ∈ parts, ∀ item ∈ part, K item.1) :
    groups same (parts.flatMap (groups same)) = (groups same parts.flatten).map fun group =>
      (group.1, (parts.map (members same group.1)).filter fun xs => !xs.isEmpty) := by
  have hitems : ∀ item ∈ parts.flatten, K item.1 := by
    intro item hitem
    obtain ⟨part, hpart, hitem⟩ := List.mem_flatten.mp hitem
    exact hparts part hpart item hitem
  have hgroups : ∀ item ∈ parts.flatMap (groups same), K item.1 := by
    intro item hitem
    obtain ⟨part, hpart, hitem⟩ := List.mem_flatMap.mp hitem
    exact keys_of_mem_groups (hparts part hpart) item hitem
  rw [groups_eq_map hsame hgroups, groups_eq_map hsame hitems, List.map_map,
    newKeys_flatMap_groups hsame hparts fun _ h => absurd h List.not_mem_nil]
  refine List.map_congr_left fun key hkey => Prod.ext rfl ?_
  obtain ⟨item, hitem, rfl⟩ := mem_of_mem_newKeys hkey
  -- what each part holds of this key
  have hmembers : ∀ parts : List (List (κ × α)), (∀ part ∈ parts, ∀ item ∈ part, K item.1) →
      members same item.1 (parts.flatMap (groups same))
        = (parts.map (members same item.1)).filter fun xs => !xs.isEmpty := by
    intro parts hparts
    induction parts with
    | nil => rfl
    | cons part parts ih =>
      obtain ⟨hpart, hparts⟩ := List.forall_mem_cons.mp hparts
      rw [List.flatMap_cons, members_append, ih hparts,
        members_groups hsame hpart (hitems item hitem), ← List.filter_append, List.map_cons]
      rfl
  exact hmembers parts hparts

end Parts

/-! ### A dict of states -/

section Folds

variable {κ α ε σ : Type u} {same : κ → κ → Bool} {step : σ → α → Except ε σ} {new : σ}

/-- A step of the state `groups.setdefault(key, new)`. -/
def update (same : κ → κ → Bool) (step : σ → α → Except ε σ) (new : σ) (item : κ × α) :
    List (κ × σ) → Except ε (List (κ × σ))
  | [] => do return [(item.1, ← step new item.2)]
  | group :: rest => do
      if same group.1 item.1 then return (group.1, ← step group.2 item.2) :: rest
      else return group :: (← update same step new item rest)

/-- The dict after all items. -/
def foldGroups (same : κ → κ → Bool) (step : σ → α → Except ε σ) (new : σ)
    (items : List (κ × α)) (groups : List (κ × σ)) : Except ε (List (κ × σ)) :=
  items.foldlM (fun groups item => update same step new item groups) groups

/-- A group as its state. -/
def foldGroup (step : σ → α → Except ε σ) (new : σ) (group : κ × List α) : Except ε (κ × σ) := do
  return (group.1, ← group.2.foldlM step new)

theorem foldGroup_eq_ok_iff {group : κ × List α} {result : κ × σ} :
    foldGroup step new group = .ok result ↔
      result.1 = group.1 ∧ group.2.foldlM step new = .ok result.2 := by
  rw [foldGroup, ExceptState.bind_eq_ok_iff]
  constructor
  · rintro ⟨state, hstate, h⟩
    cases h
    exact ⟨rfl, hstate⟩
  · rintro ⟨hkey, hstate⟩
    exact ⟨result.2, hstate, congrArg Except.ok (Prod.ext hkey.symm rfl)⟩

private theorem foldlM_concat_iff {xs : List α} {x : α} {state : σ} :
    (xs ++ [x]).foldlM step new = .ok state ↔
      ∃ before, xs.foldlM step new = .ok before ∧ step before x = .ok state := by
  rw [List.foldlM_append, ExceptState.bind_eq_ok_iff]
  refine exists_congr fun before => and_congr_right fun _ => ?_
  rw [List.foldlM_cons, ExceptState.bind_eq_ok_iff]
  constructor
  · rintro ⟨after, hafter, h⟩
    cases h
    exact hafter
  · exact fun h => ⟨state, h, rfl⟩

private theorem foldlM_singleton {x : α} : [x].foldlM step new = step new x := by
  rw [List.foldlM_cons]
  exact bind_pure _

/-- One more item. -/
private theorem update_eq_ok_iff (item : κ × α) {groups : List (κ × List α)}
    {result : List (κ × σ)} :
    (push same item groups).mapM (foldGroup step new) = .ok result ↔
      ∃ before, groups.mapM (foldGroup step new) = .ok before ∧
        update same step new item before = .ok result := by
  induction groups generalizing result with
  | nil =>
    rw [push, ExceptState.mapM_cons_eq_ok_iff]
    constructor
    · rintro ⟨group, rest, hgroup, hrest, rfl⟩
      cases hrest
      obtain ⟨hkey, hstate⟩ := foldGroup_eq_ok_iff.mp hgroup
      rw [foldlM_singleton] at hstate
      refine ⟨[], rfl, ?_⟩
      rw [update, hstate, ← hkey]
      rfl
    · rintro ⟨before, hbefore, h⟩
      cases hbefore
      obtain ⟨state, hstate, h⟩ := ExceptState.bind_eq_ok h
      cases h
      exact ⟨_, [], foldGroup_eq_ok_iff.mpr ⟨rfl, foldlM_singleton.trans hstate⟩, rfl, rfl⟩
  | cons group rest ih =>
    rw [push]
    by_cases hsame : same group.1 item.1 = true
    · rw [if_pos hsame, ExceptState.mapM_cons_eq_ok_iff]
      constructor
      · rintro ⟨head, tail, hhead, htail, rfl⟩
        obtain ⟨hkey, hstate⟩ := foldGroup_eq_ok_iff.mp hhead
        obtain ⟨before, hbefore, hstep⟩ := foldlM_concat_iff.mp hstate
        refine ⟨(group.1, before) :: tail, ExceptState.mapM_cons_eq_ok_iff.mpr
          ⟨_, tail, foldGroup_eq_ok_iff.mpr ⟨rfl, hbefore⟩, htail, rfl⟩, ?_⟩
        rw [update, if_pos hsame, hstep]
        exact congrArg Except.ok (congrArg (· :: tail) (Prod.ext hkey.symm rfl))
      · rintro ⟨before, hbefore, h⟩
        obtain ⟨head, tail, hhead, htail, rfl⟩ := ExceptState.mapM_cons_eq_ok_iff.mp hbefore
        obtain ⟨hkey, hstate⟩ := foldGroup_eq_ok_iff.mp hhead
        rw [update, if_pos (hkey.symm ▸ hsame)] at h
        obtain ⟨state, hstep, h⟩ := ExceptState.bind_eq_ok h
        cases h
        exact ⟨(head.1, state), tail,
          foldGroup_eq_ok_iff.mpr ⟨hkey, foldlM_concat_iff.mpr ⟨head.2, hstate, hstep⟩⟩, htail, rfl⟩
    · rw [if_neg hsame, ExceptState.mapM_cons_eq_ok_iff]
      constructor
      · rintro ⟨head, tail, hhead, htail, rfl⟩
        obtain ⟨before, hbefore, hupdate⟩ := ih.mp htail
        have hkey := (foldGroup_eq_ok_iff.mp hhead).1
        refine ⟨head :: before, ExceptState.mapM_cons_eq_ok_iff.mpr
          ⟨head, before, hhead, hbefore, rfl⟩, ?_⟩
        rw [update, if_neg (hkey.symm ▸ hsame), hupdate]
        rfl
      · rintro ⟨before, hbefore, h⟩
        obtain ⟨head, tail, hhead, htail, rfl⟩ := ExceptState.mapM_cons_eq_ok_iff.mp hbefore
        have hkey := (foldGroup_eq_ok_iff.mp hhead).1
        rw [update, if_neg (hkey.symm ▸ hsame)] at h
        obtain ⟨more, hupdate, h⟩ := ExceptState.bind_eq_ok h
        cases h
        exact ⟨head, more, hhead, ih.mpr ⟨tail, htail, hupdate⟩, rfl⟩

/-- A dict of states holds the groups of the items, each folded into its state. -/
theorem foldGroups_eq_ok_iff {items : List (κ × α)} {result : List (κ × σ)} :
    foldGroups same step new items [] = .ok result ↔
      (groups same items).mapM (foldGroup step new) = .ok result := by
  induction items using List.reverseRecOn generalizing result with
  | nil => exact Iff.rfl
  | append_singleton items item ih =>
    have hgroups : groups same (items ++ [item]) = push same item (groups same items) :=
      List.foldl_append ..
    rw [hgroups, update_eq_ok_iff, foldGroups, List.foldlM_append, ExceptState.bind_eq_ok_iff]
    refine exists_congr fun before => and_congr ih ?_
    rw [List.foldlM_cons, ExceptState.bind_eq_ok_iff]
    constructor
    · rintro ⟨after, hafter, h⟩
      cases h
      exact hafter
    · exact fun h => ⟨result, h, rfl⟩

/-- Where all items are of one key that is there from the beginning, its state is theirs. -/
theorem foldGroups_singleton_eq_ok_iff {key : κ} {items : List (κ × α)}
    (hsame : ∀ item ∈ items, same key item.1 = true) {state : σ} {result : List (κ × σ)} :
    foldGroups same step new items [(key, state)] = .ok result ↔
      ∃ after, (items.map Prod.snd).foldlM step state = .ok after ∧ result = [(key, after)] := by
  induction items generalizing state with
  | nil =>
    rw [List.map_nil, foldGroups]
    constructor
    · intro h
      cases h
      exact ⟨state, rfl, rfl⟩
    · rintro ⟨after, h, rfl⟩
      cases h
      rfl
  | cons item rest ih =>
    obtain ⟨hitem, hrest⟩ := List.forall_mem_cons.mp hsame
    rw [List.map_cons, foldGroups, List.foldlM_cons, List.foldlM_cons]
    simp only [update, if_pos hitem, ExceptState.bind_eq_ok_iff]
    constructor
    · rintro ⟨groups, ⟨next, hnext, hgroups⟩, h⟩
      cases hgroups
      obtain ⟨after, hafter, rfl⟩ := (ih hrest).mp h
      exact ⟨after, ⟨next, hnext, hafter⟩, rfl⟩
    · rintro ⟨after, ⟨next, hnext, hafter⟩, rfl⟩
      exact ⟨_, ⟨next, hnext, rfl⟩, (ih hrest).mpr ⟨after, hafter, rfl⟩⟩

/-- A step that does the same to the states of a dict does the same to the dict. -/
private theorem update_congr {β : Type u} {step' : σ → β → Except ε σ} {key : κ} {x : α} {y : β}
    {groups : List (κ × σ)} (hnew : step new x = step' new y)
    (hgroups : ∀ group ∈ groups, step group.2 x = step' group.2 y) :
    update same step new (key, x) groups = update same step' new (key, y) groups := by
  induction groups with
  | nil => rw [update, update, hnew]
  | cons group rest ih =>
    obtain ⟨hgroup, hrest⟩ := List.forall_mem_cons.mp hgroups
    rw [update, update, hgroup, ih hrest]

/-- What a step keeps of a state holds of all states of a dict. -/
private theorem forall_of_update {P : σ → Prop} {item : κ × α} {groups result : List (κ × σ)}
    (hkeep : ∀ state state', P state → step state item.2 = .ok state' → P state') (hnew : P new)
    (hgroups : ∀ group ∈ groups, P group.2) (h : update same step new item groups = .ok result) :
    ∀ group ∈ result, P group.2 := by
  induction groups generalizing result with
  | nil =>
    obtain ⟨state, hstate, h⟩ := ExceptState.bind_eq_ok h
    cases h
    exact List.forall_mem_singleton.mpr (hkeep new state hnew hstate)
  | cons group rest ih =>
    obtain ⟨hgroup, hrest⟩ := List.forall_mem_cons.mp hgroups
    rw [update] at h
    split at h
    · obtain ⟨state, hstate, h⟩ := ExceptState.bind_eq_ok h
      cases h
      exact List.forall_mem_cons.mpr ⟨hkeep _ state hgroup hstate, hrest⟩
    · obtain ⟨rest', hrest', h⟩ := ExceptState.bind_eq_ok h
      cases h
      exact List.forall_mem_cons.mpr ⟨hgroup, ih hrest hrest'⟩

/-- A dict of items that are read from others, where the states keep what the reading needs. -/
theorem foldGroups_map_congr {β : Type u} (P : σ → Prop) (f : κ × α → β)
    (step' : σ → β → Except ε σ) {items : List (κ × α)} {groups : List (κ × σ)} (hnew : P new)
    (hstep : ∀ item ∈ items, ∀ state, P state → step' state (f item) = step state item.2)
    (hkeep : ∀ item ∈ items, ∀ state state', P state → step state item.2 = .ok state' → P state')
    (hgroups : ∀ group ∈ groups, P group.2) :
    foldGroups same step' new (items.map fun item => (item.1, f item)) groups
      = foldGroups same step new items groups := by
  induction items generalizing groups with
  | nil => rfl
  | cons item items ih =>
    obtain ⟨hitem, hitems⟩ := List.forall_mem_cons.mp hstep
    obtain ⟨hkeepItem, hkeepItems⟩ := List.forall_mem_cons.mp hkeep
    have hupdate : update same step' new (item.1, f item) groups
        = update same step new item groups :=
      update_congr (hitem new hnew) fun group hgroup => hitem group.2 (hgroups group hgroup)
    rw [List.map_cons, foldGroups, foldGroups, List.foldlM_cons, List.foldlM_cons, hupdate]
    cases hresult : update same step new item groups with
    | error e => rfl
    | ok result => exact ih hitems hkeepItems (forall_of_update hkeepItem hnew hgroups hresult)

/-- States that are folded together are folded one by one. -/
theorem foldlM_mapM_eq_ok_iff {step : α → σ → Except ε σ} {items : List α}
    {states result : List σ} :
    items.foldlM (fun states item => states.mapM (step item)) states = .ok result ↔
      states.mapM (fun state => items.foldlM (fun state item => step item state) state)
        = .ok result := by
  induction items generalizing states with
  | nil =>
    have hpure : states.mapM (fun state => ([] : List α).foldlM (fun state item => step item state)
        state) = .ok states :=
      (ExceptState.mapM_eq_ok (g := id) fun _ _ => rfl).trans (congrArg _ (List.map_id states))
    rw [hpure]
    exact Iff.rfl
  | cons item items ih =>
    have hcons : (fun state => (item :: items).foldlM (fun state item => step item state) state)
        = fun state => step item state >>= items.foldlM (fun state item => step item state) :=
      funext fun _ => List.foldlM_cons
    rw [hcons, ← ExceptState.mapM_mapM_eq_ok_iff, List.foldlM_cons, ExceptState.bind_eq_ok_iff]
    exact exists_congr fun _ => and_congr_right fun _ => ih

/-- A step that returns takes the states of a list to those of a longer one. -/
theorem foldlM_eq_ok_of_step {xs : List α} {after : List α → σ}
    (h : ∀ part x, (∀ y ∈ part ++ [x], y ∈ xs) → step (after part) x = .ok (after (part ++ [x])))
    {part more : List α} (hmem : ∀ y ∈ part ++ more, y ∈ xs) :
    more.foldlM step (after part) = .ok (after (part ++ more)) := by
  induction more generalizing part with
  | nil =>
    rw [List.append_nil]
    rfl
  | cons x more ih =>
    have hassoc : part ++ x :: more = (part ++ [x]) ++ more := (List.append_assoc _ [x] more).symm
    rw [hassoc] at hmem ⊢
    rw [List.foldlM_cons, h part x fun y hy => hmem y (List.mem_append_left _ hy),
      ExceptState.ok_bind]
    exact ih hmem

end Folds

/-! ### What a list adds up to -/

section Totals

variable {α : Type*} {f : α → α → α} {D : Set α}

/-- A list added up from its first element. -/
def total (f : α → α → α) : List α → Option α
  | [] => none
  | a :: l => some (l.foldl f a)

/-- `f` adds up elements of `D` to elements of `D`, in any grouping. -/
structure Adds (f : α → α → α) (D : Set α) : Prop where
  mem : ∀ a ∈ D, ∀ b ∈ D, f a b ∈ D
  assoc : ∀ a ∈ D, ∀ b ∈ D, ∀ c ∈ D, f (f a b) c = f a (f b c)

theorem Adds.foldl_mem (h : Adds f D) {a : α} (ha : a ∈ D) {l : List α} (hl : ∀ b ∈ l, b ∈ D) :
    l.foldl f a ∈ D := by
  induction l generalizing a with
  | nil => exact ha
  | cons b l ih =>
    obtain ⟨hb, hl⟩ := List.forall_mem_cons.mp hl
    exact ih (h.mem a ha b hb) hl

theorem Adds.foldl_assoc (h : Adds f D) {a b : α} (ha : a ∈ D) (hb : b ∈ D) {l : List α}
    (hl : ∀ c ∈ l, c ∈ D) : l.foldl f (f a b) = f a (l.foldl f b) := by
  induction l generalizing b with
  | nil => rfl
  | cons c l ih =>
    obtain ⟨hc, hl⟩ := List.forall_mem_cons.mp hl
    rw [List.foldl_cons, List.foldl_cons, h.assoc a ha b hb c hc, ih (h.mem b hb c hc) hl]

theorem Adds.total_mem (h : Adds f D) {l : List α} (hl : ∀ b ∈ l, b ∈ D) {a : α}
    (ha : total f l = some a) : a ∈ D := by
  cases l with
  | nil => cases ha
  | cons b l =>
    obtain ⟨hb, hl⟩ := List.forall_mem_cons.mp hl
    cases ha
    exact h.foldl_mem hb hl

theorem total_append (h : Adds f D) {l m : List α} (hl : ∀ b ∈ l, b ∈ D) (hm : ∀ b ∈ m, b ∈ D) :
    total f (l ++ m) = total f ((total f l).toList ++ (total f m).toList) := by
  cases l with
  | nil =>
    cases m with
    | nil => rfl
    | cons b m => rfl
  | cons a l =>
    cases m with
    | nil => rw [List.append_nil]; rfl
    | cons b m =>
      obtain ⟨ha, hl⟩ := List.forall_mem_cons.mp hl
      obtain ⟨hb, hm⟩ := List.forall_mem_cons.mp hm
      have hfold : (l ++ b :: m).foldl f a = f (l.foldl f a) (m.foldl f b) := by
        rw [List.foldl_append, List.foldl_cons, h.foldl_assoc (h.foldl_mem ha hl) hb hm]
      exact congrArg some hfold

end Totals

end Grouping
