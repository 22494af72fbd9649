/-
The merge path of the join computes the relational join.

Both sides come sorted by key, NULLs last.  A row without a key is passed over, a
key that is behind the other side's has no match any more, and two equal keys have
their groups at the front of both sides.  What drives the induction is that the
order by `sortKey` and the match of keys agree (`matches_iff_sortKey`).

Main results:
* `HashJoinOperator.takeKeyGroup_eq` — the group holds exactly the rows with the key;
* `HashJoinOperator.mergeLoop_eq` — the merge emits the join of the two lists.
-/
import DistributedSql.HashProbe

namespace DistributedSql

/-! ### Keys in sort order -/

theorem sortKey_of_isKey {domains : List (Set SQLValue)} (hS : ∀ S ∈ domains, Ordered S)
    {key : List SQLValue} (h : IsKey domains key) :
    sortKey key = (key.map SQLValue.rank).map ((↑) : Rank → WithTop Rank) := by
  induction h with
  | nil => rfl
  | cons hv _ ih =>
    have hne := SQLValue.not_null_of_comparable (hS _ List.mem_cons_self _ hv _ hv)
    rw [sortKey, List.map_cons, ← sortKey, ih fun S hmem => hS S (List.mem_cons_of_mem _ hmem),
      SQLValue.sortRank_of_ne hne]
    rfl

/-- A row has a key if and only if its place in sort order is the key's. -/
theorem rowKey_iff_sortKey {py : Python} {keys : List Expression} {domains : List (Set SQLValue)}
    (hS : ∀ S ∈ domains, Ordered S) {row : Row} (h : HasKeys py keys domains row)
    {key : List SQLValue} (hkey : IsKey domains key) :
    keysMatch (rowKey py keys row) (some key) = true ↔
      sortKey (rowValues py keys row) = sortKey key := by
  have hvalues : ∀ k, rowKey py keys row = some k → k = rowValues py keys row := by
    intro k hk
    unfold rowKey at hk
    split at hk
    · cases hk
    · exact (Option.some.inj hk).symm
  cases hrow : rowKey py keys row with
  | some k =>
    have hk := isKey_of_rowKey h hrow
    rw [← hvalues k hrow, keysMatch, tupleEq_iff_rank hS hk hkey, sortKey_of_isKey hS hk,
      sortKey_of_isKey hS hkey]
    exact (List.map_injective_iff.mpr WithTop.coe_injective).eq_iff.symm
  | none =>
    -- the row has a NULL, which sorts last, and the key has none
    refine iff_of_false Bool.false_ne_true fun heq => ?_
    have hnull : (rowValues py keys row).any SQLValue.isNull = true := by
      unfold rowKey at hrow
      split at hrow
      · assumption
      · cases hrow
    obtain ⟨v, hv, hvn⟩ := List.any_eq_true.mp hnull
    have htop : (⊤ : WithTop Rank) ∈ sortKey (rowValues py keys row) :=
      List.mem_map.mpr ⟨v, hv, if_pos (SQLValue.isNull_iff.mp hvn)⟩
    rw [heq, sortKey_of_isKey hS hkey] at htop
    obtain ⟨r, -, hr⟩ := List.mem_map.mp htop
    exact WithTop.coe_ne_top hr

theorem compareJoinKeys_eq {domains : List (Set SQLValue)} (hS : ∀ S ∈ domains, Ordered S)
    {left right : List SQLValue} (hl : IsKey domains left) (hr : IsKey domains right) :
    HashJoinOperator.compareJoinKeys left right = .ok (sign (sortKey left) (sortKey right)) := by
  induction hl generalizing right with
  | nil =>
    cases hr
    rfl
  | @cons S a domains left ha hl ih =>
    obtain _ | ⟨hb, hr⟩ := hr
    rw [HashJoinOperator.compareJoinKeys, threeWay_eq (hS S List.mem_cons_self) ha hb,
      ExceptState.ok_bind, ih (fun S h => hS S (List.mem_cons_of_mem _ h)) hr]
    simp only [sortKey, List.map_cons, sign_cons]
    split <;> rfl

namespace HashJoinOperator

variable {py : Python} {join : HashJoinOperator} {domains : List (Set SQLValue)}

/-- The place of a row of one side in sort order. -/
def place (py : Python) (join : HashJoinOperator) (side : Side) (row : Row) :
    List (WithTop Rank) :=
  sortKey (rowValues py (join.keys side) row)

section Valid

variable (hS : ∀ S ∈ domains, Ordered S)

include hS

/-- A build row with a key matches the probe rows in its place. -/
theorem matches_iff_sortKey {build probe : Row} (hb : join.RowOf py domains join.buildSide build)
    (hp : join.RowOf py domains join.probeSide probe) {key : List SQLValue}
    (hkey : rowKey py (join.keys join.buildSide) build = some key) :
    (join.oriented py).Matches build probe ↔ place py join join.probeSide probe = sortKey key := by
  have hk : IsKey domains key := isKey_of_rowKey hb.keys hkey
  have hover : KeyOver domains (some key) := hkey ▸ keyOver_rowKey hb.keys
  rw [oriented_matches hS hb hp, hkey, keysMatch_comm hS hover (keyOver_rowKey hp.keys)]
  exact rowKey_iff_sortKey hS hp.keys hk

theorem matches_iff_sortKey' {build probe : Row} (hb : join.RowOf py domains join.buildSide build)
    (hp : join.RowOf py domains join.probeSide probe) {key : List SQLValue}
    (hkey : rowKey py (join.keys join.probeSide) probe = some key) :
    (join.oriented py).Matches build probe ↔ place py join join.buildSide build = sortKey key := by
  rw [oriented_matches hS hb hp, hkey]
  exact rowKey_iff_sortKey hS hb.keys (isKey_of_rowKey hp.keys hkey)

/-- The group taken at the front of a sorted list holds exactly the rows in the key's place. -/
theorem takeKeyGroup_eq {keys : List Expression} {key : List SQLValue} (hkey : IsKey domains key)
    {rows : List Row} (hrows : ∀ row ∈ rows, HasKeys py keys domains row)
    (hsorted : StableSort.SortedBy (fun row => sortKey (rowValues py keys row)) rows)
    (hfrom : ∀ row ∈ rows, sortKey key ≤ sortKey (rowValues py keys row)) :
    ∃ group, takeKeyGroup py keys key rows = .ok group ∧
      (∀ row ∈ group.1.1, sortKey (rowValues py keys row) = sortKey key) ∧
      ∀ row ∈ group.1.2, sortKey key < sortKey (rowValues py keys row) := by
  induction rows with
  | nil => exact ⟨_, rfl, by simp, by simp⟩
  | cons row rest ih =>
    obtain ⟨hhead, htail⟩ := List.pairwise_cons.mp hsorted
    have hrow := hrows row List.mem_cons_self
    have hiff := rowKey_iff_sortKey hS hrow hkey
    have hany : ((rowKey py keys row).any fun other => tupleEq other key)
        = keysMatch (rowKey py keys row) (some key) := by
      cases rowKey py keys row <;> rfl
    rw [takeKeyGroup, joinKey_eq hrow, ExceptState.ok_bind, hany]
    by_cases hm : keysMatch (rowKey py keys row) (some key) = true
    · obtain ⟨group, hrun, hin, hout⟩ := ih (fun r hr => hrows r (List.mem_cons_of_mem row hr))
        htail fun r hr => hfrom r (List.mem_cons_of_mem row hr)
      rw [if_pos hm, hrun]
      exact ⟨_, rfl, List.forall_mem_cons.mpr ⟨hiff.mp hm, hin⟩, hout⟩
    · rw [if_neg hm]
      have hlt : sortKey key < sortKey (rowValues py keys row) :=
        lt_of_le_of_ne (hfrom row List.mem_cons_self) fun heq => hm (hiff.mpr heq.symm)
      refine ⟨_, rfl, by simp, ?_⟩
      exact List.forall_mem_cons.mpr ⟨hlt, fun r hr => hlt.trans_le (hhead r hr)⟩

/-- Nothing matches a build row that sorts before all probe rows. -/
theorem not_matches_of_lt {build : Row} (hb : join.RowOf py domains join.buildSide build)
    {probeRows : List Row} (hp : ∀ row ∈ probeRows, join.RowOf py domains join.probeSide row)
    {key : List SQLValue} (hkey : rowKey py (join.keys join.buildSide) build = some key)
    (hlt : ∀ row ∈ probeRows, place py join join.probeSide row ≠ sortKey key) :
    ∀ row ∈ probeRows, ¬(join.oriented py).Matches build row :=
  fun row hrow hm => hlt row hrow ((matches_iff_sortKey hS hb (hp row hrow) hkey).mp hm)

theorem not_matches_of_lt' {probe : Row} (hp : join.RowOf py domains join.probeSide probe)
    {buildRows : List Row} (hb : ∀ row ∈ buildRows, join.RowOf py domains join.buildSide row)
    {key : List SQLValue} (hkey : rowKey py (join.keys join.probeSide) probe = some key)
    (hlt : ∀ row ∈ buildRows, place py join join.buildSide row ≠ sortKey key) :
    ∀ row ∈ buildRows, ¬(join.oriented py).Matches row probe :=
  fun row hrow hm => hlt row hrow ((matches_iff_sortKey' hS (hb row hrow) hp hkey).mp hm)

/-- Nothing matches a row without a key. -/
theorem not_matches_of_none {build probe : Row}
    (hb : join.RowOf py domains join.buildSide build)
    (hp : join.RowOf py domains join.probeSide probe)
    (hkey : rowKey py (join.keys join.buildSide) build = none
      ∨ rowKey py (join.keys join.probeSide) probe = none) :
    ¬(join.oriented py).Matches build probe := by
  rw [oriented_matches hS hb hp]
  rcases hkey with hkey | hkey <;> rw [hkey]
  · exact Bool.false_ne_true
  · cases rowKey py (join.keys join.buildSide) build <;> exact Bool.false_ne_true

omit hS in
theorem place_of_rowKey {side : Side} {row : Row} {key : List SQLValue}
    (hkey : rowKey py (join.keys side) row = some key) : place py join side row = sortKey key := by
  unfold rowKey at hkey
  split at hkey
  · cases hkey
  · cases hkey
    rfl

/-- A row in the place of a key has a key itself. -/
theorem rowKey_of_place {side : Side} {row : Row} (h : join.RowOf py domains side row)
    {key : List SQLValue} (hkey : IsKey domains key) (hplace : place py join side row = sortKey key) :
    ∃ k, rowKey py (join.keys side) row = some k ∧ sortKey k = sortKey key := by
  have hmatch := (rowKey_iff_sortKey hS h.keys hkey).mpr hplace
  cases hk : rowKey py (join.keys side) row with
  | none =>
    rw [hk] at hmatch
    exact absurd hmatch Bool.false_ne_true
  | some k => exact ⟨k, rfl, (place_of_rowKey hk).symm.trans hplace⟩

/-- The groups in a key's place may be joined apart from the rest. -/
theorem bag_append {key : List SQLValue} (hkey : IsKey domains key)
    {buildGroup buildRest probeGroup probeRest : List Row}
    (hb : ∀ row ∈ buildGroup ++ buildRest, join.RowOf py domains join.buildSide row)
    (hp : ∀ row ∈ probeGroup ++ probeRest, join.RowOf py domains join.probeSide row)
    (hbg : ∀ row ∈ buildGroup, place py join join.buildSide row = sortKey key)
    (hbr : ∀ row ∈ buildRest, place py join join.buildSide row ≠ sortKey key)
    (hpg : ∀ row ∈ probeGroup, place py join join.probeSide row = sortKey key)
    (hpr : ∀ row ∈ probeRest, place py join join.probeSide row ≠ sortKey key) :
    (join.oriented py).bag ↑(buildGroup ++ buildRest) ↑(probeGroup ++ probeRest)
      = (join.oriented py).bag ↑buildGroup ↑probeGroup
        + (join.oriented py).bag ↑buildRest ↑probeRest := by
  rw [← Multiset.coe_add, ← Multiset.coe_add]
  refine BagJoin.bag_add _ (fun build hbuild probe hprobe hm => ?_)
    fun build hbuild probe hprobe hm => ?_
  · have hb' := hb build (List.mem_append_left _ hbuild)
    have hp' := hp probe (List.mem_append_right _ hprobe)
    obtain ⟨k, hk, hsame⟩ := rowKey_of_place hS hb' hkey (hbg build hbuild)
    exact hpr probe hprobe (((matches_iff_sortKey hS hb' hp' hk).mp hm).trans hsame)
  · have hb' := hb build (List.mem_append_right _ hbuild)
    have hp' := hp probe (List.mem_append_left _ hprobe)
    obtain ⟨k, hk, hsame⟩ := rowKey_of_place hS hp' hkey (hpg probe hprobe)
    exact hbr build hbuild (((matches_iff_sortKey' hS hb' hp' hk).mp hm).trans hsame)

/-- Two groups of rows in one place are joined as a product. -/
theorem bag_groups {key : List SQLValue} {build probe : Row} {buildGroup probeGroup : List Row}
    (hb : ∀ row ∈ build :: buildGroup, join.RowOf py domains join.buildSide row)
    (hp : ∀ row ∈ probe :: probeGroup, join.RowOf py domains join.probeSide row)
    (hkey : rowKey py (join.keys join.buildSide) build = some key)
    (hbs : ∀ row ∈ build :: buildGroup, place py join join.buildSide row = sortKey key)
    (hps : ∀ row ∈ probe :: probeGroup, place py join join.probeSide row = sortKey key) :
    (join.oriented py).bag ↑(build :: buildGroup) ↑(probe :: probeGroup)
      = (((build :: buildGroup).flatMap fun left => (probe :: probeGroup).map fun right =>
          join.unite left right).map (Row.restrict join.outputSchema) : List Row) := by
  have hbuild := hb build List.mem_cons_self
  have hall : ∀ left ∈ ((build :: buildGroup : List Row) : Multiset Row),
      ∀ right ∈ ((probe :: probeGroup : List Row) : Multiset Row),
      (join.oriented py).Matches left right := by
    intro left hleft right hright
    obtain ⟨k, hk, hsame⟩ :=
      rowKey_of_place hS (hb left hleft) (isKey_of_rowKey hbuild.keys hkey) (hbs left hleft)
    exact (matches_iff_sortKey hS (hb left hleft) (hp right hright) hk).mpr
      ((hps right hright).trans hsame.symm)
  have hne : ∀ (row : Row) (rest : List Row), ((row :: rest : List Row) : Multiset Row) ≠ 0 :=
    fun row rest h => List.cons_ne_nil row rest ((Multiset.coe_eq_zero _).mp h)
  rw [BagJoin.bag_of_forall _ hall (hne build buildGroup) (hne probe probeGroup),
    List.map_flatMap, ← Multiset.coe_bind]
  refine Multiset.bind_congr fun left _ => ?_
  rw [Multiset.map_coe, List.map_map]
  exact congrArg _ (List.map_congr_left fun right _ => oriented_pair left right)

variable {batchSize : ℕ} (hnames : join.outputSchema ≠ []) (hsize : 0 < batchSize)

include hnames hsize

omit hS in
private theorem all_unmatchedBuild (out : Output) (row : Row) :
    ((out.append (join.unmatchedBuild (join.columns join.probeSide) row)).emitIfFull
        join.outputSchema batchSize).all join.outputSchema
      = out.all join.outputSchema ++ (join.oriented py).leftUnit row := by
  rw [Output.all_emitIfFull hnames hsize, Output.all_append, oriented_leftUnit]

omit hS in
private theorem all_unmatchedProbe (out : Output) (row : Row) :
    ((out.append (join.unmatchedProbe (join.columns join.buildSide) row)).emitIfFull
        join.outputSchema batchSize).all join.outputSchema
      = out.all join.outputSchema ++ (join.oriented py).rightUnit row := by
  rw [Output.all_emitIfFull hnames hsize, Output.all_append, oriented_rightUnit]

/-- The merge of two sorted sides emits their join. -/
theorem mergeLoop_eq (buildRows probeRows : List Row)
    (hbuild : ∀ row ∈ buildRows, join.RowOf py domains join.buildSide row)
    (hprobe : ∀ row ∈ probeRows, join.RowOf py domains join.probeSide row)
    (hbs : StableSort.SortedBy (place py join join.buildSide) buildRows)
    (hps : StableSort.SortedBy (place py join join.probeSide) probeRows) (out : Output) :
    ∃ out', join.mergeLoop py batchSize buildRows probeRows out = .ok out' ∧
      (out'.all join.outputSchema : Multiset Row)
        = out.all join.outputSchema + (join.oriented py).bag buildRows probeRows := by
  induction hn : buildRows.length + probeRows.length using Nat.strong_induction_on
    generalizing buildRows probeRows out with
  | _ n ih =>
    match buildRows, probeRows with
    | [], probeRows =>
      refine ⟨_, by rw [mergeLoop], ?_⟩
      rw [Output.all_append, ← Multiset.coe_add, Multiset.coe_nil, BagJoin.bag_eq_zero_right,
        List.map_flatMap, Multiset.coe_bind]
      congr 2
      exact List.flatMap_congr fun row _ => (oriented_rightUnit row).symm
    | build :: buildRows, [] =>
      refine ⟨_, by rw [mergeLoop], ?_⟩
      rw [Output.all_append, ← Multiset.coe_add, Multiset.coe_nil, BagJoin.bag_eq_zero_left,
        List.map_flatMap, Multiset.coe_bind]
      congr 2
      exact List.flatMap_congr fun row _ => (oriented_leftUnit row).symm
    | build :: buildRows, probe :: probeRows =>
      obtain ⟨hb, hbuild'⟩ := List.forall_mem_cons.mp hbuild
      obtain ⟨hp, hprobe'⟩ := List.forall_mem_cons.mp hprobe
      obtain ⟨hbhead, hbs'⟩ := List.pairwise_cons.mp hbs
      obtain ⟨hphead, hps'⟩ := List.pairwise_cons.mp hps
      -- passing over an unmatched row of either side
      have hpassBuild : (∀ row ∈ probe :: probeRows, ¬(join.oriented py).Matches build row) →
          ∃ out', join.mergeLoop py batchSize buildRows (probe :: probeRows)
              ((out.append (join.unmatchedBuild (join.columns join.probeSide) build)).emitIfFull
                join.outputSchema batchSize) = .ok out' ∧
            (out'.all join.outputSchema : Multiset Row) = out.all join.outputSchema
              + (join.oriented py).bag ↑(build :: buildRows) ↑(probe :: probeRows) := by
        intro hnone
        obtain ⟨out', hrun, hout⟩ := ih _ (by simp at hn ⊢; omega) buildRows (probe :: probeRows)
          hbuild' hprobe hbs' hps
          ((out.append (join.unmatchedBuild (join.columns join.probeSide) build)).emitIfFull
            join.outputSchema batchSize) rfl
        refine ⟨out', hrun, ?_⟩
        rw [hout, all_unmatchedBuild hnames hsize, ← Multiset.coe_add, add_assoc,
          ← Multiset.cons_coe build, BagJoin.bag_cons_left _ hnone]
      have hpassProbe : (∀ row ∈ build :: buildRows, ¬(join.oriented py).Matches row probe) →
          ∃ out', join.mergeLoop py batchSize (build :: buildRows) probeRows
              ((out.append (join.unmatchedProbe (join.columns join.buildSide) probe)).emitIfFull
                join.outputSchema batchSize) = .ok out' ∧
            (out'.all join.outputSchema : Multiset Row) = out.all join.outputSchema
              + (join.oriented py).bag ↑(build :: buildRows) ↑(probe :: probeRows) := by
        intro hnone
        obtain ⟨out', hrun, hout⟩ := ih _ (by simp at hn ⊢; omega) (build :: buildRows) probeRows
          hbuild hprobe' hbs hps'
          ((out.append (join.unmatchedProbe (join.columns join.buildSide) probe)).emitIfFull
            join.outputSchema batchSize) rfl
        refine ⟨out', hrun, ?_⟩
        rw [hout, all_unmatchedProbe hnames hsize, ← Multiset.coe_add, add_assoc,
          ← Multiset.cons_coe probe, BagJoin.bag_cons_right _ hnone]
      rw [mergeLoop]
      simp only [joinKey_eq hb.keys, joinKey_eq hp.keys, ExceptState.ok_bind]
      cases hbk : rowKey py (join.keys join.buildSide) build with
      | none =>
        exact hpassBuild fun row hrow => not_matches_of_none hS hb (hprobe row hrow) (Or.inl hbk)
      | some buildKey =>
        cases hpk : rowKey py (join.keys join.probeSide) probe with
        | none =>
          exact hpassProbe fun row hrow =>
            not_matches_of_none hS (hbuild row hrow) hp (Or.inr hpk)
        | some probeKey =>
          have hkb : IsKey domains buildKey := isKey_of_rowKey hb.keys hbk
          have hkp : IsKey domains probeKey := isKey_of_rowKey hp.keys hpk
          have hpb := place_of_rowKey hbk
          have hpp := place_of_rowKey hpk
          dsimp only
          by_cases heq : tupleEq buildKey probeKey = true
          · have hsame : sortKey probeKey = sortKey buildKey := by
              rw [sortKey_of_isKey hS hkb, sortKey_of_isKey hS hkp,
                (tupleEq_iff_rank hS hkb hkp).mp heq]
            obtain ⟨⟨⟨bg, br⟩, rfl⟩, hbrun, hbin, hbout⟩ := takeKeyGroup_eq hS hkb
              (fun row hrow => (hbuild' row hrow).keys) hbs'
              fun row hrow => hpb ▸ hbhead row hrow
            obtain ⟨⟨⟨pg, pr⟩, rfl⟩, hprun, hpin, hpout⟩ := takeKeyGroup_eq hS hkp
              (fun row hrow => (hprobe' row hrow).keys) hps'
              fun row hrow => hpp ▸ hphead row hrow
            rw [hsame] at hpin hpout
            obtain ⟨out', hrun, hout⟩ := ih _ (by simp at hn ⊢; omega) br pr
              (fun row hrow => hbuild' row (List.mem_append_right _ hrow))
              (fun row hrow => hprobe' row (List.mem_append_right _ hrow))
              (List.pairwise_append.mp hbs').2.1 (List.pairwise_append.mp hps').2.1
              ((out.append ((build :: bg).flatMap fun left => (probe :: pg).map fun right =>
                join.unite left right)).emitIfFull join.outputSchema batchSize) rfl
            have hbgroup : ∀ row ∈ build :: bg, join.RowOf py domains join.buildSide row ∧
                place py join join.buildSide row = sortKey buildKey :=
              List.forall_mem_cons.mpr ⟨⟨hb, hpb⟩, fun row hrow =>
                ⟨hbuild' row (List.mem_append_left _ hrow), hbin row hrow⟩⟩
            have hpgroup : ∀ row ∈ probe :: pg, join.RowOf py domains join.probeSide row ∧
                place py join join.probeSide row = sortKey buildKey :=
              List.forall_mem_cons.mpr ⟨⟨hp, hpp.trans hsame⟩, fun row hrow =>
                ⟨hprobe' row (List.mem_append_left _ hrow), hpin row hrow⟩⟩
            have hsplit := bag_append  hS hkb hbuild hprobe (fun row h => (hbgroup row h).2)
              (fun row h => (hbout row h).ne') (fun row h => (hpgroup row h).2)
              fun row h => (hpout row h).ne'
            rw [if_pos heq, hbrun]
            simp only [ExceptState.ok_bind, hprun]
            refine ⟨out', hrun, ?_⟩
            rw [hout, Output.all_emitIfFull hnames hsize, Output.all_append, ← Multiset.coe_add,
              add_assoc, ← List.cons_append, ← List.cons_append, hsplit, bag_groups hS (fun row h => (hbgroup row h).1)
                (fun row h => (hpgroup row h).1) hbk (fun row h => (hbgroup row h).2)
                fun row h => (hpgroup row h).2]
          · have hne : sortKey buildKey ≠ sortKey probeKey := by
              rw [sortKey_of_isKey hS hkb, sortKey_of_isKey hS hkp]
              intro h
              exact heq ((tupleEq_iff_rank hS hkb hkp).mpr
                (List.map_injective_iff.mpr WithTop.coe_injective h))
            rw [if_neg heq, compareJoinKeys_eq hS hkb hkp]
            simp only [ExceptState.ok_bind, sign_neg]
            by_cases hlt : sortKey buildKey < sortKey probeKey
            · rw [if_pos hlt]
              refine hpassBuild (not_matches_of_lt hS hb hprobe hbk fun row hrow => ?_)
              rcases List.mem_cons.mp hrow with rfl | hrow
              · exact hpp ▸ hne.symm
              · exact (hlt.trans_le (hpp ▸ hphead row hrow)).ne'
            · rw [if_neg hlt]
              have hgt : sortKey probeKey < sortKey buildKey :=
                lt_of_le_of_ne (le_of_not_gt hlt) hne.symm
              refine hpassProbe (not_matches_of_lt' hS hp hbuild hpk fun row hrow => ?_)
              rcases List.mem_cons.mp hrow with rfl | hrow
              · exact hpb ▸ hne
              · exact (hgt.trans_le (hpb ▸ hbhead row hrow)).ne'

end Valid

end HashJoinOperator

end DistributedSql
