import BitcoinIpc.RewardRuns
import BitcoinIpc.IdealCrates

/-!
# Results of reward snapshots

The result that the tracker stores at the last block of a snapshot gives each
key the sum, over the subnets that were bootstrapped up to the first block and
not killed up to the last one, of its lowest collateral over their committees.
This holds over every run whose rewards add up to an amount; beyond that the
sums of the source panic.
-/

namespace Rewards

open Faults Bytes Chain Messages Crates Multisig Db Grouping Commits OrderedTable PartialMaps
open Monitor

variable {X : Library} {c : RewardConfig}

variable (X) in
/-- What the result of a snapshot is to be: every key that is rewarded, once, with the sum of
what it gets from the subnets. -/
structure Rewarded (ms : List HeedDb) (db : HeedDb) (start stop : Nat) (r : SnapshotResult) :
    Prop where
  nodup : (r.rewardsList.map Prod.fst).Nodup
  mem_iff : ∀ pubkey amount, (pubkey, amount) ∈ r.rewardsList ↔
    contributions X ms db start stop pubkey ≠ [] ∧
      amount = (contributions X ms db start stop pubkey).sum
  total : r.totalRewardedCollateral = (r.rewardsList.map Prod.snd).sum

section Finalize

variable {n start stop : Nat} {ms : List HeedDb} {db : HeedDb}

theorem Tracks.ofSubnets (laws : DisplayLaws X) (ht : Tracks X n start stop ms db) :
    OfSubnets X n db := by
  intro k info hprefix hget
  obtain ⟨i, s, rfl, hs⟩ := ht.keys k info hprefix hget
  obtain ⟨⟨t, hid⟩, -⟩ := ht.kept.stored _ s hs
  exact ⟨t, by rw [← hid, ht.kept.id_eq laws hs]⟩

/-- The listed candidates are the eligible subnets. -/
theorem Tracks.candidates_perm (laws : DisplayLaws X) (ht : Tracks X n start stop ms db)
    {candidates : List (SubnetId × SubnetRewardInfo)}
    (hrep : Represents candidates (db.getRewardCandidateInfo X n)) :
    (candidates.map Prod.fst).Perm ((eligibleSubnets X db start stop).map (·.id)) := by
  have hnodup : ((eligibleSubnets X db start stop).map (·.id)).Nodup :=
    ht.kept.ids_nodup.sublist (List.filter_sublist.map _)
  refine (List.perm_ext_iff_of_nodup hrep.nodup hnodup).mpr (fun i => ?_)
  have hleft : i ∈ candidates.map Prod.fst ↔ ∃ info, db.getRewardCandidateInfo X n i =
      some info := by
    rw [List.mem_map]
    constructor
    · rintro ⟨e, he, rfl⟩
      exact ⟨e.2, (hrep.mem_iff e.1 e.2).mp he⟩
    · rintro ⟨info, hget⟩
      exact ⟨(i, info), (hrep.mem_iff i info).mpr hget, rfl⟩
  rw [hleft, List.mem_map]
  constructor
  · rintro ⟨info, hget⟩
    obtain ⟨i', s, hk, hs⟩ := ht.keys _ info (candidateKey n i) hget
    obtain rfl := (rewardCandidateKey_inj laws hk).2
    have hid := ht.kept.id_eq laws hs
    refine ⟨s, List.mem_filter.mpr ⟨ht.kept.mem_getAllSubnets.mpr (by rw [hid]; exact hs), ?_⟩, hid⟩
    rw [← (ht.subnets i s hs).candidate_iff, hget]
    rfl
  · rintro ⟨s, hs, rfl⟩
    obtain ⟨hs, he⟩ := List.mem_filter.mp hs
    have hstate := ht.kept.mem_getAllSubnets.mp hs
    exact Option.isSome_iff_exists.mp ((ht.subnets s.id s hstate).candidate_iff.mpr he)

/-- The rewarded keys of a candidate are keys of its current committee. -/
theorem mem_committee_of_rewardIn {i : SubnetId} {s : SubnetState}
    (hlast : (activeCommittees X ms i).getLast? = some s.committee) {pubkey : XOnlyPublicKey}
    {a : Amount} (ha : rewardIn X ms i pubkey = some a) :
    pubkey ∈ s.committee.validators.map (·.pubkey) := by
  obtain ⟨-, hall⟩ := leastOf_eq_some.mp ha
  obtain ⟨b, hb, -⟩ := hall _ (List.mem_map_of_mem (List.mem_of_getLast? hlast))
  obtain ⟨v, hv, -⟩ := Option.bind_eq_some_iff.mp hb
  have hkey : v.pubkey = pubkey := by simpa using List.find?_some hv
  exact List.mem_map.mpr ⟨v, List.mem_of_find?_eq_some hv, hkey⟩

/-- The amounts of a candidate are the rewards of its subnet. -/
theorem Tracks.amounts (laws : DisplayLaws X) (ht : Tracks X n start stop ms db) {i : SubnetId}
    {info : SubnetRewardInfo} (hget : db.getRewardCandidateInfo X n i = some info) :
    ∃ s l, db.getSubnetState X i = some s ∧ getOrInitRewardAmounts X db i info = .ok l ∧
      Represents l (rewardIn X ms i) ∧ (l.map Prod.snd).sum = subnetReward X ms s := by
  obtain ⟨i', s, hk, hs⟩ := ht.keys _ info (candidateKey n i) hget
  rw [← (rewardCandidateKey_inj laws hk).2] at hs
  obtain ⟨-, hlast, l, hl, hrepl⟩ := (ht.subnets i s hs).amounts info hget
  refine ⟨s, l, hs, hl, hrepl, ?_⟩
  have hvalues := hrepl.values_perm (ht.kept.distinct i s hs)
    (fun k a ha => mem_committee_of_rewardIn hlast ha)
  rw [hvalues.sum_eq, List.filterMap_map, subnetReward, ht.kept.id_eq laws hs]
  rfl

/-- What the tracker stores at the last block. -/
theorem Tracks.finalize (laws : DisplayLaws X) (parse : ParseLaws X)
    (ht : Tracks X n start stop ms db)
    (hbound : totalReward X ms db start stop < amountBound) (σ : HashOrder XOnlyPublicKey) :
    ∃ r, finalizeRewards X σ db n = .ok (db.putSnapshotResult n r) ∧
      Rewarded X ms db start stop r := by
  obtain ⟨candidates, hiter, hrep⟩ := iterRewardCandidateInfo_represents laws parse
    (ht.ofSubnets laws)
  have hperm := ht.candidates_perm laws hrep
  -- the amounts of each candidate, as a function of it
  have hamounts : ∀ e ∈ candidates, ∃ s l, db.getSubnetState X e.1 = some s ∧
      getOrInitRewardAmounts X db e.1 e.2 = .ok l ∧ Represents l (rewardIn X ms e.1) ∧
      (l.map Prod.snd).sum = subnetReward X ms s := by
    intro e he
    exact ht.amounts laws ((hrep.mem_iff e.1 e.2).mp he)
  let amountsOf : SubnetId × SubnetRewardInfo → List (XOnlyPublicKey × Amount) := fun e =>
    (getOrInitRewardAmounts X db e.1 e.2).toOption.getD []
  have hof : ∀ e ∈ candidates, getOrInitRewardAmounts X db e.1 e.2 = .ok (amountsOf e) := by
    intro e he
    obtain ⟨s, l, -, hl, -⟩ := hamounts e he
    simp only [amountsOf, hl]
    rfl
  have hrepresents : List.Forall₂ (fun l i => Represents l (rewardIn X ms i))
      (candidates.map amountsOf) (candidates.map Prod.fst) := by
    rw [List.forall₂_map_left_iff, List.forall₂_map_right_iff, List.forall₂_same]
    intro e he
    obtain ⟨s, l, -, hl, hrepl, -⟩ := hamounts e he
    rw [hof e he] at hl
    rw [Except.ok.inj hl]
    exact hrepl
  have htotal : ((candidates.map amountsOf).flatten.map Prod.snd).sum =
      totalReward X ms db start stop := by
    let reward : SubnetId → Amount := fun i =>
      ((db.getSubnetState X i).map (subnetReward X ms)).getD 0
    have hleft : candidates.map (fun e => ((amountsOf e).map Prod.snd).sum) =
        (candidates.map Prod.fst).map reward := by
      rw [List.map_map]
      refine List.map_congr_left (fun e he => ?_)
      obtain ⟨s, l, hs, hl, -, hsum⟩ := hamounts e he
      rw [hof e he] at hl
      rw [Except.ok.inj hl, hsum]
      simp [reward, hs]
    have hright : (eligibleSubnets X db start stop).map (subnetReward X ms) =
        ((eligibleSubnets X db start stop).map (·.id)).map reward := by
      rw [List.map_map]
      refine List.map_congr_left (fun s hs => ?_)
      simp [reward, ht.kept.mem_getAllSubnets.mp (List.mem_filter.mp hs).1]
    rw [List.map_flatten, List.sum_flatten, List.map_map, List.map_map, totalReward, hright]
    exact (congrArg List.sum hleft).trans (hperm.map reward).sum_eq
  have hvalues : ∀ pubkey, (valuesAt (candidates.map amountsOf).flatten pubkey).Perm
      (contributions X ms db start stop pubkey) := by
    intro pubkey
    have hids : contributions X ms db start stop pubkey =
        ((eligibleSubnets X db start stop).map (·.id)).filterMap
          (fun i => rewardIn X ms i pubkey) := by
      rw [List.filterMap_map]
      rfl
    rw [valuesAt_flatten hrepresents, hids]
    exact hperm.filterMap _
  refine ⟨_, finalizeRewards_ok hiter (traverse_of_forall hof) (by rw [htotal]; exact hbound),
    totals_nodup σ _, ?_, ?_⟩
  · intro pubkey amount
    rw [mem_totals_iff, (hvalues pubkey).sum_eq, Ne, Ne, eq_nil_iff_of_perm (hvalues pubkey)]
  · exact (sum_totals σ _).symm

end Finalize

section Snapshot

variable {n start stop : Nat}

theorem snapshotBoundaries_inside (hb : c.snapshotBoundariesFromHeight start = some (n, start, stop))
    {h : Nat} (hge : start ≤ h) (hle : h ≤ stop) :
    c.snapshotBoundariesFromHeight h = some (n, start, stop) := by
  simp only [RewardConfig.snapshotBoundariesFromHeight] at hb ⊢
  split_ifs at hb with hact
  simp only [Option.some.injEq, Prod.mk.injEq] at hb
  obtain ⟨hn, hstart, hstop⟩ := hb
  rw [hn] at hstart hstop
  have hpos := c.length_pos
  have hdiv : (h - c.activationHeight) / c.snapshotLength = n := by
    refine Nat.div_eq_of_lt_le (by omega) ?_
    rw [Nat.succ_mul]
    omega
  rw [if_neg (by omega)]
  simp only [hdiv, hstart, Option.some.injEq, Prod.mk.injEq, true_and]
  omega

theorem start_le_stop (hb : c.snapshotBoundariesFromHeight start = some (n, start, stop)) :
    start ≤ stop := by
  simp only [RewardConfig.snapshotBoundariesFromHeight] at hb
  split_ifs at hb with hact
  simp only [Option.some.injEq, Prod.mk.injEq] at hb
  have hpos := c.length_pos
  omega

theorem Tracks.trail (laws : DisplayLaws X) {h : Nat}
    (hb : c.snapshotBoundariesFromHeight h = some (n, start, stop)) (hlt : start < h)
    (hle : h ≤ stop) {ms : List HeedDb} {db : HeedDb} {l : List (Occurrence × HeedDb)}
    (ht : Tracks X n start stop ms db) (hl : Trail (Occurs X c h) db l) :
    Tracks X n start stop (ms ++ l.map Prod.snd) (lastStore db l) := by
  induction l generalizing ms db with
  | nil =>
    rw [List.map_nil, List.append_nil]
    exact ht
  | cons a rest ih =>
    obtain ⟨o, db'⟩ := a
    rw [lastStore_cons]
    have hrest := ih (ht.occurs hb hlt laws hle hl.1) hl.2
    rw [List.append_assoc] at hrest
    exact hrest

/-- The blocks after the first one: the last of them closes the snapshot. -/
theorem Tracks.run (laws : DisplayLaws X)
    (hb : c.snapshotBoundariesFromHeight start = some (n, start, stop)) {h : Nat}
    (hlt : start < h) {blocks : List BlockRun} (hne : blocks ≠ [])
    (hend : h + blocks.length = stop + 1) {ms : List HeedDb} {db : HeedDb}
    (ht : Tracks X n start stop ms db) (hrun : Run X c h db blocks) :
    ∃ closing σ, Tracks X n start stop
        (ms ++ blocks.flatMap (fun b => b.occurrences.map Prod.snd)) closing ∧
      runEnd X c h db blocks = (endSnapshot X σ n stop stop closing).store closing := by
  induction blocks generalizing h ms db with
  | nil => exact absurd rfl hne
  | cons b rest ih =>
    rw [List.length_cons] at hend
    have hbh := snapshotBoundaries_inside hb (le_of_lt hlt) (show h ≤ stop by omega)
    have hlast := ht.trail laws hbh hlt (by omega) hrun.1
    have hclose : b.close X c h db =
        (endSnapshot X b.order n stop h (lastStore db b.occurrences)).store
          (lastStore db b.occurrences) :=
      store_updateAfterBlock hbh (if_neg (Nat.ne_of_gt hlt)).symm
    cases rest with
    | nil =>
      have hstop : h = stop := by
        simpa using hend
      subst hstop
      refine ⟨lastStore db b.occurrences, b.order, ?_, hclose⟩
      simpa using hlast
    | cons b' rest =>
      have hmiddle : b.close X c h db = lastStore db b.occurrences := by
        rw [hclose, store_endSnapshot_of_ne]
        rw [List.length_cons] at hend
        omega
      have hrest := hrun.2
      rw [hmiddle] at hrest
      obtain ⟨closing, σ, htracks, hrunEnd⟩ := ih (Nat.lt_succ_of_lt hlt) (List.cons_ne_nil _ _)
        (by omega) hlast hrest
      refine ⟨closing, σ, ?_, ?_⟩
      · rw [List.flatMap_cons, ← List.append_assoc]
        exact htracks
      · rw [runEnd, hmiddle]
        exact hrunEnd

theorem run_append {h : Nat} {db : HeedDb} {l₁ l₂ : List BlockRun}
    (hrun : Run X c h db (l₁ ++ l₂)) :
    Run X c h db l₁ ∧ Run X c (h + l₁.length) (runEnd X c h db l₁) l₂ := by
  induction l₁ generalizing h db with
  | nil => exact ⟨trivial, hrun⟩
  | cons b rest ih =>
    obtain ⟨hfirst, hrest⟩ := ih hrun.2
    refine ⟨⟨hrun.1, hfirst⟩, ?_⟩
    rw [List.length_cons, show h + (rest.length + 1) = h + 1 + rest.length from by omega]
    exact hrest

theorem runEnd_append (h : Nat) (db : HeedDb) (l₁ l₂ : List BlockRun) :
    runEnd X c h db (l₁ ++ l₂) =
      runEnd X c (h + l₁.length) (runEnd X c h db l₁) l₂ := by
  induction l₁ generalizing h db with
  | nil => rfl
  | cons b rest ih =>
    rw [List.length_cons, show h + (rest.length + 1) = h + 1 + rest.length from by omega]
    exact ih (h + 1) (b.close X c h db)

/-- The result of a snapshot. The run starts before it, with no candidates, and goes on to its
last block; when its rewards add up to an amount, they are what is stored. -/
theorem snapshot_rewarded (laws : DisplayLaws X) (parse : ParseLaws X)
    (hb : c.snapshotBoundariesFromHeight start = some (n, start, stop)) {h : Nat} {db : HeedDb}
    {before rest : List BlockRun} {first : BlockRun} (hkept : Kept X h db)
    (hnone : db.rewardCandidatesDb = .empty)
    (hrun : Run X c h db (before ++ first :: rest)) (hstart : h + before.length = start)
    (hstop : start + rest.length = stop) :
    let after := runEnd X c h db (before ++ first :: rest)
    let ms := moments (runEnd X c h db before) first rest
    totalReward X ms after start stop < amountBound →
      ∃ r, after.rewardResultsDb.get (rewardResultKey n) = some r ∧
        Rewarded X ms after start stop r := by
  intro after ms hbound
  obtain ⟨hrunBefore, hrunRest⟩ := run_append hrun
  have hunopened : Unopened n db := by
    intro k _
    rw [hnone]
    rfl
  obtain ⟨hkeptBefore, hunopenedBefore⟩ := unopened_run hb hrunBefore (le_of_eq hstart) hkept
    hunopened
  rw [hstart] at hrunRest hkeptBefore
  obtain ⟨hkeptFirst, hunopenedFirst⟩ := unopened_trail hb hrunRest.1 le_rfl hkeptBefore
    hunopenedBefore
  have hopen := tracks_storeCandidates laws (start_le_stop hb) hkeptFirst hunopenedFirst
  have hfirst : first.close X c start (runEnd X c h db before) =
      (endSnapshot X first.order n stop start (storeCandidates X (lastStore
        (runEnd X c h db before) first.occurrences) n start stop)).store
        (storeCandidates X (lastStore (runEnd X c h db before) first.occurrences) n start stop) :=
    store_updateAfterBlock hb (if_pos rfl).symm
  have hclosing : ∃ closing σ, Tracks X n start stop ms closing ∧
      after = (endSnapshot X σ n stop stop closing).store closing := by
    have hafter : after = runEnd X c start (runEnd X c h db before) (first :: rest) := by
      rw [← hstart]
      exact runEnd_append h db before (first :: rest)
    by_cases hrest : rest = []
    · subst hrest
      obtain rfl : start = stop := by simpa using hstop
      exact ⟨_, first.order, hopen, hafter.trans hfirst⟩
    · have hne : start ≠ stop := by
        have := List.length_pos_iff.mpr hrest
        omega
      have hmiddle : first.close X c start (runEnd X c h db before) =
          storeCandidates X (lastStore (runEnd X c h db before) first.occurrences) n start stop :=
        hfirst.trans (store_endSnapshot_of_ne hne _)
      have hrunTail := hrunRest.2
      rw [hmiddle] at hrunTail
      obtain ⟨closing, σ, htracks, hrunEnd⟩ := hopen.run laws hb (Nat.lt_succ_self start) hrest
        (by omega) hrunTail
      refine ⟨closing, σ, htracks, ?_⟩
      rw [hafter, runEnd, hmiddle]
      exact hrunEnd
  obtain ⟨closing, σ, htracks, hafter⟩ := hclosing
  obtain ⟨t, results, hsame, -⟩ := writesAt_endSnapshot (X := X) σ n stop stop closing
  have hsubnets : totalReward X ms after start stop = totalReward X ms closing start stop := by
    rw [hafter, hsame]
    rfl
  obtain ⟨r, hfinal, hrewarded⟩ := htracks.finalize laws parse (hsubnets ▸ hbound) σ
  rw [store_endSnapshot_of_ok hfinal] at hafter
  refine ⟨r, ?_, ?_⟩
  · rw [hafter]
    exact Table.get_put_self _ _ _
  · rw [hafter]
    exact ⟨hrewarded.nodup, hrewarded.mem_iff, hrewarded.total⟩

end Snapshot

namespace Shared

open Crates.Solo Text

/-- The bytes of hexadecimal text. -/
def unhexBytes : List Char → List UInt8
  | a :: b :: rest => UInt8.ofNat (16 * unhexDigit a + unhexDigit b) :: unhexBytes rest
  | _ => []

theorem unhexBytes_hexBytes (l : List UInt8) : unhexBytes (hexBytes l) = l := by
  induction l with
  | nil => rfl
  | cons b rest ih =>
    have hcons : unhexBytes (hexBytes (b :: rest)) =
        UInt8.ofNat (16 * unhexDigit (hexDigit (b.toNat / 16)) +
          unhexDigit (hexDigit (b.toNat % 16))) :: unhexBytes (hexBytes rest) := rfl
    have hlt := b.toNat_lt
    rw [hcons, ih, unhexDigit_hexDigit (by omega), unhexDigit_hexDigit (by omega),
      Nat.div_add_mod, UInt8.ofNat_toNat]

/-- What stands before the bytes of a subnet's address. -/
def subnetHead : List Char := networkPrefix :: '4' :: (decimal l1DelegatedNamespace ++ ['f'])

/-- Reads the address of a subnet. -/
def readText (text : List Char) : Option FvmAddress :=
  if subnetHead.isPrefixOf text then
    some (.delegated l1DelegatedNamespace (unhexBytes (text.drop subnetHead.length)))
  else none

def readingLibrary : Library := { ideal { } with fvmFromStr := readText }

theorem displayLaws_reading : DisplayLaws readingLibrary where
  fvm_injective := (displayLaws_ideal { }).fvm_injective
  fvm_no_colon := (displayLaws_ideal { }).fvm_no_colon
  delegated_length := (displayLaws_ideal { }).delegated_length
  eth_injective := (displayLaws_ideal { }).eth_injective
  eth_no_colon := (displayLaws_ideal { }).eth_no_colon

theorem fvmText_fromTxid20 (t : Txid20) :
    readingLibrary.fvmDisplay (SubnetId.fromTxid20 t).addr = subnetHead ++ hexBytes t.bytes := by
  simp [readingLibrary, ideal, SubnetId.fromTxid20, fvmText, subnetHead]

theorem parseLaws_reading : ParseLaws readingLibrary where
  fvm_no_slash := by
    intro t
    rw [fvmText_fromTxid20, List.mem_append, not_or]
    exact ⟨by decide, hexBytes_no_slash t.bytes⟩
  fvm_read_back := by
    intro t
    rw [fvmText_fromTxid20]
    have hprefix : subnetHead.isPrefixOf (subnetHead ++ hexBytes t.bytes) = true :=
      List.isPrefixOf_iff_prefix.mpr (List.prefix_append _ _)
    have hread : readingLibrary.fvmFromStr = readText := rfl
    rw [hread, readText, if_pos hprefix, List.drop_left, unhexBytes_hexBytes]
    rfl

/-- A subnet with its genesis info and its committee. -/
def registered (db : HeedDb) (g : SubnetGenesisInfo) (s : SubnetState) : HeedDb :=
  ((db.saveSubnetGenesisInfo readingLibrary s.id g).saveCommittee readingLibrary s.id
    s.committeeNumber s.committee).saveSubnetState readingLibrary s.id s

theorem getSubnetState_registered (db : HeedDb) (g : SubnetGenesisInfo) (s : SubnetState)
    (i : SubnetId) : (registered db g s).getSubnetState readingLibrary i =
      if i = s.id then some s else db.getSubnetState readingLibrary i :=
  HeedDb.getSubnetState_save _ displayLaws_reading s.id i s

theorem getSubnetGenesisInfo_registered (db : HeedDb) (g : SubnetGenesisInfo) (s : SubnetState)
    (i : SubnetId) : (registered db g s).getSubnetGenesisInfo readingLibrary i =
      if i = s.id then some g else db.getSubnetGenesisInfo readingLibrary i :=
  HeedDb.getSubnetGenesisInfo_save _ displayLaws_reading s.id i g

theorem getCommittee_registered (db : HeedDb) (g : SubnetGenesisInfo) (s : SubnetState)
    (i : SubnetId) (n : Nat) : (registered db g s).getCommittee readingLibrary i n =
      if i = s.id ∧ n = s.committeeNumber then some s.committee
      else db.getCommittee readingLibrary i n :=
  HeedDb.getCommittee_save _ displayLaws_reading s.id i s.committee s.committeeNumber n

def genesisOf (t : Txid20) : SubnetGenesisInfo :=
  ⟨.fromTxid20 t, createMsg 1, 1, true, some 2, [], []⟩

/-- A subnet whose only validator holds the given collateral. -/
def stateOf (t : Txid20) (number : Nat) (collateral : Amount) : SubnetState :=
  ⟨.fromTxid20 t, number, ⟨0, 1, [{ validator 1 with collateral := collateral }], backup⟩,
    none, none, .notKilled, none⟩

theorem stateOf_id (t : Txid20) (number : Nat) (collateral : Amount) :
    (stateOf t number collateral).id = .fromTxid20 t := rfl

theorem kept_registered {h : Nat} {db : HeedDb} (hk : Kept readingLibrary h db) (hh : 2 ≤ h)
    (t : Txid20) (number : Nat) (collateral : Amount) :
    Kept readingLibrary h (registered db (genesisOf t) (stateOf t number collateral)) where
  stored := by
    intro k s hget
    have hput : (registered db (genesisOf t) (stateOf t number collateral)).subnetDb =
        db.subnetDb.put (subnetStateKey readingLibrary (.fromTxid20 t))
          (stateOf t number collateral) := rfl
    rw [hput, Table.get_put] at hget
    split_ifs at hget with hkey
    · obtain rfl := Option.some.inj hget
      exact ⟨⟨t, rfl⟩, hkey⟩
    · exact hk.stored k s hget
  genesis := by
    intro i s hs
    rw [getSubnetState_registered] at hs
    rw [getSubnetGenesisInfo_registered]
    split_ifs at hs ⊢ with hi
    · exact ⟨genesisOf t, 2, rfl, rfl, Nat.le_succ 1, hh⟩
    · exact hk.genesis i s hs
  killed := by
    intro i s k hs hkill
    rw [getSubnetState_registered] at hs
    split_ifs at hs with hi
    · obtain rfl := Option.some.inj hs
      cases hkill
    · exact hk.killed i s k hs hkill
  committee := by
    intro i s hs
    rw [getSubnetState_registered] at hs
    rw [getCommittee_registered]
    split_ifs at hs with hi
    · obtain rfl := Option.some.inj hs
      rw [if_pos ⟨hi, rfl⟩]
    · rw [if_neg (fun h => hi h.1)]
      exact hk.committee i s hs
  distinct := by
    intro i s hs
    rw [getSubnetState_registered] at hs
    split_ifs at hs with hi
    · obtain rfl := Option.some.inj hs
      exact List.nodup_singleton _
    · exact hk.distinct i s hs

theorem kept_empty (h : Nat) : Kept readingLibrary h HeedDb.empty where
  stored := fun _ _ hget => by cases hget
  genesis := fun _ _ hs => by cases hs
  killed := fun _ _ _ hs => by cases hs
  committee := fun _ _ hs => by cases hs
  distinct := fun _ _ hs => by cases hs

def twoSubnets (a b : Amount) : HeedDb :=
  registered (registered HeedDb.empty (genesisOf neighbour) (stateOf neighbour 1 a))
    (genesisOf stranger) (stateOf stranger 1 b)

theorem kept_twoSubnets (a b : Amount) : Kept readingLibrary 10 (twoSubnets a b) :=
  kept_registered (kept_registered (kept_empty 10) (by decide) neighbour 1 a) (by decide)
    stranger 1 b

/-- Snapshots of two blocks from height ten on. -/
def config : RewardConfig := ⟨10, 2, by decide⟩

def firstBlock : BlockRun := ⟨[], .listed _⟩

def opened (a b : Amount) : HeedDb := firstBlock.close readingLibrary config 10 (twoSubnets a b)

/-- A checkpoint that rotates the first committee to the second one. -/
def rotation : SubnetCheckpoint := ⟨0, bytes32 4, 1, 11, bytes32 20, none, none, 1, 2, 0, false⟩

theorem saves_registered {db : HeedDb} (hk : Kept readingLibrary 11 db) {t : Txid20} {a : Amount}
    (hstate : db.getSubnetState readingLibrary (.fromTxid20 t) = some (stateOf t 1 a))
    (hheight : genesisHeight readingLibrary db (.fromTxid20 t) = some 2)
    (hnone : db.getCommittee readingLibrary (.fromTxid20 t) 2 = none) (a' : Amount) :
    Saves readingLibrary 11 db (.checkpoint (.fromTxid20 t) rotation)
      (registered db (genesisOf t) (stateOf t 2 a')) where
  kept := kept_registered hk (by decide) t 2 a'
  candidates := rfl
  committees := by
    intro i n c hc
    rw [getCommittee_registered, if_neg]
    · exact hc
    · rintro ⟨rfl, rfl⟩
      have hnew : db.getCommittee readingLibrary (.fromTxid20 t) 2 = some c := hc
      rw [hnone] at hnew
      cases hnew
  continues := by
    intro i s hs
    rw [getSubnetState_registered, stateOf_id]
    by_cases hi : i = .fromTxid20 t
    · subst hi
      obtain rfl := Option.some.inj (hstate.symm.trans hs)
      refine ⟨_, if_pos rfl, ?_, ?_⟩
      · rw [hheight, genesisHeight, getSubnetGenesisInfo_registered, stateOf_id, if_pos rfl]
        rfl
      · rw [Moves, stateOf_id, if_pos rfl]
        exact ⟨rfl, Or.inr ⟨rfl, rfl⟩, fun k => by simp [stateOf, rotation]⟩
    · refine ⟨s, by rw [if_neg hi]; exact hs, ?_, ?_⟩
      · rw [genesisHeight, getSubnetGenesisInfo_registered, stateOf_id, if_neg hi]
        rfl
      · rw [Moves, hk.id_eq displayLaws_reading hs, if_neg (Ne.symm hi)]
        exact ⟨rfl, rfl, fun _ => Iff.rfl⟩
  started := by
    intro i s' hs' hs
    rw [getSubnetState_registered, stateOf_id, if_neg] at hs'
    · rw [hs] at hs'
      cases hs'
    · rintro rfl
      rw [hstate] at hs
      cases hs

/-- The collateral of the first subnet changes with the rotation. -/
def rotated (a b a' : Amount) : HeedDb :=
  registered (opened a b) (genesisOf neighbour) (stateOf neighbour 2 a')

def secondBlock (a b a' : Amount) : BlockRun :=
  ⟨[(.checkpoint (.fromTxid20 neighbour) rotation, tracked readingLibrary config 11
    (rotated a b a') (.checkpoint (.fromTxid20 neighbour) rotation))], .listed _⟩

theorem neighbour_ne_stranger : SubnetId.fromTxid20 neighbour ≠ .fromTxid20 stranger := by decide

theorem sameButRewards_opened (a b : Amount) : SameButRewards (twoSubnets a b) (opened a b) := by
  rw [opened, BlockRun.close, show firstBlock.occurrences = [] from rfl, lastStore_nil]
  exact sameButRewards_updateAfterBlock firstBlock.order 10 (twoSubnets a b)

theorem getSubnetState_opened (a b : Amount) :
    (opened a b).getSubnetState readingLibrary (.fromTxid20 neighbour) =
      some (stateOf neighbour 1 a) := by
  obtain ⟨t, r, hsame⟩ := sameButRewards_opened a b
  have hstate : (opened a b).getSubnetState readingLibrary (.fromTxid20 neighbour) =
      (twoSubnets a b).getSubnetState readingLibrary (.fromTxid20 neighbour) := by
    rw [hsame]
    rfl
  rw [hstate, twoSubnets, getSubnetState_registered, getSubnetState_registered,
    if_neg (show _ ≠ (stateOf stranger 1 b).id from neighbour_ne_stranger),
    stateOf_id, if_pos rfl]

theorem getCommittee_opened (a b : Amount) (i : SubnetId) :
    (opened a b).getCommittee readingLibrary i 2 = none := by
  obtain ⟨t, r, hsame⟩ := sameButRewards_opened a b
  have hcommittee : (opened a b).getCommittee readingLibrary i 2 =
      (twoSubnets a b).getCommittee readingLibrary i 2 := by
    rw [hsame]
    rfl
  have hnumber : ∀ t c, ¬ (2 = (stateOf t 1 c).committeeNumber) := 
    fun _ _ h => absurd (show (2 : Nat) = 1 from h) (by decide)
  rw [hcommittee, twoSubnets, getCommittee_registered, getCommittee_registered,
    if_neg (fun h => hnumber _ _ h.2), if_neg (fun h => hnumber _ _ h.2)]
  rfl

theorem genesisHeight_opened (a b : Amount) :
    genesisHeight readingLibrary (opened a b) (.fromTxid20 neighbour) = some 2 := by
  obtain ⟨t, r, hsame⟩ := sameButRewards_opened a b
  have hheight : genesisHeight readingLibrary (opened a b) (.fromTxid20 neighbour) =
      genesisHeight readingLibrary (twoSubnets a b) (.fromTxid20 neighbour) := by
    rw [hsame]
    rfl
  rw [hheight, genesisHeight, twoSubnets, getSubnetGenesisInfo_registered,
    getSubnetGenesisInfo_registered,
    if_neg (show _ ≠ (stateOf stranger 1 b).id from neighbour_ne_stranger),
    stateOf_id, if_pos rfl]
  rfl

theorem saves_rotated (a b a' : Amount) : Saves readingLibrary 11 (opened a b)
    (.checkpoint (.fromTxid20 neighbour) rotation) (rotated a b a') :=
  saves_registered (((kept_twoSubnets a b).of_sameButRewards
    (sameButRewards_opened a b)).mono (by decide)) (getSubnetState_opened a b)
    (genesisHeight_opened a b) (getCommittee_opened a b _) a'

theorem run_twoSubnets (a b a' : Amount) :
    Run readingLibrary config 10 (twoSubnets a b) ([] ++ firstBlock :: [secondBlock a b a']) :=
  ⟨trivial, ⟨⟨_, saves_rotated a b a', rfl⟩, trivial⟩, trivial⟩

/-- The key of the validator gets what it holds through the rotation. -/
theorem snapshot_rewarded_shared :
    let after := runEnd readingLibrary config 10 (twoSubnets 5 7)
      ([] ++ firstBlock :: [secondBlock 5 7 3])
    let ms := moments (twoSubnets 5 7) firstBlock [secondBlock 5 7 3]
    contributions readingLibrary ms after 10 11 key = [3, 7] ∧
      ∃ r, after.rewardResultsDb.get (rewardResultKey 0) = some r ∧
        Rewarded readingLibrary ms after 10 11 r := by
  have hvalues : contributions readingLibrary
      (moments (twoSubnets 5 7) firstBlock [secondBlock 5 7 3])
      (runEnd readingLibrary config 10 (twoSubnets 5 7) ([] ++ firstBlock :: [secondBlock 5 7 3]))
      10 11 key = [3, 7] := of_decide_eq_true (by decide +kernel)
  have hbound : totalReward readingLibrary
      (moments (twoSubnets 5 7) firstBlock [secondBlock 5 7 3])
      (runEnd readingLibrary config 10 (twoSubnets 5 7) ([] ++ firstBlock :: [secondBlock 5 7 3]))
      10 11 < amountBound := of_decide_eq_true (by decide +kernel)
  exact ⟨hvalues, snapshot_rewarded displayLaws_reading parseLaws_reading rfl
    (kept_twoSubnets 5 7) rfl (run_twoSubnets 5 7 3) rfl rfl hbound⟩

/-- With half of all amounts in each subnet, the sum for the key is none, and no result is
stored. -/
theorem overflowing_rewards_not_stored :
    ¬ ∀ (X : Library) (c : RewardConfig) (n start stop h : Nat) (db : HeedDb)
      (before rest : List BlockRun) (first : BlockRun), DisplayLaws X → ParseLaws X →
      c.snapshotBoundariesFromHeight start = some (n, start, stop) → Kept X h db →
      db.rewardCandidatesDb = .empty → Run X c h db (before ++ first :: rest) →
      h + before.length = start → start + rest.length = stop →
      ∃ r, (runEnd X c h db (before ++ first :: rest)).rewardResultsDb.get
          (rewardResultKey n) = some r ∧
        Rewarded X (moments (runEnd X c h db before) first rest)
          (runEnd X c h db (before ++ first :: rest)) start stop r := by
  intro hall
  obtain ⟨r, hr, -⟩ := hall readingLibrary config 0 10 11 10 (twoSubnets (2 ^ 63) (2 ^ 63)) []
    [secondBlock (2 ^ 63) (2 ^ 63) (2 ^ 63)] firstBlock displayLaws_reading parseLaws_reading rfl
    (kept_twoSubnets _ _) rfl (run_twoSubnets _ _ _) rfl rfl
  have hnone : ((runEnd readingLibrary config 10 (twoSubnets (2 ^ 63) (2 ^ 63))
      ([] ++ firstBlock :: [secondBlock (2 ^ 63) (2 ^ 63) (2 ^ 63)])).rewardResultsDb.get
      (rewardResultKey 0)).isNone = true := by decide +kernel
  rw [hr] at hnone
  cases hnone

end Shared

end Rewards
