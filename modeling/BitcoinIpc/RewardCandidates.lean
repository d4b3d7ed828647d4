import BitcoinIpc.Rewards
import BitcoinIpc.Lib.PartialMaps
import Mathlib.Algebra.Order.BigOperators.Group.List

/-!
# The table of reward candidates

The keys under which the candidates of a snapshot are stored, and what the
tracker reads and writes there: the candidates of one snapshot are a partial
function from subnets to their infos, and the amounts of each candidate are a
partial function from keys of validators to collaterals.
-/

namespace Rewards

open Faults Bytes Chain Messages Crates Multisig Db Grouping Commits Text OrderedTable PartialMaps

variable {X : Library}

/-- The printed address of a subnet is read back, and holds no slash. -/
structure ParseLaws (X : Library) : Prop where
  fvm_no_slash : ∀ t : Txid20, '/' ∉ X.fvmDisplay (SubnetId.fromTxid20 t).addr
  fvm_read_back : ∀ t : Txid20, X.fvmFromStr (X.fvmDisplay (SubnetId.fromTxid20 t).addr) =
    some (SubnetId.fromTxid20 t).addr

theorem subnetFromStr_display (parse : ParseLaws X) (t : Txid20) :
    subnetFromStr X (subnetDisplay X (.fromTxid20 t)) = some (.fromTxid20 t) :=
  subnetFromStr_subnetDisplay (parse.fvm_no_slash t) (parse.fvm_read_back t)

section Joined

variable {table a b : List Char} {n m : Nat}

theorem joined_prefix_iff :
    (table ++ ':' :: (decimal n ++ [':'])) <+: (table ++ ':' :: (decimal m ++ ':' :: a)) ↔
      n = m := by
  constructor
  · rintro ⟨rest, h⟩
    simp only [List.append_assoc, List.cons_append, List.append_cancel_left_eq,
      List.cons.injEq, true_and, List.nil_append] at h
    obtain ⟨hn, -⟩ := join_inj (decimal_no_colon n) (decimal_no_colon m) h
    exact decimal_injective hn
  · rintro rfl
    exact ⟨a, by simp⟩

theorem joined_inj (h : table ++ ':' :: (decimal n ++ ':' :: a) =
    table ++ ':' :: (decimal m ++ ':' :: b)) : n = m ∧ a = b := by
  have h' := List.tail_eq_of_cons_eq (List.append_cancel_left h)
  obtain ⟨hn, ha⟩ := join_inj (decimal_no_colon n) (decimal_no_colon m) h'
  exact ⟨decimal_injective hn, ha⟩

theorem joined_prefix_unique {k : List Char}
    (hn : (table ++ ':' :: (decimal n ++ [':'])) <+: k)
    (hm : (table ++ ':' :: (decimal m ++ [':'])) <+: k) : n = m := by
  obtain ⟨rest, rfl⟩ := hn
  obtain ⟨rest', heq⟩ := hm
  simp only [List.append_assoc, List.cons_append, List.nil_append] at heq
  exact (joined_inj heq).1.symm

theorem lastField_joined (ha : ':' ∉ a) :
    lastField (table ++ ':' :: (decimal n ++ ':' :: a)) = a := by
  have hall : ∀ c ∈ a.reverse, decide (c ≠ ':') = true := by
    intro c hc
    refine decide_eq_true (fun hcolon => ha ?_)
    rw [← hcolon]
    exact List.mem_reverse.mp hc
  have hkey : table ++ ':' :: (decimal n ++ ':' :: a) = (table ++ ':' :: decimal n) ++ ':' :: a := by
    simp
  rw [hkey, lastField, List.reverse_append, List.reverse_cons, List.append_assoc,
    List.takeWhile_append_of_pos hall]
  simp

end Joined

theorem isPrefixOf_rewardCandidateKey (n m : Nat) (s : SubnetId) :
    (rewardCandidatesPrefix n).isPrefixOf (rewardCandidateKey X m s) = decide (n = m) := by
  rw [Bool.eq_iff_iff, List.isPrefixOf_iff_prefix, decide_eq_true_iff]
  exact joined_prefix_iff

theorem eq_of_isPrefixOf {n m : Nat} {k : Key}
    (hn : (rewardCandidatesPrefix n).isPrefixOf k = true)
    (hm : (rewardCandidatesPrefix m).isPrefixOf k = true) : n = m :=
  joined_prefix_unique (List.isPrefixOf_iff_prefix.mp hn) (List.isPrefixOf_iff_prefix.mp hm)

theorem rewardCandidateKey_inj (laws : DisplayLaws X) {n m : Nat} {s s' : SubnetId}
    (h : rewardCandidateKey X n s = rewardCandidateKey X m s') : n = m ∧ s = s' := by
  obtain ⟨hn, hs⟩ := joined_inj h
  exact ⟨hn, subnetDisplay_injective laws hs⟩

theorem lastField_rewardCandidateKey (laws : DisplayLaws X) (n : Nat) (s : SubnetId) :
    lastField (rewardCandidateKey X n s) = subnetDisplay X s :=
  lastField_joined (subnetDisplay_no_colon laws s)

/-- The keys of the snapshot's candidates are those of subnets. -/
def OfSubnets (X : Library) (n : Nat) (db : HeedDb) : Prop :=
  ∀ k info, (rewardCandidatesPrefix n).isPrefixOf k = true →
    db.rewardCandidatesDb.get k = some info → ∃ t, k = rewardCandidateKey X n (.fromTxid20 t)

/-- The iteration over the candidates lists what the lookups find. -/
theorem iterRewardCandidateInfo_represents (laws : DisplayLaws X) (parse : ParseLaws X) {n : Nat}
    {db : HeedDb} (hkeys : OfSubnets X n db) :
    ∃ l, iterRewardCandidateInfo X db n = .ok l ∧
      Represents l (db.getRewardCandidateInfo X n) := by
  set entries := db.rewardCandidatesDb.scanEntries
    (fun k => (rewardCandidatesPrefix n).isPrefixOf k) with hentries
  have hmem : ∀ e, e ∈ entries ↔ (rewardCandidatesPrefix n).isPrefixOf e.1 = true ∧
      db.rewardCandidatesDb.get e.1 = some e.2 := by
    intro e
    rw [hentries, Table.scanEntries, List.mem_filter, Table.get_eq_some_iff, and_comm]
  have hkey : ∀ e ∈ entries, ∃ t, e.1 = rewardCandidateKey X n (.fromTxid20 t) := fun e he =>
    hkeys e.1 e.2 ((hmem e).mp he).1 ((hmem e).mp he).2
  have hread : ∀ e ∈ entries, ∃ t, e.1 = rewardCandidateKey X n (.fromTxid20 t) ∧
      subnetFromStr X (lastField e.1) = some (.fromTxid20 t) := by
    intro e he
    obtain ⟨t, ht⟩ := hkey e he
    refine ⟨t, ht, ?_⟩
    rw [ht, lastField_rewardCandidateKey laws, subnetFromStr_display parse]
  let read : Key × SubnetRewardInfo → SubnetId × SubnetRewardInfo := fun e =>
    ((subnetFromStr X (lastField e.1)).getD (.fromTxid20 (FixedBytes.zeros 20)),
      e.2)
  have hiter : iterRewardCandidateInfo X db n = .ok (entries.map read) := by
    refine traverse_of_forall (fun e he => ?_)
    obtain ⟨t, -, ht⟩ := hread e he
    simp [read, ht, okOr]
  have hpair : ∀ e ∈ entries, ∀ s info, read e = (s, info) ↔
      e = (rewardCandidateKey X n s, info) := by
    intro e he s info
    obtain ⟨t, hk, ht⟩ := hread e he
    have hvalue : read e = (.fromTxid20 t, e.2) := by simp [read, ht]
    rw [hvalue, Prod.mk.injEq, Prod.ext_iff, hk]
    constructor
    · rintro ⟨rfl, rfl⟩
      exact ⟨rfl, rfl⟩
    · rintro ⟨hs, hinfo⟩
      exact ⟨(rewardCandidateKey_inj laws hs).2, hinfo⟩
  refine ⟨_, hiter, ?_, ?_⟩
  · have hnodup : (entries.map Prod.fst).Nodup := by
      have hsorted : entries.Pairwise (fun a b => a.1 < b.1) :=
        db.rewardCandidatesDb.sorted.filter _
      exact List.pairwise_map.mpr (hsorted.imp (fun h => ne_of_lt h))
    rw [List.map_map]
    refine (List.Nodup.of_map Prod.fst hnodup).map_on ?_
    intro e he e' he' heq
    obtain ⟨t, hk, ht⟩ := hread e he
    obtain ⟨t', hk', ht'⟩ := hread e' he'
    have hsame : SubnetId.fromTxid20 t = .fromTxid20 t' := by simpa [read, ht, ht'] using heq
    have hfst : e.1 = e'.1 := by rw [hk, hk', hsame]
    exact List.inj_on_of_nodup_map hnodup he he' hfst
  · intro s info
    rw [List.mem_map]
    constructor
    · rintro ⟨e, he, heq⟩
      rw [(hpair e he s info).mp heq] at he
      exact ((hmem _).mp he).2
    · intro hget
      have he : (rewardCandidateKey X n s, info) ∈ entries := by
        refine (hmem _).mpr ⟨?_, hget⟩
        simp [isPrefixOf_rewardCandidateKey]
      exact ⟨_, he, (hpair _ he s info).mpr rfl⟩

/-- What the first block of a snapshot stores: an info for each listed subnet. -/
theorem get_putCandidates (laws : DisplayLaws X) (n : Nat) (l : List SubnetState) (db : HeedDb) :
    let db' := l.foldl (fun db s => db.putRewardCandidateInfo X n s.id ⟨s.committeeNumber, none⟩) db
    (∀ k, (∀ s ∈ l, rewardCandidateKey X n s.id ≠ k) →
      db'.rewardCandidatesDb.get k = db.rewardCandidatesDb.get k) ∧
    ((l.map (·.id)).Nodup → ∀ s ∈ l,
      db'.getRewardCandidateInfo X n s.id = some ⟨s.committeeNumber, none⟩) := by
  induction l generalizing db with
  | nil => exact ⟨fun _ _ => rfl, fun _ s hs => by cases hs⟩
  | cons a rest ih =>
    obtain ⟨hother, hown⟩ := ih (db.putRewardCandidateInfo X n a.id ⟨a.committeeNumber, none⟩)
    constructor
    · intro k hk
      refine (hother k (fun s hs => hk s (List.mem_cons_of_mem a hs))).trans ?_
      exact Table.get_put_of_ne _ _ (Ne.symm (hk a List.mem_cons_self))
    · intro hnd s hs
      rw [List.map_cons, List.nodup_cons] at hnd
      rcases List.mem_cons.mp hs with rfl | hs
      · refine (hother _ (fun s' hs' hkey => hnd.1 ?_)).trans (Table.get_put_self _ _ _)
        rw [← (rewardCandidateKey_inj laws hkey).2]
        exact List.mem_map_of_mem hs'
      · exact hown hnd.2 s hs

/-- The collateral that a committee holds of a key, if any. -/
def collateralIn (c : SubnetCommittee) (pubkey : XOnlyPublicKey) : Option Amount :=
  (c.findValidator pubkey).bind (fun v => if 0 < v.collateral then some v.collateral else none)

theorem positiveCollaterals_represents {c : SubnetCommittee}
    (hc : (c.validators.map (·.pubkey)).Nodup) :
    Represents (positiveCollaterals c) (collateralIn c) := by
  constructor
  · rw [positiveCollaterals, List.map_map]
    exact hc.sublist (List.filter_sublist.map _)
  · intro k a
    rw [positiveCollaterals, List.mem_map, collateralIn, SubnetCommittee.findValidator]
    constructor
    · rintro ⟨v, hv, heq⟩
      obtain ⟨rfl, rfl⟩ := Prod.mk.injEq _ _ _ _ ▸ heq
      obtain ⟨hv, hpos⟩ := List.mem_filter.mp hv
      have hfind : c.validators.find? (fun w => w.pubkey = v.pubkey) = some v := by
        cases hw : c.validators.find? (fun w => w.pubkey = v.pubkey) with
        | none => exact absurd (decide_eq_true rfl) (List.find?_eq_none.mp hw v hv)
        | some w =>
          have hkey : w.pubkey = v.pubkey := by simpa using List.find?_some hw
          rw [List.inj_on_of_nodup_map hc (List.mem_of_find?_eq_some hw) hv hkey]
      rw [hfind, Option.bind_some, if_pos (of_decide_eq_true hpos)]
    · intro h
      obtain ⟨v, hfind, hval⟩ := Option.bind_eq_some_iff.mp h
      have hkey : v.pubkey = k := by simpa using List.find?_some hfind
      split_ifs at hval with hpos
      refine ⟨v, List.mem_filter.mpr ⟨List.mem_of_find?_eq_some hfind, decide_eq_true hpos⟩, ?_⟩
      rw [hkey, Option.some.inj hval]

theorem lowerRewards_eq (rewards new : List (XOnlyPublicKey × Amount)) :
    lowerRewards rewards new = lowered rewards new := rfl

/-- The amounts of all candidates, added up for each key. -/
theorem finalizeRewards_ok {σ : HashOrder XOnlyPublicKey} {db : HeedDb} {n : Nat}
    {candidates : List (SubnetId × SubnetRewardInfo)}
    {amounts : List (List (XOnlyPublicKey × Amount))}
    (hiter : iterRewardCandidateInfo X db n = .ok candidates)
    (hamounts : traverseList (fun c => getOrInitRewardAmounts X db c.1 c.2) candidates =
      .ok amounts)
    (hbound : (amounts.flatten.map Prod.snd).sum < amountBound) :
    finalizeRewards X σ db n = .ok (db.putSnapshotResult n
      ⟨totals σ amounts.flatten, (amounts.flatten.map Prod.snd).sum⟩) := by
  have hle : ∀ e ∈ totals σ amounts.flatten, e.2 ≤ (amounts.flatten.map Prod.snd).sum := by
    intro e he
    rw [← sum_totals σ]
    exact List.le_sum_of_mem (List.mem_map_of_mem he)
  have hrewards : traverseList (fun e => do
      let total ← (sumAmounts e.2 : Outcome RewardTrackerError Amount)
      return (e.1, total)) (grouped σ amounts.flatten) = .ok (totals σ amounts.flatten) := by
    refine traverse_of_forall (fun e he => ?_)
    have hsum : e.2.sum < amountBound :=
      lt_of_le_of_lt (hle (e.1, e.2.sum) (List.mem_map_of_mem he)) hbound
    rw [sumAmounts_eq_ok.mpr ⟨hsum, rfl⟩]
    rfl
  have htotal : (sumAmounts ((totals σ amounts.flatten).map Prod.snd) :
      Outcome RewardTrackerError Amount) = .ok (amounts.flatten.map Prod.snd).sum := by
    rw [sumAmounts_eq_ok, sum_totals]
    exact ⟨hbound, rfl⟩
  simp only [finalizeRewards, hiter, hamounts, hrewards, htotal, ok_bind]
  rfl

end Rewards
