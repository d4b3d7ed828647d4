import BitcoinIpc.RewardSnapshots
import BitcoinIpc.Provider

/-!
# Agreement on the rewards of a snapshot

The rewards are added up in a hash map and stored in its iteration order, which
each node draws for itself. The sums do not depend on the order, the list does:
two nodes store the same result exactly if no two keys are rewarded.
-/

namespace Rewards

open Faults Bytes Chain Messages Crates Multisig Db Grouping Commits PartialMaps OrderedTable
open Provider

def getSnapshotResult (db : HeedDb) (snapshot : Nat) : Option SnapshotResult :=
  db.rewardResultsDb.get (rewardResultKey snapshot)

structure GetRewardedCollateralsResponse where
  collaterals : List (EthAddress × Amount)
  totalRewardedCollateral : Amount
deriving DecidableEq

/-- The stored rewards by address; the heights of the snapshot are only printed. -/
def getRewardedCollaterals (X : Library) (db : HeedDb) (snapshot : Nat) :
    Outcome RpcError GetRewardedCollateralsResponse := do
  let result ← okOr (getSnapshotResult db snapshot)
    (.invalidParams "No cached rewards found for snapshot \x7b\x7d")
  return ⟨result.rewardsList.map (fun e => (X.ethAddrFromXOnlyPubkey e.1, e.2)),
    result.totalRewardedCollateral⟩

variable {X : Library} {c : RewardConfig} {db : HeedDb} {n start h : Nat}

variable (X) in
/-- The amounts of the candidates, in the order in which they enter the map. -/
def collectedAmounts (db : HeedDb) (snapshot : Nat) :
    Outcome RewardTrackerError (List (XOnlyPublicKey × Amount)) := do
  let candidates ← iterRewardCandidateInfo X db snapshot
  let amounts ← traverseList (fun c => getOrInitRewardAmounts X db c.1 c.2) candidates
  return amounts.flatten

/-- The sum of a key, which is the only thing that can go wrong, and only by a panic. -/
theorem raises_sumEntry (e : XOnlyPublicKey × List Amount) : Raises (fun _ => False) (do
    let total ← (sumAmounts e.2 : Outcome RewardTrackerError Amount)
    return (e.1, total)) := by
  intro err herr
  unfold sumAmounts at herr
  split_ifs at herr
  · cases herr
  · cases herr

theorem sumEntry_eq_ok {e : XOnlyPublicKey × List Amount} {r : XOnlyPublicKey × Amount}
    (h : (do
      let total ← (sumAmounts e.2 : Outcome RewardTrackerError Amount)
      return (e.1, total)) = .ok r) : (e.1, e.2.sum) = r := by
  obtain ⟨total, htotal, hr⟩ := bind_eq_ok.mp h
  cases hr
  rw [(sumAmounts_eq_ok.mp htotal).2]

/-- If the sum of all amounts is too large, the sums panic in every order. -/
theorem finalizeRewards_panics {l : List (XOnlyPublicKey × Amount)}
    (hl : collectedAmounts X db n = .ok l) (hsum : ¬ (l.map Prod.snd).sum < amountBound)
    (σ : HashOrder XOnlyPublicKey) : finalizeRewards X σ db n = panicked := by
  obtain ⟨candidates, hiter, hl⟩ := bind_eq_ok.mp hl
  obtain ⟨amounts, hamounts, hl⟩ := bind_eq_ok.mp hl
  cases hl
  simp only [finalizeRewards, hiter, hamounts, ok_bind]
  cases hrewards : traverseList (fun e => do
      let total ← (sumAmounts e.2 : Outcome RewardTrackerError Amount)
      return (e.1, total)) (grouped σ amounts.flatten) with
  | error f =>
    cases f with
    | error e => exact (raises_traverseList raises_sumEntry e hrewards).elim
    | panic => rfl
  | ok rewards =>
    have htotals : totals σ amounts.flatten = rewards := by
      rw [← List.map_id rewards]
      exact map_of_forall₂ (traverse_eq_ok.mp hrewards) (fun _ _ _ h => sumEntry_eq_ok h)
    have htotal : (sumAmounts (rewards.map Prod.snd) : Outcome RewardTrackerError Amount) =
        panicked := by
      rw [sumAmounts, ← htotals, sum_totals, if_neg hsum]
    simp only [ok_bind, htotal, panicked_bind]

theorem finalizeRewards_of_fits {l : List (XOnlyPublicKey × Amount)}
    (hl : collectedAmounts X db n = .ok l) (hsum : (l.map Prod.snd).sum < amountBound)
    (σ : HashOrder XOnlyPublicKey) : finalizeRewards X σ db n =
      .ok (db.putSnapshotResult n ⟨totals σ l, (l.map Prod.snd).sum⟩) := by
  obtain ⟨candidates, hiter, hl⟩ := bind_eq_ok.mp hl
  obtain ⟨amounts, hamounts, hl⟩ := bind_eq_ok.mp hl
  cases hl
  exact finalizeRewards_ok hiter hamounts hsum

theorem finalizeRewards_of_error {f : Failure RewardTrackerError}
    (hl : collectedAmounts X db n = .error f) (σ : HashOrder XOnlyPublicKey) :
    finalizeRewards X σ db n = .error f := by
  unfold collectedAmounts at hl
  unfold finalizeRewards
  cases hiter : iterRewardCandidateInfo X db n with
  | error g =>
    rw [hiter, error_bind] at hl
    cases hl
    exact error_bind _ _
  | ok candidates =>
    rw [hiter, ok_bind] at hl
    rw [ok_bind]
    cases hamounts : traverseList (fun c => getOrInitRewardAmounts X db c.1 c.2) candidates with
    | error g =>
      rw [hamounts, error_bind] at hl
      cases hl
      exact error_bind _ _
    | ok amounts =>
      rw [hamounts] at hl
      cases hl

/-- The order shows in the stored list as soon as there are two keys. -/
theorem length_keysOf_le_one_of_totals {l : List (XOnlyPublicKey × Amount)}
    (σ : HashOrder XOnlyPublicKey) (h : totals σ l = totals σ.opposite l) :
    (keysOf l).length ≤ 1 := by
  refine length_keysOf_le_one_of_opposite σ ?_
  have hkeys : σ.order (keysOf l) = σ.opposite.order (keysOf l) := by
    have hfst := congrArg (List.map Prod.fst) h
    simpa [totals, grouped, Function.comp_def] using hfst
  rw [grouped, grouped, hkeys]

variable (X c) in
/-- Two nodes that end a block on the same database store the same result, and answer alike. -/
def RewardsAgree (db : HeedDb) (h snapshot : Nat) : Prop :=
  ∀ σ τ : HashOrder XOnlyPublicKey,
    getSnapshotResult ((updateAfterBlock X c σ h db).store db) snapshot =
      getSnapshotResult ((updateAfterBlock X c τ h db).store db) snapshot ∧
    getRewardedCollaterals X ((updateAfterBlock X c σ h db).store db) snapshot =
      getRewardedCollaterals X ((updateAfterBlock X c τ h db).store db) snapshot

variable (X) in
/-- The database at the end of a snapshot, whose candidates are there already unless the
snapshot has one block only. -/
def candidatesStored (db : HeedDb) (snapshot start stop : Nat) : HeedDb :=
  if stop = start then storeCandidates X db snapshot start stop else db

theorem store_finalized (hb : c.snapshotBoundariesFromHeight h = some (n, start, h))
    {σ : HashOrder XOnlyPublicKey} {db' : HeedDb}
    (hok : finalizeRewards X σ (candidatesStored X db n start h) n = .ok db') :
    (updateAfterBlock X c σ h db).store db = db' := by
  have hopened : candidatesStored X db n start h =
      if h = start then storeCandidates X db n start h else db := rfl
  rw [store_updateAfterBlock hb hopened]
  exact store_endSnapshot_of_ok hok

theorem store_of_finalizeRewards_eq (hb : c.snapshotBoundariesFromHeight h = some (n, start, h))
    {σ τ : HashOrder XOnlyPublicKey}
    (heq : finalizeRewards X σ (candidatesStored X db n start h) n =
      finalizeRewards X τ (candidatesStored X db n start h) n) :
    (updateAfterBlock X c σ h db).store db = (updateAfterBlock X c τ h db).store db := by
  have hopened : candidatesStored X db n start h =
      if h = start then storeCandidates X db n start h else db := rfl
  rw [store_updateAfterBlock hb hopened, store_updateAfterBlock hb hopened]
  simp only [endSnapshot, if_true, Proc.read_bind, heq]

theorem getSnapshotResult_put (r : SnapshotResult) :
    getSnapshotResult (db.putSnapshotResult n r) n = some r :=
  Table.get_put_self _ _ _

/-- All nodes store the same rewards at the end of a snapshot exactly if no two keys are
rewarded in it, or nothing is stored because the amounts of the candidates cannot be read or
are too large for one sum. -/
theorem rewards_agree_iff (hb : c.snapshotBoundariesFromHeight h = some (n, start, h)) :
    RewardsAgree X c db h n ↔ ∀ l, collectedAmounts X (candidatesStored X db n start h) n = .ok l →
      (l.map Prod.snd).sum < amountBound → (keysOf l).length ≤ 1 := by
  constructor
  · intro hagree l hl hsum
    have hstored := (hagree (.listed _) (HashOrder.listed _).opposite).1
    rw [store_finalized hb (finalizeRewards_of_fits hl hsum _),
      store_finalized hb (finalizeRewards_of_fits hl hsum _), getSnapshotResult_put,
      getSnapshotResult_put] at hstored
    exact length_keysOf_le_one_of_totals _
      (congrArg SnapshotResult.rewardsList (Option.some.inj hstored))
  · intro hone σ τ
    have hstore : (updateAfterBlock X c σ h db).store db =
        (updateAfterBlock X c τ h db).store db := by
      apply store_of_finalizeRewards_eq hb
      cases hl : collectedAmounts X (candidatesStored X db n start h) n with
      | error f => rw [finalizeRewards_of_error hl, finalizeRewards_of_error hl]
      | ok l =>
        by_cases hsum : (l.map Prod.snd).sum < amountBound
        · rw [finalizeRewards_of_fits hl hsum, finalizeRewards_of_fits hl hsum, totals, totals,
            grouped_eq_of_length_le_one σ τ (hone l hl hsum)]
        · rw [finalizeRewards_panics hl hsum, finalizeRewards_panics hl hsum]
    rw [hstore]
    exact ⟨rfl, rfl⟩

namespace Shared

open Solo

/-- A table with one candidate, which has the given rewards. -/
def candidateDb (rewards : List (XOnlyPublicKey × Amount)) : HeedDb :=
  HeedDb.empty.putRewardCandidateInfo readingLibrary 0 (.fromTxid20 neighbour) ⟨0, some rewards⟩

theorem collectedAmounts_candidateDb :
    (collectedAmounts readingLibrary
      (candidatesStored readingLibrary (candidateDb [(key, 5)]) 0 10 11) 0).toOption =
        some [(key, 5)] :=
  of_decide_eq_true (by decide +kernel)

theorem rewards_agree_on_one_key :
    RewardsAgree readingLibrary config (candidateDb [(key, 5)]) 11 0 := by
  have hlast : config.snapshotBoundariesFromHeight 11 = some (0, 10, 11) := rfl
  refine (rewards_agree_iff hlast).mpr ?_
  intro l hl _
  have hread := collectedAmounts_candidateDb
  rw [hl] at hread
  rw [Option.some.inj hread]
  decide

/-- Two validators of one subnet. -/
theorem rewards_disagree : ¬ ∀ (X : Library) (c : RewardConfig) (db : HeedDb) (n start h : Nat),
    c.snapshotBoundariesFromHeight h = some (n, start, h) → RewardsAgree X c db h n := by
  intro hall
  have hagree := hall readingLibrary config (candidateDb [(key, 5), (bytes32 2, 7)]) 0 10 11 rfl
  have hstored := (hagree (.listed _) (.reversed _)).1
  have hdiffer : getSnapshotResult ((updateAfterBlock readingLibrary config (.listed _) 11
      (candidateDb [(key, 5), (bytes32 2, 7)])).store (candidateDb [(key, 5), (bytes32 2, 7)])) 0 ≠
    getSnapshotResult ((updateAfterBlock readingLibrary config (.reversed _) 11
      (candidateDb [(key, 5), (bytes32 2, 7)])).store (candidateDb [(key, 5), (bytes32 2, 7)])) 0 :=
    of_decide_eq_true (by decide +kernel)
  exact hdiffer hstored

end Shared

end Rewards
