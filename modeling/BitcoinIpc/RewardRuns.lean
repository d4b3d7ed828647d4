import BitcoinIpc.Runs
import BitcoinIpc.RewardCandidates

/-!
# Reward snapshots

Runs of the monitor as the reward tracker sees them: in each block the subnets
change, every checkpoint is followed by a call of the tracker, and so is the
block itself. What a snapshot rewards is stated over such a run: each key gets,
from each subnet that lives through the whole snapshot, its lowest collateral
over the committees that were active from the end of the first block on.
-/

namespace Rewards

open Faults Bytes Chain Messages Crates Multisig Db Grouping Commits OrderedTable PartialMaps
open Monitor

/-- What the monitor writes: a checkpoint, or anything else. -/
inductive Occurrence where
  | other
  | checkpoint (s : SubnetId) (record : SubnetCheckpoint)

section Runs

variable (X : Library)

/-- The height at which a subnet was bootstrapped. -/
def genesisHeight (db : HeedDb) (s : SubnetId) : Option Nat :=
  (db.getSubnetGenesisInfo X s).bind (·.genesisBlockHeight)

/-- A subnet that keeps its committee, and is not killed. -/
structure Stays (s s' : SubnetState) : Prop where
  number : s'.committeeNumber = s.committeeNumber
  committee : s'.committee = s.committee
  killed : ∀ k, s'.killed = .killed k ↔ s.killed = .killed k

/-- A checkpoint of block `h` is signed by the current committee and goes on with it or with
the next one; a kill checkpoint kills the subnet. -/
structure Checkpointed (h : Nat) (r : SubnetCheckpoint) (s s' : SubnetState) : Prop where
  signed : r.signedCommitteeNumber = s.committeeNumber
  rotation : (r.nextCommitteeNumber = r.signedCommitteeNumber ∧
      s'.committeeNumber = s.committeeNumber ∧ s'.committee = s.committee) ∨
    (r.nextCommitteeNumber = r.signedCommitteeNumber + 1 ∧
      s'.committeeNumber = r.nextCommitteeNumber)
  killed : ∀ k, s'.killed = .killed k ↔
    if r.isKillCheckpoint then k = h else s.killed = .killed k

/-- What an occurrence of block `h` does to a subnet. -/
def Moves (h : Nat) (s s' : SubnetState) : Occurrence → Prop
  | .other => Stays s s'
  | .checkpoint i r => if i = s.id then Checkpointed h r s s' else Stays s s'

/-- The records of the subnets at height `h`: each was bootstrapped, its committee is in the
table of committees and has distinct keys. -/
structure Kept (h : Nat) (db : HeedDb) : Prop where
  stored : ∀ k s, db.subnetDb.get k = some s →
    (∃ t, s.id = .fromTxid20 t) ∧ k = subnetStateKey X s.id
  genesis : ∀ i s, db.getSubnetState X i = some s → ∃ g b,
    db.getSubnetGenesisInfo X i = some g ∧ g.genesisBlockHeight = some b ∧
    g.createMsgBlockHeight ≤ b ∧ b ≤ h
  killed : ∀ i s k, db.getSubnetState X i = some s → s.killed = .killed k → k ≤ h
  committee : ∀ i s, db.getSubnetState X i = some s →
    db.getCommittee X i s.committeeNumber = some s.committee
  distinct : ∀ i s, db.getSubnetState X i = some s →
    (s.committee.validators.map (·.pubkey)).Nodup

/-- An occurrence of block `h` as the database records it. Subnets go on, those that are new
are bootstrapped in this block, and committees stay in their table. -/
structure Saves (h : Nat) (db : HeedDb) (o : Occurrence) (db' : HeedDb) : Prop where
  kept : Kept X h db'
  candidates : db'.rewardCandidatesDb = db.rewardCandidatesDb
  committees : ∀ i n c, db.getCommittee X i n = some c → db'.getCommittee X i n = some c
  continues : ∀ i s, db.getSubnetState X i = some s → ∃ s', db'.getSubnetState X i = some s' ∧
    genesisHeight X db' i = genesisHeight X db i ∧ Moves h s s' o
  started : ∀ i s', db'.getSubnetState X i = some s' → db.getSubnetState X i = none →
    genesisHeight X db' i = some h ∧ ∀ k, s'.killed ≠ .killed k

variable (c : RewardConfig)

/-- The call of the tracker after an occurrence. -/
def tracked (h : Nat) (db : HeedDb) : Occurrence → HeedDb
  | .other => db
  | .checkpoint s r => (updateAfterCheckpoint X c h s r db).store db

def Occurs (h : Nat) (db : HeedDb) (o : Occurrence) (db' : HeedDb) : Prop :=
  ∃ saved, Saves X h db o saved ∧ db' = tracked X c h saved o

/-- The occurrences of a block, each with the database after it, and the order in which the
tracker goes over its map. -/
structure BlockRun where
  occurrences : List (Occurrence × HeedDb)
  order : HashOrder XOnlyPublicKey

/-- The database after a block: the tracker is called once more. -/
def BlockRun.close (b : BlockRun) (h : Nat) (db : HeedDb) : HeedDb :=
  let last := lastStore db b.occurrences
  (updateAfterBlock X c b.order h last).store last

/-- The blocks from height `h` on. -/
def Run : Nat → HeedDb → List BlockRun → Prop
  | _, _, [] => True
  | h, db, b :: rest => Trail (Occurs X c h) db b.occurrences ∧ Run (h + 1) (b.close X c h db) rest

def runEnd : Nat → HeedDb → List BlockRun → HeedDb
  | _, db, [] => db
  | h, db, b :: rest => runEnd (h + 1) (b.close X c h db) rest

end Runs

section Specification

variable (X : Library)

/-- The databases from the end of the first block on. -/
def moments (db : HeedDb) (first : BlockRun) (rest : List BlockRun) : List HeedDb :=
  lastStore db first.occurrences :: rest.flatMap (fun b => b.occurrences.map Prod.snd)

def activeCommittees (ms : List HeedDb) (s : SubnetId) : List SubnetCommittee :=
  ms.filterMap (fun db => (db.getSubnetState X s).map (·.committee))

/-- The lowest collateral of a key over the active committees, when all of them hold some. -/
def rewardIn (ms : List HeedDb) (s : SubnetId) (pubkey : XOnlyPublicKey) : Option Amount :=
  leastOf ((activeCommittees X ms s).map (fun c => collateralIn c pubkey))

/-- Bootstrapped up to the first block and not killed up to the last one. -/
def eligible (db : HeedDb) (start stop : Nat) (s : SubnetState) : Bool :=
  (genesisHeight X db s.id).any (fun b => b ≤ start) &&
  (match s.killed with
    | .killed k => stop < k
    | _ => true)

def eligibleSubnets (db : HeedDb) (start stop : Nat) : List SubnetState :=
  db.getAllSubnets.filter (eligible X db start stop)

/-- What a key gets, subnet by subnet. -/
def contributions (ms : List HeedDb) (db : HeedDb) (start stop : Nat)
    (pubkey : XOnlyPublicKey) : List Amount :=
  (eligibleSubnets X db start stop).filterMap (fun s => rewardIn X ms s.id pubkey)

/-- What the validators of a subnet get. -/
def subnetReward (ms : List HeedDb) (s : SubnetState) : Amount :=
  (s.committee.validators.filterMap (fun v => rewardIn X ms s.id v.pubkey)).sum

def totalReward (ms : List HeedDb) (db : HeedDb) (start stop : Nat) : Amount :=
  ((eligibleSubnets X db start stop).map (subnetReward X ms)).sum

end Specification

variable {X : Library} {c : RewardConfig}

/-- The tracker writes its results, and the candidates under some keys. -/
def WritesAt (P : Key → Prop) (db db' : HeedDb) : Prop :=
  ∃ t r, db' = { db with rewardCandidatesDb := t, rewardResultsDb := r } ∧
    ∀ k, ¬ P k → t.get k = db.rewardCandidatesDb.get k

theorem WritesAt.refl (P : Key → Prop) (db : HeedDb) : WritesAt P db db :=
  ⟨_, _, rfl, fun _ _ => rfl⟩

theorem WritesAt.trans {P : Key → Prop} {db₁ db₂ db₃ : HeedDb} (h : WritesAt P db₁ db₂)
    (h' : WritesAt P db₂ db₃) : WritesAt P db₁ db₃ := by
  obtain ⟨t, r, rfl, ht⟩ := h
  obtain ⟨t', r', rfl, ht'⟩ := h'
  exact ⟨t', r', rfl, fun k hk => (ht' k hk).trans (ht k hk)⟩

theorem WritesAt.mono {P Q : Key → Prop} {db db' : HeedDb} (h : WritesAt P db db')
    (hPQ : ∀ k, P k → Q k) : WritesAt Q db db' := by
  obtain ⟨t, r, rfl, ht⟩ := h
  exact ⟨t, r, rfl, fun k hk => ht k (fun hP => hk (hPQ k hP))⟩

theorem WritesAt.sameButRewards {P : Key → Prop} {db db' : HeedDb} (h : WritesAt P db db') :
    SameButRewards db db' := by
  obtain ⟨t, r, rfl, -⟩ := h
  exact ⟨t, r, rfl⟩

theorem WritesAt.get_eq {P : Key → Prop} {db db' : HeedDb} (h : WritesAt P db db') {k : Key}
    (hk : ¬ P k) : db'.rewardCandidatesDb.get k = db.rewardCandidatesDb.get k := by
  obtain ⟨t, r, rfl, ht⟩ := h
  exact ht k hk

/-- The keys of the candidates of a snapshot. -/
def CandidateKey (m : Nat) (k : Key) : Prop := (rewardCandidatesPrefix m).isPrefixOf k = true

theorem candidateKey (m : Nat) (i : SubnetId) : CandidateKey m (rewardCandidateKey X m i) := by
  rw [CandidateKey, isPrefixOf_rewardCandidateKey, decide_eq_true_iff]

theorem writesAt_put (m : Nat) (db : HeedDb) (i : SubnetId) (info : SubnetRewardInfo) :
    WritesAt (fun k => k = rewardCandidateKey X m i) db
      (db.putRewardCandidateInfo X m i info) :=
  ⟨_, _, rfl, fun _ hk => Table.get_put_of_ne _ _ hk⟩

theorem writesAt_delete (m : Nat) (db : HeedDb) (i : SubnetId) :
    WritesAt (fun k => k = rewardCandidateKey X m i) db
      (db.deleteRewardCandidateInfo X m i) := by
  refine ⟨_, _, rfl, fun k hk => ?_⟩
  rw [Table.get_delete, if_neg hk]

theorem writesAt_storeCandidates (m start stop : Nat) (db : HeedDb) :
    WritesAt (CandidateKey m) db (storeCandidates X db m start stop) := by
  have hfold : ∀ (l : List SubnetState) (db : HeedDb), WritesAt (CandidateKey m) db (l.foldl
      (fun db s => db.putRewardCandidateInfo X m s.id ⟨s.committeeNumber, none⟩) db) := by
    intro l
    induction l with
    | nil => exact fun db => WritesAt.refl _ db
    | cons s rest ih =>
      intro db
      refine ((writesAt_put m db s.id _).mono ?_).trans (ih _)
      rintro k rfl
      exact candidateKey m s.id
  exact hfold _ db

theorem rotateCandidate_eq_ok {db db' : HeedDb} {m number : Nat} {i : SubnetId}
    {info : SubnetRewardInfo} :
    rotateCandidate X db m i number info = .ok db' ↔
      ∃ l c', getOrInitRewardAmounts X db i info = .ok l ∧ db.getCommittee X i number = some c' ∧
        db.putRewardCandidateInfo X m i
          ⟨number, some (lowerRewards l (positiveCollaterals c'))⟩ = db' := by
  simp only [rotateCandidate, bind_eq_ok, okOr_eq_ok, pure_eq, Except.ok.injEq]
  constructor
  · rintro ⟨l, hl, c', hc', hdb⟩
    exact ⟨l, c', hl, hc', hdb⟩
  · rintro ⟨l, c', hl, hc', hdb⟩
    exact ⟨l, hl, c', hc', hdb⟩

theorem writesAt_rotateRewards (m : Nat) (i : SubnetId) (number : Nat) (db : HeedDb) :
    WritesAt (fun k => k = rewardCandidateKey X m i) db ((rotateRewards X m i number db).store db) := by
  simp only [rotateRewards, Proc.read_bind]
  cases db.getRewardCandidateInfo X m i with
  | none => exact WritesAt.refl _ db
  | some info =>
    by_cases hn : number = info.mostRecentCommitteeNumber
    · simp only [if_pos hn]
      exact WritesAt.refl _ db
    · simp only [if_neg hn]
      cases hr : rotateCandidate X db m i number info with
      | error e => exact WritesAt.refl _ db
      | ok db' =>
        obtain ⟨l, c', -, -, rfl⟩ := rotateCandidate_eq_ok.mp hr
        exact writesAt_put m db i _

theorem writesAt_updateAfterCheckpoint {h m start stop : Nat}
    (hb : c.snapshotBoundariesFromHeight h = some (m, start, stop)) (i : SubnetId)
    (r : SubnetCheckpoint) (db : HeedDb) :
    WritesAt (fun k => k = rewardCandidateKey X m i) db
      ((updateAfterCheckpoint X c h i r db).store db) := by
  simp only [updateAfterCheckpoint, hb]
  split_ifs
  · exact WritesAt.refl _ db
  · exact writesAt_delete m db i
  · exact WritesAt.refl _ db
  · exact writesAt_rotateRewards m i _ db

/-- The end of a block: at the first height of a snapshot the candidates are stored, and then,
at the last one, the rewards. -/
theorem store_updateAfterBlock {σ : HashOrder XOnlyPublicKey} {h m start stop : Nat}
    (hb : c.snapshotBoundariesFromHeight h = some (m, start, stop)) {db opened : HeedDb}
    (hopened : opened = if h = start then storeCandidates X db m start stop else db) :
    (updateAfterBlock X c σ h db).store db =
      (endSnapshot X σ m stop h opened).store opened := by
  simp only [updateAfterBlock, hb]
  by_cases hstart : h = start
  · rw [if_pos hstart] at hopened
    have hfirst : startSnapshot X m start stop h db = ⟨[opened], .ok ()⟩ := by
      simp only [startSnapshot, if_pos hstart, Proc.read_bind, hopened]
      rfl
    rw [Proc.bind_ok (a := ()) (by rw [hfirst]), hfirst]
    simp only [Trace.store, List.singleton_append, List.getLastD_cons]
    rfl
  · rw [if_neg hstart] at hopened
    have hfirst : startSnapshot X m start stop h db = ⟨[], .ok ()⟩ := by
      simp only [startSnapshot, if_neg hstart]
      rfl
    rw [Proc.bind_ok (a := ()) (by rw [hfirst]), hfirst, hopened]
    rfl

theorem store_endSnapshot_of_ne {σ : HashOrder XOnlyPublicKey} {h m stop : Nat} (hne : h ≠ stop)
    (db : HeedDb) : (endSnapshot X σ m stop h db).store db = db := by
  simp only [endSnapshot, if_neg hne]
  rfl

theorem store_endSnapshot_of_ok {σ : HashOrder XOnlyPublicKey} {m stop : Nat} {db db' : HeedDb}
    (hok : finalizeRewards X σ db m = .ok db') :
    (endSnapshot X σ m stop stop db).store db = db' := by
  simp only [endSnapshot, if_true, Proc.read_bind, hok]
  rfl

theorem writesAt_endSnapshot (σ : HashOrder XOnlyPublicKey) (m stop h : Nat) (db : HeedDb) :
    WritesAt (CandidateKey m) db ((endSnapshot X σ m stop h db).store db) := by
  by_cases hstop : h = stop
  · subst hstop
    cases hr : finalizeRewards X σ db m with
    | error e =>
      simp only [endSnapshot, if_true, Proc.read_bind, hr]
      exact WritesAt.refl _ db
    | ok db' =>
      rw [store_endSnapshot_of_ok hr]
      obtain ⟨_, -, hr⟩ := bind_eq_ok.mp hr
      obtain ⟨_, -, hr⟩ := bind_eq_ok.mp hr
      obtain ⟨_, -, hr⟩ := bind_eq_ok.mp hr
      obtain ⟨_, -, hr⟩ := bind_eq_ok.mp hr
      cases hr
      exact ⟨_, _, rfl, fun _ _ => rfl⟩
  · rw [store_endSnapshot_of_ne hstop]
    exact WritesAt.refl _ db

theorem writesAt_updateAfterBlock {h m start stop : Nat}
    (hb : c.snapshotBoundariesFromHeight h = some (m, start, stop)) (σ : HashOrder XOnlyPublicKey)
    (db : HeedDb) : WritesAt (CandidateKey m) db ((updateAfterBlock X c σ h db).store db) := by
  rw [store_updateAfterBlock hb rfl]
  refine WritesAt.trans ?_ (writesAt_endSnapshot σ m stop h _)
  split_ifs
  · exact writesAt_storeCandidates m start stop db
  · exact WritesAt.refl _ db

theorem Kept.mono {h h' : Nat} {db : HeedDb} (hk : Kept X h db) (hle : h ≤ h') : Kept X h' db where
  stored := hk.stored
  genesis := by
    intro i s hs
    obtain ⟨g, b, hg, hb, hcreate, hbh⟩ := hk.genesis i s hs
    exact ⟨g, b, hg, hb, hcreate, hbh.trans hle⟩
  killed := fun i s k hs hkill => (hk.killed i s k hs hkill).trans hle
  committee := hk.committee
  distinct := hk.distinct

theorem Kept.of_sameButRewards {h : Nat} {db db' : HeedDb} (hk : Kept X h db)
    (hsame : SameButRewards db db') : Kept X h db' := by
  obtain ⟨t, r, rfl⟩ := hsame
  exact ⟨hk.stored, hk.genesis, hk.killed, hk.committee, hk.distinct⟩

theorem Kept.id_eq (laws : DisplayLaws X) {h : Nat} {db : HeedDb} (hk : Kept X h db)
    {i : SubnetId} {s : SubnetState} (hs : db.getSubnetState X i = some s) : s.id = i :=
  (subnetKey_injective laws _ (hk.stored _ s hs).2).symm

theorem Kept.mem_getAllSubnets {h : Nat} {db : HeedDb} (hk : Kept X h db) {s : SubnetState} :
    s ∈ db.getAllSubnets ↔ db.getSubnetState X s.id = some s := by
  rw [HeedDb.getAllSubnets, Table.mem_scan_iff]
  constructor
  · rintro ⟨k, -, hget⟩
    rw [(hk.stored k s hget).2] at hget
    exact hget
  · intro hget
    exact ⟨_, isPrefixOf_subnetStateKey X s.id, hget⟩

theorem Kept.ids_nodup {h : Nat} {db : HeedDb} (hk : Kept X h db) :
    (db.getAllSubnets.map (·.id)).Nodup := by
  rw [HeedDb.getAllSubnets, Table.scan, List.map_map, List.Nodup, List.pairwise_map]
  have hsorted : (db.subnetDb.scanEntries (fun k => allSubnetsPrefix.isPrefixOf k)).Pairwise
      (fun a b => a.1 < b.1) := db.subnetDb.sorted.filter _
  refine (List.Pairwise.and_mem.mp hsorted).imp ?_
  rintro a b ⟨ha, hb, hlt⟩ heq
  have hkey : ∀ e ∈ db.subnetDb.scanEntries (fun k => allSubnetsPrefix.isPrefixOf k),
      e.1 = subnetStateKey X e.2.id := by
    intro e he
    exact (hk.stored e.1 e.2 ((Table.get_eq_some_iff _).mpr (List.mem_filter.mp he).1)).2
  rw [hkey a ha, hkey b hb] at hlt
  rw [show a.2.id = b.2.id from heq] at hlt
  exact lt_irrefl _ hlt

/-- No candidate of the snapshot is stored yet. -/
def Unopened (n : Nat) (db : HeedDb) : Prop :=
  ∀ k, (rewardCandidatesPrefix n).isPrefixOf k = true → db.rewardCandidatesDb.get k = none

theorem Unopened.writesAt {n m : Nat} {db db' : HeedDb} (hu : Unopened n db)
    (hw : WritesAt (CandidateKey m) db db') (hne : m ≠ n) : Unopened n db' := by
  intro k hk
  exact (hw.get_eq (fun hm => hne (eq_of_isPrefixOf hm hk))).trans (hu k hk)

theorem snapshot_ne_of_lt {h m start stop n start' stop' : Nat}
    (hb : c.snapshotBoundariesFromHeight h = some (m, start, stop))
    (hb' : c.snapshotBoundariesFromHeight start' = some (n, start', stop')) (hlt : h < start') :
    m ≠ n := by
  rintro rfl
  simp only [RewardConfig.snapshotBoundariesFromHeight] at hb hb'
  split_ifs at hb hb' with h₁ h₂
  simp only [Option.some.injEq, Prod.mk.injEq] at hb hb'
  obtain ⟨hm, hs, -⟩ := hb
  obtain ⟨hm', hs', -⟩ := hb'
  have hle := Nat.div_mul_le_self (h - c.activationHeight) c.snapshotLength
  rw [hm] at hle
  rw [hm'] at hs'
  omega

section Before

variable {n start stop : Nat} (hb : c.snapshotBoundariesFromHeight start = some (n, start, stop))
include hb

theorem unopened_updateAfterCheckpoint {h : Nat} {db : HeedDb} (hu : Unopened n db)
    (hle : h ≤ start) (i : SubnetId) (r : SubnetCheckpoint) :
    Unopened n ((updateAfterCheckpoint X c h i r db).store db) := by
  rcases lt_or_eq_of_le hle with hlt | rfl
  · cases hbh : c.snapshotBoundariesFromHeight h with
    | none =>
      simp only [updateAfterCheckpoint, hbh]
      exact hu
    | some b =>
      refine hu.writesAt ((writesAt_updateAfterCheckpoint hbh i r db).mono ?_)
        (snapshot_ne_of_lt hbh hb hlt)
      rintro k rfl
      exact candidateKey b.1 i
  · simp only [updateAfterCheckpoint, hb, if_true]
    exact hu

theorem unopened_updateAfterBlock {h : Nat} {db : HeedDb} (hu : Unopened n db) (hlt : h < start)
    (σ : HashOrder XOnlyPublicKey) : Unopened n ((updateAfterBlock X c σ h db).store db) := by
  cases hbh : c.snapshotBoundariesFromHeight h with
  | none =>
    simp only [updateAfterBlock, hbh]
    exact hu
  | some b => exact hu.writesAt (writesAt_updateAfterBlock hbh σ db) (snapshot_ne_of_lt hbh hb hlt)

end Before

theorem sameButRewards_updateAfterBlock (σ : HashOrder XOnlyPublicKey) (h : Nat) (db : HeedDb) :
    SameButRewards db ((updateAfterBlock X c σ h db).store db) := by
  cases hbh : c.snapshotBoundariesFromHeight h with
  | none =>
    simp only [updateAfterBlock, hbh]
    exact ⟨_, _, rfl⟩
  | some b => exact (writesAt_updateAfterBlock hbh σ db).sameButRewards

theorem sameButRewards_tracked (h : Nat) (db : HeedDb) (o : Occurrence) :
    SameButRewards db (tracked X c h db o) := by
  cases o with
  | other => exact ⟨_, _, rfl⟩
  | checkpoint i r =>
    cases hbh : c.snapshotBoundariesFromHeight h with
    | none =>
      simp only [tracked, updateAfterCheckpoint, hbh]
      exact ⟨_, _, rfl⟩
    | some b => exact (writesAt_updateAfterCheckpoint hbh i r db).sameButRewards

theorem Occurs.kept {h : Nat} {db db' : HeedDb} {o : Occurrence} (ho : Occurs X c h db o db') :
    Kept X h db' := by
  obtain ⟨saved, hsaves, rfl⟩ := ho
  exact hsaves.kept.of_sameButRewards (sameButRewards_tracked h saved o)

section Before

variable {n start stop : Nat} (hb : c.snapshotBoundariesFromHeight start = some (n, start, stop))
include hb

theorem Occurs.unopened {h : Nat} {db db' : HeedDb} {o : Occurrence}
    (ho : Occurs X c h db o db') (hle : h ≤ start) (hu : Unopened n db) : Unopened n db' := by
  obtain ⟨saved, hsaves, rfl⟩ := ho
  have hsaved : Unopened n saved := by
    intro k hk
    rw [hsaves.candidates]
    exact hu k hk
  cases o with
  | other => exact hsaved
  | checkpoint i r => exact unopened_updateAfterCheckpoint hb hsaved hle i r

theorem unopened_trail {h : Nat} {db : HeedDb} {l : List (Occurrence × HeedDb)}
    (hl : Trail (Occurs X c h) db l) (hle : h ≤ start) (hk : Kept X h db) (hu : Unopened n db) :
    Kept X h (lastStore db l) ∧ Unopened n (lastStore db l) := by
  induction l generalizing db with
  | nil => exact ⟨hk, hu⟩
  | cons a rest ih =>
    obtain ⟨o, db'⟩ := a
    rw [lastStore_cons]
    exact ih hl.2 hl.1.kept (hl.1.unopened hb hle hu)

/-- Before the first block of a snapshot, none of its candidates is stored. -/
theorem unopened_run {h : Nat} {db : HeedDb} {blocks : List BlockRun} (hrun : Run X c h db blocks)
    (hle : h + blocks.length ≤ start) (hk : Kept X h db) (hu : Unopened n db) :
    Kept X (h + blocks.length) (runEnd X c h db blocks) ∧
      Unopened n (runEnd X c h db blocks) := by
  induction blocks generalizing h db with
  | nil => exact ⟨hk, hu⟩
  | cons b rest ih =>
    rw [List.length_cons] at hle ⊢
    obtain ⟨hlast, hulast⟩ := unopened_trail hb hrun.1 (by omega) hk hu
    have hkept : Kept X (h + 1) (b.close X c h db) :=
      (hlast.of_sameButRewards (sameButRewards_updateAfterBlock b.order h _)).mono (Nat.le_succ h)
    have hunopened : Unopened n (b.close X c h db) :=
      unopened_updateAfterBlock hb hulast (by omega) b.order
    have hend := ih hrun.2 (by omega) hkept hunopened
    rw [show h + (rest.length + 1) = h + 1 + rest.length from by omega]
    exact hend

end Before

section Within

variable (X) in
/-- A subnet is a candidate while it is eligible; its info has the number of its committee, which
is the last of the active ones, and leads to the amounts of all of them. -/
structure TracksSubnet (n start stop : Nat) (ms : List HeedDb) (db : HeedDb) (i : SubnetId)
    (s : SubnetState) : Prop where
  candidate_iff : (db.getRewardCandidateInfo X n i).isSome = true ↔
    eligible X db start stop s = true
  amounts : ∀ info, db.getRewardCandidateInfo X n i = some info →
    info.mostRecentCommitteeNumber = s.committeeNumber ∧
    (activeCommittees X ms i).getLast? = some s.committee ∧
    ∃ l, getOrInitRewardAmounts X db i info = .ok l ∧ Represents l (rewardIn X ms i)

variable (X) in
structure Tracks (n start stop : Nat) (ms : List HeedDb) (db : HeedDb) : Prop where
  kept : Kept X stop db
  keys : ∀ k info, CandidateKey n k → db.rewardCandidatesDb.get k = some info →
    ∃ i s, k = rewardCandidateKey X n i ∧ db.getSubnetState X i = some s
  subnets : ∀ i s, db.getSubnetState X i = some s → TracksSubnet X n start stop ms db i s

theorem activeCommittees_snoc {ms : List HeedDb} {db : HeedDb} {i : SubnetId} {s : SubnetState}
    (hs : db.getSubnetState X i = some s) :
    activeCommittees X (ms ++ [db]) i = activeCommittees X ms i ++ [s.committee] := by
  rw [activeCommittees, List.filterMap_append, List.filterMap_cons, hs]
  rfl

/-- A database in which the committee did not change. -/
theorem rewardIn_snoc_same {ms : List HeedDb} {db : HeedDb} {i : SubnetId} {s : SubnetState}
    (hs : db.getSubnetState X i = some s)
    (hlast : (activeCommittees X ms i).getLast? = some s.committee) (pubkey : XOnlyPublicKey) :
    rewardIn X (ms ++ [db]) i pubkey = rewardIn X ms i pubkey := by
  rw [rewardIn, activeCommittees_snoc hs, List.map_append]
  refine leastOf_snoc_getLast ?_
  rw [List.getLast?_map, hlast]
  rfl

theorem rewardIn_snoc {ms : List HeedDb} {db : HeedDb} {i : SubnetId} {s : SubnetState}
    (hs : db.getSubnetState X i = some s) (hne : activeCommittees X ms i ≠ [])
    (pubkey : XOnlyPublicKey) :
    rewardIn X (ms ++ [db]) i pubkey =
      meet (rewardIn X ms i pubkey) (collateralIn s.committee pubkey) := by
  rw [rewardIn, activeCommittees_snoc hs, List.map_append]
  refine leastOf_snoc ?_ _
  simpa using hne

/-- On well-kept records, a subnet is active when it is eligible. -/
theorem isActive_eq_eligible {h start stop : Nat} {db : HeedDb} (hk : Kept X h db)
    {s : SubnetState} (hs : db.getSubnetState X s.id = some s) :
    isActive X db start stop s = eligible X db start stop s := by
  obtain ⟨g, b, hg, hgb, hcreate, -⟩ := hk.genesis s.id s hs
  have hheight : genesisHeight X db s.id = some b := by
    rw [genesisHeight, hg]
    exact hgb
  rw [isActive, eligible, hg, hheight]
  simp only [hgb, Option.any_some]
  by_cases hbs : b ≤ start
  · cases s.killed <;> simp [hbs, hcreate.trans hbs]
  · simp [hbs]

/-- The first block of a snapshot makes the eligible subnets candidates, and no others. -/
theorem candidates_stored (laws : DisplayLaws X) {n start : Nat} (stop : Nat) {db : HeedDb}
    (hk : Kept X start db) (hu : Unopened n db) :
    (∀ i s, db.getSubnetState X i = some s → eligible X db start stop s = true →
      (storeCandidates X db n start stop).getRewardCandidateInfo X n i =
        some ⟨s.committeeNumber, none⟩) ∧
    ∀ k info, CandidateKey n k →
      (storeCandidates X db n start stop).rewardCandidatesDb.get k = some info →
      ∃ s, rewardCandidateKey X n s.id = k ∧ db.getSubnetState X s.id = some s ∧
        eligible X db start stop s = true := by
  set active := getAllActiveSubnets X db start stop with hactive
  have hmem : ∀ s, s ∈ active ↔ db.getSubnetState X s.id = some s ∧
      eligible X db start stop s = true := by
    intro s
    rw [hactive, getAllActiveSubnets, List.mem_filter, hk.mem_getAllSubnets]
    refine and_congr_right (fun hs => ?_)
    rw [isActive_eq_eligible hk hs]
  have hnodup : (active.map (·.id)).Nodup := hk.ids_nodup.sublist (List.filter_sublist.map _)
  obtain ⟨hother, hown⟩ := get_putCandidates laws n active db
  constructor
  · intro i s hs he
    have hid := hk.id_eq laws hs
    rw [← hid] at hs ⊢
    exact hown hnodup s ((hmem s).mpr ⟨hs, he⟩)
  · intro k info hprefix hget
    by_contra hnone
    have hstored : ∀ s ∈ active, rewardCandidateKey X n s.id ≠ k := by
      intro s hs hkey
      exact hnone ⟨s, hkey, (hmem s).mp hs⟩
    rw [storeCandidates, hother k hstored, hu k hprefix] at hget
    cases hget

/-- The candidates of the first block are tracked. -/
theorem tracks_storeCandidates (laws : DisplayLaws X) {n start stop : Nat} {db : HeedDb}
    (hle : start ≤ stop) (hk : Kept X start db) (hu : Unopened n db) :
    Tracks X n start stop [db] (storeCandidates X db n start stop) := by
  obtain ⟨hinfo, hkeys⟩ := candidates_stored laws stop hk hu
  obtain ⟨t, r, hsame, -⟩ := writesAt_storeCandidates (X := X) n start stop db
  have hstate : ∀ i, (storeCandidates X db n start stop).getSubnetState X i =
      db.getSubnetState X i := by
    intro i
    rw [hsame]
    rfl
  have hcommittee : ∀ i m, (storeCandidates X db n start stop).getCommittee X i m =
      db.getCommittee X i m := by
    intro i m
    rw [hsame]
    rfl
  have heligible : ∀ s, eligible X (storeCandidates X db n start stop) start stop s =
      eligible X db start stop s := by
    intro s
    rw [hsame]
    rfl
  have hcandidate : ∀ i s, db.getSubnetState X i = some s →
      ∀ info, (storeCandidates X db n start stop).getRewardCandidateInfo X n i = some info →
      eligible X db start stop s = true := by
    intro i s hs info hget
    obtain ⟨s', hkey, hs', he⟩ := hkeys _ info (candidateKey n i) hget
    rw [(rewardCandidateKey_inj laws hkey).2, hs] at hs'
    rw [Option.some.inj hs']
    exact he
  constructor
  · exact (hk.mono hle).of_sameButRewards
      (writesAt_storeCandidates (X := X) n start stop db).sameButRewards
  · intro k info hprefix hget
    obtain ⟨s, hkey, hs, -⟩ := hkeys k info hprefix hget
    exact ⟨s.id, s, hkey.symm, by rw [hstate]; exact hs⟩
  · intro i s hs
    rw [hstate] at hs
    refine ⟨⟨fun hsome => ?_, fun he => ?_⟩, fun info hget => ?_⟩
    · obtain ⟨info, hget⟩ := Option.isSome_iff_exists.mp hsome
      rw [heligible]
      exact hcandidate i s hs info hget
    · rw [hinfo i s hs (by rw [← heligible]; exact he)]
      rfl
    rw [hinfo i s hs (hcandidate i s hs info hget)] at hget
    obtain rfl := Option.some.inj hget
    have hactiveCommittees : activeCommittees X [db] i = [s.committee] := by
      simp [activeCommittees, hs]
    refine ⟨rfl, by rw [hactiveCommittees]; rfl, positiveCollaterals s.committee, ?_, ?_⟩
    · simp [getOrInitRewardAmounts, hcommittee, hk.committee i s hs, okOr]
    · refine (positiveCollaterals_represents (hk.distinct i s hs)).congr (fun pubkey => ?_)
      rw [rewardIn, hactiveCommittees]
      rfl

variable {n start stop h : Nat}

/-- What an inner call of the tracker finds and writes. -/
theorem tracked_inside (hb : c.snapshotBoundariesFromHeight h = some (n, start, stop))
    (hne : h ≠ start) (db : HeedDb) (i : SubnetId) (r : SubnetCheckpoint) :
    tracked X c h db (.checkpoint i r) =
      if r.isKillCheckpoint then db.deleteRewardCandidateInfo X n i
      else if r.signedCommitteeNumber = r.nextCommitteeNumber then db
      else (rotateRewards X n i r.nextCommitteeNumber db).store db := by
  simp only [tracked, updateAfterCheckpoint, hb, if_neg hne]
  split_ifs <;> rfl

theorem store_rotateRewards_of_none {db : HeedDb} {i : SubnetId}
    (hnone : db.getRewardCandidateInfo X n i = none) (number : Nat) :
    (rotateRewards X n i number db).store db = db := by
  simp only [rotateRewards, Proc.read_bind, hnone]
  rfl

theorem store_rotateRewards_of_some {db : HeedDb} {i : SubnetId} {info : SubnetRewardInfo}
    {l : List (XOnlyPublicKey × Amount)} {c' : SubnetCommittee} {number : Nat}
    (hinfo : db.getRewardCandidateInfo X n i = some info)
    (hne : number ≠ info.mostRecentCommitteeNumber)
    (hl : getOrInitRewardAmounts X db i info = .ok l)
    (hc' : db.getCommittee X i number = some c') :
    (rotateRewards X n i number db).store db = db.putRewardCandidateInfo X n i
      ⟨number, some (lowerRewards l (positiveCollaterals c'))⟩ := by
  simp only [rotateRewards, Proc.read_bind, hinfo, if_neg hne,
    rotateCandidate_eq_ok.mpr ⟨l, c', hl, hc', rfl⟩]
  rfl

/-- Amounts that are found stay the same while committees stay in their table. -/
theorem getOrInitRewardAmounts_mono {db db' : HeedDb} {i : SubnetId}
    (hc : ∀ n c, db.getCommittee X i n = some c → db'.getCommittee X i n = some c)
    {info : SubnetRewardInfo} {l : List (XOnlyPublicKey × Amount)}
    (hl : getOrInitRewardAmounts X db i info = .ok l) :
    getOrInitRewardAmounts X db' i info = .ok l := by
  rw [getOrInitRewardAmounts] at hl ⊢
  cases hr : info.rewardedAmounts with
  | some l' =>
    rw [hr] at hl
    exact hl
  | none =>
    rw [hr] at hl
    obtain ⟨c', hc', hl⟩ := bind_eq_ok.mp hl
    rw [okOr_eq_ok] at hc'
    refine bind_eq_ok.mpr ⟨c', ?_, hl⟩
    rw [okOr_eq_ok]
    exact hc _ c' hc'

theorem eligible_congr {db db' : HeedDb} {s s' : SubnetState}
    (hheight : genesisHeight X db' s'.id = genesisHeight X db s.id)
    (hkilled : ∀ k, s'.killed = .killed k ↔ s.killed = .killed k) :
    eligible X db' start stop s' = eligible X db start stop s := by
  rw [eligible, eligible, hheight]
  congr 1
  cases hs : s.killed with
  | killed k => rw [(hkilled k).mpr hs]
  | notKilled | toBeKilled =>
    cases hs' : s'.killed with
    | notKilled | toBeKilled => rfl
    | killed k =>
      rw [(hkilled k).mp hs'] at hs
      cases hs

theorem eligible_eq_false_of_killed {db : HeedDb} {s : SubnetState} {k : Nat}
    (hk : s.killed = .killed k) (hle : k ≤ stop) : eligible X db start stop s = false := by
  simp [eligible, hk, hle]

theorem eligible_eq_false_of_late {db : HeedDb} {s : SubnetState} {b : Nat}
    (hb : genesisHeight X db s.id = some b) (hlt : start < b) :
    eligible X db start stop s = false := by
  simp [eligible, hb, hlt]

theorem tracksSubnet_of_none {ms : List HeedDb} {db : HeedDb} {i : SubnetId} {s : SubnetState}
    (hnone : db.getRewardCandidateInfo X n i = none)
    (hnot : eligible X db start stop s = false) : TracksSubnet X n start stop ms db i s where
  candidate_iff := by simp [hnone, hnot]
  amounts := by
    intro info hget
    rw [hnone] at hget
    cases hget

/-- A subnet that keeps its committee, and whose info is not written. -/
theorem TracksSubnet.unchanged {ms : List HeedDb} {db db' : HeedDb} {i : SubnetId}
    {s s' : SubnetState} (ht : TracksSubnet X n start stop ms db i s)
    (hs' : db'.getSubnetState X i = some s')
    (hinfo : db'.getRewardCandidateInfo X n i = db.getRewardCandidateInfo X n i)
    (hheight : genesisHeight X db' s'.id = genesisHeight X db s.id)
    (hc : ∀ n c, db.getCommittee X i n = some c → db'.getCommittee X i n = some c)
    (hstays : Stays s s') : TracksSubnet X n start stop (ms ++ [db']) db' i s' where
  candidate_iff := by
    rw [hinfo, eligible_congr hheight hstays.killed]
    exact ht.candidate_iff
  amounts := by
    intro info hget
    rw [hinfo] at hget
    obtain ⟨hnumber, hlast, l, hl, hrep⟩ := ht.amounts info hget
    rw [← hstays.committee] at hlast
    refine ⟨hnumber.trans hstays.number.symm, ?_, l, getOrInitRewardAmounts_mono hc hl, ?_⟩
    · rw [activeCommittees_snoc hs', List.getLast?_append]
      rfl
    · exact hrep.congr (fun pubkey => (rewardIn_snoc_same hs' hlast pubkey).symm)

/-- A candidate whose committee is rotated. -/
theorem TracksSubnet.rotated {ms : List HeedDb} {db db' : HeedDb} {i : SubnetId}
    {s s' : SubnetState} {info : SubnetRewardInfo} {l : List (XOnlyPublicKey × Amount)}
    (ht : TracksSubnet X n start stop ms db i s)
    (hget : db.getRewardCandidateInfo X n i = some info)
    (hl : getOrInitRewardAmounts X db i info = .ok l)
    (hs' : db'.getSubnetState X i = some s')
    (hinfo : db'.getRewardCandidateInfo X n i = some ⟨s'.committeeNumber,
      some (lowerRewards l (positiveCollaterals s'.committee))⟩)
    (hdistinct : (s'.committee.validators.map (·.pubkey)).Nodup)
    (heligible : eligible X db' start stop s' = eligible X db start stop s) :
    TracksSubnet X n start stop (ms ++ [db']) db' i s' where
  candidate_iff := by
    rw [heligible, ← ht.candidate_iff, hinfo, hget]
    exact Iff.rfl
  amounts := by
    intro info' hget'
    rw [hinfo] at hget'
    obtain rfl := Option.some.inj hget'
    obtain ⟨-, hlast, l', hl', hrep⟩ := ht.amounts info hget
    rw [hl] at hl'
    obtain rfl := Except.ok.inj hl'
    refine ⟨rfl, ?_, _, rfl, ?_⟩
    · rw [activeCommittees_snoc hs', List.getLast?_append]
      rfl
    · rw [lowerRewards_eq]
      refine (hrep.lowered (positiveCollaterals_represents hdistinct)).congr (fun pubkey => ?_)
      refine (rewardIn_snoc hs' ?_ pubkey).symm
      rintro hnil
      rw [hnil] at hlast
      cases hlast

/-- The tracker stores no info of a subnet that had none. -/
theorem get_rotateRewards {db : HeedDb} {i : SubnetId} {number : Nat} {k : Key}
    {info : SubnetRewardInfo}
    (hget : ((rotateRewards X n i number db).store db).rewardCandidatesDb.get k = some info) :
    ∃ info, db.rewardCandidatesDb.get k = some info := by
  cases hi : db.getRewardCandidateInfo X n i with
  | none =>
    rw [store_rotateRewards_of_none hi] at hget
    exact ⟨info, hget⟩
  | some found =>
    by_cases hk : k = rewardCandidateKey X n i
    · exact ⟨found, by rw [hk]; exact hi⟩
    · rw [(writesAt_rotateRewards n i number db).get_eq hk] at hget
      exact ⟨info, hget⟩

section Step

variable (hb : c.snapshotBoundariesFromHeight h = some (n, start, stop)) (hlt : start < h)
include hb hlt

theorem get_tracked {db : HeedDb} {o : Occurrence} {k : Key} {info : SubnetRewardInfo}
    (hget : (tracked X c h db o).rewardCandidatesDb.get k = some info) :
    ∃ info, db.rewardCandidatesDb.get k = some info := by
  cases o with
  | other => exact ⟨info, hget⟩
  | checkpoint i r =>
    rw [tracked_inside hb (Nat.ne_of_gt hlt)] at hget
    split_ifs at hget
    · rw [HeedDb.deleteRewardCandidateInfo, Table.get_delete] at hget
      split_ifs at hget
      exact ⟨info, hget⟩
    · exact ⟨info, hget⟩
    · exact get_rotateRewards hget

omit hlt in
theorem getRewardCandidateInfo_tracked (laws : DisplayLaws X) {db : HeedDb} {o : Occurrence}
    {i : SubnetId} (hne : ∀ r, o ≠ .checkpoint i r) :
    (tracked X c h db o).getRewardCandidateInfo X n i = db.getRewardCandidateInfo X n i := by
  cases o with
  | other => rfl
  | checkpoint i' r =>
    refine (writesAt_updateAfterCheckpoint hb i' r db).get_eq (fun hkey => hne r ?_)
    rw [(rewardCandidateKey_inj laws hkey).2]

/-- A checkpoint of the subnet itself. -/
theorem TracksSubnet.checkpointed {ms : List HeedDb} {db saved : HeedDb} {i : SubnetId}
    {s s' : SubnetState} {r : SubnetCheckpoint} (hle : h ≤ stop)
    (ht : TracksSubnet X n start stop ms db i s)
    (hsaves : Saves X h db (.checkpoint i r) saved)
    (hs' : saved.getSubnetState X i = some s')
    (hheight : genesisHeight X saved s'.id = genesisHeight X db s.id)
    (hc : Checkpointed h r s s') :
    TracksSubnet X n start stop (ms ++ [tracked X c h saved (.checkpoint i r)])
      (tracked X c h saved (.checkpoint i r)) i s' := by
  have hinside := tracked_inside (X := X) hb (Nat.ne_of_gt hlt) saved i r
  have hinfo : saved.getRewardCandidateInfo X n i = db.getRewardCandidateInfo X n i := by
    rw [HeedDb.getRewardCandidateInfo, hsaves.candidates]
    rfl
  by_cases hkill : r.isKillCheckpoint = true
  · rw [hinside, if_pos hkill]
    have hkilled : s'.killed = .killed h := by
      rw [hc.killed, if_pos hkill]
    refine tracksSubnet_of_none ?_ (eligible_eq_false_of_killed hkilled hle)
    rw [HeedDb.getRewardCandidateInfo, HeedDb.deleteRewardCandidateInfo, Table.get_delete,
      if_pos rfl]
  · rw [if_neg hkill] at hinside
    have hkilled : ∀ k, s'.killed = .killed k ↔ s.killed = .killed k := by
      intro k
      rw [hc.killed, if_neg hkill]
    have heligible : eligible X saved start stop s' = eligible X db start stop s :=
      eligible_congr hheight hkilled
    rcases hc.rotation with ⟨hsame, hnumber, hcommittee⟩ | ⟨hnext, hnumber⟩
    · rw [hinside, if_pos hsame.symm]
      exact ht.unchanged hs' hinfo hheight (hsaves.committees i) ⟨hnumber, hcommittee, hkilled⟩
    · rw [if_neg (by omega)] at hinside
      cases hget : db.getRewardCandidateInfo X n i with
      | none =>
        rw [hinside, store_rotateRewards_of_none (hinfo.trans hget)]
        refine tracksSubnet_of_none (hinfo.trans hget) ?_
        rw [heligible, Bool.eq_false_iff, Ne, ← ht.candidate_iff, hget]
        simp
      | some info =>
        obtain ⟨hrecent, -, l, hl, -⟩ := ht.amounts info hget
        have hsaved := hsaves.kept.committee i s' hs'
        have hnew : r.nextCommitteeNumber ≠ info.mostRecentCommitteeNumber := by
          rw [hrecent, hnext, hc.signed]
          omega
        have hstored := store_rotateRewards_of_some (hinfo.trans hget) hnew
          (getOrInitRewardAmounts_mono (hsaves.committees i) hl) (hnumber ▸ hsaved)
        rw [hinside, hstored]
        refine ht.rotated hget hl hs' ?_ (hsaves.kept.distinct i s' hs') heligible
        rw [hnumber]
        exact Table.get_put_self _ _ _

/-- One occurrence within the snapshot. -/
theorem Tracks.occurs (laws : DisplayLaws X) {ms : List HeedDb} {db db' : HeedDb}
    {o : Occurrence} (hle : h ≤ stop) (ht : Tracks X n start stop ms db)
    (ho : Occurs X c h db o db') : Tracks X n start stop (ms ++ [db']) db' := by
  have hkept := ho.kept
  obtain ⟨saved, hsaves, rfl⟩ := ho
  obtain ⟨t, results, hsame⟩ := sameButRewards_tracked (X := X) (c := c) h saved o
  have hstate : ∀ i, (tracked X c h saved o).getSubnetState X i = saved.getSubnetState X i := by
    intro i
    rw [hsame]
    rfl
  have hgenesis : ∀ i, genesisHeight X (tracked X c h saved o) i = genesisHeight X saved i := by
    intro i
    rw [hsame]
    rfl
  have hcommittee : ∀ i m, (tracked X c h saved o).getCommittee X i m =
      saved.getCommittee X i m := by
    intro i m
    rw [hsame]
    rfl
  have hfound : ∀ k info, (tracked X c h saved o).rewardCandidatesDb.get k = some info →
      ∃ info, db.rewardCandidatesDb.get k = some info := by
    intro k info hget
    rw [← hsaves.candidates]
    exact get_tracked hb hlt hget
  refine ⟨hkept.mono hle, ?_, ?_⟩
  · intro k info hprefix hget
    obtain ⟨info', hget'⟩ := hfound k info hget
    obtain ⟨i, s, hk, hs⟩ := ht.keys k info' hprefix hget'
    obtain ⟨s', hs', -⟩ := hsaves.continues i s hs
    exact ⟨i, s', hk, (hstate i).trans hs'⟩
  · intro i s' hs'
    have hid : s'.id = i := hkept.id_eq laws hs'
    rw [hstate] at hs'
    cases hs : db.getSubnetState X i with
    | none =>
      obtain ⟨hborn, -⟩ := hsaves.started i s' hs' hs
      refine tracksSubnet_of_none ?_ (eligible_eq_false_of_late
        (by rw [hgenesis, hid]; exact hborn) hlt)
      cases hget : (tracked X c h saved o).getRewardCandidateInfo X n i with
      | none => rfl
      | some info =>
        obtain ⟨info', hget'⟩ := hfound _ info hget
        obtain ⟨i', s, hk, hs''⟩ := ht.keys _ info' (candidateKey n i) hget'
        rw [← (rewardCandidateKey_inj laws hk).2, hs] at hs''
        cases hs''
    | some s =>
      have hids : s.id = i := ht.kept.id_eq laws hs
      obtain ⟨s'', hs'', hheight, hmoves⟩ := hsaves.continues i s hs
      rw [hs'] at hs''
      obtain rfl := Option.some.inj hs''
      have htracks := ht.subnets i s hs
      have hstays : (∀ r, o ≠ .checkpoint i r) → Stays s s' →
          TracksSubnet X n start stop (ms ++ [tracked X c h saved o]) (tracked X c h saved o)
            i s' := by
        intro hne hstays
        refine htracks.unchanged ((hstate i).trans hs') ?_ ?_ ?_ hstays
        · rw [getRewardCandidateInfo_tracked hb laws hne, HeedDb.getRewardCandidateInfo,
            hsaves.candidates]
          rfl
        · rw [hgenesis, hid, hids]
          exact hheight
        · intro m c' hc'
          rw [hcommittee]
          exact hsaves.committees i m c' hc'
      cases o with
      | other => exact hstays (fun r => by simp) hmoves
      | checkpoint i' r =>
        by_cases hi : i' = i
        · subst hi
          rw [Moves, if_pos hids.symm] at hmoves
          exact htracks.checkpointed hb hlt hle hsaves hs' (by rw [hid, hids]; exact hheight) hmoves
        · rw [Moves, hids, if_neg hi] at hmoves
          refine hstays (fun r' heq => hi ?_) hmoves
          injection heq

end Step

end Within

end Rewards
