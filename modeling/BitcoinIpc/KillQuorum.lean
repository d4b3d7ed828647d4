import BitcoinIpc.RequestAcceptance
import BitcoinIpc.KillLifecycle
import BitcoinIpc.Authorisations

/-!
# The quorum of a kill

A subnet is marked to be killed by requests of distinct validators of its latest
committee, each signed by its validator and recorded within the last blocks,
whose power reaches the threshold. A validator has at most one valid request at
a time.
-/

namespace Monitor

open Faults Bytes Chain Messages Crates Multisig Db Commits OrderedTable

variable {X : Library}

/-- The validators behind some requests. -/
def votersOf (c : SubnetCommittee) (requests : List KillRequest) : List SubnetValidator :=
  requests.filterMap (fun r => c.findValidator r.validatorXpk)

theorem killVotes_eq (c : SubnetCommittee) (requests : List KillRequest) :
    killVotes c requests = powerSum (votersOf c requests) := by
  rw [killVotes, powerSum, votersOf, List.map_filterMap]

/-- The requests that count when a further one is accepted. -/
def counted (X : Library) (db : HeedDb) (id : SubnetId) (request : KillRequest) :
    List KillRequest :=
  db.getValidKillRequests X id request.blockHeight ++ [request]

/-- An accepted request: it is of a validator of the latest committee that has no other valid
one, it is recorded, and it marks a live subnet if the requests reach the threshold. -/
structure KillAdded (X : Library) (db : HeedDb) (id : SubnetId) (request : KillRequest)
    (s : SubnetState) (db' : HeedDb) : Prop where
  state : db.getSubnetState X id = some s
  member : ∃ v, s.latestCommittee.findValidator request.validatorXpk = some v
  fresh : ∀ r ∈ db.getValidKillRequests X id request.blockHeight,
    r.validatorXpk ≠ request.validatorXpk
  recorded : db'.killRequestsDb = (db.addKillRequest X id request).killRequestsDb
  threshold : ∃ total threshold, (s.latestCommittee.totalPower : Outcome IpcLibError Power) =
      .ok total ∧ (multisigThreshold total : Outcome IpcLibError Power) = .ok threshold ∧
    ((threshold ≤ killVotes s.latestCommittee (counted X db id request) ∧ s.killed = .notKilled ∧
        db'.subnetDb = db.subnetDb.put (subnetStateKey X id)
          { s with
            killed := .toBeKilled
            markedForKillCheckpointNumber :=
              s.lastCheckpointNumber.orElse (fun _ => s.markedForKillCheckpointNumber) }) ∨
      (¬ (threshold ≤ killVotes s.latestCommittee (counted X db id request) ∧
        s.killed = .notKilled) ∧ db'.subnetDb = db.subnetDb))

theorem killAdded_of_saveToDb {m : IpcKillSubnetMsg} {db db' : HeedDb} {h : Nat} {b : BlockHash}
    {i : Txid} (hsave : m.saveToDb X db h b i = .ok db') :
    ∃ k s, m.pubkey = some k ∧ KillAdded X db m.subnetId ⟨k, h, b, i⟩ s db' := by
  obtain ⟨g, -, hsave⟩ := bind_eq_ok.mp hsave
  obtain ⟨s, hs, hsave⟩ := bind_eq_ok.mp hsave
  obtain ⟨_, -, hsave⟩ := bind_eq_ok.mp hsave
  obtain ⟨k, hk, hsave⟩ := bind_eq_ok.mp hsave
  obtain ⟨v, hv, hsave⟩ := bind_eq_ok.mp hsave
  obtain ⟨_, hfresh, hsave⟩ := bind_eq_ok.mp hsave
  obtain ⟨requested, hrequested, hsave⟩ := bind_eq_ok.mp hsave
  obtain ⟨total, htotal, hsave⟩ := bind_eq_ok.mp hsave
  obtain ⟨threshold, hthreshold, hsave⟩ := bind_eq_ok.mp hsave
  rw [okOr_eq_ok] at hs hv
  rw [expect_eq_ok] at hk
  rw [ensure_eq_ok] at hfresh
  have hvotes : killVotes s.latestCommittee (counted X db m.subnetId ⟨k, h, b, i⟩) = requested := by
    unfold IpcKillSubnetMsg.requestedPower sumPower at hrequested
    split_ifs at hrequested
    · exact Except.ok.inj hrequested
    · cases hrequested
  refine ⟨k, s, hk, hs, ⟨v, hv⟩, ?_, ?_, total, threshold, htotal, hthreshold, ?_⟩
  · intro r hr heq
    exact hfresh (List.any_eq_true.mpr ⟨r, hr, decide_eq_true heq⟩)
  · split_ifs at hsave <;> (cases hsave; rfl)
  · rw [hvotes]
    split_ifs at hsave with hq
    · cases hsave
      exact Or.inl ⟨hq.1, hq.2, rfl⟩
    · cases hsave
      exact Or.inr ⟨hq, rfl⟩

/-- The transaction carries a signature of the key for a kill of the subnet, made for the
output that it spends first. -/
def SignsKill (X : Library) (tx : Transaction) (t : Txid20) (k : XOnlyPublicKey) : Prop :=
  ∃ sig prev vout, carriedSignature tx = some sig ∧ firstSpent tx = some ⟨prev, vout⟩ ∧
    X.verifySchnorr sig (X.sha256 (prev.bytes ++ k.bytes ++ t.bytes)) k = true

theorem signsKill_of_fromTx {db : HeedDb} {tx : Transaction} {m : IpcKillSubnetMsg} {t : Txid20}
    (hid : m.subnetId = .fromTxid20 t) (h : IpcKillSubnetMsg.fromTx X db tx = .ok m) :
    ∃ k, m.pubkey = some k ∧ SignsKill X tx t k := by
  obtain ⟨data, hdata, h⟩ := bind_eq_ok.mp h
  obtain ⟨bytes, hbytes, h⟩ := bind_eq_ok.mp h
  obtain ⟨sig, hsig, h⟩ := bind_eq_ok.mp h
  obtain ⟨s, -, h⟩ := bind_eq_ok.mp h
  obtain ⟨p, hp, h⟩ := bind_eq_ok.mp h
  obtain ⟨v, hv, h⟩ := bind_eq_ok.mp h
  cases h
  obtain ⟨vout, hspent⟩ := firstPrevTxid_eq_ok hp
  obtain ⟨d, hd, hverify⟩ := signingValidator_eq_ok hv
  obtain ⟨id, ht, hd⟩ := bind_eq_ok.mp hd
  cases hd
  dsimp only at hid
  rw [hid, SubnetId.txid20_fromTxid20] at ht
  cases ht
  exact ⟨v.pubkey, rfl, sig, p, vout, carriedSignature_eq hdata hbytes hsig, hspent, hverify⟩

/-- The request was recorded by a signed message of the run. -/
def VotedIn (X : Library) (l : List (Event × HeedDb)) (t : Txid20) (r : KillRequest) : Prop :=
  ∃ ctx tx m, (ctx, tx, IpcMessage.killSubnet m) ∈ messages l ∧ m.subnetId = .fromTxid20 t ∧
    r = ⟨r.validatorXpk, ctx.blockHeight, ctx.blockHash, X.computeTxid tx⟩ ∧
    SignsKill X tx t r.validatorXpk

theorem VotedIn.append {l : List (Event × HeedDb)} {t : Txid20} {r : KillRequest}
    (h : VotedIn X l t r) (l' : List (Event × HeedDb)) : VotedIn X (l ++ l') t r := by
  obtain ⟨ctx, tx, m, hm, hrest⟩ := h
  exact ⟨ctx, tx, m, by rw [messages_append]; exact List.mem_append_left _ hm, hrest⟩

/-- Two requests of one validator are further apart than a request is valid. -/
def Apart (r r' : KillRequest) : Prop :=
  r.validatorXpk = r'.validatorXpk →
    r.blockHeight + killRequestValidBlocks < r'.blockHeight ∨
      r'.blockHeight + killRequestValidBlocks < r.blockHeight

/-- The recorded requests: each is a vote of the run, and they are apart. -/
structure KillRecords (X : Library) (l : List (Event × HeedDb)) (db : HeedDb) : Prop where
  voted : ∀ k r, db.killRequestsDb.get k = some r →
    ∃ t, k = killRequestKey X (.fromTxid20 t) r.blockHeight r.txid ∧ VotedIn X l t r
  apart : ∀ t k k' r r', k ≠ k' → db.killRequestsDb.get k = some r →
    db.killRequestsDb.get k' = some r' →
    (killRequestsPrefix X (.fromTxid20 t)).isPrefixOf k = true →
    (killRequestsPrefix X (.fromTxid20 t)).isPrefixOf k' = true → Apart r r'

theorem killRecords_empty : KillRecords X [] HeedDb.empty := by
  constructor
  · intro k r h
    cases h
  · intro t k k' r r' _ h
    cases h

section Steps

variable {db db' : HeedDb} {e : Event}

theorem killRequestsDb_recordStake (db : HeedDb) (id : SubnetId) (s : SubnetState)
    (next : SubnetCommittee) (requests : List StakeChangeRequest) :
    (recordStake X db id s next requests).killRequestsDb = db.killRequestsDb := by
  obtain ⟨table, hframe⟩ := foldl_addStakeChange_frame (X := X) id requests
    (db.saveSubnetState X id { s with waitingCommittee := some next })
  rw [recordStake, hframe]
  rfl

theorem killRequestsDb_checkpointedDb {m : IpcCheckpointSubnetMsg} {s : SubnetState}
    {change : Option StakeChangeRequest} {height : Nat} {hash : BlockHash} {txid : Txid} :
    (m.checkpointedDb X db s change height hash txid).killRequestsDb = db.killRequestsDb := by
  unfold IpcCheckpointSubnetMsg.checkpointedDb
  cases change with
  | none => rfl
  | some c =>
    obtain ⟨table, hframe⟩ := foldl_addStakeChange_frame (X := X) m.subnetId _ _
    dsimp only
    rw [HeedDb.confirmStakeChanges, hframe]
    rfl

/-- Only an accepted request writes to the table of the requests. -/
theorem killRequests_of_commit (h : Commit X db e db') :
    db'.killRequestsDb = db.killRequestsDb ∨
      ∃ ctx tx m k s, e = .message ctx tx (.killSubnet m) ∧
        IpcKillSubnetMsg.fromTx X db tx = .ok m ∧ m.pubkey = some k ∧
        KillAdded X db m.subnetId ⟨k, ctx.blockHeight, ctx.blockHash, X.computeTxid tx⟩ s db' := by
  cases h with
  | createSubnet => exact Or.inl rfl
  | @joinSubnet ctx tx m₀ m saved _ _ hsave =>
    left
    cases hst : db.getSubnetState X m.subnetId with
    | none =>
      obtain ⟨g, -, -, -, ⟨-, rfl⟩ | ⟨s, -, -, rfl⟩⟩ := IpcJoinSubnetMsg.saveToDb_pre hst hsave
      · rfl
      · rfl
    | some s =>
      obtain ⟨next, -, -, -, rfl⟩ := IpcJoinSubnetMsg.saveToDb_post hst hsave
      exact killRequestsDb_recordStake _ _ _ _ _
  | prefundSubnet _ _ hsave =>
    obtain ⟨g, -, -, rfl⟩ := IpcPrefundSubnetMsg.saveToDb_eq_ok hsave
    exact Or.inl rfl
  | fundSubnet _ _ hsave =>
    obtain ⟨s, -, rfl⟩ := IpcFundSubnetMsg.saveToDb_eq_ok hsave
    exact Or.inl rfl
  | checkpointSubnet _ _ hsave =>
    obtain ⟨s, change, -, -, rfl⟩ := IpcCheckpointSubnetMsg.saveToDb_eq_ok hsave
    exact Or.inl killRequestsDb_checkpointedDb
  | batchTransfer _ _ hsave =>
    obtain ⟨_, _, _, heq⟩ := IpcBatchTransferMsg.sameButBatch_saveToDb hsave
    rw [heq]
    exact Or.inl rfl
  | stakeCollateral _ _ hsave =>
    obtain ⟨s, v, next, -, -, -, rfl⟩ := IpcStakeCollateralMsg.saveToDb_eq_ok hsave
    exact Or.inl (killRequestsDb_recordStake _ _ _ _ _)
  | unstakeCollateral _ _ hsave =>
    obtain ⟨s, v, next, -, -, -, -, -, rfl⟩ := IpcUnstakeCollateralMsg.saveToDb_eq_ok hsave
    exact Or.inl (killRequestsDb_recordStake _ _ _ _ _)
  | @killSubnet ctx tx m _ hparsed _ hsave =>
    obtain ⟨k, s, hk, hadded⟩ := killAdded_of_saveToDb hsave
    exact Or.inr ⟨ctx, tx, m, k, s, rfl, hparsed, hk, hadded⟩
  | transaction => exact Or.inl rfl
  | rewards hsame =>
    obtain ⟨_, _, rfl⟩ := hsame
    exact Or.inl rfl
  | block => exact Or.inl rfl

variable (laws : DisplayLaws X)
include laws

theorem isPrefixOf_killRequestKey (t u : Txid20) (n : Nat) (i : Txid) :
    (killRequestsPrefix X (.fromTxid20 t)).isPrefixOf (killRequestKey X (.fromTxid20 u) n i) =
      decide (t = u) := by
  rw [killRequestsPrefix, killRequestKey, numberedKey, List.append_assoc]
  exact isPrefixOf_subnetKey laws _ t u _

omit laws in
/-- The valid requests of a subnet are recorded ones. -/
theorem mem_getValidKillRequests {id : SubnetId} {h : Nat} {r : KillRequest} :
    r ∈ db.getValidKillRequests X id h ↔
      h - killRequestValidBlocks ≤ r.blockHeight ∧
        ∃ k, (killRequestsPrefix X id).isPrefixOf k = true ∧
          db.killRequestsDb.get k = some r := by
  rw [HeedDb.getValidKillRequests, List.mem_filter, Table.mem_scan_iff, decide_eq_true_iff]
  exact and_comm

theorem KillRecords.commit {l : List (Event × HeedDb)} (hs : Sound X db)
    (h : KillRecords X l db) (hcommit : Commit X db e db') :
    KillRecords X (l ++ [(e, db')]) db' := by
  rcases killRequests_of_commit hcommit with hsame | ⟨ctx, tx, m, k, s, rfl, hparse, hk, hadded⟩
  · refine ⟨fun k r hr => ?_, ?_⟩
    · rw [hsame] at hr
      obtain ⟨t, hkey, hvoted⟩ := h.voted k r hr
      exact ⟨t, hkey, hvoted.append _⟩
    · rw [hsame]
      exact h.apart
  · obtain ⟨t, ht, -⟩ := hs.state laws hadded.state
    obtain ⟨k', hk', hsigned⟩ := signsKill_of_fromTx ht hparse
    obtain rfl : k = k' := Option.some.inj (hk.symm.trans hk')
    -- a recorded request of the subnet and the validator is not valid any more
    have hold : ∀ key r, (killRequestsPrefix X (.fromTxid20 t)).isPrefixOf key = true →
        db.killRequestsDb.get key = some r → r.validatorXpk = k →
        r.blockHeight + killRequestValidBlocks < ctx.blockHeight := by
      intro key r hprefix hr hrk
      by_contra hvalid
      refine hadded.fresh r ?_ hrk
      rw [mem_getValidKillRequests]
      refine ⟨?_, key, ht ▸ hprefix, hr⟩
      dsimp only
      omega
    constructor
    · intro key r hr
      rw [hadded.recorded, HeedDb.addKillRequest, Table.get_put] at hr
      split_ifs at hr with hkey
      · cases hr
        refine ⟨t, by rw [hkey, ht], ctx, tx, m, ?_, ht, rfl, hsigned⟩
        rw [messages_append]
        exact List.mem_append_right _ (List.mem_singleton_self _)
      · obtain ⟨u, hu, hvoted⟩ := h.voted key r hr
        exact ⟨u, hu, hvoted.append _⟩
    · intro u key key' r r' hne hr hr' hp hp'
      rw [hadded.recorded, HeedDb.addKillRequest, Table.get_put] at hr hr'
      dsimp only at hr hr'
      rw [ht] at hr hr'
      split_ifs at hr hr' with hkey hkey' hkey'
      · exact absurd (hkey.trans hkey'.symm) hne
      · cases hr
        rw [hkey, isPrefixOf_killRequestKey laws, decide_eq_true_iff] at hp
        subst hp
        intro heq
        exact Or.inr (hold key' r' hp' hr' heq.symm)
      · cases hr'
        rw [hkey', isPrefixOf_killRequestKey laws, decide_eq_true_iff] at hp'
        subst hp'
        intro heq
        exact Or.inl (hold key r hp hr heq)
      · exact h.apart u key key' r r' hne hr hr' hp hp'

theorem killRecords_of_trail {l : List (Event × HeedDb)}
    (hl : Trail (Commit X) HeedDb.empty l) : KillRecords X l (lastStore HeedDb.empty l) := by
  induction l using List.reverseRecOn with
  | nil => exact killRecords_empty
  | append_singleton l a ih =>
    obtain ⟨e, db'⟩ := a
    obtain ⟨hl, hstep⟩ := trail_snoc.mp hl
    rw [lastStore_snoc]
    exact (ih hl).commit laws (sound_of_trail laws sound_empty hl) hstep

end Steps

theorem mem_of_votersOf {c : SubnetCommittee} {rs : List KillRequest} {v : SubnetValidator}
    (h : v ∈ votersOf c rs) : v ∈ c.validators ∧ ∃ r ∈ rs, r.validatorXpk = v.pubkey := by
  obtain ⟨r, hr, hv⟩ := List.mem_filterMap.mp h
  obtain ⟨hmem, hkey⟩ := SubnetCommittee.findValidator_eq_some hv
  exact ⟨hmem, r, hr, hkey.symm⟩

theorem pubkeys_votersOf (c : SubnetCommittee) (rs : List KillRequest) :
    ((votersOf c rs).map (·.pubkey)).Sublist (rs.map (·.validatorXpk)) := by
  induction rs with
  | nil => exact List.Sublist.refl _
  | cons r rs ih =>
    rw [votersOf, List.filterMap_cons, List.map_cons]
    cases hv : c.findValidator r.validatorXpk with
    | none => exact ih.cons _
    | some v =>
      rw [List.map_cons, (SubnetCommittee.findValidator_eq_some hv).2]
      exact ih.cons_cons _

/-- Requests that are apart and stand in one window are of distinct validators. -/
theorem distinct_of_apart {rs : List KillRequest} {h : Nat} (hapart : rs.Pairwise Apart)
    (hwindow : ∀ r ∈ rs, h - killRequestValidBlocks ≤ r.blockHeight ∧ r.blockHeight ≤ h) :
    (rs.map (·.validatorXpk)).Nodup := by
  refine List.pairwise_map.mpr (hapart.imp_of_mem ?_)
  intro r r' hr hr' hap heq
  obtain ⟨hlow, hhigh⟩ := hwindow r hr
  obtain ⟨hlow', hhigh'⟩ := hwindow r' hr'
  rcases hap heq with hlt | hlt <;> omega

theorem KillRecords.valid_apart {l : List (Event × HeedDb)} {db : HeedDb}
    (h : KillRecords X l db) (t : Txid20) (height : Nat) :
    (db.getValidKillRequests X (.fromTxid20 t) height).Pairwise Apart := by
  refine List.Pairwise.filter _ (List.pairwise_map.mpr ?_)
  refine (db.killRequestsDb.sorted.filter _).imp_of_mem ?_
  intro a b ha hb hlt
  obtain ⟨ha, hpa⟩ := List.mem_filter.mp ha
  obtain ⟨hb, hpb⟩ := List.mem_filter.mp hb
  exact h.apart t a.1 b.1 a.2 b.2 (ne_of_lt hlt) ((Table.get_eq_some_iff _).mpr ha)
    ((Table.get_eq_some_iff _).mpr hb) hpa hpb

/-- The heights of the blocks whose messages are saved do not decrease. -/
def AscendingBlocks (l : List (Event × HeedDb)) : Prop :=
  (messages l).Pairwise (fun a b => a.1.blockHeight ≤ b.1.blockHeight)

/-- The requests of a subnet that are valid at a height, of the blocks up to it. -/
def window (X : Library) (db : HeedDb) (t : Txid20) (h : Nat) : List KillRequest :=
  (db.getValidKillRequests X (.fromTxid20 t) h).filter (fun r => r.blockHeight ≤ h)

/-- Distinct validators of the committee, each with a signed and recorded request in the window
of the height, whose power reaches the threshold. -/
def Quorum (X : Library) (l : List (Event × HeedDb)) (db db' : HeedDb) (t : Txid20) (h : Nat)
    (c : SubnetCommittee) : Prop :=
  ∃ voters : List SubnetValidator, (voters.map (·.pubkey)).Nodup ∧
    (∀ v ∈ voters, v ∈ c.validators ∧ ∃ r, r.validatorXpk = v.pubkey ∧
      h - killRequestValidBlocks ≤ r.blockHeight ∧ r.blockHeight ≤ h ∧ VotedIn X l t r ∧
      (r ∈ db.getValidKillRequests X (.fromTxid20 t) h ∨
        r ∈ db'.getValidKillRequests X (.fromTxid20 t) h)) ∧
    ∃ total threshold, (c.totalPower : Outcome IpcLibError Power) = .ok total ∧
      (multisigThreshold total : Outcome IpcLibError Power) = .ok threshold ∧
      threshold ≤ powerSum voters

section Quorums

variable (laws : DisplayLaws X) {l : List (Event × HeedDb)} {db db' : HeedDb} {t : Txid20}
include laws

/-- The new request is valid in the block that records it. -/
theorem KillAdded.mem_valid {request : KillRequest} {s : SubnetState}
    (h : KillAdded X db (.fromTxid20 t) request s db') :
    request ∈ db'.getValidKillRequests X (.fromTxid20 t) request.blockHeight := by
  rw [mem_getValidKillRequests]
  refine ⟨Nat.sub_le _ _, killRequestKey X (.fromTxid20 t) request.blockHeight request.txid, ?_, ?_⟩
  · rw [isPrefixOf_killRequestKey laws]
    exact decide_eq_true rfl
  · rw [h.recorded, HeedDb.addKillRequest, Table.get_put_self]

theorem KillRecords.votedIn {h : Nat} {r : KillRequest} (hrecords : KillRecords X l db)
    (hr : r ∈ db.getValidKillRequests X (.fromTxid20 t) h) : VotedIn X l t r := by
  obtain ⟨-, key, hprefix, hget⟩ := mem_getValidKillRequests.mp hr
  obtain ⟨u, hkey, hvoted⟩ := hrecords.voted key r hget
  rw [hkey, isPrefixOf_killRequestKey laws, decide_eq_true_iff] at hprefix
  subst hprefix
  exact hvoted

/-- The requests that count for a new one: each is a vote in the window of the new one. -/
theorem KillAdded.counted_voted {request : KillRequest} {s : SubnetState}
    {a : Event × HeedDb} (h : KillAdded X db (.fromTxid20 t) request s db')
    (hrecords : KillRecords X l db) (hafter : KillRecords X (l ++ [a]) db')
    (hearlier : ∀ a ∈ messages l, a.1.blockHeight ≤ request.blockHeight) :
    ∀ r ∈ counted X db (.fromTxid20 t) request,
      (request.blockHeight - killRequestValidBlocks ≤ r.blockHeight ∧
        r.blockHeight ≤ request.blockHeight) ∧ VotedIn X (l ++ [a]) t r ∧
      (r ∈ db.getValidKillRequests X (.fromTxid20 t) request.blockHeight ∨
        r ∈ db'.getValidKillRequests X (.fromTxid20 t) request.blockHeight) := by
  intro r hr
  rcases List.mem_append.mp hr with hr | hr
  · have hvoted := hrecords.votedIn laws hr
    obtain ⟨ctx, tx, m, hm, -, heq, -⟩ := id hvoted
    have hheight : r.blockHeight = ctx.blockHeight := congrArg KillRequest.blockHeight heq
    have hle : r.blockHeight ≤ request.blockHeight := hheight ▸ hearlier _ hm
    exact ⟨⟨(mem_getValidKillRequests.mp hr).1, hle⟩, hvoted.append _, Or.inl hr⟩
  · rw [List.mem_singleton.mp hr]
    have hmem := h.mem_valid laws
    exact ⟨⟨Nat.sub_le _ _, le_refl _⟩, hafter.votedIn laws hmem, Or.inr hmem⟩

omit laws in
theorem KillAdded.counted_distinct {request : KillRequest} {s : SubnetState}
    (h : KillAdded X db (.fromTxid20 t) request s db') (hrecords : KillRecords X l db)
    (hwindow : ∀ r ∈ db.getValidKillRequests X (.fromTxid20 t) request.blockHeight,
      request.blockHeight - killRequestValidBlocks ≤ r.blockHeight ∧
        r.blockHeight ≤ request.blockHeight) :
    ((counted X db (.fromTxid20 t) request).map (·.validatorXpk)).Nodup := by
  rw [counted, List.map_append, List.nodup_append']
  refine ⟨distinct_of_apart (hrecords.valid_apart t _) hwindow, List.nodup_singleton _, ?_⟩
  intro x hx hx'
  obtain ⟨r, hr, rfl⟩ := List.mem_map.mp hx
  exact h.fresh r hr (List.mem_singleton.mp hx')

/-- A live subnet is marked by a request for it with which the threshold is reached. -/
theorem KillAdded.reaches {id : SubnetId} {request : KillRequest} {s₀ s s' : SubnetState}
    (h : KillAdded X db id request s₀ db') (hs : Sound X db)
    (hst : db.getSubnetState X (.fromTxid20 t) = some s)
    (hst' : db'.getSubnetState X (.fromTxid20 t) = some s')
    (hlive : s.killed = .notKilled) (hmarked : s'.killed = .toBeKilled) :
    id = .fromTxid20 t ∧ s₀ = s ∧ ∃ total threshold,
      (s.latestCommittee.totalPower : Outcome IpcLibError Power) = .ok total ∧
      (multisigThreshold total : Outcome IpcLibError Power) = .ok threshold ∧
      threshold ≤ killVotes s.latestCommittee (counted X db id request) := by
  obtain ⟨u, hu, -⟩ := hs.state laws h.state
  obtain ⟨total, threshold, htotal, hthreshold, hcases⟩ := h.threshold
  have hchanged : s ≠ s' := by
    rintro rfl
    rw [hlive] at hmarked
    cases hmarked
  rcases hcases with ⟨hreach, -, hput⟩ | ⟨-, hsame⟩
  · rw [hu] at hput
    rw [getSubnetState_of_put laws hput] at hst'
    split_ifs at hst' with htu
    · subst htu
      obtain rfl : s₀ = s := Option.some.inj ((hu ▸ h.state).symm.trans hst)
      exact ⟨hu, rfl, total, threshold, htotal, hthreshold, hreach⟩
    · exact absurd (Option.some.inj (hst.symm.trans hst')) hchanged
  · rw [HeedDb.getSubnetState, hsame] at hst'
    exact absurd (Option.some.inj (hst.symm.trans hst')) hchanged

theorem quorum_of_mark {ctx : BlockContext} {tx : Transaction} {m : IpcKillSubnetMsg}
    (hrecords : KillRecords X l db) (hs : Sound X db)
    (hearlier : ∀ a ∈ messages l, a.1.blockHeight ≤ ctx.blockHeight)
    (hcommit : Commit X db (.message ctx tx (.killSubnet m)) db') {s s' : SubnetState}
    (hst : db.getSubnetState X (.fromTxid20 t) = some s)
    (hst' : db'.getSubnetState X (.fromTxid20 t) = some s')
    (hlive : s.killed = .notKilled) (hmarked : s'.killed = .toBeKilled) :
    Quorum X (l ++ [(.message ctx tx (.killSubnet m), db')]) db db' t ctx.blockHeight
      s.latestCommittee := by
  have hafter := hrecords.commit laws hs hcommit
  cases hcommit with
  | killSubnet hparsed _ hsave =>
    obtain ⟨k, s₀, hk, hadded⟩ := killAdded_of_saveToDb hsave
    obtain ⟨hid, rfl, total, threshold, htotal, hthreshold, hreach⟩ :=
      hadded.reaches laws hs hst hst' hlive hmarked
    rw [hid] at hadded hreach
    have hvoted := hadded.counted_voted laws hrecords hafter hearlier
    have hdistinct := hadded.counted_distinct hrecords
      (fun r hr => (hvoted r (List.mem_append_left _ hr)).1)
    refine ⟨_, hdistinct.sublist (pubkeys_votersOf _ _), fun v hv => ?_, total, threshold, htotal,
      hthreshold, killVotes_eq _ _ ▸ hreach⟩
    obtain ⟨hmem, r, hr, hkey⟩ := mem_of_votersOf hv
    obtain ⟨⟨hlow, hhigh⟩, hvote, hrec⟩ := hvoted r hr
    exact ⟨hmem, r, hkey, hlow, hhigh, hvote, hrec⟩

omit laws in
theorem killVotes_subperm {c : SubnetCommittee} {rs rs' : List KillRequest}
    (h : rs.Subperm rs') : killVotes c rs ≤ killVotes c rs' := by
  obtain ⟨t, hperm, hsub⟩ := h
  unfold killVotes
  rw [← (hperm.filterMap _).sum_eq]
  exact (hsub.filterMap _).sum_le_sum (fun _ _ => Nat.zero_le _)

omit laws in
/-- What is valid after a request is among what was counted. -/
theorem counted_of_valid {id : SubnetId} {request : KillRequest} {s : SubnetState}
    (h : KillAdded X db id request s db') :
    (db'.getValidKillRequests X id request.blockHeight).Subperm (counted X db id request) := by
  have hscan : (db'.killRequestsDb.scan (fun k => (killRequestsPrefix X id).isPrefixOf k)).Subperm
      (request :: db.killRequestsDb.scan (fun k => (killRequestsPrefix X id).isPrefixOf k)) := by
    rw [h.recorded]
    exact Table.scan_put_subperm _ _ _ _
  have hvalid := hscan.filter
    (fun r => decide (request.blockHeight - killRequestValidBlocks ≤ r.blockHeight))
  rw [List.filter_cons_of_pos (by exact decide_eq_true (Nat.sub_le _ _))] at hvalid
  exact hvalid.trans (List.perm_append_singleton _ _).symm.subperm

/-- A request with which the valid votes reach the threshold leaves no live subnet. -/
theorem marked_of_votes {ctx : BlockContext} {tx : Transaction} {m : IpcKillSubnetMsg}
    (hs : Sound X db) (hcommit : Commit X db (.message ctx tx (.killSubnet m)) db')
    {s : SubnetState} {total threshold : Power}
    (hst : db.getSubnetState X m.subnetId = some s)
    (htotal : (s.latestCommittee.totalPower : Outcome IpcLibError Power) = .ok total)
    (hthreshold : (multisigThreshold total : Outcome IpcLibError Power) = .ok threshold)
    (hvotes : threshold ≤ killVotes s.latestCommittee
      (db'.getValidKillRequests X m.subnetId ctx.blockHeight)) :
    ∃ s', db'.getSubnetState X m.subnetId = some s' ∧
      (s'.killed = .toBeKilled ∨ s.isKilled = true ∧ s'.killed = s.killed) := by
  cases hcommit with
  | killSubnet hparsed _ hsave =>
    obtain ⟨k, s₀, hk, hadded⟩ := killAdded_of_saveToDb hsave
    obtain rfl : s = s₀ := Option.some.inj (hst.symm.trans hadded.state)
    obtain ⟨total', threshold', htotal', hthreshold', hcases⟩ := hadded.threshold
    obtain rfl : total = total' := Except.ok.inj (htotal.symm.trans htotal')
    obtain rfl : threshold = threshold' := Except.ok.inj (hthreshold.symm.trans hthreshold')
    have hsub := counted_of_valid hadded
    dsimp only at hsub
    have hreach := le_trans hvotes (killVotes_subperm hsub)
    rcases hcases with ⟨-, -, hput⟩ | ⟨hnot, hsame⟩
    · obtain ⟨u, hu, -⟩ := hs.state laws hst
      rw [hu] at hput ⊢
      rw [getSubnetState_of_put laws hput, if_pos rfl]
      exact ⟨_, rfl, Or.inl rfl⟩
    · refine ⟨s, ?_, ?_⟩
      · rw [HeedDb.getSubnetState, hsame]
        exact hst
      · cases hkilled : s.killed with
        | notKilled => exact absurd ⟨hreach, hkilled⟩ hnot
        | toBeKilled => exact Or.inl rfl
        | killed n => exact Or.inr ⟨by rw [SubnetState.isKilled, hkilled], rfl⟩

/-- The kills of a run with ascending heights: a subnet is marked by a quorum of its latest
committee, no validator has two requests in one window, and a request that completes a quorum
leaves the subnet marked, unless it was killed before. -/
theorem kill_quorum (hrun : Trail (Commit X) HeedDb.empty l) (hheights : AscendingBlocks l) :
    (∀ l₁ l₂ ctx tx m db' t s s', l = l₁ ++ (.message ctx tx (.killSubnet m), db') :: l₂ →
      (lastStore HeedDb.empty l₁).getSubnetState X (.fromTxid20 t) = some s →
      db'.getSubnetState X (.fromTxid20 t) = some s' →
      s.killed = .notKilled → s'.killed = .toBeKilled →
      Quorum X (l₁ ++ [(.message ctx tx (.killSubnet m), db')]) (lastStore HeedDb.empty l₁) db' t
        ctx.blockHeight s.latestCommittee) ∧
    (∀ t h, ((window X (lastStore HeedDb.empty l) t h).map (·.validatorXpk)).Nodup) ∧
    (∀ l₁ l₂ ctx tx m db' s total threshold,
      l = l₁ ++ (.message ctx tx (.killSubnet m), db') :: l₂ →
      (lastStore HeedDb.empty l₁).getSubnetState X m.subnetId = some s →
      (s.latestCommittee.totalPower : Outcome IpcLibError Power) = .ok total →
      (multisigThreshold total : Outcome IpcLibError Power) = .ok threshold →
      threshold ≤ killVotes s.latestCommittee
        (db'.getValidKillRequests X m.subnetId ctx.blockHeight) →
      ∃ s', db'.getSubnetState X m.subnetId = some s' ∧
        (s'.killed = .toBeKilled ∨ s.isKilled = true ∧ s'.killed = s.killed)) := by
  refine ⟨?_, ?_, ?_⟩
  · rintro l₁ l₂ ctx tx m db' t s s' rfl hst hst' hlive hmarked
    obtain ⟨hl₁, hstep, -⟩ := trail_append.mp hrun
    refine quorum_of_mark laws (killRecords_of_trail laws hl₁)
      (sound_of_trail laws sound_empty hl₁) ?_ hstep hst hst' hlive hmarked
    intro a ha
    rw [AscendingBlocks, messages_append] at hheights
    exact (List.pairwise_append.mp hheights).2.2 a ha (ctx, tx, .killSubnet m)
      (List.mem_cons_self)
  · intro t h
    refine distinct_of_apart (h := h) (((killRecords_of_trail laws hrun).valid_apart t h).filter _)
      (fun r hr => ?_)
    obtain ⟨hr, hle⟩ := List.mem_filter.mp hr
    exact ⟨(mem_getValidKillRequests.mp hr).1, of_decide_eq_true hle⟩
  · rintro l₁ l₂ ctx tx m db' s total threshold rfl hst htotal hthreshold hvotes
    obtain ⟨hl₁, hstep, -⟩ := trail_append.mp hrun
    exact marked_of_votes laws (sound_of_trail laws sound_empty hl₁) hstep hst htotal hthreshold
      hvotes

end Quorums

open Solo

/-- The library that knows the signatures of two requests, of the inputs twelve and twenty. -/
def twoKillsLibrary : Library :=
  library 10000 [((bytes32 12).bytes ++ key.bytes ++ subnet.bytes, signature),
    ((bytes32 20).bytes ++ key.bytes ++ subnet.bytes, signature)]

def killMsg : IpcKillSubnetMsg := ⟨.fromTxid20 subnet, some key⟩

/-- A request to kill of which the output of a transaction is the first input. -/
def killTxOf (prev : UInt8) : Transaction := payingTx prev ipcKillSubnetTag signature.bytes 330 10

def contextAt (height : Nat) : BlockContext := { context with blockHeight := height }

/-- The database after a request at a height, if it is accepted. -/
def afterKill (X : Library) (m : IpcKillSubnetMsg) (tx : Transaction) (height : Nat)
    (db : HeedDb) : Outcome IpcLibError HeedDb :=
  m.saveToDb X db height context.blockHash (X.computeTxid tx)

/-- The request is parsed and saved, and the state of the subnet afterwards is as given. -/
def KillRequested (X : Library) (m : IpcKillSubnetMsg) (tx : Transaction) (height : Nat)
    (killed : SubnetKillState) (db : HeedDb) : Prop :=
  IpcKillSubnetMsg.fromTx X db tx = .ok m ∧ m.validate = .ok () ∧
  (afterKill X m tx height db).toOption.any (fun db' =>
    (db'.getSubnetState X (.fromTxid20 subnet)).any (fun s => s.killed = killed)) = true

instance (X : Library) (m : IpcKillSubnetMsg) (tx : Transaction) (height : Nat)
    (killed : SubnetKillState) (db : HeedDb) : Decidable (KillRequested X m tx height killed db) := by
  unfold KillRequested
  infer_instance

theorem KillRequested.commit {X : Library} {m : IpcKillSubnetMsg} {tx : Transaction} {height : Nat}
    {killed : SubnetKillState} {db : HeedDb} (h : KillRequested X m tx height killed db) :
    ∃ db' s', Commit X db (.message (contextAt height) tx (.killSubnet m)) db' ∧
      afterKill X m tx height db = .ok db' ∧
      db'.getSubnetState X (.fromTxid20 subnet) = some s' ∧ s'.killed = killed := by
  obtain ⟨hparsed, hvalid, hsave⟩ := h
  obtain ⟨db', hdb', hstate⟩ := (Option.any_eq_true _ _).mp hsave
  obtain ⟨s', hs', hkilled⟩ := (Option.any_eq_true _ _).mp hstate
  have hsaved := toOption_eq_some.mp hdb'
  exact ⟨db', s', .killSubnet hparsed hvalid hsaved, hsaved, hs', of_decide_eq_true hkilled⟩

theorem ascending_snoc {txs : List Transaction} {l : List (Event × HeedDb)} {height : Nat}
    {tx : Transaction} {m : IpcMessage} {d : HeedDb}
    (hmem : ∀ a ∈ messages l, (a.1, a.2.1) ∈ txs.map (fun tx => (context, tx)))
    (hheight : context.blockHeight ≤ height) :
    AscendingBlocks (l ++ [(.message (contextAt height) tx m, d)]) := by
  have hcontext : ∀ a ∈ messages l, a.1 = context := by
    intro a ha
    obtain ⟨tx, -, heq⟩ := List.mem_map.mp (hmem a ha)
    exact (Prod.mk.inj heq).1.symm
  rw [AscendingBlocks, messages_append, List.pairwise_append]
  refine ⟨List.pairwise_of_forall_mem_list ?_, List.pairwise_singleton _ _, ?_⟩
  · intro a ha b hb
    rw [hcontext a ha, hcontext b hb]
  · intro a ha b hb
    rw [hcontext a ha, List.mem_singleton.mp hb]
    exact hheight

def secondKey : XOnlyPublicKey := bytes32 8

/-- The library that knows the signatures of two validators, who bootstrap a subnet together. -/
def votersLibrary : Library :=
  ideal { creates := [⟨10000, 2, 1, 2, 1, [key, secondKey]⟩]
          joins := [joinMsg, { joinMsg with pubkey := secondKey }]
          signed := [(key, (bytes32 12).bytes ++ key.bytes ++ subnet.bytes, signature),
            (secondKey, (bytes32 20).bytes ++ secondKey.bytes ++ subnet.bytes, signature)] }

def votersTxs : List Transaction := [createTx, joinTx 100000,
  spending (bytes32 21) 0 (carryingAt ipcJoinSubnetTag 1) [⟨100000, backup.scriptPubkey⟩]]

/-- The address of the two validators. -/
def votersAddress : Address :=
  ((((run votersLibrary votersTxs).store HeedDb.empty).getSubnetState votersLibrary
    (.fromTxid20 subnet)).map (·.committee.multisigAddress)).getD backup

def voteTx (prev : UInt8) : Transaction :=
  payingTo votersAddress prev ipcKillSubnetTag signature.bytes 330

def secondVote : IpcKillSubnetMsg := ⟨.fromTxid20 subnet, some secondKey⟩

/-- The request of the second of two validators marks their subnet, which that of the first one
did not. -/
theorem kill_quorum_of_two : ∃ l db', Trail (Commit votersLibrary) HeedDb.empty
      (l ++ [(.message (contextAt 2) (voteTx 20) (.killSubnet secondVote), db')]) ∧
    (db'.getValidKillRequests votersLibrary (.fromTxid20 subnet) 2).map (·.validatorXpk) =
      [key, secondKey] ∧
    ∃ s, (lastStore HeedDb.empty l).getSubnetState votersLibrary (.fromTxid20 subnet) = some s ∧
      s.killed = .notKilled ∧ Quorum votersLibrary
        (l ++ [(.message (contextAt 2) (voteTx 20) (.killSubnet secondVote), db')])
        (lastStore HeedDb.empty l) db' subnet 2 s.latestCommittee := by
  have hok : (run votersLibrary (votersTxs ++ [voteTx 12])).outcome.toOption = some () :=
    of_decide_eq_true (by decide +kernel)
  obtain ⟨l, hl, -, hlast⟩ := exists_chainTrail ⟨none⟩ context _ HeedDb.empty hok
  have hrequested : KillRequested votersLibrary secondVote (voteTx 20) 2 .toBeKilled
      (lastStore HeedDb.empty l) := by
    rw [hlast]
    exact of_decide_eq_true (by decide +kernel)
  obtain ⟨db', s', hcommit, hsaved, hs', hmarked⟩ := hrequested.commit
  have hvotes : (afterKill votersLibrary secondVote (voteTx 20) 2
      (lastStore HeedDb.empty l)).toOption.all (fun db' =>
        (db'.getValidKillRequests votersLibrary (.fromTxid20 subnet) 2).map (·.validatorXpk) =
          [key, secondKey]) = true := by
    rw [hlast]
    decide +kernel
  rw [hsaved] at hvotes
  have hlive : ((lastStore HeedDb.empty l).getSubnetState votersLibrary
      (.fromTxid20 subnet)).any (fun s => s.killed = .notKilled) = true := by
    rw [hlast]
    decide +kernel
  obtain ⟨s, hs, hlive⟩ := (Option.any_eq_true _ _).mp hlive
  have htrail := trail_snoc.mpr ⟨hl.trail, hcommit⟩
  have hheights : AscendingBlocks
      (l ++ [(.message (contextAt 2) (voteTx 20) (.killSubnet secondVote), db')]) :=
    ascending_snoc (fun a ha => hl.message_mem ha) (by decide)
  exact ⟨l, db', htrail, of_decide_eq_true hvotes, s, hs, of_decide_eq_true hlive,
    (kill_quorum (displayLaws_ideal _) htrail hheights).1 l [] _ _ _ _ _ _ _ rfl hs hs'
      (of_decide_eq_true hlive) hmarked⟩

/-- A killed subnet, and a request after the first one expired. -/
def killedTxs : List Transaction := delayedTxs ++ [killCheckpointTx]

/-- A request for a killed subnet is accepted, its vote is enough, and the subnet stays killed. -/
theorem request_after_kill :
    ¬ ∀ X : Library, DisplayLaws X → ∀ l ctx tx m db' s total threshold,
      Trail (Commit X) HeedDb.empty (l ++ [(.message ctx tx (.killSubnet m), db')]) →
      AscendingBlocks (l ++ [(.message ctx tx (.killSubnet m), db')]) →
      (lastStore HeedDb.empty l).getSubnetState X m.subnetId = some s →
      (s.latestCommittee.totalPower : Outcome IpcLibError Power) = .ok total →
      (multisigThreshold total : Outcome IpcLibError Power) = .ok threshold →
      threshold ≤ killVotes s.latestCommittee
        (db'.getValidKillRequests X m.subnetId ctx.blockHeight) →
      ∃ s', db'.getSubnetState X m.subnetId = some s' ∧ s'.killed = .toBeKilled := by
  intro hall
  have hok : (run twoKillsLibrary killedTxs).outcome.toOption = some () :=
    of_decide_eq_true (by decide +kernel)
  obtain ⟨l, hl, -, hlast⟩ := exists_chainTrail ⟨none⟩ context _ HeedDb.empty hok
  have hrequested : KillRequested twoKillsLibrary killMsg (killTxOf 20) 50 (.killed 1)
      (lastStore HeedDb.empty l) := by
    rw [hlast]
    exact of_decide_eq_true (by decide +kernel)
  obtain ⟨db', s', hcommit, hsave, hs', hkilled⟩ := hrequested.commit
  have hvotes : ((lastStore HeedDb.empty l).getSubnetState twoKillsLibrary
      (.fromTxid20 subnet)).any (fun s =>
        decide ((s.latestCommittee.totalPower : Outcome IpcLibError Power) = .ok 10) &&
        (afterKill twoKillsLibrary killMsg (killTxOf 20) 50
          (lastStore HeedDb.empty l)).toOption.any (fun db' =>
          decide (7 ≤ killVotes s.latestCommittee
            (db'.getValidKillRequests twoKillsLibrary (.fromTxid20 subnet) 50)))) = true := by
    rw [hlast]
    decide +kernel
  obtain ⟨s, hs, hvotes⟩ := (Option.any_eq_true _ _).mp hvotes
  rw [Bool.and_eq_true, decide_eq_true_iff, hsave] at hvotes
  obtain ⟨s'', hs'', hmarked⟩ := hall twoKillsLibrary (displayLaws_ideal _) l (contextAt 50)
    (killTxOf 20) killMsg db' s 10 7 (trail_snoc.mpr ⟨hl.trail, hcommit⟩)
    (ascending_snoc (fun a ha => hl.message_mem ha) (by decide)) hs hvotes.1 rfl
    (of_decide_eq_true hvotes.2)
  obtain rfl : s' = s'' := Option.some.inj (hs'.symm.trans hs'')
  rw [hkilled] at hmarked
  cases hmarked

end Monitor
