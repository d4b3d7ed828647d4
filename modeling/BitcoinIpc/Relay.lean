import BitcoinIpc.Readers
import BitcoinIpc.Synchronisation
import BitcoinIpc.LogOrder
import BitcoinIpc.Lib.StampedLog

/-!
# What a subnet learns from the provider

The nodes of a subnet ask for its messages and its stake changes block by block,
up to the height that the provider gives out as confirmed, while the monitor
goes on, crashes and is started again. Messages and requests are stamped with
the block that is processed, and the confirmed height goes up after its last
one: the answer for a confirmed height is final, and the answers put together
are the log of the subnet, each entry once.
-/

namespace Monitor

open Faults Bytes Chain Messages Crates Multisig Db Grouping Commits OrderedTable
open IpcBatchTransferMsg Provider

variable {X : Library} {cfg : Config} {ctx : BlockContext} {db db' : HeedDb} {e : Event}

/-- A commit of the block after the last processed one. -/
structure InOrder (X : Library) (db : HeedDb) (e : Event) (db' : HeedDb) : Prop where
  commit : Commit X db e db'
  stamped : ∀ a, messageOf e = some a → a.1.blockHeight = db.getLastProcessedBlock + 1
  ticks : db'.getLastProcessedBlock = db.getLastProcessedBlock ∨
    (∃ height, e = .block height) ∧
      db'.getLastProcessedBlock = db.getLastProcessedBlock + 1

/-- The versions of the database of a node. Each time the monitor is started it synchronises
the blocks after the last processed one, and it is stopped after any of its commits. -/
inductive Life (X : Library) (cfg : Config) : HeedDb → List HeedDb → Prop
  | stopped (start : HeedDb) : Life X cfg start []
  | started {start : HeedDb} {blocks : List FetchedBlock} (k : Nat) {versions : List HeedDb} :
      Consecutive start.getLastProcessedBlock blocks →
      Life X cfg (((sync X cfg blocks start).commits.take k).getLastD start) versions →
      Life X cfg start ((sync X cfg blocks start).commits.take k ++ versions)

theorem getLastProcessedBlock_of_sameHeight (h : SameHeight db db') :
    db'.getLastProcessedBlock = db.getLastProcessedBlock := by
  simp only [HeedDb.getLastProcessedBlock, show db'.monitorInfo = db.monitorInfo from h]

/-- What one block commits before its height is stored. -/
theorem inOrder_processBlockData (txs : List Transaction)
    (hheight : ctx.blockHeight = db.getLastProcessedBlock + 1) :
    ∃ l, Trail (InOrder X) db l ∧ l.map Prod.snd = (processBlockData X cfg ctx txs db).commits := by
  have hchains : Chains X cfg (processBlockData X cfg ctx txs) (txs.map (fun tx => (ctx, tx))) :=
    chains_processBlockData ctx txs
  obtain ⟨done, l, hl, hc, hdone, -⟩ := hchains db
  have hwithin : Within SameHeight db (processBlockData X cfg ctx txs) :=
    within_processBlockData txs db
  have hversions : ∀ t ∈ db :: l.map Prod.snd,
      t.getLastProcessedBlock = db.getLastProcessedBlock := by
    intro t ht
    rcases List.mem_cons.mp ht with rfl | ht
    · rfl
    · exact getLastProcessedBlock_of_sameHeight (hwithin t (hc ▸ ht))
  have hmessages : ∀ a ∈ l, ∀ b, messageOf a.1 = some b → b.1 = ctx := by
    intro a ha b hb
    have hmem := hdone.subset (hl.message_mem (List.mem_filterMap.mpr ⟨a, ha, hb⟩))
    obtain ⟨tx, -, htx⟩ := List.mem_map.mp hmem
    exact (congrArg Prod.fst htx).symm
  refine ⟨l, ?_, hc⟩
  have htrail := hl.trail
  clear hl hc hchains hdone hwithin
  suffices h : ∀ s, s.getLastProcessedBlock = db.getLastProcessedBlock → Trail (Commit X) s l →
      Trail (InOrder X) s l from h db rfl htrail
  clear htrail
  induction l with
  | nil => exact fun _ _ _ => trivial
  | cons a rest ih =>
    intro s hs htrail
    have ha : a.2.getLastProcessedBlock = db.getLastProcessedBlock :=
      hversions a.2 (List.mem_cons_of_mem _ (List.mem_cons_self))
    refine ⟨⟨htrail.1, ?_, Or.inl (ha.trans hs.symm)⟩, ih ?_ ?_ a.2 ha htrail.2⟩
    · intro b hb
      rw [hmessages a List.mem_cons_self b hb, hheight, hs]
    · intro t ht
      apply hversions
      rcases List.mem_cons.mp ht with rfl | ht
      · exact List.mem_cons_self
      · exact List.mem_cons_of_mem _ (List.mem_cons_of_mem _ ht)
    · exact fun b hb => hmessages b (List.mem_cons_of_mem a hb)

/-- The commits of the reward tracker leave the height alone. -/
theorem inOrder_rewardBlock (cfg : Config) (ctx : BlockContext) :
    Steps (InOrder X) (rewardBlock X cfg ctx) := by
  refine (steps_rewardBlock cfg ctx).mono ?_
  rintro s e t ⟨rfl, hsame⟩
  refine ⟨.rewards hsame, ?_, Or.inl ?_⟩
  · intro a ha
    cases ha
  · exact getLastProcessedBlock_of_sameHeight (sameHeight_of_sameButRewards hsame)

theorem inOrder_syncBlock (txs : List Transaction)
    (hheight : ctx.blockHeight = db.getLastProcessedBlock + 1) :
    ∃ l, Trail (InOrder X) db l ∧ l.map Prod.snd = (syncBlock X cfg ctx txs db).commits := by
  have hprocess : ∃ l, Trail (InOrder X) db l ∧
      l.map Prod.snd = (processBlockData X cfg ctx txs db).commits :=
    inOrder_processBlockData txs hheight
  obtain ⟨l, hl, hc⟩ := hprocess
  cases hout : (processBlockData X cfg ctx txs db).outcome with
  | error err =>
    refine ⟨l, hl, ?_⟩
    rw [hc, syncBlock, Proc.bind_error hout]
  | ok u =>
    set stored := (processBlockData X cfg ctx txs db).store db with hstored
    obtain ⟨l', hl', hc'⟩ := inOrder_rewardBlock (X := X) cfg ctx
      (stored.setLastProcessedBlock ctx.blockHeight)
    have hwithin : Within SameHeight db (processBlockData X cfg ctx txs) :=
      within_processBlockData txs db
    have hsame : stored.getLastProcessedBlock = db.getLastProcessedBlock :=
      getLastProcessedBlock_of_sameHeight (hwithin.store SameHeight.refl)
    have hlast : lastStore db l = stored := by
      rw [lastStore, hc]
      rfl
    have hblock : InOrder X stored (.block ctx.blockHeight)
        (stored.setLastProcessedBlock ctx.blockHeight) := by
      refine ⟨.block, ?_, Or.inr ⟨⟨_, rfl⟩, ?_⟩⟩
      · intro a ha
        cases ha
      · exact hheight.trans (by rw [hsame])
    refine ⟨l ++ (.block ctx.blockHeight, stored.setLastProcessedBlock ctx.blockHeight) :: l',
      ?_, ?_⟩
    · apply trail_append.mpr
      rw [hlast]
      exact ⟨hl, hblock, hl'⟩
    · rw [List.map_append, List.map_cons, hc, hc', syncBlock, Proc.bind_ok hout, Proc.read_bind,
        Proc.commit_bind]

theorem inOrder_sync {blocks : List FetchedBlock}
    (h : Consecutive db.getLastProcessedBlock blocks) :
    ∃ l, Trail (InOrder X) db l ∧ l.map Prod.snd = (sync X cfg blocks db).commits := by
  induction blocks generalizing db with
  | nil => exact ⟨[], trivial, rfl⟩
  | cons b rest ih =>
    rw [Consecutive, List.map_cons, List.length_cons, List.range'_succ, List.cons.injEq] at h
    obtain ⟨hheight, hrest⟩ := h
    have hblock : ∃ l, Trail (InOrder X) db l ∧
        l.map Prod.snd = (syncBlock X cfg b.1 b.2 db).commits := inOrder_syncBlock b.2 hheight
    obtain ⟨l, hl, hc⟩ := hblock
    have hsync : sync X cfg (b :: rest) db =
        (syncBlock X cfg b.1 b.2 >>= fun _ => sync X cfg rest) db := rfl
    rw [hsync]
    cases hout : (syncBlock X cfg b.1 b.2 db).outcome with
    | error err => exact ⟨l, hl, by rw [hc, Proc.bind_error hout]⟩
    | ok u =>
      have hdata : (processBlockData X cfg b.1 b.2 db).outcome = .ok () := by
        unfold syncBlock at hout
        cases hd : (processBlockData X cfg b.1 b.2 db).outcome with
        | ok u => rfl
        | error err =>
          rw [Proc.bind_error hd] at hout
          cases hout
      have hstored : ((syncBlock X cfg b.1 b.2 db).store db).getLastProcessedBlock =
          b.1.blockHeight := by
        have hstore := @store_syncBlock X
          { cfg with confirmations := 0, syncBatchSize := 1, batch_pos := Nat.one_pos }
        exact hstore hdata
      have hnext : Consecutive ((syncBlock X cfg b.1 b.2 db).store db).getLastProcessedBlock
          rest := by
        rw [hstored, hheight]
        exact hrest
      obtain ⟨l', hl', hc'⟩ := ih hnext
      have hlast : lastStore db l = (syncBlock X cfg b.1 b.2 db).store db := by
        rw [lastStore, hc]
        rfl
      refine ⟨l ++ l', ?_, ?_⟩
      · apply trail_append.mpr
        rw [hlast]
        exact ⟨hl, hl'⟩
      · rw [List.map_append, hc, hc', Proc.bind_ok hout]

/-- The versions of a life are those of a trail in the order of the blocks. -/
theorem Life.trail {versions : List HeedDb} (h : Life X cfg db versions) :
    ∃ l, Trail (InOrder X) db l ∧ l.map Prod.snd = versions := by
  induction h with
  | stopped => exact ⟨[], trivial, rfl⟩
  | @started start blocks k versions hblocks _ ih =>
    have hsync : ∃ l, Trail (InOrder X) start l ∧
        l.map Prod.snd = (sync X cfg blocks start).commits := inOrder_sync hblocks
    obtain ⟨l, hl, hc⟩ := hsync
    obtain ⟨l', hl', hc'⟩ := ih
    have hcut : (l.take k).map Prod.snd = (sync X cfg blocks start).commits.take k := by
      rw [List.map_take, hc]
    have hlast : lastStore start (l.take k) =
        ((sync X cfg blocks start).commits.take k).getLastD start := by
      rw [lastStore, hcut]
    refine ⟨l.take k ++ l', ?_, by rw [List.map_append, hcut, hc']⟩
    apply trail_append.mpr
    rw [← List.take_append_drop k l] at hl
    rw [hlast]
    exact ⟨(trail_append.mp hl).1, hl'⟩

/-- Every message is an old one, or has the height. -/
def NewMessagesAt (h : Nat) (db db' : HeedDb) : Prop :=
  ∀ k m, db'.rootnetMsgsDb.get k = some m → db.rootnetMsgsDb.get k = some m ∨ m.blockHeight = h

section Stamps

variable {h : Nat}

theorem NewMessagesAt.of_same (heq : db'.rootnetMsgsDb = db.rootnetMsgsDb) :
    NewMessagesAt h db db' := by
  intro k m hm
  exact Or.inl (heq ▸ hm)

theorem NewMessagesAt.trans (a b c : HeedDb) (h₁ : NewMessagesAt h a b)
    (h₂ : NewMessagesAt h b c) : NewMessagesAt h a c := by
  intro k m hm
  rcases h₂ k m hm with hm | hm
  · exact h₁ k m hm
  · exact Or.inr hm

theorem newMessagesAt_enqueue (db : HeedDb) (s : SubnetId) {f : Nat → RootnetMessage}
    (hf : ∀ n, (f n).blockHeight = h) : NewMessagesAt h db (enqueue X db s f) := by
  intro k m hm
  rw [enqueue, HeedDb.addRootnetMsg, Table.get_put] at hm
  split_ifs at hm with hk
  · cases hm
    exact Or.inr (hf _)
  · exact Or.inl hm

theorem newMessagesAt_applyRecords {m : IpcBatchTransferMsg} {o : Origin} {committed : HeedDb}
    (happly : m.applyRecords X o committed db = .ok db') :
    NewMessagesAt o.blockHeight db db' := by
  have hrefl : ∀ d, NewMessagesAt o.blockHeight d d := fun _ => .of_same rfl
  obtain ⟨d, hburn, htransfer⟩ := bind_eq_ok.mp happly
  have htransfers := foldl_rel hrefl NewMessagesAt.trans (f := applyNative X o)
    (fun d _ => newMessagesAt_enqueue d _ (fun _ => rfl)) m.transfers db
  have hregistered := foldl_rel hrefl NewMessagesAt.trans
    (f := applyRegistration X o m.subnetId committed.getAllSubnets) (fun d r => by
      have hsupply : NewMessagesAt o.blockHeight d (d.setTokenBalance X m.subnetId
          r.homeTokenAddress m.subnetId r.initialSupply) := .of_same rfl
      refine NewMessagesAt.trans _ _ _ hsupply ?_
      exact foldl_rel hrefl NewMessagesAt.trans
        (fun d _ => newMessagesAt_enqueue d _ (fun _ => rfl)) _ _)
    m.tokenRegistrations (m.transfers.foldl (applyNative X o) db)
  have hminted := foldl_rel hrefl NewMessagesAt.trans (f := applyMint X m.subnetId)
    (fun _ _ => .of_same rfl)
    (m.tokenSupplyAdjustments.filter (fun a => !a.delta.isNegative))
    (m.tokenRegistrations.foldl (applyRegistration X o m.subnetId committed.getAllSubnets)
      (m.transfers.foldl (applyNative X o) db))
  have hburned := foldlM_rel hrefl NewMessagesAt.trans (fun d a d' hd => by
    obtain ⟨left, -, hd⟩ := bind_eq_ok.mp hd
    exact (Except.ok.inj hd) ▸ .of_same rfl) hburn
  have hmoved := foldlM_rel hrefl NewMessagesAt.trans (fun d t d' hd => by
    unfold applyTransfer at hd
    split_ifs at hd
    · exact (Except.ok.inj hd) ▸ .of_same rfl
    · obtain ⟨left, -, hd⟩ := bind_eq_ok.mp hd
      obtain rfl := Except.ok.inj hd
      exact NewMessagesAt.trans _ _ _ (.of_same rfl)
        (newMessagesAt_enqueue _ _ (fun _ => rfl))) htransfer
  exact .trans _ _ _ (.trans _ _ _ (.trans _ _ _ (.trans _ _ _ htransfers hregistered) hminted)
    hburned) hmoved

/-- What a commit adds to the queues has the height of its block. -/
theorem newMessagesAt_commit (hstep : Commit X db e db')
    (hstamp : ∀ a, messageOf e = some a → a.1.blockHeight = h) : NewMessagesAt h db db' := by
  cases hq : addsToQueue e with
  | false => exact .of_same ((tables_of_commit hstep).2.2 hq)
  | true =>
    cases hstep with
    | @fundSubnet ctx tx m _ _ _ hsave =>
      obtain ⟨s, -, rfl⟩ := IpcFundSubnetMsg.saveToDb_eq_ok hsave
      exact newMessagesAt_enqueue db m.subnetId (f := fun nonce => m.toRootnetMessage nonce
        ctx.blockHeight ctx.blockHash (X.computeTxid tx)) (fun _ => hstamp _ rfl)
    | @batchTransfer ctx tx m₀ m saved _ _ hsave =>
      obtain rfl : ctx.blockHeight = h := hstamp _ rfl
      obtain ⟨s, -, hsave⟩ := bind_eq_ok.mp hsave
      obtain ⟨n, -, hsave⟩ := bind_eq_ok.mp hsave
      obtain ⟨c, -, hsave⟩ := bind_eq_ok.mp hsave
      obtain ⟨_, -, hsave⟩ := bind_eq_ok.mp hsave
      obtain ⟨d, happly, hsave⟩ := bind_eq_ok.mp hsave
      cases hsave
      exact .trans _ _ _ (.of_same rfl) (newMessagesAt_applyRecords happly)
    | _ => cases hq

/-- A request without its confirmation. -/
def requested (c : StakeChangeRequest) : StakeChangeRequest :=
  { c with checkpointBlockHeight := none, checkpointBlockHash := none }

/-- Every request was there, or has the height. -/
def NewRequestsAt (h : Nat) (db db' : HeedDb) : Prop :=
  ∀ k c, db'.stakeChangesDb.get k = some c →
    (∃ old, db.stakeChangesDb.get k = some old) ∨ c.blockHeight = h

theorem NewRequestsAt.of_same (heq : db'.stakeChangesDb = db.stakeChangesDb) :
    NewRequestsAt h db db' := by
  intro k c hc
  exact Or.inl ⟨c, heq ▸ hc⟩

theorem newRequestsAt_foldl (s : SubnetId) {l : List StakeChangeRequest}
    (hl : ∀ c ∈ l, c.blockHeight = h) (db : HeedDb) :
    NewRequestsAt h db (l.foldl (fun d c => d.addStakeChange X s c) db) := by
  suffices hall : ∀ k c, (l.foldl (fun d c => d.addStakeChange X s c) db).stakeChangesDb.get k =
      some c → db.stakeChangesDb.get k = some c ∨ c.blockHeight = h by
    intro k c hc
    exact (hall k c hc).imp_left (fun hc => ⟨c, hc⟩)
  induction l generalizing db with
  | nil => exact fun k c hc => Or.inl hc
  | cons a rest ih =>
    intro k c hc
    rcases ih (fun b hb => hl b (List.mem_cons_of_mem a hb)) _ k c hc with hc | hc
    · simp only [HeedDb.addStakeChange, Table.get_put] at hc
      split_ifs at hc
      · cases hc
        exact Or.inr (hl _ List.mem_cons_self)
      · exact Or.inl hc
    · exact Or.inr hc

theorem newRequestsAt_recordStake (id : SubnetId) (s : SubnetState) (next : SubnetCommittee)
    {requests : List StakeChangeRequest} (hl : ∀ c ∈ requests, c.blockHeight = h) :
    NewRequestsAt h db (recordStake X db id s next requests) :=
  newRequestsAt_foldl id hl (db.saveSubnetState X id { s with waitingCommittee := some next })

/-- Nothing is added when the requests are rewritten in their places. -/
theorem newRequestsAt_of_map (laws : DisplayLaws X)
    (hkept : (requestJournal laws).Kept db'.stakeChangesDb)
    {f : Txid20 → Nat → StakeChangeRequest → StakeChangeRequest}
    (hget : ∀ u k, db'.getStakeChange X (.fromTxid20 u) k =
      (db.getStakeChange X (.fromTxid20 u) k).map (f u k)) : NewRequestsAt h db db' := by
  intro k c hc
  obtain ⟨u, hu⟩ := hkept.keyed _ ((Table.get_eq_some_iff _).mp hc)
  have hu : k = stakeChangeKey X (.fromTxid20 u) c.configurationNumber := hu
  have hnew := hget u c.configurationNumber
  rw [HeedDb.getStakeChange, ← hu, hc] at hnew
  obtain ⟨old, hold, -⟩ := Option.map_eq_some_iff.mp hnew.symm
  rw [hu]
  exact Or.inl ⟨old, hold⟩

/-- What a commit adds to the requests has the height of its block. -/
theorem newRequestsAt_commit (laws : DisplayLaws X) (hs : Sound X db)
    (hkept' : (requestJournal laws).Kept db'.stakeChangesDb) (hstep : Commit X db e db')
    (hstamp : ∀ a, messageOf e = some a → a.1.blockHeight = h) : NewRequestsAt h db db' := by
  cases hstep with
  | @joinSubnet ctx tx m₀ m saved _ _ hsave =>
    obtain rfl : ctx.blockHeight = h := hstamp _ rfl
    cases hst : db.getSubnetState X m.subnetId with
    | none =>
      obtain ⟨g, -, -, -, ⟨-, rfl⟩ | ⟨s, -, -, rfl⟩⟩ := IpcJoinSubnetMsg.saveToDb_pre hst hsave
      · exact .of_same rfl
      · exact .of_same rfl
    | some s =>
      obtain ⟨next, -, -, -, rfl⟩ := IpcJoinSubnetMsg.saveToDb_post hst hsave
      apply newRequestsAt_recordStake
      intro c hc
      rcases List.mem_cons.mp hc with rfl | hc
      · rfl
      · rw [List.mem_singleton.mp hc]
        rfl
  | @stakeCollateral ctx _ _ _ _ _ hsave =>
    obtain rfl : ctx.blockHeight = h := hstamp _ rfl
    obtain ⟨s, v, next, -, -, -, rfl⟩ := IpcStakeCollateralMsg.saveToDb_eq_ok hsave
    apply newRequestsAt_recordStake
    intro c hc
    rw [List.mem_singleton.mp hc]
    rfl
  | @unstakeCollateral ctx _ _ _ _ _ hsave =>
    obtain rfl : ctx.blockHeight = h := hstamp _ rfl
    obtain ⟨s, v, next, -, -, -, -, -, rfl⟩ := IpcUnstakeCollateralMsg.saveToDb_eq_ok hsave
    apply newRequestsAt_recordStake
    intro c hc
    rw [List.mem_singleton.mp hc]
    rfl
  | @checkpointSubnet ctx tx _ _ _ _ hsave =>
    obtain ⟨s, change, hst, hrot, rfl⟩ := IpcCheckpointSubnetMsg.saveToDb_eq_ok hsave
    obtain ⟨t, ht, -⟩ := hs.state laws hst
    cases change with
    | none => exact .of_same rfl
    | some c =>
      exact newRequestsAt_of_map laws hkept'
        (requests_of_checkpoint laws ctx.blockHeight ctx.blockHash (X.computeTxid tx) hs ht
          (ht ▸ hst) hrot).2
  | prefundSubnet _ _ hsave =>
    obtain ⟨g, -, -, rfl⟩ := IpcPrefundSubnetMsg.saveToDb_eq_ok hsave
    exact .of_same rfl
  | fundSubnet _ _ hsave =>
    obtain ⟨s, -, rfl⟩ := IpcFundSubnetMsg.saveToDb_eq_ok hsave
    exact .of_same rfl
  | batchTransfer _ _ hsave =>
    obtain ⟨_, _, _, heq⟩ := IpcBatchTransferMsg.sameButBatch_saveToDb hsave
    exact .of_same (by rw [heq])
  | killSubnet _ _ hsave =>
    obtain ⟨s, r, -, rfl | ⟨marked, -, rfl⟩⟩ := IpcKillSubnetMsg.saveToDb_eq_ok hsave
    · exact .of_same rfl
    · exact .of_same rfl
  | rewards hsame =>
    obtain ⟨_, _, rfl⟩ := hsame
    exact .of_same rfl
  | _ => exact .of_same rfl

end Stamps

section Logs

variable (laws : DisplayLaws X)

def messageLog : StampedLog HeedDb Txid20 Key RootnetMessage RootnetMessage where
  journal := messageJournal laws
  table := HeedDb.rootnetMsgsDb
  clock := HeedDb.getLastProcessedBlock
  content := id
  stamp := RootnetMessage.blockHeight

/-- The requests, but for their confirmations. -/
def requestLog : StampedLog HeedDb Txid20 Key StakeChangeRequest StakeChangeRequest where
  journal := requestJournal laws
  table := HeedDb.stakeChangesDb
  clock := HeedDb.getLastProcessedBlock
  content := requested
  stamp := StakeChangeRequest.blockHeight

/-- What holds between two commits of a node. -/
structure Kept (db : HeedDb) : Prop where
  sound : Sound X db
  messages : (messageJournal laws).Kept db.rootnetMsgsDb
  requests : (requestJournal laws).Kept db.stakeChangesDb

variable {laws}

theorem requested_of_confirmations {old new : StakeChangeRequest}
    (h : Relation.ReflTransGen Confirmation old new) : requested new = requested old := by
  induction h with
  | refl => rfl
  | tail _ hstep ih =>
    obtain ⟨height, hash, rfl⟩ := hstep
    exact ih

theorem Kept.commit (hk : Kept laws db) (hstep : Commit X db e db') : Kept laws db' := by
  refine ⟨hk.sound.commit laws hstep, hk.messages.writes (queued_commit hk.sound hstep), ?_⟩
  rcases requests_of_commit laws hk.sound hk.requests hstep with hw | ⟨hw, -⟩
  · exact hk.requests.writes hw
  · exact hk.requests.writes hw

theorem kept_empty : Kept laws HeedDb.empty :=
  ⟨sound_empty, Journal.kept_empty (fun _ => rfl), Journal.kept_empty (fun _ => rfl)⟩

theorem advances_messages {h : Nat} (hk : Kept laws db) (hstep : Commit X db e db')
    (hstamp : ∀ a, messageOf e = some a → a.1.blockHeight = h) :
    (messageLog laws).Advances h db.rootnetMsgsDb db'.rootnetMsgsDb where
  kept := (hk.commit hstep).messages
  keeps := by
    intro k m hm
    obtain ⟨t, ht⟩ := hk.messages.keyed _ ((Table.get_eq_some_iff _).mp hm)
    have ht : k = (messageJournal laws).key t m.nonce := ht
    rw [ht] at hm ⊢
    exact ⟨m, Journal.get_of_appends hk.messages (queued_commit hk.sound hstep) hm, rfl⟩
  adds := by
    intro k m hm
    exact (newMessagesAt_commit hstep hstamp k m hm).imp_left (fun hm => ⟨m, hm⟩)

theorem advances_requests {h : Nat} (hk : Kept laws db) (hstep : Commit X db e db')
    (hstamp : ∀ a, messageOf e = some a → a.1.blockHeight = h) :
    (requestLog laws).Advances h db.stakeChangesDb db'.stakeChangesDb where
  kept := (hk.commit hstep).requests
  keeps := by
    intro k c hc
    obtain ⟨t, ht⟩ := hk.requests.keyed _ ((Table.get_eq_some_iff _).mp hc)
    have ht : k = (requestJournal laws).key t c.configurationNumber := ht
    rw [ht] at hc ⊢
    rcases requests_of_commit laws hk.sound hk.requests hstep with hw | ⟨hw, -⟩
    · exact ⟨c, Journal.get_of_appends hk.requests hw hc, rfl⟩
    · obtain ⟨c', hc', hconf⟩ := Journal.get_of_writes hk.requests hw hc
      exact ⟨c', hc', requested_of_confirmations hconf⟩
  adds := newRequestsAt_commit laws hk.sound (hk.commit hstep).requests hstep hstamp

/-- A commit in the order of the blocks is a step of both logs. -/
theorem next_of_inOrder (hk : Kept laws db) (hstep : InOrder X db e db') :
    (messageLog laws).Next db db' ∧ (requestLog laws).Next db db' := by
  rcases hstep.ticks with hsame | ⟨⟨height, rfl⟩, htick⟩
  · exact ⟨.write hsame (advances_messages hk hstep.commit hstep.stamped),
      .write hsame (advances_requests hk hstep.commit hstep.stamped)⟩
  · cases hstep.commit
    exact ⟨.tick htick rfl, .tick htick rfl⟩

theorem timed_empty : (messageLog laws).Timed HeedDb.empty ∧
    (requestLog laws).Timed HeedDb.empty := by
  have hmessages : ∀ t, (messageLog laws).log HeedDb.empty t = [] := fun _ => rfl
  have hrequests : ∀ t, (requestLog laws).log HeedDb.empty t = [] := fun _ => rfl
  have hkept : Kept laws HeedDb.empty := kept_empty
  constructor
  · refine ⟨hkept.messages, ?_, ?_, ?_⟩
    all_goals
      intro t
      rw [hmessages t]
      simp
  · refine ⟨hkept.requests, ?_, ?_, ?_⟩
    all_goals
      intro t
      rw [hrequests t]
      simp

end Logs

section Lives

variable {laws : DisplayLaws X} {start : HeedDb} {l : List (Event × HeedDb)}

theorem Kept.trail (hk : Kept laws start) (hl : Trail (InOrder X) start l) :
    Kept laws (lastStore start l) :=
  invariant_last (C := fun _ _ _ => True) (fun _ _ _ hk hstep _ => hk.commit hstep.commit) hk hl
    (allSteps_of_events (P := fun _ => True) (fun _ _ => trivial))

/-- A version of a trail, with the trail up to it and the trail after it. -/
theorem exists_cut (hl : Trail (InOrder X) start l) {s : HeedDb}
    (hs : s ∈ start :: l.map Prod.snd) :
    ∃ l₁ l₂, l = l₁ ++ l₂ ∧ lastStore start l₁ = s ∧ Trail (InOrder X) start l₁ ∧
      Trail (InOrder X) s l₂ := by
  rcases List.mem_cons.mp hs with rfl | hs
  · exact ⟨[], l, rfl, rfl, trivial, hl⟩
  · obtain ⟨⟨e, s'⟩, ha, rfl⟩ := List.mem_map.mp hs
    obtain ⟨l₁, l₂, rfl⟩ := List.append_of_mem ha
    have hsplit : l₁ ++ (e, s') :: l₂ = (l₁ ++ [(e, s')]) ++ l₂ := by simp
    rw [hsplit] at hl
    obtain ⟨hl₁, hl₂⟩ := trail_append.mp hl
    rw [lastStore_snoc] at hl₂
    exact ⟨l₁ ++ [(e, s')], l₂, hsplit, lastStore_snoc _ _ _ _, hl₁, hl₂⟩

variable {V C : Type} {L : StampedLog HeedDb Txid20 Key V C}
  (hnext : ∀ db e db', Kept laws db → InOrder X db e db' → L.Next db db')
include hnext

theorem later_of_trail (hk : Kept laws start) (hl : Trail (InOrder X) start l) :
    L.Later start (lastStore start l) := by
  induction l generalizing start with
  | nil => exact .refl
  | cons a rest ih =>
    rw [show a = (a.1, a.2) from rfl, lastStore_cons]
    exact .head (hnext _ _ _ hk hl.1) (ih (hk.commit hl.1.commit) hl.2)

/-- Two versions of a trail, one before the other. -/
theorem later_or_later (hk : Kept laws start) (hl : Trail (InOrder X) start l) {s s' : HeedDb}
    (hs : s ∈ start :: l.map Prod.snd) (hs' : s' ∈ start :: l.map Prod.snd) :
    L.Later s s' ∨ L.Later s' s := by
  obtain ⟨l₁, l₂, rfl, rfl, h₁, h₂⟩ := exists_cut hl hs
  have hmem : s' ∈ start :: l₁.map Prod.snd ∨
      s' ∈ lastStore start l₁ :: l₂.map Prod.snd := by
    rw [List.map_append] at hs'
    rcases List.mem_cons.mp hs' with rfl | hs'
    · exact Or.inl List.mem_cons_self
    · exact (List.mem_append.mp hs').imp (List.mem_cons_of_mem _) (List.mem_cons_of_mem _)
  rcases hmem with hmem | hmem
  · right
    obtain ⟨l₃, l₄, rfl, rfl, h₃, h₄⟩ := exists_cut h₁ hmem
    rw [lastStore_append]
    exact later_of_trail hnext (hk.trail h₃) h₄
  · left
    obtain ⟨l₃, l₄, rfl, rfl, h₃, -⟩ := exists_cut h₂ hmem
    exact later_of_trail hnext (hk.trail h₁) h₃

/-- What is read from a log, stamp by stamp, over the life of a node. -/
theorem learned {versions : List HeedDb} {t : Txid20} {n : Nat} {moment : Nat → HeedDb}
    {answers : Nat → List V} (hempty : L.Timed HeedDb.empty)
    (hlife : Life X cfg HeedDb.empty versions)
    (hasked : ∀ h ∈ List.range' 1 n, moment h ∈ HeedDb.empty :: versions ∧
      h ≤ L.clock (moment h) ∧ answers h = L.answer (moment h) t h) :
    ((List.range' 1 n).flatMap (fun h => (L.sortedAnswer (answers h)).map L.content) =
        (L.log (versions.getLastD HeedDb.empty) t).filter (fun c => L.stamp c ≤ n) ∧
      (L.log (versions.getLastD HeedDb.empty) t).filter (fun c => L.stamp c ≤ n) <+:
        L.log (versions.getLastD HeedDb.empty) t) ∧
    ∀ h ∈ List.range' 1 n, ∀ s ∈ HeedDb.empty :: versions, h ≤ L.clock s →
      (L.answer s t h).map L.content = (answers h).map L.content := by
  obtain ⟨l, hl, rfl⟩ := hlife.trail
  have hlast : (l.map Prod.snd).getLastD HeedDb.empty = lastStore HeedDb.empty l := rfl
  have hk : Kept laws HeedDb.empty := kept_empty
  have htimed := hempty.later (later_of_trail hnext hk hl)
  rw [hlast]
  refine ⟨⟨?_, StampedLog.filter_stamp_prefix (htimed.ascending t) n⟩, ?_⟩
  · have hmoments : ∀ h ∈ List.range' 1 n, L.Timed (moment h) ∧
        L.Later (moment h) (lastStore HeedDb.empty l) ∧ h ≤ L.clock (moment h) := by
      intro h hh
      obtain ⟨hmem, hclock, -⟩ := hasked h hh
      obtain ⟨l₁, l₂, rfl, hstore, h₁, h₂⟩ := exists_cut hl hmem
      have hbefore := later_of_trail hnext hk h₁
      have hafter := later_of_trail hnext (hk.trail h₁) (hstore.symm ▸ h₂)
      rw [lastStore_append]
      rw [hstore] at hbefore hafter ⊢
      exact ⟨hempty.later hbefore, hafter, hclock⟩
    rw [← StampedLog.collected htimed hmoments]
    apply List.flatMap_congr
    intro h hh
    rw [(hasked h hh).2.2]
  · intro h hh s hs hclock
    obtain ⟨hmem, hclock', hanswer⟩ := hasked h hh
    rw [hanswer]
    rcases later_or_later hnext hk hl hmem hs with hlater | hlater
    · exact StampedLog.answer_final hclock' hlater
    · exact (StampedLog.answer_final hclock hlater).symm

end Lives

section Told

variable (laws : DisplayLaws X) {versions : List HeedDb} (t : Txid20) {n : Nat}
  (moment : Nat → HeedDb)
include laws

/-- However the monitor is stopped and started again, and whenever the messages of the blocks
are asked for, one confirmed height after the other: the answers are the first messages of
the queue, each once, and what was answered for a confirmed height is not answered
differently later. -/
theorem messages_told_once (hlife : Life X cfg HeedDb.empty versions)
    {answers : Nat → List RootnetMessage}
    (hasked : ∀ h ∈ List.range' 1 n, moment h ∈ HeedDb.empty :: versions ∧
      h ≤ getConfirmedBlockHeight (moment h) ∧
      getRootnetMessages X (moment h) (.fromTxid20 t) h = .ok (answers h)) :
    ((List.range' 1 n).flatMap (fun h => (answers h).mergeSort (fun a b => a.nonce ≤ b.nonce)) =
        (queue X (versions.getLastD HeedDb.empty) t).filter (fun m => m.blockHeight ≤ n) ∧
      (queue X (versions.getLastD HeedDb.empty) t).filter (fun m => m.blockHeight ≤ n) <+:
        queue X (versions.getLastD HeedDb.empty) t) ∧
    ∀ h ∈ List.range' 1 n, ∀ s ∈ HeedDb.empty :: versions, h ≤ getConfirmedBlockHeight s →
      ∀ l, getRootnetMessages X s (.fromTxid20 t) h = .ok l → l = answers h := by
  have hlearned : ∀ h ∈ List.range' 1 n, moment h ∈ HeedDb.empty :: versions ∧
      h ≤ (messageLog laws).clock (moment h) ∧
      answers h = (messageLog laws).answer (moment h) t h := by
    intro h hh
    obtain ⟨hmem, hclock, hanswer⟩ := hasked h hh
    exact ⟨hmem, hclock, (getRootnetMessages_eq_ok.mp hanswer).2⟩
  have hall := learned (fun _ _ _ hk hstep => (next_of_inOrder hk hstep).1) timed_empty.1 hlife
    hlearned
  have hcontent : ∀ l : List RootnetMessage, l.map (messageLog laws).content = l := List.map_id
  have hqueue : ∀ s : HeedDb, (messageLog laws).log s t = queue X s t := by
    intro s
    rw [queue_eq_records laws]
    exact hcontent _
  obtain ⟨⟨hcollected, hprefix⟩, hfinal⟩ := hall
  simp only [hcontent, hqueue] at hcollected hprefix hfinal
  refine ⟨⟨hcollected, hprefix⟩, ?_⟩
  intro h hh s hs hclock l hl
  rw [(getRootnetMessages_eq_ok.mp hl).2]
  exact hfinal h hh s hs hclock

/-- The stake change requests of a subnet, in the order of their numbers. -/
def requestsOf (X : Library) (db : HeedDb) (t : Txid20) : List StakeChangeRequest :=
  (List.range' 1 (db.getAllStakeChanges X (.fromTxid20 t)).length).filterMap
    (fun n => db.getStakeChange X (.fromTxid20 t) n)

/-- The same for the stake changes, but for their confirmations. -/
theorem stakeChanges_told_once (hlife : Life X cfg HeedDb.empty versions)
    {answers : Nat → List StakeChangeRequest}
    (hasked : ∀ h ∈ List.range' 1 n, moment h ∈ HeedDb.empty :: versions ∧
      h ≤ getConfirmedBlockHeight (moment h) ∧
      getStakeChanges X (moment h) (.fromTxid20 t) h = .ok (answers h)) :
    ((List.range' 1 n).flatMap (fun h => ((answers h).mergeSort
          (fun a b => a.configurationNumber ≤ b.configurationNumber)).map requested) =
        ((requestsOf X (versions.getLastD HeedDb.empty) t).map requested).filter
          (fun c => c.blockHeight ≤ n) ∧
      ((requestsOf X (versions.getLastD HeedDb.empty) t).map requested).filter
          (fun c => c.blockHeight ≤ n) <+:
        (requestsOf X (versions.getLastD HeedDb.empty) t).map requested) ∧
    ∀ h ∈ List.range' 1 n, ∀ s ∈ HeedDb.empty :: versions, h ≤ getConfirmedBlockHeight s →
      ∀ l, getStakeChanges X s (.fromTxid20 t) h = .ok l →
        l.map requested = (answers h).map requested := by
  have hlearned : ∀ h ∈ List.range' 1 n, moment h ∈ HeedDb.empty :: versions ∧
      h ≤ (requestLog laws).clock (moment h) ∧
      answers h = (requestLog laws).answer (moment h) t h := by
    intro h hh
    obtain ⟨hmem, hclock, hanswer⟩ := hasked h hh
    exact ⟨hmem, hclock, (getStakeChanges_eq_ok.mp hanswer).2⟩
  have hall := learned (fun _ _ _ hk hstep => (next_of_inOrder hk hstep).2) timed_empty.2 hlife
    hlearned
  have hlog : ∀ s : HeedDb, (requestLog laws).log s t = (requestsOf X s t).map requested := by
    intro s
    simp only [StampedLog.log, Journal.records, requestsOf, List.range'_eq_map_range,
      List.filterMap_map]
    rfl
  obtain ⟨⟨hcollected, hprefix⟩, hfinal⟩ := hall
  simp only [hlog] at hcollected hprefix
  refine ⟨⟨hcollected, hprefix⟩, ?_⟩
  intro h hh s hs hclock l hl
  rw [(getStakeChanges_eq_ok.mp hl).2]
  exact hfinal h hh s hs hclock

end Told

/-- The loops of the monitor live such lives, whatever they are told. -/
theorem life_runOn (cfg : SyncConfig) (start : HeedDb) (replies : List Reply) :
    ∃ versions, Life X cfg.toConfig start versions ∧
      (runOn X cfg (.start start) replies).db = versions.getLastD start := by
  have hsync : ∀ blocks : List FetchedBlock, Consecutive start.getLastProcessedBlock blocks →
      Life X cfg.toConfig start ((sync X cfg.toConfig blocks start).commits.take
        (sync X cfg.toConfig blocks start).commits.length ++ []) :=
    fun blocks hblocks => .started _ hblocks (.stopped _)
  simp only [List.take_length, List.append_nil] at hsync
  have horderly : Orderly X cfg start (.start start) := orderly_start start
  obtain ⟨-, ⟨blocks, hfollows⟩, -⟩ | ⟨-, blocks, b, hfails⟩ := horderly.runOn replies
  · exact ⟨_, hsync blocks hfollows.consecutive, hfollows.database⟩
  · exact ⟨_, hsync (blocks ++ [b]) hfails.consecutive, hfails.database⟩

section Funded

open Solo

/-- Two subnets start in the first block, are funded in the second one and staked to in the third
one. -/
def fundedBlocks : List FetchedBlock :=
  [({ context with blockHeight := 1 }, twinTxs), ({ context with blockHeight := 2 }, twinFunds),
    ({ context with blockHeight := 3 }, twinStakes)]

/-- The versions of a monitor that is stopped after the second block, and started again. -/
def fundedVersions : List HeedDb :=
  let first := (sync twinLibrary ⟨none⟩ fundedBlocks HeedDb.empty).commits.take 9
  let db := first.getLastD HeedDb.empty
  first ++ ((sync twinLibrary ⟨none⟩ (fundedBlocks.drop 2) db).commits.take 4 ++ [])

def fundedDb : HeedDb := fundedVersions.getLastD HeedDb.empty

theorem life_funded : Life twinLibrary ⟨none⟩ HeedDb.empty fundedVersions := by
  refine .started 9 rfl (.started 4 ?_ (.stopped _))
  unfold Consecutive
  decide +kernel

theorem mem_fundedVersions : fundedDb ∈ HeedDb.empty :: fundedVersions :=
  List.getLastD_mem_cons

theorem messages_told_once_when_funded :
    (∀ t ∈ [subnet, otherSubnet 20],
      (List.range' 1 3).flatMap (fun h => (fundedDb.getRootnetMsgsByHeight twinLibrary
          (.fromTxid20 t) h).mergeSort (fun a b => a.nonce ≤ b.nonce)) =
        (queue twinLibrary fundedDb t).filter (fun m => m.blockHeight ≤ 3)) ∧
      [subnet, otherSubnet 20].map (fun t =>
        (queue twinLibrary fundedDb t).map (·.nonce)) = [[0, 1], [0]] := by
  refine ⟨fun t ht => (messages_told_once (displayLaws_ideal _) t (fun _ => fundedDb) life_funded
    ?_).1.1, ?_⟩
  · intro h hh
    refine ⟨mem_fundedVersions, ?_, getRootnetMessages_eq_ok.mpr ⟨?_, rfl⟩⟩
    · revert h hh
      decide +kernel
    · revert t ht
      simp only [← Option.isSome_iff_exists]
      decide +kernel
  · decide +kernel

theorem stakeChanges_told_once_when_staked :
    (∀ t ∈ [subnet, otherSubnet 20],
      (List.range' 1 3).flatMap (fun h => ((fundedDb.getStakeChangesByHeight twinLibrary
          (.fromTxid20 t) h).mergeSort
            (fun a b => a.configurationNumber ≤ b.configurationNumber)).map requested) =
        ((requestsOf twinLibrary fundedDb t).map requested).filter (fun c => c.blockHeight ≤ 3)) ∧
      [subnet, otherSubnet 20].map (fun t =>
        (requestsOf twinLibrary fundedDb t).map (·.configurationNumber)) = [[1, 2], [1]] := by
  refine ⟨fun t ht => (stakeChanges_told_once (displayLaws_ideal _) t (fun _ => fundedDb)
    life_funded ?_).1.1, ?_⟩
  · intro h hh
    refine ⟨mem_fundedVersions, ?_, getStakeChanges_eq_ok.mpr ⟨?_, rfl⟩⟩
    · revert h hh
      decide +kernel
    · revert t ht
      simp only [← Option.isSome_iff_exists]
      decide +kernel
  · decide +kernel

end Funded

end Monitor
