import BitcoinIpc.Monitor
import BitcoinIpc.Committee

/-!
# Runs of the monitor

Everything the monitor commits, as a labelled step: the message with its
transaction, the checkpoint transaction saved after a checkpoint, the reward
bookkeeping and the height of a block. The commits of every transaction and of
every block are a trail of these steps, so that what each step preserves holds
in every state the monitor reaches.
-/

namespace Monitor

open Faults Bytes Chain Messages Crates Multisig Db Grouping Commits Rewards
open IpcBatchTransferMsg (Origin)

inductive Event where
  | message (ctx : BlockContext) (tx : Transaction) (m : IpcMessage)
  | transaction (tx : Transaction)
  | rewards
  | block (height : Nat)

/-- The two stores differ at most in the reward tables. -/
def SameButRewards (db db' : HeedDb) : Prop :=
  ∃ candidates results,
    db' = { db with rewardCandidatesDb := candidates, rewardResultsDb := results }

variable (X : Library)

/-- How a message is found in a transaction. -/
def Parsed (ctx : BlockContext) (db : HeedDb) (tx : Transaction) : IpcMessage → Prop
  | .createSubnet m => .createSubnet m ∈ witnessMessages X tx
  | .joinSubnet m => .joinSubnet m ∈ witnessMessages X tx
  | .prefundSubnet m => IpcPrefundSubnetMsg.fromTx tx = .ok m
  | .fundSubnet m => IpcFundSubnetMsg.fromTx tx = .ok m
  | .checkpointSubnet m => IpcCheckpointSubnetMsg.fromCheckpointTx X db tx = .ok m
  | .batchTransfer m => IpcBatchTransferMsg.fromTx X ctx.native ctx.erc db tx = .ok m
  | .stakeCollateral m => IpcStakeCollateralMsg.fromTx X db tx = .ok m
  | .unstakeCollateral m => IpcUnstakeCollateralMsg.fromTx X db tx = .ok m
  | .killSubnet m => IpcKillSubnetMsg.fromTx X db tx = .ok m

/-- Origin of a message found in a transaction of a block. -/
def originOf (ctx : BlockContext) (tx : Transaction) : Origin :=
  ⟨ctx.blockHeight, ctx.blockHash, X.computeTxid tx⟩

/-- The write transactions of the monitor. The message of an event is the one that
is saved: a join with the collateral of its transaction, a batch transfer with
the subnet of its checkpoint. -/
inductive Commit : HeedDb → Event → HeedDb → Prop
  | createSubnet {db ctx tx m} :
      Parsed X ctx db tx (.createSubnet m) → m.validate = .ok () →
      Commit db (.message ctx tx (.createSubnet m))
        (m.saveToDb X db ctx.blockHeight (X.computeTxid tx)).1
  | joinSubnet {db ctx tx m₀ m saved} :
      Parsed X ctx db tx (.joinSubnet m₀) → checkJoin X tx db m₀ = .ok m →
      m.saveToDb X db ctx.blockHeight ctx.blockHash (X.computeTxid tx) = .ok saved →
      Commit db (.message ctx tx (.joinSubnet m)) saved.1
  | prefundSubnet {db ctx tx m db'} :
      Parsed X ctx db tx (.prefundSubnet m) → m.validate = .ok () →
      m.saveToDb X db ctx.blockHeight (X.computeTxid tx) = .ok db' →
      Commit db (.message ctx tx (.prefundSubnet m)) db'
  | fundSubnet {db ctx tx m db'} :
      Parsed X ctx db tx (.fundSubnet m) → m.validate = .ok () →
      m.saveToDb X db ctx.blockHeight ctx.blockHash (X.computeTxid tx) = .ok db' →
      Commit db (.message ctx tx (.fundSubnet m)) db'
  | checkpointSubnet {db ctx tx m saved} :
      Parsed X ctx db tx (.checkpointSubnet m) → m.validate = .ok () →
      m.saveToDb X db ctx.blockHeight ctx.blockHash (X.computeTxid tx) = .ok saved →
      Commit db (.message ctx tx (.checkpointSubnet m)) saved.1
  | batchTransfer {db ctx tx m₀ m saved} :
      Parsed X ctx db tx (.batchTransfer m₀) → checkBatch X db m₀ = .ok m →
      m.saveToDb X db (originOf X ctx tx) = .ok saved →
      Commit db (.message ctx tx (.batchTransfer m)) saved.1
  | stakeCollateral {db ctx tx m db'} :
      Parsed X ctx db tx (.stakeCollateral m) → m.validate = .ok () →
      m.saveToDb X db ctx.blockHeight ctx.blockHash (X.computeTxid tx) = .ok db' →
      Commit db (.message ctx tx (.stakeCollateral m)) db'
  | unstakeCollateral {db ctx tx m db'} :
      Parsed X ctx db tx (.unstakeCollateral m) → m.validate = .ok () →
      m.saveToDb X db ctx.blockHeight ctx.blockHash (X.computeTxid tx) = .ok db' →
      Commit db (.message ctx tx (.unstakeCollateral m)) db'
  | killSubnet {db ctx tx m db'} :
      Parsed X ctx db tx (.killSubnet m) → m.validate = .ok () →
      m.saveToDb X db ctx.blockHeight ctx.blockHash (X.computeTxid tx) = .ok db' →
      Commit db (.message ctx tx (.killSubnet m)) db'
  | transaction {db tx} : Commit db (.transaction tx) (db.saveTransaction X tx)
  | rewards {db db'} : SameButRewards db db' → Commit db .rewards db'
  | block {db height} : Commit db (.block height) (db.setLastProcessedBlock height)

/-- The states the monitor reaches from an empty database. -/
def Reachable (db : HeedDb) : Prop :=
  ∃ l, Trail (Commit X) HeedDb.empty l ∧ lastStore HeedDb.empty l = db

def messageOf : Event → Option (BlockContext × Transaction × IpcMessage)
  | .message ctx tx m => some (ctx, tx, m)
  | _ => none

/-- The batch transfer of an event. -/
def batchOf : Event → Option IpcBatchTransferMsg
  | .message _ _ (.batchTransfer m) => some m
  | _ => none

/-- Whether an event adds messages to the queues of subnets. -/
def addsToQueue : Event → Bool
  | .message _ _ (.fundSubnet _) => true
  | .message _ _ (.batchTransfer _) => true
  | _ => false

def transactionOf : Event → Option Transaction
  | .transaction tx => some tx
  | _ => none

/-- The messages that a trail saves, in their order. -/
def messages (l : List (Event × HeedDb)) : List (BlockContext × Transaction × IpcMessage) :=
  l.filterMap (fun a => messageOf a.1)

@[simp] theorem messages_append (l₁ l₂ : List (Event × HeedDb)) :
    messages (l₁ ++ l₂) = messages l₁ ++ messages l₂ := List.filterMap_append

/-- A commit that saves no message, and no transaction but the one that is processed. -/
def QuietFor (tx : Option Transaction) (db : HeedDb) (e : Event) (db' : HeedDb) : Prop :=
  Commit X db e db' ∧ messageOf e = none ∧ ∀ t, transactionOf e = some t → some t = tx

/-- A commit that saves no message and no transaction. -/
abbrev Quiet : HeedDb → Event → HeedDb → Prop := QuietFor X none

/-- The second message is the first one as it is saved. -/
def SavedAs : IpcMessage → IpcMessage → Prop
  | .joinSubnet m, .joinSubnet m' => m' = { m with collateral := m'.collateral }
  | .batchTransfer m, .batchTransfer m' => m' = { m with subnetId := m'.subnetId }
  | m, m' => m' = m

section Link

variable {X} {cfg : Config} {ctx : BlockContext} {tx : Transaction} {db : HeedDb}

theorem QuietFor.mono {e : Event} {db' : HeedDb} (h : Quiet X db e db') :
    QuietFor X (some tx) db e db' :=
  ⟨h.1, h.2.1, fun t ht => absurd (h.2.2 t ht) (by simp)⟩

theorem trail_of_quietFor {l : List (Event × HeedDb)} (h : Trail (QuietFor X (some tx)) db l) :
    Trail (Commit X) db l ∧ messages l = [] ∧ ∀ a ∈ l, ∀ t, transactionOf a.1 = some t → t = tx := by
  induction l generalizing db with
  | nil => exact ⟨trivial, rfl, by simp⟩
  | cons a rest ih =>
    obtain ⟨hrest, hnone, hsaved⟩ := ih h.2
    refine ⟨⟨h.1.1, hrest⟩, ?_, ?_⟩
    · have hhead : messageOf a.1 = none := h.1.2.1
      simp only [messages, List.filterMap_cons, hhead]
      exact hnone
    · rintro b hb t ht
      rcases List.mem_cons.mp hb with rfl | hb
      · exact Option.some.inj (h.1.2.2 t ht)
      · exact hsaved b hb t ht

/-- The commits of a program on one store are a trail that saves the listed
messages of the transaction. -/
def Saves (X : Library) {ε α : Type} (ctx : BlockContext) (tx : Transaction) (db : HeedDb)
    (p : Proc HeedDb ε α) (ms : List IpcMessage) : Prop :=
  ∃ l, Trail (Commit X) db l ∧ l.map Prod.snd = (p db).commits ∧
    messages l = ms.map (fun m => (ctx, tx, m)) ∧
    ∀ a ∈ l, ∀ t, transactionOf a.1 = some t → t = tx

/-- The program saves the message once, or saves nothing. -/
def HandlesOnce (X : Library) {ε α : Type} (ctx : BlockContext) (tx : Transaction) (db : HeedDb)
    (p : Proc HeedDb ε α) (m : IpcMessage) : Prop :=
  ∃ saved : Option IpcMessage, Saves X ctx tx db p saved.toList ∧ ∀ m' ∈ saved, SavedAs m m'

theorem saves_nil {ε α : Type} {p : Proc HeedDb ε α} (h : (p db).commits = []) :
    Saves X ctx tx db p [] :=
  ⟨[], trivial, h.symm, rfl, by simp⟩

theorem handlesOnce_of_nil {ε α : Type} {p : Proc HeedDb ε α} {m : IpcMessage}
    (h : (p db).commits = []) : HandlesOnce X ctx tx db p m :=
  ⟨none, saves_nil h, by simp⟩

theorem handlesOnce_of_saved {ε α : Type} {p : Proc HeedDb ε α} {m : IpcMessage}
    (m' : IpcMessage) {db' : HeedDb} {l : List (Event × HeedDb)} (hm : SavedAs m m')
    (hc : Commit X db (.message ctx tx m') db') (hl : Trail (QuietFor X (some tx)) db' l)
    (h : (p db).commits = db' :: l.map Prod.snd) : HandlesOnce X ctx tx db p m := by
  obtain ⟨htrail, hnone, hsaved⟩ := trail_of_quietFor hl
  refine ⟨some m', ⟨(.message ctx tx m', db') :: l, ⟨hc, htrail⟩, h.symm, ?_, ?_⟩, ?_⟩
  · simp only [messages, List.filterMap_cons, messageOf] at hnone ⊢
    rw [hnone]
    rfl
  · rintro a ha t ht
    rcases List.mem_cons.mp ha with rfl | ha
    · cases ht
    · exact hsaved a ha t ht
  · rintro m'' hm''
    cases hm''
    exact hm

/-- Two programs, one after the other. -/
theorem Saves.bind {p : MonitorProc Unit} {q : MonitorProc Unit} {ms ms' : List IpcMessage}
    (hp : Saves X ctx tx db p ms) (hout : (p db).outcome = .ok ())
    (hq : Saves X ctx tx ((p db).store db) q ms') :
    Saves X ctx tx db (p >>= fun _ => q) (ms ++ ms') := by
  obtain ⟨l, hl, hc, hm, hs⟩ := hp
  obtain ⟨l', hl', hc', hm', hs'⟩ := hq
  have hlast : lastStore db l = (p db).store db := by rw [lastStore, hc]; rfl
  refine ⟨l ++ l', trail_append.mpr ⟨hl, by rw [hlast]; exact hl'⟩, ?_, ?_, ?_⟩
  · rw [List.map_append, hc, hc', Proc.bind_ok hout]
  · rw [messages_append, hm, hm', List.map_append]
  · intro a ha
    rcases List.mem_append.mp ha with ha | ha
    · exact hs a ha
    · exact hs' a ha

theorem Saves.bind_error {p : MonitorProc Unit} {q : MonitorProc Unit} {ms : List IpcMessage}
    {e : Failure MonitorError} (hp : Saves X ctx tx db p ms) (hout : (p db).outcome = .error e) :
    Saves X ctx tx db (p >>= fun _ => q) ms := by
  obtain ⟨l, hl, hc, hm, hs⟩ := hp
  exact ⟨l, hl, by rw [hc, Proc.bind_error hout], hm, hs⟩

theorem checkJoin_eq {m m' : IpcJoinSubnetMsg} (h : checkJoin X tx db m = .ok m') :
    m' = { m with collateral := m'.collateral } := by
  obtain ⟨_, -, h⟩ := bind_eq_ok.mp h
  obtain ⟨_, -, h⟩ := bind_eq_ok.mp h
  obtain ⟨_, -, h⟩ := bind_eq_ok.mp h
  obtain ⟨_, -, h⟩ := bind_eq_ok.mp h
  cases h
  rfl

/-- What is checked of a batch transfer, and against which checkpoint. -/
theorem checkBatch_eq_ok {m m' : IpcBatchTransferMsg} :
    checkBatch X db m = .ok m' ↔ m.validate = .ok () ∧
      ∃ c checkpoint, db.getTransaction m.checkpointTxid = some c ∧
        IpcCheckpointSubnetMsg.fromCheckpointTx X db c = .ok checkpoint ∧
        checkpoint.validate = .ok () ∧ m.validateForCheckpoint X c = .ok () ∧
        m' = { m with subnetId := checkpoint.subnetId } := by
  constructor
  · intro h
    obtain ⟨_, hvalid, h⟩ := bind_eq_ok.mp h
    obtain ⟨c, hc, h⟩ := bind_eq_ok.mp h
    obtain ⟨checkpoint, hparsed, h⟩ := bind_eq_ok.mp h
    obtain ⟨_, hchecked, h⟩ := bind_eq_ok.mp h
    obtain ⟨_, hlinked, h⟩ := bind_eq_ok.mp h
    cases h
    exact ⟨mapErr_eq_ok.mp hvalid, c, checkpoint, okOr_eq_ok.mp hc, mapErr_eq_ok.mp hparsed,
      mapErr_eq_ok.mp hchecked, mapErr_eq_ok.mp hlinked, rfl⟩
  · rintro ⟨hvalid, c, checkpoint, hc, hparsed, hchecked, hlinked, rfl⟩
    refine bind_eq_ok.mpr ⟨(), mapErr_eq_ok.mpr hvalid, ?_⟩
    refine bind_eq_ok.mpr ⟨c, okOr_eq_ok.mpr hc, ?_⟩
    refine bind_eq_ok.mpr ⟨checkpoint, mapErr_eq_ok.mpr hparsed, ?_⟩
    refine bind_eq_ok.mpr ⟨(), mapErr_eq_ok.mpr hchecked, ?_⟩
    exact bind_eq_ok.mpr ⟨(), mapErr_eq_ok.mpr hlinked, rfl⟩

theorem checkBatch_eq {m m' : IpcBatchTransferMsg} (h : checkBatch X db m = .ok m') :
    m' = { m with subnetId := m'.subnetId } := by
  obtain ⟨-, c, checkpoint, -, -, -, -, rfl⟩ := checkBatch_eq_ok.mp h
  rfl

/-- A message whose handler commits once, last. -/
theorem handlesOnce_save {p : MonitorProc Unit} {m : IpcMessage} {x : Outcome MonitorError Unit}
    {y : HeedDb → Outcome MonitorError HeedDb} (hp : p = (do
      Proc.lift x
      let db ← Proc.read
      let db' ← Proc.lift (y db)
      Proc.commit db')) (hm : SavedAs m m)
    (h : ∀ db', x = .ok () → y db = .ok db' → Commit X db (.message ctx tx m) db') :
    HandlesOnce X ctx tx db p m := by
  subst hp
  cases hx : x with
  | error err => exact handlesOnce_of_nil rfl
  | ok u =>
    cases hy : y db with
    | error err =>
      apply handlesOnce_of_nil
      rw [Proc.lift_ok_bind, Proc.read_bind, hy]
      rfl
    | ok db' =>
      refine handlesOnce_of_saved m hm (h db' hx hy) (l := []) trivial ?_
      rw [Proc.lift_ok_bind, Proc.read_bind, hy]
      rfl

/-- A commit of the reward tracker, which writes its own tables. -/
def RewardStep (db : HeedDb) (e : Event) (db' : HeedDb) : Prop :=
  e = .rewards ∧ SameButRewards db db'

theorem quiet_of_rewardStep (db : HeedDb) (e : Event) (db' : HeedDb)
    (h : RewardStep db e db') : Quiet X db e db' := by
  obtain ⟨rfl, hsame⟩ := h
  refine ⟨.rewards hsame, rfl, ?_⟩
  intro t ht
  cases ht

theorem sameButRewards_foldl {α : Type} (f : HeedDb → α → HeedDb)
    (h : ∀ db a, SameButRewards db (f db a)) (l : List α) (db : HeedDb) :
    SameButRewards db (l.foldl f db) := by
  induction l generalizing db with
  | nil => exact ⟨_, _, rfl⟩
  | cons a rest ih =>
    obtain ⟨c, r, hf⟩ := h db a
    obtain ⟨c', r', hrest⟩ := ih (f db a)
    exact ⟨c', r', by rw [List.foldl_cons, hrest, hf]⟩

theorem steps_rotateRewards (snapshot : Nat) (s : SubnetId) (n : Nat) :
    Steps RewardStep (rotateRewards X snapshot s n) := by
  intro db
  simp only [rotateRewards, Proc.read_bind]
  cases db.getRewardCandidateInfo X snapshot s with
  | none => exact ⟨[], trivial, rfl⟩
  | some info =>
    by_cases hn : n = info.mostRecentCommitteeNumber
    · exact ⟨[], trivial, by simp [hn]⟩
    · simp only [if_neg hn]
      cases hr : rotateCandidate X db snapshot s n info with
      | error e => exact ⟨[], trivial, rfl⟩
      | ok db' =>
        obtain ⟨_, -, hr⟩ := bind_eq_ok.mp hr
        obtain ⟨_, -, hr⟩ := bind_eq_ok.mp hr
        cases hr
        exact ⟨[(.rewards, _)], ⟨⟨rfl, _, _, rfl⟩, trivial⟩, rfl⟩

theorem steps_updateAfterCheckpoint (c : RewardConfig) (h : Nat) (s : SubnetId)
    (r : SubnetCheckpoint) : Steps RewardStep (updateAfterCheckpoint X c h s r) := by
  unfold updateAfterCheckpoint
  cases c.snapshotBoundariesFromHeight h with
  | none => exact Steps.ret ()
  | some b =>
    obtain ⟨snapshot, start, stop⟩ := b
    dsimp only
    split_ifs
    · exact Steps.ret ()
    · exact fun db => ⟨[(.rewards, db.deleteRewardCandidateInfo X snapshot s)],
        ⟨⟨rfl, _, _, rfl⟩, trivial⟩, rfl⟩
    · exact Steps.ret ()
    · exact steps_rotateRewards snapshot s r.nextCommitteeNumber

theorem steps_startSnapshot (snapshot start stop h : Nat) :
    Steps RewardStep (startSnapshot X snapshot start stop h) := by
  unfold startSnapshot
  split_ifs
  · intro db
    refine ⟨[(.rewards, storeCandidates X db snapshot start stop)], ⟨⟨rfl, ?_⟩, trivial⟩, rfl⟩
    exact sameButRewards_foldl _ (fun _ _ => ⟨_, _, rfl⟩) _ db
  · exact Steps.ret ()

theorem steps_endSnapshot (σ : HashOrder XOnlyPublicKey) (snapshot stop h : Nat) :
    Steps RewardStep (endSnapshot X σ snapshot stop h) := by
  unfold endSnapshot
  split_ifs
  · intro db
    simp only [Proc.read_bind]
    cases hr : finalizeRewards X σ db snapshot with
    | error e => exact ⟨[], trivial, rfl⟩
    | ok db' =>
      obtain ⟨_, -, hr⟩ := bind_eq_ok.mp hr
      obtain ⟨_, -, hr⟩ := bind_eq_ok.mp hr
      obtain ⟨_, -, hr⟩ := bind_eq_ok.mp hr
      obtain ⟨_, -, hr⟩ := bind_eq_ok.mp hr
      cases hr
      exact ⟨[(.rewards, _)], ⟨⟨rfl, _, _, rfl⟩, trivial⟩, rfl⟩
  · exact Steps.ret ()

theorem steps_updateAfterBlock (c : RewardConfig) (σ : HashOrder XOnlyPublicKey) (h : Nat) :
    Steps RewardStep (updateAfterBlock X c σ h) := by
  unfold updateAfterBlock
  cases c.snapshotBoundariesFromHeight h with
  | none => exact Steps.ret ()
  | some b =>
    exact Steps.bind (steps_startSnapshot b.1 b.2.1 b.2.2 h)
      (fun _ => steps_endSnapshot σ b.1 b.2.2 h)

theorem steps_rewardCheckpoint (m : IpcCheckpointSubnetMsg) (r : SubnetCheckpoint) :
    Steps RewardStep (rewardCheckpoint X cfg ctx m r) := by
  unfold rewardCheckpoint
  split
  · exact Steps.ret ()
  · exact Steps.handle (steps_updateAfterCheckpoint _ _ _ _) _

theorem steps_rewardBlock (cfg : Config) (ctx : BlockContext) :
    Steps RewardStep (rewardBlock X cfg ctx) := by
  unfold rewardBlock
  split
  · exact Steps.ret ()
  · exact Steps.handle (steps_updateAfterBlock _ _ _) _

theorem importCommittee_commits (m : IpcCheckpointSubnetMsg) (r : SubnetCheckpoint)
    (db : HeedDb) : (importCommittee X m r db).commits = [] := by
  unfold importCommittee
  split_ifs
  · simp only [Proc.read_bind]
    cases okOr (db.getSubnetState X m.subnetId) _ with
    | error e => rfl
    | ok s =>
      simp only [Proc.lift_ok_bind]
      cases s.committee.multisigAddress.requireNetwork <;> rfl
  · rfl

theorem handlesOnce_processCheckpointSubnet {m : IpcCheckpointSubnetMsg}
    (hp : Parsed X ctx db tx (.checkpointSubnet m)) :
    HandlesOnce X ctx tx db (processCheckpointSubnet X cfg ctx tx m) (.checkpointSubnet m) := by
  unfold processCheckpointSubnet
  cases hv : m.validate with
  | error e => cases e <;> exact handlesOnce_of_nil rfl
  | ok u =>
    cases hs : m.saveToDb X db ctx.blockHeight ctx.blockHash (X.computeTxid tx) with
    | error e =>
      apply handlesOnce_of_nil
      cases e <;> simp [orMsgInvalid, orProcessing, mapErr, hs]
    | ok saved =>
      have hrest : Steps (Quiet X) (do
          importCommittee X m saved.2
          rewardCheckpoint X cfg ctx m saved.2 : MonitorProc Unit) :=
        Steps.bind (fun d => ⟨[], trivial, (importCommittee_commits m saved.2 d).symm⟩)
          (fun _ => (steps_rewardCheckpoint m saved.2).mono quiet_of_rewardStep)
      obtain ⟨l, hl, hc⟩ := hrest (saved.1.saveTransaction X tx)
      refine handlesOnce_of_saved (.checkpointSubnet m) rfl (.checkpointSubnet hp hv hs)
        (l := (.transaction tx, saved.1.saveTransaction X tx) :: l)
        ⟨⟨.transaction, rfl, fun t ht => ht.symm⟩, trail_imp (fun _ _ _ => QuietFor.mono) hl⟩ ?_
      simp only [List.map_cons, hc]
      simp [orMsgInvalid, orProcessing, hs]

/-- The commits of one message are steps of the monitor, which save it at most once. -/
theorem handlesOnce_processIpcMsg (cfg : Config) {m : IpcMessage} (hp : Parsed X ctx db tx m) :
    HandlesOnce X ctx tx db (processIpcMsg X cfg ctx tx m) m := by
  cases m with
  | createSubnet m =>
    simp only [processIpcMsg, processCreateSubnet]
    cases hv : m.validate with
    | error e => cases e <;> exact handlesOnce_of_nil rfl
    | ok u =>
      refine handlesOnce_of_saved (.createSubnet m) rfl (.createSubnet hp hv) (l := [])
        trivial ?_
      simp only [orMsgInvalid, mapErr_ok, Proc.lift_ok_bind, Proc.read_bind, Proc.commit_bind]
      cases (m.saveToDb X db ctx.blockHeight (X.computeTxid tx)).2.multisigAddress X <;> rfl
  | joinSubnet m =>
    simp only [processIpcMsg, processJoinSubnet]
    cases hj : checkJoin X tx db m with
    | error e => exact handlesOnce_of_nil (by simp [hj])
    | ok m' =>
      cases hs : m'.saveToDb X db ctx.blockHeight ctx.blockHash (X.computeTxid tx) with
      | error e => exact handlesOnce_of_nil (by cases e <;> simp [hj, orProcessing, mapErr, hs])
      | ok saved =>
        refine handlesOnce_of_saved (.joinSubnet m') ?_ (.joinSubnet hp hj hs) (l := [])
          trivial ?_
        · exact checkJoin_eq hj
        · simp only [Proc.read_bind, hj, Proc.lift_ok_bind, orProcessing, hs, mapErr_ok,
            Proc.commit_bind]
          cases saved.2 with
          | none => rfl
          | some s =>
            dsimp only
            cases (s.committee.multisigAddress.requireNetwork : Outcome MonitorError Address) <;>
              rfl
  | prefundSubnet m =>
    exact handlesOnce_save rfl rfl (fun db' hv hs =>
      .prefundSubnet hp (mapErr_eq_ok.mp hv) (mapErr_eq_ok.mp hs))
  | fundSubnet m =>
    exact handlesOnce_save rfl rfl (fun db' hv hs =>
      .fundSubnet hp (mapErr_eq_ok.mp hv) (mapErr_eq_ok.mp hs))
  | checkpointSubnet m => exact handlesOnce_processCheckpointSubnet hp
  | batchTransfer m =>
    simp only [processIpcMsg, processBatchTransfer]
    cases hj : checkBatch X db m with
    | error e => exact handlesOnce_of_nil (by simp [hj])
    | ok m' =>
      cases hs : m'.saveToDb X db (originOf X ctx tx) with
      | error e =>
        apply handlesOnce_of_nil
        rw [originOf] at hs
        cases e <;> simp [hj, orProcessing, mapErr, hs]
      | ok saved =>
        refine handlesOnce_of_saved (.batchTransfer m') ?_ (.batchTransfer hp hj hs)
          (l := []) trivial ?_
        · exact checkBatch_eq hj
        · rw [originOf] at hs
          simp [hj, orProcessing, hs]
  | stakeCollateral m =>
    exact handlesOnce_save rfl rfl (fun db' hv hs =>
      .stakeCollateral hp (mapErr_eq_ok.mp hv) (mapErr_eq_ok.mp hs))
  | unstakeCollateral m =>
    exact handlesOnce_save rfl rfl (fun db' hv hs =>
      .unstakeCollateral hp (mapErr_eq_ok.mp hv) (mapErr_eq_ok.mp hs))
  | killSubnet m =>
    exact handlesOnce_save rfl rfl (fun db' hv hs =>
      .killSubnet hp (mapErr_eq_ok.mp hv) (mapErr_eq_ok.mp hs))

theorem handlesOnce_handleMsg (cfg : Config) {m : IpcMessage} (hp : Parsed X ctx db tx m) :
    HandlesOnce X ctx tx db (handleMsg X cfg ctx tx m) m := by
  obtain ⟨saved, ⟨l, hl, hc, hm⟩, hs⟩ := handlesOnce_processIpcMsg cfg hp
  refine ⟨saved, ⟨l, hl, ?_, hm⟩, hs⟩
  simp only [handleMsg, Proc.handle]
  split <;> exact hc

/-- Only creations and joins are read from witnesses. -/
theorem inWitness_of_mem {m : IpcMessage} (hm : m ∈ witnessMessages X tx) :
    m.inWitness = true := by
  obtain ⟨i, -, hi⟩ := List.mem_flatMap.mp hm
  obtain ⟨item, -, hitem⟩ := List.mem_filterMap.mp hi
  simp only [witnessMessage] at hitem
  split_ifs at hitem
  split at hitem
  · simp only [fromWitness] at hitem
    split_ifs at hitem
    split at hitem
    · obtain ⟨c, -, rfl⟩ := Option.map_eq_some_iff.mp hitem
      rfl
    · obtain ⟨c, -, rfl⟩ := Option.map_eq_some_iff.mp hitem
      rfl
    · cases hitem
  · cases hitem

theorem parsed_of_mem_witnessMessages {m : IpcMessage} (hm : m ∈ witnessMessages X tx)
    (db : HeedDb) : Parsed X ctx db tx m := by
  have hw := inWitness_of_mem hm
  cases m with
  | createSubnet m => exact hm
  | joinSubnet m => exact hm
  | _ => cases hw

/-- The messages of a list are handled one after another, each once. -/
theorem saves_each {f : IpcMessage → MonitorProc Unit} {l : List IpcMessage}
    (h : ∀ m ∈ l, ∀ db, HandlesOnce X ctx tx db (f m) m) (db : HeedDb) :
    ∃ ms, Saves X ctx tx db (Proc.each f l) ms ∧
      List.SublistForall₂ (fun m' m => SavedAs m m') ms l := by
  induction l generalizing db with
  | nil => exact ⟨[], saves_nil rfl, .nil⟩
  | cons m rest ih =>
    obtain ⟨saved, hsaves, hs⟩ := h m List.mem_cons_self db
    have hsub : ∀ ms, List.SublistForall₂ (fun m' m => SavedAs m m') ms rest →
        List.SublistForall₂ (fun m' m => SavedAs m m') (saved.toList ++ ms) (m :: rest) := by
      intro ms hms
      cases hsaved : saved with
      | none => exact .cons_right hms
      | some m' => exact .cons (hs m' hsaved) hms
    rw [Proc.each_cons]
    cases hout : (f m db).outcome with
    | error e => exact ⟨saved.toList, hsaves.bind_error hout, by simpa using hsub [] .nil⟩
    | ok u =>
      obtain ⟨ms, hrest, hms⟩ :=
        ih (fun m hm => h m (List.mem_cons_of_mem _ hm)) ((f m db).store db)
      exact ⟨saved.toList ++ ms, hsaves.bind hout hrest, hsub ms hms⟩

theorem mem_of_firstParsed {ε : Type} {l : List (Outcome IpcLibError IpcMessage)} {m : IpcMessage}
    (h : (firstParsed l : Outcome ε (Option IpcMessage)) = .ok (some m)) : .ok m ∈ l := by
  induction l with
  | nil => simp [firstParsed] at h
  | cons x rest ih =>
    match x with
    | .ok m' =>
      have : m' = m := by simpa [firstParsed] using h
      simp [this]
    | .error (.error e) => exact List.mem_cons_of_mem _ (ih h)
    | .error .panic => simp [firstParsed] at h

theorem map_eq_ok {ε α β : Type} {f : α → β} {x : Outcome ε α} {b : β}
    (h : f <$> x = .ok b) : ∃ a, x = .ok a ∧ f a = b := by
  cases x with
  | error e => cases h
  | ok a => exact ⟨a, rfl, Except.ok.inj h⟩

theorem parsed_of_mem_outputParsers {m : IpcMessage}
    (h : .ok m ∈ outputParsers X ctx db tx) :
    Parsed X ctx db tx m ∧ m.inWitness = false := by
  simp only [outputParsers, List.mem_cons, List.not_mem_nil, or_false] at h
  rcases h with h | h | h | h | h | h | h
  all_goals
    obtain ⟨m', hm', rfl⟩ := map_eq_ok h.symm
    exact ⟨hm', rfl⟩

theorem handlesOnce_processOutputs (cfg : Config) (ctx : BlockContext) (tx : Transaction)
    (db : HeedDb) :
    ∃ found : Option IpcMessage, (∀ m ∈ found, Parsed X ctx db tx m ∧ m.inWitness = false) ∧
      ∃ ms, Saves X ctx tx db (processOutputs X cfg ctx tx) ms ∧
        List.SublistForall₂ (fun m' m => SavedAs m m') ms found.toList := by
  have hnone : (processOutputs X cfg ctx tx db).commits = [] →
      ∃ found : Option IpcMessage, (∀ m ∈ found, Parsed X ctx db tx m ∧ m.inWitness = false) ∧
        ∃ ms, Saves X ctx tx db (processOutputs X cfg ctx tx) ms ∧
          List.SublistForall₂ (fun m' m => SavedAs m m') ms found.toList :=
    fun h => ⟨none, by simp, [], saves_nil h, .nil⟩
  cases hp : (firstParsed (outputParsers X ctx db tx) : Outcome MonitorError _) with
  | error e => exact hnone (by simp [processOutputs, hp])
  | ok o =>
    cases o with
    | none => exact hnone (by simp [processOutputs, hp])
    | some m =>
      have hparsed := parsed_of_mem_outputParsers (mem_of_firstParsed hp)
      obtain ⟨saved, ⟨l, hl, hc, hm⟩, hs⟩ := handlesOnce_handleMsg cfg hparsed.1
      refine ⟨some m, ?_, saved.toList, ⟨l, hl, ?_, hm⟩, ?_⟩
      · rintro m' hm'
        cases hm'
        exact hparsed
      · rw [hc]
        simp [processOutputs, hp]
      · cases hsaved : saved with
        | none => exact .nil
        | some m' => exact .cons (hs m' hsaved) .nil

end Link

end Monitor
