import BitcoinIpc.Crashes

/-!
# Synchronisation

The monitor catches up with the chain in windows of blocks, then listens for new
ones, and is entered again after a failed request or a cancellation. It keeps its
height by itself and reads it from the database only when it is entered. Whatever
the node answers, the blocks are processed one by one in the order of their
heights, as if each had been fetched alone, and a node that answers long enough
is followed up to its tip. The end of a window is computed in 64 bits before it is
cut off at the tip: a batch size for which the sum overflows stops the monitor.
-/

namespace Monitor

open Faults Bytes Chain Messages Crates Multisig Db Grouping Commits Rewards

/-- What the loops are started with. -/
structure SyncConfig extends Config where
  confirmations : Nat
  syncBatchSize : Nat
  batch_pos : 0 < syncBatchSize

/-- What the monitor is told while it takes one step: whether it is cancelled, the answers
of the node and of the wallet, and the iteration orders of the hash maps for each height. -/
structure Reply where
  cancelled : Bool
  blockCount : Option Nat
  blockHash : Nat → Option BlockHash
  block : BlockHash → Option (List Transaction)
  imported : Bool
  native : Nat → HashOrder Txid20
  erc : Nat → HashOrder Txid20
  rewards : Nat → HashOrder XOnlyPublicKey

abbrev FetchedBlock := BlockContext × List Transaction

namespace Reply

variable (r : Reply)

def context (height : Nat) (hash : BlockHash) : BlockContext :=
  ⟨height, hash, r.native height, r.erc height, r.rewards height⟩

/-- `get_latest_confirmed_height`. -/
def latestConfirmedHeight (confirmations : Nat) : Option Nat :=
  r.blockCount.map (fun latest => if latest < confirmations then 0 else latest - confirmations)

/-- A batch of requests, which fails if one of them does; an empty batch is refused. -/
def sendBatch {α β : Type} (answer : α → Option β) (requests : List α) : Option (List β) :=
  if requests = [] then none else requests.mapM answer

/-- The hashes of the heights from `start` to `stop`, and then the blocks of these hashes. -/
def fetchBlocksBatched (start stop : Nat) : Option (List (BlockHash × List Transaction)) := do
  let hashes ← sendBatch r.blockHash (List.range' start (stop + 1 - start))
  let blocks ← sendBatch r.block hashes
  return hashes.zip blocks

def fetchBlock (height : Nat) : Option (BlockHash × List Transaction) := do
  let hash ← r.blockHash height
  let block ← r.block hash
  return (hash, block)

end Reply

inductive Stop where
  | aheadOfTip
  | overflowed
  | blockFailed
deriving DecidableEq

/-- Where the monitor is: the places of the two loops at which it asks or is told something. -/
inductive Phase where
  | entering
  | syncing
  | window (tip : Nat)
  | refetching
  | syncEffects
  | listening
  | catchingUp (tip : Nat)
  | listenEffects
  | stopped (reason : Stop)
deriving DecidableEq

inductive Call where
  | processBlockData (ctx : BlockContext) (txs : List Transaction)
  | updateAfterBlock (blockHeight : Nat)

structure SyncState where
  phase : Phase
  currentHeight : Nat
  db : HeedDb
  calls : List Call

def SyncState.start (db : HeedDb) : SyncState := ⟨.entering, 0, db, []⟩

variable (X : Library) (cfg : SyncConfig)

/-- The calls for a block: its processing and, if there is a tracker, its rewards. -/
def callsOf (b : FetchedBlock) : List Call :=
  .processBlockData b.1 b.2 ::
    match cfg.rewardTracker with
    | none => []
    | some _ => [.updateAfterBlock b.1.blockHeight]

/-- One block of either loop. An error of its processing stops the monitor, and so does a
panic of the rewards; the errors of the rewards are only printed. -/
def processNext (s : SyncState) (b : FetchedBlock) : SyncState :=
  let t := syncBlock X cfg.toConfig b.1 b.2 s.db
  match (processBlockData X cfg.toConfig b.1 b.2 s.db).outcome with
  | .error _ =>
    { s with
      phase := .stopped .blockFailed, db := t.store s.db,
      calls := s.calls ++ [.processBlockData b.1 b.2] }
  | .ok () =>
    { phase := if t.outcome = .ok () then s.phase else .stopped .blockFailed
      currentHeight := b.1.blockHeight, db := t.store s.db, calls := s.calls ++ callsOf cfg b }

/-- The loop over the blocks of a window, with the height of the next one. -/
def processWindow (r : Reply) : SyncState → Nat → List (BlockHash × List Transaction) → SyncState
  | s, _, [] => s
  | s, height, (hash, txs) :: rest =>
    let s := processNext X cfg s (r.context height hash, txs)
    if s.phase = .stopped .blockFailed then s else processWindow r s (height + 1) rest

/-- From one question to the next. A failed request and a cancellation return from
`sync_and_listen`, which is then entered again. -/
def step (s : SyncState) (r : Reply) : SyncState :=
  match s.phase with
  | .entering => { s with phase := .syncing, currentHeight := s.db.getLastProcessedBlock }
  | .syncing =>
    if r.cancelled then { s with phase := .entering }
    else
      match r.latestConfirmedHeight cfg.confirmations with
      | none => { s with phase := .entering }
      | some tip =>
        { s with phase := if tip < s.currentHeight then .stopped .aheadOfTip else .window tip }
  | .window tip =>
    if s.currentHeight < tip then
      if r.cancelled then { s with phase := .entering }
      else if 2 ^ 64 ≤ s.currentHeight + cfg.syncBatchSize then
        { s with phase := .stopped .overflowed }
      else
        match r.fetchBlocksBatched (s.currentHeight + 1)
            (min (s.currentHeight + cfg.syncBatchSize) tip) with
        | none => { s with phase := .entering }
        | some blocks => processWindow X cfg r s (s.currentHeight + 1) blocks
    else { s with phase := .refetching }
  | .refetching =>
    match r.latestConfirmedHeight cfg.confirmations with
    | none => { s with phase := .entering }
    | some tip => { s with phase := if s.currentHeight = tip then .syncEffects else .syncing }
  | .syncEffects => { s with phase := if r.imported then .listening else .entering }
  | .listening =>
    if r.cancelled then { s with phase := .entering }
    else
      match r.latestConfirmedHeight cfg.confirmations with
      | none => { s with phase := .listenEffects }
      | some tip => { s with phase := .catchingUp tip }
  | .catchingUp tip =>
    if s.currentHeight < tip then
      match r.fetchBlock (s.currentHeight + 1) with
      | none => { s with phase := .entering }
      | some (hash, txs) => processNext X cfg s (r.context (s.currentHeight + 1) hash, txs)
    else { s with phase := .listenEffects }
  | .listenEffects => { s with phase := if r.imported then .listening else .entering }
  | .stopped _ => s

/-- A run of the monitor on the answers it gets. -/
def runOn (s : SyncState) (replies : List Reply) : SyncState := replies.foldl (step X cfg) s

variable {X cfg}

/-- The blocks stand in the order of their heights, from the one after `height` on. -/
def Consecutive (height : Nat) (blocks : List FetchedBlock) : Prop :=
  blocks.map (·.1.blockHeight) = List.range' (height + 1) blocks.length

theorem Consecutive.snoc {height : Nat} {blocks : List FetchedBlock} {b : FetchedBlock}
    (h : Consecutive height blocks) (hb : b.1.blockHeight = height + blocks.length + 1) :
    Consecutive height (blocks ++ [b]) := by
  rw [Consecutive, List.map_append, List.map_singleton, h, hb, List.length_append,
    List.length_singleton, List.range'_concat]
  simp [Nat.add_right_comm]

/-- A batch is answered request by request. -/
theorem Reply.mapM_eq_some {α β : Type} {answer : α → Option β} {requests : List α}
    {answers : List β} : requests.mapM answer = some answers ↔
      List.Forall₂ (fun a b => answer a = some b) requests answers := by
  induction requests generalizing answers with
  | nil => simp [eq_comm]
  | cons a rest ih =>
    rw [List.mapM_cons, List.forall₂_cons_left_iff]
    constructor
    · intro h
      obtain ⟨b, hb, h⟩ := Option.bind_eq_some_iff.mp h
      obtain ⟨bs, hbs, h⟩ := Option.bind_eq_some_iff.mp h
      cases h
      exact ⟨b, bs, hb, ih.mp hbs, rfl⟩
    · rintro ⟨b, bs, hb, hbs, rfl⟩
      rw [hb, ih.mpr hbs]
      rfl

theorem Reply.length_sendBatch {α β : Type} {answer : α → Option β} {requests : List α}
    {answers : List β} (h : sendBatch answer requests = some answers) :
    answers.length = requests.length := by
  unfold sendBatch at h
  split_ifs at h
  exact (mapM_eq_some.mp h).length_eq.symm

/-- A window has a block for each of its heights. -/
theorem Reply.length_fetchBlocksBatched {r : Reply} {start stop : Nat}
    {blocks : List (BlockHash × List Transaction)}
    (h : r.fetchBlocksBatched start stop = some blocks) : blocks.length = stop + 1 - start := by
  obtain ⟨hashes, hhashes, h⟩ := Option.bind_eq_some_iff.mp h
  obtain ⟨bodies, hbodies, h⟩ := Option.bind_eq_some_iff.mp h
  have hbodies := length_sendBatch hbodies
  have hhashes := length_sendBatch hhashes
  rw [List.length_range'] at hhashes
  cases h
  rw [List.length_zip]
  omega

theorem store_syncBlock {ctx : BlockContext} {txs : List Transaction} {db : HeedDb}
    (h : (processBlockData X cfg.toConfig ctx txs db).outcome = .ok ()) :
    ((syncBlock X cfg.toConfig ctx txs db).store db).getLastProcessedBlock = ctx.blockHeight := by
  have hwithin : ∀ d, Within SameHeight d (rewardBlock X cfg.toConfig ctx) := within_rewardBlock
  have hreward := (hwithin (((processBlockData X cfg.toConfig ctx txs db).store
    db).setLastProcessedBlock ctx.blockHeight)).store SameHeight.refl
  have hlast : ∀ (d d' : HeedDb) (p : MonitorProc Unit),
      ((Proc.commit d >>= fun _ => p) d').store d' = (p d).store d := by
    intro d d' p
    rw [Proc.commit_bind, Trace.store, List.getLastD_cons]
    rfl
  unfold syncBlock
  rw [Proc.store_bind h, Proc.read_bind, hlast, HeedDb.getLastProcessedBlock, hreward]
  rfl

/-- What the monitor has done when it has processed the blocks. -/
structure Follows (X : Library) (cfg : SyncConfig) (db₀ : HeedDb) (blocks : List FetchedBlock)
    (s : SyncState) : Prop where
  consecutive : Consecutive db₀.getLastProcessedBlock blocks
  outcome : (sync X cfg.toConfig blocks db₀).outcome = .ok ()
  database : s.db = (sync X cfg.toConfig blocks db₀).store db₀
  stored : s.db.getLastProcessedBlock = db₀.getLastProcessedBlock + blocks.length
  calls : s.calls = blocks.flatMap (callsOf cfg)

/-- What it has done when the last of the blocks failed: the calls for that block start with
its processing, and end where it failed. -/
structure FailsAt (X : Library) (cfg : SyncConfig) (db₀ : HeedDb) (blocks : List FetchedBlock)
    (b : FetchedBlock) (s : SyncState) : Prop where
  consecutive : Consecutive db₀.getLastProcessedBlock (blocks ++ [b])
  outcome : (sync X cfg.toConfig blocks db₀).outcome = .ok ()
  fails : (sync X cfg.toConfig (blocks ++ [b]) db₀).outcome ≠ .ok ()
  database : s.db = (sync X cfg.toConfig (blocks ++ [b]) db₀).store db₀
  calls : ∃ made, s.calls = blocks.flatMap (callsOf cfg) ++ .processBlockData b.1 b.2 :: made ∧
    .processBlockData b.1 b.2 :: made <+: callsOf cfg b

section Blocks

variable {db₀ : HeedDb} {blocks : List FetchedBlock} {b : FetchedBlock} {s : SyncState}

theorem sync_snoc (h : (sync X cfg.toConfig blocks db₀).outcome = .ok ()) :
    (sync X cfg.toConfig (blocks ++ [b]) db₀).outcome =
        (syncBlock X cfg.toConfig b.1 b.2 ((sync X cfg.toConfig blocks db₀).store db₀)).outcome ∧
      (sync X cfg.toConfig (blocks ++ [b]) db₀).store db₀ =
        (syncBlock X cfg.toConfig b.1 b.2 ((sync X cfg.toConfig blocks db₀).store db₀)).store
          ((sync X cfg.toConfig blocks db₀).store db₀) := by
  obtain ⟨hout, hstore⟩ := Proc.each_append h
  refine ⟨hout.trans ?_, hstore.trans ?_⟩
  · rw [Proc.each_singleton]
    rfl
  · rw [Proc.each_singleton]
    rfl

/-- One more block, from a state that follows the chain at the height before it. -/
theorem Follows.processNext (hs : Follows X cfg db₀ blocks s)
    (hb : b.1.blockHeight = s.db.getLastProcessedBlock + 1) :
    ((processNext X cfg s b).phase = s.phase ∧
        (processNext X cfg s b).currentHeight = b.1.blockHeight ∧
        Follows X cfg db₀ (blocks ++ [b]) (processNext X cfg s b)) ∨
      ((processNext X cfg s b).phase = .stopped .blockFailed ∧
        FailsAt X cfg db₀ blocks b (processNext X cfg s b)) := by
  have hconsecutive : Consecutive db₀.getLastProcessedBlock (blocks ++ [b]) :=
    hs.consecutive.snoc (by rw [hb, hs.stored])
  obtain ⟨hout, hstore⟩ := sync_snoc (b := b) hs.outcome
  rw [← hs.database] at hout hstore
  cases hdata : (processBlockData X cfg.toConfig b.1 b.2 s.db).outcome with
  | error e =>
    have hfails : (syncBlock X cfg.toConfig b.1 b.2 s.db).outcome = .error e := by
      unfold syncBlock
      rw [Proc.bind_error hdata]
    refine Or.inr ⟨?_, hconsecutive, hs.outcome, ?_, ?_, [], ?_, ?_⟩
    · simp only [Monitor.processNext, hdata]
    · rw [hout, hfails]
      intro h
      cases h
    · simp only [Monitor.processNext, hdata, hstore]
    · simp only [Monitor.processNext, hdata, hs.calls]
    · exact ⟨_, rfl⟩
  | ok u =>
    have hheight := store_syncBlock hdata
    by_cases hblock : (syncBlock X cfg.toConfig b.1 b.2 s.db).outcome = .ok ()
    · refine Or.inl ⟨?_, ?_, hconsecutive, hout.trans hblock, ?_, ?_, ?_⟩
      · simp only [Monitor.processNext, hdata, if_pos hblock]
      · simp only [Monitor.processNext, hdata]
      · simp only [Monitor.processNext, hdata, hstore]
      · simp only [Monitor.processNext, hdata, hheight, hb, hs.stored, List.length_append,
          List.length_singleton]
        omega
      · simp only [Monitor.processNext, hdata, hs.calls, List.flatMap_append,
          List.flatMap_singleton]
    · refine Or.inr ⟨?_, hconsecutive, hs.outcome, ?_, ?_, (callsOf cfg b).tail, ?_, ?_⟩
      · simp only [Monitor.processNext, hdata, if_neg hblock]
      · rw [hout]
        exact hblock
      · simp only [Monitor.processNext, hdata, hstore]
      · simp only [Monitor.processNext, hdata, hs.calls]
        rfl
      · exact List.prefix_rfl

/-- The blocks of a window, which come with consecutive heights. -/
theorem Follows.processWindow {r : Reply} (fetched : List (BlockHash × List Transaction))
    (hs : Follows X cfg db₀ blocks s) (hlive : s.phase ≠ .stopped .blockFailed)
    (hcurrent : s.currentHeight = s.db.getLastProcessedBlock) :
    (∃ more, more.length = fetched.length ∧
        (processWindow X cfg r s (s.currentHeight + 1) fetched).phase = s.phase ∧
        (processWindow X cfg r s (s.currentHeight + 1) fetched).currentHeight =
          s.currentHeight + fetched.length ∧
        Follows X cfg db₀ (blocks ++ more)
          (processWindow X cfg r s (s.currentHeight + 1) fetched)) ∨
      ((processWindow X cfg r s (s.currentHeight + 1) fetched).phase = .stopped .blockFailed ∧
        ∃ done b, FailsAt X cfg db₀ done b
          (processWindow X cfg r s (s.currentHeight + 1) fetched)) := by
  induction fetched generalizing s blocks with
  | nil =>
    refine Or.inl ⟨[], rfl, rfl, rfl, ?_⟩
    rw [List.append_nil]
    exact hs
  | cons e rest ih =>
    obtain ⟨hash, txs⟩ := e
    obtain ⟨hphase, hheight, hnext⟩ | ⟨hphase, hfails⟩ := hs.processNext
      (b := (r.context (s.currentHeight + 1) hash, txs)) (by rw [← hcurrent]; rfl)
    · have hheight : (Monitor.processNext X cfg s
          (r.context (s.currentHeight + 1) hash, txs)).currentHeight = s.currentHeight + 1 := hheight
      have hloop : Monitor.processWindow X cfg r s (s.currentHeight + 1) ((hash, txs) :: rest) =
          Monitor.processWindow X cfg r
            (Monitor.processNext X cfg s (r.context (s.currentHeight + 1) hash, txs))
            ((Monitor.processNext X cfg s
              (r.context (s.currentHeight + 1) hash, txs)).currentHeight + 1) rest := by
        rw [Monitor.processWindow, if_neg (by rw [hphase]; exact hlive), hheight]
      have hstored : (Monitor.processNext X cfg s
          (r.context (s.currentHeight + 1) hash, txs)).db.getLastProcessedBlock =
            s.currentHeight + 1 := by
        rw [hnext.stored, hcurrent, hs.stored, List.length_append]
        rfl
      rw [hloop]
      obtain ⟨more, hlen, hp, hc, hf⟩ | hfailed := ih hnext (by rw [hphase]; exact hlive)
        (by rw [hheight, hstored])
      · refine Or.inl ⟨(r.context (s.currentHeight + 1) hash, txs) :: more, ?_, hp.trans hphase,
          ?_, ?_⟩
        · rw [List.length_cons, List.length_cons, hlen]
        · rw [hc, hheight, List.length_cons]
          omega
        · rw [List.append_assoc] at hf
          exact hf
      · exact Or.inr hfailed
    · have hstop : Monitor.processWindow X cfg r s (s.currentHeight + 1) ((hash, txs) :: rest) =
          Monitor.processNext X cfg s (r.context (s.currentHeight + 1) hash, txs) := by
        rw [Monitor.processWindow, if_pos hphase]
      rw [hstop]
      exact Or.inr ⟨hphase, blocks, _, hfails⟩

end Blocks

/-- The monitor has processed a run of blocks, one after the other, and knows its height, or
it has stopped at a block that failed. -/
def Orderly (X : Library) (cfg : SyncConfig) (db₀ : HeedDb) (s : SyncState) : Prop :=
  (s.phase ≠ .stopped .blockFailed ∧ (∃ blocks, Follows X cfg db₀ blocks s) ∧
    (s.phase ≠ .entering → s.currentHeight = s.db.getLastProcessedBlock)) ∨
  (s.phase = .stopped .blockFailed ∧ ∃ blocks b, FailsAt X cfg db₀ blocks b s)

section Runs

variable {db₀ : HeedDb} {s : SyncState} {r : Reply}

theorem orderly_start (db₀ : HeedDb) : Orderly X cfg db₀ (.start db₀) := by
  refine Or.inl ⟨fun h => (by cases h), ⟨[], rfl, rfl, rfl, rfl, rfl⟩, fun h => absurd rfl h⟩

/-- A step without a block only moves on, and reads the height when it enters. -/
theorem Orderly.move {p : Phase} {height : Nat} (hs : Orderly X cfg db₀ s)
    (hlive : s.phase ≠ .stopped .blockFailed) (hp : p ≠ .stopped .blockFailed)
    (hheight : p ≠ .entering → height = s.db.getLastProcessedBlock) :
    Orderly X cfg db₀ { s with phase := p, currentHeight := height } := by
  obtain ⟨-, ⟨blocks, hf⟩, -⟩ | ⟨hfailed, -⟩ := hs
  · exact Or.inl ⟨hp, ⟨blocks, hf.consecutive, hf.outcome, hf.database, hf.stored, hf.calls⟩,
      hheight⟩
  · exact absurd hfailed hlive

/-- What a step does: it moves on, to a window only with a new tip, or it processes a window
or a block. -/
theorem step_cases (hlive : s.phase ≠ .stopped .blockFailed) :
    (∃ p, p ≠ .stopped .blockFailed ∧
      (∀ tip, p = .window tip → r.latestConfirmedHeight cfg.confirmations = some tip) ∧
      step X cfg s r = { s with
        phase := p
        currentHeight :=
          if s.phase = .entering then s.db.getLastProcessedBlock else s.currentHeight }) ∨
    (∃ tip blocks, s.phase = .window tip ∧ s.currentHeight < tip ∧
      r.fetchBlocksBatched (s.currentHeight + 1) (min (s.currentHeight + cfg.syncBatchSize) tip) =
        some blocks ∧
      step X cfg s r = processWindow X cfg r s (s.currentHeight + 1) blocks) ∨
    (∃ tip hash txs, s.phase = .catchingUp tip ∧ s.currentHeight < tip ∧
      step X cfg s r = processNext X cfg s (r.context (s.currentHeight + 1) hash, txs)) := by
  cases hphase : s.phase with
  | entering =>
    refine Or.inl ⟨.syncing, by simp, by simp, ?_⟩
    simp only [step, hphase, if_true]
  | syncing =>
    left
    simp only [step, hphase, reduceCtorEq, if_false]
    split_ifs with hcancelled
    · exact ⟨.entering, by simp, by simp, rfl⟩
    · cases r.latestConfirmedHeight cfg.confirmations with
      | none => exact ⟨.entering, by simp, by simp, rfl⟩
      | some tip =>
        by_cases hahead : tip < s.currentHeight
        · refine ⟨.stopped .aheadOfTip, by simp, by simp, ?_⟩
          simp only [if_pos hahead]
        · refine ⟨.window tip, by simp, fun t ht => ?_, ?_⟩
          · cases ht
            rfl
          · simp only [if_neg hahead]
  | window tip =>
    simp only [step, hphase, reduceCtorEq, if_false]
    by_cases hlt : s.currentHeight < tip
    · rw [if_pos hlt]
      split_ifs with hcancelled hover
      · exact Or.inl ⟨.entering, by simp, by simp, rfl⟩
      · exact Or.inl ⟨.stopped .overflowed, by simp, by simp, rfl⟩
      · cases hfetch : r.fetchBlocksBatched (s.currentHeight + 1)
            (min (s.currentHeight + cfg.syncBatchSize) tip) with
        | none => exact Or.inl ⟨.entering, by simp, by simp, rfl⟩
        | some blocks => exact Or.inr (Or.inl ⟨tip, blocks, rfl, hlt, hfetch, rfl⟩)
    · rw [if_neg hlt]
      exact Or.inl ⟨.refetching, by simp, by simp, rfl⟩
  | refetching =>
    left
    simp only [step, hphase, reduceCtorEq, if_false]
    cases r.latestConfirmedHeight cfg.confirmations with
    | none => exact ⟨.entering, by simp, by simp, rfl⟩
    | some tip =>
      refine ⟨_, ?_, ?_, rfl⟩
      · split_ifs <;> simp
      · split_ifs <;> simp
  | syncEffects =>
    left
    simp only [step, hphase, reduceCtorEq, if_false]
    refine ⟨_, ?_, ?_, rfl⟩
    · split_ifs <;> simp
    · split_ifs <;> simp
  | listening =>
    left
    simp only [step, hphase, reduceCtorEq, if_false]
    split_ifs with hcancelled
    · exact ⟨.entering, by simp, by simp, rfl⟩
    · cases r.latestConfirmedHeight cfg.confirmations with
      | none => exact ⟨.listenEffects, by simp, by simp, rfl⟩
      | some tip => exact ⟨.catchingUp tip, by simp, by simp, rfl⟩
  | catchingUp tip =>
    simp only [step, hphase, reduceCtorEq, if_false]
    by_cases hlt : s.currentHeight < tip
    · rw [if_pos hlt]
      cases hfetch : r.fetchBlock (s.currentHeight + 1) with
      | none => exact Or.inl ⟨.entering, by simp, by simp, rfl⟩
      | some e => exact Or.inr (Or.inr ⟨tip, e.1, e.2, rfl, hlt, rfl⟩)
    · rw [if_neg hlt]
      exact Or.inl ⟨.listenEffects, by simp, by simp, rfl⟩
  | listenEffects =>
    left
    simp only [step, hphase, reduceCtorEq, if_false]
    refine ⟨_, ?_, ?_, rfl⟩
    · split_ifs <;> simp
    · split_ifs <;> simp
  | stopped reason =>
    left
    simp only [step, hphase, reduceCtorEq, if_false]
    exact ⟨.stopped reason, by rw [← hphase]; exact hlive, by simp, by rw [← hphase]⟩

/-- A monitor that has stopped does nothing more. -/
theorem runOn_stopped {reason : Stop} (h : s.phase = .stopped reason) (replies : List Reply) :
    runOn X cfg s replies = s := by
  induction replies with
  | nil => rfl
  | cons r rest ih =>
    have hsame : step X cfg s r = s := by
      simp only [step, h]
    change runOn X cfg (step X cfg s r) rest = s
    rw [hsame, ih]

/-- What the monitor has done stays in order, whatever it is told. -/
theorem Orderly.step (hs : Orderly X cfg db₀ s) (r : Reply) :
    Orderly X cfg db₀ (step X cfg s r) := by
  by_cases hlive : s.phase = .stopped .blockFailed
  · have hsame : Monitor.step X cfg s r = s := runOn_stopped hlive [r]
    rw [hsame]
    exact hs
  · have hs' := hs
    obtain ⟨-, ⟨blocks, hf⟩, hcurrent⟩ | ⟨hfailed, -⟩ := hs'
    · obtain ⟨p, hp, -, heq⟩ | ⟨tip, fetched, hphase, -, -, heq⟩ |
        ⟨tip, hash, txs, hphase, -, heq⟩ := step_cases hlive
      · rw [heq]
        refine hs.move hlive hp (fun _ => ?_)
        split_ifs with hentering
        · rfl
        · exact hcurrent hentering
      · have hcurrent := hcurrent (by rw [hphase]; simp)
        rw [heq]
        obtain ⟨more, hlen, hkeep, hheight, hmore⟩ | hfailed :=
          hf.processWindow (r := r) fetched hlive hcurrent
        · refine Or.inl ⟨by rw [hkeep]; exact hlive, ⟨_, hmore⟩, fun _ => ?_⟩
          rw [hheight, hmore.stored, hcurrent, hf.stored, List.length_append, hlen]
          omega
        · exact Or.inr hfailed
      · have hcurrent := hcurrent (by rw [hphase]; simp)
        rw [heq]
        obtain ⟨hkeep, hheight, hnext⟩ | ⟨hstop, hfails⟩ := hf.processNext
          (b := (r.context (s.currentHeight + 1) hash, txs)) (by rw [← hcurrent]; rfl)
        · refine Or.inl ⟨by rw [hkeep]; exact hlive, ⟨_, hnext⟩, fun _ => ?_⟩
          rw [hheight, hnext.stored, List.length_append, ← Nat.add_assoc, ← hf.stored, ← hcurrent]
          rfl
        · exact Or.inr ⟨hstop, blocks, _, hfails⟩
    · exact absurd hfailed hlive

theorem Orderly.runOn (hs : Orderly X cfg db₀ s) (replies : List Reply) :
    Orderly X cfg db₀ (runOn X cfg s replies) := by
  induction replies generalizing s with
  | nil => exact hs
  | cons r rest ih => exact ih (hs.step r)

end Runs

/-- The node answers every request up to its tip, and nobody cancels. -/
structure Reply.Healthy (r : Reply) (confirmations tip : Nat) : Prop where
  live : r.cancelled = false
  latest : r.latestConfirmedHeight confirmations = some tip
  blocks : ∀ height ≤ tip, ∃ e, r.fetchBlock height = some e
  imported : r.imported = true

theorem Reply.exists_sendBatch {α β : Type} {answer : α → Option β} {requests : List α}
    (hne : requests ≠ []) (h : ∀ a ∈ requests, ∃ b, answer a = some b) :
    ∃ answers, sendBatch answer requests = some answers ∧
      List.Forall₂ (fun a b => answer a = some b) requests answers := by
  have hanswers : ∃ answers, requests.mapM answer = some answers := by
    clear hne
    induction requests with
    | nil => exact ⟨[], rfl⟩
    | cons a rest ih =>
      obtain ⟨b, hb⟩ := h a List.mem_cons_self
      obtain ⟨bs, hbs⟩ := ih (fun c hc => h c (List.mem_cons_of_mem a hc))
      exact ⟨b :: bs, by rw [List.mapM_cons, hb, hbs]; rfl⟩
  obtain ⟨answers, hanswers⟩ := hanswers
  exact ⟨answers, by rw [sendBatch, if_neg hne, hanswers], mapM_eq_some.mp hanswers⟩

theorem Reply.Healthy.fetchBlocksBatched {r : Reply} {confirmations tip start stop : Nat}
    (hr : r.Healthy confirmations tip) (hstart : start ≤ stop) (hstop : stop ≤ tip) :
    ∃ blocks, r.fetchBlocksBatched start stop = some blocks := by
  have hne : List.range' start (stop + 1 - start) ≠ [] := by
    rw [Ne, List.range'_eq_nil_iff]
    omega
  have hblocks : ∀ height ∈ List.range' start (stop + 1 - start),
      ∃ hash txs, r.blockHash height = some hash ∧ r.block hash = some txs := by
    intro height hmem
    obtain ⟨i, hi, rfl⟩ := List.mem_range'.mp hmem
    obtain ⟨e, he⟩ := hr.blocks (start + 1 * i) (by omega)
    obtain ⟨hash, hhash, he⟩ := Option.bind_eq_some_iff.mp he
    obtain ⟨txs, htxs, -⟩ := Option.bind_eq_some_iff.mp he
    exact ⟨hash, txs, hhash, htxs⟩
  obtain ⟨hashes, hsend, hhashes⟩ := exists_sendBatch hne (fun height hmem =>
    (hblocks height hmem).imp (fun _ h => h.choose_spec.1))
  have hnonempty : hashes ≠ [] := by
    intro hnil
    rw [hnil, List.forall₂_nil_right_iff] at hhashes
    exact hne hhashes
  have hfound : ∀ hash ∈ hashes, ∃ txs, r.block hash = some txs := by
    intro hash hmem
    obtain ⟨height, hheight, heq⟩ := exists_of_forall₂ hhashes hmem
    obtain ⟨hash', txs, hhash, htxs⟩ := hblocks height hheight
    rw [hhash] at heq
    cases heq
    exact ⟨txs, htxs⟩
  obtain ⟨bodies, hbodies, -⟩ := exists_sendBatch hnonempty hfound
  exact ⟨hashes.zip bodies, by rw [Reply.fetchBlocksBatched, hsend, Option.bind_eq_bind,
    Option.bind_some, hbodies]; rfl⟩

section Progress

variable {db₀ : HeedDb} {s : SyncState} {r : Reply} {m tip : Nat}

/-- The tip that a loop is on its way to. -/
def phaseTip : Phase → Nat
  | .window tip => tip
  | .catchingUp tip => tip
  | _ => 0

/-- The end of the next window fits into 64 bits. -/
def WindowFits (cfg : SyncConfig) (s : SyncState) : Prop :=
  ∀ tip, s.phase = .window tip → s.currentHeight < tip →
    s.currentHeight + cfg.syncBatchSize < 2 ^ 64

/-- The monitor has not gone beyond a height, and has not stopped but at a block. -/
structure Running (m : Nat) (s : SyncState) : Prop where
  stored : s.db.getLastProcessedBlock ≤ m
  tip : phaseTip s.phase ≤ m
  notAhead : s.phase ≠ .stopped .aheadOfTip
  notOverflowed : s.phase ≠ .stopped .overflowed

theorem Running.mono {m' : Nat} (h : Running m s) (hm : m ≤ m') : Running m' s :=
  ⟨h.stored.trans hm, h.tip.trans hm, h.notAhead, h.notOverflowed⟩

theorem Running.move {m' height : Nat} {p : Phase} (h : Running m s) (hm : m ≤ m')
    (htip : phaseTip p ≤ m') (hahead : p ≠ .stopped .aheadOfTip)
    (hover : p ≠ .stopped .overflowed) :
    Running m' { s with phase := p, currentHeight := height } :=
  ⟨h.stored.trans hm, htip, hahead, hover⟩

/-- A phase without a tip, in which the monitor has not stopped or has stopped at a block. -/
def Waits (p : Phase) : Prop :=
  phaseTip p = 0 ∧ p ≠ .stopped .aheadOfTip ∧ p ≠ .stopped .overflowed

instance (p : Phase) : Decidable (Waits p) := inferInstanceAs (Decidable (_ ∧ _))

theorem Running.wait {m' height : Nat} {p : Phase} (h : Running m s) (hm : m ≤ m')
    (hp : Waits p) : Running m' { s with phase := p, currentHeight := height } :=
  h.move hm (le_of_eq_of_le hp.1 (Nat.zero_le _)) hp.2.1 hp.2.2

/-- A loop below its tip goes on by a block at least, unless a request fails or a block does. -/
theorem step_busy (hs : Orderly X cfg db₀ s) (hfit : WindowFits cfg s)
    (hlt : s.currentHeight < phaseTip s.phase) :
    (step X cfg s r = { s with phase := .entering } ∧
      ∀ T, phaseTip s.phase ≤ T → ¬ r.Healthy cfg.confirmations T) ∨
    (step X cfg s r).phase = .stopped .blockFailed ∨
    ((step X cfg s r).phase = s.phase ∧
      s.db.getLastProcessedBlock < (step X cfg s r).db.getLastProcessedBlock ∧
      (step X cfg s r).db.getLastProcessedBlock ≤ phaseTip s.phase) := by
  obtain ⟨hlive, ⟨blocks, hf⟩, hcurrent⟩ | ⟨hfailed, -⟩ := hs
  swap
  · rw [hfailed] at hlt
    exact absurd hlt (Nat.not_lt_zero _)
  cases hphase : s.phase with
  | window tip =>
    rw [hphase] at hlt
    have hcurrent := hcurrent (by rw [hphase]; simp)
    have hbatch := cfg.batch_pos
    have hsmall := hfit tip hphase hlt
    simp only [phaseTip] at hlt ⊢
    simp only [step, hphase, if_pos hlt, if_neg (Nat.not_le.mpr hsmall)]
    by_cases hcancelled : r.cancelled = true
    · rw [if_pos hcancelled]
      refine Or.inl ⟨rfl, fun T _ hr => ?_⟩
      rw [hr.live] at hcancelled
      cases hcancelled
    · rw [if_neg hcancelled]
      cases hfetch : r.fetchBlocksBatched (s.currentHeight + 1)
          (min (s.currentHeight + cfg.syncBatchSize) tip) with
      | none =>
        refine Or.inl ⟨rfl, fun T hT hr => ?_⟩
        have hopen : s.currentHeight + 1 ≤ min (s.currentHeight + cfg.syncBatchSize) tip := by
          omega
        obtain ⟨fetched, hsome⟩ := hr.fetchBlocksBatched hopen (by omega)
        rw [hfetch] at hsome
        cases hsome
      | some fetched =>
        have hlen := Reply.length_fetchBlocksBatched hfetch
        obtain ⟨more, hmore, hkeep, -, hnext⟩ | ⟨hstop, -⟩ :=
          hf.processWindow (r := r) fetched hlive hcurrent
        · refine Or.inr (Or.inr ⟨hkeep.trans hphase, ?_, ?_⟩)
          · dsimp only
            rw [hnext.stored, hf.stored, List.length_append]
            omega
          · dsimp only
            rw [hnext.stored, List.length_append, hmore, hlen, ← Nat.add_assoc, ← hf.stored,
              ← hcurrent]
            omega
        · exact Or.inr (Or.inl hstop)
  | catchingUp tip =>
    rw [hphase] at hlt
    have hcurrent := hcurrent (by rw [hphase]; simp)
    simp only [phaseTip] at hlt ⊢
    simp only [step, hphase, if_pos hlt]
    cases hfetch : r.fetchBlock (s.currentHeight + 1) with
    | none =>
      refine Or.inl ⟨rfl, fun T hT hr => ?_⟩
      obtain ⟨e, he⟩ := hr.blocks (s.currentHeight + 1) (by omega)
      rw [hfetch] at he
      cases he
    | some e =>
      obtain ⟨hkeep, -, hnext⟩ | ⟨hstop, -⟩ := hf.processNext
        (b := (r.context (s.currentHeight + 1) e.1, e.2)) (by rw [← hcurrent]; rfl)
      · have hstored : (processNext X cfg s
            (r.context (s.currentHeight + 1) e.1, e.2)).db.getLastProcessedBlock =
              s.db.getLastProcessedBlock + 1 := by
          rw [hnext.stored, hf.stored, List.length_append]
          rfl
        refine Or.inr (Or.inr ⟨hkeep.trans hphase, ?_, ?_⟩)
        · dsimp only
          omega
        · dsimp only
          omega
      · exact Or.inr (Or.inl hstop)
  | entering | syncing | refetching | syncEffects | listening | listenEffects | stopped reason =>
    rw [hphase] at hlt
    exact absurd hlt (Nat.not_lt_zero _)

/-- As long as the tips do not fall below the height reached, the monitor goes on. -/
theorem running_step (hs : Orderly X cfg db₀ s) (hrun : Running m s) (hfit : WindowFits cfg s)
    (htips : ∀ t, r.latestConfirmedHeight cfg.confirmations = some t → m ≤ t) :
    (step X cfg s r).phase = .stopped .blockFailed ∨
      Running ((r.latestConfirmedHeight cfg.confirmations).getD m) (step X cfg s r) := by
  have hm : m ≤ (r.latestConfirmedHeight cfg.confirmations).getD m := by
    cases hlatest : r.latestConfirmedHeight cfg.confirmations with
    | none => exact le_rfl
    | some t => exact htips t hlatest
  by_cases hbusy : s.currentHeight < phaseTip s.phase
  · obtain ⟨heq, -⟩ | hstop | ⟨hkeep, -, hstored⟩ := step_busy (r := r) hs hfit hbusy
    · rw [heq]
      exact Or.inr (hrun.wait hm (by decide))
    · exact Or.inl hstop
    · refine Or.inr ⟨hstored.trans (hrun.tip.trans hm), ?_, ?_, ?_⟩
      · rw [hkeep]
        exact hrun.tip.trans hm
      · rw [hkeep]
        exact hrun.notAhead
      · rw [hkeep]
        exact hrun.notOverflowed
  · cases hphase : s.phase with
    | entering =>
      simp only [step, hphase]
      exact Or.inr (hrun.wait hm (by decide))
    | syncing =>
      have hcurrent : s.currentHeight = s.db.getLastProcessedBlock := by
        obtain ⟨-, -, hcurrent⟩ | ⟨hfailed, -⟩ := hs
        · exact hcurrent (by rw [hphase]; simp)
        · rw [hphase] at hfailed
          cases hfailed
      simp only [step, hphase]
      split_ifs with hcancelled
      · exact Or.inr (hrun.wait hm (by decide))
      · cases hlatest : r.latestConfirmedHeight cfg.confirmations with
        | none => exact Or.inr (hrun.wait le_rfl (by decide))
        | some t =>
          have htip := htips t hlatest
          have hstored := hrun.stored
          dsimp only
          rw [if_neg (by omega)]
          exact Or.inr (hrun.move htip le_rfl (by simp) (by simp))
    | window tip =>
      rw [hphase] at hbusy
      simp only [phaseTip] at hbusy
      simp only [step, hphase, if_neg hbusy]
      exact Or.inr (hrun.wait hm (by decide))
    | refetching =>
      simp only [step, hphase]
      cases hlatest : r.latestConfirmedHeight cfg.confirmations with
      | none => exact Or.inr (hrun.wait le_rfl (by decide))
      | some t =>
        exact Or.inr (hrun.wait (htips t hlatest) (by split_ifs <;> decide))
    | syncEffects =>
      simp only [step, hphase]
      exact Or.inr (hrun.wait hm (by split_ifs <;> decide))
    | listening =>
      simp only [step, hphase]
      split_ifs with hcancelled
      · exact Or.inr (hrun.wait hm (by decide))
      · cases hlatest : r.latestConfirmedHeight cfg.confirmations with
        | none => exact Or.inr (hrun.wait le_rfl (by decide))
        | some t => exact Or.inr (hrun.move (htips t hlatest) le_rfl (by simp) (by simp))
    | catchingUp tip =>
      rw [hphase] at hbusy
      simp only [phaseTip] at hbusy
      simp only [step, hphase, if_neg hbusy]
      exact Or.inr (hrun.wait hm (by decide))
    | listenEffects =>
      simp only [step, hphase]
      exact Or.inr (hrun.wait hm (by split_ifs <;> decide))
    | stopped reason =>
      simp only [step, hphase]
      cases reason with
      | blockFailed => exact Or.inl rfl
      | aheadOfTip => exact absurd hphase hrun.notAhead
      | overflowed => exact absurd hphase hrun.notOverflowed

/-- How far a loop is from its next block, in steps. -/
def rank (s : SyncState) : Nat :=
  match s.phase with
  | .window tip => if s.currentHeight < tip then 1 else 4
  | .catchingUp tip => if s.currentHeight < tip then 1 else 4
  | .syncing => 2
  | .listening => 2
  | .stopped _ => 0
  | _ => 3

theorem rank_le (s : SyncState) : rank s ≤ 4 := by
  unfold rank
  split <;> first | omega | (split_ifs <;> omega)

/-- A healthy node brings the monitor nearer to its tip. -/
theorem step_progress (hs : Orderly X cfg db₀ s) (hrun : Running tip s) (hfit : WindowFits cfg s)
    (hr : r.Healthy cfg.confirmations tip) (hlive : s.phase ≠ .stopped .blockFailed)
    (hbelow : s.db.getLastProcessedBlock < tip) :
    (step X cfg s r).phase = .stopped .blockFailed ∨
      5 * (tip - (step X cfg s r).db.getLastProcessedBlock) + rank (step X cfg s r) <
        5 * (tip - s.db.getLastProcessedBlock) + rank s := by
  by_cases hbusy : s.currentHeight < phaseTip s.phase
  · obtain ⟨-, hsick⟩ | hstop | ⟨-, hmore, -⟩ := step_busy (r := r) hs hfit hbusy
    · exact absurd hr (hsick tip hrun.tip)
    · exact Or.inl hstop
    · have hrank := rank_le (step X cfg s r)
      right
      omega
  · right
    obtain ⟨-, -, hcurrent⟩ | ⟨hfailed, -⟩ := hs
    swap
    · exact absurd hfailed hlive
    cases hphase : s.phase with
    | entering =>
      simp only [step, hphase, rank]
      omega
    | syncing =>
      have hcurrent := hcurrent (by rw [hphase]; simp)
      have hlt : s.currentHeight < tip := by omega
      simp only [step, hphase, hr.live, hr.latest, rank, if_neg (Nat.lt_asymm hlt)]
      simp [hlt]
    | window t =>
      rw [hphase] at hbusy
      simp only [phaseTip] at hbusy
      simp only [step, hphase, if_neg hbusy, rank]
      omega
    | refetching =>
      have hcurrent := hcurrent (by rw [hphase]; simp)
      have hne : s.currentHeight ≠ tip := by omega
      simp only [step, hphase, hr.latest, if_neg hne, rank]
      omega
    | syncEffects =>
      simp only [step, hphase, hr.imported, if_true, rank]
      omega
    | listening =>
      have hcurrent := hcurrent (by rw [hphase]; simp)
      have hlt : s.currentHeight < tip := by omega
      simp only [step, hphase, hr.live, hr.latest, rank]
      simp [hlt]
    | catchingUp t =>
      rw [hphase] at hbusy
      simp only [phaseTip] at hbusy
      simp only [step, hphase, if_neg hbusy, rank]
      omega
    | listenEffects =>
      simp only [step, hphase, hr.imported, if_true, rank]
      omega
    | stopped reason =>
      cases reason with
      | blockFailed => exact absurd hphase hlive
      | aheadOfTip => exact absurd hphase hrun.notAhead
      | overflowed => exact absurd hphase hrun.notOverflowed

/-- The tip is reached, or a block on the way to it has failed. -/
def Reached (tip : Nat) (s : SyncState) : Prop :=
  tip ≤ s.db.getLastProcessedBlock ∨ s.phase = .stopped .blockFailed

/-- No step goes back. -/
theorem Reached.step (h : Reached tip s) (hs : Orderly X cfg db₀ s) (r : Reply) :
    Reached tip (step X cfg s r) := by
  obtain ⟨hlive, ⟨blocks, hf⟩, hcurrent⟩ | ⟨hfailed, -⟩ := hs
  · have hstored : tip ≤ s.db.getLastProcessedBlock := h.resolve_right hlive
    obtain ⟨p, -, -, heq⟩ | ⟨t, fetched, hphase, -, -, heq⟩ | ⟨t, hash, txs, hphase, -, heq⟩ :=
      step_cases hlive
    · rw [heq]
      exact Or.inl hstored
    · rw [heq]
      obtain ⟨more, -, -, -, hmore⟩ | ⟨hstop, -⟩ :=
        hf.processWindow (r := r) fetched hlive (hcurrent (by rw [hphase]; simp))
      · refine Or.inl (hstored.trans ?_)
        rw [hmore.stored, hf.stored, List.length_append]
        omega
      · exact Or.inr hstop
    · rw [heq]
      obtain ⟨-, -, hnext⟩ | ⟨hstop, -⟩ := hf.processNext
        (b := (r.context (s.currentHeight + 1) hash, txs))
        (by rw [← hcurrent (by rw [hphase]; simp)]; rfl)
      · refine Or.inl (hstored.trans ?_)
        rw [hnext.stored, hf.stored, List.length_append]
        omega
      · exact Or.inr hstop
  · have hsame : Monitor.step X cfg s r = s := runOn_stopped hfailed [r]
    rw [hsame]
    exact h

theorem Reached.runOn (h : Reached tip s) (hs : Orderly X cfg db₀ s) (replies : List Reply) :
    Reached tip (runOn X cfg s replies) := by
  induction replies generalizing s with
  | nil => exact h
  | cons r rest ih => exact ih (h.step hs r) (hs.step r)

variable (X cfg) in
/-- Every window that a run opens fits into 64 bits. -/
def WindowsFit (s : SyncState) (replies : List Reply) : Prop :=
  ∀ done, done <+: replies → WindowFits cfg (runOn X cfg s done)

theorem WindowsFit.tail {rest : List Reply} (h : WindowsFit X cfg s (r :: rest)) :
    WindowsFit X cfg (step X cfg s r) rest :=
  fun done hdone => h (r :: done) ((List.cons_prefix_cons).mpr ⟨rfl, hdone⟩)

/-- Enough answers of a healthy node. -/
theorem reached_of_healthy (hs : Orderly X cfg db₀ s) (hrun : Running tip s)
    (hr : r.Healthy cfg.confirmations tip) {k : Nat}
    (hfit : WindowsFit X cfg s (List.replicate k r))
    (hk : 5 * (tip - s.db.getLastProcessedBlock) + rank s ≤ k) :
    Reached tip (runOn X cfg s (List.replicate k r)) := by
  induction k generalizing s with
  | zero =>
    have hdone : tip ≤ s.db.getLastProcessedBlock := by omega
    exact Or.inl hdone
  | succ k ih =>
    by_cases hdone : Reached tip s
    · exact hdone.runOn hs _
    · have hlive : s.phase ≠ .stopped .blockFailed := fun h => hdone (Or.inr h)
      have hbelow : s.db.getLastProcessedBlock < tip := Nat.lt_of_not_le (fun h => hdone (Or.inl h))
      have hnow : WindowFits cfg s := hfit [] (List.nil_prefix)
      rw [List.replicate_succ] at hfit ⊢
      obtain hstop | hnear := step_progress hs hrun hnow hr hlive hbelow
      · exact Reached.runOn (Or.inr hstop) (hs.step r) _
      · obtain hstop | hnext := running_step hs hrun hnow (r := r) (by
          intro t ht
          rw [hr.latest] at ht
          exact (Option.some.inj ht).le)
        · exact Reached.runOn (Or.inr hstop) (hs.step r) _
        · rw [hr.latest] at hnext
          exact ih (hs.step r) hnext hfit.tail (by omega)

/-- The tips that a run is told, in their order. -/
def tips (cfg : SyncConfig) (replies : List Reply) : List Nat :=
  replies.filterMap (·.latestConfirmedHeight cfg.confirmations)

/-- A run whose tips do not fall stops at a block only. -/
theorem running_of_tips (hs : Orderly X cfg db₀ s) (hrun : Running m s) {replies : List Reply}
    (htips : (m :: (tips cfg replies ++ [tip])).Pairwise (· ≤ ·))
    (hfit : WindowsFit X cfg s replies) :
    (runOn X cfg s replies).phase = .stopped .blockFailed ∨
      Running tip (runOn X cfg s replies) := by
  induction replies generalizing s m with
  | nil =>
    have hle : m ≤ tip := (List.pairwise_cons.mp htips).1 tip (by simp [tips])
    exact Or.inr (hrun.mono hle)
  | cons r rest ih =>
    have hnow : WindowFits cfg s := hfit [] (List.nil_prefix)
    obtain ⟨hfirst, hrest⟩ := List.pairwise_cons.mp htips
    have hgoes := running_step hs hrun hnow (r := r) (by
      intro t ht
      exact hfirst t (by simp [tips, ht]))
    obtain hstop | hnext := hgoes
    · left
      change (runOn X cfg (step X cfg s r) rest).phase = _
      rw [runOn_stopped hstop, hstop]
    · refine ih (hs.step r) hnext ?_ hfit.tail
      cases hlatest : r.latestConfirmedHeight cfg.confirmations with
      | none =>
        simpa [tips, List.filterMap_cons, hlatest] using htips
      | some t =>
        simpa [tips, List.filterMap_cons, hlatest] using hrest

theorem runOn_append (s : SyncState) (l₁ l₂ : List Reply) :
    runOn X cfg s (l₁ ++ l₂) = runOn X cfg (runOn X cfg s l₁) l₂ :=
  List.foldl_append

theorem WindowsFit.left {l₁ l₂ : List Reply} (h : WindowsFit X cfg s (l₁ ++ l₂)) :
    WindowsFit X cfg s l₁ :=
  fun done hdone => h done (hdone.trans (List.prefix_append l₁ l₂))

theorem WindowsFit.right {l₁ l₂ : List Reply} (h : WindowsFit X cfg s (l₁ ++ l₂)) :
    WindowsFit X cfg (runOn X cfg s l₁) l₂ := by
  intro done hdone
  rw [← runOn_append]
  exact h (l₁ ++ done) ((List.prefix_append_right_inj l₁).mpr hdone)

variable (X cfg) in
/-- What a run of the monitor does. The blocks from the one after the stored height on are
processed in the order of their heights, each once and followed by its rewards, and the
database is that of processing them one by one; only a block that fails breaks this off, and
the monitor with it. And as many answers of a healthy node as it takes bring the monitor to
the tip, after any answers whose tips did not fall. -/
structure BlockByBlock (db₀ : HeedDb) (replies : List Reply) : Prop where
  ordered :
    ((runOn X cfg (.start db₀) replies).phase ≠ .stopped .blockFailed ∧
      ∃ blocks, Follows X cfg db₀ blocks (runOn X cfg (.start db₀) replies)) ∨
    ((runOn X cfg (.start db₀) replies).phase = .stopped .blockFailed ∧
      ∃ blocks b, FailsAt X cfg db₀ blocks b (runOn X cfg (.start db₀) replies))
  complete : ∀ before r tip k, replies = before ++ List.replicate k r →
    r.Healthy cfg.confirmations tip →
    (db₀.getLastProcessedBlock :: (tips cfg before ++ [tip])).Pairwise (· ≤ ·) →
    5 * (tip - db₀.getLastProcessedBlock) + 4 ≤ k →
    Reached tip (runOn X cfg (.start db₀) replies)

/-- A run all of whose windows fit into 64 bits is block by block. -/
theorem synchronised_block_by_block {replies : List Reply}
    (hfit : WindowsFit X cfg (.start db₀) replies) : BlockByBlock X cfg db₀ replies where
  ordered := by
    obtain ⟨hlive, hfollows, -⟩ | hfailed := (orderly_start db₀).runOn replies
    · exact Or.inl ⟨hlive, hfollows⟩
    · exact Or.inr hfailed
  complete := by
    rintro before r tip k rfl hr htips hk
    have hs : Orderly X cfg db₀ (runOn X cfg (.start db₀) before) :=
      (orderly_start db₀).runOn before
    rw [runOn_append]
    obtain hstop | hrun := running_of_tips (orderly_start db₀)
      ⟨le_rfl, Nat.zero_le _, by simp [SyncState.start], by simp [SyncState.start]⟩ htips hfit.left
    · exact Reached.runOn (Or.inr hstop) hs _
    · by_cases hlive : (runOn X cfg (.start db₀) before).phase = .stopped .blockFailed
      · exact Reached.runOn (Or.inr hlive) hs _
      · have hstored : db₀.getLastProcessedBlock ≤
            (runOn X cfg (.start db₀) before).db.getLastProcessedBlock := by
          obtain ⟨-, ⟨blocks, hf⟩, -⟩ | ⟨hfailed, -⟩ := hs
          · rw [hf.stored]
            omega
          · exact absurd hfailed hlive
        have hrank := rank_le (runOn X cfg (.start db₀) before)
        exact reached_of_healthy hs hrun hr hfit.right (by omega)

/-- The tip of a window was asked for when the monitor turned to it. -/
theorem window_of_step (hs : Orderly X cfg db₀ s) (h : (step X cfg s r).phase = .window tip) :
    s.phase = .window tip ∨ r.latestConfirmedHeight cfg.confirmations = some tip := by
  obtain ⟨hlive, ⟨blocks, hf⟩, hcurrent⟩ | ⟨hfailed, -⟩ := hs
  · obtain ⟨p, -, hp, heq⟩ | ⟨t, fetched, hphase, -, -, heq⟩ | ⟨t, hash, txs, hphase, -, heq⟩ :=
      step_cases hlive
    · rw [heq] at h
      exact Or.inr (hp tip h)
    · left
      rw [heq] at h
      obtain ⟨-, -, hkeep, -, -⟩ | ⟨hstop, -⟩ :=
        hf.processWindow (r := r) fetched hlive (hcurrent (by rw [hphase]; simp))
      · rw [← hkeep, h]
      · rw [hstop] at h
        cases h
    · rw [heq] at h
      obtain ⟨hkeep, -, -⟩ | ⟨hstop, -⟩ := hf.processNext
        (b := (r.context (s.currentHeight + 1) hash, txs))
        (by rw [← hcurrent (by rw [hphase]; simp)]; rfl)
      · rw [hkeep, hphase] at h
        cases h
      · rw [hstop] at h
        cases h
  · rw [show step X cfg s r = s from runOn_stopped hfailed [r], hfailed] at h
    cases h

/-- The windows fit if every tip leaves room for a batch. -/
theorem windowsFit_of_tips {replies : List Reply}
    (h : ∀ t ∈ tips cfg replies, t + cfg.syncBatchSize ≤ 2 ^ 64) :
    WindowsFit X cfg (.start db₀) replies := by
  have hinv : ∀ (l : List Reply) (s : SyncState), Orderly X cfg db₀ s →
      (∀ t, s.phase = .window t → t + cfg.syncBatchSize ≤ 2 ^ 64) →
      (∀ t ∈ tips cfg l, t + cfg.syncBatchSize ≤ 2 ^ 64) →
      ∀ t, (runOn X cfg s l).phase = .window t → t + cfg.syncBatchSize ≤ 2 ^ 64 := by
    intro l
    induction l with
    | nil => exact fun _ _ hs _ => hs
    | cons r rest ih =>
      intro s hs hroom hl
      refine ih (step X cfg s r) (hs.step r) (fun t ht => ?_) (fun t ht => ?_)
      · obtain hold | hnew := window_of_step hs ht
        · exact hroom t hold
        · exact hl t (by simp [tips, hnew])
      · refine hl t ?_
        obtain ⟨r', hr', ht'⟩ := List.mem_filterMap.mp ht
        exact List.mem_filterMap.mpr ⟨r', List.mem_cons_of_mem r hr', ht'⟩
  intro done hdone t hphase hlt
  have hroom := hinv done (.start db₀) (orderly_start db₀) (fun t ht => by cases ht) (by
    intro t ht
    obtain ⟨r', hr', ht'⟩ := List.mem_filterMap.mp ht
    exact h t (List.mem_filterMap.mpr ⟨r', hdone.subset hr', ht'⟩)) t hphase
  omega

end Progress

section Empty

open Solo

/-- A node whose tip has the given height and whose blocks are empty. -/
def emptyChain (height : Nat) : Reply :=
  ⟨false, some height, fun _ => some (bytes32 0), fun _ => some [], true, fun _ => .listed _,
    fun _ => .listed _, fun _ => .listed _⟩

theorem healthy_emptyChain (height : Nat) : (emptyChain height).Healthy 0 height :=
  ⟨rfl, rfl, fun _ _ => ⟨_, rfl⟩, rfl⟩

/-- A database that has processed the first block. -/
def firstDb : HeedDb := HeedDb.empty.setLastProcessedBlock 1

theorem emptyChain_block_by_block :
    BlockByBlock (ideal { }) ⟨⟨none⟩, 0, 2, by decide⟩ firstDb (List.replicate 19 (emptyChain 4)) :=
  synchronised_block_by_block (windowsFit_of_tips (by
    intro t ht
    obtain ⟨r, hr, ht⟩ := List.mem_filterMap.mp ht
    rw [List.eq_of_mem_replicate hr] at ht
    cases ht
    decide))

/-- The largest batch size, which overflows at every height but zero. -/
def largestBatch : SyncConfig := ⟨⟨none⟩, 0, 2 ^ 64 - 1, by decide⟩

theorem largest_batch_stops :
    ¬ ∀ (X : Library) (cfg : SyncConfig) (db₀ : HeedDb) (replies : List Reply),
      BlockByBlock X cfg db₀ replies := by
  intro h
  have hreached := (h (ideal { }) largestBatch firstDb (List.replicate 9 (emptyChain 2))).complete
    [] (emptyChain 2) 2 9 rfl (healthy_emptyChain 2) (by decide) (by decide)
  have hstops : (runOn (ideal { }) largestBatch (.start firstDb)
      (List.replicate 3 (emptyChain 2))).phase = .stopped .overflowed := by decide
  have hrun : runOn (ideal { }) largestBatch (.start firstDb) (List.replicate 9 (emptyChain 2)) =
      runOn (ideal { }) largestBatch (.start firstDb) (List.replicate 3 (emptyChain 2)) :=
    runOn_stopped hstops (List.replicate 6 (emptyChain 2))
  rw [hrun] at hreached
  obtain hstored | hfailed := hreached
  · exact absurd hstored (by decide)
  · rw [hstops] at hfailed
    cases hfailed

end Empty

end Monitor
