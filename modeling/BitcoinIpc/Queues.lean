import BitcoinIpc.Sound

/-!
# The queues of subnets

The messages to a subnet stand under consecutive nonces, and a message is always
appended with the next one. Fundings and batch transfers are the only commits
that add messages. What a batch transfer adds to a queue delivers its native and
its token transfers to that subnet, each once and in their order.
-/

namespace Monitor

open Faults Bytes Chain Messages Crates Multisig Db Grouping Commits OrderedTable
open IpcBatchTransferMsg

variable (X : Library)

/-- The messages to a subnet, in the order of their nonces. -/
def queue (db : HeedDb) (t : Txid20) : List RootnetMessage :=
  db.rootnetMsgsDb.listed (rootnetMsgsKey X (.fromTxid20 t))
    (fun k => (rootnetMsgsPrefix X (.fromTxid20 t)).isPrefixOf k)

/-- The nonces of a subnet are the numbers below the length of its queue. -/
def DenseQueue (db : HeedDb) (t : Txid20) : Prop :=
  db.rootnetMsgsDb.Dense (rootnetMsgsKey X (.fromTxid20 t))
    (fun k => (rootnetMsgsPrefix X (.fromTxid20 t)).isPrefixOf k)

/-- What a message hands over to its subnet: an amount to a user, or tokens. -/
inductive Delivery where
  | native (amount : Amount) (user : EthAddress)
  | erc (transfer : IpcCrossSubnetErcTransfer)
deriving DecidableEq

def deliveryOf : RootnetMessage → Option Delivery
  | .fundSubnet m _ _ _ _ => some (.native m.amount m.address)
  | .ercTransfer e _ _ _ _ => some (.erc e)
  | .ercRegistration .. => none

/-- The queue of every subnet keeps its messages and gets more, which deliver the
listed transfers. -/
def Delivers (f : Txid20 → List Delivery) (db db' : HeedDb) : Prop :=
  ∀ u, DenseQueue X db u → DenseQueue X db' u ∧
    ∃ new, queue X db' u = queue X db u ++ new ∧ new.filterMap deliveryOf = f u

/-- What a message says, whenever it was found. -/
inductive Content where
  | fund (m : IpcFundSubnetMsg)
  | registration (home : SubnetId) (r : IpcErcTokenRegistration)
  | transfer (e : IpcCrossSubnetErcTransfer)
deriving DecidableEq

def contentOf : RootnetMessage → Content
  | .fundSubnet m _ _ _ _ => .fund m
  | .ercTransfer e _ _ _ _ => .transfer e
  | .ercRegistration home r _ _ _ _ => .registration home r

def Content.delivery : Content → Option Delivery
  | .fund m => some (.native m.amount m.address)
  | .transfer e => some (.erc e)
  | .registration .. => none

/-- The queue of every subnet keeps its messages and gets more, with the listed contents. -/
def Posts (f : Txid20 → List Content) (db db' : HeedDb) : Prop :=
  ∀ u, DenseQueue X db u → DenseQueue X db' u ∧
    ∃ new, queue X db' u = queue X db u ++ new ∧ new.map contentOf = f u

/-- The deliveries of native transfers to a subnet. -/
def nativeFor (u : Txid20) (l : List IpcCrossSubnetTransfer) : List Delivery :=
  (l.filter (fun t => t.destinationSubnetId = .fromTxid20 u)).map
    (fun t => .native t.amount t.subnetUserAddress)

def ercFor (u : Txid20) (l : List IpcCrossSubnetErcTransfer) : List Delivery :=
  (l.filter (fun e => e.destinationSubnetId = .fromTxid20 u)).map .erc

/-- What a batch transfer posts to a subnet: its native transfers, its registrations unless
the subnet is their home, and its token transfers. -/
def postsFor (m : IpcBatchTransferMsg) (subnets : List SubnetState) (u : Txid20) : List Content :=
  (m.transfers.filter (fun t => t.destinationSubnetId = .fromTxid20 u)).map
      (fun t => .fund ⟨t.destinationSubnetId, t.amount, t.subnetUserAddress⟩) ++
    m.tokenRegistrations.flatMap (fun r => ((subnets.filter (fun s => s.id ≠ m.subnetId)).filter
      (fun s => s.id = .fromTxid20 u)).map (fun _ => .registration m.subnetId r)) ++
    (m.tokenTransfers.filter (fun e => e.destinationSubnetId = .fromTxid20 u)).map .transfer

section Composition

variable {X} {f g : Txid20 → List Content} {a b c : HeedDb}

theorem Posts.trans (h₁ : Posts X f a b) (h₂ : Posts X g b c) :
    Posts X (fun u => f u ++ g u) a c := by
  intro u hu
  obtain ⟨hb, new, hnew, hf⟩ := h₁ u hu
  obtain ⟨hc, more, hmore, hg⟩ := h₂ u hb
  refine ⟨hc, new ++ more, ?_, ?_⟩
  · rw [hmore, hnew, List.append_assoc]
  · rw [List.map_append, hf, hg]

theorem Posts.congr (h : Posts X f a b) (hfg : ∀ u, f u = g u) : Posts X g a b := by
  rwa [← funext hfg]

theorem posts_of_same (h : b.rootnetMsgsDb = a.rootnetMsgsDb) : Posts X (fun _ => []) a b := by
  intro u hu
  refine ⟨?_, [], ?_, rfl⟩
  · rw [DenseQueue, h]
    exact hu
  · rw [queue, queue, h, List.append_nil]

theorem posts_foldl {α : Type} {p : HeedDb → α → HeedDb} {g : α → Txid20 → List Content}
    {l : List α} (h : ∀ x ∈ l, ∀ db, Posts X (g x) db (p db x)) (db : HeedDb) :
    Posts X (fun u => l.flatMap (fun x => g x u)) db (l.foldl p db) := by
  induction l generalizing db with
  | nil => exact posts_of_same rfl
  | cons x rest ih =>
    simp only [List.foldl_cons, List.flatMap_cons]
    exact (h x List.mem_cons_self db).trans
      (ih (fun y hy => h y (List.mem_cons_of_mem x hy)) (p db x))

theorem posts_foldlM {α ε : Type} {p : HeedDb → α → Outcome ε HeedDb}
    {g : α → Txid20 → List Content} {l : List α} {db db' : HeedDb}
    (h : ∀ x ∈ l, ∀ d d', p d x = .ok d' → Posts X (g x) d d')
    (hfold : l.foldlM p db = .ok db') :
    Posts X (fun u => l.flatMap (fun x => g x u)) db db' := by
  induction l generalizing db with
  | nil =>
    obtain rfl : db = db' := Except.ok.inj hfold
    exact posts_of_same rfl
  | cons x rest ih =>
    rw [List.foldlM_cons] at hfold
    obtain ⟨d, hd, hrest⟩ := bind_eq_ok.mp hfold
    simp only [List.flatMap_cons]
    exact (h x List.mem_cons_self db d hd).trans
      (ih (fun y hy => h y (List.mem_cons_of_mem x hy)) hrest)

/-- What is delivered is part of what is posted. -/
theorem Posts.delivers (h : Posts X f a b) :
    Delivers X (fun u => (f u).filterMap Content.delivery) a b := by
  intro u hu
  obtain ⟨hb, new, hnew, hf⟩ := h u hu
  refine ⟨hb, new, hnew, ?_⟩
  dsimp only
  rw [← hf, List.filterMap_map]
  refine List.filterMap_congr (fun msg _ => ?_)
  cases msg <;> rfl

end Composition

section Appending

variable {X} (laws : DisplayLaws X)
include laws

/-- A message made with the next nonce goes to the end of its queue. -/
theorem posts_enqueue (db : HeedDb) (t : Txid20) {f : Nat → RootnetMessage}
    (hnonce : ∀ n, (f n).nonce = n) (content : Content) (hcontent : ∀ n, contentOf (f n) = content) :
    Posts X (fun u => if u = t then [content] else []) db (enqueue X db (.fromTxid20 t) f) := by
  have hbelongs : ∀ (s : Txid20) (n : Nat),
      (rootnetMsgsPrefix X (.fromTxid20 s)).isPrefixOf (rootnetMsgsKey X (.fromTxid20 s) n) =
        true := by
    intro s n
    rw [rootnetMsgsPrefix, rootnetMsgsKey, isPrefixOf_numberedKey laws]
    exact decide_eq_true rfl
  intro u hu
  have hdb : (enqueue X db (.fromTxid20 t) f).rootnetMsgsDb = db.rootnetMsgsDb.put
      (rootnetMsgsKey X (.fromTxid20 t) (db.getAllRootnetMsgs X (.fromTxid20 t)).length)
      (f (db.getAllRootnetMsgs X (.fromTxid20 t)).length) := by
    rw [enqueue, HeedDb.addRootnetMsg, hnonce, HeedDb.getNextRootnetMsgNonce_eq]
  simp only [DenseQueue, queue, hdb]
  by_cases hut : u = t
  · subst hut
    have hinj : Function.Injective (rootnetMsgsKey X (.fromTxid20 u)) := by
      intro n k hnk
      exact (numberedKey_inj laws hnk).2
    obtain ⟨hdense, hlisted⟩ := Table.dense_put_next hinj (hbelongs u) hu
      (f (db.getAllRootnetMsgs X (.fromTxid20 u)).length)
    refine ⟨hdense, [_], hlisted, ?_⟩
    rw [if_pos rfl, List.map_singleton, hcontent]
  · have hother : (rootnetMsgsPrefix X (.fromTxid20 u)).isPrefixOf (rootnetMsgsKey X (.fromTxid20 t)
        (db.getAllRootnetMsgs X (.fromTxid20 t)).length) = false := by
      rw [rootnetMsgsPrefix, rootnetMsgsKey, isPrefixOf_numberedKey laws]
      exact decide_eq_false hut
    obtain ⟨hdense, hlisted⟩ := Table.dense_put_other (t := db.rootnetMsgsDb) (hbelongs u) hother
      (f (db.getAllRootnetMsgs X (.fromTxid20 t)).length)
    refine ⟨hdense.mpr hu, [], by rw [hlisted, List.append_nil], ?_⟩
    rw [if_neg hut]
    rfl

/-- A message is seen by the subnet it is sent to. -/
theorem posts_enqueue_to {s : SubnetId} {d : Txid20} (hs : s = .fromTxid20 d) (db : HeedDb)
    {f : Nat → RootnetMessage} (hnonce : ∀ n, (f n).nonce = n) (content : Content)
    (hcontent : ∀ n, contentOf (f n) = content) :
    Posts X (fun u => if s = .fromTxid20 u then [content] else []) db (enqueue X db s f) := by
  subst hs
  refine (posts_enqueue laws db d hnonce content hcontent).congr (fun u => ?_)
  simp only [SubnetId.fromTxid20_injective.eq_iff, eq_comm]

theorem posts_applyTransfer {o : Origin} {source : SubnetId} {e : IpcCrossSubnetErcTransfer}
    {d : Txid20} {db db' : HeedDb} (hd : e.destinationSubnetId = .fromTxid20 d)
    (hpos : e.amount ≠ 0) (h : applyTransfer X o source db e = .ok db') :
    Posts X (fun u => if e.destinationSubnetId = .fromTxid20 u then [.transfer e] else []) db
      db' := by
  simp only [applyTransfer, hpos, if_false] at h
  obtain ⟨left, -, h⟩ := bind_eq_ok.mp h
  obtain rfl := Except.ok.inj h
  have hset : ∀ d', d'.rootnetMsgsDb = db.rootnetMsgsDb → Posts X (fun _ => []) db d' :=
    fun _ => posts_of_same
  have hqueue := fun db => posts_enqueue_to laws hd db (f := fun nonce =>
    .ercTransfer e o.blockHeight o.blockHash nonce o.txid) (fun _ => rfl) _ (fun _ => rfl)
  exact Posts.congr ((hset _ rfl).trans (hqueue _)) (fun u => List.nil_append _)

/-- Registrations are announced to subnets. -/
theorem posts_applyRegistration {o : Origin} {source : SubnetId} {subnets : List SubnetState}
    (hsub : ∀ s ∈ subnets, ∃ t, s.id = .fromTxid20 t) (db : HeedDb)
    (r : IpcErcTokenRegistration) :
    Posts X (fun u => (subnets.filter (fun s => s.id ≠ source)).flatMap (fun s =>
        if s.id = .fromTxid20 u then [.registration source r] else []))
      db (applyRegistration X o source subnets db r) := by
  have hset : Posts X (fun _ => []) db
      (db.setTokenBalance X source r.homeTokenAddress source r.initialSupply) := posts_of_same rfl
  refine hset.trans (posts_foldl (fun s hs d => ?_) _)
  obtain ⟨t, ht⟩ := hsub s (List.mem_of_mem_filter hs)
  exact posts_enqueue_to laws ht d (fun _ => rfl) _ (fun _ => rfl)

/-- Mints and burns touch no queue. -/
theorem posts_applyRecords {m : IpcBatchTransferMsg} {o : Origin} {committed db db' : HeedDb}
    (hcommitted : ∀ s ∈ committed.getAllSubnets, ∃ t, s.id = .fromTxid20 t)
    (hnative : ∀ t ∈ m.transfers, ∃ d, t.destinationSubnetId = .fromTxid20 d)
    (herc : ∀ e ∈ m.tokenTransfers, ∃ d, e.destinationSubnetId = .fromTxid20 d)
    (hpos : ∀ e ∈ m.tokenTransfers, e.amount ≠ 0)
    (h : m.applyRecords X o committed db = .ok db') :
    Posts X (postsFor m committed.getAllSubnets) db db' := by
  obtain ⟨d, hburn, htransfer⟩ := bind_eq_ok.mp h
  have htransfers := posts_foldl (X := X) (p := applyNative X o)
    (g := fun t u => if t.destinationSubnetId = .fromTxid20 u then
      [.fund ⟨t.destinationSubnetId, t.amount, t.subnetUserAddress⟩] else [])
    (l := m.transfers) (fun t ht db => by
      obtain ⟨d, hd⟩ := hnative t ht
      exact posts_enqueue_to laws hd db (fun _ => rfl) _ (fun _ => rfl)) db
  have hregistered := posts_foldl (X := X)
    (p := applyRegistration X o m.subnetId committed.getAllSubnets) (l := m.tokenRegistrations)
    (fun r _ db => posts_applyRegistration laws hcommitted db r)
    (m.transfers.foldl (applyNative X o) db)
  have hminted := posts_foldl (X := X) (g := fun _ _ => []) (p := applyMint X m.subnetId)
    (l := m.tokenSupplyAdjustments.filter (fun a => !a.delta.isNegative))
    (fun a _ db => posts_of_same rfl)
    (m.tokenRegistrations.foldl (applyRegistration X o m.subnetId committed.getAllSubnets)
      (m.transfers.foldl (applyNative X o) db))
  have hburned := posts_foldlM (X := X) (g := fun _ _ => []) (by
    intro a _ d d' hd
    obtain ⟨left, -, hd⟩ := bind_eq_ok.mp hd
    exact (Except.ok.inj hd) ▸ posts_of_same rfl) hburn
  have hmoved := posts_foldlM (X := X) (fun e he d d' hd => by
    obtain ⟨t, ht⟩ := herc e he
    exact posts_applyTransfer laws ht (hpos e he) hd) htransfer
  refine ((((htransfers.trans hregistered).trans hminted).trans hburned).trans hmoved).congr
    (fun u => ?_)
  have hsingle : ∀ {α : Type} (p : α → Prop) [DecidablePred p] (f : α → Content) (l : List α),
      l.flatMap (fun a => if p a then [f a] else []) = (l.filter (fun a => p a)).map f := by
    intro α p _ f l
    induction l with
    | nil => rfl
    | cons a rest ih =>
      rw [List.flatMap_cons, ih]
      by_cases ha : p a <;> simp [ha]
  simp only [postsFor, hsingle, List.flatMap_eq_nil_iff.mpr (fun _ _ => rfl), List.append_nil]

end Appending

section Reached

variable {X} (laws : DisplayLaws X) {db db' : HeedDb}

theorem amounts_of_checkTransfers {source : SubnetId} {l : List IpcCrossSubnetErcTransfer}
    {b b' : RunningBalances} (h : l.foldlM (checkTransfer X db source) b = .ok b') :
    ∀ e ∈ l, e.amount ≠ 0 := by
  induction l generalizing b with
  | nil => simp
  | cons e rest ih =>
    rw [List.foldlM_cons] at h
    obtain ⟨b₁, hstep, hrest⟩ := bind_eq_ok.mp h
    obtain ⟨_, hne, -⟩ := bind_eq_ok.mp hstep
    intro x hx
    rcases List.mem_cons.mp hx with rfl | hx
    · exact ensure_eq_ok.mp hne
    · exact ih hrest x hx

theorem amounts_of_validate {source : SubnetId} {rs : List IpcErcTokenRegistration}
    {as : List IpcErcSupplyAdjustment} {es : List IpcCrossSubnetErcTransfer}
    (h : validateErcBatchData X source rs as es db = .ok ()) : ∀ e ∈ es, e.amount ≠ 0 := by
  obtain ⟨_, -, h⟩ := bind_eq_ok.mp h
  obtain ⟨_, -, h⟩ := bind_eq_ok.mp h
  obtain ⟨_, hchecks, -⟩ := bind_eq_ok.mp h
  exact amounts_of_checkTransfers hchecks

/-- The destinations of a parsed batch are subnets of the parent chain. -/
theorem fromTx_homes {native erc : HashOrder Txid20} {tx : Transaction} {m : IpcBatchTransferMsg}
    (h : IpcBatchTransferMsg.fromTx X native erc db tx = .ok m) :
    (∀ t ∈ m.transfers, ∃ d, t.destinationSubnetId = .fromTxid20 d) ∧
      ∀ e ∈ m.tokenTransfers, ∃ d, e.destinationSubnetId = .fromTxid20 d := by
  obtain ⟨_, -, h⟩ := bind_eq_ok.mp h
  obtain ⟨_, -, h⟩ := bind_eq_ok.mp h
  obtain ⟨_, -, h⟩ := bind_eq_ok.mp h
  obtain ⟨_, -, h⟩ := bind_eq_ok.mp h
  obtain ⟨_, -, h⟩ := bind_eq_ok.mp h
  obtain ⟨wire, -, h⟩ := bind_eq_ok.mp h
  obtain ⟨_, -, h⟩ := bind_eq_ok.mp h
  cases h
  constructor
  · intro t ht
    obtain ⟨entry, -, ht⟩ := List.mem_flatMap.mp ht
    unfold nativeTransfers at ht
    split at ht
    · cases ht
    · obtain ⟨x, -, rfl⟩ := List.mem_map.mp ht
      exact ⟨entry.1, rfl⟩
  · intro e he
    obtain ⟨entry, -, he⟩ := List.mem_flatMap.mp he
    obtain ⟨x, -, rfl⟩ := List.mem_map.mp he
    exact ⟨entry.1, rfl⟩

theorem Sound.allSubnets (h : Sound X db) : ∀ s ∈ db.getAllSubnets, ∃ t, s.id = .fromTxid20 t := by
  intro s hs
  obtain ⟨k, -, hk⟩ := (Table.mem_scan_iff _ _ _).mp hs
  obtain ⟨t, -, hid, -⟩ := (h.states _ ((Table.get_eq_some_iff db.subnetDb).mp hk)).keyed
  exact ⟨t, hid⟩

include laws

/-- A batch transfer that is saved posts its records. -/
theorem posts_saveToDb {m : IpcBatchTransferMsg} {o : Origin}
    {saved : HeedDb × SubnetCheckpoint} (hs : Sound X db)
    (hnative : ∀ t ∈ m.transfers, ∃ d, t.destinationSubnetId = .fromTxid20 d)
    (herc : ∀ e ∈ m.tokenTransfers, ∃ d, e.destinationSubnetId = .fromTxid20 d)
    (h : m.saveToDb X db o = .ok saved) : Posts X (postsFor m db.getAllSubnets) db saved.1 := by
  obtain ⟨s, -, h⟩ := bind_eq_ok.mp h
  obtain ⟨n, -, h⟩ := bind_eq_ok.mp h
  obtain ⟨c, -, h⟩ := bind_eq_ok.mp h
  obtain ⟨_, hvalid, h⟩ := bind_eq_ok.mp h
  obtain ⟨db', happly, h⟩ := bind_eq_ok.mp h
  cases h
  have hpos := amounts_of_validate (mapErr_eq_ok.mp hvalid)
  have hrecords := posts_applyRecords laws hs.allSubnets hnative herc hpos happly
  have hsaved : Posts X (fun _ => []) db (db.saveCheckpoint X m.subnetId { c with
      batchTransferTxid := some o.txid, batchTransferBlockHeight := some o.blockHeight }
      (n + 1)) := posts_of_same rfl
  exact hsaved.trans hrecords

/-- A batch transfer that is saved delivers its transfers. -/
theorem delivers_saveToDb {m : IpcBatchTransferMsg} {o : Origin}
    {saved : HeedDb × SubnetCheckpoint} (hs : Sound X db)
    (hnative : ∀ t ∈ m.transfers, ∃ d, t.destinationSubnetId = .fromTxid20 d)
    (herc : ∀ e ∈ m.tokenTransfers, ∃ d, e.destinationSubnetId = .fromTxid20 d)
    (h : m.saveToDb X db o = .ok saved) :
    Delivers X (fun u => nativeFor u m.transfers ++ ercFor u m.tokenTransfers) db saved.1 := by
  have hdelivers := (posts_saveToDb laws hs hnative herc h).delivers
  have hfor : ∀ u, (postsFor m db.getAllSubnets u).filterMap Content.delivery =
      nativeFor u m.transfers ++ ercFor u m.tokenTransfers := by
    intro u
    have hnone : ∀ (r : IpcErcTokenRegistration) (l : List SubnetState), (l.map (fun _ =>
        Content.registration m.subnetId r)).filterMap Content.delivery = [] := by
      intro r l
      rw [List.filterMap_map]
      exact List.filterMap_eq_nil_iff.mpr (fun _ _ => rfl)
    simp only [postsFor, List.filterMap_append, List.filterMap_flatMap, hnone,
      List.flatMap_eq_nil_iff.mpr (fun _ _ => rfl), List.append_nil, List.filterMap_map]
    rw [nativeFor, ercFor, ← List.filterMap_eq_map, ← List.filterMap_eq_map]
    rfl
  rwa [← funext hfor]

omit laws in
theorem eq_message_of_batchOf {e : Event} {m : IpcBatchTransferMsg} (h : batchOf e = some m) :
    ∃ ctx tx, e = .message ctx tx (.batchTransfer m) := by
  unfold batchOf at h
  split at h
  · obtain rfl := Option.some.inj h
    exact ⟨_, _, rfl⟩
  · cases h

/-- Every commit appends to the queues. -/
theorem posts_commit {e : Event} (hs : Sound X db) (h : Commit X db e db') :
    ∃ f, Posts X f db db' ∧ (∀ m, batchOf e = some m → f = postsFor m db.getAllSubnets) ∧
      (batchOf e = none → ∀ u, ∀ c ∈ f u, ∃ m, c = .fund m) := by
  cases hq : addsToQueue e with
  | false =>
    refine ⟨_, posts_of_same ((tables_of_commit h).2.2 hq), fun m hm => ?_, fun _ _ _ hc => ?_⟩
    · obtain ⟨ctx, tx, rfl⟩ := eq_message_of_batchOf hm
      cases hq
    · cases hc
  | true =>
    cases h with
    | @fundSubnet ctx tx m db' _ _ hsave =>
      obtain ⟨s, hst, rfl⟩ := IpcFundSubnetMsg.saveToDb_eq_ok hsave
      obtain ⟨t, ht, -⟩ := hs.state laws hst
      refine ⟨_, posts_enqueue_to laws ht db (f := fun nonce => m.toRootnetMessage nonce
        ctx.blockHeight ctx.blockHash (X.computeTxid tx)) (fun _ => rfl) (.fund m) (fun _ => rfl),
        ⟨fun _ hm => ?_, fun _ u c hc => ?_⟩⟩
      · cases hm
      · split_ifs at hc
        · exact ⟨m, List.mem_singleton.mp hc⟩
        · cases hc
    | batchTransfer hparsed hcheck hsave =>
      obtain ⟨hnative, herc⟩ := fromTx_homes hparsed
      have hm := checkBatch_eq hcheck
      refine ⟨_, posts_saveToDb laws hs ?_ ?_ hsave, fun _ hm => ?_, fun hnone => ?_⟩
      · rw [hm]
        exact hnative
      · rw [hm]
        exact herc
      · cases hm
        rfl
      · cases hnone
    | _ => cases hq

/-- Every commit delivers something, if only nothing. -/
theorem delivers_commit {e : Event} (hs : Sound X db) (h : Commit X db e db') :
    ∃ f, Delivers X f db db' := by
  obtain ⟨f, hf, -⟩ := posts_commit laws hs h
  exact ⟨_, hf.delivers⟩

/-- The queues of every reachable state are dense. -/
theorem denseQueue_of_reachable (h : Reachable X db) (u : Txid20) : DenseQueue X db u := by
  obtain ⟨l, hl, rfl⟩ := h
  refine (invariant_last (C := fun _ _ _ => True) (I := fun db => Sound X db ∧ DenseQueue X db u)
    ?_ ?_ hl (allSteps_of_events (P := fun _ => True) (fun _ _ => trivial))).2
  · rintro d e d' ⟨hs, hdense⟩ hstep -
    obtain ⟨f, hf⟩ := delivers_commit laws hs hstep
    exact ⟨hs.commit laws hstep, (hf u hdense).1⟩
  · refine ⟨sound_empty, ?_⟩
    intro n
    simp [HeedDb.empty, Table.scan, Table.scanEntries, Table.empty, Table.get, lookupEntry]

end Reached

end Monitor
