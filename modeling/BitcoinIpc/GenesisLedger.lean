import BitcoinIpc.Bootstrap

/-!
# The balances of a genesis

The genesis info of a subnet lists its prefunds, one entry for each, and sums
them up by address for those who start the subnet. Along every run the entries
are the prefunds that were accepted since the subnet was created: none is lost,
none is counted twice, and each one is paid by an output.
-/

namespace Db

open Faults Bytes Chain Messages Crates Multisig

/-- The entry of a hash map is added to, or made. -/
def addBalance {ε : Type} (b : EthAddress → Option Amount) (e : GenesisBalanceEntry) :
    Outcome ε (EthAddress → Option Amount) :=
  match b e.subnetAddress with
  | some amount => do
    let sum ← addAmount amount e.amount
    return Function.update b e.subnetAddress (some sum)
  | none => return Function.update b e.subnetAddress (some e.amount)

def SubnetGenesisInfo.genesisBalance {ε : Type} (g : SubnetGenesisInfo) :
    Outcome ε (EthAddress → Option Amount) :=
  g.genesisBalanceEntries.foldlM addBalance (fun _ => none)

/-- What the entries credit to an address. -/
def credited (entries : List GenesisBalanceEntry) (a : EthAddress) : Amount :=
  ((entries.filter (fun e => e.subnetAddress = a)).map (·.amount)).sum

theorem credited_append (l r : List GenesisBalanceEntry) (a : EthAddress) :
    credited (l ++ r) a = credited l a + credited r a := by
  simp [credited]

/-- The balances of a list of entries: an address has one when it is in the list. -/
structure BalancesOf (entries : List GenesisBalanceEntry) (b : EthAddress → Option Amount) :
    Prop where
  present : ∀ a, (∃ e ∈ entries, e.subnetAddress = a) → b a = some (credited entries a)
  absent : ∀ a, (∀ e ∈ entries, e.subnetAddress ≠ a) → b a = none

theorem credited_singleton (e : GenesisBalanceEntry) (a : EthAddress) :
    credited [e] a = if e.subnetAddress = a then e.amount else 0 := by
  by_cases h : e.subnetAddress = a <;> simp [credited, h]

/-- The balance of one address follows the new entry, the others stay. -/
theorem BalancesOf.update {entries : List GenesisBalanceEntry} {b : EthAddress → Option Amount}
    (h : BalancesOf entries b) (e : GenesisBalanceEntry) :
    BalancesOf (entries ++ [e]) (Function.update b e.subnetAddress
      (some (credited entries e.subnetAddress + e.amount))) := by
  constructor
  · intro a ha
    by_cases heq : a = e.subnetAddress
    · rw [heq, Function.update_self, credited_append, credited_singleton, if_pos rfl]
    · obtain ⟨x, hx, hxa⟩ := ha
      have hxe : x ∈ entries := by
        rcases List.mem_append.mp hx with hx | hx
        · exact hx
        · exact absurd (List.mem_singleton.mp hx ▸ hxa.symm) heq
      rw [Function.update_of_ne heq, h.present a ⟨x, hxe, hxa⟩, credited_append,
        credited_singleton, if_neg (Ne.symm heq), Nat.add_zero]
  · intro a ha
    have hne : a ≠ e.subnetAddress :=
      (ha e (List.mem_append_right _ (List.mem_singleton_self e))).symm
    rw [Function.update_of_ne hne]
    exact h.absent a (fun x hx => ha x (List.mem_append_left _ hx))

theorem BalancesOf.addBalance {ε : Type} {entries : List GenesisBalanceEntry}
    {b : EthAddress → Option Amount} {e : GenesisBalanceEntry} (h : BalancesOf entries b)
    (hfits : credited (entries ++ [e]) e.subnetAddress < amountBound) :
    ∃ b', (Db.addBalance b e : Outcome ε _) = .ok b' ∧ BalancesOf (entries ++ [e]) b' := by
  have hsum : credited entries e.subnetAddress + e.amount < amountBound := by
    rwa [credited_append, credited_singleton, if_pos rfl] at hfits
  refine ⟨_, ?_, h.update e⟩
  unfold Db.addBalance
  by_cases hmem : ∃ x ∈ entries, x.subnetAddress = e.subnetAddress
  · rw [h.present _ hmem]
    exact bind_eq_ok.mpr ⟨_, addAmount_eq_ok.mpr ⟨hsum, rfl⟩, rfl⟩
  · have hnone : ∀ x ∈ entries, x.subnetAddress ≠ e.subnetAddress :=
      fun x hx heq => hmem ⟨x, hx, heq⟩
    have hzero : credited entries e.subnetAddress = 0 := by
      have hfilter : entries.filter (fun x => x.subnetAddress = e.subnetAddress) = [] :=
        List.filter_eq_nil_iff.mpr (fun x hx => by simpa using hnone x hx)
      rw [credited, hfilter]
      rfl
    rw [h.absent _ hnone, hzero, Nat.zero_add]
    rfl

/-- The balances are the sums of the entries, if these are amounts. -/
theorem balancesOf_foldlM {ε : Type} {entries : List GenesisBalanceEntry}
    (hfits : ∀ a, credited entries a < amountBound) :
    ∃ b, (entries.foldlM Db.addBalance (fun _ => none) : Outcome ε _) = .ok b ∧
      BalancesOf entries b := by
  induction entries using List.reverseRecOn with
  | nil => exact ⟨_, rfl, fun a h => by simp at h, fun a h => rfl⟩
  | append_singleton entries e ih =>
    have hbefore : ∀ a, credited entries a < amountBound := by
      intro a
      have hafter := hfits a
      rw [credited_append] at hafter
      exact lt_of_le_of_lt (Nat.le_add_right _ _) hafter
    obtain ⟨b, hb, hbalances⟩ := ih hbefore
    obtain ⟨b', hb', hbalances'⟩ := hbalances.addBalance (ε := ε) (hfits e.subnetAddress)
    refine ⟨b', ?_, hbalances'⟩
    rw [List.foldlM_append]
    exact bind_eq_ok.mpr ⟨b, hb, bind_eq_ok.mpr ⟨b', hb', rfl⟩⟩

end Db

namespace Monitor

open Faults Bytes Chain Messages Crates Multisig Db Grouping Commits

section Ledger

variable {X : Library} {db db' : HeedDb} {e : Event} {l : List (Event × HeedDb)}

/-- A creation starts the list of a subnet, and a prefund adds its entry. -/
def ledgerStep (X : Library) (id : SubnetId) (entries : List GenesisBalanceEntry) :
    Event → List GenesisBalanceEntry
  | .message _ tx (.createSubnet _) =>
    if .fromTxid (X.computeTxid tx) = id then [] else entries
  | .message ctx tx (.prefundSubnet m) =>
    if m.subnetId = id then
      entries ++ [⟨m.address, m.amount, X.computeTxid tx, ctx.blockHeight⟩]
    else entries
  | _ => entries

/-- The prefunds of a subnet that were accepted since its creation. -/
def prefunded (X : Library) (id : SubnetId) (l : List (Event × HeedDb)) :
    List GenesisBalanceEntry :=
  l.foldl (fun entries a => ledgerStep X id entries a.1) []

def entriesOf (X : Library) (db : HeedDb) (id : SubnetId) : List GenesisBalanceEntry :=
  ((db.getSubnetGenesisInfo X id).map (·.genesisBalanceEntries)).getD []

theorem entriesOf_eq {id : SubnetId} {g : SubnetGenesisInfo}
    (h : db.getSubnetGenesisInfo X id = some g) : entriesOf X db id = g.genesisBalanceEntries := by
  rw [entriesOf, h]
  rfl

theorem entriesOf_congr (h : db'.subnetGenesisDb = db.subnetGenesisDb) (id : SubnetId) :
    entriesOf X db' id = entriesOf X db id := by
  rw [entriesOf, HeedDb.getSubnetGenesisInfo, h]
  rfl

variable (laws : DisplayLaws X)
include laws

theorem entriesOf_save (db : HeedDb) (id u : SubnetId) (g : SubnetGenesisInfo) :
    entriesOf X (db.saveSubnetGenesisInfo X u g) id =
      if id = u then g.genesisBalanceEntries else entriesOf X db id := by
  rw [entriesOf, HeedDb.getSubnetGenesisInfo_save db laws]
  split_ifs <;> rfl

/-- A join leaves the entries as they are. -/
theorem entriesOf_joined {m : IpcJoinSubnetMsg} {n : Nat} {b : BlockHash} {i : Txid}
    {saved : HeedDb × Option SubnetState} (id : SubnetId)
    (hsave : m.saveToDb X db n b i = .ok saved) : entriesOf X saved.1 id = entriesOf X db id := by
  cases hst : db.getSubnetState X m.subnetId with
  | none =>
    obtain ⟨g, hg, -, -, hcase⟩ := IpcJoinSubnetMsg.saveToDb_pre hst hsave
    have hkept : ∀ g' : SubnetGenesisInfo, g'.genesisBalanceEntries = g.genesisBalanceEntries →
        (if id = m.subnetId then g'.genesisBalanceEntries else entriesOf X db id) =
          entriesOf X db id := by
      intro g' hsame
      split_ifs with hid
      · rw [hid, entriesOf_eq hg, hsame]
      · rfl
    rcases hcase with ⟨-, rfl⟩ | ⟨s, -, -, rfl⟩
    · exact (entriesOf_save laws db id m.subnetId _).trans (hkept _ rfl)
    · exact (entriesOf_save laws (db.saveSubnetState X m.subnetId s) id m.subnetId _).trans
        (hkept _ rfl)
  | some s =>
    obtain ⟨next, -, -, -, rfl⟩ := IpcJoinSubnetMsg.saveToDb_post hst hsave
    exact entriesOf_congr (subnetGenesisDb_recordStake db m.subnetId s next _) id

/-- One commit changes the entries as its event says. -/
theorem entriesOf_of_commit (h : Commit X db e db') (id : SubnetId) :
    entriesOf X db' id = ledgerStep X id (entriesOf X db id) e := by
  cases h with
  | @createSubnet ctx tx m hparsed hvalid =>
    refine (entriesOf_save laws db id _ _).trans ?_
    simp only [ledgerStep, eq_comm]
    rfl
  | joinSubnet _ _ hsave => exact entriesOf_joined laws id hsave
  | @prefundSubnet ctx tx m _ _ _ hsave =>
    obtain ⟨g, hg, -, rfl⟩ := IpcPrefundSubnetMsg.saveToDb_eq_ok hsave
    rw [entriesOf_save laws, ledgerStep]
    by_cases hid : id = m.subnetId
    · rw [if_pos hid, if_pos hid.symm, hid, entriesOf_eq hg]
      rfl
    · rw [if_neg hid, if_neg (Ne.symm hid)]
  | fundSubnet _ _ hsave =>
    obtain ⟨s, -, rfl⟩ := IpcFundSubnetMsg.saveToDb_eq_ok hsave
    rfl
  | checkpointSubnet _ _ hsave =>
    obtain ⟨s, change, hs, -, rfl⟩ := IpcCheckpointSubnetMsg.saveToDb_eq_ok hsave
    exact entriesOf_congr subnetGenesisDb_checkpointedDb id
  | batchTransfer _ _ hsave =>
    obtain ⟨_, _, _, heq⟩ := IpcBatchTransferMsg.sameButBatch_saveToDb hsave
    rw [heq]
    rfl
  | stakeCollateral _ _ hsave =>
    obtain ⟨s, v, next, hs, -, -, rfl⟩ := IpcStakeCollateralMsg.saveToDb_eq_ok hsave
    exact entriesOf_congr (subnetGenesisDb_recordStake db _ s next _) id
  | unstakeCollateral _ _ hsave =>
    obtain ⟨s, v, next, hs, -, -, -, -, rfl⟩ := IpcUnstakeCollateralMsg.saveToDb_eq_ok hsave
    exact entriesOf_congr (subnetGenesisDb_recordStake db _ s next _) id
  | killSubnet _ _ hsave =>
    obtain ⟨s, r, hs, rfl | ⟨marked, -, rfl⟩⟩ := IpcKillSubnetMsg.saveToDb_eq_ok hsave
    · rfl
    · rfl
  | transaction => rfl
  | rewards hsame =>
    obtain ⟨_, _, rfl⟩ := hsame
    rfl
  | block => rfl

theorem entriesOf_of_run (hrun : Trail (Commit X) HeedDb.empty l) (id : SubnetId) :
    entriesOf X (lastStore HeedDb.empty l) id = prefunded X id l := by
  induction l using List.reverseRecOn with
  | nil => rfl
  | append_singleton l a ih =>
    obtain ⟨hl, hstep⟩ := trail_snoc.mp hrun
    rw [lastStore_snoc, entriesOf_of_commit laws hstep id, ih hl, prefunded, prefunded,
      List.foldl_append]
    rfl

end Ledger

section Backed

variable {X : Library} {e : Event} {l : List (Event × HeedDb)} {id : SubnetId}
  {entry : GenesisBalanceEntry}

/-- An accepted prefund of the subnet with this entry: its transaction pays the amount, which is
positive, in its second output. -/
def PrefundedBy (X : Library) (id : SubnetId) (l : List (Event × HeedDb))
    (entry : GenesisBalanceEntry) : Prop :=
  ∃ ctx tx m out, (ctx, tx, .prefundSubnet m) ∈ messages l ∧ m.subnetId = id ∧
    entry = ⟨m.address, out.value, X.computeTxid tx, ctx.blockHeight⟩ ∧
    tx.output[1]? = some out ∧ out.value ≠ 0

/-- An entry is an old one, or the event is its prefund. -/
theorem mem_ledgerStep {entries : List GenesisBalanceEntry}
    (h : entry ∈ ledgerStep X id entries e) : entry ∈ entries ∨ ∃ ctx tx m,
      e = .message ctx tx (.prefundSubnet m) ∧ m.subnetId = id ∧
      entry = ⟨m.address, m.amount, X.computeTxid tx, ctx.blockHeight⟩ := by
  unfold ledgerStep at h
  split at h
  · split_ifs at h
    · cases h
    · exact Or.inl h
  · split_ifs at h with hid
    · rcases List.mem_append.mp h with h | h
      · exact Or.inl h
      · exact Or.inr ⟨_, _, _, rfl, hid, List.mem_singleton.mp h⟩
    · exact Or.inl h
  · exact Or.inl h

/-- The amount of a prefund is the value of the second output. -/
theorem amount_of_fromTx {tx : Transaction} {m : IpcPrefundSubnetMsg}
    (h : IpcPrefundSubnetMsg.fromTx tx = .ok m) :
    ∃ out, tx.output[1]? = some out ∧ m.amount = out.value := by
  obtain ⟨⟨subnetId, amount, address⟩, hfunding, h⟩ := bind_eq_ok.mp h
  cases h
  obtain ⟨_, -, hfunding⟩ := bind_eq_ok.mp hfunding
  obtain ⟨_, -, hfunding⟩ := bind_eq_ok.mp hfunding
  obtain ⟨_, -, hfunding⟩ := bind_eq_ok.mp hfunding
  obtain ⟨_, -, hfunding⟩ := bind_eq_ok.mp hfunding
  obtain ⟨_, -, hfunding⟩ := bind_eq_ok.mp hfunding
  obtain ⟨out, hout, hfunding⟩ := bind_eq_ok.mp hfunding
  cases hfunding
  exact ⟨out, index_eq_ok.mp hout, rfl⟩

theorem prefundedBy_of_mem {s : HeedDb} (hrun : Trail (Commit X) s l)
    (h : entry ∈ prefunded X id l) : PrefundedBy X id l entry := by
  induction l using List.reverseRecOn with
  | nil => cases h
  | append_singleton l a ih =>
    obtain ⟨e, t⟩ := a
    obtain ⟨hl, hstep⟩ := trail_snoc.mp hrun
    rw [prefunded, List.foldl_append] at h
    rcases mem_ledgerStep h with h | ⟨ctx, tx, m, rfl, hid, rfl⟩
    · obtain ⟨ctx, tx, m, out, hmem, hrest⟩ := ih hl h
      rw [PrefundedBy]
      refine ⟨ctx, tx, m, out, ?_, hrest⟩
      rw [messages_append]
      exact List.mem_append_left _ hmem
    · cases hstep with
      | prefundSubnet hparsed hvalid _ =>
        obtain ⟨out, hout, hamount⟩ := amount_of_fromTx hparsed
        refine ⟨ctx, tx, m, out, ?_, hid, by rw [hamount], hout, ?_⟩
        · rw [messages_append]
          exact List.mem_append_right _ (List.mem_singleton_self _)
        · exact hamount ▸ ensure_eq_ok.mp hvalid

/-- Along every run, the genesis info of a subnet lists exactly the prefunds that were accepted
since its creation, each of them paid by an output of its transaction. The balances of the genesis
are their sums, unless one of these is no amount. -/
theorem genesis_balances_exact (laws : DisplayLaws X) (hrun : Trail (Commit X) HeedDb.empty l)
    {g : SubnetGenesisInfo} (hg : (lastStore HeedDb.empty l).getSubnetGenesisInfo X id = some g) :
    g.genesisBalanceEntries = prefunded X id l ∧
    (∀ entry ∈ g.genesisBalanceEntries, PrefundedBy X id l entry) ∧
    ((∀ a, credited (prefunded X id l) a < amountBound) →
      ∃ b, (g.genesisBalance : Outcome IpcLibError _) = .ok b ∧
        BalancesOf (prefunded X id l) b) := by
  have hentries : g.genesisBalanceEntries = prefunded X id l := by
    rw [← entriesOf_eq hg]
    exact entriesOf_of_run laws hrun id
  refine ⟨hentries, fun entry hentry => ?_, fun hfits => ?_⟩
  · exact prefundedBy_of_mem hrun (hentries ▸ hentry)
  · unfold SubnetGenesisInfo.genesisBalance
    rw [hentries]
    exact balancesOf_foldlM hfits

open Solo

/-- A prefund of the user. -/
def prefundTx (prev : UInt8) (amount : Amount) : Transaction :=
  payingTx prev ipcPrefundSubnetTag (subnet.bytes ++ user.bytes) amount 10

/-- Two prefunds of one user are summed up. -/
theorem genesis_balances_of_user : ∃ l : List (Event × HeedDb), ∃ g b,
    Trail (Commit (library 10000 [])) HeedDb.empty l ∧
      (lastStore HeedDb.empty l).getSubnetGenesisInfo (library 10000 []) (.fromTxid20 subnet) =
        some g ∧
      g.genesisBalanceEntries = prefunded (library 10000 []) (.fromTxid20 subnet) l ∧
      (g.genesisBalance : Outcome IpcLibError _) = .ok b ∧ b user = some 6000 := by
  obtain ⟨l, hl, -, hlast⟩ := exists_trail (X := library 10000 []) ⟨none⟩ context
    [createTx, prefundTx 12 4000, prefundTx 13 2000] HeedDb.empty
  have hentries : ((lastStore HeedDb.empty l).getSubnetGenesisInfo (library 10000 [])
      (.fromTxid20 subnet)).map
        (fun g => g.genesisBalanceEntries.map (fun e => (e.subnetAddress, e.amount))) =
        some [(user, 4000), (user, 2000)] := by
    rw [hlast]
    decide +kernel
  obtain ⟨g, hg, hlisted⟩ := Option.map_eq_some_iff.mp hentries
  obtain ⟨hsame, -, hbalance⟩ := genesis_balances_exact (displayLaws_ideal _) hl hg
  have hcredited : ∀ a, credited g.genesisBalanceEntries a = if user = a then 6000 else 0 := by
    intro a
    obtain ⟨x, y, hxy⟩ : ∃ x y, g.genesisBalanceEntries = [x, y] :=
      List.length_eq_two.mp (by simpa using congrArg List.length hlisted)
    rw [hxy] at hlisted ⊢
    obtain ⟨⟨hx, hx'⟩, hy, hy'⟩ : (x.subnetAddress = user ∧ x.amount = 4000) ∧
        y.subnetAddress = user ∧ y.amount = 2000 := by simpa using hlisted
    by_cases ha : user = a
    · simp [credited, hx, hy, hx', hy', ha]
    · simp [credited, hx, hy, ha]
  obtain ⟨b, hb, hbalances⟩ := hbalance (fun a => by
    rw [← hsame, hcredited]
    split_ifs <;> decide)
  refine ⟨l, g, b, hl, hg, hsame, hb, ?_⟩
  rw [hbalances.present user, ← hsame, hcredited, if_pos rfl]
  · rw [← hsame]
    obtain ⟨x, hx, hxa⟩ := List.mem_map.mp (hlisted ▸ List.mem_cons_self :
      (user, 4000) ∈ g.genesisBalanceEntries.map (fun e => (e.subnetAddress, e.amount)))
    exact ⟨x, hx, congrArg Prod.fst hxa⟩

end Backed

end Monitor
