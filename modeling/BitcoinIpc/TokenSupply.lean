import BitcoinIpc.TokenLedger
import BitcoinIpc.Lib.Accounts

/-!
# The supply of a token

The balances of one token over all its holders. A batch of the token's home adds
what it registers and mints and takes what it burns; the transfers of any batch
move the token between holders and keep the total, as long as the tokens ever
issued stay below the largest number a balance can hold.
-/

namespace Messages.TokenLedger

open Faults Bytes Chain Crates Multisig Db OrderedTable Commits Monitor Accounts
open IpcBatchTransferMsg

/-- The supply that a registration by a subnet issues of one token. -/
def registeredAmount (home : SubnetId) (token : EthAddress) (source : SubnetId)
    (r : IpcErcTokenRegistration) : Nat :=
  if source = home ∧ r.homeTokenAddress = token then r.initialSupply.val else 0

/-- The size of a subnet's mint or burn, for one token. -/
def adjustedAmount (home : SubnetId) (token : EthAddress) (source : SubnetId)
    (a : IpcErcSupplyAdjustment) : Nat :=
  if source = home ∧ a.homeTokenAddress = token then a.delta.abs.val else 0

def mints (m : IpcBatchTransferMsg) : List IpcErcSupplyAdjustment :=
  m.tokenSupplyAdjustments.filter (fun a => !a.delta.isNegative)

def burns (m : IpcBatchTransferMsg) : List IpcErcSupplyAdjustment :=
  m.tokenSupplyAdjustments.filter (fun a => a.delta.isNegative)

/-- What a batch issues of a token: nothing, unless it comes from the home. -/
def issued (home : SubnetId) (token : EthAddress) (m : IpcBatchTransferMsg) : Nat :=
  (m.tokenRegistrations.map (registeredAmount home token m.subnetId)).sum +
    ((mints m).map (adjustedAmount home token m.subnetId)).sum

def burned (home : SubnetId) (token : EthAddress) (m : IpcBatchTransferMsg) : Nat :=
  ((burns m).map (adjustedAmount home token m.subnetId)).sum

/-- No registration and no supply adjustment of the batch is about the token. -/
def KeepsSupply (home : SubnetId) (token : EthAddress) (m : IpcBatchTransferMsg) : Prop :=
  m.subnetId = home →
    (∀ r ∈ m.tokenRegistrations, r.homeTokenAddress ≠ token) ∧
      ∀ a ∈ m.tokenSupplyAdjustments, a.homeTokenAddress ≠ token

theorem KeepsSupply.amounts {home : SubnetId} {token : EthAddress} {m : IpcBatchTransferMsg}
    (h : KeepsSupply home token m) : issued home token m = 0 ∧ burned home token m = 0 := by
  have hadjusted : ∀ l, l ⊆ m.tokenSupplyAdjustments →
      (l.map (adjustedAmount home token m.subnetId)).sum = 0 := by
    intro l hl
    rw [List.sum_eq_zero_iff, List.forall_mem_map]
    intro a hmem
    exact if_neg (fun hand => (h hand.1).2 a (hl hmem) hand.2)
  have hregistered :
      (m.tokenRegistrations.map (registeredAmount home token m.subnetId)).sum = 0 := by
    rw [List.sum_eq_zero_iff, List.forall_mem_map]
    intro r hmem
    exact if_neg (fun hand => (h hand.1).1 r hmem hand.2)
  rw [issued, burned, hregistered, hadjusted (mints m) (List.filter_subset_self _),
    hadjusted (burns m) (List.filter_subset_self _)]
  exact ⟨rfl, rfl⟩

section Totals

variable (X : Library)

/-- The balances of a token, over all the subnets that may hold it. -/
noncomputable def totalHeld (home : SubnetId) (token : EthAddress) (db : HeedDb) : Nat :=
  ∑ᶠ holder, balance X db home token holder

variable {X} (laws : DisplayLaws X) {db db' : HeedDb} {o : Origin} {source : SubnetId}
  {home : SubnetId} {token : EthAddress}
include laws

/-- A table has finitely many keys, and the key of a holder is its own. -/
theorem finite_balance (db : HeedDb) (home : SubnetId) (token : EthAddress) :
    (balance X db home token).HasFiniteSupport := by
  have hinj : Function.Injective (tokenBalanceKey X home token) := fun a b hab =>
    (tokenBalanceKey_inj laws hab).2.2
  refine ((List.finite_toSet (db.tokenBalancesDb.entries.map Prod.fst)).preimage
    hinj.injOn).subset ?_
  intro holder hholder
  cases hget : db.tokenBalancesDb.get (tokenBalanceKey X home token holder) with
  | none =>
    have hzero : balance X db home token holder = 0 := by
      rw [balance, HeedDb.getTokenBalance, hget]
      rfl
    exact absurd hzero hholder
  | some b =>
    have hmem := (Table.get_eq_some_iff _).mp hget
    exact List.mem_map_of_mem (f := Prod.fst) hmem

theorem balance_le_totalHeld (db : HeedDb) (home : SubnetId) (token : EthAddress)
    (holder : SubnetId) : balance X db home token holder ≤ totalHeld X home token db :=
  single_le_finsum holder (finite_balance laws db home token) (fun _ => Nat.zero_le _)

/-- A balance that is set replaces the one before. -/
theorem totalHeld_set (db : HeedDb) (home : SubnetId) (token : EthAddress) (holder : SubnetId)
    (b : U256) :
    totalHeld X home token (db.setTokenBalance X home token holder b) +
        balance X db home token holder =
      totalHeld X home token db + b.val := by
  have hset : ∀ s, balance X (db.setTokenBalance X home token holder b) home token s =
      if s = holder then b.val else balance X db home token s := by
    intro s
    rw [balance_set laws]
    simp only [true_and]
  have hchange := finsum_change (i := holder)
    (g := balance X (db.setTokenBalance X home token holder b) home token)
    (finite_balance laws db home token) (fun s hs => by rw [hset, if_neg hs])
  rwa [hset holder, if_pos rfl] at hchange

theorem totalHeld_set_of_ne {home' : SubnetId} {token' : EthAddress}
    (hne : ¬ (home = home' ∧ token = token')) (db : HeedDb) (holder : SubnetId) (b : U256) :
    totalHeld X home token (db.setTokenBalance X home' token' holder b) =
      totalHeld X home token db := by
  apply finsum_congr
  intro s
  have hkey : ¬ (home = home' ∧ token = token' ∧ s = holder) := fun h => hne ⟨h.1, h.2.1⟩
  rw [balance_set laws, if_neg hkey]

omit laws in
theorem balance_congr (h : db'.tokenBalancesDb = db.tokenBalancesDb) (home : SubnetId)
    (token : EthAddress) : balance X db' home token = balance X db home token := by
  funext holder
  rw [balance, HeedDb.getTokenBalance, h]
  rfl

omit laws in
theorem totalHeld_congr (h : db'.tokenBalancesDb = db.tokenBalancesDb) (home : SubnetId)
    (token : EthAddress) : totalHeld X home token db' = totalHeld X home token db := by
  rw [totalHeld, balance_congr h]
  rfl

end Totals

section Passes

variable {X : Library} (laws : DisplayLaws X) {db db' : HeedDb} {o : Origin} {source : SubnetId}

/-- Tokens that are registered together are distinct, and the home holds nothing
of them. -/
theorem checkRegistration_fold {b b' : RunningBalances} {l : List IpcErcTokenRegistration}
    (h : l.foldlM (checkRegistration X db source) b = .ok b') :
    (l.map (·.homeTokenAddress)).Nodup ∧
    ∀ r ∈ l, b.get (tokenKey X source r.homeTokenAddress) = none ∧
      balance X db source r.homeTokenAddress source = 0 := by
  induction l generalizing b with
  | nil => simp
  | cons r rest ih =>
    rw [List.foldlM_cons] at h
    obtain ⟨b₁, hr, h⟩ := bind_eq_ok.mp h
    obtain ⟨_, hfresh, hr⟩ := bind_eq_ok.mp hr
    obtain ⟨_, hzero, hr⟩ := bind_eq_ok.mp hr
    rw [ensure_eq_ok] at hfresh hzero
    obtain rfl := Except.ok.inj hr
    obtain ⟨hnodup, hrest⟩ := ih h
    -- The key of the first token stands in the map when the rest is checked.
    have hne : ∀ q ∈ rest, tokenKey X source q.homeTokenAddress ≠
        tokenKey X source r.homeTokenAddress := by
      intro q hq heq
      have hnone := (hrest q hq).1
      rw [heq, Table.get_put_self] at hnone
      cases hnone
    constructor
    · rw [List.map_cons, List.nodup_cons]
      refine ⟨?_, hnodup⟩
      intro hmem
      obtain ⟨q, hq, heq⟩ := List.mem_map.mp hmem
      exact hne q hq (by rw [heq])
    · intro q hq
      rcases List.mem_cons.mp hq with rfl | hq
      · exact ⟨hfresh, Nat.eq_zero_of_not_pos hzero⟩
      · obtain ⟨hnone, hq0⟩ := hrest q hq
        rw [Table.get_put_of_ne _ _ (hne q hq)] at hnone
        exact ⟨hnone, hq0⟩

/-- Steps that leave the balances as they are. -/
theorem tokenBalances_foldl {α : Type} {f : HeedDb → α → HeedDb}
    (h : ∀ d a, (f d a).tokenBalancesDb = d.tokenBalancesDb) (l : List α) (d : HeedDb) :
    (l.foldl f d).tokenBalancesDb = d.tokenBalancesDb := by
  apply foldl_rel (R := fun d d' : HeedDb => d'.tokenBalancesDb = d.tokenBalancesDb)
  · exact fun _ => rfl
  · exact fun _ _ _ h₁ h₂ => h₂.trans h₁
  · exact h

/-- The messages of a registration leave the balances as they are. -/
theorem tokenBalances_applyRegistration (subnets : List SubnetState)
    (r : IpcErcTokenRegistration) :
    (applyRegistration X o source subnets db r).tokenBalancesDb =
      (db.setTokenBalance X source r.homeTokenAddress source r.initialSupply).tokenBalancesDb := by
  unfold applyRegistration
  refine tokenBalances_foldl ?_ _ _
  exact fun _ _ => rfl

theorem tokenBalances_natives (l : List IpcCrossSubnetTransfer) :
    (l.foldl (applyNative X o) db).tokenBalancesDb = db.tokenBalancesDb :=
  tokenBalances_foldl (f := applyNative X o) (fun _ _ => rfl) l db

include laws

theorem totalHeld_applyRegistration (subnets : List SubnetState) (r : IpcErcTokenRegistration)
    (hzero : balance X db source r.homeTokenAddress source = 0) (home : SubnetId)
    (token : EthAddress) :
    totalHeld X home token (applyRegistration X o source subnets db r) =
      totalHeld X home token db + registeredAmount home token source r := by
  rw [totalHeld_congr (tokenBalances_applyRegistration subnets r), registeredAmount]
  split_ifs with htoken
  · obtain ⟨rfl, rfl⟩ := htoken
    have hset := totalHeld_set laws db source r.homeTokenAddress source r.initialSupply
    omega
  · rw [totalHeld_set_of_ne laws (fun h => htoken ⟨h.1.symm, h.2.symm⟩), Nat.add_zero]

theorem balance_applyRegistration (subnets : List SubnetState) (r : IpcErcTokenRegistration)
    {token : EthAddress} (hne : token ≠ r.homeTokenAddress) :
    balance X (applyRegistration X o source subnets db r) source token source =
      balance X db source token source := by
  rw [balance_congr (tokenBalances_applyRegistration subnets r), balance_set laws,
    if_neg (fun h => hne h.2.1)]

/-- The registrations of a batch add their initial supplies. -/
theorem totalHeld_registrations (subnets : List SubnetState) {l : List IpcErcTokenRegistration}
    (hnodup : (l.map (·.homeTokenAddress)).Nodup)
    (hzero : ∀ r ∈ l, balance X db source r.homeTokenAddress source = 0) (home : SubnetId)
    (token : EthAddress) :
    totalHeld X home token (l.foldl (applyRegistration X o source subnets) db) =
      totalHeld X home token db + (l.map (registeredAmount home token source)).sum := by
  induction l generalizing db with
  | nil => rfl
  | cons r rest ih =>
    rw [List.map_cons, List.nodup_cons] at hnodup
    have hrest : ∀ q ∈ rest, balance X (applyRegistration X o source subnets db r) source
        q.homeTokenAddress source = 0 := by
      intro q hq
      have hne : q.homeTokenAddress ≠ r.homeTokenAddress := by
        intro heq
        exact hnodup.1 (List.mem_map.mpr ⟨q, hq, heq⟩)
      rw [balance_applyRegistration laws subnets r hne]
      exact hzero q (List.mem_cons_of_mem r hq)
    have hstep := totalHeld_applyRegistration laws (o := o) subnets r
      (hzero r List.mem_cons_self) home token
    rw [List.foldl_cons, ih hnodup.2 hrest, hstep, List.map_cons, List.sum_cons, Nat.add_assoc]

/-- A mint adds its amount, as long as the total stays in bounds. -/
theorem totalHeld_applyMint {home : SubnetId} {token : EthAddress} {a : IpcErcSupplyAdjustment}
    (hbound : totalHeld X home token db + adjustedAmount home token source a < u256Bound) :
    totalHeld X home token (applyMint X source db a) =
      totalHeld X home token db + adjustedAmount home token source a := by
  rw [applyMint]
  by_cases htoken : source = home ∧ a.homeTokenAddress = token
  · have hamount : adjustedAmount home token source a = a.delta.abs.val := if_pos htoken
    obtain ⟨rfl, rfl⟩ := htoken
    have hle := balance_le_totalHeld laws db source a.homeTokenAddress source
    have hset := totalHeld_set laws db source a.homeTokenAddress source
      (U256.saturatingAdd (db.getTokenBalance X source a.homeTokenAddress source) a.delta.abs)
    have hval : (U256.saturatingAdd (db.getTokenBalance X source a.homeTokenAddress source)
        a.delta.abs).val = balance X db source a.homeTokenAddress source + a.delta.abs.val := by
      have hfits : (db.getTokenBalance X source a.homeTokenAddress source).val +
          a.delta.abs.val < u256Bound := by
        rw [hamount] at hbound
        exact lt_of_le_of_lt (Nat.add_le_add_right hle _) hbound
      rw [U256.saturatingAdd, dif_pos hfits]
      rfl
    omega
  · have hamount : adjustedAmount home token source a = 0 := if_neg htoken
    rw [hamount, totalHeld_set_of_ne laws (fun h => htoken ⟨h.1.symm, h.2.symm⟩), Nat.add_zero]

theorem totalHeld_mints {home : SubnetId} {token : EthAddress} {l : List IpcErcSupplyAdjustment}
    (hbound : totalHeld X home token db + (l.map (adjustedAmount home token source)).sum < u256Bound) :
    totalHeld X home token (l.foldl (applyMint X source) db) =
      totalHeld X home token db + (l.map (adjustedAmount home token source)).sum :=
  foldl_adds (fun _ _ => totalHeld_applyMint laws) hbound

/-- A burn takes its amount. -/
theorem totalHeld_applyBurn {a : IpcErcSupplyAdjustment}
    (h : applyBurn X source db a = .ok db') (home : SubnetId) (token : EthAddress) :
    totalHeld X home token db' + adjustedAmount home token source a = totalHeld X home token db := by
  obtain ⟨left, hleft, h⟩ := bind_eq_ok.mp h
  rw [okOr_eq_ok, U256.checkedSub] at hleft
  split_ifs at hleft with hle
  obtain rfl := Except.ok.inj h
  have hval : left.val = balance X db source a.homeTokenAddress source - a.delta.abs.val := by
    cases hleft
    rfl
  by_cases htoken : source = home ∧ a.homeTokenAddress = token
  · have hamount : adjustedAmount home token source a = a.delta.abs.val := if_pos htoken
    obtain ⟨rfl, rfl⟩ := htoken
    have hset := totalHeld_set laws db source a.homeTokenAddress source left
    have hcover : a.delta.abs.val ≤ balance X db source a.homeTokenAddress source := hle
    omega
  · have hamount : adjustedAmount home token source a = 0 := if_neg htoken
    rw [hamount, totalHeld_set_of_ne laws (fun h => htoken ⟨h.1.symm, h.2.symm⟩), Nat.add_zero]

theorem totalHeld_burns {l : List IpcErcSupplyAdjustment}
    (h : l.foldlM (applyBurn X source) db = .ok db') (home : SubnetId) (token : EthAddress) :
    totalHeld X home token db' + (l.map (adjustedAmount home token source)).sum =
      totalHeld X home token db := by
  induction l generalizing db with
  | nil =>
    rw [List.foldlM_nil] at h
    obtain rfl := Except.ok.inj h
    rfl
  | cons a rest ih =>
    rw [List.foldlM_cons] at h
    obtain ⟨d, hd, h⟩ := bind_eq_ok.mp h
    have hstep := totalHeld_applyBurn laws hd home token
    have hrest := ih h
    rw [List.map_cons, List.sum_cons]
    omega

/-- A transfer keeps the total, whether or not its destination is its source. -/
theorem totalHeld_applyTransfer {e : IpcCrossSubnetErcTransfer} {home : SubnetId}
    {token : EthAddress} (h : applyTransfer X o source db e = .ok db')
    (hbound : totalHeld X home token db < u256Bound) :
    totalHeld X home token db' = totalHeld X home token db := by
  by_cases hzero : e.amount = 0
  · simp only [applyTransfer, hzero, if_true, pure_eq, Except.ok.injEq] at h
    rw [h]
  simp only [applyTransfer, hzero, if_false] at h
  obtain ⟨left, hleft, h⟩ := bind_eq_ok.mp h
  rw [okOr_eq_ok, U256.checkedSub] at hleft
  split_ifs at hleft with hle
  have hcover : e.amount.val ≤ balance X db e.homeSubnetId e.homeTokenAddress source := hle
  have hval : left.val = balance X db e.homeSubnetId e.homeTokenAddress source - e.amount.val := by
    cases hleft
    rfl
  obtain rfl := Except.ok.inj h
  by_cases htoken : home = e.homeSubnetId ∧ token = e.homeTokenAddress
  · obtain ⟨rfl, rfl⟩ := htoken
    have hdebit := totalHeld_set laws db e.homeSubnetId e.homeTokenAddress source left
    set d := db.setTokenBalance X e.homeSubnetId e.homeTokenAddress source left with hd
    have hle' := balance_le_totalHeld laws d e.homeSubnetId e.homeTokenAddress
      e.destinationSubnetId
    have hcredit := totalHeld_set laws d e.homeSubnetId e.homeTokenAddress e.destinationSubnetId
      ((U256.checkedAdd (d.getTokenBalance X e.homeSubnetId e.homeTokenAddress
        e.destinationSubnetId) e.amount).getD U256.max)
    rw [val_credited] at hcredit
    have hmax : U256.max.val = u256Bound - 1 := rfl
    change totalHeld X e.homeSubnetId e.homeTokenAddress (d.setTokenBalance X _ _ _ _) = _
    have hbal : (d.getTokenBalance X e.homeSubnetId e.homeTokenAddress
      e.destinationSubnetId).val = balance X d e.homeSubnetId e.homeTokenAddress
      e.destinationSubnetId := rfl
    omega
  · change totalHeld X home token (HeedDb.setTokenBalance X (HeedDb.setTokenBalance X db _ _ _ _)
      _ _ _ _) = _
    rw [totalHeld_set_of_ne laws htoken, totalHeld_set_of_ne laws htoken]

theorem totalHeld_transfers {home : SubnetId} {token : EthAddress}
    {l : List IpcCrossSubnetErcTransfer} (h : l.foldlM (applyTransfer X o source) db = .ok db')
    (hbound : totalHeld X home token db < u256Bound) :
    totalHeld X home token db' = totalHeld X home token db := by
  refine foldlM_rel (R := fun d d' => totalHeld X home token d < u256Bound →
    totalHeld X home token d' = totalHeld X home token d) ?_ ?_ ?_ h hbound
  · exact fun _ _ => rfl
  · intro d₁ d₂ d₃ h₁ h₂ hlt
    have heq := h₁ hlt
    exact (h₂ (heq ▸ hlt)).trans heq
  · exact fun d e d' hd => totalHeld_applyTransfer laws hd

end Passes

section Batches

variable {X : Library} (laws : DisplayLaws X) {db : HeedDb} {o : Origin}
  {m : IpcBatchTransferMsg} {saved : HeedDb × SubnetCheckpoint}

/-- What an accepted batch has passed, and the passes that made its database. -/
theorem saveToDb_passes (h : m.saveToDb X db o = .ok saved) :
    (m.tokenRegistrations.map (·.homeTokenAddress)).Nodup ∧
    (∀ r ∈ m.tokenRegistrations, balance X db m.subnetId r.homeTokenAddress m.subnetId = 0) ∧
    ∃ d d', d.tokenBalancesDb = db.tokenBalancesDb ∧
      (burns m).foldlM (applyBurn X m.subnetId) ((mints m).foldl (applyMint X m.subnetId)
        (m.tokenRegistrations.foldl
          (applyRegistration X o m.subnetId db.getAllSubnets) d)) = .ok d' ∧
      m.tokenTransfers.foldlM (applyTransfer X o m.subnetId) d' = .ok saved.1 := by
  obtain ⟨s, -, h⟩ := bind_eq_ok.mp h
  obtain ⟨n, -, h⟩ := bind_eq_ok.mp h
  obtain ⟨c, -, h⟩ := bind_eq_ok.mp h
  obtain ⟨_, hvalid, h⟩ := bind_eq_ok.mp h
  obtain ⟨db', happly, h⟩ := bind_eq_ok.mp h
  obtain rfl := Except.ok.inj h
  obtain ⟨b, hregistrations, -⟩ := bind_eq_ok.mp (mapErr_eq_ok.mp hvalid)
  obtain ⟨hnodup, hzero⟩ := checkRegistration_fold hregistrations
  refine ⟨hnodup, fun r hr => (hzero r hr).2, ?_⟩
  obtain ⟨d', hburn, htransfer⟩ := bind_eq_ok.mp happly
  refine ⟨_, d', ?_, hburn, htransfer⟩
  exact tokenBalances_natives m.transfers

include laws

/-- One batch: the total changes by what is issued and burned. -/
theorem totalHeld_saveToDb (h : m.saveToDb X db o = .ok saved) {home : SubnetId}
    {token : EthAddress} (hbound : totalHeld X home token db + issued home token m < u256Bound) :
    totalHeld X home token saved.1 + burned home token m =
      totalHeld X home token db + issued home token m := by
  obtain ⟨hnodup, hzero, d, d', hd, hburns, htransfers⟩ := saveToDb_passes h
  have hstart : totalHeld X home token d = totalHeld X home token db := totalHeld_congr hd home token
  have hzero' : ∀ r ∈ m.tokenRegistrations,
      balance X d m.subnetId r.homeTokenAddress m.subnetId = 0 := by
    intro r hr
    rw [balance_congr hd]
    exact hzero r hr
  have hregister := totalHeld_registrations laws (o := o) db.getAllSubnets hnodup hzero' home token
  have hissued : issued home token m =
      (m.tokenRegistrations.map (registeredAmount home token m.subnetId)).sum +
        ((mints m).map (adjustedAmount home token m.subnetId)).sum := rfl
  have hmintable : totalHeld X home token (m.tokenRegistrations.foldl
      (applyRegistration X o m.subnetId db.getAllSubnets) d) +
        ((mints m).map (adjustedAmount home token m.subnetId)).sum < u256Bound := by
    omega
  have hmint := totalHeld_mints laws hmintable
  have hburn : totalHeld X home token d' + burned home token m = _ :=
    totalHeld_burns laws hburns home token
  have hmovable : totalHeld X home token d' < u256Bound := by
    omega
  have htransfer := totalHeld_transfers laws htransfers hmovable
  omega

end Batches

def totalIssued (home : SubnetId) (token : EthAddress)
    (l : List (Option IpcBatchTransferMsg × HeedDb)) : Nat :=
  ((accepted l).map (issued home token)).sum

def totalBurned (home : SubnetId) (token : EthAddress)
    (l : List (Option IpcBatchTransferMsg × HeedDb)) : Nat :=
  ((accepted l).map (burned home token)).sum

section Runs

theorem totalIssued_append (home : SubnetId) (token : EthAddress)
    (l l' : List (Option IpcBatchTransferMsg × HeedDb)) :
    totalIssued home token (l ++ l') = totalIssued home token l + totalIssued home token l' := by
  simp [totalIssued, accepted]

theorem totalBurned_append (home : SubnetId) (token : EthAddress)
    (l l' : List (Option IpcBatchTransferMsg × HeedDb)) :
    totalBurned home token (l ++ l') = totalBurned home token l + totalBurned home token l' := by
  simp [totalBurned, accepted]

variable {X : Library} (laws : DisplayLaws X) {home : SubnetId} {token : EthAddress}
include laws

theorem totalHeld_step {db db' : HeedDb} {e : Option IpcBatchTransferMsg}
    (h : LedgerStep X db e db')
    (hbound : totalHeld X home token db + totalIssued home token [(e, db')] < u256Bound) :
    totalHeld X home token db' + totalBurned home token [(e, db')] =
      totalHeld X home token db + totalIssued home token [(e, db')] := by
  cases h with
  | @batch m o saved hsave =>
    have hissued : totalIssued home token [(some m, saved.1)] = issued home token m :=
      Nat.add_zero _
    have hburned : totalBurned home token [(some m, saved.1)] = burned home token m :=
      Nat.add_zero _
    rw [hissued] at hbound ⊢
    rw [hburned]
    exact totalHeld_saveToDb laws hsave hbound
  | other h => exact totalHeld_congr h home token

/-- The total after a run, when nothing it issues goes out of bounds. -/
theorem totalHeld_run {db : HeedDb} {l : List (Option IpcBatchTransferMsg × HeedDb)}
    (h : Trail (LedgerStep X) db l)
    (hbound : totalHeld X home token db + totalIssued home token l < u256Bound) :
    totalHeld X home token (lastStore db l) + totalBurned home token l =
      totalHeld X home token db + totalIssued home token l := by
  induction l generalizing db with
  | nil => rfl
  | cons a rest ih =>
    obtain ⟨e, db'⟩ := a
    have hissued := totalIssued_append home token [(e, db')] rest
    have hburned := totalBurned_append home token [(e, db')] rest
    rw [List.singleton_append] at hissued hburned
    have hfirst : totalHeld X home token db + totalIssued home token [(e, db')] < u256Bound := by
      omega
    have hstep := totalHeld_step laws h.1 hfirst
    have hrest := ih h.2 (by omega)
    rw [lastStore_cons, hissued, hburned]
    omega

/-- Conservation. From an empty ledger, and while the tokens ever issued stay in
bounds, the holders have together what was issued less what was burned after
every step; a batch that neither registers the token nor adjusts its supply
keeps the total. -/
theorem erc_conservation {db : HeedDb} (hempty : db.tokenBalancesDb = .empty)
    {l : List (Option IpcBatchTransferMsg × HeedDb)} (h : Trail (LedgerStep X) db l)
    (hbound : totalIssued home token l < u256Bound) :
    (∀ l', l' <+: l → totalHeld X home token (lastStore db l') + totalBurned home token l' =
      totalIssued home token l') ∧
    AllSteps (fun before e after => ∀ m, e = some m → KeepsSupply home token m →
      totalHeld X home token after = totalHeld X home token before) db l := by
  have hstart : totalHeld X home token db = 0 := by
    have hzero : ∀ holder, balance X db home token holder = 0 := by
      intro holder
      simp [balance, HeedDb.getTokenBalance, hempty]
    simp only [totalHeld, hzero, finsum_zero]
  have htotal : ∀ l', l' <+: l →
      totalHeld X home token (lastStore db l') + totalBurned home token l' =
        totalIssued home token l' := by
    rintro l' ⟨rest, rfl⟩
    rw [totalIssued_append] at hbound
    have hbound' : totalHeld X home token db + totalIssued home token l' < u256Bound := by
      omega
    have hrun := totalHeld_run laws (trail_append.mp h).1 hbound'
    omega
  refine ⟨htotal, allSteps_iff_splits.mpr ?_⟩
  rintro l₁ e t l₂ rfl m rfl hkeeps
  obtain ⟨hissued, hburned⟩ := hkeeps.amounts
  have hbefore := htotal l₁ (List.prefix_append _ _)
  have hafter := htotal (l₁ ++ [(some m, t)]) ⟨l₂, by simp⟩
  have hissued' : totalIssued home token [(some m, t)] = issued home token m := Nat.add_zero _
  have hburned' : totalBurned home token [(some m, t)] = burned home token m := Nat.add_zero _
  rw [lastStore_snoc, totalIssued_append, totalBurned_append] at hafter
  omega

end Runs

/-- The home issues 100, of which 60 go to a guest and 25 come back. -/
theorem erc_conservation_of_returned_tokens :
    ∃ l, Trail (LedgerStep Solo.transferLibrary) (twoSubnets Solo.transferLibrary) l ∧
      accepted l = [registering, returning] ∧ totalIssued tokenHome Solo.user l = 100 ∧
      (∀ l', l' <+: l → totalHeld Solo.transferLibrary tokenHome Solo.user
        (lastStore (twoSubnets Solo.transferLibrary) l') + totalBurned tokenHome Solo.user l' =
          totalIssued tokenHome Solo.user l') := by
  obtain ⟨l, htrail, haccepted⟩ := exists_returned_tokens
  have hissued : totalIssued tokenHome Solo.user l = 100 := by
    rw [totalIssued, haccepted]
    decide +kernel
  have hempty : (twoSubnets Solo.transferLibrary).tokenBalancesDb = .empty := rfl
  have hbound : totalIssued tokenHome Solo.user l < u256Bound := by
    rw [hissued]
    decide
  exact ⟨l, htrail, haccepted, hissued,
    (erc_conservation (displayLaws_ideal _) hempty htrail hbound).1⟩

end Messages.TokenLedger
