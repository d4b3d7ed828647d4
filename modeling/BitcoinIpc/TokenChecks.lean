import BitcoinIpc.TokenSupply

/-!
# The checks on token records

The checks run on balances in a map, before the database is touched. They follow
the balances of the source in the database while the records are applied, so that
records which pass the checks can be applied, and a list of transfers passes
whatever the order of its transfers is.
-/

namespace Messages.TokenLedger

open Faults Bytes Text Chain Crates Multisig Db OrderedTable Commits Monitor
open IpcBatchTransferMsg

/-- The running balances are the ones that the source has in the working database. -/
def Tracks (X : Library) (db : HeedDb) (source : SubnetId) (b : RunningBalances) (d : HeedDb) :
    Prop :=
  ∀ home token, runningBalance X db source home token b = d.getTokenBalance X home token source

section Tracks

variable {X : Library} {db d d' : HeedDb} {source : SubnetId} {b b' : RunningBalances}

theorem tracks_start (h : d.tokenBalancesDb = db.tokenBalancesDb) :
    Tracks X db source .empty d := by
  intro home token
  rw [HeedDb.getTokenBalance, h]
  rfl

theorem Tracks.congr (h : Tracks X db source b d)
    (hsame : d'.tokenBalancesDb = d.tokenBalancesDb) : Tracks X db source b d' := by
  intro home token
  rw [h home token, HeedDb.getTokenBalance, HeedDb.getTokenBalance, hsame]

variable (laws : DisplayLaws X)
include laws

theorem tokenKey_inj {home home' : SubnetId} {token token' : EthAddress}
    (h : tokenKey X home token = tokenKey X home' token') : home = home' ∧ token = token' := by
  obtain ⟨hhome, htoken⟩ := join_inj (subnetDisplay_no_colon laws home)
    (subnetDisplay_no_colon laws home') h
  exact ⟨subnetDisplay_injective laws hhome, laws.eth_injective htoken⟩

theorem runningBalance_put (home home' : SubnetId) (token token' : EthAddress) (v : U256) :
    runningBalance X db source home token (b.put (tokenKey X home' token') v) =
      if home = home' ∧ token = token' then v else runningBalance X db source home token b := by
  rw [runningBalance, Table.get_put]
  by_cases h : home = home' ∧ token = token'
  · rw [if_pos (by rw [h.1, h.2]), if_pos h]
    rfl
  · rw [if_neg (fun heq => h (tokenKey_inj laws heq)), if_neg h]
    rfl

/-- A balance that is set in both places. -/
theorem Tracks.put (h : Tracks X db source b d) (home : SubnetId) (token : EthAddress)
    (v : U256) :
    Tracks X db source (b.put (tokenKey X home token) v)
      (d.setTokenBalance X home token source v) := by
  intro home' token'
  rw [runningBalance_put laws, HeedDb.getTokenBalance_set d laws, h home' token']
  simp only [and_true]

theorem Tracks.registrations {o : Origin} (subnets : List SubnetState)
    {l : List IpcErcTokenRegistration} (h : Tracks X db source b d)
    (hcheck : l.foldlM (checkRegistration X db source) b = .ok b') :
    Tracks X db source b' (l.foldl (applyRegistration X o source subnets) d) := by
  induction l generalizing b d with
  | nil =>
    rw [List.foldlM_nil] at hcheck
    obtain rfl := Except.ok.inj hcheck
    exact h
  | cons r rest ih =>
    rw [List.foldlM_cons] at hcheck
    obtain ⟨b₁, hr, hcheck⟩ := bind_eq_ok.mp hcheck
    obtain ⟨_, -, hr⟩ := bind_eq_ok.mp hr
    obtain ⟨_, -, hr⟩ := bind_eq_ok.mp hr
    obtain rfl := Except.ok.inj hr
    exact ih ((h.put laws source r.homeTokenAddress r.initialSupply).congr
      (tokenBalances_applyRegistration subnets r)) hcheck

/-- A mint of nothing is passed over by the check and changes nothing. -/
theorem Tracks.mint (h : Tracks X db source b d) {a : IpcErcSupplyAdjustment}
    (hsign : ¬ a.delta.isNegative) :
    Tracks X db source (checkMint X db source b a) (applyMint X source d a) := by
  have hset := h.put laws source a.homeTokenAddress (U256.saturatingAdd
    (d.getTokenBalance X source a.homeTokenAddress source) a.delta.abs)
  by_cases hzero : a.delta.abs = 0
  · have hcheck : checkMint X db source b a = b := if_pos (Or.inr hzero)
    have hadd : U256.saturatingAdd (d.getTokenBalance X source a.homeTokenAddress source)
        a.delta.abs = d.getTokenBalance X source a.homeTokenAddress source := by
      rw [hzero, U256.saturatingAdd]
      exact dif_pos (d.getTokenBalance X source a.homeTokenAddress source).isLt
    rw [hcheck]
    intro home token
    rw [h home token, applyMint, HeedDb.getTokenBalance_set d laws, hadd]
    split_ifs with hkey
    · rw [hkey.1, hkey.2.1]
    · rfl
  · have hcheck : checkMint X db source b a = b.put (tokenKey X source a.homeTokenAddress)
        (U256.saturatingAdd (runningBalance X db source source a.homeTokenAddress b)
          a.delta.abs) := if_neg (fun hor => hor.elim hsign hzero)
    rw [hcheck, h source a.homeTokenAddress]
    exact hset

theorem Tracks.mints {l : List IpcErcSupplyAdjustment} (h : Tracks X db source b d) :
    Tracks X db source (l.foldl (checkMint X db source) b)
      ((l.filter (fun a => !a.delta.isNegative)).foldl (applyMint X source) d) := by
  induction l generalizing b d with
  | nil => exact h
  | cons a rest ih =>
    rw [List.foldl_cons, List.filter_cons]
    cases hsign : a.delta.isNegative with
    | true =>
      have hcheck : checkMint X db source b a = b := if_pos (Or.inl hsign)
      rw [hcheck]
      exact ih h
    | false =>
      exact ih (h.mint laws (by rw [hsign]; exact Bool.false_ne_true))

/-- Burns that pass the checks can be applied. -/
theorem Tracks.burns {l : List IpcErcSupplyAdjustment} (h : Tracks X db source b d)
    (hcheck : l.foldlM (checkBurn X db source) b = .ok b') :
    ∃ d', (l.filter (fun a => a.delta.isNegative)).foldlM (applyBurn X source) d = .ok d' ∧
      Tracks X db source b' d' := by
  induction l generalizing b d with
  | nil =>
    rw [List.foldlM_nil] at hcheck
    obtain rfl := Except.ok.inj hcheck
    exact ⟨d, rfl, h⟩
  | cons a rest ih =>
    rw [List.foldlM_cons] at hcheck
    obtain ⟨b₁, ha, hcheck⟩ := bind_eq_ok.mp hcheck
    rw [List.filter_cons]
    cases hsign : a.delta.isNegative with
    | true =>
      rw [checkBurn, if_pos hsign] at ha
      obtain ⟨left, hleft, ha⟩ := bind_eq_ok.mp ha
      obtain rfl := Except.ok.inj ha
      rw [okOr_eq_ok, h source a.homeTokenAddress] at hleft
      obtain ⟨d', hd', htracks⟩ := ih (h.put laws source a.homeTokenAddress left) hcheck
      refine ⟨d', ?_, htracks⟩
      have happly : applyBurn X source d a =
          .ok (d.setTokenBalance X source a.homeTokenAddress source left) := by
        rw [applyBurn, hleft]
        rfl
      rw [if_pos rfl, List.foldlM_cons, happly]
      exact hd'
    | false =>
      rw [checkBurn, if_neg (by rw [hsign]; exact Bool.false_ne_true)] at ha
      obtain rfl := Except.ok.inj ha
      exact ih h hcheck

end Tracks

section Transfers

variable {X : Library} {db d : HeedDb} {source : SubnetId} {b : RunningBalances}

theorem sent_cons (home : SubnetId) (token : EthAddress) (e : IpcCrossSubnetErcTransfer)
    (l : List IpcCrossSubnetErcTransfer) :
    sent home token (e :: l) = amountOf home token e + sent home token l := rfl

theorem sent_perm {l l' : List IpcCrossSubnetErcTransfer} (h : l.Perm l') (home : SubnetId)
    (token : EthAddress) : sent home token l = sent home token l' :=
  (h.map _).sum_eq

theorem received_perm {l l' : List IpcCrossSubnetErcTransfer} (h : l.Perm l') (home : SubnetId)
    (token : EthAddress) (holder : SubnetId) :
    received home token holder l = received home token holder l' :=
  sent_perm (h.filter _) home token

theorem checkedSub_eq_some {x y z : U256} :
    U256.checkedSub x y = some z ↔ y.val ≤ x.val ∧ z.val + y.val = x.val := by
  unfold U256.checkedSub
  split_ifs with h
  · rw [Option.some.injEq, Fin.ext_iff]
    constructor
    · intro heq
      have heq' : x.val - y.val = z.val := heq
      exact ⟨h, by omega⟩
    · rintro ⟨-, heq⟩
      change x.val - y.val = z.val
      omega
  · exact iff_of_false (fun hnone => by cases hnone) (fun hand => h hand.1)

theorem exists_checkedSub {x y : U256} (h : y.val ≤ x.val) :
    ∃ z, U256.checkedSub x y = some z := by
  rw [U256.checkedSub, if_pos h]
  exact ⟨_, rfl⟩

/-- A transfer passes when it is positive and covered, and takes its amount. -/
theorem checkTransfer_eq_ok {e : IpcCrossSubnetErcTransfer} {b' : RunningBalances} :
    checkTransfer X db source b e = .ok b' ↔ e.amount ≠ 0 ∧
      ∃ left, U256.checkedSub (runningBalance X db source e.homeSubnetId e.homeTokenAddress b)
        e.amount = some left ∧ b.put (tokenKey X e.homeSubnetId e.homeTokenAddress) left = b' := by
  simp only [checkTransfer, bind_eq_ok, ensure_eq_ok, okOr_eq_ok, pure_eq, Except.ok.injEq,
    exists_const]

variable (laws : DisplayLaws X)
include laws

/-- What covers the first transfer and then the others covers them all. -/
theorem sent_le_put {e : IpcCrossSubnetErcTransfer} {l : List IpcCrossSubnetErcTransfer}
    {left : U256} (hleft : left.val + e.amount.val =
      (runningBalance X db source e.homeSubnetId e.homeTokenAddress b).val) :
    (∀ home token, sent home token (e :: l) ≤ (runningBalance X db source home token b).val) ↔
      ∀ home token, sent home token l ≤ (runningBalance X db source home token
        (b.put (tokenKey X e.homeSubnetId e.homeTokenAddress) left)).val := by
  refine forall_congr' fun home => forall_congr' fun token => ?_
  rw [runningBalance_put laws, sent_cons]
  by_cases h : home = e.homeSubnetId ∧ token = e.homeTokenAddress
  · have hamount : amountOf home token e = e.amount.val := if_pos ⟨h.1.symm, h.2.symm⟩
    rw [if_pos h, hamount, h.1, h.2, ← hleft]
    omega
  · have hamount : amountOf home token e = 0 := if_neg (fun hand => h ⟨hand.1.symm, hand.2.symm⟩)
    rw [if_neg h, hamount, Nat.zero_add]

/-- Transfers pass exactly when they are positive and the source can pay their sum of
every token. -/
theorem checkTransfers_ok_iff {l : List IpcCrossSubnetErcTransfer} :
    (∃ b', l.foldlM (checkTransfer X db source) b = .ok b') ↔
      (∀ e ∈ l, e.amount ≠ 0) ∧
        ∀ home token, sent home token l ≤ (runningBalance X db source home token b).val := by
  induction l generalizing b with
  | nil => simp [sent, pure_eq]
  | cons e rest ih =>
    rw [List.forall_mem_cons]
    constructor
    · rintro ⟨b', h⟩
      rw [List.foldlM_cons] at h
      obtain ⟨b₁, he, h⟩ := bind_eq_ok.mp h
      obtain ⟨hpos, left, hleft, rfl⟩ := checkTransfer_eq_ok.mp he
      obtain ⟨hrest, hsent⟩ := ih.mp ⟨b', h⟩
      exact ⟨⟨hpos, hrest⟩, (sent_le_put laws (checkedSub_eq_some.mp hleft).2).mpr hsent⟩
    · rintro ⟨⟨hpos, hrest⟩, hsent⟩
      have hcover := hsent e.homeSubnetId e.homeTokenAddress
      have hamount : amountOf e.homeSubnetId e.homeTokenAddress e = e.amount.val :=
        if_pos ⟨rfl, rfl⟩
      rw [sent_cons, hamount] at hcover
      obtain ⟨left, hleft⟩ := exists_checkedSub (y := e.amount)
        (Nat.le_trans (Nat.le_add_right _ _) hcover)
      have hput := (sent_le_put laws (checkedSub_eq_some.mp hleft).2).mp hsent
      obtain ⟨b', hb'⟩ := ih.mpr ⟨hrest, hput⟩
      refine ⟨b', ?_⟩
      rw [List.foldlM_cons, checkTransfer_eq_ok.mpr ⟨hpos, left, hleft, rfl⟩]
      exact hb'

/-- Transfers that the source can pay are applied. -/
theorem exists_transferred {o : Origin} {l : List IpcCrossSubnetErcTransfer}
    (h : ∀ home token, sent home token l ≤ balance X d home token source) :
    ∃ d', l.foldlM (applyTransfer X o source) d = .ok d' := by
  induction l generalizing d with
  | nil => exact ⟨d, rfl⟩
  | cons e rest ih =>
    have hone : ∃ d₁, applyTransfer X o source d e = .ok d₁ := by
      unfold applyTransfer
      split_ifs with hzero
      · exact ⟨d, rfl⟩
      · have hcover := h e.homeSubnetId e.homeTokenAddress
        have hamount : amountOf e.homeSubnetId e.homeTokenAddress e = e.amount.val :=
          if_pos ⟨rfl, rfl⟩
        rw [sent_cons, hamount] at hcover
        obtain ⟨left, hleft⟩ := exists_checkedSub (y := e.amount)
          (x := d.getTokenBalance X e.homeSubnetId e.homeTokenAddress source)
          (Nat.le_trans (Nat.le_add_right _ _) hcover)
        rw [hleft]
        exact ⟨_, rfl⟩
    obtain ⟨d₁, hd₁⟩ := hone
    have hrest : ∀ home token, sent home token rest ≤ balance X d₁ home token source := by
      intro home token
      have hsource := (balance_applyTransfer laws hd₁ home token source).2 rfl
      have hcover := h home token
      rw [sent_cons] at hcover
      omega
    obtain ⟨d', hd'⟩ := ih hrest
    refine ⟨d', ?_⟩
    rw [List.foldlM_cons, hd₁]
    exact hd'

end Transfers

section Records

variable {X : Library} (laws : DisplayLaws X) {db d : HeedDb} {source : SubnetId}
  {registrations : List IpcErcTokenRegistration} {adjustments : List IpcErcSupplyAdjustment}
include laws

/-- The order of the transfers does not matter to the checks. -/
theorem validateErcBatchData_perm {l l' : List IpcCrossSubnetErcTransfer} (hperm : l.Perm l')
    (h : validateErcBatchData X source registrations adjustments l db = .ok ()) :
    validateErcBatchData X source registrations adjustments l' db = .ok () := by
  obtain ⟨b₁, hregister, h⟩ := bind_eq_ok.mp h
  obtain ⟨b₂, hburn, h⟩ := bind_eq_ok.mp h
  obtain ⟨b₃, htransfer, -⟩ := bind_eq_ok.mp h
  obtain ⟨hpos, hsent⟩ := (checkTransfers_ok_iff laws).mp ⟨b₃, htransfer⟩
  have hok : ∃ b', l'.foldlM (checkTransfer X db source) b₂ = .ok b' := by
    refine (checkTransfers_ok_iff laws).mpr ⟨?_, ?_⟩
    · intro e he
      exact hpos e (hperm.mem_iff.mpr he)
    · intro home token
      rw [← sent_perm hperm home token]
      exact hsent home token
  obtain ⟨b₃', htransfer'⟩ := hok
  exact bind_eq_ok.mpr ⟨b₁, hregister, bind_eq_ok.mpr ⟨b₂, hburn,
    bind_eq_ok.mpr ⟨b₃', htransfer', rfl⟩⟩⟩

/-- After the registrations, mints and burns of records that pass the checks, the source
can pay the transfers. -/
theorem exists_payable {o : Origin} {l : List IpcCrossSubnetErcTransfer}
    (subnets : List SubnetState) (hsame : d.tokenBalancesDb = db.tokenBalancesDb)
    (h : validateErcBatchData X source registrations adjustments l db = .ok ()) :
    ∃ d₁, (adjustments.filter (fun a => a.delta.isNegative)).foldlM (applyBurn X source)
        ((adjustments.filter (fun a => !a.delta.isNegative)).foldl (applyMint X source)
          (registrations.foldl (applyRegistration X o source subnets) d)) = .ok d₁ ∧
      (∀ e ∈ l, e.amount ≠ 0) ∧
      ∀ home token, sent home token l ≤ balance X d₁ home token source := by
  obtain ⟨b₁, hregister, h⟩ := bind_eq_ok.mp h
  obtain ⟨b₂, hburn, h⟩ := bind_eq_ok.mp h
  obtain ⟨b₃, htransfer, -⟩ := bind_eq_ok.mp h
  have hregistered : Tracks X db source b₁
      (registrations.foldl (applyRegistration X o source subnets) d) :=
    (tracks_start hsame).registrations laws subnets hregister
  obtain ⟨d₁, hd₁, htracks⟩ := (hregistered.mints laws).burns laws hburn
  obtain ⟨hpos, hsent⟩ := (checkTransfers_ok_iff laws).mp ⟨b₃, htransfer⟩
  refine ⟨d₁, hd₁, hpos, ?_⟩
  intro home token
  have hle := hsent home token
  rw [htracks home token] at hle
  exact hle

end Records

end Messages.TokenLedger
