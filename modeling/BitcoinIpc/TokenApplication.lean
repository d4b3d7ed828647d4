import BitcoinIpc.TokenChecks

/-!
# Checked records and applied records

The checks on the token records of a batch end with a balance of the source for
every token that they met. Records that pass are applied without an underflow,
and leave the source with these balances and with what the batch sends back to
it. Records that do not pass leave the database as it is.
-/

namespace Messages.TokenLedger

open Faults Bytes Chain Crates Multisig Db OrderedTable Commits Monitor
open IpcBatchTransferMsg

variable {X : Library}

/-- The running balances after all checks. -/
def finalBalances (X : Library) (m : IpcBatchTransferMsg) (db : HeedDb) :
    Outcome IpcValidateError RunningBalances := do
  let b ← m.tokenRegistrations.foldlM (checkRegistration X db m.subnetId) .empty
  let b := m.tokenSupplyAdjustments.foldl (checkMint X db m.subnetId) b
  let b ← m.tokenSupplyAdjustments.foldlM (checkBurn X db m.subnetId) b
  m.tokenTransfers.foldlM (checkTransfer X db m.subnetId) b

/-- The checks on the token records of a message. -/
def checkRecords (X : Library) (m : IpcBatchTransferMsg) (db : HeedDb) :
    Outcome IpcValidateError Unit :=
  validateErcBatchData X m.subnetId m.tokenRegistrations m.tokenSupplyAdjustments
    m.tokenTransfers db

theorem checkRecords_eq_ok {m : IpcBatchTransferMsg} {db : HeedDb} :
    checkRecords X m db = .ok () ↔ ∃ b, finalBalances X m db = .ok b := by
  simp only [checkRecords, validateErcBatchData, finalBalances, bind_eq_ok, pure_eq]
  constructor
  · rintro ⟨b₁, h₁, b₂, h₂, b₃, h₃, -⟩
    exact ⟨b₃, b₁, h₁, b₂, h₂, h₃⟩
  · rintro ⟨b₃, b₁, h₁, b₂, h₂, h₃⟩
    exact ⟨b₁, h₁, b₂, h₂, b₃, h₃, trivial⟩

section Applied

variable (laws : DisplayLaws X) {db d : HeedDb} {source : SubnetId} {b b' : RunningBalances}
include laws

/-- The checks of the transfers take what is sent from the running balances. -/
theorem runningBalance_transfers {l : List IpcCrossSubnetErcTransfer}
    (h : l.foldlM (checkTransfer X db source) b = .ok b') (home : SubnetId) (token : EthAddress) :
    (runningBalance X db source home token b').val + sent home token l =
      (runningBalance X db source home token b).val := by
  induction l generalizing b with
  | nil =>
    rw [List.foldlM_nil] at h
    obtain rfl := Except.ok.inj h
    rfl
  | cons e rest ih =>
    rw [List.foldlM_cons] at h
    obtain ⟨b₁, he, h⟩ := bind_eq_ok.mp h
    obtain ⟨-, left, hleft, rfl⟩ := checkTransfer_eq_ok.mp he
    obtain ⟨-, hval⟩ := checkedSub_eq_some.mp hleft
    have hrest := ih h
    rw [runningBalance_put laws] at hrest
    rw [sent_cons]
    by_cases hkey : home = e.homeSubnetId ∧ token = e.homeTokenAddress
    · obtain ⟨rfl, rfl⟩ := hkey
      have hamount : amountOf e.homeSubnetId e.homeTokenAddress e = e.amount.val :=
        if_pos ⟨rfl, rfl⟩
      rw [if_pos ⟨rfl, rfl⟩] at hrest
      omega
    · have hamount : amountOf home token e = 0 :=
        if_neg (fun hand => hkey ⟨hand.1.symm, hand.2.symm⟩)
      rw [if_neg hkey] at hrest
      omega

/-- Transfers that pass the checks are applied, and the source is left with what the checks
left and with what it sent to itself. -/
theorem Tracks.transfers {o : Origin} {l : List IpcCrossSubnetErcTransfer}
    (h : Tracks X db source b d) (hcheck : l.foldlM (checkTransfer X db source) b = .ok b') :
    ∃ d', l.foldlM (applyTransfer X o source) d = .ok d' ∧ ∀ home token,
      balance X d' home token source =
        (runningBalance X db source home token b').val + received home token source l := by
  have hpaid := runningBalance_transfers laws hcheck
  have hcover : ∀ home token, sent home token l ≤ balance X d home token source := by
    intro home token
    have hsum := hpaid home token
    rw [h home token] at hsum
    exact le_trans (Nat.le_add_left _ _) (le_of_eq hsum)
  obtain ⟨d', hd'⟩ := exists_transferred (o := o) laws hcover
  refine ⟨d', hd', fun home token => ?_⟩
  have hsource := (balance_foldlM_applyTransfer laws hd' home token source).2 rfl
  have hsum := hpaid home token
  rw [h home token] at hsum
  have hbefore : balance X d home token source =
      (d.getTokenBalance X home token source).val := rfl
  omega

/-- Records that pass the checks are applied to every working database with the ledger of the
committed one. -/
theorem applied_of_finalBalances {m : IpcBatchTransferMsg} {o : Origin}
    (hcheck : finalBalances X m db = .ok b) (hsame : d.tokenBalancesDb = db.tokenBalancesDb) :
    ∃ d', m.applyRecords X o db d = .ok d' ∧ ∀ home token,
      balance X d' home token m.subnetId = (runningBalance X db m.subnetId home token b).val +
        received home token m.subnetId m.tokenTransfers := by
  obtain ⟨b₁, hregister, hcheck⟩ := bind_eq_ok.mp hcheck
  obtain ⟨b₂, hburn, htransfer⟩ := bind_eq_ok.mp hcheck
  have hnative : (m.transfers.foldl (applyNative X o) d).tokenBalancesDb = db.tokenBalancesDb :=
    (tokenBalances_natives m.transfers).trans hsame
  have hstart : Tracks X db m.subnetId .empty (m.transfers.foldl (applyNative X o) d) :=
    tracks_start hnative
  have hregistered := hstart.registrations (o := o) laws db.getAllSubnets hregister
  obtain ⟨d₁, hd₁, htracks⟩ := (hregistered.mints laws).burns laws hburn
  obtain ⟨d', hd', hbalance⟩ := htracks.transfers (o := o) laws htransfer
  refine ⟨d', ?_, hbalance⟩
  rw [applyRecords]
  simp only [hd₁, ok_bind]
  exact hd'

end Applied

end Messages.TokenLedger
