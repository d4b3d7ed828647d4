import BitcoinIpc.IdealCrates
import BitcoinIpc.Effects

/-!
# The token ledger

What accepted batch transfers do to the token balances. A balance whose home and
holder are not both the source changes by the token transfers of the batch
alone: the source pays what it sends, and a destination gets what it is sent, up
to the largest number a balance can hold. Over a run that starts with an empty
ledger, a subnet sends at most what it was sent of a token with another home.
-/

namespace Messages.TokenLedger

open Faults Bytes Chain Crates Multisig Db OrderedTable Commits Monitor
open IpcBatchTransferMsg

variable (X : Library)

def balance (db : HeedDb) (home : SubnetId) (token : EthAddress) (holder : SubnetId) : Nat :=
  (db.getTokenBalance X home token holder).val

/-- The amount that a transfer moves of one token. -/
def amountOf (home : SubnetId) (token : EthAddress) (e : IpcCrossSubnetErcTransfer) : Nat :=
  if e.homeSubnetId = home ∧ e.homeTokenAddress = token then e.amount.val else 0

def sent (home : SubnetId) (token : EthAddress) (l : List IpcCrossSubnetErcTransfer) : Nat :=
  (l.map (amountOf home token)).sum

/-- What the transfers with the holder as their destination move. -/
def received (home : SubnetId) (token : EthAddress) (holder : SubnetId)
    (l : List IpcCrossSubnetErcTransfer) : Nat :=
  sent home token (l.filter (fun e => e.destinationSubnetId = holder))

/-- What a batch moves out of a subnet: nothing, unless the subnet is its source. -/
def movedOut (home : SubnetId) (token : EthAddress) (s : SubnetId) (m : IpcBatchTransferMsg) :
    Nat :=
  if m.subnetId = s then sent home token m.tokenTransfers else 0

def movedInto (home : SubnetId) (token : EthAddress) (s : SubnetId) (m : IpcBatchTransferMsg) :
    Nat :=
  received home token s m.tokenTransfers

@[simp] theorem received_nil (home : SubnetId) (token : EthAddress) (holder : SubnetId) :
    received home token holder [] = 0 := rfl

theorem received_cons (home : SubnetId) (token : EthAddress) (holder : SubnetId)
    (e : IpcCrossSubnetErcTransfer) (l : List IpcCrossSubnetErcTransfer) :
    received home token holder (e :: l) =
      (if e.destinationSubnetId = holder then amountOf home token e else 0) +
        received home token holder l := by
  by_cases h : e.destinationSubnetId = holder <;> simp [received, sent, h]

section Records

variable {X} (laws : DisplayLaws X) {db db' : HeedDb} {o : Origin} {source : SubnetId}
  {home : SubnetId} {token : EthAddress} {holder : SubnetId}

@[simp] theorem balance_enqueue (s : SubnetId) (msg : Nat → RootnetMessage) :
    balance X (enqueue X db s msg) home token holder = balance X db home token holder := rfl

/-- The two databases agree on one balance. -/
abbrev SameBalance (X : Library) (home : SubnetId) (token : EthAddress) (holder : SubnetId)
    (db db' : HeedDb) : Prop :=
  balance X db' home token holder = balance X db home token holder

theorem sameBalance_foldl {α : Type} {f : HeedDb → α → HeedDb}
    (hf : ∀ db a, SameBalance X home token holder db (f db a)) (l : List α) (db : HeedDb) :
    SameBalance X home token holder db (l.foldl f db) :=
  foldl_rel (R := SameBalance X home token holder) (fun _ => rfl)
    (fun _ _ _ h₁ h₂ => h₂.trans h₁) hf l db

include laws

theorem balance_set (home' : SubnetId) (token' : EthAddress) (holder' : SubnetId) (b : U256) :
    balance X (db.setTokenBalance X home' token' holder' b) home token holder =
      if home = home' ∧ token = token' ∧ holder = holder' then b.val
      else balance X db home token holder := by
  rw [balance, HeedDb.getTokenBalance_set db laws]
  split <;> rfl

/-- A write of the source's own balance shows on no token with another home and
on no other holder. -/
theorem balance_set_own (hown : ¬ (home = source ∧ holder = source)) (token' : EthAddress)
    (b : U256) : SameBalance X home token holder db
      (db.setTokenBalance X source token' source b) := by
  have hne : ¬ (home = source ∧ token = token' ∧ holder = source) := by
    rintro ⟨hhome, -, hholder⟩
    exact hown ⟨hhome, hholder⟩
  rw [SameBalance, balance_set laws, if_neg hne]

/-- Registrations, mints and burns write the source's own balances alone. -/
theorem balance_before_transfers {m : IpcBatchTransferMsg} {committed : HeedDb}
    (h : m.applyRecords X o committed db = .ok db') (token : EthAddress)
    (hown : ¬ (home = m.subnetId ∧ holder = m.subnetId)) :
    ∃ d, SameBalance X home token holder db d ∧
      m.tokenTransfers.foldlM (applyTransfer X o m.subnetId) d = .ok db' := by
  obtain ⟨d, hburn, htransfer⟩ := bind_eq_ok.mp h
  refine ⟨d, ?_, htransfer⟩
  have hregister : ∀ d r, SameBalance X home token holder d
      (applyRegistration X o m.subnetId committed.getAllSubnets d r) := by
    intro d r
    refine Eq.trans ?_ (balance_set_own laws hown r.homeTokenAddress r.initialSupply)
    apply sameBalance_foldl
    intro d s
    rfl
  have hburned : ∀ d a d', applyBurn X m.subnetId d a = .ok d' →
      SameBalance X home token holder d d' := by
    intro d a d' hd
    obtain ⟨left, -, hd⟩ := bind_eq_ok.mp hd
    cases hd
    exact balance_set_own laws hown _ _
  calc balance X d home token holder
      = balance X _ home token holder :=
        foldlM_rel (R := SameBalance X home token holder) (fun _ => rfl)
          (fun _ _ _ h₁ h₂ => h₂.trans h₁) hburned hburn
    _ = balance X _ home token holder :=
        sameBalance_foldl (f := applyMint X m.subnetId)
          (fun _ _ => balance_set_own laws hown _ _) _ _
    _ = balance X _ home token holder := sameBalance_foldl hregister _ _
    _ = balance X db home token holder :=
        sameBalance_foldl (f := applyNative X o) (fun _ _ => rfl) _ _

omit laws in
theorem val_credited (b a : U256) :
    ((U256.checkedAdd b a).getD U256.max).val = min (b.val + a.val) U256.max.val := by
  have hmax : U256.max.val = u256Bound - 1 := rfl
  have hb := b.isLt
  unfold U256.checkedAdd
  split_ifs with h
  · change b.val + a.val = _
    omega
  · change U256.max.val = _
    omega

omit laws in
theorem balance_le_max (X : Library) (db : HeedDb) (home : SubnetId) (token : EthAddress)
    (holder : SubnetId) : balance X db home token holder ≤ U256.max.val :=
  Nat.le_sub_one_of_lt (db.getTokenBalance X home token holder).isLt

variable (X) in
omit laws in
/-- The balance of the transferred token on a subnet after the debit of the source. -/
def debited (db : HeedDb) (source : SubnetId) (e : IpcCrossSubnetErcTransfer) (s : SubnetId) :
    Nat :=
  if s = source then balance X db e.homeSubnetId e.homeTokenAddress source - e.amount.val
  else balance X db e.homeSubnetId e.homeTokenAddress s

/-- What a transfer of a positive amount leaves of its token. -/
theorem balance_transferred {e : IpcCrossSubnetErcTransfer} (hpos : e.amount ≠ 0)
    (h : applyTransfer X o source db e = .ok db') (home : SubnetId) (token : EthAddress)
    (holder : SubnetId) :
    e.amount.val ≤ balance X db e.homeSubnetId e.homeTokenAddress source ∧
    balance X db' home token holder =
      if e.homeSubnetId = home ∧ e.homeTokenAddress = token then
        if e.destinationSubnetId = holder then
          min (debited X db source e holder + e.amount.val) U256.max.val
        else debited X db source e holder
      else balance X db home token holder := by
  simp only [applyTransfer, hpos, if_false] at h
  obtain ⟨left, hleft, h⟩ := bind_eq_ok.mp h
  rw [okOr_eq_ok, U256.checkedSub] at hleft
  split_ifs at hleft with hle
  refine ⟨hle, ?_⟩
  have hval : left.val = balance X db e.homeSubnetId e.homeTokenAddress source - e.amount.val := by
    cases hleft
    rfl
  have hset : ∀ s, balance X (db.setTokenBalance X e.homeSubnetId e.homeTokenAddress source left)
      e.homeSubnetId e.homeTokenAddress s = debited X db source e s := by
    intro s
    rw [balance_set laws, debited, hval]
    simp only [true_and]
  cases h
  rw [balance_enqueue, balance_set laws, val_credited]
  change (if home = e.homeSubnetId ∧ token = e.homeTokenAddress ∧ holder = e.destinationSubnetId
    then min (balance X (db.setTokenBalance X e.homeSubnetId e.homeTokenAddress source left)
      e.homeSubnetId e.homeTokenAddress e.destinationSubnetId + e.amount.val) U256.max.val
    else balance X (db.setTokenBalance X e.homeSubnetId e.homeTokenAddress source left)
      home token holder) = _
  by_cases htoken : e.homeSubnetId = home ∧ e.homeTokenAddress = token
  · obtain ⟨rfl, rfl⟩ := htoken
    by_cases hd : e.destinationSubnetId = holder
    · subst hd
      simp [hset]
    · simp [hset, hd, Ne.symm hd]
  · have hne : ∀ s, ¬ (home = e.homeSubnetId ∧ token = e.homeTokenAddress ∧ holder = s) := by
      rintro s ⟨rfl, rfl, -⟩
      exact htoken ⟨rfl, rfl⟩
    rw [if_neg (hne _), if_neg htoken, balance_set laws, if_neg (hne _)]

/-- One transfer: the source pays its amount and the destination gets it, up to
the largest balance. -/
theorem balance_applyTransfer {e : IpcCrossSubnetErcTransfer}
    (h : applyTransfer X o source db e = .ok db') (home : SubnetId) (token : EthAddress)
    (holder : SubnetId) :
    (holder ≠ source → balance X db' home token holder =
      min (balance X db home token holder + received home token holder [e]) U256.max.val) ∧
    (holder = source → balance X db' home token holder + amountOf home token e =
      balance X db home token holder + received home token holder [e]) := by
  have hbound := balance_le_max X db home token holder
  rw [received_cons, received_nil]
  by_cases hzero : e.amount = 0
  · have hamount : amountOf home token e = 0 := by simp [amountOf, hzero]
    simp only [applyTransfer, hzero, if_true, pure_eq, Except.ok.injEq] at h
    subst h
    rw [hamount, ite_self]
    constructor <;> intro _ <;> omega
  · obtain ⟨hle, hbal⟩ := balance_transferred laws hzero h home token holder
    rw [hbal]
    by_cases htoken : e.homeSubnetId = home ∧ e.homeTokenAddress = token
    · have hamount : amountOf home token e = e.amount.val := by simp [amountOf, htoken]
      obtain ⟨rfl, rfl⟩ := htoken
      simp only [hamount, and_self, if_true, debited]
      constructor
      · intro hs
        rw [if_neg hs]
        split_ifs <;> omega
      · rintro rfl
        rw [if_pos rfl]
        split_ifs <;> omega
    · have hamount : amountOf home token e = 0 := by simp [amountOf, htoken]
      rw [if_neg htoken, hamount, ite_self]
      constructor <;> intro _ <;> omega

/-- The transfers of a batch, one after another. -/
theorem balance_foldlM_applyTransfer {l : List IpcCrossSubnetErcTransfer}
    (h : l.foldlM (applyTransfer X o source) db = .ok db') (home : SubnetId)
    (token : EthAddress) (holder : SubnetId) :
    (holder ≠ source → balance X db' home token holder =
      min (balance X db home token holder + received home token holder l) U256.max.val) ∧
    (holder = source → balance X db' home token holder + sent home token l =
      balance X db home token holder + received home token holder l) := by
  induction l generalizing db with
  | nil =>
    rw [List.foldlM_nil] at h
    obtain rfl := Except.ok.inj h
    have hbound := balance_le_max X db home token holder
    constructor
    · intro _
      rw [received_nil, Nat.add_zero, Nat.min_eq_left hbound]
    · intro _
      rfl
  | cons e rest ih =>
    rw [List.foldlM_cons] at h
    obtain ⟨d, hd, h⟩ := bind_eq_ok.mp h
    obtain ⟨hother, hsource⟩ := balance_applyTransfer laws hd home token holder
    obtain ⟨hother', hsource'⟩ := ih h
    have hsent : sent home token (e :: rest) = amountOf home token e + sent home token rest := rfl
    rw [received_cons, received_nil] at hother hsource
    rw [received_cons, hsent]
    constructor
    · intro hs
      have h₁ := hother hs
      have h₂ := hother' hs
      omega
    · intro hs
      have h₁ := hsource hs
      have h₂ := hsource' hs
      omega

/-- A balance whose home and holder are not both the source changes by the token
transfers of the batch alone. -/
theorem balance_saveToDb {m : IpcBatchTransferMsg} {saved : HeedDb × SubnetCheckpoint}
    (h : m.saveToDb X db o = .ok saved) (token : EthAddress)
    (hown : ¬ (home = m.subnetId ∧ holder = m.subnetId)) :
    (holder ≠ m.subnetId → balance X saved.1 home token holder =
      min (balance X db home token holder + movedInto home token holder m) U256.max.val) ∧
    (holder = m.subnetId →
      balance X saved.1 home token holder + movedOut home token holder m =
        balance X db home token holder + movedInto home token holder m) := by
  obtain ⟨s, -, h⟩ := bind_eq_ok.mp h
  obtain ⟨n, -, h⟩ := bind_eq_ok.mp h
  obtain ⟨c, -, h⟩ := bind_eq_ok.mp h
  obtain ⟨_, -, h⟩ := bind_eq_ok.mp h
  obtain ⟨db', happly, h⟩ := bind_eq_ok.mp h
  obtain rfl := Except.ok.inj h
  obtain ⟨d, hd, htransfer⟩ := balance_before_transfers laws happly token hown
  have hd' : balance X d home token holder = balance X db home token holder := hd
  obtain ⟨hother, hsource⟩ := balance_foldlM_applyTransfer laws htransfer home token holder
  rw [hd'] at hother hsource
  refine ⟨hother, ?_⟩
  intro hs
  rw [movedOut, if_pos hs.symm]
  exact hsource hs

end Records

/-- A batch transfer that is saved, or a commit that leaves the token ledger as
it is (a rejected batch commits nothing). -/
inductive LedgerStep : HeedDb → Option IpcBatchTransferMsg → HeedDb → Prop
  | batch {db : HeedDb} {m : IpcBatchTransferMsg} {o : Origin}
      {saved : HeedDb × SubnetCheckpoint} :
      m.saveToDb X db o = .ok saved → LedgerStep db (some m) saved.1
  | other {db db' : HeedDb} : db'.tokenBalancesDb = db.tokenBalancesDb → LedgerStep db none db'

/-- The batches that a run accepted. -/
def accepted (l : List (Option IpcBatchTransferMsg × HeedDb)) : List IpcBatchTransferMsg :=
  l.filterMap Prod.fst

def totalOut (home : SubnetId) (token : EthAddress) (s : SubnetId)
    (l : List (Option IpcBatchTransferMsg × HeedDb)) : Nat :=
  ((accepted l).map (movedOut home token s)).sum

def totalInto (home : SubnetId) (token : EthAddress) (s : SubnetId)
    (l : List (Option IpcBatchTransferMsg × HeedDb)) : Nat :=
  ((accepted l).map (movedInto home token s)).sum

/-- No balance of another holder goes down. -/
def NoOtherDebit (source : SubnetId) (db db' : HeedDb) : Prop :=
  ∀ home token holder, holder ≠ source →
    balance X db home token holder ≤ balance X db' home token holder

/-- The balances of a token change by the transfers of the batch alone: nothing of
it is minted or burned. -/
def OnlyMoved (m : IpcBatchTransferMsg) (home : SubnetId) (token : EthAddress)
    (db db' : HeedDb) : Prop :=
  ∀ holder,
    if holder = m.subnetId then
      balance X db' home token holder + movedOut home token holder m =
        balance X db home token holder + movedInto home token holder m
    else balance X db' home token holder =
      min (balance X db home token holder + movedInto home token holder m) U256.max.val

section Runs

variable {X} (laws : DisplayLaws X)
include laws

theorem noOtherDebit_saveToDb {db : HeedDb} {m : IpcBatchTransferMsg} {o : Origin}
    {saved : HeedDb × SubnetCheckpoint} (h : m.saveToDb X db o = .ok saved) :
    NoOtherDebit X m.subnetId db saved.1 := by
  intro home token holder hs
  have hown : ¬ (home = m.subnetId ∧ holder = m.subnetId) := fun hand => hs hand.2
  have hbal := (balance_saveToDb laws h token hown).1 hs
  have hbound := balance_le_max X db home token holder
  omega

theorem onlyMoved_saveToDb {db : HeedDb} {m : IpcBatchTransferMsg} {o : Origin}
    {saved : HeedDb × SubnetCheckpoint} (h : m.saveToDb X db o = .ok saved) {home : SubnetId}
    (hhome : home ≠ m.subnetId) (token : EthAddress) :
    OnlyMoved X m home token db saved.1 := by
  intro holder
  have hown : ¬ (home = m.subnetId ∧ holder = m.subnetId) := fun hand => hhome hand.1
  obtain ⟨hother, hsource⟩ := balance_saveToDb laws h token hown
  split_ifs with hs
  · exact hsource hs
  · exact hother hs

/-- One step: the balance of a foreign token grows by at most what comes in less
what goes out. -/
theorem balance_step {db db' : HeedDb} {e : Option IpcBatchTransferMsg} {home s : SubnetId}
    (h : LedgerStep X db e db') (hs : s ≠ home) (token : EthAddress) :
    balance X db' home token s + totalOut home token s [(e, db')] ≤
      balance X db home token s + totalInto home token s [(e, db')] := by
  cases h with
  | @batch m o saved h =>
    simp only [totalOut, totalInto, accepted, List.filterMap_cons, List.filterMap_nil,
      List.map_cons, List.map_nil, List.sum_cons, List.sum_nil, Nat.add_zero]
    have hown : ¬ (home = m.subnetId ∧ s = m.subnetId) := fun hand =>
      hs (hand.2.trans hand.1.symm)
    obtain ⟨hother, hsource⟩ := balance_saveToDb laws h token hown
    by_cases hsrc : s = m.subnetId
    · exact (hsource hsrc).le
    · have hbal := hother hsrc
      have hout : movedOut home token s m = 0 := if_neg (fun heq => hsrc heq.symm)
      omega
  | other h =>
    have hbal : balance X db' home token s = balance X db home token s := by
      simp only [balance, HeedDb.getTokenBalance, h]
    exact hbal.le

theorem balance_run {db : HeedDb} {l : List (Option IpcBatchTransferMsg × HeedDb)}
    {home s : SubnetId} (h : Trail (LedgerStep X) db l) (hs : s ≠ home) (token : EthAddress) :
    balance X (lastStore db l) home token s + totalOut home token s l ≤
      balance X db home token s + totalInto home token s l := by
  induction l generalizing db with
  | nil => exact le_rfl
  | cons a rest ih =>
    obtain ⟨e, db'⟩ := a
    have hstep := balance_step laws h.1 hs token
    have hrest := ih h.2
    have hout : totalOut home token s ((e, db') :: rest) =
        totalOut home token s [(e, db')] + totalOut home token s rest := by
      cases e <;> simp [totalOut, accepted]
    have hinto : totalInto home token s ((e, db') :: rest) =
        totalInto home token s [(e, db')] + totalInto home token s rest := by
      cases e <;> simp [totalInto, accepted]
    rw [lastStore_cons, hout, hinto]
    omega

/-- The token firewall. After every prefix of a run that starts with an empty
ledger, no subnet has sent more of a token with another home than it was sent,
and no batch takes from another holder, or mints or burns a token whose home is
not its source. -/
theorem erc_firewall {db : HeedDb} (hempty : db.tokenBalancesDb = .empty)
    {l : List (Option IpcBatchTransferMsg × HeedDb)} (h : Trail (LedgerStep X) db l) :
    (∀ l', l' <+: l → ∀ home token s, s ≠ home →
      totalOut home token s l' ≤ totalInto home token s l') ∧
    AllSteps (fun before e after => ∀ m, e = some m →
      NoOtherDebit X m.subnetId before after ∧
        ∀ home, home ≠ m.subnetId → ∀ token, OnlyMoved X m home token before after) db l := by
  constructor
  · rintro l' ⟨rest, rfl⟩ home token s hs
    have hrun := balance_run laws (trail_append.mp h).1 hs token
    have hzero : balance X db home token s = 0 := by
      simp [balance, HeedDb.getTokenBalance, hempty]
    omega
  · clear hempty
    induction l generalizing db with
    | nil => trivial
    | cons a rest ih =>
      obtain ⟨e, db'⟩ := a
      refine ⟨?_, ih h.2⟩
      rintro m rfl
      cases h.1 with
      | batch hsave =>
        exact ⟨noOtherDebit_saveToDb laws hsave,
          fun home hhome token => onlyMoved_saveToDb laws hsave hhome token⟩

end Runs

/-- A state with one checkpoint. -/
def checkpointed (s : SubnetId) : SubnetState :=
  { Solo.state with id := s, lastCheckpointNumber := some 0 }

def firstCheckpoint : SubnetCheckpoint :=
  ⟨0, Solo.bytes32 4, 1, 1, Solo.bytes32 13, none, none, 1, 1, 0, false⟩

def tokenHome : SubnetId := .fromTxid20 Solo.subnet
def guest : SubnetId := .fromTxid20 Solo.neighbour

/-- Two subnets with a checkpoint each, before the first batch. -/
def twoSubnets (X : Library) : HeedDb :=
  [tokenHome, guest].foldl (fun db s => (db.saveSubnetState X s (checkpointed s)).saveCheckpoint X s
    firstCheckpoint 0) HeedDb.empty

/-- The home registers a token and sends 60 of it. -/
def registering : IpcBatchTransferMsg :=
  ⟨tokenHome, Solo.bytes32 13, 1, [], [⟨Solo.user, ['T'], ['T'], 18, 100⟩], [],
    [⟨tokenHome, Solo.user, 60, guest, Solo.user⟩]⟩

/-- The guest sends back a part. -/
def returning : IpcBatchTransferMsg :=
  ⟨guest, Solo.bytes32 13, 1, [], [], [], [⟨tokenHome, Solo.user, 25, tokenHome, Solo.user⟩]⟩

/-- The two batches are accepted one after the other. -/
theorem exists_returned_tokens :
    ∃ l, Trail (LedgerStep Solo.transferLibrary) (twoSubnets Solo.transferLibrary) l ∧
      accepted l = [registering, returning] := by
  have hruns : ((registering.saveToDb Solo.transferLibrary (twoSubnets Solo.transferLibrary)
      ⟨2, Solo.bytes32 5, Solo.bytes32 14⟩).toOption.bind fun r =>
        (returning.saveToDb Solo.transferLibrary r.1
          ⟨3, Solo.bytes32 5, Solo.bytes32 15⟩).toOption).isSome = true := by
    decide +kernel
  obtain ⟨second, hsecond⟩ := Option.isSome_iff_exists.mp hruns
  obtain ⟨first, hfirst, hsecond⟩ := Option.bind_eq_some_iff.mp hsecond
  rw [toOption_eq_some] at hfirst hsecond
  exact ⟨[(some registering, first.1), (some returning, second.1)],
    ⟨.batch hfirst, .batch hsecond, trivial⟩, rfl⟩

theorem erc_firewall_of_returned_tokens :
    ∃ l, Trail (LedgerStep Solo.transferLibrary) (twoSubnets Solo.transferLibrary) l ∧
      accepted l = [registering, returning] ∧
      (∀ l', l' <+: l → ∀ home token s, s ≠ home →
        totalOut home token s l' ≤ totalInto home token s l') ∧
      AllSteps (fun before e after => ∀ m, e = some m →
        NoOtherDebit Solo.transferLibrary m.subnetId before after ∧
          ∀ home, home ≠ m.subnetId → ∀ token,
            OnlyMoved Solo.transferLibrary m home token before after)
        (twoSubnets Solo.transferLibrary) l ∧
      totalOut tokenHome Solo.user guest l = 25 ∧ totalInto tokenHome Solo.user guest l = 60 := by
  obtain ⟨l, htrail, haccepted⟩ := exists_returned_tokens
  have hempty : (twoSubnets Solo.transferLibrary).tokenBalancesDb = .empty := rfl
  obtain ⟨hsent, hsteps⟩ := erc_firewall (displayLaws_ideal _) hempty htrail
  refine ⟨l, htrail, haccepted, hsent, hsteps, ?_, ?_⟩
  · rw [totalOut, haccepted]
    decide +kernel
  · rw [totalInto, haccepted]
    decide +kernel

section Monitor

variable {X}

/-- Of the monitor's commits, only accepted batch transfers touch the ledger. -/
theorem ledgerStep_of_commit {db db' : HeedDb} {e : Event} (h : Commit X db e db') :
    LedgerStep X db (batchOf e) db' := by
  cases hb : batchOf e with
  | none => exact .other ((tables_of_commit h).1 hb)
  | some m =>
    cases h with
    | batchTransfer _ _ hsave =>
      cases hb
      exact .batch hsave
    | _ => cases hb

theorem trail_ledger {db : HeedDb} {l : List (Event × HeedDb)} (h : Trail (Commit X) db l) :
    Trail (LedgerStep X) db (l.map (fun a => (batchOf a.1, a.2))) := by
  induction l generalizing db with
  | nil => trivial
  | cons a rest ih => exact ⟨ledgerStep_of_commit h.1, ih h.2⟩

/-- Every run of the monitor keeps to the firewall. -/
theorem sent_le_received (laws : DisplayLaws X) {l : List (Event × HeedDb)}
    (h : Trail (Commit X) HeedDb.empty l) {home s : SubnetId} (hs : s ≠ home)
    (token : EthAddress) :
    totalOut home token s (l.map (fun a => (batchOf a.1, a.2))) ≤
      totalInto home token s (l.map (fun a => (batchOf a.1, a.2))) := by
  have hrun := balance_run laws (trail_ledger h) hs token
  have hzero : balance X HeedDb.empty home token s = 0 := rfl
  omega

end Monitor

end Messages.TokenLedger
