import BitcoinIpc.RequestAcceptance

/-!
# The messages in the outputs of a transaction

Five messages are written into two outputs of a transaction, and each is read
back by its own parser, whatever is paid behind them. The twenty bytes that name
a subnet do not say in which namespace they are, so a funding of an id of another
namespace is read as a funding of the subnet with the same bytes. The parsers
that look at the tag of the first output accept no transaction in common.
-/

namespace Monitor

open Faults Bytes Chain Messages Crates Multisig Db Commits Provider

/-- A message for the outputs of a transaction, with the arguments of its encoder. -/
inductive Outgoing where
  | prefund (m : IpcPrefundSubnetMsg) (multisig release : Address)
  | fund (m : IpcFundSubnetMsg) (multisig : Address)
  | stake (m : IpcStakeCollateralMsg) (multisig : Address)
  | unstake (m : IpcUnstakeCollateralMsg) (multisig : Address) (signature : Signature)
  | kill (m : IpcKillSubnetMsg) (multisig : Address) (signature : Signature)

namespace Outgoing

def toTx (X : Library) (feeRate : FeeRate) : Outgoing → Outcome IpcLibError Transaction
  | .prefund m a release => m.toTx X feeRate a release
  | .fund m a => m.toTx X feeRate a
  | .stake m a => .ok (m.toTx X feeRate a)
  | .unstake m a sig => .ok (m.toTx X feeRate a sig)
  | .kill _ a sig => .ok (IpcKillSubnetMsg.toTx X feeRate a sig)

def message : Outgoing → IpcMessage
  | .prefund m _ _ => .prefundSubnet m
  | .fund m _ => .fundSubnet m
  | .stake m _ => .stakeCollateral m
  | .unstake m _ _ => .unstakeCollateral m
  | .kill m _ _ => .killSubnet m

def subnetId : Outgoing → SubnetId
  | .prefund m _ _ => m.subnetId
  | .fund m _ => m.subnetId
  | .stake m _ => m.subnetId
  | .unstake m _ _ => m.subnetId
  | .kill m _ _ => m.subnetId

end Outgoing

/-- The key signs for the transaction that the first input spends, and its validator is in the
current committee of the subnet, which has the address. -/
def SignedFor (X : Library) (db : HeedDb) (tx : Transaction) (id : SubnetId) (a : Address)
    (pubkey : Option XOnlyPublicKey) (sign : Txid → X.SecretKey → Outcome IpcLibError Signature)
    (sig : Signature) : Prop :=
  ∃ s sk i, db.getSubnetState X id = some s ∧ a = s.committee.multisigAddress ∧
    pubkey = some (X.xOnlyPublicKey sk) ∧ s.committee.isValidator (X.xOnlyPublicKey sk) = true ∧
    tx.input.head? = some i ∧ sign i.previousOutput.txid sk = .ok sig

/-- The arguments of the encoder fit the state and the transaction. The keys and amounts are as
their types promise. -/
def Outgoing.Fits (X : Library) (db : HeedDb) (tx : Transaction) : Outgoing → Prop
  | .prefund _ _ _ => True
  | .fund _ _ => True
  | .stake m a => X.onCurve m.pubkey = true ∧
      ∃ s, db.getSubnetState X m.subnetId = some s ∧ a = s.committee.multisigAddress
  | .unstake m a sig => m.amount < amountBound ∧
      SignedFor X db tx m.subnetId a m.pubkey (m.makeSignature X) sig
  | .kill m a sig => SignedFor X db tx m.subnetId a m.pubkey (m.makeSignature X) sig

/-- No message is found in the witnesses, and this one in the outputs. -/
def Finds (X : Library) (ctx : BlockContext) (db : HeedDb) (tx : Transaction) (m : IpcMessage) :
    Prop :=
  witnessMessages X tx = [] ∧
  (firstParsed (outputParsers X ctx db tx) : Outcome MonitorError _) = .ok (some m)

section Kinds

variable {X : Library} {ctx : BlockContext} {db : HeedDb} {tx : Transaction}
  {further : List TxOut} {feeRate : FeeRate}

/-- What the encoder wrote, with further outputs behind it. -/
theorem carries_of_outputs {tag : String} {data : List UInt8} {payment : TxOut}
    (hout : tx.output = (createTxFromTxouts
      [dataTxOut X feeRate (tagBytes tag ++ data), payment]).output ++ further)
    (htag : (tagBytes tag).length = ipcTagLength) (hdata : data.length ≤ 100) :
    Carries tx tag data payment :=
  ⟨⟨_, further, hout⟩, htag, hdata⟩

theorem funding_length (id : Txid20) (address : EthAddress) :
    (id.bytes ++ address.bytes).length ≤ 100 := by
  rw [List.length_append, id.length_eq, address.length_eq]
  decide

theorem finds_prefund_iff {m : IpcPrefundSubnetMsg} {a release : Address} {built : Transaction}
    (hbuilt : (m.toTx X feeRate a release : Outcome IpcLibError _) = .ok built)
    (hout : tx.output = built.output ++ further) (hplain : Plain tx) :
    Finds X ctx db tx (.prefundSubnet m) ↔ m.subnetId.InNamespace := by
  obtain ⟨t, ht, hbuilt⟩ := bind_eq_ok.mp hbuilt
  cases hbuilt
  rw [List.append_assoc] at hout
  have hcarries := carries_of_outputs hout (by decide) (funding_length t m.address)
  have hfound : (firstParsed (outputParsers X ctx db tx) : Outcome MonitorError _) =
      .ok (some (.prefundSubnet ⟨.fromTxid20 t, m.amount, m.address⟩)) := by
    rw [outputParsers, hcarries.fromTx_prefund]
    rfl
  rw [← SubnetId.fromTxid20_eq_iff ht, Finds, hfound]
  constructor
  · rintro ⟨-, heq⟩
    exact congrArg IpcPrefundSubnetMsg.subnetId
      (IpcMessage.prefundSubnet.inj (Option.some.inj (Except.ok.inj heq)))
  · intro heq
    rw [heq]
    exact ⟨hplain.witnessMessages_eq, rfl⟩

theorem finds_fund_iff {m : IpcFundSubnetMsg} {a : Address} {built : Transaction}
    (hbuilt : (m.toTx X feeRate a : Outcome IpcLibError _) = .ok built)
    (hout : tx.output = built.output ++ further) (hplain : Plain tx) :
    Finds X ctx db tx (.fundSubnet m) ↔ m.subnetId.InNamespace := by
  obtain ⟨t, ht, hbuilt⟩ := bind_eq_ok.mp hbuilt
  cases hbuilt
  rw [List.append_assoc] at hout
  have hcarries := carries_of_outputs hout (by decide) (funding_length t m.address)
  have hfound : (firstParsed (outputParsers X ctx db tx) : Outcome MonitorError _) =
      .ok (some (.fundSubnet ⟨.fromTxid20 t, m.amount, m.address⟩)) := by
    rw [hcarries.found_fund, outputParsers, hcarries.fromTx_fund]
    rfl
  rw [← SubnetId.fromTxid20_eq_iff ht, Finds, hfound]
  constructor
  · rintro ⟨-, heq⟩
    exact congrArg IpcFundSubnetMsg.subnetId
      (IpcMessage.fundSubnet.inj (Option.some.inj (Except.ok.inj heq)))
  · intro heq
    rw [heq]
    exact ⟨hplain.witnessMessages_eq, rfl⟩

variable (laws : DisplayLaws X) (hsound : Sound X db) (hdist : AddressesDistinct X db)
include laws hsound hdist

theorem finds_stake {m : IpcStakeCollateralMsg} {s : SubnetState}
    (hkey : X.onCurve m.pubkey = true) (hs : db.getSubnetState X m.subnetId = some s)
    (hout : tx.output = (m.toTx X feeRate s.committee.multisigAddress).output ++ further)
    (hplain : Plain tx) : Finds X ctx db tx (.stakeCollateral m) := by
  obtain ⟨t, ht, hid, -, -⟩ := hsound.state laws hs
  have hcarries := carries_of_outputs hout (by decide) (by rw [m.pubkey.length_eq]; decide)
  have hm : IpcStakeCollateralMsg.fromTx X db tx = .ok m := by
    rw [hcarries.fromTx_stake laws hsound hdist hs hkey, hid, ← ht]
  refine ⟨hplain.witnessMessages_eq, ?_⟩
  rw [hcarries.found_stake ctx db hplain (Or.inl rfl)]
  simp only [outputParsers, List.drop_succ_cons, List.drop_zero, hm]
  rfl

variable (hschnorr : SchnorrLaws X)
include hschnorr

theorem finds_unstake {m : IpcUnstakeCollateralMsg} {a : Address} {sig : Signature}
    (hamount : m.amount < amountBound)
    (hsigned : SignedFor X db tx m.subnetId a m.pubkey (m.makeSignature X) sig)
    (hout : tx.output = (m.toTx X feeRate a sig).output ++ further) (hplain : Plain tx) :
    Finds X ctx db tx (.unstakeCollateral m) := by
  obtain ⟨s, sk, i, hs, rfl, hpk, hmember, hi, hsig⟩ := hsigned
  obtain ⟨t, ht, hid, -, -⟩ := hsound.state laws hs
  obtain ⟨v, hv⟩ := isValidator_iff_find.mp hmember
  have hsig' : sig = X.signSchnorr sk (X.sha256 (i.previousOutput.txid.bytes ++
      (X.xOnlyPublicKey sk).bytes ++ toBe amountSize m.amount ++ t.bytes)) := by
    simpa [IpcUnstakeCollateralMsg.makeSignature, IpcUnstakeCollateralMsg.makeSignatureMsg, ht]
      using hsig.symm
  have hprev : firstPrevTxid ipcUnstakeTag tx = .ok i.previousOutput.txid := by
    rw [firstPrevTxid, hi]
    rfl
  unfold IpcUnstakeCollateralMsg.toTx at hout
  rw [List.append_assoc] at hout
  have hcarries := carries_of_outputs hout (by decide) (by
    rw [List.length_append, sig.length_eq, length_toBe]
    decide)
  have hm : IpcUnstakeCollateralMsg.fromTx X db tx = .ok m := by
    rw [hcarries.fromTx_unstake laws hsound hdist hs hschnorr hid hsig' hprev hamount, hv, hid,
      ← ht, okOr, ok_bind, (SubnetCommittee.findValidator_eq_some hv).2, ← hpk]
    rfl
  refine ⟨hplain.witnessMessages_eq, ?_⟩
  rw [hcarries.found_unstake ctx db hplain (Or.inl rfl), hm]
  rfl

theorem finds_kill {m : IpcKillSubnetMsg} {a : Address} {sig : Signature}
    (hsigned : SignedFor X db tx m.subnetId a m.pubkey (m.makeSignature X) sig)
    (hout : tx.output = (IpcKillSubnetMsg.toTx X feeRate a sig).output ++ further)
    (hplain : Plain tx) : Finds X ctx db tx (.killSubnet m) := by
  obtain ⟨s, sk, i, hs, rfl, hpk, hmember, hi, hsig⟩ := hsigned
  obtain ⟨t, ht, hid, -, -⟩ := hsound.state laws hs
  obtain ⟨v, hv⟩ := isValidator_iff_find.mp hmember
  have hsig' : sig = X.signSchnorr sk (X.sha256 (i.previousOutput.txid.bytes ++
      (X.xOnlyPublicKey sk).bytes ++ t.bytes)) := by
    simpa [IpcKillSubnetMsg.makeSignature, IpcKillSubnetMsg.makeSignatureMsg, ht]
      using hsig.symm
  have hprev : firstPrevTxid ipcKillSubnetTag tx = .ok i.previousOutput.txid := by
    rw [firstPrevTxid, hi]
    rfl
  have hcarries := carries_of_outputs hout (by decide) (by rw [sig.length_eq]; decide)
  have hm : IpcKillSubnetMsg.fromTx X db tx = .ok m := by
    rw [hcarries.fromTx_kill laws hsound hdist hs hschnorr hid hsig' hprev, hv, hid,
      ← ht, okOr, ok_bind, (SubnetCommittee.findValidator_eq_some hv).2, ← hpk]
    rfl
  refine ⟨hplain.witnessMessages_eq, ?_⟩
  rw [hcarries.found_kill ctx db hplain, hm]
  rfl

end Kinds

/-- The first push of the first output starts with the tag. -/
def Tagged (tx : Transaction) (tag : String) : Prop :=
  ∃ out data, tx.output[0]? = some out ∧ firstPush out.scriptPubkey = some data ∧
    data.take ipcTagLength = tagBytes tag

section Parsers

variable {X : Library} {ctx : BlockContext} {db : HeedDb} {tx : Transaction}

theorem Tagged.unique {tag tag' : String} (h : Tagged tx tag) (h' : Tagged tx tag') :
    tagBytes tag = tagBytes tag' := by
  obtain ⟨out, data, hout, hdata, htag⟩ := h
  obtain ⟨out', data', hout', hdata', htag'⟩ := h'
  obtain rfl : out = out' := Option.some.inj (hout.symm.trans hout')
  obtain rfl : data = data' := Option.some.inj (hdata.symm.trans hdata')
  rw [← htag, ← htag']

theorem tagged_of_opReturnData {tag t noData badLength : String} {n : Nat} {data : List UInt8}
    (h : opReturnData t noData badLength n tx = .ok data)
    (htag : data.take ipcTagLength = tagBytes tag) : Tagged tx tag := by
  obtain ⟨out, hout, h⟩ := bind_eq_ok.mp h
  obtain ⟨data', hdata, h⟩ := bind_eq_ok.mp h
  obtain ⟨_, -, h⟩ := bind_eq_ok.mp h
  cases h
  exact ⟨out, data, index_eq_ok.mp hout, okOr_eq_ok.mp hdata, htag⟩

theorem tagged_of_fundingFromTx {tag : String} {r : SubnetId × Amount × EthAddress}
    (h : fundingFromTx tag tx = .ok r) : Tagged tx tag := by
  obtain ⟨_, -, h⟩ := bind_eq_ok.mp h
  obtain ⟨data, hdata, h⟩ := bind_eq_ok.mp h
  obtain ⟨_, htag, -⟩ := bind_eq_ok.mp h
  exact tagged_of_opReturnData hdata (ensure_eq_ok.mp htag)

theorem tagged_of_taggedData {tag tooFew : String} {n : Nat} {data : List UInt8}
    (h : taggedData tag tooFew n tx = .ok data) : Tagged tx tag := by
  obtain ⟨_, -, h⟩ := bind_eq_ok.mp h
  obtain ⟨data', hdata, h⟩ := bind_eq_ok.mp h
  obtain ⟨_, htag, -⟩ := bind_eq_ok.mp h
  exact tagged_of_opReturnData hdata (ensure_eq_ok.mp htag)

theorem tagged_of_fromCheckpointTx {m : IpcCheckpointSubnetMsg}
    (h : IpcCheckpointSubnetMsg.fromCheckpointTx X db tx = .ok m) :
    Tagged tx ipcCheckpointTag := by
  obtain ⟨_, -, h⟩ := bind_eq_ok.mp h
  obtain ⟨data, hdata, h⟩ := bind_eq_ok.mp h
  obtain ⟨d, hd, -⟩ := bind_eq_ok.mp h
  obtain ⟨tag, hslice, hd⟩ := bind_eq_ok.mp hd
  obtain ⟨_, htag, -⟩ := bind_eq_ok.mp hd
  rw [← slice_eq_ok hslice] at htag
  exact tagged_of_opReturnData hdata (ensure_eq_ok.mp htag)

/-- The parsers that look at the tag of the first output: all but the one of a batch transfer. -/
def taggedParsers (X : Library) (ctx : BlockContext) (db : HeedDb) (tx : Transaction) :
    List (Outcome IpcLibError IpcMessage) :=
  (outputParsers X ctx db tx).eraseIdx 3

def outputTags : List String :=
  [ipcPrefundSubnetTag, ipcFundSubnetTag, ipcCheckpointTag, ipcStakeTag, ipcUnstakeTag,
    ipcKillSubnetTag]

/-- A parser that succeeds has found its own tag. -/
theorem tagged_of_parsed :
    List.Forall₂ (fun parsed tag => ∀ m, parsed = .ok m → Tagged tx tag)
      (taggedParsers X ctx db tx) outputTags := by
  refine .cons ?_ (.cons ?_ (.cons ?_ (.cons ?_ (.cons ?_ (.cons ?_ .nil))))) <;>
    intro m hm <;> obtain ⟨_, hparsed, -⟩ := map_eq_ok hm
  · obtain ⟨_, hdata, -⟩ := bind_eq_ok.mp hparsed
    exact tagged_of_fundingFromTx hdata
  · obtain ⟨_, hdata, -⟩ := bind_eq_ok.mp hparsed
    exact tagged_of_fundingFromTx hdata
  · exact tagged_of_fromCheckpointTx hparsed
  · obtain ⟨_, hdata, -⟩ := bind_eq_ok.mp hparsed
    exact tagged_of_taggedData hdata
  · obtain ⟨_, hdata, -⟩ := bind_eq_ok.mp hparsed
    exact tagged_of_taggedData hdata
  · obtain ⟨_, hdata, -⟩ := bind_eq_ok.mp hparsed
    exact tagged_of_taggedData hdata

theorem outputTags_nodup : (outputTags.map tagBytes).Nodup := by
  decide

theorem parsed_unique {i j : Nat} {m m' : IpcMessage}
    (hi : (taggedParsers X ctx db tx)[i]? = some (.ok m))
    (hj : (taggedParsers X ctx db tx)[j]? = some (.ok m')) : i = j := by
  have htagged : ∀ {i : Nat} {m : IpcMessage}, (taggedParsers X ctx db tx)[i]? = some (.ok m) →
      ∃ tag, outputTags[i]? = some tag ∧ Tagged tx tag := by
    intro i m hi
    obtain ⟨hlt, hi⟩ := List.getElem?_eq_some_iff.mp hi
    have hlt' : i < outputTags.length := tagged_of_parsed.length_eq ▸ hlt
    exact ⟨_, List.getElem?_eq_getElem hlt', tagged_of_parsed.get hlt hlt' m hi⟩
  obtain ⟨tag, hi, htag⟩ := htagged hi
  obtain ⟨tag', hj, htag'⟩ := htagged hj
  obtain ⟨hlt, -⟩ := List.getElem?_eq_some_iff.mp hi
  refine (List.getElem?_inj (by rw [List.length_map]; exact hlt) outputTags_nodup).mp ?_
  rw [List.getElem?_map, List.getElem?_map, hi, hj]
  exact congrArg some (htag.unique htag')

end Parsers

section Reached

variable {X : Library} (laws : DisplayLaws X) (hschnorr : SchnorrLaws X)
include laws hschnorr

theorem Outgoing.finds_iff {db : HeedDb} (hsound : Sound X db) (hdist : AddressesDistinct X db)
    {ctx : BlockContext} {o : Outgoing} {feeRate : FeeRate} {built tx : Transaction}
    {further : List TxOut} (hbuilt : o.toTx X feeRate = .ok built)
    (hout : tx.output = built.output ++ further) (hplain : Plain tx) (hfits : o.Fits X db tx) :
    Finds X ctx db tx o.message ↔ o.subnetId.InNamespace := by
  have hkept : ∀ {id : SubnetId} {s : SubnetState}, db.getSubnetState X id = some s →
      id.InNamespace := by
    intro id s hs
    obtain ⟨t, ht, -⟩ := hsound.state laws hs
    exact ⟨t, ht⟩
  cases o with
  | prefund m a release => exact finds_prefund_iff hbuilt hout hplain
  | fund m a => exact finds_fund_iff hbuilt hout hplain
  | stake m a =>
    obtain ⟨hkey, s, hs, rfl⟩ := hfits
    cases hbuilt
    exact iff_of_true (finds_stake laws hsound hdist hkey hs hout hplain) (hkept hs)
  | unstake m a sig =>
    obtain ⟨hamount, hsigned⟩ := hfits
    cases hbuilt
    obtain ⟨s, _, _, hs, -⟩ := id hsigned
    exact iff_of_true (finds_unstake laws hsound hdist hschnorr hamount hsigned hout hplain)
      (hkept hs)
  | kill m a sig =>
    cases hbuilt
    obtain ⟨s, _, _, hs, -⟩ := id hfits
    exact iff_of_true (finds_kill laws hsound hdist hschnorr hfits hout hplain) (hkept hs)

/-- A message that was written into the outputs of a transaction is found in it exactly when its
subnet id is in the namespace of the chain, and no two of the tagged parsers accept one
transaction. -/
theorem output_message_found_iff :
    (∀ db, Reachable X db → AddressesDistinct X db →
      ∀ (ctx : BlockContext) (o : Outgoing) (feeRate : FeeRate) (built tx : Transaction)
        (further : List TxOut), o.toTx X feeRate = .ok built →
        tx.output = built.output ++ further → Plain tx → o.Fits X db tx →
        (Finds X ctx db tx o.message ↔ o.subnetId.InNamespace)) ∧
    (∀ (db : HeedDb) (ctx : BlockContext) (tx : Transaction) (i j : Nat) (m m' : IpcMessage),
      (taggedParsers X ctx db tx)[i]? = some (.ok m) →
      (taggedParsers X ctx db tx)[j]? = some (.ok m') → i = j) := by
  refine ⟨?_, ?_⟩
  · intro db hreach hdist ctx o feeRate built tx further hbuilt hout hplain hfits
    exact Outgoing.finds_iff laws hschnorr (sound_of_reachable laws hreach) hdist hbuilt hout hplain
      hfits
  · intro db ctx tx i j m m' hi hj
    exact parsed_unique hi hj

end Reached

open Solo

/-- A transaction with one input, which pays back some change. -/
def withChange (built : Transaction) : Transaction :=
  { built with
    input := [⟨⟨bytes32 20, 0⟩, [], 0xffffffff, []⟩]
    output := built.output ++ [⟨5000, backup.scriptPubkey⟩] }

theorem plain_withChange (built : Transaction) : Plain (withChange built) := by
  intro i hi item hitem
  cases List.mem_singleton.mp hi
  cases hitem

def sentUnstake : IpcUnstakeCollateralMsg := ⟨.fromTxid20 subnet, 1000, some key⟩

/-- The signature of the validator under its unstake. -/
def unstakeSignature : Signature :=
  stamp key ((bytes32 20).bytes ++ key.bytes ++ toBe amountSize 1000 ++ subnet.bytes)

theorem makeSignature_unstakeMsg :
    (sentUnstake.makeSignature stampLibrary (bytes32 20) key : Outcome IpcLibError _) =
      .ok unstakeSignature := by
  unfold IpcUnstakeCollateralMsg.makeSignature IpcUnstakeCollateralMsg.makeSignatureMsg sentUnstake
  rw [SubnetId.txid20_fromTxid20]
  rfl

/-- The unstake that the validator signed is found. -/
theorem signed_unstake_found : ∃ a,
    Finds stampLibrary context joinedDb
      (withChange (sentUnstake.toTx stampLibrary 1 a unstakeSignature))
      (.unstakeCollateral sentUnstake) := by
  have hany : (joinedDb.getSubnetState stampLibrary (.fromTxid20 subnet)).any
      (fun s => s.committee.isValidator key) = true := by
    decide +kernel
  obtain ⟨s, hs, hmember⟩ := (Option.any_eq_true _ _).mp hany
  have hdist : AddressesDistinct stampLibrary joinedDb :=
    addressesDistinct_of_entries displayLaws_stamp (by decide +kernel)
  have hamount : sentUnstake.amount < amountBound := by
    norm_num [sentUnstake, amountBound]
  have hfits : (Outgoing.unstake sentUnstake s.committee.multisigAddress unstakeSignature).Fits
      stampLibrary joinedDb
      (withChange (sentUnstake.toTx stampLibrary 1 s.committee.multisigAddress unstakeSignature)) :=
    ⟨hamount, s, key, _, hs, rfl, rfl, hmember, rfl, makeSignature_unstakeMsg⟩
  exact ⟨s.committee.multisigAddress,
    ((output_message_found_iff displayLaws_stamp schnorrLaws_stamp).1 joinedDb
      (reachable_run _) hdist context (.unstake sentUnstake _ unstakeSignature) 1 _ _ _ rfl rfl
      (plain_withChange _) hfits).mpr ⟨subnet, rfl⟩⟩

/-- An id with the bytes of the subnet in another namespace. -/
def foreignId : SubnetId := ⟨.delegated 11 subnet.bytes⟩

/-- A funding of an id of another namespace is read as a funding of the subnet. -/
theorem foreign_funding_misread :
    ¬ ∀ X : Library, DisplayLaws X → SchnorrLaws X → ∀ db, Reachable X db →
      AddressesDistinct X db →
      ∀ (ctx : BlockContext) (o : Outgoing) (feeRate : FeeRate) (built tx : Transaction)
        (further : List TxOut), o.toTx X feeRate = .ok built →
        tx.output = built.output ++ further → Plain tx → o.Fits X db tx →
        Finds X ctx db tx o.message := by
  intro hall
  have hdist : AddressesDistinct stampLibrary joinedDb :=
    addressesDistinct_of_entries displayLaws_stamp (by decide +kernel)
  set m : IpcFundSubnetMsg := ⟨foreignId, 5000, user⟩ with hm
  obtain ⟨built, hbuilt⟩ := exists_ok_of_isSome (by decide +kernel :
    (m.toTx stampLibrary 1 backup : Outcome IpcLibError _).toOption.isSome = true)
  have hfinds := hall stampLibrary displayLaws_stamp schnorrLaws_stamp joinedDb (reachable_run _)
    hdist context (.fund m backup) 1 built (withChange built) _ hbuilt rfl (plain_withChange _)
    trivial
  obtain ⟨t, ht⟩ := (finds_fund_iff hbuilt rfl (plain_withChange built)).mp hfinds
  have hns : (11 : Nat) = l1DelegatedNamespace :=
    (FvmAddress.delegated.inj (congrArg SubnetId.addr ht)).1
  cases hns

end Monitor
