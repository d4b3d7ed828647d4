import BitcoinIpc.CheckpointSigning
import BitcoinIpc.PassedOver

/-!
# The bootstrap handover

The collateral of the first validators is paid to an address of the whitelist,
where every key has the same weight and the threshold is the number of
validators that the subnet was created for. After the bootstrap the members'
providers build the transaction that moves it to the committee. It carries no
message, so the monitor passes it over.
-/

namespace Provider

open Faults Bytes Chain Messages Crates Multisig MultisigSpend Db Monitor Commits Greedy

/-- Keys of the whitelist, each of the same weight. -/
def whitelistKeys (g : SubnetGenesisInfo) : List WeightedKey :=
  g.createSubnetMsg.whitelist.map (fun k => (k, 1))

/-- The entries of an address, in an order that does not depend on the node. -/
def getUnspentForAddress (listed : List Utxo) : List Utxo := sortUtxos listed

section Handlers

variable {X : Library} {H : Type} [DecidableEq H] (C : SigningCrate X H)

/-- Earlier checkpoints of the subnet do not matter, they are only warned about. -/
def genBootstrapHandover (db : HeedDb) (validator : Option X.SecretKey) (id : SubnetId)
    (listed : List Utxo) (feeRate : FeeRate) : Outcome RpcError (Psbt × List Signature) := do
  let sk ← configured X validator
  let g ← readGenesis X db id
  let s ← readState X db id
  ensure (s.isValidator (X.xOnlyPublicKey sk) = true) (.invalidParams
    "Configured validator isn't a validator in the specified subnet.")
  let committeeAddress ← s.committee.multisigAddress.requireNetwork
  let keys := whitelistKeys g
  let threshold := g.createSubnetMsg.minValidators
  let _ ← orInternal (createSubnetMultisigAddress X id keys threshold)
  let unspent := getUnspentForAddress listed
  ensure (unspent ≠ []) (.invalidParams ("No unspent outputs found for whitelist multisig " ++
    "address \x7b\x7d. The handover was possibly already done."))
  let psbt ← orInternal (constructSpendPsbt X id keys threshold committeeAddress unspent true []
    feeRate 0)
  let signatures ← orInternal (signSpendPsbt C psbt sk)
  return (psbt, signatures)

def finalizeBootstrapHandover (db : HeedDb) (id : SubnetId) (p : Psbt)
    (signatures : List (XOnlyPublicKey × List Signature)) : Outcome RpcError Transaction := do
  let g ← readGenesis X db id
  finalizeWithSignatures C id (whitelistKeys g) g.createSubnetMsg.minValidators p signatures

end Handlers

section Moved

variable {X : Library} {H : Type} [DecidableEq H] {C : SigningCrate X H}
  {db db' : HeedDb} {validator : Option X.SecretKey} {id : SubnetId} {listed : List Utxo}
  {feeRate : FeeRate} {p : Psbt} {signatures₀ : List Signature}
  {signatures : List (XOnlyPublicKey × List Signature)} {tx : Transaction} {t : Txid20}

/-- What a handover is built from. -/
structure HandoverOf (X : Library) (db : HeedDb) (id : SubnetId) (listed : List Utxo)
    (feeRate : FeeRate) (p : Psbt) (g : SubnetGenesisInfo) (s : SubnetState) : Prop where
  genesis : db.getSubnetGenesisInfo X id = some g
  state : db.getSubnetState X id = some s
  psbt : constructSpendPsbt X id (whitelistKeys g) g.createSubnetMsg.minValidators
    s.committee.multisigAddress (getUnspentForAddress listed) true [] feeRate 0 = .ok p

omit [DecidableEq H] in
theorem genBootstrapHandover_inv
    (h : genBootstrapHandover C db validator id listed feeRate = .ok (p, signatures₀)) :
    ∃ sk g s, validator = some sk ∧ HandoverOf X db id listed feeRate p g s ∧
      signSpendPsbt C p sk = .ok signatures₀ := by
  obtain ⟨sk, hsk, h⟩ := bind_eq_ok.mp h
  obtain ⟨g, hg, h⟩ := bind_eq_ok.mp h
  obtain ⟨s, hs, h⟩ := bind_eq_ok.mp h
  obtain ⟨_, -, h⟩ := bind_eq_ok.mp h
  obtain ⟨a, ha, h⟩ := bind_eq_ok.mp h
  obtain ⟨_, -, h⟩ := bind_eq_ok.mp h
  obtain ⟨_, -, h⟩ := bind_eq_ok.mp h
  obtain ⟨psbt, hpsbt, h⟩ := bind_eq_ok.mp h
  obtain ⟨sigs, hsigs, h⟩ := bind_eq_ok.mp h
  cases h
  obtain ⟨-, rfl⟩ := Address.requireNetwork_eq_ok.mp ha
  exact ⟨sk, g, s, okOr_eq_ok.mp hsk,
    ⟨okOr_eq_ok.mp hg, okOr_eq_ok.mp hs, mapErr_eq_ok.mp hpsbt⟩, mapErr_eq_ok.mp hsigs⟩

/-- Entries of an address pay some outputs and the fee for the weight of the transaction. What is
left of them goes back to an address, or to the fee if it is no more than the limit of an output. -/
structure SpendsTo (X : Library) (keys : List WeightedKey) (threshold : Power) (feeRate : FeeRate)
    (exhaust : Bool) (a : Address) (outs : List TxOut) (selected : List Utxo) (tx : Transaction)
    (fee : Amount) : Prop where
  inputs : tx.input.map TxIn.previousOutput = selected.map outpoint
  fee_eq : spendFee X keys threshold a exhaust outs feeRate selected = some fee
  covered : valueOf outs + fee ≤ worth selected
  outputs : tx.output = outs ++ (changeOf X a (worth selected - valueOf outs - fee)).toList

/-- All entries are spent, and what the fee leaves of them is paid to the committee, if it is above
the limit of an output. -/
structure MovesAll (X : Library) (keys : List WeightedKey) (threshold : Power) (feeRate : FeeRate)
    (listed : List Utxo) (a : Address) (tx : Transaction) : Prop where
  spends : (tx.input.map TxIn.previousOutput).Perm (listed.map outpoint)
  pays : ∃ selected fee, selected.Perm listed ∧
    SpendsTo X keys threshold feeRate true a [] selected tx fee

omit [DecidableEq H] in
/-- What a spend does with the entries of an address: some of them are spent, or all. -/
theorem exists_spendsTo {keys : List WeightedKey} {threshold : Power} {a : Address}
    {unspent : List Utxo} {exhaust : Bool} {outs : List TxOut} {limit : Nat}
    (h : constructSpendUnsignedTransaction X keys threshold a unspent exhaust outs feeRate limit =
      .ok tx) :
    ∃ selected fee, selected.Subperm unspent ∧ (exhaust = true → selected.Perm unspent) ∧
      SpendsTo X keys threshold feeRate exhaust a outs selected tx fee := by
  have hinputs : ∀ selected : List Utxo,
      (selected.map spendInput).map TxIn.previousOutput = selected.map outpoint := by
    intro selected
    rw [List.map_map]
    rfl
  unfold constructSpendUnsignedTransaction at h
  cases exhaust with
  | true =>
    obtain ⟨-, -, fee, hfee, hcover, rfl⟩ := sweepTransaction_eq_ok.mp (if_pos rfl ▸ h)
    have hperm := sortUtxos_perm unspent
    have hworth : worth (sortUtxos unspent) = worth unspent := weigh_perm hperm
    refine ⟨sortUtxos unspent, fee, hperm.subperm, fun _ => hperm, hinputs _, ?_, ?_, ?_⟩
    · rw [spendFee, if_pos rfl, hperm.length_eq]
      exact hfee
    · rw [hworth]
      exact hcover
    · rw [hworth]
      rfl
  | false =>
    rw [if_neg Bool.false_ne_true] at h
    obtain ⟨amount, hamount, h⟩ := bind_eq_ok.mp h
    obtain ⟨⟨selected, change⟩, hselect, h⟩ := bind_eq_ok.mp h
    obtain ⟨-, rfl⟩ := sumAmounts_eq_ok.mp hamount
    have hsub := (covers_of_selectCoins hselect).1
    obtain ⟨-, -, -, -, fee, -, -, -, hfee, hle, rfl⟩ := selectCoins_eq_ok.mp hselect
    cases h
    refine ⟨selected, fee, hsub, by rintro ⟨⟩, hinputs _, ?_, hle, rfl⟩
    rw [spendFee, if_neg Bool.false_ne_true]
    exact hfee

section Spends

variable {keys : List WeightedKey} {threshold : Power} {exhaust : Bool} {a : Address}
  {outs : List TxOut} {selected : List Utxo} {fee : Amount}

omit [DecidableEq H] in
/-- No entry is spent twice. -/
theorem SpendsTo.nodup {unspent : List Utxo} (hdistinct : (unspent.map outpoint).Nodup)
    (hsub : selected.Subperm unspent)
    (h : SpendsTo X keys threshold feeRate exhaust a outs selected tx fee) :
    (tx.input.map TxIn.previousOutput).Nodup := by
  obtain ⟨t, hperm, hsub⟩ := hsub
  rw [h.inputs]
  exact ((hperm.map outpoint).nodup_iff).mp ((hsub.map outpoint).nodup hdistinct)

end Spends

theorem HandoverOf.movesAll {g : SubnetGenesisInfo} {s : SubnetState}
    (h : HandoverOf X db id listed feeRate p g s) :
    MovesAll X (whitelistKeys g) g.createSubnetMsg.minValidators feeRate listed
      s.committee.multisigAddress p.unsignedTx := by
  obtain ⟨selected, fee, -, hall, hspends⟩ :=
    exists_spendsTo (IpcCheckpointSubnetMsg.constructSpendPsbt_tx h.psbt)
  have hperm : selected.Perm listed := (hall rfl).trans (sortUtxos_perm _)
  refine ⟨?_, selected, fee, hperm, hspends⟩
  rw [hspends.inputs]
  exact hperm.map outpoint

/-- A transaction spends and pays what it does without its witnesses. -/
theorem same_of_stripped {u : Transaction} (h : tx.stripped = u) :
    tx.input.map TxIn.previousOutput = u.input.map TxIn.previousOutput ∧
      tx.output = u.output := by
  rw [← h]
  exact ⟨by simp [Transaction.stripped, Function.comp_def], rfl⟩

/-- The members' votes for an input: the entries of the whitelist whose signature is handed in. -/
def votes (g : SubnetGenesisInfo) (signatures : List (XOnlyPublicKey × List Signature)) (i : Nat) :
    Nat :=
  (g.createSubnetMsg.whitelist.filter
    (fun k => ((signaturesOf signatures k)[i]?).isSome)).length

theorem powerFor_whitelistKeys (g : SubnetGenesisInfo) (i : Nat) :
    powerFor (whitelistKeys g) signatures i = votes g signatures i := by
  have hones : ∀ l : List XOnlyPublicKey,
      ((l.map (fun k => (k, 1) : XOnlyPublicKey → WeightedKey)).map Prod.snd).sum = l.length := by
    intro l
    simp [Function.comp_def]
  rw [powerFor, whitelistKeys, List.filter_map, hones]
  rfl

/-- Enough entries of the whitelist sign every input, and no signature is wrong. -/
structure Voted (C : SigningCrate X H) (g : SubnetGenesisInfo) (p : Psbt)
    (signatures : List (XOnlyPublicKey × List Signature)) : Prop where
  small : g.createSubnetMsg.whitelist.length ≤ maxCommitteeSize
  verify : ∀ i < p.unsignedTx.input.length, ∀ k ∈ g.createSubnetMsg.whitelist, ∀ sig,
    (signaturesOf signatures k)[i]? = some sig →
      X.verifySchnorr sig (inputDigest C p i) k = true
  votes : ∀ i < p.unsignedTx.input.length,
    g.createSubnetMsg.minValidators ≤ votes g signatures i

omit [DecidableEq H] in
theorem carried_whitelistKeys {g : SubnetGenesisInfo} :
    Carried C (whitelistKeys g) g.createSubnetMsg.minValidators p signatures ↔
      Voted C g p signatures := by
  have hlength : (whitelistKeys g).length = g.createSubnetMsg.whitelist.length :=
    List.length_map _
  constructor
  · intro h
    refine ⟨hlength ▸ h.small, fun i hi k hk => ?_, fun i hi => ?_⟩
    · exact h.verify i hi (k, 1) (List.mem_map_of_mem hk)
    · exact powerFor_whitelistKeys g i ▸ h.power i hi
  · intro h
    refine ⟨hlength.symm ▸ h.small, fun i hi k hk => ?_, fun i hi => ?_⟩
    · obtain ⟨key, hkey, rfl⟩ := List.mem_map.mp hk
      exact h.verify i hi key hkey
    · rw [powerFor_whitelistKeys]
      exact h.votes i hi

/-- Whatever signatures a provider is handed for the handover, it submits a transaction exactly
when they are for keys of the whitelist and the fee passes. The transaction moves everything that
was listed to the committee, the network accepts it exactly when enough entries of the whitelist
sign and no signature is wrong, and the monitor passes it over. -/
theorem handover_moves_whitelist (laws : DisplayLaws X) (hC : SpendLaws C)
    (hreach : Reachable X db)
    (hgen : genBootstrapHandover C db validator id listed feeRate = .ok (p, signatures₀))
    (hgenesis : db'.getSubnetGenesisInfo X id = db.getSubnetGenesisInfo X id)
    (hsmall : ∀ g, db.getSubnetGenesisInfo X id = some g →
      g.createSubnetMsg.whitelist.length < 2 ^ 31)
    (hlisted : ∀ g a, db.getSubnetGenesisInfo X id = some g →
      createSubnetMultisigAddress X id (whitelistKeys g) g.createSubnetMsg.minValidators = .ok a →
        ∀ u ∈ listed, u.scriptPubkey = a.scriptPubkey) :
    ∃ g s, db.getSubnetGenesisInfo X id = some g ∧ db.getSubnetState X id = some s ∧
      ∀ signatures,
        ((∃ tx, finalizeBootstrapHandover C db' id p signatures = .ok tx) ↔
          (∀ a ∈ signatures, a.1 ∈ g.createSubnetMsg.whitelist) ∧
            ∃ t, id = .fromTxid20 t ∧ FeeAccepted C t (whitelistKeys g) p signatures) ∧
        ∀ tx, finalizeBootstrapHandover C db' id p signatures = .ok tx →
          MovesAll X (whitelistKeys g) g.createSubnetMsg.minValidators feeRate listed
            s.committee.multisigAddress tx ∧
          (∀ mature, Authorised C mature p.witnessUtxos tx ↔ Voted C g p signatures) ∧
          ((∀ a ∈ signatures, ∀ sig ∈ a.2, NoMessage sig.bytes) → ∀ cfg ctx db,
            processTransaction X cfg ctx tx db = (pure () : MonitorProc Unit) db) := by
  obtain ⟨-, g, s, -, hbuilt, -⟩ := genBootstrapHandover_inv hgen
  obtain ⟨t, rfl, -, hgood, -⟩ := (sound_of_reachable laws hreach).state laws hbuilt.state
  have hp := spendOf_constructSpendPsbt hbuilt.psbt
  have hsum : ((whitelistKeys g).map Prod.snd).sum < 2 ^ 31 := by
    simpa [whitelistKeys, Function.comp_def] using hsmall g hbuilt.genesis
  have hread : ∀ signatures, finalizeBootstrapHandover C db' (.fromTxid20 t) p signatures =
      finalizeWithSignatures C (.fromTxid20 t) (whitelistKeys g) g.createSubnetMsg.minValidators p
        signatures := by
    intro signatures
    rw [finalizeBootstrapHandover, readGenesis, hgenesis, hbuilt.genesis]
    rfl
  have hknown : ∀ signatures, Recognized (whitelistKeys g) signatures ↔
      ∀ a ∈ signatures, a.1 ∈ g.createSubnetMsg.whitelist := by
    intro signatures
    simp [Recognized, whitelistKeys, Function.comp_def]
  refine ⟨g, s, hbuilt.genesis, hbuilt.state, fun signatures => ⟨?_, fun tx htx => ?_⟩⟩
  · rw [hread, exists_finalized_iff hC hp, hknown]
    refine and_congr_right (fun _ => ⟨fun hfee => ⟨t, rfl, hfee⟩, ?_⟩)
    rintro ⟨u, hu, hfee⟩
    cases SubnetId.fromTxid20_injective hu
    exact hfee
  · rw [hread] at htx
    obtain ⟨block, hfin⟩ := finalizedFrom_of_eq_ok hp htx
    have hmoves := hbuilt.movesAll
    obtain ⟨hinputs, hout⟩ := same_of_stripped hfin.stripped
    obtain ⟨selected, fee, hperm, hspends⟩ := hmoves.pays
    have hmoved : SpendsTo X (whitelistKeys g) g.createSubnetMsg.minValidators feeRate true
        s.committee.multisigAddress [] selected tx fee :=
      ⟨hinputs.trans hspends.inputs, hspends.fee_eq, hspends.covered, hout.trans hspends.outputs⟩
    refine ⟨⟨hinputs ▸ hmoves.spends, selected, fee, hperm, hmoved⟩, ?_, fun hsigs cfg ctx db => ?_⟩
    · intro mature
      rw [authorised_iff_carried hp hfin hsum ?_, carried_whitelistKeys]
      intro u hu
      have hmem : u ∈ listed := (sortUtxos_perm listed).mem_iff.mp hu
      refine hlisted g _ hbuilt.genesis ?_ u hmem
      rw [createSubnetMultisigAddress, hp.script, ok_bind, SubnetId.txid20_fromTxid20, ok_bind]
      rfl
    · refine processTransaction_of_noData cfg ctx (plain_of_finalized hC hp hsum hfin hsigs) ?_ db
      obtain ⟨key, hkey⟩ : ∃ k, s.committee.multisigAddress.scriptPubkey = Address.p2trScript k :=
        ⟨_, congrArg Address.scriptPubkey hgood.derived.address_eq⟩
      have houtput := hmoved.outputs
      unfold Multisig.changeOf at houtput
      split_ifs at houtput
      · exact noData_of_p2tr (hkey ▸ houtput)
      · exact noData_of_nil houtput

end Moved

section Single

open Solo

/-- An output of the whitelist of the subnet. -/
def whitelistCoin : Utxo :=
  ⟨bytes32 31, 0, 1000000, ((createSubnetMultisigAddress stampLibrary (.fromTxid20 subnet)
    [(key, 1)] 1).toOption.map Address.scriptPubkey).getD []⟩

def soloHandover : Outcome RpcError (Psbt × List Signature) :=
  genBootstrapHandover stampCrate joinedDb (some key) (.fromTxid20 subnet) [whitelistCoin] 1000

/-- The only validator moves its collateral to the committee. -/
theorem handover_of_one : ∃ (p : Psbt) (sigs : List Signature) (s : SubnetState) (tx : Transaction),
    soloHandover = .ok (p, sigs) ∧
    joinedDb.getSubnetState stampLibrary (.fromTxid20 subnet) = some s ∧
    finalizeBootstrapHandover stampCrate joinedDb (.fromTxid20 subnet) p [(key, sigs)] = .ok tx ∧
    (∀ mature, Authorised stampCrate mature p.witnessUtxos tx) ∧
    MovesAll stampLibrary [(key, 1)] 1 1000 [whitelistCoin] s.committee.multisigAddress tx := by
  obtain ⟨⟨p, sigs⟩, hgen⟩ := exists_ok_of_isSome
    (by decide +kernel : soloHandover.toOption.isSome = true)
  have hlist : (joinedDb.getSubnetGenesisInfo stampLibrary (.fromTxid20 subnet)).all (fun g =>
      decide (g.createSubnetMsg.whitelist = [key] ∧ g.createSubnetMsg.minValidators = 1)) =
        true := by
    decide +kernel
  have hone : ∀ g, joinedDb.getSubnetGenesisInfo stampLibrary (.fromTxid20 subnet) = some g →
      g.createSubnetMsg.whitelist = [key] ∧ g.createSubnetMsg.minValidators = 1 := by
    intro g hg
    rw [hg, Option.all_some, decide_eq_true_iff] at hlist
    exact hlist
  have hcoin : ∀ g a, joinedDb.getSubnetGenesisInfo stampLibrary (.fromTxid20 subnet) = some g →
      createSubnetMultisigAddress stampLibrary (.fromTxid20 subnet) (whitelistKeys g)
        g.createSubnetMsg.minValidators = .ok a →
      ∀ u ∈ [whitelistCoin], u.scriptPubkey = a.scriptPubkey := by
    intro g a hg ha u hu
    obtain ⟨hwhite, hmin⟩ := hone g hg
    rw [whitelistKeys, hwhite, hmin] at ha
    rw [List.mem_singleton.mp hu, whitelistCoin]
    have hsome := toOption_eq_some.mpr ha
    rw [List.map_singleton] at hsome
    rw [hsome]
    rfl
  have hsmall : ∀ g, joinedDb.getSubnetGenesisInfo stampLibrary (.fromTxid20 subnet) = some g →
      g.createSubnetMsg.whitelist.length < 2 ^ 31 := by
    intro g hg
    rw [(hone g hg).1]
    decide
  obtain ⟨g, s, hg, hs, hall⟩ := handover_moves_whitelist displayLaws_stamp spendLaws_stamp
    (reachable_run _) hgen rfl hsmall hcoin
  obtain ⟨hfinal, hmoves⟩ := hall [(key, sigs)]
  obtain ⟨hwhite, hmin⟩ := hone g hg
  have hknown : ∀ a ∈ [(key, sigs)], a.1 ∈ g.createSubnetMsg.whitelist := by
    intro a ha
    rw [List.mem_singleton.mp ha, hwhite]
    exact List.mem_singleton_self key
  obtain ⟨tx, htx⟩ := hfinal.mpr ⟨hknown, subnet, rfl, fun _ _ => rfl⟩
  obtain ⟨hmoved, hspends, -⟩ := hmoves tx htx
  rw [whitelistKeys, hwhite, hmin] at hmoved
  refine ⟨p, sigs, s, tx, hgen, hs, htx, fun mature => (hspends mature).mpr ?_, hmoved⟩
  obtain ⟨sk, g', s', hsk, hbuilt, hsigs⟩ := genBootstrapHandover_inv hgen
  cases hsk
  obtain rfl : g = g' := Option.some.inj (hg.symm.trans hbuilt.genesis)
  have hsigned : ∀ a ∈ [(key, sigs)], SignedSet stampCrate p a := by
    intro a ha
    rw [List.mem_singleton.mp ha]
    exact ⟨key, rfl, hsigs⟩
  refine carried_whitelistKeys.mp ((carried_of_signed schnorrLaws_stamp
    (spendOf_constructSpendPsbt hbuilt.psbt) hsigned).mpr ?_)
  have hpower : [(key, 1)].length ≤ maxCommitteeSize ∧ 1 ≤ signersPower [(key, 1)] {key} := by
    decide
  rw [whitelistKeys, hwhite, hmin]
  exact hpower

end Single

end Provider
