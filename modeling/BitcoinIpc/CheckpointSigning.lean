import BitcoinIpc.Signing
import BitcoinIpc.RequestAcceptance
import BitcoinIpc.TransferDelivery

/-!
# The signatures of a checkpoint

From the answers of the members' providers to the transaction that the monitor
reads. The members and the threshold are determined by the script, so providers
that return the same transaction to sign agree on who signs it.
-/

namespace MultisigSpend

open Faults Bytes Chain Messages Crates Multisig

theorem magnitude_scriptNumber {n : Nat} (h : n < 2 ^ 31) :
    Tapscript.magnitude (scriptNumber 9 n) = n := by
  rw [scriptNumber_eq]
  exact (Tapscript.magnitude_encodeMagnitude 9 (by omega)).1

/-- A number is determined by the instruction that pushes it. -/
theorem pushIntInstruction_inj {m n : Nat} (hm : m < 2 ^ 31) (hn : n < 2 ^ 31)
    (h : pushIntInstruction m = pushIntInstruction n) : m = n := by
  have hitem : ∀ k < 2 ^ 31, pushIntInstruction k = if 0 < k ∧ k ≤ 16
      then .op (UInt8.ofNat (0x50 + k)) else .pushBytes (scriptNumber 9 k) := by
    intro k _
    rw [pushIntInstruction]
    split_ifs with h0 h16 hsmall hsmall
    · omega
    · rw [h0]
      rfl
    · rfl
    · omega
    · omega
    · rfl
  rw [hitem m hm, hitem n hn] at h
  split_ifs at h with hsm hsn hsn
  · have hcode := congrArg UInt8.toNat (Chain.Instruction.op.inj h)
    rw [UInt8.toNat_ofNat', UInt8.toNat_ofNat'] at hcode
    omega
  · have hnum := congrArg Tapscript.magnitude (Chain.Instruction.pushBytes.inj h)
    rwa [magnitude_scriptNumber hm, magnitude_scriptNumber hn] at hnum

theorem memberInstructions_ne_end {k : WeightedKey} {n : Nat}
    {rest rest' : List Chain.Instruction} :
    memberInstructions k ++ rest ≠ pushIntInstruction n :: rest' := by
  intro h
  have hhead : Chain.Instruction.op opSwap = pushIntInstruction n := (List.cons.inj h).1
  rw [pushIntInstruction] at hhead
  split_ifs at hhead with h0 h16
  have hcode := congrArg UInt8.toNat (Chain.Instruction.op.inj hhead)
  rw [UInt8.toNat_ofNat'] at hcode
  have hswap : opSwap.toNat = 0x7c := rfl
  omega

/-- The members and the threshold are read off the instructions of a script. -/
theorem scriptInstructions_inj {ks js : List WeightedKey} {m n : Nat}
    (hks : ∀ k ∈ ks, k.2 < 2 ^ 31) (hjs : ∀ j ∈ js, j.2 < 2 ^ 31) (hm : m < 2 ^ 31)
    (hn : n < 2 ^ 31)
    (h : ks.flatMap memberInstructions ++ [pushIntInstruction m, .op opGreaterThanOrEqual] =
      js.flatMap memberInstructions ++ [pushIntInstruction n, .op opGreaterThanOrEqual]) :
    ks = js ∧ m = n := by
  induction ks generalizing js with
  | nil =>
    cases js with
    | nil => exact ⟨rfl, pushIntInstruction_inj hm hn (List.cons.inj h).1⟩
    | cons j js =>
      rw [List.flatMap_cons, List.append_assoc] at h
      exact absurd h.symm memberInstructions_ne_end
  | cons k ks ih =>
    cases js with
    | nil =>
      rw [List.flatMap_cons, List.append_assoc] at h
      exact absurd h memberInstructions_ne_end
    | cons j js =>
      rw [List.flatMap_cons, List.flatMap_cons, List.append_assoc, List.append_assoc] at h
      obtain ⟨hhead, htail⟩ := List.append_inj h rfl
      have hkey : k.1.bytes = j.1.bytes := by
        have hpush := (List.cons.inj (List.cons.inj hhead).2).1
        exact Chain.Instruction.pushBytes.inj hpush
      have hpower : pushIntInstruction k.2 = pushIntInstruction j.2 := by
        have hrest := (List.cons.inj (List.cons.inj (List.cons.inj (List.cons.inj hhead).2).2).2).2
        exact (List.cons.inj hrest).1
      have hkj : k = j := Prod.ext (FixedBytes.ext_bytes hkey) (pushIntInstruction_inj
        (hks k List.mem_cons_self) (hjs j List.mem_cons_self) hpower)
      obtain ⟨hrest, hmn⟩ := ih (fun k hk => hks k (List.mem_cons_of_mem _ hk))
        (fun j hj => hjs j (List.mem_cons_of_mem _ hj)) htail
      exact ⟨by rw [hkj, hrest], hmn⟩

/-- Committees with the same script have the same members with the same powers, and the same
threshold. -/
theorem members_of_script {keys keys' : List WeightedKey} {threshold threshold' : Power}
    {script : Script} (h : createMultisigScript keys threshold = .ok script)
    (h' : createMultisigScript keys' threshold' = .ok script)
    (hsum : (keys.map Prod.snd).sum < 2 ^ 31) (hsum' : (keys'.map Prod.snd).sum < 2 ^ 31) :
    keys.Perm keys' ∧ threshold = threshold' := by
  have hle := (createMultisigScript_eq_ok.mp h).2.1
  have hle' := (createMultisigScript_eq_ok.mp h').2.1
  have hsmall : ∀ {ks : List WeightedKey}, (ks.map Prod.snd).sum < 2 ^ 31 →
      ∀ k ∈ sortCommitteeKeys ks, k.2 < 2 ^ 31 := by
    intro ks hks k hk
    have hmem : k.2 ∈ ks.map Prod.snd :=
      List.mem_map_of_mem ((perm_sortCommitteeKeys ks).mem_iff.mp hk)
    exact lt_of_le_of_lt (List.single_le_sum (fun _ _ => Nat.zero_le _) _ hmem) hks
  have hread : (scriptInstructions (sortCommitteeKeys keys) threshold) =
      scriptInstructions (sortCommitteeKeys keys') threshold' := by
    have hone := parseScript_of_reads (reads_of_script h hsum)
    rw [parseScript_of_reads (reads_of_script h' hsum')] at hone
    refine (List.map_injective_iff.mpr ?_) (Option.some.inj hone).symm
    rintro (a | a) (b | b) hab <;> cases hab <;> rfl
  rw [scriptInstructions, scriptInstructions, List.cons_append, List.cons_append] at hread
  obtain ⟨hsorted, heq⟩ := scriptInstructions_inj (hsmall hsum) (hsmall hsum')
    (lt_of_le_of_lt hle hsum) (lt_of_le_of_lt hle' hsum') (List.cons.inj hread).2
  refine ⟨?_, heq⟩
  exact (perm_sortCommitteeKeys keys).symm.trans (hsorted ▸ perm_sortCommitteeKeys keys')

/-- A script that has an instruction other than the pushes of a message is no message. -/
theorem concatenatePushes_op {l : List Chain.Instruction} {code : UInt8} (h : .op code ∈ l)
    (hdrop : code ≠ opDrop) (htrue : code ≠ opTrue) :
    ∃ e, concatenatePushes (l.map .ok) = .error e := by
  induction l with
  | nil => cases h
  | cons i rest ih =>
    rcases List.mem_cons.mp h with rfl | hrest
    · exact ⟨_, if_neg (not_or.mpr ⟨hdrop, htrue⟩)⟩
    · obtain ⟨e, he⟩ := ih hrest
      cases i with
      | pushBytes data =>
        refine ⟨e, ?_⟩
        rw [List.map_cons, concatenatePushes, he]
        rfl
      | op o =>
        rw [List.map_cons, concatenatePushes]
        split_ifs
        · exact ⟨e, he⟩
        · exact ⟨_, rfl⟩

theorem instructions_of_reads {s : Script} {is : List Chain.Instruction} (h : Reads s is) :
    instructions s = is.map .ok := by
  have hrest := h.2 (s.length - is.length) []
  have hend : ∀ fuel, readInstructions false fuel [] = [] := by
    intro fuel
    cases fuel <;> rfl
  rw [Nat.add_sub_cancel' h.1, List.append_nil, hend, List.append_nil] at hrest
  exact hrest

theorem concatenateOpPushData_script {keys : List WeightedKey} {threshold : Power}
    {script : Script} (hscript : createMultisigScript keys threshold = .ok script)
    (hsum : (keys.map Prod.snd).sum < 2 ^ 31) :
    ∃ e, concatenateOpPushData script = .error e := by
  have hread := instructions_of_reads (reads_of_script hscript hsum)
  rw [concatenateOpPushData, hread]
  have hlast : Chain.Instruction.op opGreaterThanOrEqual ∈
      scriptInstructions (sortCommitteeKeys keys) threshold := by
    simp [scriptInstructions]
  exact concatenatePushes_op hlast (by decide) (by decide)

end MultisigSpend

namespace Provider

open Faults Bytes Chain Messages Crates Multisig MultisigSpend Db Monitor
open Tapscript (Item)

section Answers

variable {X : Library} {H : Type} [DecidableEq H] {C : SigningCrate X H} {t : Txid20}
  {keys : List WeightedKey} {threshold : Power} {unspent : List Utxo} {p : Psbt} {tx : Transaction}
  {signatures : List (XOnlyPublicKey × List Signature)}

/-- An item of a witness in which the monitor finds no message. -/
def NoMessage (item : Item) : Prop :=
  ∀ data, concatenateOpPushData item = .ok data → IpcTag.fromBytes (data.take ipcTagLength) = none

instance (item : Item) : Decidable (NoMessage item) :=
  match h : concatenateOpPushData item with
  | .ok data => decidable_of_iff (IpcTag.fromBytes (data.take ipcTagLength) = none) (by
      simp [NoMessage, h])
  | .error _ => .isTrue (by
      intro data hdata
      rw [h] at hdata
      cases hdata)

/-- The set that is kept for a key is one that was handed in for it, if there is any. -/
theorem signaturesOf_cases (signatures : List (XOnlyPublicKey × List Signature))
    (key : XOnlyPublicKey) :
    (∃ a ∈ signatures, a.1 = key ∧ signaturesOf signatures key = a.2) ∨
      (key ∉ signatures.map Prod.fst ∧ signaturesOf signatures key = []) := by
  rw [signaturesOf]
  cases hfound : signatures.reverse.lookup key with
  | none =>
    refine Or.inr ⟨fun hmem => ?_, rfl⟩
    obtain ⟨a, ha, rfl⟩ := List.mem_map.mp hmem
    have hne := List.lookup_eq_none_iff.mp hfound a (List.mem_reverse.mpr ha)
    simp at hne
  | some set =>
    obtain ⟨l₁, l₂, heq, -⟩ := List.lookup_eq_some_iff.mp hfound
    have hmem : (key, set) ∈ signatures.reverse := by
      rw [heq]
      exact List.mem_append_right _ List.mem_cons_self
    exact Or.inl ⟨(key, set), List.mem_reverse.mp hmem, rfl, rfl⟩

/-- The monitor finds no message in the witnesses of a finalized spend. -/
theorem plain_of_finalized {block : List UInt8} (hC : SpendLaws C)
    (hp : SpendOf keys threshold unspent p) (hsum : (keys.map Prod.snd).sum < 2 ^ 31)
    (hfin : FinalizedFrom C t keys p signatures block tx)
    (hsigs : ∀ a ∈ signatures, ∀ sig ∈ a.2, NoMessage sig.bytes) : Plain tx := by
  intro input hinput item hitem
  obtain ⟨i, hi⟩ := List.getElem?_of_mem hinput
  obtain ⟨hlt, sigs, hheld, hwitness⟩ := hfin.input i input hi
  obtain ⟨sigs', hheld', hlook⟩ : ∃ sigs', (handedIn C keys p signatures)[i]? = some sigs' ∧ _ :=
    lookup_handedIn hlt
  obtain rfl : sigs = sigs' := Option.some.inj (hheld.symm.trans hheld')
  rw [hwitness, inputWitness, List.mem_append] at hitem
  rcases hitem with hmember | hlast
  · obtain ⟨k, hk, rfl⟩ := List.mem_map.mp hmember
    have hk : k ∈ keys := (perm_sortCommitteeKeys keys).mem_iff.mp (List.mem_reverse.mp hk)
    have hsig := hlook k hk
    cases hget : (signaturesOf signatures k.1)[i]? with
    | none =>
      rw [hget] at hsig
      rw [hsig]
      intro data hdata
      cases hdata
      decide
    | some sig =>
      rw [hget] at hsig
      rw [hsig]
      have hmem := List.mem_of_getElem? hget
      rcases signaturesOf_cases signatures k.1 with ⟨a, ha, -, hset⟩ | ⟨-, hset⟩
      · exact hsigs a ha sig (hset ▸ hmem)
      · rw [hset] at hmem
        cases hmem
  · intro data hdata
    rcases List.mem_cons.mp hlast with rfl | hlast
    · obtain ⟨e, he⟩ := concatenateOpPushData_script hp.script hsum
      rw [he] at hdata
      cases hdata
    · obtain rfl := List.mem_singleton.mp hlast
      obtain ⟨b, rest, rfl, hb⟩ := hC.controlBlock_version _ _ _ hfin.revealed
      rcases hb with rfl | rfl <;> cases hdata

/-- The checks of the crate on the fee let the witnesses that are built pass. -/
def FeeAccepted (C : SigningCrate X H) (t : Txid20) (keys : List WeightedKey) (p : Psbt)
    (signatures : List (XOnlyPublicKey × List Signature)) : Prop :=
  ∀ block, C.controlBlock (committeeTree t p.witnessScript) p.witnessScript = some block →
    C.feeError p ((handedIn C keys p signatures).map (inputWitness C.toSpendCrate
      (sortCommitteeKeys keys) p.witnessScript block)) = none

theorem exists_finalized_iff (hC : SpendLaws C) (hp : SpendOf keys threshold unspent p) :
    (∃ tx, finalizeWithSignatures C (.fromTxid20 t) keys threshold p signatures = .ok tx) ↔
      Recognized keys signatures ∧ FeeAccepted C t keys p signatures := by
  obtain ⟨block, hblock⟩ : ∃ block, C.controlBlock (committeeTree t p.witnessScript)
    p.witnessScript = some block := hC.controlBlock_leaf p.witnessScript _
  constructor
  · rintro ⟨tx, htx⟩
    obtain ⟨hall, block', hblock', hextract⟩ := (finalizeWithSignatures_eq_ok hp).mp htx
    refine ⟨hall, fun b hb => ?_⟩
    obtain rfl : block' = b := Option.some.inj (hblock'.symm.trans hb)
    exact (extractTx_eq_ok.mp hextract).1
  · rintro ⟨hall, hfee⟩
    exact ⟨_, (finalizeWithSignatures_eq_ok hp).mpr
      ⟨hall, block, hblock, extractTx_eq_ok.mpr ⟨hfee block hblock, rfl⟩⟩⟩

/-- The total power of a stored committee is a number of the script. -/
theorem sum_lt_of_good {c : SubnetCommittee} (h : Good X t c) :
    (c.validatorWeightedKeys.map Prod.snd).sum < 2 ^ 31 := by
  have hviable := h.derived.viable.2
  have hsum : (c.validatorWeightedKeys.map Prod.snd).sum = powerSum c.validators :=
    congrArg List.sum (map_snd_weightedKeys c.validators)
  have hbound : powerBound = 2 ^ 32 := rfl
  have hlt : powerSum c.validators < 2 ^ 31 := by omega
  rw [hsum]
  exact hlt

/-- The address of a stored committee is behind the tree of its script. -/
theorem address_of_good {c : SubnetCommittee} {script : Script} (h : Good X t c)
    (hscript : createMultisigScript c.validatorWeightedKeys c.threshold = .ok script) :
    c.multisigAddress = Address.p2tr (X.taprootOutputKey (committeeTree t script)) := by
  have hsame := createMultisigScript_of_viable h.derived.viable
  rw [← h.derived.threshold_eq] at hsame
  obtain rfl : scriptOf c.validators = script := Except.ok.inj (hsame.symm.trans hscript)
  exact h.derived.address_eq

theorem finalizeCheckpointPsbt_eq_ok {db : HeedDb} {id : SubnetId} {s : SubnetState}
    {batch : Option Transaction} {txs : List Transaction} (hs : db.getSubnetState X id = some s) :
    finalizeCheckpointPsbt C db id p signatures batch = .ok txs ↔ ∃ tx,
      finalizeWithSignatures C id s.committee.validatorWeightedKeys s.committee.threshold p
        signatures = .ok tx ∧ txs = tx :: batch.toList := by
  constructor
  · intro h
    obtain ⟨s', hs', h⟩ := bind_eq_ok.mp h
    obtain rfl : s = s' := Option.some.inj (hs.symm.trans (okOr_eq_ok.mp hs'))
    obtain ⟨tx, htx, h⟩ := bind_eq_ok.mp h
    exact ⟨tx, htx, (Except.ok.inj h).symm⟩
  · rintro ⟨tx, htx, rfl⟩
    exact bind_eq_ok.mpr ⟨s, okOr_eq_ok.mpr hs, bind_eq_ok.mpr ⟨tx, htx, rfl⟩⟩

variable {db db' : HeedDb} {σ τ : MapOrders} {validator : XOnlyPublicKey} {r : CheckpointRequest}
  {feeRate : FeeRate} {g : GenCheckpointPsbt} {s s' : SubnetState}

/-- What a checkpoint request answers is a spend of the committee. -/
theorem spendOf_checkpoint (hgen : genCheckpointPsbt X σ τ db validator r unspent feeRate = .ok g)
    (hs : db.getSubnetState X r.subnetId = some s) :
    SpendOf s.committee.validatorWeightedKeys s.committee.threshold unspent g.unsignedPsbt := by
  obtain ⟨s₁, next, hgen⟩ := genCheckpointPsbt_inv hgen
  obtain rfl : s = s₁ := Option.some.inj (hs.symm.trans hgen.found)
  obtain ⟨-, outs, -, hpsbt⟩ := IpcCheckpointSubnetMsg.toCheckpointPsbt_eq_ok_iff.mp hgen.psbt
  exact spendOf_constructSpendPsbt hpsbt

/-- Whatever signatures are handed in for a spend of the committee: a transaction is submitted
exactly when they are the members' and the fee passes. It is the one that was signed, it has no
message in its witnesses, and it is accepted exactly when the signatures carry it. -/
theorem finalized_spend_iff (laws : DisplayLaws X) (hC : SpendLaws C) (hreach : Reachable X db)
    {id : SubnetId} (hs : db.getSubnetState X id = some s)
    (hs' : db'.getSubnetState X id = some s') (hsame : s'.committee = s.committee)
    (hp : SpendOf s.committee.validatorWeightedKeys s.committee.threshold unspent p)
    (hunspent : ∀ u ∈ unspent, u.scriptPubkey = s.committee.multisigAddress.scriptPubkey)
    (signatures : List (XOnlyPublicKey × List Signature)) (batch : Option Transaction) :
    ((∃ txs, finalizeCheckpointPsbt C db' id p signatures batch = .ok txs) ↔
      Recognized s.committee.validatorWeightedKeys signatures ∧
      ∃ t, id = .fromTxid20 t ∧
        FeeAccepted C t s.committee.validatorWeightedKeys p signatures) ∧
    ∀ txs, finalizeCheckpointPsbt C db' id p signatures batch = .ok txs →
      ∃ tx, txs = tx :: batch.toList ∧ tx.stripped = p.unsignedTx ∧
        (∀ mature, Authorised C mature p.witnessUtxos tx ↔
          Carried C s.committee.validatorWeightedKeys s.committee.threshold p signatures) ∧
        ((∀ a ∈ signatures, ∀ sig ∈ a.2, NoMessage sig.bytes) → Plain tx) := by
  obtain ⟨t, ht, -, hgood, -⟩ := (sound_of_reachable laws hreach).state laws hs
  have hsum := sum_lt_of_good hgood
  constructor
  · have hiff : (∃ tx, finalizeWithSignatures C (.fromTxid20 t) _ _ _ signatures = .ok tx) ↔ _ :=
      exists_finalized_iff hC hp
    constructor
    · rintro ⟨txs, hfinal⟩
      obtain ⟨tx, htx, -⟩ := (finalizeCheckpointPsbt_eq_ok hs').mp hfinal
      rw [hsame, ht] at htx
      obtain ⟨hall, hfee⟩ := hiff.mp ⟨tx, htx⟩
      exact ⟨hall, t, ht, hfee⟩
    · rintro ⟨hall, u, hu, hfee⟩
      obtain rfl : t = u := SubnetId.fromTxid20_injective (ht.symm.trans hu)
      obtain ⟨tx, htx⟩ := hiff.mpr ⟨hall, hfee⟩
      refine ⟨_, (finalizeCheckpointPsbt_eq_ok hs').mpr ⟨tx, ?_, rfl⟩⟩
      rw [hsame, ht]
      exact htx
  · intro txs hfinal
    obtain ⟨tx, htx, rfl⟩ := (finalizeCheckpointPsbt_eq_ok hs').mp hfinal
    rw [hsame, ht] at htx
    obtain ⟨block, hfin⟩ := finalizedFrom_of_eq_ok hp htx
    refine ⟨tx, rfl, hfin.stripped, fun mature => ?_, plain_of_finalized hC hp hsum hfin⟩
    refine authorised_iff_carried hp hfin hsum (fun u hu => ?_)
    rw [hunspent u hu, address_of_good hgood hp.script]

/-- Whatever signatures a provider of the same committee is handed for a checkpoint, it submits a
transaction exactly when they are the members' and the fee passes, and that transaction is the
one that was signed. The network accepts it exactly when the signatures carry it. -/
theorem finalized_checkpoint_authorised_iff (laws : DisplayLaws X) (hC : SpendLaws C)
    (hreach : Reachable X db)
    (hgen : genCheckpointPsbt X σ τ db validator r unspent feeRate = .ok g)
    (hs : db.getSubnetState X r.subnetId = some s) (hs' : db'.getSubnetState X r.subnetId = some s')
    (hsame : s'.committee = s.committee)
    (hunspent : ∀ u ∈ unspent, u.scriptPubkey = s.committee.multisigAddress.scriptPubkey)
    (signatures : List (XOnlyPublicKey × List Signature)) (batch : Option Transaction) :
    ((∃ txs, finalizeCheckpointPsbt C db' r.subnetId g.unsignedPsbt signatures batch = .ok txs) ↔
      Recognized s.committee.validatorWeightedKeys signatures ∧
      ∃ t, r.subnetId = .fromTxid20 t ∧
        FeeAccepted C t s.committee.validatorWeightedKeys g.unsignedPsbt signatures) ∧
    ∀ txs, finalizeCheckpointPsbt C db' r.subnetId g.unsignedPsbt signatures batch = .ok txs →
      ∃ tx, txs = tx :: batch.toList ∧ tx.stripped = g.unsignedPsbt.unsignedTx ∧
        (∀ mature, Authorised C mature g.unsignedPsbt.witnessUtxos tx ↔
          Carried C s.committee.validatorWeightedKeys s.committee.threshold g.unsignedPsbt
            signatures) := by
  obtain ⟨hexists, hall⟩ := finalized_spend_iff laws hC hreach hs hs' hsame
    (spendOf_checkpoint hgen hs) hunspent signatures batch
  refine ⟨hexists, fun txs htxs => ?_⟩
  obtain ⟨tx, htx, hstripped, hspends, -⟩ := hall txs htxs
  exact ⟨tx, htx, hstripped, hspends⟩

omit [DecidableEq H] in
theorem genSignedCheckpointPsbt_eq_ok {sk : X.SecretKey} {sigs : List Signature} :
    genSignedCheckpointPsbt C σ τ db (some sk) r unspent feeRate = .ok (g, sigs) ↔
      genCheckpointPsbt X σ τ db (X.xOnlyPublicKey sk) r unspent feeRate = .ok g ∧
        signSpendPsbt C g.unsignedPsbt sk = .ok sigs := by
  constructor
  · intro h
    obtain ⟨sk', hsk, h⟩ := bind_eq_ok.mp h
    obtain rfl : sk = sk' := Option.some.inj (okOr_eq_ok.mp hsk)
    obtain ⟨g', hg, h⟩ := bind_eq_ok.mp h
    obtain ⟨sigs', hsigs, h⟩ := bind_eq_ok.mp h
    cases h
    exact ⟨hg, mapErr_eq_ok.mp hsigs⟩
  · rintro ⟨hg, hsigs⟩
    exact bind_eq_ok.mpr ⟨sk, rfl, bind_eq_ok.mpr ⟨g, hg, bind_eq_ok.mpr
      ⟨sigs, mapErr_eq_ok.mpr hsigs, rfl⟩⟩⟩

/-- A set holds the signatures of all inputs with the secret key behind its key. -/
def SignedSet (C : SigningCrate X H) (p : Psbt) (a : XOnlyPublicKey × List Signature) : Prop :=
  ∃ sk, a.1 = X.xOnlyPublicKey sk ∧ signSpendPsbt C p sk = .ok a.2

/-- What a provider answers to the request for a validator that it is configured with: the key of
the validator and its signatures of the transaction. -/
def Answers (C : SigningCrate X H) (r : CheckpointRequest) (p : Psbt)
    (a : XOnlyPublicKey × List Signature) : Prop :=
  ∃ db σ τ sk unspent feeRate g, Reachable X db ∧
    genSignedCheckpointPsbt C σ τ db (some sk) r unspent feeRate = .ok (g, a.2) ∧
    g.unsignedPsbt = p ∧ a.1 = X.xOnlyPublicKey sk

omit [DecidableEq H] in
theorem Answers.signed {a : XOnlyPublicKey × List Signature} (h : Answers C r p a) :
    SignedSet C p a := by
  obtain ⟨db, σ, τ, sk, unspent, feeRate, g, -, hgen, rfl, hkey⟩ := h
  exact ⟨sk, hkey, (genSignedCheckpointPsbt_eq_ok.mp hgen).2⟩

omit [DecidableEq H] in
/-- Who answers is a member of the committee whose transaction it signs. -/
theorem Answers.member {a : XOnlyPublicKey × List Signature} (laws : DisplayLaws X)
    (h : Answers C r p a) (hp : SpendOf keys threshold unspent p)
    (hsum : (keys.map Prod.snd).sum < 2 ^ 31) : a.1 ∈ keys.map Prod.fst := by
  obtain ⟨db, σ, τ, sk, unspent', feeRate, g, hreach, hgen, rfl, hkey⟩ := h
  have hg := (genSignedCheckpointPsbt_eq_ok.mp hgen).1
  obtain ⟨_, -, hmember⟩ := bind_eq_ok.mp hg
  obtain ⟨s, hs, hmember⟩ := bind_eq_ok.mp hmember
  obtain ⟨_, hvalidator, -⟩ := bind_eq_ok.mp hmember
  have hs := okOr_eq_ok.mp hs
  have hp' := spendOf_checkpoint hg hs
  obtain ⟨u, -, -, hgood, -⟩ := (sound_of_reachable laws hreach).state laws hs
  have hperm := (members_of_script hp'.script hp.script (sum_lt_of_good hgood) hsum).1
  obtain ⟨v, hv, hkeyv⟩ := SubnetCommittee.isValidator_iff.mp (ensure_eq_ok.mp hvalidator)
  have hmem : (v.pubkey, v.power) ∈ s.committee.validatorWeightedKeys :=
    List.mem_map.mpr ⟨v, hv, rfl⟩
  refine List.mem_map.mpr ⟨(v.pubkey, v.power), hperm.mem_iff.mp hmem, ?_⟩
  rw [hkey]
  exact hkeyv

omit [DecidableEq H] in
/-- Sets that are signed carry a spend exactly when the power of their members does. -/
theorem carried_of_signed (hS : SchnorrLaws X) (hp : SpendOf keys threshold unspent p)
    (hall : ∀ a ∈ signatures, SignedSet C p a) :
    Carried C keys threshold p signatures ↔ keys.length ≤ maxCommitteeSize ∧
      threshold ≤ signersPower keys (signatures.map Prod.fst).toFinset := by
  have hset : ∀ key, (key ∈ signatures.map Prod.fst ∧ ∀ i < p.unsignedTx.input.length, ∃ sig,
        (signaturesOf signatures key)[i]? = some sig ∧
          X.verifySchnorr sig (inputDigest C p i) key = true) ∨
      (key ∉ signatures.map Prod.fst ∧ signaturesOf signatures key = []) := by
    intro key
    rcases signaturesOf_cases signatures key with ⟨a, ha, rfl, hkept⟩ | hnone
    · refine Or.inl ⟨List.mem_map_of_mem ha, fun i hi => ?_⟩
      obtain ⟨sk, hkey, hsigned⟩ := hall a ha
      have hsigs := ((signSpendPsbt_eq_ok C).mp hsigned).2
      refine ⟨X.signSchnorr sk (inputDigest C p i), ?_, ?_⟩
      · simp [hkept, hsigs, hi]
      · rw [hkey]
        exact hS.complete sk _
    · exact Or.inr hnone
  have hpower : ∀ i < p.unsignedTx.input.length, powerFor keys signatures i =
      signersPower keys (signatures.map Prod.fst).toFinset := by
    intro i hi
    have hfilter : keys.filter (fun k => ((signaturesOf signatures k.1)[i]?).isSome) =
        keys.filter (fun k => k.1 ∈ (signatures.map Prod.fst).toFinset) := by
      refine List.filter_congr (fun k _ => ?_)
      rcases hset k.1 with ⟨hmem, hsigned⟩ | ⟨hnot, hempty⟩
      · obtain ⟨sig, hsig, -⟩ := hsigned i hi
        simp [hsig, hmem]
      · simp [hempty, hnot]
    rw [powerFor, hfilter, signersPower]
  have hpos : 0 < p.unsignedTx.input.length := List.length_pos_iff.mpr hp.nonempty
  constructor
  · intro h
    exact ⟨h.small, hpower 0 hpos ▸ h.power 0 hpos⟩
  · rintro ⟨hsmall, hreached⟩
    refine ⟨hsmall, fun i hi k _ sig hsig => ?_, fun i hi => (hpower i hi).symm ▸ hreached⟩
    rcases hset k.1 with ⟨-, hsigned⟩ | ⟨-, hempty⟩
    · obtain ⟨sig', hsig', hverify⟩ := hsigned i hi
      obtain rfl : sig = sig' := Option.some.inj (hsig.symm.trans hsig')
      exact hverify
    · rw [hempty] at hsig
      cases hsig

/-- The members' providers that return the same checkpoint for a request sign it, and the answers
are finalized for the same committee. The transaction that is submitted has the id of the one
that was signed. The network accepts it exactly when the members who answered have the power, and
the monitor takes it as a checkpoint exactly when it is readable and its number is known. -/
theorem signed_checkpoint_taken_iff (laws : DisplayLaws X) (hX : TransactionLaws X)
    (hS : SchnorrLaws X) (hC : SpendLaws C) (hreach : Reachable X db) (hreach' : Reachable X db')
    (cfg : Config) (ctx : BlockContext)
    (hgen : genCheckpointPsbt X σ τ db validator r unspent feeRate = .ok g)
    (hs : db.getSubnetState X r.subnetId = some s) (hs' : db'.getSubnetState X r.subnetId = some s')
    (hsame : s'.committee = s.committee)
    (hunspent : ∀ u ∈ unspent, u.scriptPubkey = s.committee.multisigAddress.scriptPubkey)
    (hheight : r.checkpointHeight < 2 ^ 64)
    (hnumber : r.nextCommitteeConfigurationNumber < 2 ^ 64)
    (hall : ∀ a ∈ signatures, Answers C r g.unsignedPsbt a)
    (hsigs : ∀ a ∈ signatures, ∀ sig ∈ a.2, NoMessage sig.bytes)
    (hfee : ∀ witnesses, C.feeError g.unsignedPsbt witnesses = none) :
    ∃ tx next, plannedCheckpoint X db r unspent = .ok (g.msg, next) ∧
      finalizeCheckpointPsbt C db' r.subnetId g.unsignedPsbt signatures g.batchTransferTx =
        .ok (tx :: g.batchTransferTx.toList) ∧
      X.computeTxid tx = X.computeTxid g.unsignedPsbt.unsignedTx ∧
      (∀ mature, Authorised C mature g.unsignedPsbt.witnessUtxos tx ↔
        s.committee.validators.length ≤ maxCommitteeSize ∧ s.committee.threshold ≤
          signersPower s.committee.validatorWeightedKeys (signatures.map Prod.fst).toFinset) ∧
      ((∃ m, Takes X cfg ctx db' tx (.checkpointSubnet m)) ↔
        g.msg.Readable (g.msg.leavesChange X σ s.committee next feeRate unspent) ∧
          NumberKnown X db' s' r.subnetId r.nextCommitteeConfigurationNumber) := by
  obtain ⟨t, ht, -, hgood, -⟩ := (sound_of_reachable laws hreach).state laws hs
  have hp := spendOf_checkpoint hgen hs
  have hsum := sum_lt_of_good hgood
  obtain ⟨s₁, next, hfound, hplanned, htaken, hplan, hpsbt⟩ := genCheckpointPsbt_planned hgen
  obtain rfl : s = s₁ := Option.some.inj (hs.symm.trans hfound)
  have hd := drafted_of_plan laws hreach (ht ▸ hs) ht htaken hplan hheight hnumber
  have hid : g.msg.subnetId = .fromTxid20 t := htaken.subnetId_eq.trans ht
  obtain ⟨tx, htx⟩ : ∃ tx, finalizeWithSignatures C (.fromTxid20 t) _ _ _ signatures = .ok tx :=
    (exists_finalized_iff hC hp).mpr
      ⟨fun a ha => (hall a ha).member laws hp hsum, fun _ _ => hfee _⟩
  obtain ⟨block, hfin⟩ := finalizedFrom_of_eq_ok hp htx
  have hplain := plain_of_finalized hC hp hsum hfin hsigs
  have hout : tx.output = g.unsignedPsbt.unsignedTx.output := by
    rw [← hfin.stripped]
    rfl
  refine ⟨tx, next, hplanned, ?_, ?_, ?_, ?_⟩
  · refine (finalizeCheckpointPsbt_eq_ok hs').mpr ⟨tx, ?_, rfl⟩
    rw [hsame, ht]
    exact htx
  · rw [← hX.txid_stripped tx, hfin.stripped]
  · intro mature
    have hlength : s.committee.validatorWeightedKeys.length = s.committee.validators.length :=
      List.length_map _
    rw [authorised_iff_carried hp hfin hsum, carried_of_signed hS hp
      (fun a ha => (hall a ha).signed), hlength]
    intro u hu
    rw [hunspent u hu, address_of_good hgood hp.script]
  · have hbuilt : g.msg.toCheckpointPsbt X σ s'.committee next feeRate unspent =
        .ok g.unsignedPsbt := by
      rw [hsame]
      exact hpsbt
    have htakes := takes_checkpoint_iff laws cfg ctx hX (sound_of_reachable laws hreach') hd hid
      (ht ▸ hs') hbuilt hout hplain.witnessMessages_eq
    rw [hsame, htaken.subnetId_eq, htaken.number_eq] at htakes
    exact htakes

end Answers

section Signed

open Solo

/-- The crate for one key that can sign: leaves are their own hashes. -/
def stampCrate : SigningCrate stampLibrary Script :=
  { plainCrate with scriptSpendSighash := fun _ _ i leaf => UInt8.ofNat i :: leaf }

theorem spendLaws_stamp : SpendLaws stampCrate where
  controlBlock_leaf _ _ := ⟨[0xc0], rfl⟩
  controlBlock_version _ _ block h := by
    cases h
    exact ⟨0xc0, [], rfl, Or.inl rfl⟩

theorem transactionLaws_stamp : TransactionLaws stampLibrary :=
  have laws : TransactionLaws (library 10000 []) := transactionLaws_ideal _
  ⟨laws.txid_stripped, laws.txid_ne_zero, laws.controlBlock_leaf, laws.nonDust_pos⟩

/-- An output of the committee of the subnet. -/
def memberCoin : Utxo :=
  ⟨bytes32 30, 0, 1000000, ((joinedDb.getSubnetState stampLibrary (.fromTxid20 subnet)).map
    (fun s => s.committee.multisigAddress.scriptPubkey)).getD []⟩

/-- The checkpoint without payments, with the signatures of the member. -/
def memberAnswer : Outcome RpcError (GenCheckpointPsbt × List Signature) :=
  genSignedCheckpointPsbt stampCrate listedOrders listedOrders joinedDb (some key) (bareRequest 0)
    [memberCoin] 1000

theorem exists_memberAnswer : ∃ g sigs s, memberAnswer = .ok (g, sigs) ∧
    joinedDb.getSubnetState stampLibrary (bareRequest 0).subnetId = some s ∧
    memberCoin.scriptPubkey = s.committee.multisigAddress.scriptPubkey ∧
    ∀ sig ∈ sigs, NoMessage sig.bytes := by
  have hsigs : memberAnswer.toOption.any (fun a => decide (∀ sig ∈ a.2, NoMessage sig.bytes)) =
      true := by
    decide +kernel
  obtain ⟨⟨g, sigs⟩, hg, hplain⟩ := (Option.any_eq_true _ _).mp hsigs
  obtain ⟨s, hs⟩ := Option.isSome_iff_exists.mp (by decide +kernel :
    (joinedDb.getSubnetState stampLibrary (bareRequest 0).subnetId).isSome = true)
  refine ⟨g, sigs, s, toOption_eq_some.mp hg, hs, ?_, of_decide_eq_true hplain⟩
  have hs' : joinedDb.getSubnetState stampLibrary (.fromTxid20 subnet) = some s := hs
  rw [memberCoin, hs']
  rfl

/-- A signature that does not verify is finalized, and the network refuses the checkpoint. -/
theorem finalized_checkpoint_spoiled :
    ∃ (g : GenCheckpointPsbt) (sigs : List Signature) (tx : Transaction),
      memberAnswer = .ok (g, sigs) ∧
      finalizeCheckpointPsbt stampCrate joinedDb (bareRequest 0).subnetId g.unsignedPsbt
        [(key, [FixedBytes.zeros 64])] none = .ok [tx] ∧
      ∀ mature, ¬ Authorised stampCrate mature g.unsignedPsbt.witnessUtxos tx := by
  obtain ⟨g, sigs, s, hanswer, hs, hcoin, -⟩ := exists_memberAnswer
  have hgen := (genSignedCheckpointPsbt_eq_ok.mp hanswer).1
  have hunspent : ∀ u ∈ [memberCoin],
      u.scriptPubkey = s.committee.multisigAddress.scriptPubkey := by
    intro u hu
    rw [List.mem_singleton.mp hu]
    exact hcoin
  have hmember : (joinedDb.getSubnetState stampLibrary (bareRequest 0).subnetId).all (fun s =>
      decide (s.committee.validatorWeightedKeys.map Prod.fst = [key])) = true := by
    decide +kernel
  rw [hs, Option.all_some, decide_eq_true_iff] at hmember
  obtain ⟨hfinal, hauthorised⟩ := finalized_checkpoint_authorised_iff displayLaws_stamp
    spendLaws_stamp (reachable_run _) hgen hs hs rfl hunspent [(key, [FixedBytes.zeros 64])] none
  have hknown : Recognized s.committee.validatorWeightedKeys [(key, [FixedBytes.zeros 64])] := by
    intro a ha
    rw [List.mem_singleton.mp ha, hmember]
    exact List.mem_singleton_self key
  obtain ⟨txs, htxs⟩ := hfinal.mpr ⟨hknown, subnet, rfl, fun _ _ => rfl⟩
  obtain ⟨tx, rfl, -, hspends⟩ := hauthorised txs htxs
  refine ⟨g, sigs, tx, hanswer, htxs, fun mature haccepted => ?_⟩
  have hcarried := (hspends mature).mp haccepted
  obtain ⟨k, hk, hkey⟩ : ∃ k ∈ s.committee.validatorWeightedKeys, k.1 = key := by
    have hmem : key ∈ s.committee.validatorWeightedKeys.map Prod.fst := by
      rw [hmember]
      exact List.mem_singleton_self key
    obtain ⟨k, hk, hkey⟩ := List.mem_map.mp hmem
    exact ⟨k, hk, hkey⟩
  have hpos : 0 < g.unsignedPsbt.unsignedTx.input.length :=
    List.length_pos_iff.mpr (spendOf_checkpoint hgen hs).nonempty
  have hverify := hcarried.verify 0 hpos k hk (FixedBytes.zeros 64) (by rw [hkey]; rfl)
  have hbytes := congrArg (fun sig : Signature => sig.bytes.take 32) (of_decide_eq_true hverify)
  simp only [stamp, List.take_left' k.1.length_eq] at hbytes
  rw [hkey] at hbytes
  exact absurd hbytes (by decide)

/-- The member's signatures carry the checkpoint, and the monitor takes it. -/
theorem signed_checkpoint_taken_of_member :
    ∃ (g : GenCheckpointPsbt) (sigs : List Signature) (tx : Transaction),
      memberAnswer = .ok (g, sigs) ∧
      finalizeCheckpointPsbt stampCrate joinedDb (bareRequest 0).subnetId g.unsignedPsbt
        [(key, sigs)] g.batchTransferTx = .ok (tx :: g.batchTransferTx.toList) ∧
      (∀ mature, Authorised stampCrate mature g.unsignedPsbt.witnessUtxos tx) ∧
      ∃ m, Takes stampLibrary ⟨none⟩ context joinedDb tx (.checkpointSubnet m) := by
  obtain ⟨g, sigs, s, hanswer, hs, hcoin, hplain⟩ := exists_memberAnswer
  have hgen := (genSignedCheckpointPsbt_eq_ok.mp hanswer).1
  have hreach : Reachable stampLibrary joinedDb := reachable_run _
  have hunspent : ∀ u ∈ [memberCoin],
      u.scriptPubkey = s.committee.multisigAddress.scriptPubkey := by
    intro u hu
    rw [List.mem_singleton.mp hu]
    exact hcoin
  have hall : ∀ a ∈ [(key, sigs)], Answers stampCrate (bareRequest 0) g.unsignedPsbt a := by
    intro a ha
    rw [List.mem_singleton.mp ha]
    exact ⟨joinedDb, listedOrders, listedOrders, key, [memberCoin], 1000, g, hreach, hanswer, rfl,
      rfl⟩
  have hsigs : ∀ a ∈ [(key, sigs)], ∀ sig ∈ a.2, NoMessage sig.bytes := by
    intro a ha
    rw [List.mem_singleton.mp ha]
    exact hplain
  obtain ⟨tx, next, hplanned, hfinal, -, hspends, htaken⟩ := signed_checkpoint_taken_iff
    displayLaws_stamp transactionLaws_stamp schnorrLaws_stamp spendLaws_stamp hreach hreach ⟨none⟩
    context hgen hs hs rfl hunspent (by decide) (by decide) hall hsigs (fun _ => rfl)
  have hpower : (joinedDb.getSubnetState stampLibrary (bareRequest 0).subnetId).all (fun s =>
      decide (s.committee.validators.length ≤ maxCommitteeSize ∧ s.committee.threshold ≤
        signersPower s.committee.validatorWeightedKeys {key})) = true := by
    decide +kernel
  have hread : (joinedDb.getSubnetState stampLibrary (bareRequest 0).subnetId).all (fun s =>
      (plannedCheckpoint stampLibrary joinedDb (bareRequest 0) [memberCoin]).toOption.all (fun p =>
        decide (p.1.Readable (p.1.leavesChange stampLibrary listedOrders s.committee p.2 1000
          [memberCoin])))) = true := by
    decide +kernel
  rw [hs, Option.all_some, decide_eq_true_iff] at hpower
  rw [hs, Option.all_some, toOption_eq_some.mpr hplanned, Option.all_some,
    decide_eq_true_iff] at hread
  exact ⟨g, sigs, tx, hanswer, hfinal, fun mature => (hspends mature).mpr hpower,
    htaken.mpr ⟨hread, Or.inl rfl⟩⟩

end Signed

end Provider
