import BitcoinIpc.IdealCrates

/-!
# Signed requests

An unstake or a kill is authorised by a signature in the data of its
transaction. The signed digest binds the transaction that the first input
spends, and not which of its outputs. Where the transactions that carry a
signature do not spend two outputs of that transaction, the monitor accepts one
of them at most.
-/

namespace Monitor

open Faults Bytes Chain Messages Crates Multisig Db Grouping Commits

/-- What a validator can sign. -/
inductive SignedRequest where
  | unstake (m : IpcUnstakeCollateralMsg)
  | kill (m : IpcKillSubnetMsg)

namespace SignedRequest

def makeSignature (X : Library) : SignedRequest → Txid → X.SecretKey →
    Outcome IpcLibError Signature
  | .unstake m => m.makeSignature X
  | .kill m => m.makeSignature X

/-- The bytes whose hash is signed. -/
def signedBytes (prev : Txid) (key : XOnlyPublicKey) : SignedRequest → Option (List UInt8)
  | .unstake m => (m.subnetId.txid20 : Outcome IpcLibError Txid20).toOption.map
      (fun id => prev.bytes ++ key.bytes ++ toBe amountSize m.amount ++ id.bytes)
  | .kill m => (m.subnetId.txid20 : Outcome IpcLibError Txid20).toOption.map
      (fun id => prev.bytes ++ key.bytes ++ id.bytes)

/-- The signature is a signature over the hash of these bytes. -/
theorem makeSignature_eq_ok {X : Library} {r : SignedRequest} {prev : Txid} {sk : X.SecretKey}
    {sig : Signature} : r.makeSignature X prev sk = .ok sig ↔
      ∃ b, r.signedBytes prev (X.xOnlyPublicKey sk) = some b ∧
        X.signSchnorr sk (X.sha256 b) = sig := by
  cases r with
  | unstake m =>
    cases hid : (m.subnetId.txid20 : Outcome IpcLibError Txid20) with
    | error e => simp [makeSignature, signedBytes, IpcUnstakeCollateralMsg.makeSignature,
        IpcUnstakeCollateralMsg.makeSignatureMsg, hid, Except.toOption]
    | ok id => simp [makeSignature, signedBytes, IpcUnstakeCollateralMsg.makeSignature,
        IpcUnstakeCollateralMsg.makeSignatureMsg, hid, Except.toOption]
  | kill m =>
    cases hid : (m.subnetId.txid20 : Outcome IpcLibError Txid20) with
    | error e => simp [makeSignature, signedBytes, IpcKillSubnetMsg.makeSignature,
        IpcKillSubnetMsg.makeSignatureMsg, hid, Except.toOption]
    | ok id => simp [makeSignature, signedBytes, IpcKillSubnetMsg.makeSignature,
        IpcKillSubnetMsg.makeSignatureMsg, hid, Except.toOption]

theorem take_signedBytes {r : SignedRequest} {prev : Txid} {key : XOnlyPublicKey} {b : List UInt8}
    (h : r.signedBytes prev key = some b) : b.take 32 = prev.bytes := by
  cases r with
  | unstake m =>
    obtain ⟨id, -, rfl⟩ := Option.map_eq_some_iff.mp h
    simp only [List.append_assoc]
    exact List.take_left' prev.length_eq
  | kill m =>
    obtain ⟨id, -, rfl⟩ := Option.map_eq_some_iff.mp h
    simp only [List.append_assoc]
    exact List.take_left' prev.length_eq

end SignedRequest

/-- The signature was made for the request and the transaction that its first input
spends, and it verifies for nothing else. -/
structure Authorises (X : Library) (r : SignedRequest) (prev : Txid) (sk : X.SecretKey)
    (sig : Signature) : Prop where
  made : r.makeSignature X prev sk = .ok sig
  unforgeable : ∀ b k, X.verifySchnorr sig (X.sha256 b) k = true →
    r.signedBytes prev (X.xOnlyPublicKey sk) = some b ∧ k = X.xOnlyPublicKey sk

/-- The signature in the data of the first output. -/
def carriedSignature (tx : Transaction) : Option Signature :=
  (tx.output.head?.bind (fun out => firstPush out.scriptPubkey)).bind fun data =>
    FixedBytes.ofList? 64 ((data.drop ipcTagLength).take schnorrSignatureSize)

/-- The output of the transaction `prev` that the first input spends. -/
def spentOf (prev : Txid) (tx : Transaction) : Option Nat :=
  (firstSpent tx).bind (fun o => if o.txid = prev then some o.vout else none)

def isSignedRequest : IpcMessage → Bool
  | .unstakeCollateral _ => true
  | .killSubnet _ => true
  | _ => false

/-- The accepted unstakes and kills that carry the signature. -/
def authorised (sig : Signature) (l : List (Event × HeedDb)) :
    List (BlockContext × Transaction × IpcMessage) :=
  (messages l).filter (fun a => isSignedRequest a.2.2 && carriedSignature a.2.1 = some sig)

/-- The transactions of a chain that carry the signature spend, of the transaction it
names, one output only. -/
def OneOutput (sig : Signature) (prev : Txid) (txs : List (BlockContext × Transaction)) : Prop :=
  ∀ a ∈ txs, ∀ b ∈ txs, carriedSignature a.2 = some sig → carriedSignature b.2 = some sig →
    (spentOf prev a.2).isSome → (spentOf prev b.2).isSome → spentOf prev a.2 = spentOf prev b.2

section Proofs

variable {X : Library} {cfg : Config} {ctx : BlockContext} {tx : Transaction} {db : HeedDb}
  {l : List (Event × HeedDb)} {txs : List (BlockContext × Transaction)} {sig : Signature}

theorem opReturnData_eq_ok {tag noData badLength : String} {n : Nat} {data : List UInt8}
    (h : opReturnData tag noData badLength n tx = .ok data) :
    tx.output.head?.bind (fun out => firstPush out.scriptPubkey) = some data := by
  obtain ⟨out, hout, h⟩ := bind_eq_ok.mp h
  obtain ⟨d, hd, h⟩ := bind_eq_ok.mp h
  obtain ⟨_, -, h⟩ := bind_eq_ok.mp h
  cases h
  rw [List.head?_eq_getElem?, index_eq_ok.mp hout]
  exact okOr_eq_ok.mp hd

theorem taggedData_eq_ok {tag tooFew : String} {n : Nat} {data : List UInt8}
    (h : taggedData tag tooFew n tx = .ok data) :
    tx.output.head?.bind (fun out => firstPush out.scriptPubkey) = some data := by
  obtain ⟨_, -, h⟩ := bind_eq_ok.mp h
  obtain ⟨d, hd, h⟩ := bind_eq_ok.mp h
  obtain ⟨_, -, h⟩ := bind_eq_ok.mp h
  cases h
  exact opReturnData_eq_ok hd

theorem carriedSignature_eq {tag tooFew text : String} {n : Nat} {data bytes : List UInt8}
    (hdata : taggedData tag tooFew n tx = .ok data)
    (hbytes : (slice data ipcTagLength (ipcTagLength + schnorrSignatureSize) :
      Outcome IpcLibError _) = .ok bytes)
    (hsig : okOr (FixedBytes.ofList? 64 bytes) (IpcLibError.msgParseError tag text) = .ok sig) :
    carriedSignature tx = some sig := by
  have hslice := slice_eq_ok hbytes
  rw [Nat.add_sub_cancel_left] at hslice
  rw [carriedSignature, taggedData_eq_ok hdata, Option.bind_some, hslice]
  exact okOr_eq_ok.mp hsig

theorem firstPrevTxid_eq_ok {tag : String} {p : Txid} (h : firstPrevTxid tag tx = .ok p) :
    ∃ v, firstSpent tx = some ⟨p, v⟩ := by
  obtain ⟨i, hi, h⟩ := bind_eq_ok.mp h
  cases h
  exact ⟨i.previousOutput.vout, by rw [firstSpent, okOr_eq_ok.mp hi]; rfl⟩

theorem signingValidator_eq_ok {s : SubnetState} {v : SubnetValidator}
    {digest : XOnlyPublicKey → Outcome IpcLibError X.Digest}
    (h : signingValidator X s sig digest = .ok v) :
    ∃ d, digest v.pubkey = .ok d ∧ X.verifySchnorr sig d v.pubkey = true := by
  obtain ⟨found, hfound, h⟩ := bind_eq_ok.mp h
  rw [okOr_eq_ok] at h
  subst h
  obtain ⟨-, htest⟩ := findFirst_eq_some hfound
  obtain ⟨d, hd, hv⟩ := bind_eq_ok.mp htest
  exact ⟨d, hd, Except.ok.inj hv⟩

/-- The signature carried by the transaction verifies for bytes that start with the
transaction its first input spends. -/
def VerifiesCarried (X : Library) (tx : Transaction) : Prop :=
  ∃ sig p v b k, carriedSignature tx = some sig ∧ firstSpent tx = some ⟨p, v⟩ ∧
    b.take 32 = p.bytes ∧ X.verifySchnorr sig (X.sha256 b) k = true

theorem verifiesCarried_unstake {m : IpcUnstakeCollateralMsg}
    (h : IpcUnstakeCollateralMsg.fromTx X db tx = .ok m) : VerifiesCarried X tx := by
  obtain ⟨data, hdata, h⟩ := bind_eq_ok.mp h
  obtain ⟨⟨sig, amount⟩, hsig, h⟩ := bind_eq_ok.mp h
  obtain ⟨s, -, h⟩ := bind_eq_ok.mp h
  obtain ⟨p, hp, h⟩ := bind_eq_ok.mp h
  obtain ⟨v, hv, -⟩ := bind_eq_ok.mp h
  obtain ⟨bytes, hbytes, hsig⟩ := bind_eq_ok.mp hsig
  obtain ⟨sig', hsig', hsig⟩ := bind_eq_ok.mp hsig
  obtain ⟨_, -, hsig⟩ := bind_eq_ok.mp hsig
  cases hsig
  obtain ⟨vout, hspent⟩ := firstPrevTxid_eq_ok hp
  obtain ⟨d, hd, hverify⟩ := signingValidator_eq_ok hv
  obtain ⟨id, -, hd⟩ := bind_eq_ok.mp hd
  cases hd
  refine ⟨sig, p, vout, _, v.pubkey, carriedSignature_eq hdata hbytes hsig', hspent, ?_, hverify⟩
  simp only [List.append_assoc]
  exact List.take_left' p.length_eq

theorem verifiesCarried_kill {m : IpcKillSubnetMsg}
    (h : IpcKillSubnetMsg.fromTx X db tx = .ok m) : VerifiesCarried X tx := by
  obtain ⟨data, hdata, h⟩ := bind_eq_ok.mp h
  obtain ⟨bytes, hbytes, h⟩ := bind_eq_ok.mp h
  obtain ⟨sig, hsig, h⟩ := bind_eq_ok.mp h
  obtain ⟨s, -, h⟩ := bind_eq_ok.mp h
  obtain ⟨p, hp, h⟩ := bind_eq_ok.mp h
  obtain ⟨v, hv, -⟩ := bind_eq_ok.mp h
  obtain ⟨vout, hspent⟩ := firstPrevTxid_eq_ok hp
  obtain ⟨d, hd, hverify⟩ := signingValidator_eq_ok hv
  obtain ⟨id, -, hd⟩ := bind_eq_ok.mp hd
  cases hd
  refine ⟨sig, p, vout, _, v.pubkey, carriedSignature_eq hdata hbytes hsig, hspent, ?_, hverify⟩
  simp only [List.append_assoc]
  exact List.take_left' p.length_eq

/-- An accepted request that carries the signature spends an output of the
transaction the signature was made for. -/
theorem spentOf_of_authorised {r : SignedRequest} {prev : Txid} {sk : X.SecretKey}
    (ha : Authorises X r prev sk sig) (h : Trail (Commit X) db l)
    {a : BlockContext × Transaction × IpcMessage} (hmem : a ∈ authorised sig l) :
    carriedSignature a.2.1 = some sig ∧ ∃ v, firstSpent a.2.1 = some ⟨prev, v⟩ := by
  obtain ⟨hm, hcond⟩ := List.mem_filter.mp hmem
  rw [Bool.and_eq_true, decide_eq_true_iff] at hcond
  obtain ⟨hrequest, hcarried⟩ := hcond
  refine ⟨hcarried, ?_⟩
  have hverifies : VerifiesCarried X a.2.1 := by
    obtain ⟨ctx, tx, m⟩ := a
    obtain ⟨⟨e, after⟩, hl, he⟩ := List.mem_filterMap.mp hm
    obtain ⟨before, hstep, -⟩ := exists_step (C := fun _ _ _ => True) h
      (allSteps_of_events (P := fun _ => True) (fun _ _ => trivial)) hl
    cases hstep with
    | unstakeCollateral hparsed _ _ =>
      cases he
      exact verifiesCarried_unstake hparsed
    | killSubnet hparsed _ _ =>
      cases he
      exact verifiesCarried_kill hparsed
    | _ => cases he <;> cases hrequest
  obtain ⟨sig', p, v, b, k, hsig, hspent, htake, hverify⟩ := hverifies
  rw [hcarried] at hsig
  cases hsig
  have hbytes := SignedRequest.take_signedBytes (ha.unforgeable b k hverify).1
  have hprev : p = prev := FixedBytes.ext_bytes (htake.symm.trans hbytes)
  exact ⟨v, by rw [hspent, hprev]⟩

/-- A signature is used once where the transactions that carry it spend one output
of the transaction it names. -/
theorem authorisation_used_once {r : SignedRequest} {prev : Txid} {sk : X.SecretKey}
    (ha : Authorises X r prev sk sig) (hspent : (spentOutpoints txs).Nodup)
    (h : ChainTrail X cfg HeedDb.empty txs l) (hone : OneOutput sig prev txs) :
    (authorised sig l).length ≤ 1 := by
  have hsub : List.Sublist (authorised sig l) (outputMessages l) := by
    apply List.monotone_filter_right
    rintro ⟨ctx, tx, m⟩ hm
    cases m with
    | unstakeCollateral m => rfl
    | killSubnet m => rfl
    | _ => simp [isSignedRequest] at hm
  have hpair : (authorised sig l).Pairwise (fun _ _ => False) := by
    refine ((h.outputMessages_pairwise hspent).sublist hsub).imp_of_mem ?_
    intro a b hmem hmem' hne
    obtain ⟨hca, v, hva⟩ := spentOf_of_authorised ha h.trail hmem
    obtain ⟨hcb, w, hwb⟩ := spentOf_of_authorised ha h.trail hmem'
    have hsa : spentOf prev a.2.1 = some v := by simp [spentOf, hva]
    have hsb : spentOf prev b.2.1 = some w := by simp [spentOf, hwb]
    have hsame := hone _ (h.message_mem (List.mem_of_mem_filter hmem)) _
      (h.message_mem (List.mem_of_mem_filter hmem')) hca hcb (by simp [hsa]) (by simp [hsb])
    rw [hsa, hsb, Option.some.injEq] at hsame
    exact hne _ hva (by rw [hwb, hsame])
  cases hl : authorised sig l with
  | nil => simp
  | cons a rest =>
    cases rest with
    | nil => simp
    | cons b rest =>
      rw [hl] at hpair
      exact absurd ((List.pairwise_cons.mp hpair).1 b List.mem_cons_self) not_false

end Proofs

open Solo

/-- An unstake of 1000, signed for the transaction `bytes32 13`, by an input that
spends the given output of it. -/
def unstakeSpending (vout : Nat) : Transaction :=
  spending (bytes32 13) vout []
    [tagged ipcUnstakeTag (signature.bytes ++ toBe amountSize 1000) 0,
      ⟨330, (address 10).scriptPubkey⟩]

def unstakeMsg : IpcUnstakeCollateralMsg := ⟨.fromTxid20 subnet, 1000, some key⟩

def unstakeBytes : List UInt8 :=
  (bytes32 13).bytes ++ key.bytes ++ toBe amountSize 1000 ++ subnet.bytes

def signedLibrary : Library := library 10000 [(unstakeBytes, signature)]

theorem authorises_unstake :
    Authorises signedLibrary (.unstake unstakeMsg) (bytes32 13) key signature where
  made := SignedRequest.makeSignature_eq_ok.mpr ⟨unstakeBytes, by decide +kernel, by decide +kernel⟩
  unforgeable := by
    intro b k h
    have hlisted : (k, b, signature) ∈ [(key, unstakeBytes, signature)] := of_decide_eq_true h
    cases List.mem_singleton.mp hlisted
    exact ⟨by decide +kernel, rfl⟩

def startedTxs : List Transaction := [createTx, joinTx 100000]

/-- The unstake is accepted on the database. -/
def UnstakeAccepted (vout : Nat) (db : HeedDb) : Prop :=
  IpcUnstakeCollateralMsg.fromTx signedLibrary db (unstakeSpending vout) = .ok unstakeMsg ∧
  (unstakeMsg.saveToDb signedLibrary db 1 (bytes32 5)
    (signedLibrary.computeTxid (unstakeSpending vout))).toOption.map (fun d => [d]) =
      some (processTransaction signedLibrary ⟨none⟩ context (unstakeSpending vout) db).commits

instance (vout : Nat) (db : HeedDb) : Decidable (UnstakeAccepted vout db) := by
  unfold UnstakeAccepted
  infer_instance

theorem UnstakeAccepted.trail {vout : Nat} {db : HeedDb} (h : UnstakeAccepted vout db) :
    ∃ db', (processTransaction signedLibrary ⟨none⟩ context (unstakeSpending vout) db).commits =
        [db'] ∧
      TransactionTrail signedLibrary ⟨none⟩ context (unstakeSpending vout) db
        [(.message context (unstakeSpending vout) (.unstakeCollateral unstakeMsg), db')] := by
  obtain ⟨db', hsave, hcommits⟩ := Option.map_eq_some_iff.mp h.2
  exact ⟨db', hcommits.symm, .single (.unstakeCollateral unstakeMsg) rfl rfl rfl
    (.unstakeCollateral h.1 (of_decide_eq_true (by decide +kernel)) (toOption_eq_some.mp hsave))
    hcommits.symm⟩

/-- The databases before and after the first unstake. -/
def stakedDb : HeedDb := (run signedLibrary startedTxs).store HeedDb.empty

def unstakedDb : HeedDb :=
  (processTransaction signedLibrary ⟨none⟩ context (unstakeSpending 0) stakedDb).store stakedDb

/-- The chain with an unstake for each of the outputs. -/
def unstakeChain (vouts : List Nat) : List (BlockContext × Transaction) :=
  (startedTxs ++ vouts.map unstakeSpending).map (fun tx => (context, tx))

theorem unstakeChain_trail : ∃ l db', ChainTrail signedLibrary ⟨none⟩ HeedDb.empty
      (unstakeChain [0]) (l ++ [(.message context (unstakeSpending 0)
        (.unstakeCollateral unstakeMsg), db')]) ∧
    lastStore HeedDb.empty (l ++ [(.message context (unstakeSpending 0)
      (.unstakeCollateral unstakeMsg), db')]) = unstakedDb := by
  have hok : (run signedLibrary startedTxs).outcome.toOption = some () :=
    of_decide_eq_true (by decide +kernel)
  have haccepted : UnstakeAccepted 0 stakedDb := of_decide_eq_true (by decide +kernel)
  obtain ⟨l, hl, -, hlast⟩ := exists_chainTrail ⟨none⟩ context _ HeedDb.empty hok
  obtain ⟨db', hcommits, ht⟩ := haccepted.trail
  rw [← show lastStore HeedDb.empty l = stakedDb from hlast] at ht
  refine ⟨l, db', hl.snoc ht, ?_⟩
  rw [unstakedDb, Trace.store, hcommits, lastStore, List.map_append]
  simp

theorem authorised_append (sig : Signature) (l l' : List (Event × HeedDb)) :
    authorised sig (l ++ l') = authorised sig l ++ authorised sig l' := by
  rw [authorised, messages_append, List.filter_append]
  rfl

theorem authorised_unstake (vout : Nat) (db : HeedDb) :
    authorised signature [(.message context (unstakeSpending vout)
      (.unstakeCollateral unstakeMsg), db)] =
        [(context, unstakeSpending vout, .unstakeCollateral unstakeMsg)] := by
  have hcarried : carriedSignature (unstakeSpending vout) = some signature :=
    show carriedSignature (unstakeSpending 0) = some signature from
      of_decide_eq_true (by decide +kernel)
  simp [authorised, messages, messageOf, isSignedRequest, hcarried]

instance (sig : Signature) (prev : Txid) (txs : List (BlockContext × Transaction)) :
    Decidable (OneOutput sig prev txs) := by
  unfold OneOutput
  infer_instance

/-- The unstake is accepted, and it is the only request with its signature. -/
theorem authorisation_used_once_by_validator :
    ∃ l, ChainTrail signedLibrary ⟨none⟩ HeedDb.empty (unstakeChain [0]) l ∧
      (context, unstakeSpending 0, .unstakeCollateral unstakeMsg) ∈ authorised signature l ∧
      (authorised signature l).length ≤ 1 := by
  obtain ⟨l, db', hl, -⟩ := unstakeChain_trail
  have hspent : (spentOutpoints (unstakeChain [0])).Nodup := of_decide_eq_true (by decide +kernel)
  have hone : OneOutput signature (bytes32 13) (unstakeChain [0]) :=
    of_decide_eq_true (by decide +kernel)
  refine ⟨_, hl, ?_, authorisation_used_once authorises_unstake hspent hl hone⟩
  rw [authorised_append, authorised_unstake]
  exact List.mem_append_right _ List.mem_cons_self

/-- The bytes of the unstake are accepted again from an input that spends another
output of the same transaction. -/
theorem unstake_replayed_from_sibling_output :
    ¬ ∀ X cfg r prev sk sig txs l, Authorises X r prev sk sig → (spentOutpoints txs).Nodup →
      ChainTrail X cfg HeedDb.empty txs l → (authorised sig l).length ≤ 1 := by
  intro hall
  obtain ⟨l, db', hl, hlast⟩ := unstakeChain_trail
  have haccepted : UnstakeAccepted 1 unstakedDb := of_decide_eq_true (by decide +kernel)
  obtain ⟨db'', -, ht⟩ := haccepted.trail
  rw [← hlast] at ht
  have hchain := hl.snoc ht
  have hspent : (spentOutpoints (unstakeChain [0] ++ [(context, unstakeSpending 1)])).Nodup :=
    of_decide_eq_true (by decide +kernel)
  have hlength := hall _ _ _ _ _ _ _ _ authorises_unstake hspent hchain
  rw [authorised_append, authorised_append, authorised_unstake, authorised_unstake] at hlength
  simp only [List.length_append, List.length_singleton] at hlength
  omega

end Monitor
