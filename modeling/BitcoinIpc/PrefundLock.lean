import BitcoinIpc.JoinAcceptance
import BitcoinIpc.Lib.StraightLine

/-!
# The coin of a prefund

A prefund pays to two scripts: the output script of the whitelist address, and
the one of the release address after a timelock. Both are used as leaves, where
they are executed and not interpreted as outputs. The output script of a witness
program only pushes its version and its program, which leaves two items, so no
witness spends the coin by either leaf. The monitor records it all the same.
-/

namespace Provider

open Faults Bytes Chain Messages Crates Multisig MultisigSpend Db Monitor Commits
open Tapscript (Item)

/-- Some stack makes the script leave one item that is true, which is what the reveal of a leaf
has to do. -/
def SpendableBy (verify : Item → Item → Bool) (mature : Item → Bool) (script : Script) : Prop :=
  ∃ is stack budget item, parseScript script = some is ∧
    Tapscript.evaluate verify mature is stack budget = some [item] ∧
    Tapscript.castToBool item = true

/-- A leaf with a single push is spent by anyone, a lock in front of it only delays that. -/
example : SpendableBy (fun _ _ => false) (fun _ => true) [0x56, opCsv, opDrop, 0x51] :=
  ⟨[.op 0x56, .op opCsv, .op opDrop, .op 0x51], [], 0, [1], by decide, by decide, by decide⟩

/-- The script of a witness program pushes its version and the program. -/
theorem reads_of_isWitnessProgram {s : Script} (h : isWitnessProgram s = true) :
    ∃ p q, Reads s [p, q] ∧ Tapscript.Pushes (toTapscript p) ∧
      Tapscript.Pushes (toTapscript q) := by
  match s, h with
  | version :: len :: program, h =>
    simp only [isWitnessProgram, Bool.and_eq_true, Bool.or_eq_true, decide_eq_true_eq,
      beq_iff_eq] at h
    obtain ⟨⟨⟨hlen, -⟩, hshort⟩, hversion⟩ := h
    have hprogram : Reads (len :: program) [.pushBytes program] := by
      have hpush : pushSlice program = len :: program := by
        have hlt : program.length < 0x4c := by omega
        rw [pushSlice, if_pos hlt, hlen, UInt8.ofNat_toNat]
      rw [← hpush]
      exact Reads.pushSlice program (by omega)
    rcases hversion with ⟨rfl, -⟩ | ⟨hlo, hhi⟩
    · have hzero : Reads [0] [.pushBytes []] := Reads.pushSlice [] (by decide)
      exact ⟨_, _, hzero.append hprogram, Or.inl ⟨[], rfl⟩, Or.inl ⟨program, rfl⟩⟩
    · have hop : Reads [version] [.op version] := by
        refine Reads.op version ?_
        have : (0x51 : UInt8).toNat ≤ version.toNat := hlo
        have h51 : (0x51 : UInt8).toNat = 0x51 := rfl
        omega
      exact ⟨_, _, hop.append hprogram, Or.inr ⟨version, rfl, hlo, hhi⟩, Or.inl ⟨program, rfl⟩⟩

/-- A leaf that ends in the script of a witness program is never spent. -/
theorem not_spendableBy_of_witnessProgram {verify : Item → Item → Bool} {mature : Item → Bool}
    {s program : Script} {is : List Chain.Instruction} (hs : Reads s is)
    (hif : .op Tapscript.opIf ∉ is) (hendif : .op Tapscript.opEndif ∉ is)
    (hprogram : isWitnessProgram program = true) :
    ¬ SpendableBy verify mature (s ++ program) := by
  rintro ⟨js, stack, budget, item, hparse, hrun, -⟩
  obtain ⟨p, q, hreads, hp, hq⟩ := reads_of_isWitnessProgram hprogram
  rw [parseScript_of_reads (hs.append hreads), List.map_append] at hparse
  cases hparse
  have hkept : ∀ code, .op code ∉ is → Tapscript.Instruction.op code ∉ is.map toTapscript := by
    intro code hnot hmem
    obtain ⟨i, hi, heq⟩ := List.mem_map.mp hmem
    cases i with
    | pushBytes data => cases heq
    | op other =>
      cases heq
      exact hnot hi
  have hlen := Tapscript.two_le_of_two_pushes (hkept _ hif) (hkept _ hendif) hp hq hrun
  rw [List.length_singleton] at hlen
  omega

section Prefund

variable {X : Library} {w : Wallet} {db : HeedDb} {release : Address} {m : IpcPrefundSubnetMsg}
  {tx : Transaction}

/-- The script that is revealed to release a prefund. -/
def releaseLeaf (release : Address) : Script :=
  pushInt IpcPrefundSubnetMsg.releaseLocktime ++ [opCsv, opDrop] ++ release.scriptPubkey

/-- The coin of a prefund, which can be spent by one of two leaves. -/
def prefundCoin (X : Library) (amount : Amount) (a release : Address) : TxOut :=
  ⟨amount, Address.p2trScript
    (X.taprootOutputKey (.branch (.leaf a.scriptPubkey) (.leaf (releaseLeaf release))))⟩

/-- The checks that an answered prefund has passed, and its transaction. -/
structure PrefundSubmitted (X : Library) (db : HeedDb) (release : Address)
    (m : IpcPrefundSubnetMsg) (tx : Transaction) (g : SubnetGenesisInfo) (a : Address)
    (id : Txid20) : Prop where
  valid : m.validate = .ok ()
  genesis : db.getSubnetGenesisInfo X m.subnetId = some g
  checked : IpcPrefundSubnetMsg.validateForGenesisInfo g = .ok ()
  address : (g.multisigAddress X : Outcome RpcError Address) = .ok a
  named : (m.subnetId.txid20 : Outcome RpcError Txid20) = .ok id
  carries : Carries tx ipcPrefundSubnetTag (id.bytes ++ m.address.bytes)
    (prefundCoin X m.amount a release)
  plain : Plain tx

theorem prefundSubnet_eq_ok (hw : WalletLaws w) (h : prefundSubnet X w db release m = .ok tx) :
    ∃ g a id, PrefundSubmitted X db release m tx g a id := by
  obtain ⟨_, hvalid, h⟩ := bind_eq_ok.mp h
  obtain ⟨g, hg, h⟩ := bind_eq_ok.mp h
  obtain ⟨_, hchecked, h⟩ := bind_eq_ok.mp h
  obtain ⟨a, ha, h⟩ := bind_eq_ok.mp h
  obtain ⟨tx₀, htx₀, h⟩ := bind_eq_ok.mp h
  obtain ⟨id, hid, htx₀⟩ := bind_eq_ok.mp htx₀
  cases htx₀
  obtain ⟨⟨change, hout⟩, hplain⟩ := submit_eq_ok hw h
  rw [List.append_assoc] at hout
  refine ⟨g, a, id, mapErr_eq_ok.mp hvalid, okOr_eq_ok.mp hg, mapErr_eq_ok.mp hchecked, ha, hid,
    ⟨⟨_, change, hout⟩, ?_, ?_⟩, hplain⟩
  · decide
  · rw [List.length_append, id.length_eq, m.address.length_eq]
    decide

/-- The address of a whitelist is a taproot key. -/
theorem isWitnessProgram_multisigAddress {ε : Type} {g : SubnetGenesisInfo} {a : Address}
    (h : (g.multisigAddress X : Outcome ε Address) = .ok a) :
    isWitnessProgram a.scriptPubkey = true := by
  obtain ⟨script, -, h⟩ := bind_eq_ok.mp (expectOk_eq_ok.mp h)
  obtain ⟨id, -, h⟩ := bind_eq_ok.mp h
  cases h
  simp [Address.p2tr, Address.p2trScript, isWitnessProgram, FixedBytes.length_eq]

/-- On every state that is reached, the monitor credits an answered prefund to the genesis of the
subnet. Its coin is paid to a tree of two leaves, the output scripts of the whitelist's address and,
after a time lock, of the release address. If the latter is a witness program then no witness spends
the coin by either of them, at any time and whatever signatures it holds. -/
theorem prefund_credited_and_locked (laws : DisplayLaws X) (hw : WalletLaws w)
    (hreach : Reachable X db) (h : prefundSubnet X w db release m = .ok tx)
    (hrelease : isWitnessProgram release.scriptPubkey = true) (cfg : Config) (ctx : BlockContext) :
    ∃ g a, db.getSubnetGenesisInfo X m.subnetId = some g ∧
      (g.multisigAddress X : Outcome RpcError Address) = .ok a ∧
      processTransaction X cfg ctx tx db = ⟨[db.saveSubnetGenesisInfo X m.subnetId
        (g.addGenesisBalanceEntry m.address m.amount (X.computeTxid tx) ctx.blockHeight)],
          .ok ()⟩ ∧
      tx.output[1]? = some (prefundCoin X m.amount a release) ∧
      ∀ verify mature, ¬ SpendableBy verify mature a.scriptPubkey ∧
        ¬ SpendableBy verify mature (releaseLeaf release) := by
  obtain ⟨g, a, id, hsub⟩ := prefundSubnet_eq_ok hw h
  obtain ⟨hgid, ⟨t, ht⟩, -⟩ := (sound_of_reachable laws hreach).genesis _ _ hsub.genesis
  refine ⟨g, a, hsub.genesis, hsub.address, ?_, hsub.carries.second,
    fun verify mature => ⟨?_, ?_⟩⟩
  · have hid := hsub.named
    rw [ht, SubnetId.txid20_fromTxid20] at hid
    cases hid
    have hm : IpcPrefundSubnetMsg.fromTx tx = .ok m := by
      rw [hsub.carries.fromTx_prefund, ← ht]
      rfl
    have hfound : (firstParsed (outputParsers X ctx db tx) : Outcome MonitorError _) =
        .ok (some (.prefundSubnet m)) := by
      simp only [outputParsers, hm]
      rfl
    have hopen : ¬ g.bootstrapped = true := ensure_eq_ok.mp hsub.checked
    rw [processTransaction_of_found cfg ctx hsub.plain.witnessMessages_eq hfound]
    unfold handleMsg Proc.handle
    rw [processIpcMsg_prefund cfg ctx hsub.valid hsub.genesis hopen]
  · exact not_spendableBy_of_witnessProgram Reads.nil (by simp) (by simp)
      (isWitnessProgram_multisigAddress hsub.address)
  · have hlock : Reads (pushInt IpcPrefundSubnetMsg.releaseLocktime ++ [opCsv, opDrop])
        [.op 0x56, .op opCsv, .op opDrop] :=
      (Reads.pushInt (by decide)).append
        ((Reads.op opCsv (by decide)).append (Reads.op opDrop (by decide)))
    exact not_spendableBy_of_witnessProgram hlock (by decide) (by decide) hrelease

end Prefund

section Single

open Solo

/-- A user prefunds the subnet that is not started yet. -/
theorem solo_prefund_locked : ∃ (tx : Transaction) (a : Address),
    prefundSubnet (library 10000 []) onePaymentWallet createdDb backup
      ⟨.fromTxid20 subnet, 5000, user⟩ = .ok tx ∧
    tx.output[1]? = some (prefundCoin (library 10000 []) 5000 a backup) ∧
    ∀ verify mature, ¬ SpendableBy verify mature a.scriptPubkey ∧
      ¬ SpendableBy verify mature (releaseLeaf backup) := by
  obtain ⟨tx, htx⟩ := exists_ok_of_isSome (by decide +kernel :
    (prefundSubnet (library 10000 []) onePaymentWallet createdDb backup
      ⟨.fromTxid20 subnet, 5000, user⟩).toOption.isSome = true)
  obtain ⟨-, a, -, -, -, hout, hlocked⟩ := prefund_credited_and_locked (displayLaws_ideal _)
    walletLaws_onePayment (reachable_run _) htx (by decide) ⟨none⟩ context
  exact ⟨tx, a, htx, hout, hlocked⟩

end Single

end Provider
