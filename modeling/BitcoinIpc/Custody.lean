import BitcoinIpc.NextCommittee
import BitcoinIpc.Authenticity
import BitcoinIpc.Handover
import BitcoinIpc.TransferDelivery
import BitcoinIpc.Lib.Turnover

/-!
# Custody

The outputs that are locked to the committees of a subnet stand beside the
monitor. Users pay to the committee that is active, and the checkpoints that the
providers build pay out and hand over. As long as no checkpoint leaves an output
behind, everything the subnet holds is locked to the committee that is active in
the database, and it is worth what came in, less what was paid and the fees.
-/

namespace Custody

open Faults Bytes Chain Messages Crates Multisig Db Monitor Provider Commits Grouping PartialMaps

/-- The unspent outputs of the chain and the database of a monitor. -/
structure Vault where
  unspent : Unspent
  db : HeedDb

section Vaults

variable (X : Library) (cfg : Config) (t : Txid20) (mine : Script → Bool)

/-- What is locked to the scripts of the subnet. -/
def held (U : Unspent) : OutPoint → Option TxOut :=
  fun o => (U o).filter (fun out => mine out.scriptPubkey)

def Vault.after (ctx : BlockContext) (v : Vault) (tx : Transaction) : Vault :=
  ⟨v.unspent.after X tx, processed X cfg ctx tx v.db⟩

/-- What moves in or out of custody. -/
inductive Movement where
  | deposit (value : Nat)
  | checkpoint (paid fee : Nat)

end Vaults

def Movement.deposited : Movement → Nat
  | .deposit value => value
  | .checkpoint _ _ => 0

def Movement.paid : Movement → Nat
  | .deposit _ => 0
  | .checkpoint paid _ => paid

def Movement.fee : Movement → Nat
  | .deposit _ => 0
  | .checkpoint _ fee => fee

section Epochs

variable {X : Library} {t : Txid20} {db db' : HeedDb}

/-- The committee and the requests of the subnet are what they were. -/
structure Kept (X : Library) (t : Txid20) (db db' : HeedDb) : Prop where
  reachable : Reachable X db'
  state : ∀ s, db.getSubnetState X (.fromTxid20 t) = some s →
    ∃ s', db'.getSubnetState X (.fromTxid20 t) = some s' ∧ s'.committee = s.committee
  requests : ∀ n c, db.getStakeChange X (.fromTxid20 t) n = some c →
    db'.getStakeChange X (.fromTxid20 t) n = some c

end Epochs

section Chains

variable {X : Library} {U : Unspent} {tx : Transaction} {mine : Script → Bool}
  {coins coins' : List (OutPoint × TxOut)}

/-- The outputs of a transaction at their places. -/
def made (X : Library) (tx : Transaction) : List (OutPoint × TxOut) :=
  tx.output.zipIdx.map (fun p => (⟨X.computeTxid tx, p.2⟩, p.1))

end Chains

section Steps

variable {X : Library} {cfg : Config} {ctx : BlockContext} {t : Txid20} {mine : Script → Bool}
  {v v' : Vault} {tx : Transaction} {e : Movement} {coins : List (OutPoint × TxOut)}
  {db : HeedDb} {σ τ : MapOrders} {validator : XOnlyPublicKey} {r : CheckpointRequest}
  {unspent : List Utxo} {feeRate : FeeRate} {g : GenCheckpointPsbt} {s : SubnetState}
  {next : SubnetCommittee}

end Steps

section Transfers

variable {X : Library} {t u : Txid20} {mine : Script → Bool} {v : Vault} {tx : Transaction}
  {db : HeedDb} {σ τ : MapOrders} {validator : XOnlyPublicKey} {r : CheckpointRequest}
  {unspent : List Utxo} {feeRate : FeeRate} {g : GenCheckpointPsbt} {s : SubnetState}
  {next : SubnetCommittee}

end Transfers

section Single

open Solo

variable {X : Library} {mine : Script → Bool} {db : HeedDb} {r : CheckpointRequest}

end Single

end Custody
