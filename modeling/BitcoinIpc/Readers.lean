import BitcoinIpc.RequestAcceptance

/-!
# What the provider reads

The requests that only read the database: the genesis info and the state of a
subnet, its messages and stake changes of one block, its kill requests, its
checkpoints and its tokens. Errors of the database are left out.
-/

namespace Provider

open Faults Chain Messages Crates Multisig Db

variable (X : Library) (db : HeedDb)

def getConfirmedBlockHeight : Nat := db.getLastProcessedBlock

def getGenesisInfo (id : SubnetId) : Outcome RpcError SubnetGenesisInfo := readGenesis X db id

def getSubnet (id : SubnetId) : Outcome RpcError SubnetState := readState X db id

/-- The messages of one block to a subnet that exists. -/
def getRootnetMessages (id : SubnetId) (blockHeight : Nat) :
    Outcome RpcError (List RootnetMessage) := do
  let _ ← readState X db id
  return db.getRootnetMsgsByHeight X id blockHeight

def getStakeChanges (id : SubnetId) (blockHeight : Nat) :
    Outcome RpcError (List StakeChangeRequest) := do
  let _ ← readState X db id
  return db.getStakeChangesByHeight X id blockHeight

/-- The kill requests that are valid at the last processed block. -/
def getKillRequests (id : SubnetId) : Outcome RpcError (List KillRequest) := do
  let _ ← readState X db id
  return db.getValidKillRequests X id db.getLastProcessedBlock

/-- The checkpoint with the number, or the last one. -/
def getSubnetCheckpoint (id : SubnetId) (number : Option Nat) :
    Outcome RpcError (Option SubnetCheckpoint) := do
  let s ← readState X db id
  match s.lastCheckpointNumber with
  | none => return none
  | some last => return db.getCheckpoint X id (number.getD last)

/-- The balance in decimal digits. -/
def getTokenBalance (home : SubnetId) (token : EthAddress) (holder : SubnetId) : List Char :=
  Text.decimal (db.getTokenBalance X home token holder)

section Answers

variable {X db} {id : SubnetId}

theorem getRootnetMessages_eq_ok {h : Nat} {l : List RootnetMessage} :
    getRootnetMessages X db id h = .ok l ↔
      (∃ s, db.getSubnetState X id = some s) ∧ l = db.getRootnetMsgsByHeight X id h := by
  constructor
  · intro hl
    obtain ⟨s, hs, hl⟩ := bind_eq_ok.mp hl
    exact ⟨⟨s, readState_eq_ok.mp hs⟩, (Except.ok.inj hl).symm⟩
  · rintro ⟨⟨s, hs⟩, rfl⟩
    exact bind_eq_ok.mpr ⟨s, readState_eq_ok.mpr hs, rfl⟩

theorem getStakeChanges_eq_ok {h : Nat} {l : List StakeChangeRequest} :
    getStakeChanges X db id h = .ok l ↔
      (∃ s, db.getSubnetState X id = some s) ∧ l = db.getStakeChangesByHeight X id h := by
  constructor
  · intro hl
    obtain ⟨s, hs, hl⟩ := bind_eq_ok.mp hl
    exact ⟨⟨s, readState_eq_ok.mp hs⟩, (Except.ok.inj hl).symm⟩
  · rintro ⟨⟨s, hs⟩, rfl⟩
    exact bind_eq_ok.mpr ⟨s, readState_eq_ok.mpr hs, rfl⟩

end Answers

end Provider
