import BitcoinIpc.Lib.Faults
import BitcoinIpc.Lib.Bytes

/-!
# Bitcoin transactions and scripts

The transaction data the program reads and builds. A script is its byte string;
`instructions` and `instructionsMinimal` follow the script iterator, which ends
after its first error. Amounts are satoshis in an unsigned 64-bit integer, and
their sums panic on overflow.
-/

namespace Chain

open Faults Bytes

abbrev Txid := FixedBytes 32
abbrev BlockHash := FixedBytes 32
abbrev XOnlyPublicKey := FixedBytes 32
abbrev Signature := FixedBytes 64
abbrev EthAddress := FixedBytes 20
abbrev Amount := Nat
abbrev Script := List UInt8

structure OutPoint where
  txid : Txid
  vout : Nat
deriving DecidableEq

structure TxIn where
  previousOutput : OutPoint
  scriptSig : Script
  sequence : Nat
  witness : List (List UInt8)
deriving DecidableEq

structure TxOut where
  value : Amount
  scriptPubkey : Script
deriving DecidableEq

structure Transaction where
  version : Nat
  lockTime : Nat
  input : List TxIn
  output : List TxOut
deriving DecidableEq

/-- The transaction without its witnesses. -/
def Transaction.stripped (tx : Transaction) : Transaction :=
  { tx with input := tx.input.map (fun i => { i with witness := [] }) }

def amountBound : Nat := 2 ^ 64

/-- `Amount + Amount`. -/
def addAmount {ε : Type} (a b : Amount) : Outcome ε Amount :=
  if a + b < amountBound then .ok (a + b) else panicked

/-- `Amount - Amount`. -/
def subAmount {ε : Type} (a b : Amount) : Outcome ε Amount :=
  if b ≤ a then .ok (a - b) else panicked

def sumAmounts {ε : Type} (l : List Amount) : Outcome ε Amount :=
  if l.sum < amountBound then .ok l.sum else panicked

theorem addAmount_eq_ok {ε : Type} {a b c : Amount} :
    (addAmount a b : Outcome ε Amount) = .ok c ↔ a + b < amountBound ∧ a + b = c := by
  by_cases h : a + b < amountBound <;> simp [addAmount, h]

theorem subAmount_eq_ok {ε : Type} {a b c : Amount} :
    (subAmount a b : Outcome ε Amount) = .ok c ↔ b ≤ a ∧ a - b = c := by
  by_cases h : b ≤ a <;> simp [subAmount, h]

theorem sumAmounts_eq_ok {ε : Type} {l : List Amount} {c : Amount} :
    (sumAmounts l : Outcome ε Amount) = .ok c ↔ l.sum < amountBound ∧ l.sum = c := by
  by_cases h : l.sum < amountBound <;> simp [sumAmounts, h]

def opReturn : UInt8 := 0x6a
def opDrop : UInt8 := 0x75
def opTrue : UInt8 := 0x51
def opSwap : UInt8 := 0x7c
def opChecksig : UInt8 := 0xac
def opIf : UInt8 := 0x63
def opEndif : UInt8 := 0x68
def opAdd : UInt8 := 0x93
def opGreaterThanOrEqual : UInt8 := 0xa2

/-- A length-prefixed push in its direct, PUSHDATA1, PUSHDATA2 or PUSHDATA4 form. -/
def pushSlice (data : List UInt8) : Script :=
  let n := data.length
  if n < 0x4c then UInt8.ofNat n :: data
  else if n < 0x100 then 0x4c :: UInt8.ofNat n :: data
  else if n < 0x10000 then 0x4d :: (toLe 2 n ++ data)
  else 0x4e :: (toLe 4 n ++ data)

/-- Minimal script number of a positive integer: little-endian, with a zero byte
appended when the top bit would read as a sign. -/
def scriptNumber : Nat → Nat → List UInt8
  | 0, _ => []
  | fuel + 1, n =>
    if n = 0 then []
    else if n < 0x80 then [UInt8.ofNat n]
    else if n < 0x100 then [UInt8.ofNat n, 0]
    else UInt8.ofNat (n % 256) :: scriptNumber fuel (n / 256)

def pushInt (n : Nat) : Script :=
  if n = 0 then [0x00]
  else if n ≤ 16 then [UInt8.ofNat (0x50 + n)]
  else pushSlice (scriptNumber 9 n)

def makeOpReturnScript (data : List UInt8) : Script := opReturn :: pushSlice data

/-- Pushes the data in chunks of 520 bytes, dropping each of them. -/
def pushChunks : Nat → List UInt8 → Script
  | 0, _ => []
  | fuel + 1, data =>
    if data = [] then []
    else pushSlice (data.take 520) ++ opDrop :: pushChunks fuel (data.drop 520)

def makePushDataScript (data : List UInt8) : Script :=
  pushChunks data.length data ++ [opTrue]

inductive Instruction where
  | pushBytes (data : List UInt8)
  | op (opcode : UInt8)
deriving DecidableEq

inductive ScriptError where
  | earlyEndOfScript
  | nonMinimalPush
deriving DecidableEq

/-- `read_push_data_len` and the push that follows it, for a length of `width` bytes. -/
def takePush (minimal : Bool) (width least : Nat) (rest : Script) :
    Except ScriptError (List UInt8 × Script) :=
  if rest.length < width then .error .earlyEndOfScript
  else
    let n := fromLe (rest.take width)
    let body := rest.drop width
    if minimal ∧ n < least then .error .nonMinimalPush
    else if body.length < n then .error .earlyEndOfScript
    else .ok (body.take n, body.drop n)

/-- A direct push of `n` bytes. -/
def takeDirect (minimal : Bool) (n : Nat) (rest : Script) :
    Except ScriptError (List UInt8 × Script) :=
  if minimal ∧ n = 1 ∧ (rest.head? = some 0x81 ∨
      ∃ b ∈ rest.head?, 0 < b.toNat ∧ b.toNat ≤ 16) then .error .nonMinimalPush
  else if rest.length < n then .error .earlyEndOfScript
  else .ok (rest.take n, rest.drop n)

def readInstructions (minimal : Bool) : Nat → Script → List (Except ScriptError Instruction)
  | 0, _ => []
  | _ + 1, [] => []
  | fuel + 1, b :: rest =>
    let pushed : Except ScriptError (List UInt8 × Script) → List (Except ScriptError Instruction)
      | .error e => [.error e]
      | .ok (data, tail) => .ok (.pushBytes data) :: readInstructions minimal fuel tail
    if b.toNat ≤ 0x4b then pushed (takeDirect minimal b.toNat rest)
    else if b = 0x4c then pushed (takePush minimal 1 76 rest)
    else if b = 0x4d then pushed (takePush minimal 2 0x100 rest)
    else if b = 0x4e then pushed (takePush minimal 4 0x10000 rest)
    else .ok (.op b) :: readInstructions minimal fuel rest

def instructions (s : Script) : List (Except ScriptError Instruction) :=
  readInstructions false s.length s

def instructionsMinimal (s : Script) : List (Except ScriptError Instruction) :=
  readInstructions true s.length s

/-- The first pushed byte string, however the script starts. -/
def firstPush (s : Script) : Option (List UInt8) :=
  (instructionsMinimal s).findSome? fun
    | .ok (.pushBytes data) => some data
    | _ => none

/-- The first push of a marker script is the data it was made with. -/
theorem firstPush_makeOpReturnScript (data : List UInt8) (hlo : 2 ≤ data.length)
    (hhi : data.length < 0x100) : firstPush (makeOpReturnScript data) = some data := by
  have hret : ¬ (opReturn : UInt8).toNat ≤ 0x4b := by decide
  have h1 : (opReturn : UInt8) ≠ 0x4c := by decide
  have h2 : (opReturn : UInt8) ≠ 0x4d := by decide
  have h3 : (opReturn : UInt8) ≠ 0x4e := by decide
  have htoNat : (UInt8.ofNat data.length).toNat = data.length := by
    simp [Nat.mod_eq_of_lt hhi]
  by_cases hd : data.length < 0x4c
  · have hle : data.length ≤ 0x4b := by omega
    have hn1 : data.length ≠ 1 := by omega
    simp [firstPush, instructionsMinimal, makeOpReturnScript, pushSlice, hd,
      readInstructions, hret, h1, h2, h3, htoNat, hle, takeDirect, hn1]
  · have hlen : fromLe [UInt8.ofNat data.length] = data.length := by
      simp [fromLe, htoNat]
    simp [firstPush, instructionsMinimal, makeOpReturnScript, pushSlice, hd, hhi,
      readInstructions, hret, h1, h2, h3, takePush, hlen]

inductive BitcoinUtilsError where
  | unsupportedOpCode
  | errorParsingWitnessScript
  | feeRateOverflow
deriving DecidableEq

/-- The pushed data of a script whose only other instructions are drops and `OP_TRUE`. -/
def concatenatePushes :
    List (Except ScriptError Instruction) → Except BitcoinUtilsError (List UInt8)
  | [] => .ok []
  | .ok (.pushBytes data) :: rest => (concatenatePushes rest).map (data ++ ·)
  | .ok (.op o) :: rest =>
    if o = opDrop ∨ o = opTrue then concatenatePushes rest else .error .unsupportedOpCode
  | .error _ :: _ => .error .errorParsingWitnessScript

def concatenateOpPushData (witness : List UInt8) : Except BitcoinUtilsError (List UInt8) :=
  concatenatePushes (instructions witness)

/-- A pushed chunk is read as one instruction. -/
theorem readInstructions_pushSlice {data : List UInt8} (h : data.length < 0x10000) (fuel : Nat)
    (rest : Script) : readInstructions false (fuel + 1) (pushSlice data ++ rest) =
      .ok (.pushBytes data) :: readInstructions false fuel rest := by
  unfold pushSlice
  dsimp only
  split_ifs with h1 h2
  · have hlen : (UInt8.ofNat data.length).toNat = data.length := by
      rw [UInt8.toNat_ofNat']
      omega
    have hle : data.length ≤ 0x4b := by omega
    simp [readInstructions, takeDirect, hlen, hle]
  · have hlen : fromLe [UInt8.ofNat data.length] = data.length := by
      simp [fromLe, Nat.mod_eq_of_lt h2]
    simp [readInstructions, takePush, hlen]
  · have hlen : fromLe (toLe 2 data.length) = data.length := fromLe_toLe_of_lt (by omega)
    have htake : (toLe 2 data.length ++ (data ++ rest)).take 2 = toLe 2 data.length :=
      List.take_left' (length_toLe _ _)
    have hdrop : (toLe 2 data.length ++ (data ++ rest)).drop 2 = data ++ rest :=
      List.drop_left' (length_toLe _ _)
    have henough : ¬ (toLe 2 data.length ++ (data ++ rest)).length < 2 := by
      rw [List.length_append, length_toLe]
      omega
    have hpush : takePush false 2 0x100 (toLe 2 data.length ++ (data ++ rest)) =
        .ok (data, rest) := by
      rw [takePush, if_neg henough]
      simp [htake, hdrop, hlen]
    simp [readInstructions, hpush]

theorem length_pushSlice_pos (data : List UInt8) : 0 < (pushSlice data).length := by
  unfold pushSlice
  dsimp only
  split_ifs <;> simp

/-- A chunk that is pushed and dropped. -/
def pushedAndDropped (chunk : List UInt8) : List (Except ScriptError Instruction) :=
  [.ok (.pushBytes chunk), .ok (.op opDrop)]

theorem concatenatePushes_chunks (chunks : List (List UInt8)) :
    concatenatePushes (chunks.flatMap pushedAndDropped ++ [.ok (.op opTrue)]) =
      .ok chunks.flatten := by
  induction chunks with
  | nil => rfl
  | cons chunk rest ih =>
    simp only [List.flatMap_cons, pushedAndDropped, List.cons_append, List.nil_append,
      concatenatePushes, List.flatten_cons]
    rw [if_pos (Or.inl trivial), ih]
    rfl

/-- The script is read as its chunks, in order and each of a length that may be pushed. -/
theorem readInstructions_pushChunks (n : Nat) {data : List UInt8} (h : data.length ≤ n)
    {fuel : Nat} (hfuel : (pushChunks n data ++ [opTrue]).length ≤ fuel) :
    ∃ chunks : List (List UInt8), readInstructions false fuel (pushChunks n data ++ [opTrue]) =
        chunks.flatMap pushedAndDropped ++ [.ok (.op opTrue)] ∧
      chunks.flatten = data ∧ ∀ chunk ∈ chunks, 0 < chunk.length ∧ chunk.length ≤ 520 := by
  have hend : ∀ k, 0 < k → readInstructions false k [opTrue] = [.ok (.op opTrue)] := by
    intro k hk
    obtain ⟨k, rfl⟩ := Nat.exists_eq_succ_of_ne_zero hk.ne'
    cases k <;> rfl
  induction n generalizing data fuel with
  | zero =>
    have hnil : data = [] := List.length_eq_zero_iff.mp (Nat.le_zero.mp h)
    exact ⟨[], hend fuel hfuel, hnil.symm, by simp⟩
  | succ n ih =>
    rw [pushChunks] at hfuel ⊢
    split_ifs at hfuel ⊢ with hnil
    · exact ⟨[], hend fuel hfuel, hnil.symm, by simp⟩
    · have hpos : 0 < data.length := List.length_pos_iff.mpr hnil
      have hlen : (data.take 520).length = min 520 data.length := List.length_take
      have hchunk := length_pushSlice_pos (data.take 520)
      simp only [List.append_assoc, List.cons_append, List.length_append, List.length_cons]
        at hfuel ⊢
      obtain ⟨k, rfl⟩ : ∃ k, fuel = k + 1 + 1 := ⟨fuel - 2, by omega⟩
      have hrest : (data.drop 520).length ≤ n := by
        rw [List.length_drop]
        omega
      have henough : (pushChunks n (data.drop 520) ++ [opTrue]).length ≤ k := by
        rw [List.length_append, List.length_cons]
        omega
      obtain ⟨chunks, hread, hflat, hsizes⟩ := ih hrest henough
      refine ⟨data.take 520 :: chunks, ?_, ?_, ?_⟩
      · have hdrop : readInstructions false (k + 1) (opDrop :: (pushChunks n (data.drop 520) ++
            [opTrue])) = .ok (.op opDrop) ::
              readInstructions false k (pushChunks n (data.drop 520) ++ [opTrue]) := rfl
        rw [readInstructions_pushSlice (by omega), hdrop, hread]
        rfl
      · rw [List.flatten_cons, hflat, List.take_append_drop]
      · intro chunk hmem
        rcases List.mem_cons.mp hmem with rfl | hrest
        · omega
        · exact hsizes chunk hrest

/-- What is pushed in chunks is read back whole. -/
theorem concatenateOpPushData_make (data : List UInt8) :
    concatenateOpPushData (makePushDataScript data) = .ok data := by
  obtain ⟨chunks, hread, hflat, -⟩ := readInstructions_pushChunks data.length le_rfl le_rfl
  rw [concatenateOpPushData, instructions, makePushDataScript, hread, concatenatePushes_chunks,
    hflat]

/-- The round trip of a data script of any length, whose instructions are pushes of at most
520 bytes, each followed by a drop, and the final `OP_TRUE`. -/
theorem makePushDataScript_round_trip (data : List UInt8) :
    concatenateOpPushData (makePushDataScript data) = .ok data ∧
      ∃ chunks : List (List UInt8), instructions (makePushDataScript data) =
          chunks.flatMap pushedAndDropped ++ [.ok (.op opTrue)] ∧
        chunks.flatten = data ∧ ∀ chunk ∈ chunks, 0 < chunk.length ∧ chunk.length ≤ 520 :=
  ⟨concatenateOpPushData_make data, readInstructions_pushChunks data.length le_rfl le_rfl⟩

def isP2pkh (s : Script) : Bool :=
  s.length == 25 && s.take 3 == [0x76, 0xa9, 0x14] && s.drop 23 == [0x88, 0xac]

def isP2sh (s : Script) : Bool :=
  s.length == 23 && s.take 2 == [0xa9, 0x14] && s.drop 22 == [0x87]

/-- A witness version opcode and one direct push of 2 to 40 bytes; version zero
programs have 20 or 32 bytes. -/
def isWitnessProgram (s : Script) : Bool :=
  match s with
  | version :: len :: program =>
    program.length == len.toNat && 2 ≤ program.length && program.length ≤ 40 &&
      ((version == 0 && (program.length == 20 || program.length == 32)) ||
        (0x51 ≤ version && version ≤ 0x60))
  | _ => false

def isStandardScript (s : Script) : Bool := isP2pkh s || isP2sh s || isWitnessProgram s

/-- The network part of an unchecked address, seen from the network in use. -/
inductive NetworkTag where
  | current
  | other
deriving DecidableEq

/-- An address is the script it stands for and a network. -/
structure Address where
  network : NetworkTag
  scriptPubkey : Script
  standard : isStandardScript scriptPubkey = true
deriving DecidableEq

namespace Address

def isValidForNetwork (a : Address) : Bool := a.network == .current

/-- `require_network(NETWORK)` followed by `expect`. -/
def requireNetwork {ε : Type} (a : Address) : Outcome ε Address :=
  if a.isValidForNetwork then .ok a else panicked

def fromScript (s : Script) : Option Address :=
  if h : isStandardScript s = true then some ⟨.current, s, h⟩ else none

theorem fromScript_scriptPubkey {a : Address} (h : a.isValidForNetwork = true) :
    fromScript a.scriptPubkey = some a := by
  rcases a with ⟨n, s, hs⟩
  have hn : n = .current := by simpa [isValidForNetwork] using h
  simp [fromScript, hs, hn]

theorem fromScript_eq_some {s : Script} {a : Address} (h : fromScript s = some a) :
    a.scriptPubkey = s ∧ a.isValidForNetwork = true := by
  simp only [fromScript] at h
  split at h
  · cases h
    exact ⟨rfl, rfl⟩
  · cases h

theorem requireNetwork_eq_ok {ε : Type} {a b : Address} :
    (a.requireNetwork : Outcome ε Address) = .ok b ↔ a.isValidForNetwork = true ∧ a = b := by
  by_cases h : a.isValidForNetwork = true <;> simp [requireNetwork, h]

def p2trScript (outputKey : FixedBytes 32) : Script := 0x51 :: 0x20 :: outputKey.bytes

theorem p2trScript_standard (k : FixedBytes 32) : isStandardScript (p2trScript k) = true := by
  simp [isStandardScript, isWitnessProgram, p2trScript, k.length_eq]

/-- The taproot address of an output key on the current network. -/
def p2tr (outputKey : FixedBytes 32) : Address :=
  ⟨.current, p2trScript outputKey, p2trScript_standard outputKey⟩

@[simp] theorem p2tr_valid (k : FixedBytes 32) : (p2tr k).isValidForNetwork = true := rfl

theorem fromScript_p2trScript (k : FixedBytes 32) :
    fromScript (p2trScript k) = some (p2tr k) := by
  simp [fromScript, p2trScript_standard, p2tr]

end Address

end Chain
