import BitcoinIpc.Batch

/-!
# Compact amounts

The binary form of the 256-bit integers of the token records: one byte with the
length of the magnitude, and the magnitude in big-endian order without leading
zeros. A signed integer has its sign in the high bit of the first byte. What is
written is read back, and so is the whole content of a batch transfer if the
serializer reads back the strings, numbers and bytes it is made of.
-/

namespace Messages

open Faults Bytes Chain Crates

namespace CompactAmount

def encodeMagnitude (abs : U256) : List UInt8 :=
  let payload := (toBe 32 abs.val).dropWhile (· == 0)
  UInt8.ofNat payload.length :: payload

/-- The low seven bits of the first byte are the length. -/
def decodeMagnitude : List UInt8 → Except String U256
  | [] => .error "empty compact amount"
  | header :: rest =>
    let n := (header &&& 0x7f).toNat
    if 32 < n then .error "compact amount length > 32"
    else if rest.length ≠ n then .error "compact amount length mismatch"
    else .ok (Fin.ofNat u256Bound (fromBe (List.replicate (32 - n) 0 ++ rest)))

theorem length_dropWhile_toBe (n : Nat) : ((toBe 32 n).dropWhile (· == 0)).length ≤ 32 := by
  rw [← length_toBe 32 n]
  exact (List.dropWhile_sublist _).length_le

/-- The leading zeros are put back. -/
theorem replicate_append_dropWhile (n : Nat) :
    List.replicate (32 - ((toBe 32 n).dropWhile (· == 0)).length) 0 ++
      (toBe 32 n).dropWhile (· == 0) = toBe 32 n := by
  have hsplit := List.takeWhile_append_dropWhile (p := (· == 0)) (l := toBe 32 n)
  have hzeros : (toBe 32 n).takeWhile (· == 0) =
      List.replicate ((toBe 32 n).takeWhile (· == 0)).length 0 := by
    refine List.eq_replicate_of_mem (fun b hb => ?_)
    exact eq_of_beq (List.all_eq_true.mp List.all_takeWhile b hb)
  have hlen : ((toBe 32 n).takeWhile (· == 0)).length =
      32 - ((toBe 32 n).dropWhile (· == 0)).length := by
    have := congrArg List.length hsplit
    rw [List.length_append, length_toBe] at this
    omega
  rw [← hlen, ← hzeros, hsplit]

/-- A header with the length in its low bits. -/
theorem decodeMagnitude_of_header {header : UInt8} (v : U256)
    (h : (header &&& 0x7f).toNat = ((toBe 32 v.val).dropWhile (· == 0)).length) :
    decodeMagnitude (header :: (toBe 32 v.val).dropWhile (· == 0)) = .ok v := by
  have hle := length_dropWhile_toBe v.val
  have hlt : v.val < 256 ^ 32 := lt_of_lt_of_le v.isLt (by decide)
  simp only [decodeMagnitude, h]
  rw [if_neg (by omega), if_neg (by simp), replicate_append_dropWhile, fromBe_toBe_of_lt hlt]
  exact congrArg Except.ok (Fin.ext (Nat.mod_eq_of_lt v.isLt))

theorem header_bits : ∀ n : Fin 33, (UInt8.ofNat n.val &&& 0x7f).toNat = n.val ∧
    ((UInt8.ofNat n.val ||| 0x80) &&& 0x7f).toNat = n.val ∧
    UInt8.ofNat n.val &&& 0x80 = 0 ∧ (UInt8.ofNat n.val ||| 0x80) &&& 0x80 ≠ 0 := by
  decide

theorem decodeMagnitude_encodeMagnitude (v : U256) : decodeMagnitude (encodeMagnitude v) = .ok v :=
  decodeMagnitude_of_header v
    (header_bits ⟨_, Nat.lt_succ_of_le (length_dropWhile_toBe v.val)⟩).1

/-- `checked_from_sign_and_abs`: zero has both signs. -/
def checkedFromSignAndAbs (negative : Bool) (abs : U256) : Option I256 :=
  if negative then
    if h : abs.val ≤ 2 ^ 255 then some ⟨-abs.val, by omega, by omega⟩ else none
  else if h : abs.val < 2 ^ 255 then some ⟨abs.val, by omega, by omega⟩
  else none

def encodeSigned (v : I256) : List UInt8 :=
  match encodeMagnitude v.abs with
  | [] => []
  | header :: payload => (if v.isNegative then header ||| 0x80 else header) :: payload

/-- The integers are made from their sign and absolute value by `convert`. -/
def decodeSigned (convert : Bool → U256 → Option I256) : List UInt8 → Except String I256
  | [] => .error "empty compact I256"
  | header :: rest => do
    let negative := header &&& 0x80 ≠ 0
    let abs ← decodeMagnitude (header :: rest)
    match convert negative abs with
    | some v => .ok v
    | none => .error "I256 overflow (negative zero)"

theorem checkedFromSignAndAbs_abs (v : I256) :
    checkedFromSignAndAbs v.isNegative v.abs = some v := by
  obtain ⟨z, hlow, hhigh⟩ := v
  unfold checkedFromSignAndAbs I256.isNegative I256.abs
  dsimp only
  by_cases hz : z < 0
  · rw [if_pos (decide_eq_true hz), dif_pos (by omega)]
    simp only [Option.some.injEq, I256.mk.injEq]
    omega
  · rw [if_neg (by simpa using hz), dif_pos (by omega)]
    simp only [Option.some.injEq, I256.mk.injEq]
    omega

/-- `be[32 - n..].copy_from_slice(src)`, which panics if the subtraction underflows, out of
range, and if the lengths differ. -/
def copyToEnd (be : List UInt8) (n : Nat) (src : List UInt8) : Outcome String (List UInt8) := do
  assertThat (n ≤ 32)
  let dst ← slice be (32 - n) be.length
  assertThat (dst.length = src.length)
  return be.take (32 - n) ++ src

/-- `visit_bytes` of the unsigned integers, which is `decode_magnitude`. -/
def visitU256 (v : List UInt8) : Outcome String U256 := do
  ensure (v ≠ []) "empty compact amount"
  let header ← index v 0
  let n := (header &&& 0x7f).toNat
  ensure (n ≤ 32) "compact amount length > 32"
  ensure (v.length = 1 + n) "compact amount length mismatch"
  let be ←
    if 0 < n then do
      let payload ← slice v 1 v.length
      copyToEnd (List.replicate 32 0) n payload
    else .ok (List.replicate 32 0)
  return Fin.ofNat u256Bound (fromBe be)

/-- `visit_bytes` of the signed integers; `convert` is `I256::checked_from_sign_and_abs`. -/
def visitI256 (convert : Bool → U256 → Option I256) (v : List UInt8) : Outcome String I256 := do
  ensure (v ≠ []) "empty compact I256"
  let header ← index v 0
  let negative : Bool := header &&& 0x80 ≠ 0
  let abs ← visitU256 v
  okOr (convert negative abs) "I256 overflow (negative zero)"

/-- What the conversion is documented to do: a result has the sign and the absolute value it
was made from, and every integer is made from its own. -/
structure SignLaws (convert : Bool → U256 → Option I256) : Prop where
  value : ∀ negative abs v, convert negative abs = some v →
    v.val = if negative then -(abs.val : Int) else abs.val
  own : ∀ v : I256, convert v.isNegative v.abs = some v

theorem signLaws_checked : SignLaws checkedFromSignAndAbs where
  value negative abs v h := by
    cases negative with
    | false =>
      simp only [checkedFromSignAndAbs, Bool.false_eq_true, if_false] at h ⊢
      split_ifs at h
      exact (congrArg I256.val (Option.some.inj h)).symm
    | true =>
      simp only [checkedFromSignAndAbs, if_true] at h ⊢
      split_ifs at h
      exact (congrArg I256.val (Option.some.inj h)).symm
  own := checkedFromSignAndAbs_abs

theorem copyToEnd_zeros {n : Nat} (hn : n ≤ 32) {src : List UInt8} (hsrc : src.length = n) :
    copyToEnd (List.replicate 32 0) n src = .ok (List.replicate (32 - n) 0 ++ src) := by
  have hslice : (slice (List.replicate 32 (0 : UInt8)) (32 - n) 32 : Outcome String _) =
      .ok (List.replicate n 0) := by
    rw [slice_of_le (by omega) (by simp), List.drop_replicate, List.take_replicate]
    exact congrArg (fun k => Except.ok (List.replicate k 0)) (by omega)
  simp only [copyToEnd, List.length_replicate, hslice, assertThat, if_pos hn, hsrc, if_true,
    ok_bind, List.take_replicate, pure_eq]
  exact congrArg (fun k => Except.ok (List.replicate k 0 ++ src)) (by omega)

/-- No index is out of range: the decoder computes what the match on the header does. -/
theorem visitU256_eq (v : List UInt8) :
    visitU256 v = (decodeMagnitude v).mapError Failure.error := by
  match v with
  | [] => rfl
  | header :: rest =>
    have hindex : (index (header :: rest) 0 : Outcome String UInt8) = .ok header := rfl
    simp only [visitU256, decodeMagnitude, hindex, ok_bind,
      ensure_pos (List.cons_ne_nil header rest)]
    by_cases hn : (header &&& 0x7f).toNat ≤ 32
    · have hshort : ¬ 32 < (header &&& 0x7f).toNat := by omega
      by_cases hlen : rest.length = (header &&& 0x7f).toNat
      · have hwhole : (header :: rest).length = 1 + (header &&& 0x7f).toNat := by
          rw [List.length_cons, hlen]
          omega
        have hpayload : (slice (header :: rest) 1 (header :: rest).length : Outcome String _) =
            .ok rest := by
          rw [slice_of_le (by simp) le_rfl]
          simp
        rw [ensure_pos hn, ensure_pos hwhole, if_neg hshort, if_neg (not_not.mpr hlen)]
        simp only [ok_bind, hpayload, copyToEnd_zeros hn hlen]
        split_ifs with hpos
        · rfl
        · have hnil : rest = [] := List.length_eq_zero_iff.mp (by omega)
          have hzero : (header &&& 0x7f).toNat = 0 := by omega
          rw [hnil, hzero]
          rfl
      · have hwhole : ¬ (header :: rest).length = 1 + (header &&& 0x7f).toNat := by
          rw [List.length_cons]
          omega
        rw [ensure_pos hn, ensure_neg hwhole, if_neg hshort, if_pos hlen]
        rfl
    · have hlong : 32 < (header &&& 0x7f).toNat := by omega
      rw [ensure_neg hn, if_pos hlong]
      rfl

/-- A string that reads as a number: its length is in the low bits of the first byte. -/
structure Spells (header : UInt8) (payload : List UInt8) (n : Nat) : Prop where
  length_le : (header &&& 0x7f).toNat ≤ 32
  length_eq : payload.length = (header &&& 0x7f).toNat
  value : fromBe payload = n

theorem decodeMagnitude_eq_ok {header : UInt8} {payload : List UInt8} {v : U256} :
    decodeMagnitude (header :: payload) = .ok v ↔ Spells header payload v.val := by
  constructor
  · intro h
    simp only [decodeMagnitude] at h
    split_ifs at h with hlong hlen
    have hlen : payload.length = (header &&& 0x7f).toNat := not_not.mp hlen
    have hbound : fromBe payload < u256Bound := by
      refine lt_of_lt_of_le (fromBe_lt payload) ?_
      calc 256 ^ payload.length ≤ 256 ^ 32 := Nat.pow_le_pow_right (by decide) (by omega)
        _ ≤ u256Bound := by decide
    refine ⟨by omega, hlen, ?_⟩
    rw [fromBe_zeros_append] at h
    have hval := congrArg Fin.val (Except.ok.inj h)
    rwa [Fin.val_ofNat, Nat.mod_eq_of_lt hbound] at hval
  · rintro ⟨hle, hlen, hvalue⟩
    simp only [decodeMagnitude]
    rw [if_neg (by omega), if_neg (not_not.mpr hlen), fromBe_zeros_append, hvalue]
    exact congrArg Except.ok (Fin.ext (Nat.mod_eq_of_lt v.isLt))

theorem visitU256_eq_ok {bytes : List UInt8} {v : U256} : visitU256 bytes = .ok v ↔
    ∃ header payload, bytes = header :: payload ∧ Spells header payload v.val := by
  rw [visitU256_eq]
  match bytes with
  | [] => simp [decodeMagnitude, Except.mapError]
  | header :: payload =>
    have hlift : (decodeMagnitude (header :: payload)).mapError Failure.error = .ok v ↔
        decodeMagnitude (header :: payload) = .ok v := by
      cases decodeMagnitude (header :: payload) <;> simp [Except.mapError]
    rw [hlift, decodeMagnitude_eq_ok]
    simp

theorem calm_visitU256 (bytes : List UInt8) : Calm (visitU256 bytes) := by
  rw [visitU256_eq]
  cases decodeMagnitude bytes with
  | error e =>
    intro h
    cases h
  | ok v => exact calm_ok v

section Signed

variable {convert : Bool → U256 → Option I256}

theorem visitI256_cons (header : UInt8) (payload : List UInt8) :
    visitI256 convert (header :: payload) = (do
      let abs ← visitU256 (header :: payload)
      okOr (convert (decide (header &&& 0x80 ≠ 0)) abs) "I256 overflow (negative zero)") := rfl

theorem calm_visitI256 (bytes : List UInt8) : Calm (visitI256 convert bytes) := by
  match bytes with
  | [] =>
    intro h
    cases h
  | header :: payload =>
    rw [visitI256_cons]
    exact (calm_visitU256 _).bind fun abs _ => calm_okOr _ _

variable (laws : SignLaws convert)
include laws

theorem spells_of_visitI256 {bytes : List UInt8} {v : I256} (h : visitI256 convert bytes = .ok v) :
    ∃ header payload, bytes = header :: payload ∧
      ∃ abs, Spells header payload abs ∧
        v.val = if header &&& 0x80 ≠ 0 then -(abs : Int) else abs := by
  match bytes with
  | [] => cases h
  | header :: payload =>
    rw [visitI256_cons] at h
    obtain ⟨abs, habs, hconvert⟩ := bind_eq_ok.mp h
    obtain ⟨header', payload', heq, hspells⟩ := visitU256_eq_ok.mp habs
    obtain ⟨rfl, rfl⟩ := List.cons.inj heq
    refine ⟨header, payload, rfl, abs.val, hspells, ?_⟩
    have hvalue := laws.value _ _ _ (okOr_eq_ok.mp hconvert)
    simpa only [decide_eq_true_eq] using hvalue

theorem visitI256_encodeSigned (v : I256) : visitI256 convert (encodeSigned v) = .ok v := by
  obtain ⟨hlow, hmarked, hplain, hsign⟩ :=
    header_bits ⟨_, Nat.lt_succ_of_le (length_dropWhile_toBe v.abs.val)⟩
  dsimp only at hlow hmarked hplain hsign
  have hown := laws.own v
  unfold encodeSigned encodeMagnitude
  cases hneg : v.isNegative with
  | false =>
    rw [hneg] at hown
    simp only [Bool.false_eq_true, if_false, visitI256_cons, visitU256_eq, hplain,
      decodeMagnitude_of_header v.abs hlow]
    simp [Except.mapError, okOr, hown]
  | true =>
    rw [hneg] at hown
    simp only [if_true, visitI256_cons, visitU256_eq, decodeMagnitude_of_header v.abs hmarked]
    simp [Except.mapError, okOr, hown, hsign]

end Signed

theorem visitI256_eq {convert : Bool → U256 → Option I256} (bytes : List UInt8) :
    visitI256 convert bytes = (decodeSigned convert bytes).mapError Failure.error := by
  match bytes with
  | [] => rfl
  | header :: payload =>
    rw [visitI256_cons, visitU256_eq, decodeSigned]
    cases decodeMagnitude (header :: payload) with
    | error e => rfl
    | ok abs =>
      simp only [Except.mapError, bind, Except.bind, okOr]
      cases convert (decide (header &&& 0x80 ≠ 0)) abs <;> rfl

theorem decodeSigned_encodeSigned {convert : Bool → U256 → Option I256} (laws : SignLaws convert)
    (v : I256) : decodeSigned convert (encodeSigned v) = .ok v := by
  have hread := visitI256_encodeSigned laws v
  rw [visitI256_eq] at hread
  cases h : decodeSigned convert (encodeSigned v) with
  | error e =>
    rw [h] at hread
    cases hread
  | ok w =>
    rw [h] at hread
    cases hread
    rfl

theorem head?_dropWhile_toBe (n : Nat) : ((toBe 32 n).dropWhile (· == 0)).head? ≠ some 0 := by
  intro h
  have hfirst := List.head?_dropWhile_not (· == 0) (toBe 32 n)
  rw [h] at hfirst
  simp at hfirst

/-- The binary form of the two kinds of integers: every value is read back, no payload starts
with a zero, and the decoders return an error on every string that is not the length of a
magnitude, its sign if it is signed, and the bytes of the magnitude. -/
theorem compact_amounts_read_back {convert : Bool → U256 → Option I256}
    (laws : SignLaws convert) :
    (∀ v : U256, visitU256 (encodeMagnitude v) = .ok v ∧
      (encodeMagnitude v).tail.head? ≠ some 0) ∧
    (∀ v : I256, visitI256 convert (encodeSigned v) = .ok v ∧
      (encodeSigned v).tail.head? ≠ some 0) ∧
    (∀ bytes, Calm (visitU256 bytes) ∧ ∀ v, visitU256 bytes = .ok v ↔
      ∃ header payload, bytes = header :: payload ∧ Spells header payload v.val) ∧
    ∀ bytes, Calm (visitI256 convert bytes) ∧ ∀ v, visitI256 convert bytes = .ok v →
      ∃ header payload, bytes = header :: payload ∧ ∃ abs, Spells header payload abs ∧
        v.val = if header &&& 0x80 ≠ 0 then -(abs : Int) else abs := by
  refine ⟨fun v => ⟨?_, head?_dropWhile_toBe v.val⟩,
    fun v => ⟨visitI256_encodeSigned laws v, head?_dropWhile_toBe v.abs.val⟩,
    fun bytes => ⟨calm_visitU256 bytes, fun v => visitU256_eq_ok⟩,
    fun bytes => ⟨calm_visitI256 bytes, fun v => spells_of_visitI256 laws⟩⟩
  rw [visitU256_eq, decodeMagnitude_encodeMagnitude]
  rfl

theorem compact_amounts_read_back_neg :
    visitI256 checkedFromSignAndAbs (encodeSigned ⟨-1, by decide, by decide⟩) =
        .ok ⟨-1, by decide, by decide⟩ :=
  ((compact_amounts_read_back signLaws_checked).2.1 ⟨-1, by decide, by decide⟩).1

end CompactAmount

structure RawRegistration where
  homeTokenAddress : EthAddress
  name : List Char
  symbol : List Char
  decimals : Nat
  initialSupply : List UInt8
deriving DecidableEq

structure RawAdjustment where
  homeTokenAddress : EthAddress
  delta : List UInt8
deriving DecidableEq

structure RawErcTransfer where
  homeSubnetId : List Char
  homeTokenAddress : EthAddress
  amount : List UInt8
  recipient : EthAddress
deriving DecidableEq

/-- The content of a batch transfer in strings, numbers and bytes. -/
structure RawBatch where
  transfers : List (Txid20 × List (EthAddress × Amount))
  tokenRegistrations : List RawRegistration
  tokenSupplyAdjustments : List RawAdjustment
  tokenTransfers : List (Txid20 × List RawErcTransfer)
deriving DecidableEq

section Raw

variable (X : Library) (convert : Bool → U256 → Option I256)

def IpcErcTokenRegistration.serialize (r : IpcErcTokenRegistration) : RawRegistration :=
  ⟨r.homeTokenAddress, r.name, r.symbol, r.decimals,
    CompactAmount.encodeMagnitude r.initialSupply⟩

def RawRegistration.deserialize (r : RawRegistration) : Option IpcErcTokenRegistration := do
  let supply ← (CompactAmount.decodeMagnitude r.initialSupply).toOption
  return ⟨r.homeTokenAddress, r.name, r.symbol, r.decimals, supply⟩

def IpcErcSupplyAdjustment.serialize (a : IpcErcSupplyAdjustment) : RawAdjustment :=
  ⟨a.homeTokenAddress, CompactAmount.encodeSigned a.delta⟩

def RawAdjustment.deserialize (a : RawAdjustment) : Option IpcErcSupplyAdjustment := do
  let delta ← (CompactAmount.decodeSigned convert a.delta).toOption
  return ⟨a.homeTokenAddress, delta⟩

def IpcCrossSubnetErcTransferWire.serialize (w : IpcCrossSubnetErcTransferWire) : RawErcTransfer :=
  ⟨subnetDisplay X w.homeSubnetId, w.homeTokenAddress, CompactAmount.encodeMagnitude w.amount,
    w.recipient⟩

def RawErcTransfer.deserialize (w : RawErcTransfer) : Option IpcCrossSubnetErcTransferWire := do
  let home ← subnetFromStr X w.homeSubnetId
  let amount ← (CompactAmount.decodeMagnitude w.amount).toOption
  return ⟨home, w.homeTokenAddress, amount, w.recipient⟩

def BatchTransferWireData.serialize (b : BatchTransferWireData) : RawBatch :=
  ⟨b.transfers, b.tokenRegistrations.map (·.serialize), b.tokenSupplyAdjustments.map (·.serialize),
    b.tokenTransfers.map (fun e => (e.1, e.2.map (·.serialize X)))⟩

def RawBatch.deserialize (b : RawBatch) : Option BatchTransferWireData := do
  let registrations ← b.tokenRegistrations.mapM (·.deserialize)
  let adjustments ← b.tokenSupplyAdjustments.mapM (·.deserialize convert)
  let transfers ← b.tokenTransfers.mapM
    (fun e => (e.2.mapM (RawErcTransfer.deserialize X)).map (e.1, ·))
  return ⟨b.transfers, registrations, adjustments, transfers⟩

/-- The serializer of the batch, which is left open but for the form of the fields, and the
conversion of signed integers that it reads them with. -/
structure Postcard where
  toStdvec : RawBatch → Option (List UInt8)
  fromSignAndAbs : Bool → U256 → Option I256

/-- The batches of the library are written by the serializer, and what it wrote is read back field
by field. -/
structure PostcardLaws (P : Postcard) : Prop where
  sign : CompactAmount.SignLaws P.fromSignAndAbs
  encode : ∀ wire, X.encodeBatch wire = P.toStdvec (wire.serialize X)
  decode : ∀ raw bytes, P.toStdvec raw = some bytes →
    X.decodeBatch bytes = raw.deserialize X P.fromSignAndAbs

/-- A printed address is read back, and holds no slash. -/
structure FvmTextLaws : Prop where
  fvm_read_back : ∀ a, X.fvmFromStr (X.fvmDisplay a) = some a
  fvm_no_slash : ∀ a, '/' ∉ X.fvmDisplay a

end Raw

section Reads

variable {X : Library}

theorem mapM_map_of_forall {α β : Type} {f : α → β} {g : β → Option α} (h : ∀ a, g (f a) = some a)
    (l : List α) : (l.map f).mapM g = some l := by
  induction l with
  | nil => rfl
  | cons a rest ih =>
    rw [List.map_cons, List.mapM_cons, h, ih]
    rfl

theorem IpcErcTokenRegistration.deserialize_serialize (r : IpcErcTokenRegistration) :
    r.serialize.deserialize = some r := by
  simp only [serialize, RawRegistration.deserialize,
    CompactAmount.decodeMagnitude_encodeMagnitude]
  rfl

theorem IpcErcSupplyAdjustment.deserialize_serialize {convert : Bool → U256 → Option I256}
    (sign : CompactAmount.SignLaws convert) (a : IpcErcSupplyAdjustment) :
    a.serialize.deserialize convert = some a := by
  simp only [serialize, RawAdjustment.deserialize, CompactAmount.decodeSigned_encodeSigned sign]
  rfl

variable (laws : FvmTextLaws X)
include laws

theorem IpcCrossSubnetErcTransferWire.deserialize_serialize (w : IpcCrossSubnetErcTransferWire) :
    (w.serialize X).deserialize X = some w := by
  simp only [serialize, RawErcTransfer.deserialize,
    subnetFromStr_subnetDisplay (laws.fvm_no_slash _) (laws.fvm_read_back _),
    CompactAmount.decodeMagnitude_encodeMagnitude]
  rfl

theorem BatchTransferWireData.deserialize_serialize {convert : Bool → U256 → Option I256}
    (sign : CompactAmount.SignLaws convert) (b : BatchTransferWireData) :
    (b.serialize X).deserialize X convert = some b := by
  have htransfers := mapM_map_of_forall
    (f := fun e : Txid20 × List IpcCrossSubnetErcTransferWire => (e.1, e.2.map (·.serialize X)))
    (g := fun e => (e.2.mapM (RawErcTransfer.deserialize X)).map (e.1, ·)) (by
      intro e
      dsimp only
      rw [mapM_map_of_forall (IpcCrossSubnetErcTransferWire.deserialize_serialize laws)]
      rfl) b.tokenTransfers
  simp only [serialize, RawBatch.deserialize,
    mapM_map_of_forall IpcErcTokenRegistration.deserialize_serialize,
    mapM_map_of_forall (IpcErcSupplyAdjustment.deserialize_serialize sign), htransfers]
  rfl

/-- A batch that was serialized is read back. -/
theorem codecLaws_of_postcard {P : Postcard} (hP : PostcardLaws X P) : CodecLaws X where
  decode_encode wire bytes h := by
    rw [hP.encode] at h
    rw [hP.decode _ _ h]
    exact BatchTransferWireData.deserialize_serialize laws hP.sign wire

end Reads

end Messages
