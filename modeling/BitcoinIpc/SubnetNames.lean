import BitcoinIpc.CompactAmount
import BitcoinIpc.BatchRoundTrip

/-!
# Names of subnets

A subnet is printed as the name of the parent chain and an address, and read back
from it. The reader takes every address there is, while only the delegated
addresses of one namespace with 20 bytes are subnets: the other names are read as
ids that stand for no subnet, or for one that has another name.
-/

namespace Crates

open Faults Bytes Chain Messages Text

variable {X : Library}

/-- The text of the address in a name. -/
def addressPart (s : List Char) : List Char := s.drop 4

theorem addressPart_of_fromStr {s : List Char} {id : SubnetId} (h : subnetFromStr X s = some id) :
    X.fvmFromStr (addressPart s) = some id.addr := by
  obtain ⟨a, rfl, -, haddr⟩ := subnetFromStr_eq_some.mp h
  exact haddr

/-- An id stands for its own bytes exactly if it is in the namespace of the chain. -/
theorem denotes_iff {id : SubnetId} :
    (∃ t, (id.txid20 : Outcome String Txid20) = .ok t ∧ SubnetId.fromTxid20 t = id) ↔
      id.InNamespace := by
  constructor
  · rintro ⟨t, -, heq⟩
    exact ⟨t, heq.symm⟩
  · rintro ⟨t, rfl⟩
    exact ⟨t, SubnetId.txid20_fromTxid20 t, rfl⟩

/-- The names of subnets are read back, and an accepted name denotes the subnet of its own
bytes exactly if its address is a delegated one with 20 bytes in the namespace of the chain. -/
theorem subnet_names_denote_iff (laws : FvmTextLaws X) :
    (∀ b : Txid20, subnetFromStr X (subnetDisplay X (.fromTxid20 b)) = some (.fromTxid20 b)) ∧
    ∀ s id, subnetFromStr X s = some id →
      ((∃ t, (id.txid20 : Outcome String Txid20) = .ok t ∧ SubnetId.fromTxid20 t = id) ↔
        ∃ t : Txid20, X.fvmFromStr (addressPart s) =
          some (.delegated l1DelegatedNamespace t.bytes)) := by
  constructor
  · intro b
    exact subnetFromStr_subnetDisplay (laws.fvm_no_slash _) (laws.fvm_read_back _)
  · intro s id h
    rw [denotes_iff, addressPart_of_fromStr h]
    constructor
    · rintro ⟨t, rfl⟩
      exact ⟨t, rfl⟩
    · rintro ⟨t, ht⟩
      refine ⟨t, ?_⟩
      rcases id with ⟨addr⟩
      exact congrArg SubnetId.mk (Option.some.inj ht)

/-- The library that reads the printed addresses of its network, and no other text. -/
noncomputable def textLibrary : Library :=
  { ideal { } with fvmFromStr := Function.partialInv fvmText }

theorem fvmTextLaws_text : FvmTextLaws textLibrary where
  fvm_no_slash := fvmText_no_slash
  fvm_read_back a := Function.partialInv_left fvmText_injective a

/-- A name with the prefix of another network is refused. -/
theorem subnetFromStr_other_network {prefixed : Char} {rest : List Char}
    (h : prefixed ≠ networkPrefix) :
    subnetFromStr textLibrary ("/b4/".toList ++ prefixed :: rest) = none := by
  refine Option.eq_none_iff_forall_ne_some.mpr (fun id hid => ?_)
  have hread := addressPart_of_fromStr hid
  have htext : fvmText id.addr = prefixed :: rest :=
    (fvmText_injective.isPartialInv id.addr (prefixed :: rest)).mp hread
  refine h ?_
  cases haddr : id.addr <;> rw [haddr] at htext <;> exact (List.cons.inj htext).1.symm

/-- The address of an actor by its number is accepted. -/
theorem subnetFromStr_actor :
    subnetFromStr textLibrary "/b4/t01".toList = some ⟨.id 1⟩ :=
  subnetFromStr_subnetDisplay (s := ⟨.id 1⟩) (fvmTextLaws_text.fvm_no_slash _)
    (fvmTextLaws_text.fvm_read_back _)

/-- It stands for no subnet. -/
theorem subnet_names_denote_actor :
    (∃ t, ((⟨.id 1⟩ : SubnetId).txid20 : Outcome String Txid20) = .ok t ∧
        SubnetId.fromTxid20 t = ⟨.id 1⟩) ↔
      ∃ t : Txid20, textLibrary.fvmFromStr (addressPart "/b4/t01".toList) =
        some (.delegated l1DelegatedNamespace t.bytes) :=
  (subnet_names_denote_iff fvmTextLaws_text).2 _ _ subnetFromStr_actor

theorem subnet_names_fail : FvmTextLaws textLibrary ∧
    ¬ ∀ s id, subnetFromStr textLibrary s = some id →
      ∃ t, (id.txid20 : Outcome String Txid20) = .ok t ∧ SubnetId.fromTxid20 t = id := by
  refine ⟨fvmTextLaws_text, fun h => ?_⟩
  obtain ⟨t, htxid, -⟩ := h _ _ subnetFromStr_actor
  exact panicked_ne_ok t htxid

end Crates
