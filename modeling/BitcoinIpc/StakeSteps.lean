import BitcoinIpc.Effects
import BitcoinIpc.Lib.Accounts

/-!
# Stake changes as changes of an account book

A committee is read as an account book: the keys of its validators with their
collaterals. The handlers that change a stake lead from the latest committee to
the committee whose book is the changed one, whatever the minimum stake of the
subnet is.
-/

namespace Messages

open Faults Bytes Chain Crates Multisig Db Accounts

/-- A rest without power closes the account. -/
def powerless (amount : Amount) : Bool := powerOf amount = 0

/-- The account book of a committee. -/
def book (c : SubnetCommittee) : List (XOnlyPublicKey × Amount) :=
  c.validators.map (fun v => (v.pubkey, v.collateral))

def stakingChangeOf : StakingChange → Change
  | .deposit a => .deposit a
  | .withdraw a => .withdraw a
  | .join _ => .join

/-- The request a record of the log stands for. -/
def requestOf (r : StakeChangeRequest) : XOnlyPublicKey × Change :=
  (r.validatorXpk, stakingChangeOf r.change)

/-- Distinct keys, and the power each collateral gives. -/
structure Regular (c : SubnetCommittee) : Prop where
  nodup : (c.validators.map (·.pubkey)).Nodup
  power_eq : ∀ v ∈ c.validators, v.power = powerOf v.collateral

/-- The requests of a stake change, on the account book it starts from: a join with a
deposit for a new key, a deposit, or a withdrawal of no more than there is. -/
inductive StakeKind (c : SubnetCommittee) : List StakeChangeRequest → Prop
  | join {a b pubkey amount} : requestOf a = (pubkey, .join) →
      requestOf b = (pubkey, .deposit amount) → (∀ e ∈ book c, e.1 ≠ pubkey) → StakeKind c [a, b]
  | deposit {r pubkey amount collateral} : requestOf r = (pubkey, .deposit amount) →
      (pubkey, collateral) ∈ book c → StakeKind c [r]
  | withdraw {r pubkey amount collateral} : requestOf r = (pubkey, .withdraw amount) →
      (pubkey, collateral) ∈ book c → amount ≤ collateral → StakeKind c [r]

/-- A stake change: the committee it starts from, the one it leads to, the number
of its first request and its requests. -/
structure StakeStep (X : Library) (t : Txid20) (c next : SubnetCommittee) (first : Nat)
    (requests : List StakeChangeRequest) : Prop where
  derived : Derived X t next
  regular : Regular next
  number_eq : next.configurationNumber = c.configurationNumber + requests.length
  numbers_eq : requests.map (·.configurationNumber) = List.range' first requests.length
  after_eq : ∀ r ∈ requests, r.committeeAfterChange = next
  open_ : ∀ r ∈ requests, r.checkpointBlockHeight = none
  book_eq : book next = after powerless (book c) (requests.map requestOf)
  kind : StakeKind c requests

theorem mem_book_of_findValidator {c : SubnetCommittee} {v : SubnetValidator}
    {pubkey : XOnlyPublicKey} (h : c.findValidator pubkey = some v) :
    (v.pubkey, v.collateral) ∈ book c :=
  List.mem_map_of_mem (f := fun v : SubnetValidator => (v.pubkey, v.collateral))
    (List.mem_of_find?_eq_some h)

variable {X : Library} {t : Txid20} {c next : SubnetCommittee} {v : SubnetValidator} {n : Nat}

theorem book_eq_of_validators {vs : List SubnetValidator} (h : next.validators = vs) :
    book next = vs.map (fun v => (v.pubkey, v.collateral)) := by
  rw [book, h]

/-- A join opens an account and pays the collateral into it. -/
theorem join_book {vs : List SubnetValidator} (hnew : ∀ w ∈ vs, w.pubkey ≠ v.pubkey) :
    (vs ++ [v]).map (fun v => (v.pubkey, v.collateral)) =
      after powerless (vs.map (fun v => (v.pubkey, v.collateral)))
        [(v.pubkey, .join), (v.pubkey, .deposit v.collateral)] := by
  have hid : (vs.map (fun v => (v.pubkey, v.collateral))).map
      (fun e => if e.1 = v.pubkey then (e.1, v.collateral + e.2) else e) =
      vs.map (fun v => (v.pubkey, v.collateral)) := by
    rw [List.map_map]
    apply List.map_congr_left
    intro w hw
    simp [hnew w hw]
  simp only [after, List.foldl_cons, List.foldl_nil, change, List.map_append, hid]
  simp

theorem Regular.join (hc : Regular c) (hnew : ∀ w ∈ c.validators, w.pubkey ≠ v.pubkey)
    (hp : v.power = powerOf v.collateral) (hnext : next.validators = c.validators ++ [v]) :
    Regular next := by
  constructor
  · rw [hnext, List.map_append, List.nodup_append]
    refine ⟨hc.nodup, by simp, ?_⟩
    intro k hk k' hk' heq
    obtain ⟨w, hw, rfl⟩ := List.mem_map.mp hk
    have : k' = v.pubkey := by simpa using hk'
    exact hnew w hw (heq.trans this)
  · intro w hw
    rw [hnext, List.mem_append, List.mem_singleton] at hw
    rcases hw with hw | rfl
    · exact hc.power_eq w hw
    · exact hp

theorem joinStep (hc : Regular c) (hp : v.power = powerOf v.collateral)
    (h : c.joinNewValidator X (.fromTxid20 t) v = .ok next)
    {requests : List StakeChangeRequest}
    (hnum : requests.map (·.configurationNumber) = List.range' n requests.length)
    (hafter : ∀ r ∈ requests, r.committeeAfterChange = next)
    (hopen : ∀ r ∈ requests, r.checkpointBlockHeight = none)
    (hreq : requests.map requestOf = [(v.pubkey, .join), (v.pubkey, .deposit v.collateral)]) :
    StakeStep X t c next n requests := by
  obtain ⟨hnew, hb⟩ := SubnetCommittee.joinNewValidator_eq_ok h
  have hlen : requests.length = 2 := by
    have := congrArg List.length hreq
    simpa using this
  refine ⟨hb.derived, hc.join hnew hp hb.validators_eq, ?_, hnum, hafter, hopen, ?_, ?_⟩
  · rw [hb.number_eq, hlen]
  · rw [hreq, book_eq_of_validators hb.validators_eq, join_book hnew]
    rfl
  · obtain ⟨a, b, rfl⟩ := List.length_eq_two.mp hlen
    rw [List.map_cons, List.map_singleton, List.cons.injEq, List.cons.injEq] at hreq
    refine .join hreq.1 hreq.2.1 ?_
    intro e he
    obtain ⟨w, hw, rfl⟩ := List.mem_map.mp he
    exact hnew w hw

/-- Replacing the validator of a key replaces the amount of its account. -/
theorem modify_book {i : Nat} {w : SubnetValidator} (hc : Regular c)
    (hi : c.validators.findIdx? (fun u => u.pubkey = w.pubkey) = some i) :
    (c.validators.set i w).map (fun v => (v.pubkey, v.collateral)) =
      (book c).map (fun e => if e.1 = w.pubkey then (e.1, w.collateral) else e) := by
  rw [set_findIdx? (fun u : SubnetValidator => u.pubkey) hc.nodup hi, book, List.map_map, List.map_map]
  apply List.map_congr_left
  intro u hu
  by_cases hk : u.pubkey = w.pubkey <;> simp [hk]

theorem Regular.modify {i : Nat} {w : SubnetValidator} (hc : Regular c)
    (hp : w.power = powerOf w.collateral)
    (hi : c.validators.findIdx? (fun u => u.pubkey = w.pubkey) = some i)
    (hnext : next.validators = c.validators.set i w) : Regular next := by
  rw [set_findIdx? (fun u : SubnetValidator => u.pubkey) hc.nodup hi] at hnext
  constructor
  · rw [hnext]
    apply nodup_map_of_keys (fun u : SubnetValidator => u.pubkey) _ hc.nodup
    intro u hu
    by_cases hk : u.pubkey = w.pubkey <;> simp [hk]
  · intro u hu
    rw [hnext] at hu
    obtain ⟨u', hu', rfl⟩ := List.mem_map.mp hu
    by_cases hk : u'.pubkey = w.pubkey
    · simpa [hk] using hp
    · simpa [hk] using hc.power_eq u' hu'

theorem unique_validator {pubkey : XOnlyPublicKey} {u : SubnetValidator} (hc : Regular c)
    (hv : c.findValidator pubkey = some v) (hu : u ∈ c.validators) (hk : u.pubkey = pubkey) :
    u = v := by
  unfold SubnetCommittee.findValidator at hv
  exact eq_of_find?_of_mem (fun u : SubnetValidator => u.pubkey) hc.nodup hv hu hk

/-- The amounts of an account found for a key. -/
theorem book_amount (hc : Regular c) (hv : c.findValidator v.pubkey = some v)
    {e : XOnlyPublicKey × Amount} (he : e ∈ book c) (hk : e.1 = v.pubkey) :
    e.2 = v.collateral := by
  obtain ⟨u, hu, rfl⟩ := List.mem_map.mp he
  rw [unique_validator hc hv hu hk]

theorem depositStep (hc : Regular c) (hv : c.findValidator v.pubkey = some v) {amount : Amount}
    (h : c.modifyValidator X (.fromTxid20 t) { v with
      collateral := amount + v.collateral, power := powerOf (amount + v.collateral) } = .ok next)
    {r : StakeChangeRequest} (hnum : r.configurationNumber = n)
    (hafter : r.committeeAfterChange = next) (hopen : r.checkpointBlockHeight = none)
    (hreq : requestOf r = (v.pubkey, .deposit amount)) : StakeStep X t c next n [r] := by
  obtain ⟨i, hi, hb⟩ := SubnetCommittee.modifyValidator_eq_ok h
  refine ⟨hb.derived, hc.modify rfl hi hb.validators_eq, hb.number_eq, ?_, ?_, ?_, ?_,
    .deposit hreq (mem_book_of_findValidator hv)⟩
  · simp [hnum]
  · simpa using hafter
  · simpa using hopen
  · rw [book_eq_of_validators hb.validators_eq, modify_book hc hi, List.map_singleton, hreq]
    simp only [after, List.foldl_cons, List.foldl_nil, change]
    apply List.map_congr_left
    intro e he
    by_cases hk : e.1 = v.pubkey
    · simp [hk, book_amount hc hv he hk]
    · simp [hk]

theorem Regular.remove {pubkey : XOnlyPublicKey} {i : Nat} (hc : Regular c)
    (hi : c.validators.findIdx? (fun u => u.pubkey = pubkey) = some i)
    (hnext : next.validators = c.validators.eraseIdx i) : Regular next := by
  rw [eraseIdx_findIdx? (fun u : SubnetValidator => u.pubkey) hc.nodup hi] at hnext
  constructor
  · rw [hnext]
    exact hc.nodup.sublist (List.Sublist.map _ List.filter_sublist)
  · intro u hu
    rw [hnext] at hu
    exact hc.power_eq u (List.mem_of_mem_filter hu)

theorem withdrawStep (hc : Regular c) (hv : c.findValidator v.pubkey = some v) {amount : Amount}
    (hle : amount ≤ v.collateral)
    (h : IpcUnstakeCollateralMsg.afterUnstake X c (.fromTxid20 t) v (v.collateral - amount) =
      .ok next)
    {r : StakeChangeRequest} (hnum : r.configurationNumber = n)
    (hafter : r.committeeAfterChange = next) (hopen : r.checkpointBlockHeight = none)
    (hreq : requestOf r = (v.pubkey, .withdraw amount)) : StakeStep X t c next n [r] := by
  unfold IpcUnstakeCollateralMsg.afterUnstake at h
  by_cases hz : powerOf (v.collateral - amount) = 0
  · -- the validator leaves: its account is closed
    rw [if_pos hz] at h
    obtain ⟨i, hi, hb⟩ := SubnetCommittee.removeValidator_eq_ok h
    refine ⟨hb.derived, hc.remove hi hb.validators_eq, hb.number_eq, ?_, ?_, ?_, ?_,
      .withdraw hreq (mem_book_of_findValidator hv) hle⟩
    · simp [hnum]
    · simpa using hafter
    · simpa using hopen
    · rw [book_eq_of_validators hb.validators_eq,
        eraseIdx_findIdx? (fun u : SubnetValidator => u.pubkey) hc.nodup hi, List.map_singleton, hreq]
      simp only [after, List.foldl_cons, List.foldl_nil, change]
      have hfilter : (book c).filter (fun e => ¬ (e.1 = v.pubkey ∧ powerless (e.2 - amount))) =
          (c.validators.filter (fun u => u.pubkey ≠ v.pubkey)).map
            (fun u => (u.pubkey, u.collateral)) := by
        rw [book, List.filter_map]
        congr 1
        apply List.filter_congr
        intro u hu
        by_cases hk : u.pubkey = v.pubkey
        · have := unique_validator hc hv hu hk
          simp [this, powerless, hz]
        · simp [hk]
      rw [hfilter, List.map_map]
      apply List.map_congr_left
      intro u hu
      have hk : u.pubkey ≠ v.pubkey := by simpa using (List.mem_filter.mp hu).2
      simp [hk]
  · rw [if_neg hz] at h
    obtain ⟨i, hi, hb⟩ := SubnetCommittee.modifyValidator_eq_ok h
    refine ⟨hb.derived, hc.modify rfl hi hb.validators_eq, hb.number_eq, ?_, ?_, ?_, ?_,
      .withdraw hreq (mem_book_of_findValidator hv) hle⟩
    · simp [hnum]
    · simpa using hafter
    · simpa using hopen
    · rw [book_eq_of_validators hb.validators_eq, modify_book hc hi, List.map_singleton, hreq]
      simp only [after, List.foldl_cons, List.foldl_nil, change]
      have hfilter : (book c).filter (fun e => ¬ (e.1 = v.pubkey ∧ powerless (e.2 - amount))) =
          book c := by
        apply List.filter_eq_self.mpr
        intro e he
        by_cases hk : e.1 = v.pubkey
        · simp [hk, powerless, book_amount hc hv he hk, hz]
        · simp [hk]
      rw [hfilter]
      apply List.map_congr_left
      intro e he
      by_cases hk : e.1 = v.pubkey
      · simp [hk, book_amount hc hv he hk]
      · simp [hk]

end Messages
