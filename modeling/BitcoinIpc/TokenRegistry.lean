import BitcoinIpc.TokenSupply

/-!
# Registrations of tokens

There is no list of registered tokens: a registration is refused when the home
already holds some of the token. So a token is registered once as long as its
home keeps a positive balance of it, and can be registered again from the moment
on that all of it has been sent away or burned, or when nothing was issued.
-/

namespace Messages.TokenRegistry

open Faults Bytes Chain Crates Multisig Db Grouping Commits OrderedTable Monitor
open IpcBatchTransferMsg TokenLedger

variable (X : Library)

/-- A batch of the home registers the token, mints some of it or sends some of it. -/
def Handles (home : SubnetId) (token : EthAddress) (m : IpcBatchTransferMsg) : Prop :=
  m.subnetId = home ∧
    ((∃ r ∈ m.tokenRegistrations, r.homeTokenAddress = token) ∨
      (∃ a ∈ mints m, a.homeTokenAddress = token ∧ a.delta.abs ≠ 0) ∨
      ∃ e ∈ m.tokenTransfers, e.homeSubnetId = home ∧ e.homeTokenAddress = token)

/-- Some batch of the run has handled the token. -/
def Known (home : SubnetId) (token : EthAddress)
    (l : List (Option IpcBatchTransferMsg × HeedDb)) : Prop :=
  ∃ m ∈ accepted l, Handles home token m

/-- No accepted batch registers a token that its home has handled in a batch before. -/
def RegisteredOnce (l : List (Option IpcBatchTransferMsg × HeedDb)) : Prop :=
  ∀ l₁ m db' l₂, l = l₁ ++ (some m, db') :: l₂ →
    ∀ r ∈ m.tokenRegistrations, ¬ Known m.subnetId r.homeTokenAddress l₁

/-- In every state of a run the checks refuse to register a token that its home has
handled. -/
def RefusesKnown (db : HeedDb) (l : List (Option IpcBatchTransferMsg × HeedDb)) : Prop :=
  ∀ l₁, l₁ <+: l → ∀ home token, Known home token l₁ → ∀ rs as es,
    validateErcBatchData X home rs as es (lastStore db l₁) = .ok () →
      ∀ r ∈ rs, r.homeTokenAddress ≠ token

/-- In every state of a run the home holds some of each token it has handled. -/
def HeldAtHome (db : HeedDb) (l : List (Option IpcBatchTransferMsg × HeedDb)) : Prop :=
  ∀ l₁, l₁ <+: l → ∀ home token, Known home token l₁ →
    0 < balance X (lastStore db l₁) home token home

section Registered

variable {X} {db : HeedDb}

/-- A registration passes the checks in some batch exactly when the home holds nothing
of the token. -/
theorem registrable_iff {home : SubnetId} {token : EthAddress} :
    (∀ rs as es, validateErcBatchData X home rs as es db = .ok () →
      ∀ r ∈ rs, r.homeTokenAddress ≠ token) ↔ 0 < balance X db home token home := by
  constructor
  · intro hnever
    by_contra hzero
    have hpass : validateErcBatchData X home [⟨token, [], [], 0, 0⟩] [] [] db = .ok () := by
      have hheld : ¬ 0 < db.getTokenBalance X home token home := hzero
      simp only [validateErcBatchData, List.foldlM_cons, List.foldlM_nil, List.foldl_nil,
        checkRegistration, Table.get_empty, ensure_pos hheld, ensure_pos, ok_bind, pure_eq]
    exact hnever _ _ _ hpass _ List.mem_cons_self rfl
  · rintro hpos rs as es hvalid r hr rfl
    obtain ⟨b, hregistrations, -⟩ := bind_eq_ok.mp hvalid
    have hzero := ((checkRegistration_fold hregistrations).2 r hr).2
    omega

theorem refusesKnown_iff (l : List (Option IpcBatchTransferMsg × HeedDb)) :
    RefusesKnown X db l ↔ HeldAtHome X db l := by
  constructor
  · intro h l₁ hl₁ home token hknown
    exact registrable_iff.mp (h l₁ hl₁ home token hknown)
  · intro h l₁ hl₁ home token hknown
    exact registrable_iff.mpr (h l₁ hl₁ home token hknown)

theorem registeredOnce_of_held {l : List (Option IpcBatchTransferMsg × HeedDb)}
    (h : Trail (LedgerStep X) db l) (hheld : HeldAtHome X db l) : RegisteredOnce l := by
  rintro l₁ m db' l₂ rfl r hr hknown
  have hpos := hheld l₁ (List.prefix_append _ _) _ _ hknown
  obtain ⟨-, hstep, -⟩ := trail_append.mp h
  cases hstep with
  | batch hsave =>
    have hzero := (saveToDb_passes hsave).2.1 r hr
    omega

end Registered

/-- A token is registered once: the checks refuse every registration of a token that its
home has handled exactly as long as the home holds some of it, and then no accepted
batch of the run registers one. -/
theorem registered_once_iff_held {X : Library} {db : HeedDb}
    {l : List (Option IpcBatchTransferMsg × HeedDb)} (h : Trail (LedgerStep X) db l) :
    (RefusesKnown X db l ↔ HeldAtHome X db l) ∧ (RefusesKnown X db l → RegisteredOnce l) := by
  refine ⟨refusesKnown_iff l, fun hrefuses => ?_⟩
  exact registeredOnce_of_held h ((refusesKnown_iff l).mp hrefuses)

/-- The batch that registers a token and sends a part of it. -/
theorem exists_registered : ∃ saved, registering.saveToDb Solo.transferLibrary
    (twoSubnets Solo.transferLibrary) ⟨2, Solo.bytes32 5, Solo.bytes32 14⟩ = .ok saved ∧
      balance Solo.transferLibrary saved.1 tokenHome Solo.user tokenHome = 40 := by
  have hruns : (registering.saveToDb Solo.transferLibrary (twoSubnets Solo.transferLibrary)
      ⟨2, Solo.bytes32 5, Solo.bytes32 14⟩).toOption.any (fun saved =>
        balance Solo.transferLibrary saved.1 tokenHome Solo.user tokenHome = 40) = true := by
    decide +kernel
  obtain ⟨saved, hsaved, hheld⟩ := (Option.any_eq_true _ _).mp hruns
  exact ⟨saved, toOption_eq_some.mp hsaved, of_decide_eq_true hheld⟩

theorem handles_registering {home : SubnetId} {token : EthAddress}
    (h : Handles home token registering) : home = tokenHome ∧ token = Solo.user := by
  obtain ⟨hhome, ⟨r, hr, rfl⟩ | ⟨a, ha, -⟩ | ⟨e, he, -, rfl⟩⟩ := h
  · exact ⟨hhome.symm, by rw [List.mem_singleton.mp hr]⟩
  · exact absurd ha List.not_mem_nil
  · exact ⟨hhome.symm, by rw [List.mem_singleton.mp he]⟩

theorem registered_once_after_registering :
    ∃ l, Trail (LedgerStep Solo.transferLibrary) (twoSubnets Solo.transferLibrary) l ∧
      accepted l = [registering] ∧
      RefusesKnown Solo.transferLibrary (twoSubnets Solo.transferLibrary) l ∧
      RegisteredOnce l := by
  obtain ⟨saved, hsaved, hheld⟩ := exists_registered
  have htrail : Trail (LedgerStep Solo.transferLibrary) (twoSubnets Solo.transferLibrary)
      [(some registering, saved.1)] := ⟨.batch hsaved, trivial⟩
  have hrefuses : RefusesKnown Solo.transferLibrary (twoSubnets Solo.transferLibrary)
      [(some registering, saved.1)] := by
    refine (registered_once_iff_held htrail).1.mpr ?_
    rintro l₁ hl₁ home token ⟨m, hm, hhandles⟩
    rcases List.prefix_cons_iff.mp hl₁ with rfl | ⟨l', rfl, hl'⟩
    · cases hm
    · obtain rfl := List.prefix_nil.mp hl'
      obtain rfl := List.mem_singleton.mp hm
      obtain ⟨rfl, rfl⟩ := handles_registering hhandles
      exact hheld ▸ (by decide : 0 < 40)
  exact ⟨_, htrail, rfl, hrefuses, (registered_once_iff_held htrail).2 hrefuses⟩

/-- The home registers a token and sends all of it. -/
def emptying : IpcBatchTransferMsg :=
  { registering with tokenTransfers := [⟨tokenHome, Solo.user, 100, guest, Solo.user⟩] }

/-- When all of a token has left its home, the home registers it again. -/
theorem registered_twice : ∃ l,
    Trail (LedgerStep Solo.transferLibrary) (twoSubnets Solo.transferLibrary) l ∧
      accepted l = [emptying, registering] ∧ ¬ RegisteredOnce l := by
  have hruns : ((emptying.saveToDb Solo.transferLibrary (twoSubnets Solo.transferLibrary)
      ⟨2, Solo.bytes32 5, Solo.bytes32 14⟩).toOption.bind fun r =>
        (registering.saveToDb Solo.transferLibrary r.1
          ⟨3, Solo.bytes32 5, Solo.bytes32 15⟩).toOption).isSome = true := by
    decide +kernel
  obtain ⟨second, hsecond⟩ := Option.isSome_iff_exists.mp hruns
  obtain ⟨first, hfirst, hsecond⟩ := Option.bind_eq_some_iff.mp hsecond
  rw [toOption_eq_some] at hfirst hsecond
  refine ⟨[(some emptying, first.1), (some registering, second.1)],
    ⟨.batch hfirst, .batch hsecond, trivial⟩, rfl, fun honce => ?_⟩
  refine honce [(some emptying, first.1)] registering second.1 [] rfl
    ⟨Solo.user, ['T'], ['T'], 18, 100⟩ List.mem_cons_self ?_
  exact ⟨emptying, List.mem_cons_self, rfl, Or.inl ⟨_, List.mem_cons_self, rfl⟩⟩

end Messages.TokenRegistry
