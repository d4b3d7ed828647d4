import BitcoinIpc.Logs
import BitcoinIpc.Reveals

/-!
# Registrations before transfers

A registration is announced to the subnets that exist when its batch is saved,
and a token transfer is posted to its destination whether that subnet was told
of the token or not. So a transfer follows the registration of its token in a
queue exactly when the home registered the token, in that batch or in one before
it, at a time when the destination was bootstrapped.
-/

namespace Monitor

open Faults Bytes Chain Messages Crates Multisig Db Grouping Commits OrderedTable
open IpcBatchTransferMsg

variable (X : Library)

/-- Every token transfer in the queue of a subnet with another home has a registration of
its token before it. -/
def RegistrationsFirst (db : HeedDb) (u : Txid20) : Prop :=
  ∀ msg ∈ queue X db u, ∀ e, contentOf msg = .transfer e → e.homeSubnetId ≠ .fromTxid20 u →
    ∃ msg' ∈ queue X db u, msg'.nonce < msg.nonce ∧
      ∃ r, contentOf msg' = .registration e.homeSubnetId r ∧
        r.homeTokenAddress = e.homeTokenAddress

/-- The event is a batch of the home that registers the token, and the subnet is
bootstrapped before it. -/
def Tells (db : HeedDb) (e : Event) (u : Txid20) (home : SubnetId) (token : EthAddress) : Prop :=
  ∃ m, batchOf e = some m ∧ m.subnetId = home ∧
    (∃ r ∈ m.tokenRegistrations, r.homeTokenAddress = token) ∧
    (db.getSubnetState X (.fromTxid20 u)).isSome = true

/-- Some step of the run tells the subnet of the token. -/
def Told (db : HeedDb) (l : List (Event × HeedDb)) (u : Txid20) (home : SubnetId)
    (token : EthAddress) : Prop :=
  ∃ l₁ a l₂, l = l₁ ++ a :: l₂ ∧ Tells X (lastStore db l₁) a.1 u home token

/-- The token transfers of every batch go to subnets that were told of the token by that
batch or before it, or to its home. -/
def TransfersTold (db : HeedDb) (l : List (Event × HeedDb)) : Prop :=
  ∀ l₁ a l₂, l = l₁ ++ a :: l₂ → ∀ m, batchOf a.1 = some m → ∀ e ∈ m.tokenTransfers, ∀ u,
    e.destinationSubnetId = .fromTxid20 u → e.homeSubnetId ≠ .fromTxid20 u →
      Told X db (l₁ ++ [a]) u e.homeSubnetId e.homeTokenAddress

section Contents

/-- Among the contents of a queue, a registration stands before every transfer. -/
def Ordered (u : Txid20) (q : List Content) : Prop :=
  ∀ q₁ e q₂, q = q₁ ++ .transfer e :: q₂ → e.homeSubnetId ≠ .fromTxid20 u →
    ∃ r, .registration e.homeSubnetId r ∈ q₁ ∧ r.homeTokenAddress = e.homeTokenAddress

/-- The contents name the registration of a token. -/
def Registers (home : SubnetId) (token : EthAddress) (q : List Content) : Prop :=
  ∃ r, .registration home r ∈ q ∧ r.homeTokenAddress = token

theorem registers_append {home : SubnetId} {token : EthAddress} {q new : List Content} :
    Registers home token (q ++ new) ↔ Registers home token q ∨ Registers home token new := by
  constructor
  · rintro ⟨r, hr, htoken⟩
    rcases List.mem_append.mp hr with hr | hr
    · exact Or.inl ⟨r, hr, htoken⟩
    · exact Or.inr ⟨r, hr, htoken⟩
  · rintro (⟨r, hr, htoken⟩ | ⟨r, hr, htoken⟩)
    · exact ⟨r, List.mem_append_left _ hr, htoken⟩
    · exact ⟨r, List.mem_append_right _ hr, htoken⟩

theorem ordered_snoc {u : Txid20} {q : List Content} {c : Content} :
    Ordered u (q ++ [c]) ↔ Ordered u q ∧ ∀ e, c = .transfer e →
      e.homeSubnetId ≠ .fromTxid20 u → Registers e.homeSubnetId e.homeTokenAddress q := by
  constructor
  · intro h
    refine ⟨fun q₁ e q₂ hq hhome => ?_, fun e hc hhome => ?_⟩
    · refine h q₁ e (q₂ ++ [c]) ?_ hhome
      rw [hq, List.append_assoc, List.cons_append]
    · exact h q e [] (by rw [hc]) hhome
  · rintro ⟨hq, hlast⟩ q₁ e q₂ heq hhome
    rcases snoc_eq_append_cons.mp heq with ⟨rfl, hc, -⟩ | ⟨q₃, -, rfl⟩
    · exact hlast e hc.symm hhome
    · exact hq q₁ e q₃ rfl hhome

theorem ordered_append_plain {u : Txid20} {q plain : List Content}
    (h : ∀ e, .transfer e ∉ plain) : Ordered u (q ++ plain) ↔ Ordered u q := by
  induction plain generalizing q with
  | nil => rw [List.append_nil]
  | cons c rest ih =>
    have hc : ∀ e, c ≠ .transfer e := by
      rintro e rfl
      exact h e List.mem_cons_self
    rw [List.append_cons, ih (fun e he => h e (List.mem_cons_of_mem c he)), ordered_snoc]
    exact and_iff_left (fun e he => absurd he (hc e))

/-- Transfers may be appended whose tokens are registered in the queue. -/
theorem ordered_append_transfers {u : Txid20} {q : List Content}
    {moved : List IpcCrossSubnetErcTransfer} :
    Ordered u (q ++ moved.map .transfer) ↔ Ordered u q ∧ ∀ e ∈ moved,
      e.homeSubnetId ≠ .fromTxid20 u → Registers e.homeSubnetId e.homeTokenAddress q := by
  induction moved generalizing q with
  | nil => simp
  | cons e rest ih =>
    have hsame : ∀ home token, Registers home token (q ++ [.transfer e]) ↔
        Registers home token q := by
      intro home token
      rw [registers_append]
      refine or_iff_left ?_
      rintro ⟨r, hr, -⟩
      cases List.mem_singleton.mp hr
    rw [List.map_cons, List.append_cons, ih, ordered_snoc, List.forall_mem_cons, and_assoc]
    simp only [hsame, Content.transfer.injEq, forall_eq']

end Contents

section Steps

variable {X} (laws : DisplayLaws X) {db db' : HeedDb}

/-- The registrations of a batch stand before its transfers. -/
theorem ordered_postsFor {m : IpcBatchTransferMsg} {subnets : List SubnetState} {u : Txid20}
    {q : List Content} :
    Ordered u (q ++ postsFor m subnets u) ↔ Ordered u q ∧ ∀ e ∈ m.tokenTransfers,
      e.destinationSubnetId = .fromTxid20 u → e.homeSubnetId ≠ .fromTxid20 u →
        Registers e.homeSubnetId e.homeTokenAddress (q ++ postsFor m subnets u) := by
  have hplain : ∀ e, Content.transfer e ∉
      (m.transfers.filter (fun t => t.destinationSubnetId = .fromTxid20 u)).map
        (fun t => .fund ⟨t.destinationSubnetId, t.amount, t.subnetUserAddress⟩) ++
      m.tokenRegistrations.flatMap (fun r => ((subnets.filter (fun s => s.id ≠ m.subnetId)).filter
        (fun s => s.id = .fromTxid20 u)).map (fun _ => .registration m.subnetId r)) := by
    intro e he
    rcases List.mem_append.mp he with he | he
    · obtain ⟨_, -, hne⟩ := List.mem_map.mp he
      cases hne
    · obtain ⟨_, -, he⟩ := List.mem_flatMap.mp he
      obtain ⟨_, -, hne⟩ := List.mem_map.mp he
      cases hne
  have hmoved : ∀ home token q', Registers home token (q' ++
      (m.tokenTransfers.filter (fun e => e.destinationSubnetId = .fromTxid20 u)).map .transfer) ↔
        Registers home token q' := by
    intro home token q'
    rw [registers_append]
    refine or_iff_left ?_
    rintro ⟨r, hr, -⟩
    obtain ⟨_, -, hne⟩ := List.mem_map.mp hr
    cases hne
  rw [postsFor, ← List.append_assoc, ordered_append_transfers, ordered_append_plain hplain]
  simp only [hmoved, List.mem_filter, decide_eq_true_eq, and_imp]

/-- What a batch posts registers a token exactly when it tells the subnet. -/
theorem registers_postsFor {m : IpcBatchTransferMsg} {subnets : List SubnetState} {u : Txid20}
    {home : SubnetId} {token : EthAddress} (hhome : home ≠ .fromTxid20 u) :
    Registers home token (postsFor m subnets u) ↔ m.subnetId = home ∧
      (∃ r ∈ m.tokenRegistrations, r.homeTokenAddress = token) ∧
      ∃ s ∈ subnets, s.id = .fromTxid20 u := by
  constructor
  · rintro ⟨r, hr, htoken⟩
    rcases List.mem_append.mp hr with hr | hr
    · rcases List.mem_append.mp hr with hr | hr
      · obtain ⟨_, -, hne⟩ := List.mem_map.mp hr
        cases hne
      · obtain ⟨r', hr', hmem⟩ := List.mem_flatMap.mp hr
        obtain ⟨s, hs, heq⟩ := List.mem_map.mp hmem
        cases heq
        obtain ⟨hs, hid⟩ := List.mem_filter.mp hs
        exact ⟨rfl, ⟨r, hr', htoken⟩, s, List.mem_of_mem_filter hs, of_decide_eq_true hid⟩
    · obtain ⟨_, -, hne⟩ := List.mem_map.mp hr
      cases hne
  · rintro ⟨rfl, ⟨r, hr, htoken⟩, s, hs, hid⟩
    refine ⟨r, List.mem_append_left _ (List.mem_append_right _ ?_), htoken⟩
    refine List.mem_flatMap.mpr ⟨r, hr, List.mem_map.mpr ⟨s, ?_, rfl⟩⟩
    refine List.mem_filter.mpr ⟨List.mem_filter.mpr ⟨hs, ?_⟩, decide_eq_true hid⟩
    rw [decide_eq_true_eq, hid]
    exact hhome.symm

include laws in
theorem exists_state_iff (hs : Sound X db) (u : Txid20) :
    (∃ s ∈ db.getAllSubnets, s.id = .fromTxid20 u) ↔
      (db.getSubnetState X (.fromTxid20 u)).isSome = true := by
  constructor
  · rintro ⟨s, hmem, hid⟩
    obtain ⟨k, -, hk⟩ := (Table.mem_scan_iff _ _ _).mp hmem
    obtain ⟨t, hkey, ht, -⟩ := (hs.states _ ((Table.get_eq_some_iff db.subnetDb).mp hk)).keyed
    rw [hid] at ht
    obtain rfl := SubnetId.fromTxid20_injective ht
    rw [HeedDb.getSubnetState, ← hkey, hk]
    rfl
  · intro hsome
    obtain ⟨s, hget⟩ := Option.isSome_iff_exists.mp hsome
    obtain ⟨t, ht, hid, -⟩ := hs.state laws hget
    refine ⟨s, (Table.mem_scan_iff _ _ _).mpr ⟨_, ?_, hget⟩, ?_⟩
    · exact isPrefixOf_subnetStateKey X _
    · rw [hid, ht]

/-- The contents of the queue of a subnet. -/
def contents (X : Library) (db : HeedDb) (u : Txid20) : List Content :=
  (queue X db u).map contentOf

include laws in
/-- What a commit appends to a queue: the posts of its batch, else at most a funding. -/
theorem contents_commit {e : Event} (hs : Sound X db) {u : Txid20} (hdense : DenseQueue X db u)
    (h : Commit X db e db') : ∃ new, contents X db' u = contents X db u ++ new ∧
      (∀ m, batchOf e = some m → new = postsFor m db.getAllSubnets u) ∧
      (batchOf e = none → ∀ c ∈ new, ∃ m, c = .fund m) := by
  obtain ⟨f, hposts, hbatch, hother⟩ := posts_commit laws hs h
  obtain ⟨-, new, hnew, hf⟩ := hposts u hdense
  refine ⟨new.map contentOf, ?_, fun m hm => ?_, fun hnone => ?_⟩
  · rw [contents, hnew, List.map_append]
    rfl
  · rw [hf, hbatch m hm]
  · rw [hf]
    exact hother hnone u

theorem not_registers_funds {new : List Content} (h : ∀ c ∈ new, ∃ m, c = .fund m)
    (home : SubnetId) (token : EthAddress) : ¬ Registers home token new := by
  rintro ⟨r, hr, -⟩
  obtain ⟨m, hm⟩ := h _ hr
  cases hm

end Steps

section Runs

variable {X} (laws : DisplayLaws X)

theorem told_snoc {db : HeedDb} {l : List (Event × HeedDb)} {a : Event × HeedDb} {u : Txid20}
    {home : SubnetId} {token : EthAddress} : Told X db (l ++ [a]) u home token ↔
      Told X db l u home token ∨ Tells X (lastStore db l) a.1 u home token := by
  constructor
  · rintro ⟨l₁, b, l₂, heq, htells⟩
    rcases snoc_eq_append_cons.mp heq with ⟨rfl, rfl, -⟩ | ⟨l₃, -, rfl⟩
    · exact Or.inr htells
    · exact Or.inl ⟨l₁, b, l₃, rfl, htells⟩
  · rintro (⟨l₁, b, l₂, rfl, htells⟩ | htells)
    · exact ⟨l₁, b, l₂ ++ [a], by rw [List.append_assoc, List.cons_append], htells⟩
    · exact ⟨l, a, [], rfl, htells⟩

include laws

/-- The reached states are sound and their queues dense. -/
theorem queue_of_trail {l : List (Event × HeedDb)} (h : Trail (Commit X) HeedDb.empty l)
    (u : Txid20) : Sound X (lastStore HeedDb.empty l) ∧
      DenseQueue X (lastStore HeedDb.empty l) u :=
  ⟨sound_of_reachable laws ⟨l, h, rfl⟩, denseQueue_of_reachable laws ⟨l, h, rfl⟩ u⟩

/-- A queue holds the registration of a token of another home exactly when its subnet was
told of it. -/
theorem registers_iff_told {l : List (Event × HeedDb)} (h : Trail (Commit X) HeedDb.empty l)
    {u : Txid20} {home : SubnetId} (hhome : home ≠ .fromTxid20 u) (token : EthAddress) :
    Registers home token (contents X (lastStore HeedDb.empty l) u) ↔
      Told X HeedDb.empty l u home token := by
  induction l using List.reverseRec with
  | nil =>
    refine iff_of_false ?_ ?_
    · rintro ⟨r, hr, -⟩
      cases hr
    · rintro ⟨l₁, a, l₂, heq, -⟩
      simp at heq
  | append_singleton l a ih =>
    obtain ⟨e, db'⟩ := a
    obtain ⟨htrail, hstep⟩ := trail_snoc.mp h
    obtain ⟨hs, hdense⟩ := queue_of_trail laws htrail u
    obtain ⟨new, hnew, hbatch, hother⟩ := contents_commit laws hs hdense hstep
    rw [lastStore_snoc, hnew, registers_append, ih htrail, told_snoc]
    refine or_congr_right ?_
    cases hb : batchOf e with
    | none =>
      refine iff_of_false (not_registers_funds (hother hb) _ _) ?_
      rintro ⟨m, hm, -⟩
      rw [show batchOf e = none from hb] at hm
      cases hm
    | some m =>
      rw [hbatch m hb, registers_postsFor hhome, exists_state_iff laws hs]
      constructor
      · rintro ⟨hid, hr, hsome⟩
        exact ⟨m, hb, hid, hr, hsome⟩
      · rintro ⟨m', hm', hid, hr, hsome⟩
        obtain rfl : m = m' := Option.some.inj (hb.symm.trans hm')
        exact ⟨hid, hr, hsome⟩

/-- One step keeps a queue in order exactly when its transfers go to subnets that were
told. -/
theorem ordered_step {l : List (Event × HeedDb)} {e : Event} {db' : HeedDb}
    (h : Trail (Commit X) HeedDb.empty (l ++ [(e, db')])) (u : Txid20) :
    Ordered u (contents X db' u) ↔ Ordered u (contents X (lastStore HeedDb.empty l) u) ∧
      ∀ m, batchOf e = some m → ∀ t ∈ m.tokenTransfers, t.destinationSubnetId = .fromTxid20 u →
        t.homeSubnetId ≠ .fromTxid20 u →
          Told X HeedDb.empty (l ++ [(e, db')]) u t.homeSubnetId t.homeTokenAddress := by
  obtain ⟨htrail, hstep⟩ := trail_snoc.mp h
  obtain ⟨hs, hdense⟩ := queue_of_trail laws htrail u
  obtain ⟨new, hnew, hbatch, hother⟩ := contents_commit laws hs hdense hstep
  cases hb : batchOf e with
  | none =>
    rw [hnew, ordered_append_plain]
    · simp
    · intro t ht
      obtain ⟨m, hm⟩ := hother hb _ ht
      cases hm
  | some m =>
    have htold : ∀ t : IpcCrossSubnetErcTransfer, t.homeSubnetId ≠ .fromTxid20 u →
        (Registers t.homeSubnetId t.homeTokenAddress
          (contents X (lastStore HeedDb.empty l) u ++ postsFor m
            (lastStore HeedDb.empty l).getAllSubnets u) ↔
          Told X HeedDb.empty (l ++ [(e, db')]) u t.homeSubnetId t.homeTokenAddress) := by
      intro t hhome
      rw [← hbatch m hb, ← hnew, ← registers_iff_told laws h hhome, lastStore_snoc]
    rw [hnew, hbatch m hb, ordered_postsFor]
    refine and_congr_right (fun _ => ?_)
    constructor
    · rintro hall m' hm' t ht hdest hhome
      cases hm'
      exact (htold t hhome).mp (hall t ht hdest hhome)
    · intro hall t ht hdest hhome
      exact (htold t hhome).mpr (hall m rfl t ht hdest hhome)

/-- The nonces of a queue ascend. -/
theorem pairwise_nonce {db : HeedDb} (h : Reachable X db) (u : Txid20) :
    (queue X db u).Pairwise (fun a b => a.nonce < b.nonce) := by
  have hkept := (logs_kept laws h).1
  have hqueue : queue X db u = (messageJournal laws).records db.rootnetMsgsDb u := by
    rw [queue, Table.listed, Journal.records]
    refine List.filterMap_congr (fun n _ => ?_)
    rw [show (messageJournal laws).first + n = n from Nat.zero_add n]
    rfl
  rw [hqueue]
  exact Journal.records_sorted hkept u

theorem registrationsFirst_iff {db : HeedDb} (h : Reachable X db) (u : Txid20) :
    RegistrationsFirst X db u ↔ Ordered u (contents X db u) := by
  have hpairs := pairwise_nonce laws h u
  constructor
  · intro hfirst q₁ e q₂ heq hhome
    obtain ⟨k₁, k, hqueue, hk₁, hk⟩ := List.map_eq_append_iff.mp heq
    obtain ⟨msg, k₂, rfl, hmsg, -⟩ := List.map_eq_cons_iff.mp hk
    have hmem : msg ∈ queue X db u := by
      rw [hqueue]
      exact List.mem_append_right _ List.mem_cons_self
    obtain ⟨msg', hmem', hlt, r, hr, htoken⟩ := hfirst msg hmem e hmsg hhome
    refine ⟨r, ?_, htoken⟩
    rw [← hr, ← hk₁]
    refine List.mem_map_of_mem ?_
    -- a message with a smaller nonce stands before
    rw [hqueue] at hmem' hpairs
    obtain ⟨-, hafter, -⟩ := List.pairwise_append.mp hpairs
    rcases List.mem_append.mp hmem' with hin | hin
    · exact hin
    · rcases List.mem_cons.mp hin with rfl | hin
      · exact absurd hlt (lt_irrefl _)
      · exact absurd hlt (Nat.lt_asymm (List.rel_of_pairwise_cons hafter hin))
  · intro hordered msg hmem e hmsg hhome
    obtain ⟨k₁, k₂, hqueue⟩ := List.append_of_mem hmem
    have hcontents : contents X db u = k₁.map contentOf ++ .transfer e :: k₂.map contentOf := by
      rw [contents, hqueue, List.map_append, List.map_cons, hmsg]
    obtain ⟨r, hr, htoken⟩ := hordered _ _ _ hcontents hhome
    obtain ⟨msg', hmem', hr'⟩ := List.mem_map.mp hr
    rw [hqueue] at hpairs
    refine ⟨msg', ?_, ?_, r, hr', htoken⟩
    · rw [hqueue]
      exact List.mem_append_left _ hmem'
    · exact (List.pairwise_append.mp hpairs).2.2 msg' hmem' msg List.mem_cons_self

/-- Registrations precede transfers in the queues of every state of a run exactly when every
batch sends tokens only to their home and to subnets that were bootstrapped when the home
registered the token, in that batch or before it. -/
theorem registrations_first_iff_told {l : List (Event × HeedDb)}
    (h : Trail (Commit X) HeedDb.empty l) :
    (∀ l', l' <+: l → ∀ u, RegistrationsFirst X (lastStore HeedDb.empty l') u) ↔
      TransfersTold X HeedDb.empty l := by
  have hprefix : ∀ l', l' <+: l → Trail (Commit X) HeedDb.empty l' := by
    rintro l' ⟨rest, rfl⟩
    exact (trail_append.mp h).1
  have hordered : (∀ l', l' <+: l → ∀ u, RegistrationsFirst X (lastStore HeedDb.empty l') u) ↔
      ∀ l', l' <+: l → ∀ u, Ordered u (contents X (lastStore HeedDb.empty l') u) := by
    refine forall₂_congr (fun l' hl' => forall_congr' (fun u => ?_))
    exact registrationsFirst_iff laws ⟨l', hprefix l' hl', rfl⟩ u
  rw [hordered]
  clear hordered hprefix
  induction l using List.reverseRec with
  | nil =>
    refine iff_of_true ?_ ?_
    · intro l' hl' u q₁ e q₂ heq
      have hnil : contents X HeedDb.empty u = [] := rfl
      rw [List.prefix_nil.mp hl', lastStore_nil, hnil] at heq
      exact absurd heq.symm (List.append_ne_nil_of_right_ne_nil _ (List.cons_ne_nil _ _))
    · intro l₁ a l₂ heq
      simp at heq
  | append_singleton l a ih =>
    obtain ⟨e, db'⟩ := a
    have htrail := (trail_snoc.mp h).1
    have hstep := fun u => ordered_step laws h u
    constructor
    · intro hall l₁ b l₂ heq m hm t ht u hdest hhome
      rcases snoc_eq_append_cons.mp heq with ⟨rfl, rfl, -⟩ | ⟨l₃, -, rfl⟩
      · have hlast := hall (l₁ ++ [(e, db')]) (List.prefix_refl _) u
        rw [lastStore_snoc] at hlast
        exact ((hstep u).mp hlast).2 m hm t ht hdest hhome
      · refine (ih htrail).mp (fun l' hl' => hall l' (hl'.trans (List.prefix_append _ _)))
          l₁ b l₃ rfl m hm t ht u hdest hhome
    · intro htold
      have hbefore : TransfersTold X HeedDb.empty l := by
        rintro l₁ b l₂ rfl
        exact htold l₁ b (l₂ ++ [(e, db')]) (by rw [List.append_assoc, List.cons_append])
      have hearlier := (ih htrail).mpr hbefore
      intro l' hl' u
      rcases List.prefix_concat_iff.mp hl' with rfl | hl'
      · rw [lastStore_snoc]
        exact (hstep u).mpr ⟨hearlier l (List.prefix_refl _) u,
          fun m hm t ht hdest hhome => htold l (e, db') [] rfl m hm t ht u hdest hhome⟩
      · exact hearlier l' hl' u

end Runs

section TwoSubnets

/-- The data of a batch that a transaction carries in its first witness item. -/
def carriedWire (X : Library) (tx : Transaction) : Option BatchTransferWireData := do
  let i ← tx.input[0]?
  let item ← i.witness[0]?
  let data ← (concatenateOpPushData item).toOption
  (witnessToWireData X data).toOption

theorem carriedWire_of_fromTx {X : Library} {native erc : HashOrder Txid20} {db : HeedDb}
    {tx : Transaction} {m : IpcBatchTransferMsg}
    (h : IpcBatchTransferMsg.fromTx X native erc db tx = .ok m) :
    (carriedWire X tx).isSome = true := by
  obtain ⟨_, -, h⟩ := bind_eq_ok.mp h
  obtain ⟨i, hi, h⟩ := bind_eq_ok.mp h
  obtain ⟨_, -, h⟩ := bind_eq_ok.mp h
  obtain ⟨item, hitem, h⟩ := bind_eq_ok.mp h
  obtain ⟨data, hdata, h⟩ := bind_eq_ok.mp h
  obtain ⟨wire, hwire, -⟩ := bind_eq_ok.mp h
  rw [index_eq_ok] at hi hitem
  rw [okOr_eq_ok] at hdata
  rw [mapErr_eq_ok] at hwire
  simp only [carriedWire, hi, hitem, hdata, Option.bind_eq_bind, Option.bind_some,
    toOption_eq_some.mpr hwire, Option.isSome_some]

open Solo

/-- The wire data that sends 60 of the token to the second subnet. -/
def sendingWire (registrations : List IpcErcTokenRegistration)
    (adjustments : List IpcErcSupplyAdjustment) : BatchTransferWireData :=
  ⟨[], registrations, adjustments, [(otherSubnet 20, [⟨.fromTxid20 subnet, user, 60, user⟩])]⟩

def registeredWire : BatchTransferWireData := sendingWire [⟨user, ['T'], ['T'], 18, 100⟩] []

def mintedWire : BatchTransferWireData :=
  sendingWire [] [⟨user, ⟨100, by decide, by decide⟩⟩]

def noticeLibrary : Library :=
  ideal { creates := [createMsg 10000],
          joins := [joinMsg, otherJoinMsg 20],
          batches := [registeredWire, mintedWire] }

/-- Two subnets are started, and the first one checkpoints. -/
def noticeTxs : List Transaction :=
  [createTx, joinTx 100000, otherCreateTx 20, otherJoinTx 21 1, committingTx []]

def noticeDb : HeedDb := (run noticeLibrary noticeTxs).store HeedDb.empty

def noticeTx (place : UInt8) : Transaction :=
  spending (noticeLibrary.computeTxid (committingTx [])) 1 (carryingAt ipcTransferTag place)
    [⟨330, backup.scriptPubkey⟩]

def noticeBatch (wire : BatchTransferWireData) : IpcBatchTransferMsg :=
  ⟨.fromTxid20 subnet, noticeLibrary.computeTxid (committingTx []), 1, [],
    wire.tokenRegistrations, wire.tokenSupplyAdjustments,
    [⟨.fromTxid20 subnet, user, 60, .fromTxid20 (otherSubnet 20), user⟩]⟩

/-- The batch at a place is parsed and accepted after the checkpoint. -/
def NoticeAccepted (place : UInt8) (wire : BatchTransferWireData) : Prop :=
  IpcBatchTransferMsg.fromTx noticeLibrary context.native context.erc noticeDb (noticeTx place) =
    .ok { noticeBatch wire with subnetId := SubnetId.default } ∧
  checkBatch noticeLibrary noticeDb { noticeBatch wire with subnetId := SubnetId.default } =
    .ok (noticeBatch wire) ∧
  ((noticeBatch wire).saveToDb noticeLibrary noticeDb
    (originOf noticeLibrary context (noticeTx place))).toOption.isSome = true

instance (place : UInt8) (wire : BatchTransferWireData) :
    Decidable (NoticeAccepted place wire) := by
  unfold NoticeAccepted
  infer_instance

/-- The run up to the batch, in which no batch was saved before. -/
theorem noticeTrail {place : UInt8} {wire : BatchTransferWireData}
    (h : NoticeAccepted place wire) : ∃ l db',
      Trail (Commit noticeLibrary) HeedDb.empty (l ++ [(.message context (noticeTx place)
        (.batchTransfer (noticeBatch wire)), db')]) ∧
      lastStore HeedDb.empty l = noticeDb ∧ ∀ a ∈ l, batchOf a.1 = none := by
  obtain ⟨hparsed, hcheck, hsave⟩ := h
  obtain ⟨saved, hsave⟩ := Option.isSome_iff_exists.mp hsave
  have hok : (run noticeLibrary noticeTxs).outcome.toOption = some () :=
    of_decide_eq_true (by decide +kernel)
  have hplain : ∀ tx ∈ noticeTxs, (carriedWire noticeLibrary tx).isSome = false :=
    of_decide_eq_true (by decide +kernel)
  obtain ⟨l, hl, -, hlast⟩ := exists_chainTrail ⟨none⟩ context _ HeedDb.empty hok
  refine ⟨l, saved.1, trail_snoc.mpr ⟨hl.trail, ?_⟩, hlast, fun a ha => ?_⟩
  · rw [show lastStore HeedDb.empty l = noticeDb from hlast]
    exact .batchTransfer hparsed hcheck (toOption_eq_some.mp hsave)
  · cases hb : batchOf a.1 with
    | none => rfl
    | some m =>
      exfalso
      obtain ⟨e, db'⟩ := a
      obtain ⟨ctx, tx, rfl⟩ := eq_message_of_batchOf hb
      have hmem := hl.message_mem (List.mem_filterMap.mpr ⟨_, ha, rfl⟩)
      obtain ⟨tx', htx', heq⟩ := List.mem_map.mp hmem
      cases heq
      obtain ⟨d, hstep, -⟩ := exists_step hl.trail
        (allSteps_of_events (P := fun _ => True) (fun _ _ => trivial)) ha
      cases hstep with
      | batchTransfer hparsed _ _ =>
        have hsome := carriedWire_of_fromTx hparsed
        rw [hplain _ htx'] at hsome
        cases hsome

/-- A batch that registers the token and sends some of it. -/
theorem registrations_first_after_registering : ∃ l db',
    Trail (Commit noticeLibrary) HeedDb.empty (l ++ [(.message context (noticeTx 0)
      (.batchTransfer (noticeBatch registeredWire)), db')]) ∧
    RegistrationsFirst noticeLibrary db' (otherSubnet 20) := by
  have haccepted : NoticeAccepted 0 registeredWire := of_decide_eq_true (by decide +kernel)
  obtain ⟨l, db', htrail, hlast, hnone⟩ := noticeTrail haccepted
  refine ⟨l, db', htrail, ?_⟩
  have hfirst := (registrations_first_iff_told (displayLaws_ideal _) htrail).mpr ?_ _
    (List.prefix_refl _) (otherSubnet 20)
  · rwa [lastStore_snoc] at hfirst
  · intro l₁ a l₂ heq m hm e he u hdest hhome
    rcases snoc_eq_append_cons.mp heq with ⟨rfl, rfl, -⟩ | ⟨l₃, -, rfl⟩
    · cases hm
      obtain rfl := List.mem_singleton.mp he
      obtain rfl := SubnetId.fromTxid20_injective hdest
      refine told_snoc.mpr (Or.inr ⟨_, rfl, rfl, ⟨_, List.mem_cons_self, rfl⟩, ?_⟩)
      rw [hlast]
      decide +kernel
    · rw [hnone a (List.mem_append_right _ List.mem_cons_self)] at hm
      cases hm

/-- A batch that mints a token which was never registered, and sends some of it. -/
theorem transfer_without_registration : ∃ X db u,
    DisplayLaws X ∧ Reachable X db ∧ ¬ RegistrationsFirst X db u := by
  have haccepted : NoticeAccepted 1 mintedWire := of_decide_eq_true (by decide +kernel)
  obtain ⟨l, db', htrail, hlast, hnone⟩ := noticeTrail haccepted
  have hlaws : DisplayLaws noticeLibrary := displayLaws_ideal _
  refine ⟨noticeLibrary, db', otherSubnet 20, hlaws, ⟨_, htrail, lastStore_snoc _ _ _ _⟩, ?_⟩
  intro hfirst
  have hordered := (ordered_step hlaws htrail (otherSubnet 20)).mp
    ((registrationsFirst_iff hlaws ⟨_, htrail, lastStore_snoc _ _ _ _⟩ _).mp hfirst)
  have htold := hordered.2 _ rfl _ List.mem_cons_self rfl (of_decide_eq_true (by decide +kernel))
  rcases told_snoc.mp htold with ⟨l₁, a, l₂, rfl, m, hm, -⟩ | ⟨m, hm, -, ⟨r, hr, -⟩, -⟩
  · rw [hnone a (List.mem_append_right _ List.mem_cons_self)] at hm
    cases hm
  · cases hm
    cases hr

end TwoSubnets

end Monitor
