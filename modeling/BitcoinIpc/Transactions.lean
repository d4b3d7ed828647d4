import BitcoinIpc.Runs

/-!
# Transactions and chains

The trail of one transaction saves each message of its witnesses at most once
and then at most one message of its outputs. A chain is a list of transactions
in the order in which the monitor processes them; what it commits between them
saves no message. The blocks that the monitor synchronises are such chains.
-/

namespace Monitor

open Faults Bytes Chain Messages Crates Multisig Db Grouping Commits Rewards

variable (X : Library)

structure TransactionTrail (cfg : Config) (ctx : BlockContext) (tx : Transaction) (db : HeedDb)
    (l : List (Event × HeedDb)) : Prop where
  trail : Trail (Commit X) db l
  commits : l.map Prod.snd = (processTransaction X cfg ctx tx db).commits
  /-- The messages it saves, each as it was found. -/
  once : ∃ (ms : List IpcMessage) (found : Option IpcMessage),
    messages l = ms.map (fun m => (ctx, tx, m)) ∧ (∀ m ∈ found, m.inWitness = false) ∧
      List.SublistForall₂ (fun m' m => SavedAs m m') ms (witnessMessages X tx ++ found.toList)
  saved : ∀ a ∈ l, ∀ t, transactionOf a.1 = some t → t = tx

section Exists

variable {X} {cfg : Config} {ctx : BlockContext} {tx : Transaction}

theorem SublistForall₂.append {α β : Type} {R : α → β → Prop} {l₁ l₂ : List α} {r₁ r₂ : List β}
    (h₁ : List.SublistForall₂ R l₁ r₁) (h₂ : List.SublistForall₂ R l₂ r₂) :
    List.SublistForall₂ R (l₁ ++ l₂) (r₁ ++ r₂) := by
  induction h₁ with
  | @nil r =>
    induction r with
    | nil => exact h₂
    | cons b rest ih => exact .cons_right ih
  | cons hab _ ih => exact .cons hab ih
  | cons_right _ ih => exact .cons_right ih

theorem SublistForall₂.filterMap {α β γ : Type} {R : α → β → Prop} {f : α → Option γ}
    {g : β → Option γ} (hR : ∀ a b, R a b → f a = g b) {l : List α} {r : List β}
    (h : List.SublistForall₂ R l r) : List.Sublist (l.filterMap f) (r.filterMap g) := by
  induction h with
  | nil => exact List.nil_sublist _
  | @cons a b l r hab _ ih =>
    rw [List.filterMap_cons, List.filterMap_cons, hR a b hab]
    cases g b with
    | none => exact ih
    | some c => exact ih.cons_cons c
  | @cons_right b l r _ ih =>
    rw [List.filterMap_cons]
    cases g b with
    | none => exact ih
    | some c => exact ih.cons c

theorem exists_transactionTrail (cfg : Config) (ctx : BlockContext) (tx : Transaction)
    (db : HeedDb) : ∃ l, TransactionTrail X cfg ctx tx db l := by
  obtain ⟨ms, hsaves, hsub⟩ := saves_each (f := handleMsg X cfg ctx tx)
    (fun _ hm db => handlesOnce_handleMsg cfg (parsed_of_mem_witnessMessages hm db)) db
  cases hout : (Proc.each (handleMsg X cfg ctx tx) (witnessMessages X tx) db).outcome with
  | error e =>
    have hall : Saves X ctx tx db (processTransaction X cfg ctx tx) ms := hsaves.bind_error hout
    obtain ⟨l, hl, hc, hm, hs⟩ := hall
    exact ⟨l, hl, hc, ⟨ms, none, hm, by simp, by simpa using hsub⟩, hs⟩
  | ok u =>
    obtain ⟨found, hfound, ms', hsaves', hsub'⟩ := handlesOnce_processOutputs (X := X) cfg ctx tx
      ((Proc.each (handleMsg X cfg ctx tx) (witnessMessages X tx) db).store db)
    have hall : Saves X ctx tx db (processTransaction X cfg ctx tx) (ms ++ ms') :=
      hsaves.bind hout hsaves'
    obtain ⟨l, hl, hc, hm, hs⟩ := hall
    exact ⟨l, hl, hc, ⟨ms ++ ms', found, hm, fun m hm => (hfound m hm).2,
      SublistForall₂.append hsub hsub'⟩, hs⟩

/-- The trail of a transaction whose only message is one of its outputs and is saved. -/
theorem TransactionTrail.single (m : IpcMessage) {m' : IpcMessage} {db db' : HeedDb}
    (hw : witnessMessages X tx = []) (hout : m.inWitness = false) (hm : SavedAs m m')
    (hc : Commit X db (.message ctx tx m') db')
    (hcommits : (processTransaction X cfg ctx tx db).commits = [db']) :
    TransactionTrail X cfg ctx tx db [(.message ctx tx m', db')] where
  trail := ⟨hc, trivial⟩
  commits := hcommits.symm
  once := by
    refine ⟨[m'], some m, rfl, ?_, ?_⟩
    · rintro a ha
      cases ha
      exact hout
    · rw [hw]
      exact .cons hm .nil
  saved := by
    rintro a ha t ht
    cases List.mem_singleton.mp ha
    cases ht

end Exists

/-- The messages of outputs that a trail saves. -/
def outputMessages (l : List (Event × HeedDb)) : List (BlockContext × Transaction × IpcMessage) :=
  (messages l).filter (fun a => !a.2.2.inWitness)

theorem outputMessages_append (l₁ l₂ : List (Event × HeedDb)) :
    outputMessages (l₁ ++ l₂) = outputMessages l₁ ++ outputMessages l₂ := by
  rw [outputMessages, messages_append, List.filter_append]
  rfl

theorem inWitness_savedAs {m m' : IpcMessage} (h : SavedAs m m') : m'.inWitness = m.inWitness := by
  cases m with
  | joinSubnet m =>
    cases m' with
    | joinSubnet m' => rfl
    | _ => cases h
  | batchTransfer m =>
    cases m' with
    | batchTransfer m' => rfl
    | _ => cases h
  | _ => cases h; rfl

section Outputs

variable {X} {cfg : Config} {ctx : BlockContext} {tx : Transaction} {db : HeedDb}
  {l : List (Event × HeedDb)}

/-- A transaction saves at most one message of its outputs. -/
theorem TransactionTrail.outputMessages_sublist (h : TransactionTrail X cfg ctx tx db l) :
    List.Sublist ((outputMessages l).map (fun a => (a.1, a.2.1))) [(ctx, tx)] := by
  obtain ⟨ms, found, hms, hfound, hsub⟩ := h.once
  have hout : (outputMessages l).map (fun a => (a.1, a.2.1)) =
      ms.filterMap (fun m => if m.inWitness then none else some (ctx, tx)) := by
    rw [outputMessages, hms, ← List.filterMap_eq_map, ← List.filterMap_eq_filter,
      List.filterMap_filterMap, List.filterMap_map]
    congr 1
    funext m
    cases m <;> rfl
  have hwitness : (witnessMessages X tx).filterMap
      (fun m => if m.inWitness then none else some (ctx, tx)) = [] := by
    rw [List.filterMap_eq_nil_iff]
    intro m hm
    rw [inWitness_of_mem hm]
    rfl
  have hone : List.Sublist (found.toList.filterMap
      (fun m => if m.inWitness then none else some (ctx, tx))) [(ctx, tx)] := by
    cases found with
    | none => exact List.nil_sublist _
    | some m => simp [hfound m rfl]
  have hsame : ∀ m' m : IpcMessage, SavedAs m m' →
      (if m'.inWitness then none else some (ctx, tx)) =
        if m.inWitness then none else some (ctx, tx) := by
    intro m' m hm
    rw [inWitness_savedAs hm]
  have hall := SublistForall₂.filterMap hsame hsub
  rw [List.filterMap_append, hwitness, List.nil_append] at hall
  rw [hout]
  exact hall.trans hone

end Outputs

/-- The trail of the transactions of a chain, one after another. -/
inductive ChainTrail (cfg : Config) :
    HeedDb → List (BlockContext × Transaction) → List (Event × HeedDb) → Prop
  | nil {db} : ChainTrail cfg db [] []
  | quiet {db e db' txs l} : Quiet X db e db' → ChainTrail cfg db' txs l →
      ChainTrail cfg db txs ((e, db') :: l)
  | transaction {db ctx tx l₁ txs l₂} : TransactionTrail X cfg ctx tx db l₁ →
      ChainTrail cfg (lastStore db l₁) txs l₂ → ChainTrail cfg db ((ctx, tx) :: txs) (l₁ ++ l₂)

/-- The outputs that the inputs of a chain spend. -/
def spentOutpoints (txs : List (BlockContext × Transaction)) : List OutPoint :=
  txs.flatMap (fun a => a.2.input.map (·.previousOutput))

/-- The output that the first input of a transaction spends. -/
def firstSpent (tx : Transaction) : Option OutPoint := tx.input.head?.map (·.previousOutput)

theorem firstSpent_mem {tx : Transaction} {o : OutPoint} (h : firstSpent tx = some o) :
    o ∈ tx.input.map (·.previousOutput) := by
  obtain ⟨i, hi, rfl⟩ := Option.map_eq_some_iff.mp h
  exact List.mem_map_of_mem (List.mem_of_mem_head? hi)

/-- The commits of the program are the trail of a chain, cut short when it fails. -/
def Chains (cfg : Config) (p : MonitorProc Unit) (txs : List (BlockContext × Transaction)) :
    Prop :=
  ∀ db, ∃ done l, ChainTrail X cfg db done l ∧ l.map Prod.snd = (p db).commits ∧ done <+: txs ∧
    ((p db).outcome = .ok () → done = txs)

section Chains

variable {X} {cfg : Config} {db : HeedDb} {txs txs' : List (BlockContext × Transaction)}

theorem ChainTrail.trail {l : List (Event × HeedDb)} (h : ChainTrail X cfg db txs l) :
    Trail (Commit X) db l := by
  induction h with
  | nil => trivial
  | quiet hq _ ih => exact ⟨hq.1, ih⟩
  | transaction ht _ ih => exact trail_append.mpr ⟨ht.trail, ih⟩

theorem ChainTrail.append {l l' : List (Event × HeedDb)} (h : ChainTrail X cfg db txs l)
    (h' : ChainTrail X cfg (lastStore db l) txs' l') : ChainTrail X cfg db (txs ++ txs') (l ++ l') := by
  induction h with
  | nil => exact h'
  | quiet hq _ ih =>
    rw [lastStore_cons] at h'
    exact .quiet hq (ih h')
  | transaction ht _ ih =>
    rw [lastStore_append] at h'
    rw [List.append_assoc]
    exact .transaction ht (ih h')

/-- A chain saves at most one message of outputs for each of its transactions, in
their order. -/
theorem ChainTrail.outputMessages_sublist {l : List (Event × HeedDb)}
    (h : ChainTrail X cfg db txs l) :
    List.Sublist ((outputMessages l).map (fun a => (a.1, a.2.1))) txs := by
  induction h with
  | nil => exact List.Sublist.refl []
  | @quiet db e db' txs l hq _ ih =>
    have hnone : messageOf e = none := hq.2.1
    simp only [outputMessages, messages, List.filterMap_cons, hnone] at ih ⊢
    exact ih
  | transaction ht _ ih =>
    rw [outputMessages_append, List.map_append]
    exact ht.outputMessages_sublist.append ih

theorem ChainTrail.outputMessages_pairwise {l : List (Event × HeedDb)}
    (h : ChainTrail X cfg db txs l) (hspent : (spentOutpoints txs).Nodup) :
    (outputMessages l).Pairwise (fun a b => ∀ o, firstSpent a.2.1 = some o →
      firstSpent b.2.1 ≠ some o) := by
  have htxs : txs.Pairwise (fun a b => ∀ o, firstSpent a.2 = some o → firstSpent b.2 ≠ some o) := by
    refine (List.nodup_flatMap.mp hspent).2.imp ?_
    intro a b hab o ha hb
    exact hab (firstSpent_mem ha) (firstSpent_mem hb)
  exact List.pairwise_map.mp (htxs.sublist h.outputMessages_sublist)

theorem ChainTrail.message_mem {l : List (Event × HeedDb)} (h : ChainTrail X cfg db txs l)
    {a : BlockContext × Transaction × IpcMessage} (ha : a ∈ messages l) : (a.1, a.2.1) ∈ txs := by
  induction h with
  | nil => cases ha
  | @quiet db e db' txs l hq _ ih =>
    have hnone : messageOf e = none := hq.2.1
    simp only [messages, List.filterMap_cons, hnone] at ha
    exact ih ha
  | transaction ht _ ih =>
    rcases List.mem_append.mp (messages_append _ _ ▸ ha) with ha | ha
    · obtain ⟨ms, -, hms, -, -⟩ := ht.once
      rw [hms] at ha
      obtain ⟨m, -, rfl⟩ := List.mem_map.mp ha
      exact List.mem_cons_self
    · exact List.mem_cons_of_mem _ (ih ha)

theorem ChainTrail.transaction_mem {l : List (Event × HeedDb)} (h : ChainTrail X cfg db txs l)
    {a : Event × HeedDb} (ha : a ∈ l) {t : Transaction} (ht : transactionOf a.1 = some t) :
    t ∈ txs.map Prod.snd := by
  induction h with
  | nil => cases ha
  | quiet hq _ ih =>
    rcases List.mem_cons.mp ha with rfl | ha
    · cases hq.2.2 t ht
    · exact ih ha
  | transaction hl _ ih =>
    rcases List.mem_append.mp ha with ha | ha
    · rw [hl.saved a ha t ht]
      exact List.mem_cons_self
    · exact List.mem_cons_of_mem _ (ih ha)

theorem chains_of_quiet {p : MonitorProc Unit} (h : Steps (Quiet X) p) : Chains X cfg p [] := by
  intro db
  obtain ⟨l, hl, hc⟩ := h db
  refine ⟨[], l, ?_, hc, List.nil_prefix, fun _ => rfl⟩
  clear hc
  induction l generalizing db with
  | nil => exact .nil
  | cons a rest ih => exact .quiet hl.1 (ih a.2 hl.2)

theorem Chains.bind {p q : MonitorProc Unit} (hp : Chains X cfg p txs)
    (hq : Chains X cfg q txs') : Chains X cfg (p >>= fun _ => q) (txs ++ txs') := by
  intro db
  obtain ⟨done, l, hl, hc, hpre, hall⟩ := hp db
  cases hout : (p db).outcome with
  | error e =>
    rw [Proc.bind_error hout]
    refine ⟨done, l, hl, hc, hpre.trans (List.prefix_append _ _), ?_⟩
    intro h
    cases h
  | ok u =>
    rw [Proc.bind_ok hout]
    obtain ⟨done', l', hl', hc', hpre', hall'⟩ := hq ((p db).store db)
    have hlast : lastStore db l = (p db).store db := by rw [lastStore, hc]; rfl
    refine ⟨done ++ done', l ++ l', hl.append (by rw [hlast]; exact hl'),
      by rw [List.map_append, hc, hc'], ?_, ?_⟩
    · rw [hall hout]
      exact (List.prefix_append_right_inj txs).mpr hpre'
    · intro h
      rw [hall hout, hall' h]

theorem chains_each {α : Type} {f : α → MonitorProc Unit}
    {g : α → List (BlockContext × Transaction)} (h : ∀ a, Chains X cfg (f a) (g a)) (l : List α) :
    Chains X cfg (Proc.each f l) (l.flatMap g) := by
  induction l with
  | nil => exact chains_of_quiet (Steps.ret ())
  | cons a rest ih => exact (h a).bind ih

theorem chains_processTransaction (ctx : BlockContext) (tx : Transaction) :
    Chains X cfg (processTransaction X cfg ctx tx) [(ctx, tx)] := by
  intro db
  obtain ⟨l, hl⟩ := exists_transactionTrail (X := X) cfg ctx tx db
  refine ⟨[(ctx, tx)], l, ?_, hl.commits, List.prefix_rfl, fun _ => rfl⟩
  have hchain : ChainTrail X cfg db [(ctx, tx)] (l ++ []) := .transaction hl .nil
  rwa [List.append_nil] at hchain

theorem chains_processBlockData (ctx : BlockContext) (txs : List Transaction) :
    Chains X cfg (processBlockData X cfg ctx txs) (txs.map (fun tx => (ctx, tx))) := by
  rw [List.map_eq_flatMap]
  exact chains_each (chains_processTransaction ctx) txs

theorem chains_syncBlock (ctx : BlockContext) (txs : List Transaction) :
    Chains X cfg (syncBlock X cfg ctx txs) (txs.map (fun tx => (ctx, tx))) := by
  have hquiet : Steps (Quiet X) (do
      let db ← Proc.read
      Proc.commit (db.setLastProcessedBlock ctx.blockHeight)
      rewardBlock X cfg ctx : MonitorProc Unit) := by
    intro db
    obtain ⟨l, hl, hc⟩ := (steps_rewardBlock cfg ctx).mono quiet_of_rewardStep
      (db.setLastProcessedBlock ctx.blockHeight)
    exact ⟨(.block ctx.blockHeight, db.setLastProcessedBlock ctx.blockHeight) :: l,
      ⟨⟨.block, rfl, by simp [transactionOf]⟩, hl⟩, by rw [List.map_cons, hc]; rfl⟩
  have hdata : Chains X cfg (processBlockData X cfg ctx txs) (txs.map (fun tx => (ctx, tx))) :=
    chains_processBlockData ctx txs
  unfold syncBlock
  rw [← List.append_nil (txs.map (fun tx => (ctx, tx)))]
  exact hdata.bind (chains_of_quiet hquiet)

/-- What the monitor commits while it synchronises blocks is the trail of the chain
of their transactions. -/
theorem chains_sync (cfg : Config) (blocks : List (BlockContext × List Transaction)) :
    Chains X cfg (sync X cfg blocks) (blocks.flatMap (fun b => b.2.map (fun tx => (b.1, tx)))) := by
  have hblock : ∀ b : BlockContext × List Transaction,
      Chains X cfg (syncBlock X cfg b.1 b.2) (b.2.map (fun tx => (b.1, tx))) :=
    fun b => chains_syncBlock b.1 b.2
  exact chains_each hblock blocks

theorem ChainTrail.snoc {l l' : List (Event × HeedDb)} {ctx : BlockContext} {tx : Transaction}
    (h : ChainTrail X cfg db txs l) (ht : TransactionTrail X cfg ctx tx (lastStore db l) l') :
    ChainTrail X cfg db (txs ++ [(ctx, tx)]) (l ++ l') := by
  have hlast : ChainTrail X cfg (lastStore db l) [(ctx, tx)] (l' ++ []) := .transaction ht .nil
  rw [List.append_nil] at hlast
  exact h.append hlast

/-- A condition on the steps of a chain that follows from one on the versions before
them, for the messages of its transactions. -/
theorem ChainTrail.allSteps {C : HeedDb → Event → HeedDb → Prop} {P : HeedDb → Prop}
    {l : List (Event × HeedDb)} (h : ChainTrail X cfg db txs l)
    (himp : ∀ s e t, Commit X s e t → P s →
      (∀ a, messageOf e = some a → (a.1, a.2.1) ∈ txs) → C s e t)
    (hP : ∀ t ∈ db :: l.map Prod.snd, P t) : AllSteps C db l := by
  refine allSteps_of_trail (D := fun s _ _ => P s) ?_ h.trail
    (allSteps_of_stores (fun _ _ _ hs => hs) hP)
  intro a ha s hstep hs
  refine himp s a.1 a.2 hstep hs ?_
  intro b hb
  exact h.message_mem (List.mem_filterMap.mpr ⟨a, ha, hb⟩)

/-- The chain of transactions that are processed without an error. -/
theorem exists_chainTrail (cfg : Config) (ctx : BlockContext) (txs : List Transaction)
    (db : HeedDb) (hok : (processBlockData X cfg ctx txs db).outcome.toOption = some ()) :
    ∃ l, ChainTrail X cfg db (txs.map (fun tx => (ctx, tx))) l ∧
      l.map Prod.snd = (processBlockData X cfg ctx txs db).commits ∧
      lastStore db l = (processBlockData X cfg ctx txs db).store db := by
  have hchains : Chains X cfg (processBlockData X cfg ctx txs) (txs.map (fun tx => (ctx, tx))) :=
    chains_processBlockData ctx txs
  obtain ⟨done, l, hl, hc, -, hall⟩ := hchains db
  rw [hall (toOption_eq_some.mp hok)] at hl
  exact ⟨l, hl, hc, by rw [lastStore, hc]; rfl⟩

/-- The run of a list of transactions, as a trail that ends in its last version. -/
theorem exists_trail (cfg : Config) (ctx : BlockContext) (txs : List Transaction) (db : HeedDb) :
    ∃ l, Trail (Commit X) db l ∧ l.map Prod.snd = (processBlockData X cfg ctx txs db).commits ∧
      lastStore db l = (processBlockData X cfg ctx txs db).store db := by
  have hchains : Chains X cfg (processBlockData X cfg ctx txs) (txs.map (fun tx => (ctx, tx))) :=
    chains_processBlockData ctx txs
  obtain ⟨done, l, hl, hc, -, -⟩ := hchains db
  exact ⟨l, hl.trail, hc, by rw [lastStore, hc]; rfl⟩

end Chains

end Monitor
